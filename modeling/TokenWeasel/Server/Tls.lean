import TokenWeasel.Config.TlsPaths
import TokenWeasel.Library.Schedule

/-!
# The certificate and its key (`twl-server/src/tls.rs`)

A start loads the two files, or generates a pair and writes them one after the other.  It may be
stopped anywhere, and the next start finds what it left.  Where a path leads is a parameter: through
links several paths may lead to one place, but no link changes from one start to the next.
-/

namespace TokenWeasel.Server.Tls

open Library Config

/-- A text in PEM. -/
abbrev Pem := List UInt8

structure File where
  text : Pem
  mode : Nat
  deriving DecidableEq, Repr

section Disk

variable {ι : Type} [DecidableEq ι]

/-- The regular files by their places. -/
abbrev Disk (ι : Type) := ι → Option File

/-- A file that is there keeps its mode. -/
def Disk.put (disk : Disk ι) (place : ι) (mode : Nat) (text : Pem) : Disk ι :=
  Function.update disk place (some ⟨text, ((disk place).map File.mode).getD mode⟩)

theorem Disk.put_self (disk : Disk ι) (place : ι) (mode : Nat) (text : Pem) :
    disk.put place mode text place = some ⟨text, ((disk place).map File.mode).getD mode⟩ :=
  Function.update_self ..

theorem Disk.put_of_ne (disk : Disk ι) {place other : ι} (h : other ≠ place) (mode : Nat)
    (text : Pem) : disk.put place mode text other = disk other :=
  Function.update_of_ne h ..

/-- How the writing of a file ends. -/
inductive Write where
  | done
  | notOpened (message : String)
  | stopped (written : Nat) (message : String)
  deriving DecidableEq, Repr

def Disk.write (disk : Disk ι) (place : ι) (mode : Nat) (text : Pem) :
    Write → Except String Unit × Disk ι
  | .done => (.ok (), disk.put place mode text)
  | .notOpened e => (.error e, disk)
  | .stopped written e => (.error e, disk.put place mode (text.take written))

end Disk

/-- What a start meets. -/
structure Start where
  tryExists : String → Except String Bool
  canonicalize : String → Except String String
  readFault : Option String
  /-- The certificate and the key for the hostnames. -/
  generated : Except String (Pem × Pem)
  directories : Option String
  /-- The mode of a new file. -/
  newMode : Nat
  certWrite : Write
  keyWrite : Write

inductive TlsError where
  | paths (error : ConfigError)
  | other (message : String)
  deriving DecidableEq, Repr

/-- A umask that takes nothing of the owner leaves it as it is. -/
def keyMode : Nat := 0o600

/-- The mode of a new key: only Unix has one for it. -/
def Start.modeOfKey (unix : Bool) (start : Start) : Nat := if unix then keyMode else start.newMode

theorem Start.modeOfKey_unix {unix : Bool} (start : Start) (hunix : unix = true) :
    start.modeOfKey unix = keyMode := if_pos hunix

/-- `RustlsConfig::from_pem`. -/
def served (fromPem : Pem → Pem → Except String Unit) (certPem keyPem : Pem) :
    Except TlsError (Pem × Pem) :=
  match fromPem certPem keyPem with
  | .error e => .error (.other e)
  | .ok () => .ok (certPem, keyPem)

section Steps

variable {ι : Type} [DecidableEq ι]

/-- What comes behind the generation: the certificate is written first. -/
def writePair (unix : Bool) (fromPem : Pem → Pem → Except String Unit) (start : Start)
    (cert key : ι) (certPem keyPem : Pem) (disk : Disk ι) :
    Except TlsError (Pem × Pem) × Disk ι :=
  match disk.write cert start.newMode certPem start.certWrite with
  | (.error e, disk) => (.error (.other e), disk)
  | (.ok (), disk) =>
    match disk.write key (start.modeOfKey unix) keyPem start.keyWrite with
    | (.error e, disk) => (.error (.other e), disk)
    | (.ok (), disk) => (served fromPem certPem keyPem, disk)

def loadOrGenerateAt (unix : Bool) (fromPem : Pem → Pem → Except String Unit) (start : Start)
    (cert key : ι) (disk : Disk ι) : Except TlsError (Pem × Pem) × Disk ι :=
  match disk cert, disk key with
  -- both are files: nothing is written, whatever is in them
  | some certFile, some keyFile =>
    match start.readFault with
    | some e => (.error (.other e), disk)
    | none => (served fromPem certFile.text keyFile.text, disk)
  | _, _ =>
    match start.generated, start.directories with
    | .error e, _ => (.error (.other e), disk)
    | .ok _, some e => (.error (.other e), disk)
    | .ok (certPem, keyPem), none => writePair unix fromPem start cert key certPem keyPem disk

/-- The process stays in its directory; what exists is another thing at every start. -/
def Start.machine (start : Start) (m : Machine) : Machine :=
  { m with tryExists := start.tryExists, canonicalize := start.canonicalize }

/-- `places` is where a path leads. -/
def loadOrGenerate (unix : Bool) (fromPem : Pem → Pem → Except String Unit) (m : Machine)
    (places : String → ι) (tls : TlsConfig) (start : Start) (disk : Disk ι) :
    Except TlsError (Pem × Pem) × Disk ι :=
  match tls.validateDistinctPaths (start.machine m) with
  | .error e => (.error (.paths e), disk)
  | .ok () =>
    loadOrGenerateAt unix fromPem start (places tls.certPath) (places tls.keyPath) disk

/-- The disk, and the pairs that were served by the starts so far. -/
structure World (ι : Type) where
  disk : Disk ι
  served : List (Pem × Pem)

def step (unix : Bool) (fromPem : Pem → Pem → Except String Unit) (m : Machine)
    (places : String → ι) (tls : TlsConfig) (w : World ι) (start : Start) : World ι :=
  match loadOrGenerate unix fromPem m places tls start w.disk with
  | (.error _, disk) => { w with disk := disk }
  | (.ok pair, disk) => { disk := disk, served := w.served ++ [pair] }

end Steps

/-! ## What a start can do -/

section Starts

variable {ι : Type} [DecidableEq ι] {unix : Bool} {fromPem : Pem → Pem → Except String Unit}
  {m : Machine} {places : String → ι} {tls : TlsConfig} {start : Start} {cert key : ι}
  {disk : Disk ι}

/-- How a start ends, and what it leaves. -/
inductive Ends (unix : Bool) (start : Start) (cert key : ι) (disk : Disk ι) :
    Except TlsError (Pem × Pem) → Disk ι → Prop where
  | failed (e : TlsError) : Ends unix start cert key disk (.error e) disk
  | loaded (certFile keyFile : File) (hcert : disk cert = some certFile)
      (hkey : disk key = some keyFile) :
      Ends unix start cert key disk (.ok (certFile.text, keyFile.text)) disk
  | certWritten (certPem keyPem : Pem) (written : Nat) (e : TlsError)
      (hmissing : disk cert = none ∨ disk key = none) :
      Ends unix start cert key disk (.error e) (disk.put cert start.newMode (certPem.take written))
  | keyWritten (certPem keyPem : Pem) (written : Nat) (e : TlsError)
      (hmissing : disk cert = none ∨ disk key = none)
      (hgenerated : start.generated = .ok (certPem, keyPem)) :
      Ends unix start cert key disk (.error e)
        ((disk.put cert start.newMode certPem).put key (start.modeOfKey unix)
          (keyPem.take written))
  | generated (certPem keyPem : Pem) (hmissing : disk cert = none ∨ disk key = none)
      (hgenerated : start.generated = .ok (certPem, keyPem)) :
      Ends unix start cert key disk (.ok (certPem, keyPem))
        ((disk.put cert start.newMode certPem).put key (start.modeOfKey unix) keyPem)

theorem served_cases (fromPem : Pem → Pem → Except String Unit) (certPem keyPem : Pem) :
    (∃ e, served fromPem certPem keyPem = .error e) ∨
      served fromPem certPem keyPem = .ok (certPem, keyPem) := by
  unfold served
  cases fromPem certPem keyPem with
  | error e => exact Or.inl ⟨_, rfl⟩
  | ok _ => exact Or.inr rfl

theorem writePair_ends {certPem keyPem : Pem} (hmissing : disk cert = none ∨ disk key = none)
    (hgenerated : start.generated = .ok (certPem, keyPem)) :
    Ends unix start cert key disk (writePair unix fromPem start cert key certPem keyPem disk).1
      (writePair unix fromPem start cert key certPem keyPem disk).2 := by
  unfold writePair
  cases start.certWrite with
  | notOpened e => exact Ends.failed _
  | stopped written e => exact Ends.certWritten certPem keyPem written _ hmissing
  | done =>
      dsimp only [Disk.write]
      cases start.keyWrite with
      | notOpened e =>
          -- the certificate is there as a whole, and the key is not there at all
          have hwhole : certPem.take certPem.length = certPem := List.take_length
          have hends : Ends unix start cert key disk (.error (.other e))
              (disk.put cert start.newMode (certPem.take certPem.length)) :=
            Ends.certWritten certPem keyPem certPem.length (.other e) hmissing
          rw [hwhole] at hends
          exact hends
      | stopped written e => exact Ends.keyWritten certPem keyPem written _ hmissing hgenerated
      | done =>
          dsimp only [Disk.write]
          cases served_cases fromPem certPem keyPem with
          | inl herror =>
              -- both files stay, and every later start is refused in the same way
              obtain ⟨e, herror⟩ := herror
              have hwhole : keyPem.take keyPem.length = keyPem := List.take_length
              have hends : Ends unix start cert key disk (.error e)
                  ((disk.put cert start.newMode certPem).put key (start.modeOfKey unix)
                    (keyPem.take keyPem.length)) :=
                Ends.keyWritten certPem keyPem keyPem.length e hmissing hgenerated
              rw [hwhole] at hends
              rw [herror]
              exact hends
          | inr hserved =>
              rw [hserved]
              exact Ends.generated certPem keyPem hmissing hgenerated

theorem loadOrGenerateAt_ends :
    Ends unix start cert key disk (loadOrGenerateAt unix fromPem start cert key disk).1
      (loadOrGenerateAt unix fromPem start cert key disk).2 := by
  unfold loadOrGenerateAt
  split
  · rename_i certFile keyFile hcert hkey
    cases start.readFault with
    | some e => exact Ends.failed _
    | none =>
        cases served_cases fromPem certFile.text keyFile.text with
        | inl herror =>
            obtain ⟨e, herror⟩ := herror
            dsimp only
            rw [herror]
            exact Ends.failed e
        | inr hserved =>
            dsimp only
            rw [hserved]
            exact Ends.loaded certFile keyFile hcert hkey
  · rename_i hboth
    have hmissing : disk cert = none ∨ disk key = none := by
      cases hcert : disk cert with
      | none => exact Or.inl rfl
      | some certFile =>
          cases hkey : disk key with
          | none => exact Or.inr rfl
          | some keyFile => exact absurd hkey (hboth certFile keyFile hcert)
    split
    · exact Ends.failed _
    · exact Ends.failed _
    · rename_i certPem keyPem hgenerated _
      exact writePair_ends hmissing hgenerated

/-- Through links the check may accept two paths to one missing file.  The key then goes into the
file of the certificate, with the mode of that. -/
theorem shared_place_exposes (hshared : places tls.certPath = places tls.keyPath)
    (hvalid : tls.validateDistinctPaths (start.machine m) = .ok ())
    (hmissing : disk (places tls.keyPath) = none) {certPem keyPem : Pem}
    (hgenerated : start.generated = .ok (certPem, keyPem)) (hdirectories : start.directories = none)
    (hcertWrite : start.certWrite = .done) (hkeyWrite : start.keyWrite = .done) :
    (loadOrGenerate unix fromPem m places tls start disk).2 (places tls.keyPath) =
      some ⟨keyPem, start.newMode⟩ := by
  unfold loadOrGenerate loadOrGenerateAt
  rw [hvalid, hshared]
  dsimp only
  rw [hmissing, hgenerated, hdirectories]
  unfold writePair
  rw [hcertWrite, hkeyWrite]
  dsimp only [Disk.write]
  rw [Disk.put_self, Disk.put_self, hmissing]
  rfl

theorem loadOrGenerate_ends (unix : Bool) (fromPem : Pem → Pem → Except String Unit) (m : Machine)
    (places : String → ι) (tls : TlsConfig) (start : Start) (disk : Disk ι) :
    (tls.validateDistinctPaths (start.machine m) = .ok () ∧
      Ends unix start (places tls.certPath) (places tls.keyPath) disk
        (loadOrGenerate unix fromPem m places tls start disk).1
        (loadOrGenerate unix fromPem m places tls start disk).2) ∨
    ∃ e, loadOrGenerate unix fromPem m places tls start disk = (.error e, disk) := by
  unfold loadOrGenerate
  cases hvalid : tls.validateDistinctPaths (start.machine m) with
  | error e => exact Or.inr ⟨_, rfl⟩
  | ok _ => exact Or.inl ⟨rfl, loadOrGenerateAt_ends⟩

end Starts

/-! ## Any number of starts -/

section Runs

variable {ι : Type} [DecidableEq ι] {unix : Bool} {fromPem : Pem → Pem → Except String Unit}
  {m : Machine} {places : String → ι} {tls : TlsConfig} {starts : List Start} {start : Start}
  {cert key : ι} {before : Disk ι} {w : World ι}

/-- What every start finds where there was no key in the beginning: a key has its certificate, and
what was served is still there. -/
structure Sound (unix : Bool) (before : Disk ι) (starts : List Start) (cert key : ι) (w : World ι) :
    Prop where
  others : ∀ place, place ≠ cert → place ≠ key → w.disk place = before place
  keys : ∀ keyFile, w.disk key = some keyFile → (unix = true → keyFile.mode = keyMode) ∧
    ∃ certFile, w.disk cert = some certFile ∧ ∃ start ∈ starts, ∃ keyPem,
      start.generated = .ok (certFile.text, keyPem) ∧ keyFile.text <+: keyPem
  served : ∀ pair ∈ w.served, ∃ certFile keyFile, w.disk cert = some certFile ∧
    w.disk key = some keyFile ∧ pair = (certFile.text, keyFile.text)

omit [DecidableEq ι] in
theorem Sound.fresh (hfresh : before key = none) :
    Sound unix before starts cert key ⟨before, []⟩ where
  others := fun _ _ _ ↦ rfl
  keys := by
    intro keyFile hkey
    cases hfresh.symm.trans hkey
  served := fun _ hpair ↦ absurd hpair List.not_mem_nil

omit [DecidableEq ι] in
/-- Where a file is missing there is no key, and nothing was served. -/
theorem Sound.missing (h : Sound unix before starts cert key w)
    (hmissing : w.disk cert = none ∨ w.disk key = none) : w.disk key = none ∧ w.served = [] := by
  have hkey : w.disk key = none := by
    cases hsome : w.disk key with
    | none => rfl
    -- a key has its certificate, so no file would be missing
    | some keyFile =>
        obtain ⟨-, certFile, hcert, -⟩ := h.keys keyFile hsome
        rw [hcert, hsome] at hmissing
        cases hmissing with
        | inl hnone => cases hnone
        | inr hnone => cases hnone
  refine ⟨hkey, ?_⟩
  cases hserved : w.served with
  | nil => rfl
  | cons pair rest =>
      obtain ⟨_, keyFile, -, hsome, -⟩ := h.served pair (by rw [hserved]; exact List.mem_cons_self)
      rw [hkey] at hsome
      cases hsome

/-- A certificate is written where there is no key. -/
theorem Sound.putCert (h : Sound unix before starts cert key w) (hne : cert ≠ key)
    (hmissing : w.disk cert = none ∨ w.disk key = none) (mode : Nat) (text : Pem) :
    Sound unix before starts cert key { w with disk := w.disk.put cert mode text } := by
  obtain ⟨hkey, hserved⟩ := h.missing hmissing
  have hnone : w.disk.put cert mode text key = none := by
    rw [Disk.put_of_ne _ hne.symm, hkey]
  constructor
  · intro place hcert hother
    show w.disk.put cert mode text place = before place
    rw [Disk.put_of_ne _ hcert]
    exact h.others place hcert hother
  · intro keyFile hsome
    cases hnone.symm.trans hsome
  · intro pair hpair
    have hnil : pair ∈ w.served := hpair
    rw [hserved] at hnil
    cases hnil

/-- A key, or its beginning, is written behind its certificate. -/
theorem Sound.putKey (h : Sound unix before starts cert key w) (hne : cert ≠ key)
    (hmissing : w.disk cert = none ∨ w.disk key = none) (hstart : start ∈ starts)
    {certPem keyPem text : Pem} (hgenerated : start.generated = .ok (certPem, keyPem))
    (htext : text <+: keyPem) (mode : Nat) {modeOfKey : Nat}
    (hmode : unix = true → modeOfKey = keyMode) {served : List (Pem × Pem)}
    (hserved : ∀ pair ∈ served, pair = (certPem, text)) :
    Sound unix before starts cert key
      ⟨(w.disk.put cert mode certPem).put key modeOfKey text, served⟩ := by
  have hkey := (h.missing hmissing).1
  have hcertFile : ∃ certFile, (w.disk.put cert mode certPem).put key modeOfKey text cert =
      some certFile ∧ certFile.text = certPem := by
    rw [Disk.put_of_ne _ hne, Disk.put_self]
    exact ⟨_, rfl, rfl⟩
  have hkeyFile : (w.disk.put cert mode certPem).put key modeOfKey text key =
      some ⟨text, modeOfKey⟩ := by
    rw [Disk.put_self, Disk.put_of_ne _ hne.symm, hkey]
    rfl
  obtain ⟨certFile, hcert, rfl⟩ := hcertFile
  constructor
  · intro place hcert' hother
    show (w.disk.put cert mode certFile.text).put key modeOfKey text place = before place
    rw [Disk.put_of_ne _ hother, Disk.put_of_ne _ hcert']
    exact h.others place hcert' hother
  · intro keyFile hsome
    cases hkeyFile.symm.trans hsome
    exact ⟨hmode, certFile, hcert, start, hstart, keyPem, hgenerated, htext⟩
  · intro pair hpair
    exact ⟨certFile, _, hcert, hkeyFile, hserved pair hpair⟩

theorem Sound.step
    (h : Sound unix before starts (places tls.certPath) (places tls.keyPath) w)
    (hdistinct : tls.validateDistinctPaths (start.machine m) = .ok () →
      places tls.certPath ≠ places tls.keyPath)
    (hstart : start ∈ starts) :
    Sound unix before starts (places tls.certPath) (places tls.keyPath)
      (step unix fromPem m places tls w start) := by
  unfold Tls.step
  cases loadOrGenerate_ends unix fromPem m places tls start w.disk with
  | inr hfailed =>
      obtain ⟨e, hfailed⟩ := hfailed
      rw [hfailed]
      exact h
  | inl hends =>
      obtain ⟨hvalid, hends⟩ := hends
      have hne := hdistinct hvalid
      -- the cases of the start are those of the invariant
      generalize loadOrGenerate unix fromPem m places tls start w.disk = result at hends ⊢
      obtain ⟨outcome, disk⟩ := result
      cases hends with
      | failed e => exact h
      | loaded certFile keyFile hcertFile hkeyFile =>
          refine ⟨h.others, h.keys, fun pair hpair ↦ ?_⟩
          cases List.mem_append.mp hpair with
          | inl hold => exact h.served pair hold
          | inr hnew =>
              exact ⟨certFile, keyFile, hcertFile, hkeyFile, List.mem_singleton.mp hnew⟩
      | certWritten certPem keyPem written e hmissing => exact h.putCert hne hmissing _ _
      | keyWritten certPem keyPem written e hmissing hgenerated =>
          have hnil := (h.missing hmissing).2
          apply h.putKey hne hmissing hstart hgenerated (List.take_prefix ..) _
            start.modeOfKey_unix
          intro pair hpair
          rw [hnil] at hpair
          cases hpair
      | generated certPem keyPem hmissing hgenerated =>
          have hnil := (h.missing hmissing).2
          apply h.putKey hne hmissing hstart hgenerated List.prefix_rfl _ start.modeOfKey_unix
          intro pair hpair
          rw [hnil] at hpair
          exact List.mem_singleton.mp hpair

end Runs

end TokenWeasel.Server.Tls
