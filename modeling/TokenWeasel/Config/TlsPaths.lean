import TokenWeasel.Config.Model
import TokenWeasel.Library.Checks
import TokenWeasel.Library.LexicalPath

/-!
# The paths of the certificate and its key (`TlsConfig::validate_distinct_paths`)

The two are compared as they are written, and by what they lead to where there is something.
-/

namespace TokenWeasel.Config

open Library

/-- The components of an absolute path behind its root, as Unix has them. -/
def components (path : String) : List (PathStep String) :=
  ((path.toList.splitOn '/').filter fun name ↦ name ≠ [] ∧ name ≠ ['.']).map fun name ↦
    if name = ['.', '.'] then .up else .down (String.ofList name)

structure ComparableTlsPath where
  normalized : List String
  canonical : Option String

/-- `current_dir()?.join(path)` for a path without a root. -/
def absolutePath (m : Machine) (path : String) : Except ConfigError String :=
  if path.toList.head? = some '/' then .ok path
  else
    match m.currentDir with
    | .error e => .error (.bare s!"failed to resolve TLS path: {e}")
    | .ok dir => .ok (dir ++ "/" ++ path)

def canonicalPath (m : Machine) (path : String) : Except ConfigError (Option String) :=
  match m.tryExists path with
  | .error e => .error (.bare s!"failed to inspect TLS path: {e}")
  | .ok false => .ok none
  | .ok true =>
    match m.canonicalize path with
    | .error e => .error (.bare s!"failed to canonicalize TLS path: {e}")
    | .ok canonical => .ok (some canonical)

def comparableTlsPath (m : Machine) (path : String) : Except ConfigError ComparableTlsPath := do
  let absolute ← absolutePath m path
  let canonical ← canonicalPath m path
  .ok { normalized := normalizePath (components absolute), canonical := canonical }

/-- The two paths are one, as they are written or by what is there. -/
def ComparableTlsPath.Same (cert key : ComparableTlsPath) : Prop :=
  cert.normalized = key.normalized ∨ (cert.canonical.isSome ∧ cert.canonical = key.canonical)

instance (cert key : ComparableTlsPath) : Decidable (cert.Same key) :=
  inferInstanceAs (Decidable (_ ∨ _))

def TlsConfig.validateDistinctPaths (m : Machine) (tls : TlsConfig) : Except ConfigError Unit :=
  if ¬ tls.enabled then .ok ()
  else do
    let cert ← comparableTlsPath m tls.certPath
    let key ← comparableTlsPath m tls.keyPath
    require (¬ cert.Same key) (.validation
      "TLS certificate and private key paths must resolve to different files")

/-! ## What the check is worth -/

section Paths

variable {m : Machine} {tls : TlsConfig} {cert key : String}

theorem comparableTlsPath_normalized {path absolute : String} {comparable : ComparableTlsPath}
    (h : comparableTlsPath m path = .ok comparable)
    (habsolute : absolutePath m path = .ok absolute) :
    comparable.normalized = normalizePath (components absolute) ∧
      canonicalPath m path = .ok comparable.canonical := by
  unfold comparableTlsPath at h
  rw [habsolute] at h
  rcases except_bind_eq_ok.mp h with ⟨_, habs, h⟩
  rcases except_bind_eq_ok.mp h with ⟨canonical, hcanonical, h⟩
  cases habs
  cases h
  exact ⟨rfl, hcanonical⟩

theorem canonicalPath_of_exists {path canonical : String} (hexists : m.tryExists path = .ok true)
    (hcanonical : m.canonicalize path = .ok canonical) :
    canonicalPath m path = .ok (some canonical) := by
  unfold canonicalPath
  rw [hexists]
  dsimp only
  rw [hcanonical]

theorem validateDistinctPaths_ok (henabled : tls.enabled = true) :
    tls.validateDistinctPaths m = .ok () ↔
      ∃ c k, comparableTlsPath m tls.certPath = .ok c ∧ comparableTlsPath m tls.keyPath = .ok k ∧
        ¬ c.Same k := by
  unfold TlsConfig.validateDistinctPaths
  rw [henabled, if_neg (by decide), except_bind_eq_ok]
  simp only [except_bind_eq_ok, require_eq_ok]
  constructor
  · intro h
    rcases h with ⟨c, hc, k, hk, hdiffer⟩
    exact ⟨c, k, hc, hk, hdiffer⟩
  · intro h
    rcases h with ⟨c, k, hc, hk, hdiffer⟩
    exact ⟨c, hc, k, hk, hdiffer⟩

/-- The process sees a file system without links and without faults.  What is canonical there is
the normal form of the path. -/
structure LinkFree (m : Machine) : Prop where
  currentDir : ∃ dir, m.currentDir = .ok dir
  tryExists : ∀ path, ∃ found, m.tryExists path = .ok found
  canonicalize : ∀ path absolute, m.tryExists path = .ok true →
    absolutePath m path = .ok absolute → ∃ canonical, m.canonicalize path = .ok canonical ∧
      components canonical = (normalizePath (components absolute)).map .down

theorem LinkFree.comparable (h : LinkFree m) {path absolute : String}
    (habsolute : absolutePath m path = .ok absolute) :
    ∃ comparable, comparableTlsPath m path = .ok comparable ∧
      ∀ canonical ∈ comparable.canonical,
        components canonical = (normalizePath (components absolute)).map .down := by
  unfold comparableTlsPath
  rw [habsolute]
  rcases h.tryExists path with ⟨found, hfound⟩
  cases found with
  | false =>
      have hnone : canonicalPath m path = .ok none := by
        unfold canonicalPath
        rw [hfound]
      rw [hnone]
      exact ⟨_, rfl, fun canonical hcanonical ↦ by cases hcanonical⟩
  | true =>
      rcases h.canonicalize path absolute hfound habsolute with ⟨canonical, hcanonical, hnames⟩
      rw [canonicalPath_of_exists hfound hcanonical]
      refine ⟨_, rfl, ?_⟩
      intro other hother
      cases hother
      exact hnames

/-- Files that are there are not one file under two names.  In a file system without links the
check is exact, also for what is not there yet: it accepts two paths exactly if they lead to
different files, whenever they lead somewhere. -/
theorem distinct_paths_exact (m : Machine) (tls : TlsConfig) (henabled : tls.enabled = true) :
    (tls.validateDistinctPaths m = .ok () →
      ∀ certFile keyFile, m.tryExists tls.certPath = .ok true →
        m.canonicalize tls.certPath = .ok certFile → m.tryExists tls.keyPath = .ok true →
        m.canonicalize tls.keyPath = .ok keyFile → certFile ≠ keyFile) ∧
    ∀ {ν : Type} (tree : FileTree ν String) (cert key : String) (certNode keyNode : ν),
      absolutePath m tls.certPath = .ok cert → absolutePath m tls.keyPath = .ok key →
      tree.walk (components cert) = some certNode → tree.walk (components key) = some keyNode →
      (tls.validateDistinctPaths m = .ok () → certNode ≠ keyNode) ∧
        (LinkFree m → certNode ≠ keyNode → tls.validateDistinctPaths m = .ok ()) := by
  rw [validateDistinctPaths_ok henabled]
  constructor
  · intro h certFile keyFile hcert hcertFile hkey hkeyFile heq
    rcases h with ⟨c, k, hc, hk, hdiffer⟩
    rcases except_bind_eq_ok.mp hc with ⟨cert, habsCert, -⟩
    rcases except_bind_eq_ok.mp hk with ⟨key, habsKey, -⟩
    have hcanonicalCert := (comparableTlsPath_normalized hc habsCert).2
    have hcanonicalKey := (comparableTlsPath_normalized hk habsKey).2
    rw [canonicalPath_of_exists hcert hcertFile, Except.ok.injEq] at hcanonicalCert
    rw [canonicalPath_of_exists hkey hkeyFile, Except.ok.injEq] at hcanonicalKey
    apply hdiffer
    right
    rw [← hcanonicalCert, ← hcanonicalKey, heq]
    exact ⟨rfl, rfl⟩
  · intro ν tree cert key certNode keyNode habsCert habsKey hwalkCert hwalkKey
    have hmeet := FileTree.walk_eq_iff hwalkCert hwalkKey
    constructor
    · intro h heq
      rcases h with ⟨c, k, hc, hk, hdiffer⟩
      apply hdiffer
      left
      rw [(comparableTlsPath_normalized hc habsCert).1,
        (comparableTlsPath_normalized hk habsKey).1]
      exact hmeet.mp heq
    · intro hlinkFree hne
      rcases hlinkFree.comparable habsCert with ⟨c, hc, hcanonicalCert⟩
      rcases hlinkFree.comparable habsKey with ⟨k, hk, hcanonicalKey⟩
      refine ⟨c, k, hc, hk, ?_⟩
      intro hsame
      apply hne
      apply hmeet.mpr
      cases hsame with
      | inl hnormalized =>
          rw [(comparableTlsPath_normalized hc habsCert).1,
            (comparableTlsPath_normalized hk habsKey).1] at hnormalized
          exact hnormalized
      | inr hcanonical =>
          -- one canonical text has one list of names
          rcases Option.isSome_iff_exists.mp hcanonical.1 with ⟨canonical, hsome⟩
          have hnames := hcanonicalCert canonical hsome
          have hnames' := hcanonicalKey canonical (hcanonical.2 ▸ hsome)
          rw [hnames] at hnames'
          exact List.map_injective_iff.mpr (fun _ _ h ↦ PathStep.down.inj h) hnames'

/-- A key path that leads to the certificate in other words is refused. -/
theorem distinct_paths_exact_spelling :
    ({ certPath := "tls/cert.pem", keyPath := "/srv//tls/keys/../cert.pem" } :
      TlsConfig).validateDistinctPaths bareMachine ≠ .ok () := by
  intro h
  exact ((distinct_paths_exact bareMachine
    { certPath := "tls/cert.pem", keyPath := "/srv//tls/keys/../cert.pem" } rfl).2
      (FileTree.full String) "/srv/tls/cert.pem" "/srv//tls/keys/../cert.pem"
      ["srv", "tls", "cert.pem"] ["srv", "tls", "cert.pem"] rfl rfl (by decide) (by decide)).1 h rfl

end Paths

end TokenWeasel.Config
