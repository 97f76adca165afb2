import TokenWeasel.Proxy.Headers

/-!
# Active responses (`twl-server/src/proxy/headers.rs`)

An upstream response that a browser would run is served under a sandbox policy.  Which responses
are active is read off the first `Content-Type` line; every other line is copied as it is.
-/

namespace TokenWeasel.Proxy

open Server

/-! ## The forwarded response -/

/-- The media types whose content runs. -/
def isActiveMime (mime : Text) : Bool :=
  Text.eqIgnoreAsciiCase mime "text/html".toList ||
    Text.eqIgnoreAsciiCase mime "application/xhtml+xml".toList ||
    Text.eqIgnoreAsciiCase mime "image/svg+xml".toList

/-- The code's `active_html`. -/
def activeHtml (headers : HeaderMap) : Bool :=
  -- only the first line, and only if it is visible ASCII
  ((headers.get "content-type").bind toStr).any fun value ↦
    isActiveMime (Text.trim ((value.splitOn ';').headD []))

/-- The lines of an active response that are not the upstream's to set. -/
def activeSkip : List String :=
  ["content-disposition", "content-security-policy", "content-security-policy-report-only",
    "x-content-type-options"]

def sandboxLines : HeaderMap :=
  [fieldLine "content-security-policy"
      "sandbox; default-src 'none'; base-uri 'none'; form-action 'none'",
    fieldLine "x-content-type-options" "nosniff",
    fieldLine "content-disposition" "attachment"]

/-- Each line is appended to the lines of the builder. -/
def forwardResponseHeaders (builder headers : HeaderMap) : HeaderMap :=
  let activeHtml := activeHtml headers
  let extraSkip := if activeHtml then activeSkip else []
  -- `Builder::header` appends, so nothing here replaces a line
  let builder := builder ++ skipHeaders false headers extraSkip
  if activeHtml then builder ++ sandboxLines else builder

/-! ## What a browser sees -/

def semicolon : UInt8 := 0x3B

/-- The media type of a value: its bytes before the first semicolon, trimmed. -/
def mediaType (value : List UInt8) : List UInt8 := trimOws ((value.splitOn semicolon).headD [])

def IsActive (value : List UInt8) : Prop := isActiveMime (chars (mediaType value)) = true

instance (value : List UInt8) : Decidable (IsActive value) := inferInstanceAs (Decidable (_ = true))

/-- Some `Content-Type` line is of an active type. -/
def ServesActive (headers : HeaderMap) : Prop :=
  ∃ value ∈ headers.getAll "content-type", IsActive value

instance (headers : HeaderMap) : Decidable (ServesActive headers) :=
  inferInstanceAs (Decidable (∃ value ∈ headers.getAll "content-type", _))

/-- The sandbox policy and nothing that relaxes it. -/
structure Sandboxed (response : HeaderMap) : Prop where
  policy : response.getAll "content-security-policy" =
    [(fieldLine "" "sandbox; default-src 'none'; base-uri 'none'; form-action 'none'").2]
  reportOnly : response.getAll "content-security-policy-report-only" = []
  nosniff : response.getAll "x-content-type-options" = [(fieldLine "" "nosniff").2]
  attachment : response.getAll "content-disposition" = [(fieldLine "" "attachment").2]
  noCookie : response.getAll "set-cookie" = []

/-- The first `Content-Type` line is readable and of an active type. -/
def DetectedActive (headers : HeaderMap) : Prop :=
  ∃ value, headers.get "content-type" = some value ∧ (toStr value).isSome = true ∧ IsActive value

/-- The upstream itself sends the sandbox policy. -/
structure AlreadySandboxed (headers : HeaderMap) : Prop where
  policy : passed headers "content-security-policy" =
    [(fieldLine "" "sandbox; default-src 'none'; base-uri 'none'; form-action 'none'").2]
  reportOnly : passed headers "content-security-policy-report-only" = []
  nosniff : passed headers "x-content-type-options" = [(fieldLine "" "nosniff").2]
  attachment : passed headers "content-disposition" = [(fieldLine "" "attachment").2]

/-- On a readable value the code sees the media type. -/
theorem mime_of_readable {value : List UInt8} (h : ∀ b ∈ value, isVisibleAscii b = true) :
    Text.trim (((chars value).splitOn ';').headD []) = chars (mediaType value) := by
  have hsplit : (chars value).splitOn ';' = (value.splitOn semicolon).map chars :=
    splitOn_chars value semicolon (by decide +kernel)
  rw [hsplit, mediaType]
  cases helements : value.splitOn semicolon with
  | nil => rfl
  | cons element elements =>
      apply trim_chars
      intro b hb
      have helement : element ∈ value.splitOn semicolon := by
        rw [helements]
        exact List.mem_cons_self
      exact h b (Library.mem_of_mem_splitOn helement hb)

theorem activeHtml_iff (headers : HeaderMap) :
    activeHtml headers = true ↔ DetectedActive headers := by
  unfold activeHtml DetectedActive
  cases headers.get "content-type" with
  | none => simp
  | some value =>
      by_cases hvisible : ∀ b ∈ value, isVisibleAscii b = true
      · rw [Option.bind_some, toStr_eq hvisible, Option.any_some]
        show isActiveMime (Text.trim (((chars value).splitOn ';').headD [])) = true ↔ _
        rw [mime_of_readable hvisible]
        constructor
        · exact fun h ↦ ⟨value, rfl, by rw [toStr_eq hvisible]; rfl, h⟩
        · rintro ⟨other, heq, -, hactive⟩
          rw [Option.some.inj heq]
          exact hactive
      · have hunread : toStr value = none := by
          apply if_neg
          rw [List.all_eq_true]
          exact hvisible
        simp [hunread]

/-- A response that is not detected keeps the lines of the upstream. -/
theorem getAll_undetected {headers : HeaderMap} (h : activeHtml headers = false) {name : String}
    (hname : name ∉ skipResponseHeaders) :
    (forwardResponseHeaders [] headers).getAll name = passed headers name := by
  have hforward : forwardResponseHeaders [] headers = skipHeaders false headers [] := by
    simp [forwardResponseHeaders, h]
  rw [hforward, getAll_skipHeaders, passed]
  simp [skipList, hname]

/-- A detected response has the sandbox lines where the upstream's were. -/
theorem getAll_detected {headers : HeaderMap} (h : activeHtml headers = true) {name : String}
    (hname : name ∈ skipResponseHeaders ∨ name ∈ activeSkip) :
    (forwardResponseHeaders [] headers).getAll name = sandboxLines.getAll name := by
  have hforward : forwardResponseHeaders [] headers =
      skipHeaders false headers activeSkip ++ sandboxLines := by
    simp [forwardResponseHeaders, h]
  rw [hforward, HeaderMap.getAll_append, getAll_skipHeaders, if_pos, List.nil_append]
  cases hname with
  | inl hstatic => exact Or.inl hstatic
  | inr hextra => exact Or.inr (Or.inr hextra)

theorem sandboxed_of_detected {headers : HeaderMap} (h : activeHtml headers = true) :
    Sandboxed (forwardResponseHeaders [] headers) where
  policy := (getAll_detected h (Or.inr (by decide))).trans (by decide)
  reportOnly := (getAll_detected h (Or.inr (by decide))).trans (by decide)
  nosniff := (getAll_detected h (Or.inr (by decide))).trans (by decide)
  attachment := (getAll_detected h (Or.inr (by decide))).trans (by decide)
  noCookie := (getAll_detected h (Or.inl (by decide))).trans (by decide)

theorem sandboxed_of_undetected {headers : HeaderMap} (h : activeHtml headers = false) :
    Sandboxed (forwardResponseHeaders [] headers) ↔ AlreadySandboxed headers := by
  have hcookie : (forwardResponseHeaders [] headers).getAll "set-cookie" = [] := by
    have hforward : forwardResponseHeaders [] headers = skipHeaders false headers [] := by
      simp [forwardResponseHeaders, h]
    rw [hforward, getAll_skipHeaders, if_pos (Or.inl (by decide))]
  constructor
  · intro hsandboxed
    exact {
      policy := (getAll_undetected h (by decide)).symm.trans hsandboxed.policy
      reportOnly := (getAll_undetected h (by decide)).symm.trans hsandboxed.reportOnly
      nosniff := (getAll_undetected h (by decide)).symm.trans hsandboxed.nosniff
      attachment := (getAll_undetected h (by decide)).symm.trans hsandboxed.attachment }
  · intro halready
    exact {
      policy := (getAll_undetected h (by decide)).trans halready.policy
      reportOnly := (getAll_undetected h (by decide)).trans halready.reportOnly
      nosniff := (getAll_undetected h (by decide)).trans halready.nosniff
      attachment := (getAll_undetected h (by decide)).trans halready.attachment
      noCookie := hcookie }

/-- A forwarded response is sandboxed when its activity is detected, or when the upstream had
sandboxed it already. -/
theorem sandboxed_iff (headers : HeaderMap) :
    Sandboxed (forwardResponseHeaders [] headers) ↔
      DetectedActive headers ∨ AlreadySandboxed headers := by
  rw [← activeHtml_iff]
  cases hactive : activeHtml headers with
  | true => exact ⟨fun _ ↦ Or.inl rfl, fun _ ↦ sandboxed_of_detected hactive⟩
  | false =>
      rw [sandboxed_of_undetected hactive]
      constructor
      · exact Or.inr
      · exact fun h ↦ h.resolve_left (by decide)

/-- Active content is sandboxed exactly when the first `Content-Type` line shows it, or the upstream
sandboxed it. -/
theorem active_sandboxed_iff (headers : HeaderMap) :
    (ServesActive headers → Sandboxed (forwardResponseHeaders [] headers)) ↔
      (ServesActive headers → DetectedActive headers ∨ AlreadySandboxed headers) :=
  imp_congr_right fun _ ↦ sandboxed_iff headers

/-- An HTML response with one opaque byte in a parameter of its type. -/
def opaqueParameter : HeaderMap :=
  [("content-type", (fieldLine "" "text/html; x=").2 ++ [0xE9]),
    fieldLine "content-security-policy" "script-src * 'unsafe-inline'"]

/-- It is forwarded with the policy of the upstream. -/
theorem opaqueParameter_unsandboxed :
    ServesActive opaqueParameter ∧ ¬ Sandboxed (forwardResponseHeaders [] opaqueParameter) := by
  refine ⟨by decide +kernel, fun h ↦ ?_⟩
  exact absurd h.policy (by decide +kernel)

end TokenWeasel.Proxy
