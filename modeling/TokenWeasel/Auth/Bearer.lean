import TokenWeasel.Server.Metrics

/-!
# The bearer grammar (`twl-auth/src/lib.rs`)

`parse_bearer_credentials` against its grammar, and what it makes its three callers accept.
-/

namespace TokenWeasel.Auth

open Server Management

/-- A scheme, spaces, a token without white space, and what HTTP allows behind it. -/
def IsBearer (s token : Text) : Prop :=
  ∃ scheme spaces trailing, s = scheme ++ spaces ++ token ++ trailing ∧
    Text.eqIgnoreAsciiCase scheme "bearer".toList = true ∧
    (spaces ≠ [] ∧ ∀ c ∈ spaces, c = ' ') ∧
    (∀ c ∈ trailing, c = ' ' ∨ c = '\t') ∧
    token ≠ [] ∧ ∀ c ∈ token, Text.isAsciiWhitespace c = false

/-- The value without its trailing spaces and tabs. -/
def trimBearer (value : Text) : Text :=
  (value.reverse.dropWhile fun c ↦ c == ' ' || c == '\t').reverse

theorem trimBearer_append (value : Text) : ∃ trailing : Text,
    value = trimBearer value ++ trailing ∧ ∀ c ∈ trailing, c = ' ' ∨ c = '\t' := by
  refine ⟨(value.reverse.takeWhile fun c ↦ c == ' ' || c == '\t').reverse, ?_, fun c hc ↦ ?_⟩
  · rw [trimBearer, ← List.reverse_append, List.takeWhile_append_dropWhile, List.reverse_reverse]
  · have hspace := List.mem_takeWhile_imp (List.mem_reverse.mp hc)
    simpa using hspace

theorem trimBearer_padded {value trailing : Text} (hlast : ∀ c ∈ value.getLast?, c ≠ ' ' ∧ c ≠ '\t')
    (htrailing : ∀ c ∈ trailing, c = ' ' ∨ c = '\t') : trimBearer (value ++ trailing) = value := by
  rw [trimBearer, List.reverse_append, Text.dropWhile_padded, List.reverse_reverse]
  · intro c hc
    simpa using htrailing c (List.mem_reverse.mp hc)
  · intro c hc
    rw [List.head?_reverse] at hc
    simpa using hlast c hc

/-- What is parsed, step by step. -/
theorem parseBearerCredentials_eq_some {s token : Text} :
    parseBearerCredentials s = some token ↔
      ∃ scheme credentials, trimBearer s = scheme ++ ' ' :: credentials ∧ ' ' ∉ scheme ∧
        Text.eqIgnoreAsciiCase scheme "Bearer".toList = true ∧
        credentials.dropWhile (· == ' ') = token ∧
        token ≠ [] ∧ ∀ c ∈ token, Text.isAsciiWhitespace c = false := by
  unfold parseBearerCredentials
  rw [← trimBearer]
  dsimp only
  cases hsplit : Text.splitOnce (trimBearer s) ' ' with
  | none =>
      apply iff_of_false (by simp)
      rintro ⟨scheme, credentials, htrim, hspace, -⟩
      rw [Text.splitOnce_eq_some_iff.mpr ⟨htrim, hspace⟩] at hsplit
      cases hsplit
  | some parts =>
      rcases parts with ⟨scheme, credentials⟩
      have hfound := Text.splitOnce_eq_some_iff.mp hsplit
      dsimp only
      constructor
      · intro h
        split at h
        · cases h
        · rename_i hscheme
          split at h
          · cases h
          · rename_i htoken
            have htoken := Bool.eq_false_iff.mpr htoken
            rw [Bool.or_eq_false_iff, List.any_eq_false] at htoken
            cases h
            refine ⟨scheme, credentials, hfound.1, hfound.2, not_not.mp hscheme, rfl, ?_, ?_⟩
            · simpa using htoken.1
            · exact fun c hc ↦ Bool.eq_false_iff.mpr (htoken.2 c hc)
      · rintro ⟨scheme', credentials', htrim, hspace, hscheme, rfl, hne, hplain⟩
        have hsame := hsplit.symm.trans (Text.splitOnce_eq_some_iff.mpr ⟨htrim, hspace⟩)
        cases hsame
        rw [if_neg (not_not.mpr hscheme), if_neg]
        rw [Bool.or_eq_true, List.any_eq_true]
        rintro (hempty | ⟨c, hc, hwhite⟩)
        · exact hne (List.isEmpty_iff.mp hempty)
        · rw [hplain c hc] at hwhite
          exact absurd hwhite Bool.false_ne_true

theorem space_not_mem_scheme {scheme : Text}
    (h : Text.eqIgnoreAsciiCase scheme "bearer".toList = true) : ' ' ∉ scheme := by
  intro hmem
  have hlower : Text.toAsciiLowercase scheme = Text.toAsciiLowercase "bearer".toList :=
    of_decide_eq_true h
  have hspace : ' '.toLower ∈ Text.toAsciiLowercase scheme := List.mem_map_of_mem hmem
  rw [hlower] at hspace
  exact absurd hspace (by decide)

/-- The source compares with a capital letter. -/
theorem eqIgnoreAsciiCase_bearer (scheme : Text) :
    Text.eqIgnoreAsciiCase scheme "Bearer".toList =
      Text.eqIgnoreAsciiCase scheme "bearer".toList := by
  have hlower : Text.toAsciiLowercase "Bearer".toList = Text.toAsciiLowercase "bearer".toList := by
    decide
  rw [Text.eqIgnoreAsciiCase, Text.eqIgnoreAsciiCase, hlower]

/-- The parser accepts the grammar. -/
theorem parseBearerCredentials_iff {s token : Text} :
    parseBearerCredentials s = some token ↔ IsBearer s token := by
  rw [parseBearerCredentials_eq_some]
  simp only [eqIgnoreAsciiCase_bearer]
  constructor
  · rintro ⟨scheme, credentials, htrim, -, hscheme, rfl, hne, hplain⟩
    rcases trimBearer_append s with ⟨trailing, hs, htrailing⟩
    refine ⟨scheme, ' ' :: credentials.takeWhile (· == ' '), trailing, ?_, hscheme, ⟨?_, ?_⟩,
      htrailing, hne, hplain⟩
    · have hline : scheme ++ ' ' :: credentials = scheme ++
          ' ' :: credentials.takeWhile (· == ' ') ++ credentials.dropWhile (· == ' ') := by
        rw [List.append_assoc, List.cons_append, List.takeWhile_append_dropWhile]
      rw [hs, htrim, hline]
    · exact List.cons_ne_nil _ _
    · intro c hc
      cases List.mem_cons.mp hc with
      | inl heq => exact heq
      | inr hmore => simpa using List.mem_takeWhile_imp hmore
  · rintro ⟨scheme, spaces, trailing, rfl, hscheme, ⟨hspaces, hall⟩, htrailing, hne, hplain⟩
    cases spaces with
    | nil => exact absurd rfl hspaces
    | cons first spaces =>
        have hfirst : first = ' ' := hall first List.mem_cons_self
        have hmore : ∀ c ∈ spaces, (c == ' ') = true := fun c hc ↦
          beq_iff_eq.mpr (hall c (List.mem_cons_of_mem first hc))
        have hvisible : ∀ c ∈ token, c ≠ ' ' ∧ c ≠ '\t' := by
          intro c hc
          constructor
          · rintro rfl
            exact absurd (hplain ' ' hc) (by decide)
          · rintro rfl
            exact absurd (hplain '\t' hc) (by decide)
        refine ⟨scheme, spaces ++ token, ?_, space_not_mem_scheme hscheme, hscheme, ?_, hne,
          hplain⟩
        · rw [trimBearer_padded _ htrailing, hfirst, List.append_assoc, List.cons_append]
          intro c hc
          rw [List.getLast?_append_of_ne_nil _ hne] at hc
          exact hvisible c (List.mem_of_getLast? hc)
        · apply Text.dropWhile_padded hmore
          intro c hc
          exact beq_eq_false_iff_ne.mpr (hvisible c (List.mem_of_mem_head? hc)).1

/-! ## Who asks for it -/

/-- The first `Authorization` line is readable and a bearer of the token. -/
def Presents (headers : HeaderMap) (token : Text) : Prop :=
  ∃ value s, headers.get "authorization" = some value ∧ toStr value = some s ∧ IsBearer s token

theorem presents_iff {headers : HeaderMap} {token : Text} : Presents headers token ↔
    ((headers.get "authorization").bind toStr).bind parseBearerCredentials = some token := by
  simp only [Option.bind_eq_some_iff, parseBearerCredentials_iff]
  constructor
  · rintro ⟨value, s, hvalue, hs, htoken⟩
    exact ⟨s, ⟨value, hvalue, hs⟩, htoken⟩
  · rintro ⟨s, ⟨value, hvalue, hs⟩, htoken⟩
    exact ⟨value, s, hvalue, hs, htoken⟩

/-- A key is a presented token that starts as the keys do. -/
theorem bearerKey_eq_some {headers : HeaderMap} {token : Text} :
    (headers.get "authorization").bind bearerKey = some token ↔
      Presents headers token ∧ Text.startsWith token "twl_" = true := by
  have hkey : (headers.get "authorization").bind bearerKey =
      (((headers.get "authorization").bind toStr).bind parseBearerCredentials).filter
        (Text.startsWith · "twl_") := by
    cases headers.get "authorization" <;> rfl
  rw [hkey, Option.filter_eq_some_iff, presents_iff]

/-- Exactly the values of the grammar are parsed, each to its one token, and the client keys, the
management keys and the metrics token are all read off a presented token. -/
theorem bearer_grammar :
    (∀ s token, parseBearerCredentials s = some token ↔ IsBearer s token) ∧
    (∀ s token token', IsBearer s token → IsBearer s token' → token = token') ∧
    (∀ s, parseBearerCredentials s = none ↔ ∀ token, ¬ IsBearer s token) ∧
    (∀ (headers : HeaderMap) (token : Text), Presents headers token →
      Text.startsWith token "twl_" = true → extractClientKey headers = some token) ∧
    (∀ (headers : HeaderMap) (token : Text), headers.get "x-api-key" = none →
      (extractClientKey headers = some token ↔
        Presents headers token ∧ Text.startsWith token "twl_" = true)) ∧
    (∀ (sha256Hex : Text → String) (credentials : Credentials) (db : Store.Database)
      (user : AuthUser), sessionUser credentials.session db = none →
      (requireAuth sha256Hex credentials db = some user ↔
        ∃ token row, Presents credentials.headers token ∧ Text.startsWith token "twl_" = true ∧
          Store.getApiKeyUser db (sha256Hex token) = some row ∧ authUser row = user)) ∧
    ∀ (sha256Hex : Text → String) (expected : Text) (headers : HeaderMap),
      Metrics.authorized sha256Hex expected headers = true ↔
        ∃ token, Presents headers token ∧ sha256Hex token = sha256Hex expected := by
  refine ⟨fun s token ↦ parseBearerCredentials_iff, fun s token token' h h' ↦ ?_, fun s ↦ ?_,
    fun headers token h hstart ↦ ?_, fun headers token hother ↦ ?_,
    fun sha256Hex credentials db user hsession ↦ ?_, fun sha256Hex expected headers ↦ ?_⟩
  · have hparse := parseBearerCredentials_iff.mpr h
    rw [parseBearerCredentials_iff.mpr h'] at hparse
    exact (Option.some.inj hparse).symm
  · rw [Option.eq_none_iff_forall_ne_some]
    exact forall_congr' fun token ↦ not_congr parseBearerCredentials_iff
  · rw [extractClientKey, bearerKey_eq_some.mpr ⟨h, hstart⟩]
  · -- no other header has a key
    rw [← bearerKey_eq_some, extractClientKey, hother]
    cases (headers.get "authorization").bind bearerKey <;> rfl
  · unfold requireAuth
    rw [hsession]
    dsimp only
    constructor
    · intro h
      split at h
      · rename_i token hkey
        rcases bearerKey_eq_some.mp hkey with ⟨hpresents, hstart⟩
        rcases Option.map_eq_some_iff.mp h with ⟨row, hrow, huser⟩
        exact ⟨token, row, hpresents, hstart, hrow, huser⟩
      · cases h
    · rintro ⟨token, row, hpresents, hstart, hrow, huser⟩
      rw [bearerKey_eq_some.mpr ⟨hpresents, hstart⟩]
      dsimp only
      rw [hrow, Option.map_some, huser]
  · unfold Metrics.authorized
    constructor
    · intro h
      split at h
      · rename_i token htoken
        exact ⟨token, presents_iff.mpr htoken, of_decide_eq_true h⟩
      · exact absurd h Bool.false_ne_true
    · rintro ⟨token, hpresents, hsha⟩
      rw [presents_iff.mp hpresents]
      exact decide_eq_true hsha

end TokenWeasel.Auth
