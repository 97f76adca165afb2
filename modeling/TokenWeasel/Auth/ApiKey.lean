import TokenWeasel.Server.HeaderMap

/-!
# Client keys (`twl-auth/src/lib.rs`, `twl-auth/src/apikey.rs`)

How a TokenWeasel key is read off the headers of a request and looked up.
-/

namespace TokenWeasel.Auth

open Server

def parseBearerCredentials (value : Text) : Option Text :=
  let value := (value.reverse.dropWhile fun c ↦ c == ' ' || c == '\t').reverse
  match Text.splitOnce value ' ' with
  | none => none
  | some (scheme, credentials) =>
    if ¬ Text.eqIgnoreAsciiCase scheme "Bearer".toList then none
    else
      let credentials := credentials.dropWhile (· == ' ')
      if credentials.isEmpty || credentials.any Text.isAsciiWhitespace then none
      else some credentials

/-- A bearer token of this program, in a readable value. -/
def bearerKey (value : List UInt8) : Option Text :=
  ((toStr value).bind parseBearerCredentials).filter (Text.startsWith · "twl_")

/-- Only the first line of each header is looked at. -/
def extractClientKey (headers : HeaderMap) : Option Text :=
  match (headers.get "authorization").bind bearerKey with
  | some token => some token
  | none =>
    (((headers.get "x-api-key").bind toStr).bind (Text.stripPrefix · "twl_")).map
      ("twl_".toList ++ ·)

structure ValidatedKey where
  keyId : Int
  userId : Int
  deriving DecidableEq, Repr

inductive ClientKeyResult where
  | notPresent
  | invalid
  | error (msg : String)
  | valid (key : ValidatedKey)
  deriving DecidableEq, Repr

/-- The lookup may fail: the store, the task it runs on, or the slot it needs. -/
def extractAndValidateClientKey (sha256Hex : Text → String)
    (getApiKeyId : String → Except String (Option (Int × Int))) (headers : HeaderMap) :
    ClientKeyResult :=
  match extractClientKey headers with
  | none => .notPresent
  | some rawKey =>
    match getApiKeyId (sha256Hex rawKey) with
    | .ok (some (keyId, userId)) => .valid { keyId := keyId, userId := userId }
    | .ok none => .invalid
    | .error msg => .error msg

/-! ## Lines that carry a key -/

/-- A bearer credential, or a value of `x-api-key`, that starts as the keys do. -/
def CarriesKey (line : String × List UInt8) : Prop :=
  (line.1 = "authorization" ∧ (bearerKey line.2).isSome = true) ∨
    (line.1 = "x-api-key" ∧ (fieldLine "" "twl_").2.isPrefixOf line.2 = true)

instance (line : String × List UInt8) : Decidable (CarriesKey line) :=
  inferInstanceAs (Decidable (_ ∨ _))

/-- The first line of a header carries a key in a readable value. -/
def FirstLineKey (headers : HeaderMap) : Prop :=
  (∃ value, headers.get "authorization" = some value ∧ (bearerKey value).isSome = true) ∨
    ∃ value s, headers.get "x-api-key" = some value ∧ toStr value = some s ∧
      Text.startsWith s "twl_" = true

theorem stripPrefix_isSome (text : Text) (start : String) :
    (Text.stripPrefix text start).isSome = Text.startsWith text start := by
  rw [Text.stripPrefix, Text.startsWith, Bool.eq_iff_iff, List.isPrefixOf_iff_prefix]
  constructor
  · intro h
    rcases Option.isSome_iff_exists.mp h with ⟨rest, hrest⟩
    rw [List.dropPrefix?_eq_some_iff] at hrest
    rcases hrest with ⟨front, happend, hbeq⟩
    exact ⟨rest, by rw [happend, eq_of_beq hbeq]⟩
  · rintro ⟨rest, rfl⟩
    rw [List.dropPrefix?_append_of_beq rest (beq_self_eq_true start.toList)]
    rfl

theorem extractClientKey_isSome (headers : HeaderMap) :
    (extractClientKey headers).isSome = true ↔ FirstLineKey headers := by
  unfold extractClientKey FirstLineKey
  cases hbearer : (headers.get "authorization").bind bearerKey with
  | some token =>
      rcases Option.bind_eq_some_iff.mp hbearer with ⟨value, hvalue, htoken⟩
      exact ⟨fun _ ↦ Or.inl ⟨value, hvalue, by rw [htoken]; rfl⟩, fun _ ↦ rfl⟩
  | none =>
      have hno : ¬ ∃ value, headers.get "authorization" = some value ∧
          (bearerKey value).isSome = true := by
        rintro ⟨value, hvalue, hsome⟩
        rw [hvalue, Option.bind_some] at hbearer
        rw [hbearer] at hsome
        exact absurd hsome (by decide)
      rw [or_iff_right hno, Option.isSome_map]
      constructor
      · intro h
        rcases Option.isSome_iff_exists.mp h with ⟨rest, hrest⟩
        rcases Option.bind_eq_some_iff.mp hrest with ⟨s, hs, hstrip⟩
        rcases Option.bind_eq_some_iff.mp hs with ⟨value, hvalue, hread⟩
        refine ⟨value, s, hvalue, hread, ?_⟩
        rw [← stripPrefix_isSome, hstrip]
        rfl
      · rintro ⟨value, s, hvalue, hread, hstart⟩
        rw [hvalue, Option.bind_some, hread, Option.bind_some, stripPrefix_isSome]
        exact hstart

end TokenWeasel.Auth
