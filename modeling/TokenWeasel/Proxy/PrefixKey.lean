import TokenWeasel.Proxy.Body

/-!
# The prompt-prefix key (`twl-server/src/proxy/body.rs`)

The turns of one conversation have one key, and conversations that begin differently have different
ones.
-/

namespace TokenWeasel.Proxy

/-- What the first system message and the first user message say, if they say it in a string. -/
def opening (msgs : List Value) : String × String :=
  ((roleContent msgs "system").getD "", (roleContent msgs "user").getD "")

/-- The two texts with the byte between them that is in neither. -/
def encodeOpening (texts : String × String) : List UInt8 :=
  Text.asBytes texts.1.toList ++ 255 :: Text.asBytes texts.2.toList

theorem encodeOpening_injective : Function.Injective encodeOpening := by
  rintro ⟨system, user⟩ ⟨system', user'⟩ h
  -- no character has the separating byte, so it splits the bytes in one place
  have hparts := (List.append_cons_inj_of_notMem (Text.ff_not_mem_asBytes system.toList)
    (Text.ff_not_mem_asBytes user.toList)).mp h
  have hsystem : system = system' := String.toList_inj.mp (Text.asBytes_injective hparts.1)
  have huser : user = user' := String.toList_inj.mp (Text.asBytes_injective hparts.2.2)
  rw [hsystem, huser]

def HasRole (msgs : List Value) (role : String) : Prop :=
  ∃ m ∈ msgs, (m.get "role").bind Value.asStr = some role

/-- A later message is not the first of a role that is there. -/
theorem roleContent_append {msgs : List Value} {role : String} (h : HasRole msgs role)
    (later : List Value) : roleContent (msgs ++ later) role = roleContent msgs role := by
  rcases h with ⟨m, hm, hrole⟩
  unfold roleContent
  cases hfirst : msgs.find? fun m ↦ (m.get "role").bind Value.asStr = some role with
  | none => exact absurd hrole (by simpa using List.find?_eq_none.mp hfirst m hm)
  | some first => rw [List.find?_append, hfirst, Option.some_or]

section Key

variable {η : Type} (hash : List UInt8 → η) {endpoint : Text}

theorem computePrefixHash_chat (hchat : isChatEndpoint endpoint = true) {v : Value}
    {msgs : List Value} (hmsgs : v.get "messages" = some (.array msgs)) :
    computePrefixHash hash endpoint v =
      if (roleContent msgs "system").isNone && (roleContent msgs "user").isNone then none
      else some (hash ((encodeOpening (opening msgs)).take maxPrefixBytes)) := by
  unfold computePrefixHash
  rw [if_pos hchat, hmsgs]
  rfl

/-- A chat body without an array of messages has no key. -/
theorem exists_messages (hchat : isChatEndpoint endpoint = true) {v : Value} {key : η}
    (h : computePrefixHash hash endpoint v = some key) :
    ∃ msgs, v.get "messages" = some (.array msgs) := by
  unfold computePrefixHash at h
  rw [if_pos hchat] at h
  cases hmsgs : (v.get "messages").bind Value.asArray with
  | none => rw [hmsgs] at h; cases h
  | some msgs =>
      rcases Option.bind_eq_some_iff.mp hmsgs with ⟨value, hget, harray⟩
      refine ⟨msgs, ?_⟩
      rw [hget, Value.asArray_eq_some.mp harray]

/-- The key of a chat body is the hash of its opening. -/
theorem computePrefixHash_eq_some (hchat : isChatEndpoint endpoint = true) {v : Value} {key : η}
    {msgs : List Value} (hmsgs : v.get "messages" = some (.array msgs))
    (h : computePrefixHash hash endpoint v = some key) :
    key = hash ((encodeOpening (opening msgs)).take maxPrefixBytes) := by
  rw [computePrefixHash_chat hash hchat hmsgs] at h
  split at h
  · cases h
  · exact (Option.some.inj h).symm

end Key

/-- Later turns, and any change outside the messages, keep the key of a conversation that has a
system message and a user message.  Two chat bodies with a key have the same bytes hashed exactly
when their openings have one encoding up to the limit, and, within it, when they have one opening. -/
theorem prefixKey_stable_and_separating :
    (∀ {η : Type} (hash : List UInt8 → η) (endpoint : Text) (v v' : Value)
        (msgs later : List Value), isChatEndpoint endpoint = true →
      v.get "messages" = some (.array msgs) → HasRole msgs "system" → HasRole msgs "user" →
      v'.get "messages" = some (.array (msgs ++ later)) →
      computePrefixHash hash endpoint v' = computePrefixHash hash endpoint v) ∧
    ∀ (endpoint endpoint' : Text) (v v' : Value) (bytes bytes' : List UInt8),
      isChatEndpoint endpoint = true → isChatEndpoint endpoint' = true →
      computePrefixHash id endpoint v = some bytes →
      computePrefixHash id endpoint' v' = some bytes' →
      ∃ msgs msgs', v.get "messages" = some (.array msgs) ∧
        v'.get "messages" = some (.array msgs') ∧
        (bytes = bytes' ↔ (encodeOpening (opening msgs)).take maxPrefixBytes =
          (encodeOpening (opening msgs')).take maxPrefixBytes) ∧
        ((encodeOpening (opening msgs)).length ≤ maxPrefixBytes →
          (encodeOpening (opening msgs')).length ≤ maxPrefixBytes →
          (bytes = bytes' ↔ opening msgs = opening msgs')) := by
  constructor
  · intro η hash endpoint v v' msgs later hchat hmsgs hsystem huser hmsgs'
    rw [computePrefixHash_chat hash hchat hmsgs, computePrefixHash_chat hash hchat hmsgs', opening,
      roleContent_append hsystem, roleContent_append huser, opening]
  · intro endpoint endpoint' v v' bytes bytes' hchat hchat' hsome hsome'
    rcases exists_messages id hchat hsome with ⟨msgs, hmsgs⟩
    rcases exists_messages id hchat' hsome' with ⟨msgs', hmsgs'⟩
    have hbytes : bytes = (encodeOpening (opening msgs)).take maxPrefixBytes :=
      computePrefixHash_eq_some id hchat hmsgs hsome
    have hbytes' : bytes' = (encodeOpening (opening msgs')).take maxPrefixBytes :=
      computePrefixHash_eq_some id hchat' hmsgs' hsome'
    refine ⟨msgs, msgs', hmsgs, hmsgs', by rw [hbytes, hbytes'], fun hlength hlength' ↦ ?_⟩
    rw [hbytes, hbytes', List.take_of_length_le hlength, List.take_of_length_le hlength']
    exact encodeOpening_injective.eq_iff

def message (role content : String) : Value :=
  .object [("role", .string role), ("content", .string content)]

def conversation (msgs : List Value) : Value := .object [("messages", .array msgs)]

/-- A conversation whose opening is a system message and a user message. -/
def opened (system user : String) : List Value := [message "system" system, message "user" user]

/-- A later turn keeps the key, and another system message has another one. -/
theorem prefixKey_stable_and_separating_chat :
    let endpoint : Text := "/v1/chat/completions".toList
    let brief := opened "be brief" "hello"
    computePrefixHash id endpoint (conversation (brief ++ [message "assistant" "hi"])) =
        computePrefixHash id endpoint (conversation brief) ∧
      ∃ bytes bytes', computePrefixHash id endpoint (conversation brief) = some bytes ∧
        computePrefixHash id endpoint (conversation (opened "be kind" "hello")) = some bytes' ∧
        bytes ≠ bytes' := by
  intro endpoint brief
  have hchat : isChatEndpoint endpoint = true := by decide
  have hsystem : HasRole brief "system" := ⟨_, List.mem_cons_self, by decide⟩
  have huser : HasRole brief "user" := ⟨_, List.mem_cons_of_mem _ List.mem_cons_self, by decide⟩
  have hbrief : computePrefixHash id endpoint (conversation brief) =
      some (encodeOpening ("be brief", "hello")) := by decide +kernel
  have hkind : computePrefixHash id endpoint (conversation (opened "be kind" "hello")) =
      some (encodeOpening ("be kind", "hello")) := by decide +kernel
  refine ⟨prefixKey_stable_and_separating.1 id endpoint (conversation brief) _ brief _ hchat rfl
    hsystem huser rfl, _, _, hbrief, hkind, ?_⟩
  obtain ⟨msgs, msgs', hmsgs, hmsgs', -, hseparates⟩ :=
    prefixKey_stable_and_separating.2 endpoint endpoint _ _ _ _ hchat hchat hbrief hkind
  cases hmsgs
  cases hmsgs'
  have hdiffer : opening brief ≠ opening (opened "be kind" "hello") := by decide +kernel
  exact fun heq ↦ hdiffer ((hseparates (by decide +kernel) (by decide +kernel)).mp heq)

end TokenWeasel.Proxy
