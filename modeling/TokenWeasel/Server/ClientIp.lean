import TokenWeasel.Library.Separated
import TokenWeasel.Net.RoundTrip
import TokenWeasel.Server.HeaderMap

/-!
# The client of a request (`twl-server/src/ratelimit.rs`)

Which address a login attempt is throttled by.  A trusted proxy appends the address it saw to the
last `X-Forwarded-For` line; everything before that is what the client sent.
-/

namespace TokenWeasel.Server

open Library Net

structure SocketAddr where
  ip : IpAddr
  port : UInt16
  deriving DecidableEq, Repr

/-- The addresses of a line: `none` if an element is malformed. -/
def forwardedChain (value : Text) : Option (List IpAddr) :=
  (value.splitOn ',').mapM fun element ↦ IpAddr.parse (Text.trim element)

def clientIp (headers : HeaderMap) (peer : Option SocketAddr) (trustedProxies : List IpAddr) :
    Text :=
  match peer.map SocketAddr.ip with
  | none => "unknown".toList
  | some peerIp =>
    if peerIp ∉ trustedProxies then peerIp.toText
    else
      let forwarded := ((headers.get "x-forwarded-for").bind toStr).bind fun value ↦
        (forwardedChain value).bind fun chain ↦
          chain.reverse.find? fun ip ↦ ip ∉ trustedProxies
      match forwarded with
      | some client => client.toText
      -- a malformed line, or one with trusted addresses only
      | none =>
        let realIp := ((headers.get "x-real-ip").bind toStr).bind fun value ↦
          IpAddr.parse (Text.trim value)
        match realIp with
        | some ip => ip.toText
        | none => peerIp.toText

/-! ## Lines and their elements -/

/-- The address an element is. -/
def elementAddress (element : List UInt8) : Option IpAddr :=
  (toStr element).bind fun text ↦ IpAddr.parse (Text.trim text)

def WellFormed (line : List UInt8) : Prop :=
  ∀ element ∈ line.splitOn comma, (elementAddress element).isSome = true

def IsTrusted (trustedProxies : List IpAddr) (element : List UInt8) : Prop :=
  ∃ proxy ∈ trustedProxies, elementAddress element = some proxy

/-- The line ends in an untrusted address and trusted proxies after it. -/
def EndsInClient (trustedProxies : List IpAddr) (client : IpAddr) (line : List UInt8) : Prop :=
  ∃ before hop proxies, line.splitOn comma = before ++ hop :: proxies ∧
    elementAddress hop = some client ∧ client ∉ trustedProxies ∧
    ∀ element ∈ proxies, IsTrusted trustedProxies element

/-! ## What the code reads -/

/-- A readable line has the elements that its bytes have. -/
theorem forwardedChain_eq (line : List UInt8) {chain : List IpAddr} :
    (toStr line).bind forwardedChain = some chain ↔
      (line.splitOn comma).map elementAddress = chain.map some := by
  by_cases hvisible : ∀ b ∈ line, isVisibleAscii b = true
  · have hsplit : (line.map fun b ↦ Char.ofNat b.toNat).splitOn ',' =
        (line.splitOn comma).map (List.map fun b ↦ Char.ofNat b.toNat) := by
      have hcomma : ∀ n < 256, Char.ofNat n = ',' → n = comma.toNat := by decide +kernel
      apply splitOn_map (fun b : UInt8 ↦ Char.ofNat b.toNat) comma
      intro b _ heq
      exact UInt8.toNat_inj.mp (hcomma b.toNat b.toNat_lt heq)
    have helements : ∀ element ∈ line.splitOn comma, elementAddress element =
        IpAddr.parse (Text.trim (element.map fun b ↦ Char.ofNat b.toNat)) := by
      intro element helement
      have hall : ∀ b ∈ element, isVisibleAscii b = true :=
        fun b hb ↦ hvisible b (mem_of_mem_splitOn helement hb)
      rw [elementAddress, toStr_eq hall]
      rfl
    rw [toStr_eq hvisible, Option.bind_some, forwardedChain, hsplit, mapM_eq_some, List.map_map,
      List.map_congr_left helements]
    rfl
  · have hunread : toStr line = none := by
      apply if_neg
      rw [List.all_eq_true]
      exact hvisible
    rw [hunread, Option.bind_none]
    -- the invisible byte is in some element, which is malformed
    push Not at hvisible
    rcases hvisible with ⟨b, hb, hinvisible⟩
    have hcomma : b ≠ comma := by
      intro heq
      rw [heq] at hinvisible
      exact hinvisible (by decide)
    rcases mem_splitOn hb hcomma with ⟨element, helement, hin⟩
    have hnone : elementAddress element = none := by
      have hunread : toStr element = none := by
        apply if_neg
        rw [List.all_eq_true]
        exact fun hall ↦ hinvisible (hall b hin)
      rw [elementAddress, hunread]
      rfl
    constructor
    · exact fun h ↦ absurd h (by simp)
    · intro heq
      have hmem := List.mem_map_of_mem (f := elementAddress) helement
      rw [heq, hnone] at hmem
      exact absurd hmem (by simp)

theorem wellFormed_iff (line : List UInt8) :
    WellFormed line ↔ ∃ chain, (toStr line).bind forwardedChain = some chain := by
  constructor
  · intro h
    rcases exists_map_some h with ⟨chain, hchain⟩
    exact ⟨chain, (forwardedChain_eq line).mpr hchain⟩
  · rintro ⟨chain, hchain⟩ element helement
    rcases read_of_mem ((forwardedChain_eq line).mp hchain) helement with ⟨ip, -, hip⟩
    rw [hip]
    rfl

/-- The last address that is not trusted. -/
theorem find?_reverse {trustedProxies chain : List IpAddr} {client : IpAddr} :
    (chain.reverse.find? fun ip ↦ ip ∉ trustedProxies) = some client ↔
      client ∉ trustedProxies ∧ ∃ front back, chain = front ++ client :: back ∧
        ∀ ip ∈ back, ip ∈ trustedProxies := by
  rw [List.find?_eq_some_iff_append]
  constructor
  · rintro ⟨hclient, back, front, heq, hback⟩
    refine ⟨by simpa using hclient, front.reverse, back.reverse, ?_, ?_⟩
    · rw [← List.reverse_reverse chain, heq]
      simp
    · intro ip hip
      simpa using hback ip (List.mem_reverse.mp hip)
  · rintro ⟨hclient, front, back, heq, hback⟩
    refine ⟨by simpa using hclient, back.reverse, front.reverse, ?_, ?_⟩
    · rw [heq]
      simp
    · intro ip hip
      simpa using hback ip (List.mem_reverse.mp hip)

variable {trustedProxies : List IpAddr} {line : List UInt8}

/-- The client the code finds in a line is the one the line ends in. -/
theorem forwarded_eq_some {client : IpAddr} :
    (((toStr line).bind forwardedChain).bind fun chain ↦
        chain.reverse.find? fun ip ↦ ip ∉ trustedProxies) = some client ↔
      WellFormed line ∧ EndsInClient trustedProxies client line := by
  constructor
  · intro h
    rcases Option.bind_eq_some_iff.mp h with ⟨chain, hchain, hfind⟩
    rcases find?_reverse.mp hfind with ⟨hclient, front, back, heq, hback⟩
    refine ⟨(wellFormed_iff line).mpr ⟨chain, hchain⟩, ?_⟩
    have hmap := (forwardedChain_eq line).mp hchain
    rw [heq, List.map_append, List.map_cons] at hmap
    rcases List.map_eq_append_iff.mp hmap with ⟨before, rest, hsplit, -, hrest⟩
    rcases List.map_eq_cons_iff.mp hrest with ⟨hop, proxies, hcons, hhop, hproxies⟩
    refine ⟨before, hop, proxies, by rw [hsplit, hcons], hhop, hclient, ?_⟩
    intro element helement
    rcases read_of_mem hproxies helement with ⟨ip, hip, haddress⟩
    exact ⟨ip, hback ip hip, haddress⟩
  · rintro ⟨hwell, before, hop, proxies, hsplit, hhop, hclient, hproxies⟩
    rcases (wellFormed_iff line).mp hwell with ⟨chain, hchain⟩
    have hmap := (forwardedChain_eq line).mp hchain
    rw [hsplit, List.map_append, List.map_cons] at hmap
    rcases List.map_eq_append_iff.mp hmap.symm with ⟨front, rest, heq, -, hrest⟩
    rcases List.map_eq_cons_iff.mp hrest with ⟨ip, back, hcons, hip, hback⟩
    have hclientEq : ip = client := Option.some.inj (hip.trans hhop)
    rw [hchain, Option.bind_some, find?_reverse]
    refine ⟨hclient, front, back, by rw [heq, hcons, hclientEq], ?_⟩
    intro proxy hproxy
    rcases mem_of_read hback.symm hproxy with ⟨element, helement, haddress⟩
    rcases hproxies element helement with ⟨trusted, htrusted, heq'⟩
    rw [← Option.some.inj (heq'.symm.trans haddress)]
    exact htrusted

theorem forwarded_eq_none :
    (((toStr line).bind forwardedChain).bind fun chain ↦
        chain.reverse.find? fun ip ↦ ip ∉ trustedProxies) = none ↔
      ¬ WellFormed line ∨ ∀ element ∈ line.splitOn comma, IsTrusted trustedProxies element := by
  cases hchain : (toStr line).bind forwardedChain with
  | none =>
      have hnot : ¬ WellFormed line := by
        intro hwell
        rcases (wellFormed_iff line).mp hwell with ⟨chain, heq⟩
        exact absurd (hchain.symm.trans heq) (by simp)
      exact ⟨fun _ ↦ Or.inl hnot, fun _ ↦ rfl⟩
  | some chain =>
      have hwell := (wellFormed_iff line).mpr ⟨chain, hchain⟩
      have hmap := (forwardedChain_eq line).mp hchain
      rw [Option.bind_some, List.find?_eq_none]
      constructor
      · intro hall
        right
        intro element helement
        rcases read_of_mem hmap helement with ⟨ip, hip, haddress⟩
        have htrusted := hall ip (List.mem_reverse.mpr hip)
        exact ⟨ip, by simpa using htrusted, haddress⟩
      · intro h ip hip
        have htrusted := h.resolve_left (not_not_intro hwell)
        rcases mem_of_read hmap (List.mem_reverse.mp hip) with ⟨element, helement, haddress⟩
        rcases htrusted element helement with ⟨proxy, hproxy, heq⟩
        rw [Option.some.inj (haddress.symm.trans heq)]
        simpa using hproxy

/-! ## The key of a client behind a trusted proxy -/

/-- The address `X-Real-IP` names. -/
def realIp (headers : HeaderMap) : Option IpAddr := (headers.get "x-real-ip").bind elementAddress

/-- Behind a trusted proxy only the first line counts, and `X-Real-IP` if that has no client. -/
theorem clientIp_trusted {headers : HeaderMap} {peer : SocketAddr} {first : List UInt8}
    (hpeer : peer.ip ∈ trustedProxies) (hfirst : headers.get "x-forwarded-for" = some first)
    (key : IpAddr) :
    clientIp headers (some peer) trustedProxies = key.toText ↔
      (WellFormed first ∧ EndsInClient trustedProxies key first) ∨
      ((¬ WellFormed first ∨ ∀ element ∈ first.splitOn comma, IsTrusted trustedProxies element) ∧
        (realIp headers).getD peer.ip = key) := by
  have hforwarded : (((headers.get "x-forwarded-for").bind toStr).bind fun value ↦
      (forwardedChain value).bind fun chain ↦
        chain.reverse.find? fun ip ↦ ip ∉ trustedProxies) =
      ((toStr first).bind forwardedChain).bind fun chain ↦
        chain.reverse.find? fun ip ↦ ip ∉ trustedProxies := by
    rw [hfirst, Option.bind_some, Option.bind_assoc]
  have hreal : (((headers.get "x-real-ip").bind toStr).bind fun value ↦
      IpAddr.parse (Text.trim value)) = realIp headers := Option.bind_assoc _ _ _
  rw [← forwarded_eq_some, ← forwarded_eq_none]
  unfold clientIp
  simp only [Option.map_some, not_true_eq_false, hpeer, if_false, hforwarded, hreal]
  cases ((toStr first).bind forwardedChain).bind fun chain ↦
      chain.reverse.find? fun ip ↦ ip ∉ trustedProxies with
  | some client => simp [IpAddr.toText_inj]
  | none => cases realIp headers <;> simp [IpAddr.toText_inj]

/-- When the key is the client that the trusted proxies appended to the last line: the first line
has no malformed element and is the only line or ends in the same client, or it has no client and
`X-Real-IP` names the client. -/
theorem clientIp_eq_client_iff {headers : HeaderMap} {peer : SocketAddr}
    {first last : List UInt8} {client : IpAddr} (hpeer : peer.ip ∈ trustedProxies)
    (hfirst : (headers.getAll "x-forwarded-for").head? = some first)
    (hlast : (headers.getAll "x-forwarded-for").getLast? = some last)
    (hclient : EndsInClient trustedProxies client last) :
    clientIp headers (some peer) trustedProxies = client.toText ↔
      (WellFormed first ∧ ((headers.getAll "x-forwarded-for").length = 1 ∨
        EndsInClient trustedProxies client first)) ∨
      ((¬ WellFormed first ∨ ∀ element ∈ first.splitOn comma, IsTrusted trustedProxies element) ∧
        realIp headers = some client) := by
  have hends : (headers.getAll "x-forwarded-for").length = 1 ∨
      EndsInClient trustedProxies client first ↔ EndsInClient trustedProxies client first := by
    constructor
    · intro h
      cases h with
      | inl hone =>
          rcases List.length_eq_one_iff.mp hone with ⟨line, hline⟩
          rw [hline] at hfirst hlast
          have heq : last = first := Option.some.inj (hlast.symm.trans hfirst)
          exact heq ▸ hclient
      | inr hends => exact hends
    · exact Or.inr
  have huntrusted : client ∉ trustedProxies := by
    rcases hclient with ⟨_, _, _, -, -, huntrusted, -⟩
    exact huntrusted
  have hreal : (realIp headers).getD peer.ip = client ↔ realIp headers = some client := by
    cases realIp headers with
    | none =>
        constructor
        · intro heq
          exact absurd (heq ▸ hpeer) huntrusted
        · exact fun h ↦ absurd h (by simp)
    | some ip => exact Option.some_inj.symm
  rw [clientIp_trusted hpeer hfirst client, hends, hreal]

def proxy : SocketAddr := { ip := .v4 ⟨10, 0, 0, 10⟩, port := 443 }

/-- A spoofed leftmost address does not matter. -/
theorem clientIp_spoofed_leftmost :
    clientIp [fieldLine "x-forwarded-for" "203.0.113.99, 198.51.100.2"] (some proxy) [proxy.ip] =
      "198.51.100.2".toList := by
  let line := fieldLine "x-forwarded-for" "203.0.113.99, 198.51.100.2"
  have hsplit : line.2.splitOn comma =
      [(fieldLine "" "203.0.113.99").2] ++ [(fieldLine "" " 198.51.100.2").2] := by decide
  have hclient : EndsInClient [proxy.ip] (.v4 ⟨198, 51, 100, 2⟩) line.2 :=
    ⟨_, _, [], hsplit, by decide, by decide, fun _ h ↦ absurd h List.not_mem_nil⟩
  have hfirst : (HeaderMap.getAll [line] "x-forwarded-for").head? = some line.2 := by decide
  have hlast : (HeaderMap.getAll [line] "x-forwarded-for").getLast? = some line.2 := by decide
  have hkey := clientIp_eq_client_iff (List.mem_singleton_self proxy.ip) hfirst hlast hclient
  have hwell : WellFormed line.2 := by
    unfold WellFormed
    decide
  exact hkey.mpr (Or.inl ⟨hwell, Or.inl (by decide)⟩)

/-- With a malformed element before the client's address the key is what `X-Real-IP` says. -/
theorem clientIp_malformed_element :
    EndsInClient [proxy.ip] (.v4 ⟨198, 51, 100, 2⟩)
        (fieldLine "x-forwarded-for" "junk, 198.51.100.2").2 ∧
      clientIp [fieldLine "x-forwarded-for" "junk, 198.51.100.2",
          fieldLine "x-real-ip" "203.0.113.7"] (some proxy) [proxy.ip] = "203.0.113.7".toList ∧
      IpAddr.toText (.v4 ⟨198, 51, 100, 2⟩) ≠ "203.0.113.7".toList := by
  have hsplit : (fieldLine "x-forwarded-for" "junk, 198.51.100.2").2.splitOn comma =
      [(fieldLine "" "junk").2] ++ [(fieldLine "" " 198.51.100.2").2] := by decide
  refine ⟨⟨_, _, [], hsplit, by decide, by decide, ?_⟩, by decide, by decide⟩
  exact fun _ h ↦ absurd h List.not_mem_nil

end TokenWeasel.Server
