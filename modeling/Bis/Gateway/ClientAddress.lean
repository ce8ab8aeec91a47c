import Bis.Encoding.Framing
import Bis.Gateway.Outbox

/-!
The gateway's block on client addresses. Behind a trusted proxy the client is taken to be
the first address of `X-Forwarded-For`, which is what the client has sent; the proxy appends
the address that it has seen. So a client chooses the address that is looked up, and the
block decides the same for all of its requests only where it decides the same for everybody.

An address is the number of its sixteen bytes, in which IPv4 is mapped.
-/

namespace Bis.Gateway

open Bis.Encoding List Option

/-! ### Addresses -/

def decimal (digits : List Char) : Nat :=
  digits.foldl (fun n c => 10 * n + (c.toNat - 48)) 0

def octet (field : List Char) : Option Nat :=
  if field ≠ [] ∧ field.all Char.isDigit ∧ (field.length = 1 ∨ field.head? ≠ some '0') ∧
      decimal field ≤ 255 then
    some (decimal field)
  else none

/-- Two groups of sixteen bits. -/
def parseIPv4 (text : List Char) : Option (List Nat) :=
  match (text.splitOn '.').mapM octet with
  | some [a, b, c, d] => some [256 * a + b, 256 * c + d]
  | _ => none

def hexGroup (field : List Char) : Option Nat :=
  if field ≠ [] ∧ field.length ≤ 4 then
    (field.mapM Json.hexValue).map (List.foldl (fun n digit => 16 * n + digit) 0)
  else none

/-- The groups between colons; an IPv4 address may be the last two. -/
def fields : List (List Char) → Option (List Nat)
  | [] => some []
  | [last] => if '.' ∈ last then parseIPv4 last else (hexGroup last).map ([·])
  | field :: rest => do
    let group ← hexGroup field
    let more ← fields rest
    return group :: more

/-- What stands on both sides of the first `::`. -/
def ellipsis : List Char → Option (List Char × List Char)
  | ':' :: ':' :: rest => some ([], rest)
  | c :: rest => (ellipsis rest).map fun (left, right) => (c :: left, right)
  | [] => none

def sideOf (read : List (List Char) → Option (List Nat)) (text : List Char) : Option (List Nat) :=
  if text = [] then some [] else read (text.splitOn ':')

/-- Groups that are left out are zero, and at least one is. -/
def parseIPv6 (text : List Char) : Option (List Nat) :=
  match ellipsis text with
  | some (left, right) => do
    let front ← sideOf (List.mapM hexGroup) left
    let back ← sideOf fields right
    let given := front.length + back.length
    if given ≤ 7 then some (front ++ List.replicate (8 - given) 0 ++ back) else none
  | none => (fields (text.splitOn ':')).filter (·.length = 8)

/-- `net.ParseIP`. -/
def parseIP (text : List Char) : Option Nat :=
  (if ':' ∈ text then parseIPv6 text
    else (parseIPv4 text).map ([0, 0, 0, 0, 0, 0xffff] ++ ·)).map
      (List.foldl (fun n group => 65536 * n + group) 0)

def isIPv4 (ip : Nat) : Bool := ip / 2 ^ 32 == 0xffff

structure Network where
  address : Nat
  /-- Of 128, also for IPv4. -/
  bits : Nat

/-- `net.ParseCIDR`. -/
def parseCIDR (raw : List Char) : Option Network :=
  match raw.splitOn '/' with
  | [address, mask] => do
    let ip ← parseIP address
    let width := if ':' ∈ address then 128 else 32
    if mask ≠ [] ∧ mask.all Char.isDigit ∧ decimal mask ≤ width then
      some ⟨ip, 128 - width + decimal mask⟩
    else none
  | _ => none

/-- A network of IPv6 addresses holds no IPv4 address, whatever its mask. -/
def Network.contains (network : Network) (ip : Nat) : Bool :=
  let block := 2 ^ (128 - network.bits)
  network.address / block == ip / block &&
    isIPv4 (network.address / block * block) == isIPv4 ip

def ipInCIDRs (ip : Option Nat) (cidrs : List String) : Bool :=
  ip.any fun ip => cidrs.any fun raw => (parseCIDR raw.toList).any (·.contains ip)

/-! ### The client -/

/-- The host that `net.SplitHostPort` finds. -/
def splitHostPort (text : List Char) : Option (List Char) :=
  match text with
  | '[' :: rest =>
    match rest.dropWhile (· ≠ ']') with
    | ']' :: ':' :: port =>
      if '[' ∉ rest ∧ ':' ∉ port ∧ ']' ∉ port then some (rest.takeWhile (· ≠ ']')) else none
    | _ => none
  | _ =>
    match text.reverse.dropWhile (· ≠ ':') with
    | ':' :: host =>
      if ':' ∉ host ∧ '[' ∉ text ∧ ']' ∉ text then some host.reverse else none
    | _ => none

def parseRemoteIP (remote : String) : Option Nat :=
  parseIP ((splitHostPort remote.toList).getD remote.toList)

structure Config where
  (allowedCIDRs trustedProxyCIDRs : List String)

structure Request where
  remoteAddr : String
  /-- The header `X-Forwarded-For`. -/
  forwardedFor : String

def clientIP (config : Config) (r : Request) : Option Nat :=
  let peer := parseRemoteIP r.remoteAddr
  if ipInCIDRs peer config.trustedProxyCIDRs then
    let forwarded := trimmed isSpaceRune (r.forwardedFor.toList.takeWhile (· ≠ ','))
    if forwarded ≠ [] then (parseIP forwarded).or peer else peer
  else peer

/-- Whether the request goes on to the next handler. -/
def anomalousIPBlock (config : Config) (r : Request) : Bool :=
  config.allowedCIDRs = [] || ipInCIDRs (clientIP config r) config.allowedCIDRs

/-- A request with the header as the proxy sends it on: behind what the client has put
there, if anything, stands the address of the client. -/
def proxied (remoteAddr client : String) (sent : Option String) : Request :=
  ⟨remoteAddr, (sent.map (· ++ ", ")).getD "" ++ client⟩

/-! ### The characters of an address -/

/-- Neither a comma nor space. -/
def Solid (c : Char) : Prop := c ≠ ',' ∧ isSpaceRune c = false

variable {c : Char} {text : List Char} {groups : List Nat}

theorem solid_of_bounds (hlow : 46 ≤ c.toNat) (hhigh : c.toNat ≤ 102) : Solid c := by
  refine ⟨?_, isSpaceRune_eq_false (by omega) (by omega)⟩
  rintro rfl
  exact absurd hlow (by decide)

theorem solid_of_isDigit (h : c.isDigit) : Solid c := by
  obtain ⟨hlow, hhigh⟩ := Char.isDigit_iff_toNat.mp h
  exact solid_of_bounds (Nat.le_trans (by decide) hlow) (Nat.le_trans hhigh (by decide))

theorem solid_of_hexValue {n : Nat} (h : Json.hexValue c = some n) : Solid c := by
  unfold Json.hexValue at h
  split at h
  next hdigit => exact solid_of_isDigit hdigit
  split at h
  next hletter =>
    exact solid_of_bounds (Nat.le_trans (by decide) hletter.1)
      (Nat.le_trans hletter.2 (by decide))
  split at h
  next hletter =>
    exact solid_of_bounds (Nat.le_trans (by decide) hletter.1)
      (Nat.le_trans hletter.2 (by decide))
  cases h

theorem forall_of_mapM {α β : Type*} {f : α → Option β} {P : α → Prop}
    (hf : ∀ a b, f a = some b → P a) {list : List α} {results : List β}
    (h : list.mapM f = some results) : ∀ a ∈ list, P a := by
  induction list generalizing results with
  | nil => simp
  | cons a list ih =>
    rw [mapM_cons, bind_eq_bind, bind_eq_some_iff] at h
    obtain ⟨b, hb, h⟩ := h
    obtain ⟨more, hmore, _⟩ := bind_eq_some_iff.mp h
    exact forall_mem_cons.mpr ⟨hf a b hb, ih hmore⟩

theorem solid_of_octet {field : List Char} {n : Nat} (h : octet field = some n) :
    ∀ c ∈ field, Solid c := by
  unfold octet at h
  split at h
  next hfield =>
    intro c hc
    exact solid_of_isDigit (all_eq_true.mp hfield.2.1 c hc)
  · cases h

theorem solid_of_parseIPv4 (h : parseIPv4 text = some groups) : ∀ c ∈ text, Solid c := by
  unfold parseIPv4 at h
  split at h
  next a b c d hoctets =>
    have hdot : Solid '.' := ⟨by decide, by decide⟩
    exact forall_of_splitOn hdot (forall_of_mapM (fun _ _ => solid_of_octet) hoctets)
  · cases h

theorem solid_of_hexGroup {field : List Char} {n : Nat} (h : hexGroup field = some n) :
    ∀ c ∈ field, Solid c := by
  unfold hexGroup at h
  split at h
  · obtain ⟨digits, hdigits, _⟩ := map_eq_some_iff.mp h
    exact forall_of_mapM (fun _ _ => solid_of_hexValue) hdigits
  · cases h

theorem solid_of_fields : ∀ {pieces : List (List Char)} {groups : List Nat},
    fields pieces = some groups → ∀ piece ∈ pieces, ∀ c ∈ piece, Solid c
  | [], _, _ => by simp
  | [last], _, h => by
    simp only [fields] at h
    simp only [mem_singleton, forall_eq]
    split at h
    · exact solid_of_parseIPv4 h
    · obtain ⟨n, hn, _⟩ := map_eq_some_iff.mp h
      exact solid_of_hexGroup hn
  | field :: next :: rest, _, h => by
    simp only [fields, bind_eq_bind, bind_eq_some_iff] at h
    obtain ⟨group, hgroup, more, hmore, _⟩ := h
    exact forall_mem_cons.mpr ⟨solid_of_hexGroup hgroup, solid_of_fields hmore⟩

theorem solid_of_sideOf {read : List (List Char) → Option (List Nat)}
    (hread : ∀ pieces groups, read pieces = some groups → ∀ piece ∈ pieces, ∀ c ∈ piece, Solid c)
    (h : sideOf read text = some groups) : ∀ c ∈ text, Solid c := by
  unfold sideOf at h
  split at h
  · next hnil => simp [hnil]
  · exact forall_of_splitOn ⟨by decide, by decide⟩ (hread _ _ h)

theorem mem_of_ellipsis : ∀ {text left right : List Char},
    ellipsis text = some (left, right) → c ∈ text → c = ':' ∨ c ∈ left ∨ c ∈ right
  | [], _, _, h, _ => by cases h
  | [d], _, _, h, _ => by simp [ellipsis] at h
  | d :: e :: rest, left, right, h, hc => by
    unfold ellipsis at h
    split at h
    next heq =>
      cases heq
      cases h
      simpa using hc
    next heq =>
      cases heq
      obtain ⟨⟨front, back⟩, hrest, h⟩ := map_eq_some_iff.mp h
      cases h
      rcases mem_cons.mp hc with rfl | hc
      · exact Or.inr (Or.inl mem_cons_self)
      · rcases mem_of_ellipsis hrest hc with hc | hc | hc
        · exact Or.inl hc
        · exact Or.inr (Or.inl (mem_cons_of_mem d hc))
        · exact Or.inr (Or.inr hc)
    · next heq => cases heq

theorem solid_of_parseIPv6 (h : parseIPv6 text = some groups) : ∀ c ∈ text, Solid c := by
  have hfields : ∀ pieces groups, fields pieces = some groups →
      ∀ piece ∈ pieces, ∀ c ∈ piece, Solid c := fun _ _ h => solid_of_fields h
  have hgroups : ∀ pieces groups, List.mapM hexGroup pieces = some groups →
      ∀ piece ∈ pieces, ∀ c ∈ piece, Solid c :=
    fun _ _ h => forall_of_mapM (fun _ _ => solid_of_hexGroup) h
  unfold parseIPv6 at h
  split at h
  next left right hellipsis =>
    simp only [bind_eq_bind, bind_eq_some_iff] at h
    obtain ⟨front, hfront, back, hback, _⟩ := h
    intro c hc
    rcases mem_of_ellipsis hellipsis hc with rfl | hc | hc
    · exact ⟨by decide, by decide⟩
    · exact solid_of_sideOf hgroups hfront c hc
    · exact solid_of_sideOf hfields hback c hc
  · obtain ⟨h, _⟩ := Option.filter_eq_some_iff.mp h
    exact forall_of_splitOn ⟨by decide, by decide⟩ (hfields _ _ h)

theorem solid_of_parseIP {ip : Nat} (h : parseIP text = some ip) : ∀ c ∈ text, Solid c := by
  unfold parseIP at h
  obtain ⟨groups, h, _⟩ := map_eq_some_iff.mp h
  split at h
  · exact solid_of_parseIPv6 h
  · obtain ⟨groups, h, _⟩ := map_eq_some_iff.mp h
    exact solid_of_parseIPv4 h

/-! ### The decision -/

/-- What `net.ParseIP` makes of some text. -/
def Parsed (ip : Nat) : Prop := ∃ text, parseIP text = some ip

section

variable {config : Config} {remoteAddr client : String}

/-- An address that the client puts into the header is the one that is looked up. -/
theorem clientIP_proxied {text : List Char} {ip : Nat} (h : parseIP text = some ip)
    (htrusted : ipInCIDRs (parseRemoteIP remoteAddr) config.trustedProxyCIDRs = true) :
    clientIP config (proxied remoteAddr client (some (String.ofList text))) = some ip := by
  have hsolid := solid_of_parseIP h
  have hfirst : (text ++ ", ".toList ++ client.toList).takeWhile (· ≠ ',') = text := by
    rw [append_assoc, takeWhile_append_of_pos fun c hc => by simp [(hsolid c hc).1]]
    exact append_nil text
  have htrim : trimmed isSpaceRune text = text := trimmed_of_none fun c hc => (hsolid c hc).2
  have hne : text ≠ [] := by
    rintro rfl
    cases h
  unfold clientIP proxied
  simp only [map_some, getD_some, String.toList_append, String.toList_ofList]
  rw [if_pos htrusted, hfirst, htrim, if_pos hne, h, Option.some_or]

/-- The address that is looked up is some address. -/
theorem parsed_clientIP (r : Request)
    (htrusted : ipInCIDRs (parseRemoteIP r.remoteAddr) config.trustedProxyCIDRs = true) :
    ∃ ip, clientIP config r = some ip ∧ Parsed ip := by
  obtain ⟨peer, hpeer⟩ : ∃ peer, parseRemoteIP r.remoteAddr = some peer :=
    isSome_iff_exists.mp (Option.isSome_of_any htrusted)
  have hparsed : Parsed peer := ⟨_, hpeer⟩
  unfold clientIP
  dsimp only
  rw [if_pos htrusted, hpeer]
  split
  · cases hip : parseIP (trimmed isSpaceRune (r.forwardedFor.toList.takeWhile (· ≠ ','))) with
    | none => exact ⟨peer, rfl, hparsed⟩
    | some ip => exact ⟨ip, rfl, _, hip⟩
  · exact ⟨peer, rfl, hparsed⟩

theorem anomalousIPBlock_eq {r : Request} {ip : Nat} (h : clientIP config r = some ip)
    (hallowed : config.allowedCIDRs ≠ []) :
    anomalousIPBlock config r = ipInCIDRs (some ip) config.allowedCIDRs := by
  unfold anomalousIPBlock
  rw [h, decide_eq_false hallowed, Bool.false_or]

/-- Behind a trusted proxy the decision is the same for whatever the client sends exactly
where there is no list of allowed ranges or it tells no two addresses apart. -/
theorem anomalousIPBlock_steady_iff
    (htrusted : ipInCIDRs (parseRemoteIP remoteAddr) config.trustedProxyCIDRs = true) :
    (∀ sent sent', anomalousIPBlock config (proxied remoteAddr client sent) =
        anomalousIPBlock config (proxied remoteAddr client sent')) ↔
      config.allowedCIDRs = [] ∨
        (∀ ip, Parsed ip → ipInCIDRs (some ip) config.allowedCIDRs = true) ∨
          ∀ ip, Parsed ip → ipInCIDRs (some ip) config.allowedCIDRs = false := by
  by_cases hallowed : config.allowedCIDRs = []
  · simp [anomalousIPBlock, hallowed]
  have hdecision : ∀ sent, ∃ ip, Parsed ip ∧
      anomalousIPBlock config (proxied remoteAddr client sent) =
        ipInCIDRs (some ip) config.allowedCIDRs := by
    intro sent
    obtain ⟨ip, hip, hparsed⟩ := parsed_clientIP (proxied remoteAddr client sent) htrusted
    exact ⟨ip, hparsed, anomalousIPBlock_eq hip hallowed⟩
  constructor
  · intro h
    refine Or.inr ?_
    obtain ⟨ip, hparsed, hip⟩ := hdecision none
    have hsame : ∀ other, Parsed other → ipInCIDRs (some other) config.allowedCIDRs =
        ipInCIDRs (some ip) config.allowedCIDRs := by
      rintro other ⟨text, htext⟩
      rw [← hip, ← anomalousIPBlock_eq (clientIP_proxied htext htrusted) hallowed]
      exact h _ _
    cases hdecide : ipInCIDRs (some ip) config.allowedCIDRs with
    | true => exact Or.inl fun other hother => (hsame other hother).trans hdecide
    | false => exact Or.inr fun other hother => (hsame other hother).trans hdecide
  · rintro (h | h | h) sent sent'
    · exact absurd h hallowed
    all_goals
      obtain ⟨ip, hparsed, hip⟩ := hdecision sent
      obtain ⟨ip', hparsed', hip'⟩ := hdecision sent'
      rw [hip, hip', h ip hparsed, h ip' hparsed']

end

/-! A client of `203.0.113.9` behind the proxy on the same host as the gateway. -/

def internalOnly : Config := ⟨["10.0.0.0/8"], ["127.0.0.1/32"]⟩

theorem internalOnly_trusted :
    ipInCIDRs (parseRemoteIP "127.0.0.1:40000") internalOnly.trustedProxyCIDRs = true := by
  decide

theorem anomalousIPBlock_internalOnly :
    (∀ sent sent', anomalousIPBlock internalOnly
        (proxied "127.0.0.1:40000" "203.0.113.9" sent) =
        anomalousIPBlock internalOnly (proxied "127.0.0.1:40000" "203.0.113.9" sent')) ↔
      internalOnly.allowedCIDRs = [] ∨
        (∀ ip, Parsed ip → ipInCIDRs (some ip) internalOnly.allowedCIDRs = true) ∨
          ∀ ip, Parsed ip → ipInCIDRs (some ip) internalOnly.allowedCIDRs = false :=
  anomalousIPBlock_steady_iff internalOnly_trusted

/-- It is admitted when it has sent an address of the allowed range. -/
theorem forged_client_admitted : ¬ ∀ (config : Config) (remoteAddr client : String),
    ipInCIDRs (parseRemoteIP remoteAddr) config.trustedProxyCIDRs = true →
    ∀ sent sent', anomalousIPBlock config (proxied remoteAddr client sent) =
      anomalousIPBlock config (proxied remoteAddr client sent') := by
  intro h
  have hsame := h internalOnly "127.0.0.1:40000" "203.0.113.9" internalOnly_trusted none
    (some "10.1.2.3")
  exact absurd hsame (by decide)

end Bis.Gateway
