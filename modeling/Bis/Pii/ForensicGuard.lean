import Bis.Pii.ForensicPages

/-!
Which cursors are accepted, with the HMAC taken as unforgeable, and the contract
of the paginated read.
-/

namespace Bis.Pii

open Bis.Calendar Bis.Json Bis.Relation Bis.Transition List
open Bis.TigerBeetle (utf8)

variable {node : Node} {driver : Int8Reading} {env : Env} {now : Nat} {request : ForensicRequest}

/-! ### Messages -/

theorem cursorMessage_toList (version : Nat) (encoded : String) :
    (cursorMessage version encoded).toList =
      cursorDomain.toList ++ ((toString version).toList ++ ':' :: encoded.toList) := by
  have hcolon : ":".toList = [':'] := rfl
  rw [cursorMessage, String.toList_append, String.toList_append, String.toList_append,
    append_assoc, append_assoc, hcolon, singleton_append]

variable {version createdAt : Nat} {input : PiiForensicWriteInput} {text : String}

theorem cursorMessage_injective {version' : Nat} {encoded encoded' : String}
    (hversion : version = 2 ∨ version = 3) (hversion' : version' = 2 ∨ version' = 3)
    (h : cursorMessage version encoded = cursorMessage version' encoded') :
    version = version' ∧ encoded = encoded' := by
  have hlists := congrArg String.toList h
  rw [cursorMessage_toList, cursorMessage_toList] at hlists
  have hrest := append_cancel_left hlists
  have htwo : (toString 2).toList = ['2'] := rfl
  have hthree : (toString 3).toList = ['3'] := rfl
  rcases hversion with rfl | rfl <;> rcases hversion' with rfl | rfl <;>
    simp only [htwo, hthree, cons_append, nil_append, List.cons.injEq, true_and] at hrest
  · exact ⟨rfl, String.toList_inj.mp hrest⟩
  · exact absurd hrest.1 (by decide)
  · exact absurd hrest.1 (by decide)
  · exact ⟨rfl, String.toList_inj.mp hrest⟩

/-- The text of an event begins with a brace, a cursor's does not. -/
theorem canonical_ne_cursorMessage {encoded : String}
    (h : canonicalPiiForensicAuditEvent input createdAt = .ok text) :
    text ≠ cursorMessage version encoded := by
  rintro rfl
  unfold canonicalPiiForensicAuditEvent at h
  obtain ⟨_, _, h⟩ := except_bind_ok h
  obtain ⟨written, _, h⟩ := except_bind_ok h
  have htext := congrArg String.toList (Except.ok.inj h)
  rw [cursorMessage_toList, stringify, String.toList_ofList, render] at htext
  exact absurd (List.cons.inj htext).1 (by decide)

/-- The instant of an event can be read off its text. -/
theorem canonical_createdAt {createdAt' : Nat}
    (h : canonicalPiiForensicAuditEvent input createdAt = .ok text)
    (h' : canonicalPiiForensicAuditEvent input createdAt' = .ok text) : createdAt = createdAt' := by
  unfold canonicalPiiForensicAuditEvent at h h'
  obtain ⟨_, _, h⟩ := except_bind_ok h
  obtain ⟨_, _, h'⟩ := except_bind_ok h'
  obtain ⟨written, hwritten, h⟩ := except_bind_ok h
  obtain ⟨written', hwritten', h'⟩ := except_bind_ok h'
  have htexts := congrArg String.toList ((Except.ok.inj h).trans (Except.ok.inj h').symm)
  simp only [stringify, String.toList_ofList] at htexts
  have hsame : written = written' := by
    have hvalues := render_injective htexts
    simpa using hvalues
  unfold canonicalCreatedAt at hwritten hwritten'
  split at hwritten
  next text₁ hiso =>
    split at hwritten'
    next text₂ hiso' =>
      have hread := parseISOString_toISOString hiso
      have hread' := parseISOString_toISOString hiso'
      rw [Except.ok.inj hwritten, hsame, ← Except.ok.inj hwritten', hread'] at hread
      exact (Option.some.inj hread).symm
    · cases hwritten'
  · cases hwritten

/-! ### Acceptance -/

/-- A key that the server signs with or checks against. -/
def ServerKey (env : Env) (key : List UInt8) : Prop :=
  (∃ secret, auditSecret env = .ok secret ∧ key = utf8 secret) ∨
    ∃ keys version, cursorKeyring env = .ok keys ∧ keys.lookup version = some key

/-- What servers have signed: these cursors, and any events. -/
def SignedByServer (issues : List Issue) (key : List UInt8) (message : String) : Prop :=
  (∃ issue ∈ issues, issue.key = key ∧ issue.message = message) ∨
    ∃ input createdAt, canonicalPiiForensicAuditEvent input createdAt = .ok message

/-- The presented text does not carry a digest of its own that no server has
computed. -/
def Unforged (node : Node) (env : Env) (issues : List Issue) (cursor : String) : Prop :=
  ∀ version encoded key, (version = 2 ∨ version = 3) → ServerKey env key →
    cursor = encoded ++ "." ++ node.hmacSha256 key (cursorMessage version encoded) →
    SignedByServer issues key (cursorMessage version encoded)

/-- The key of the cursor is the one that the environment has for it now. -/
def Issue.UnderKey (node : Node) (env : Env) (now : Nat) (issue : Issue) : Prop :=
  match issue.keyVersion with
  | some version => KeyInForce node env now version issue.key
  | none => ∃ secret, auditSecret env = .ok secret ∧ issue.key = utf8 secret

theorem Issue.version_cases (issue : Issue) : issue.version = 2 ∨ issue.version = 3 := by
  unfold Issue.version
  split
  · exact Or.inr rfl
  · exact Or.inl rfl

theorem SignedWith.serverKey {members : List (String × Value)} {key : List UInt8}
    (h : SignedWith node env now members version key) :
    (version = 2 ∨ version = 3) ∧ ServerKey env key := by
  cases h with
  | legacy hversion hsecret => exact ⟨Or.inl rfl, Or.inl ⟨_, hsecret, rfl⟩⟩
  | keyring hversion hkey =>
    obtain ⟨_, keys, _, hkeys, hlookup, _, _⟩ := namedKey_ok hkey
    exact ⟨Or.inr rfl, Or.inr ⟨keys, _, hkeys, hlookup⟩⟩

theorem SignedWith.underKey {issue : Issue}
    (h : SignedWith node env now issue.members issue.version issue.key) :
    issue.UnderKey node env now := by
  obtain ⟨keyVersion, key, position, expiresAt, expiresText, written⟩ := issue
  cases keyVersion with
  | none =>
    generalize hversion : Issue.version _ = version at h
    generalize hkey : Issue.key _ = key' at h
    cases h with
    | legacy _ hsecret => exact ⟨_, hsecret, hkey⟩
    | keyring => cases hversion
  | some version =>
    generalize hversion : Issue.version _ = version' at h
    generalize hkey' : Issue.key _ = key' at h
    cases h with
    | legacy => cases hversion
    | keyring _ hkey =>
      obtain ⟨hnamed, hforce⟩ := namedKey_ok hkey
      have hproperty : property (cursorMembers position (some version) expiresText)
          "keyVersion" = some (.string version) := rfl
      have hsame := Option.some.inj (hproperty.symm.trans hnamed)
      cases hsame
      cases hkey'
      exact hforce

/-- A cursor is accepted only if it has been given out as it is, under a key that
is still in force, and only for its own tenant and incident and before it expires. -/
def Guarded (node : Node) (driver : Int8Reading) : Prop :=
  ∀ (env : Env) (now : Nat) (trail : Trail) (request : ForensicRequest) (issues : List Issue)
    (cursor : String) (page : Page VerifiedForensicEvent String),
    cursor ≠ "" → Unforged node env issues cursor →
    readVerifiedPiiForensicEvents node driver env now trail request (some cursor) = .ok page →
    (∃ issue ∈ issues, issue.cursor node = cursor ∧ issue.UnderKey node env now) ∧
      ∀ issue : Issue, issue.cursor node = cursor →
        issue.position.tenantId = request.tenantId ∧
        issue.position.incidentRef = request.incidentRef ∧ now < issue.expiresAt

theorem issued_of_decode {issues : List Issue} {cursor : String} {tenantId : Int32}
    {ref : Option String} {payload : ForensicCursorPayload}
    (hforge : Unforged node env issues cursor)
    (h : decodeForensicCursor node env now cursor tenantId ref = .ok payload) :
    ∃ issue ∈ issues, issue.cursor node = cursor ∧ issue.UnderKey node env now := by
  obtain ⟨encoded, members, version, key, hcursor, hmembers, hsigned, _⟩ :=
    decodeForensicCursor_ok h
  obtain ⟨hversion, hserver⟩ := hsigned.serverKey
  rcases hforge version encoded key hversion hserver hcursor with
    ⟨issue, hissue, hkey, hmessage⟩ | ⟨input, createdAt, hcanonical⟩
  · obtain ⟨rfl, rfl⟩ := cursorMessage_injective issue.version_cases hversion hmessage
    rw [parseCursorPayload_ok hmembers] at hsigned
    refine ⟨issue, hissue, ?_, ?_⟩
    · rw [hcursor, Issue.cursor, Issue.message, hkey]
    · rw [← hkey] at hsigned
      exact hsigned.underKey
  · exact absurd rfl (canonical_ne_cursorMessage hcanonical)

theorem guarded (node : Node) (driver : Int8Reading) : Guarded node driver := by
  intro env now trail request issues cursor page hcursor hforge h
  unfold readVerifiedPiiForensicEvents at h
  obtain ⟨position, hposition, _⟩ := except_bind_ok h
  have hdecoded : (decodeForensicCursor node env now cursor request.tenantId
      request.incidentRef).map some = .ok position := by
    rw [← hposition]
    exact (if_neg hcursor).symm
  cases hdecode : decodeForensicCursor node env now cursor request.tenantId request.incidentRef with
  | error e => rw [hdecode] at hdecoded; cases hdecoded
  | ok payload =>
    refine ⟨issued_of_decode hforge hdecode, ?_⟩
    rintro issue rfl
    obtain ⟨htenant, href, hlive, _⟩ :=
      (assertCursorPayload_members issue.written).mp (decode_issue_ok hdecode)
    exact ⟨htenant, href, hlive⟩

/-! ### The contract -/

/-- Cursors guard what they stand for in any case; a walk gets through exactly if
every event is verified and no page but the last ends on an event whose id the
driver hands over as a text or as an unsafe number. -/
theorem walk_complete_and_guarded_iff {clock : Nat → Nat} {trail : Trail}
    (htimely : Timely node env clock (trail.matching request).length) :
    (Complete node driver env clock trail request ∧ Guarded node driver) ↔
      (∀ row ∈ trail.matching request, Verified node env row.event) ∧
        ∀ row, PageEnd request.limit (trail.newestFirst request) row →
          driver = .number ∧ row.event.id ≤ 2 ^ 53 - 1 := by
  constructor
  · rintro ⟨hcomplete, _⟩
    exact (complete_iff_walkable htimely).mp hcomplete
  · intro hwalkable
    exact ⟨(complete_iff_walkable htimely).mpr hwalkable, guarded node driver⟩

/-! ### Two events, one on a page -/

def sampleInput : PiiForensicWriteInput where
  incidentId := none
  tenantId := 7
  rotationJobId := none
  actorUserId := none
  eventType := .rotationProgress
  detail := [("worker_version", .string "pii-rotation-v1")]

/-- The second event as the default driver hands it over, at the end of a page. -/
def samplePosition : CursorPosition where
  tenantId := 7
  incidentRef := none
  createdAt := "2026-09-05T12:00:02.000Z"
  id := .string "2"

/-- HMAC-SHA-256 of the two events and of the cursor, each under its key. -/
def sampleHmac (_ : List UInt8) (text : String) : String :=
  if (canonicalPiiForensicAuditEvent sampleInput 1788609601000).toOption = some text then
    "d36abcc98018c37f3212f347f917345b9604ffd437912ee8ce56330e08b6c0f4"
  else if (canonicalPiiForensicAuditEvent sampleInput 1788609602000).toOption = some text then
    "b1543a99abf0eb4d2ac36618b71981404c14f5d23bc585b9e72f51fb1162d188"
  else if text = cursorMessage 3 (encodePayload (cursorMembers samplePosition (some "cursor-v1")
      "2026-09-05T12:25:00.000Z")) then
    "8e74d3003addad59f1c6449b0bc7cf0c180e05f2fe14539c4a07b50483c7ea06"
  else "0000000000000000000000000000000000000000000000000000000000000000"

def sampleNode : Node where
  hmacSha256 := sampleHmac
  hmacSha256_hex key text := by
    unfold sampleHmac
    split
    · decide
    · split
      · decide
      · split <;> decide
  replacementText _ := "\ufffd"
  otherDate _ := none
  otherNumber n := n.toRat

theorem sampleNode_hmac (key : List UInt8) (text : String) :
    sampleNode.hmacSha256 key text = sampleHmac key text := by
  unfold sampleNode
  with_reducible rfl

def sampleEnv : Env where
  auditHmacSecret := some "synthetic-forensic-hmac-secret"
  cursorTtlSeconds := none
  cursorKeyring := some "cursor-v1:AAAAAAAAAAAAAAAAAAAAAAAAAAAAAAAAAAAAAAAAAAA="
  cursorKeyExpiriesJson := none
  cursorActiveKeyVersion := some "cursor-v1"

def sampleEvent (id createdAt : Nat) (integrityHash : String) (hid : 0 < id) :
    PiiForensicStoredEvent where
  toPiiForensicWriteInput := sampleInput
  id := id
  id_pos := hid
  integrityHash := integrityHash
  integrityScheme := .hmacSha256CanonicalJsonV2
  createdAt := createdAt

def sampleTrail : Trail where
  incidents := []
  events :=
    [sampleEvent 1 1788609601000
        "d36abcc98018c37f3212f347f917345b9604ffd437912ee8ce56330e08b6c0f4" Nat.one_pos,
      sampleEvent 2 1788609602000
        "b1543a99abf0eb4d2ac36618b71981404c14f5d23bc585b9e72f51fb1162d188" Nat.two_pos]
  ids_nodup := by decide

def sampleRequest : ForensicRequest where
  tenantId := 7
  incidentRef := none
  limit := 1
  limit_pos := Nat.one_pos

/-- One page a second, the first one ten minutes after the events. -/
def sampleClock (k : Nat) : Nat := 1788610200000 + 1000 * k

theorem eq_ok_of_toOption {α : Type} {result : Except ForensicError α} {a : α}
    (h : result.toOption = some a) : result = .ok a := by
  cases result with
  | error e => cases h
  | ok b => exact congrArg Except.ok (Option.some.inj h)

theorem sample_canonical (h : createdAt ≤ maxTime) :
    ∃ text, canonicalPiiForensicAuditEvent sampleInput createdAt = .ok text := by
  have happroved : assertApprovedDetail sampleInput.detail = .ok () := rfl
  have hcreated : canonicalCreatedAt createdAt = .ok (String.ofList (clockOf createdAt).text) := by
    rw [canonicalCreatedAt, toISOString, if_pos h]
  simp only [canonicalPiiForensicAuditEvent, happroved, hcreated, ok_bind]
  exact ⟨_, rfl⟩

theorem integrityHash_of_secret {secret : String} (hsecret : auditSecret env = .ok secret)
    (h : canonicalPiiForensicAuditEvent input createdAt = .ok text) :
    piiForensicIntegrityHash node env input createdAt =
      .ok (node.hmacSha256 (utf8 secret) text) := by
  unfold piiForensicIntegrityHash hmacHex
  rw [h, ok_bind, hsecret]
  rfl

/-- What is read of the sample's settings and of its trail. -/
theorem sample_settings :
    (auditSecret sampleEnv).toOption = some "synthetic-forensic-hmac-secret" ∧
      (cursorKeyring sampleEnv).toOption = some [("cursor-v1", List.replicate 32 0)] ∧
      String.ofList (trimmed sampleEnv.cursorActiveKeyVersion) = "cursor-v1" ∧
      (sampleTrail.matching sampleRequest).length = 2 := by
  decide

theorem sample_hash (h : canonicalPiiForensicAuditEvent sampleInput createdAt = .ok text) :
    piiForensicIntegrityHash sampleNode sampleEnv sampleInput createdAt =
      .ok (sampleNode.hmacSha256 (utf8 "synthetic-forensic-hmac-secret") text) :=
  integrityHash_of_secret (eq_ok_of_toOption sample_settings.1) h

theorem sample_verified : ∀ row ∈ sampleTrail.matching sampleRequest,
    Verified sampleNode sampleEnv row.event := by
  obtain ⟨one, hone⟩ := sample_canonical (show 1788609601000 ≤ maxTime by decide)
  obtain ⟨two, htwo⟩ := sample_canonical (show 1788609602000 ≤ maxTime by decide)
  have hdistinct : (Except.ok one : Except ForensicError String).toOption ≠ some two := by
    intro heq
    cases heq
    exact absurd (canonical_createdAt hone htwo) (by decide)
  have hfirst : ∀ key, sampleNode.hmacSha256 key one =
      "d36abcc98018c37f3212f347f917345b9604ffd437912ee8ce56330e08b6c0f4" := by
    intro key
    rw [sampleNode_hmac, sampleHmac, hone]
    exact if_pos rfl
  have hsecond : ∀ key, sampleNode.hmacSha256 key two =
      "b1543a99abf0eb4d2ac36618b71981404c14f5d23bc585b9e72f51fb1162d188" := by
    intro key
    rw [sampleNode_hmac, sampleHmac, hone, htwo, if_neg hdistinct]
    exact if_pos rfl
  intro row hrow
  obtain ⟨event, hevent, rfl⟩ := mem_map.mp (mem_of_mem_filter hrow)
  rcases mem_cons.mp hevent with rfl | hevent
  · refine verified_of_hash rfl ((sample_hash hone).trans ?_)
    rw [hfirst]
    rfl
  · obtain rfl := mem_singleton.mp hevent
    refine verified_of_hash rfl ((sample_hash htwo).trans ?_)
    rw [hsecond]
    rfl

theorem sample_keyring : cursorKeyring sampleEnv = .ok [("cursor-v1", List.replicate 32 0)] :=
  eq_ok_of_toOption sample_settings.2.1

theorem sample_signs (now : Nat) :
    activeCursorKey sampleNode sampleEnv now = .ok ("cursor-v1", List.replicate 32 0) := by
  obtain ⟨_, _, hversion, _⟩ := sample_settings
  have hexpiry : cursorKeyExpiry sampleNode sampleEnv "cursor-v1" = .ok none := rfl
  unfold activeCursorKey
  rw [hversion, sample_keyring]
  rfl

theorem sample_timely : Timely sampleNode sampleEnv sampleClock
    (sampleTrail.matching sampleRequest).length where
  signs k _ := ⟨_, sample_signs (sampleClock k)⟩
  lifetime := by
    obtain ⟨_, _, _, hlength⟩ := sample_settings
    refine ⟨900, rfl, ?_, ?_⟩
    · intro k hk
      unfold sampleClock maxTime
      omega
    · intro k hk
      unfold sampleClock
      omega

/-- With the ids as the driver hands them over by default, the second page of one
event is refused. -/
theorem second_page_refused :
    Timely sampleNode sampleEnv sampleClock (sampleTrail.matching sampleRequest).length ∧
      (∀ row ∈ sampleTrail.matching sampleRequest, Verified sampleNode sampleEnv row.event) ∧
      ¬(Complete sampleNode .text sampleEnv sampleClock sampleTrail sampleRequest ∧
        Guarded sampleNode .text) := by
  refine ⟨sample_timely, sample_verified, ?_⟩
  rintro ⟨hcomplete, _⟩
  have hwalkable := (complete_iff_walkable sample_timely).mp hcomplete
  have hfits := (walkable_text_iff.mp hwalkable).2
  obtain ⟨_, _, _, hlength⟩ := sample_settings
  rw [hlength] at hfits
  exact absurd hfits (by decide)

theorem sample_contract :
    (Complete sampleNode .text sampleEnv sampleClock sampleTrail sampleRequest ∧
        Guarded sampleNode .text) ↔
      (∀ row ∈ sampleTrail.matching sampleRequest, Verified sampleNode sampleEnv row.event) ∧
        ∀ row, PageEnd sampleRequest.limit (sampleTrail.newestFirst sampleRequest) row →
          Int8Reading.text = .number ∧ row.event.id ≤ 2 ^ 53 - 1 :=
  walk_complete_and_guarded_iff sample_timely

end Bis.Pii
