import Bis.Pii.ForensicAudit

/-!
Walking through the audit trail with the cursors that its pages hand out.
-/

namespace Bis.Pii

open Bis.Calendar Bis.Encoding Bis.Json Bis.Number Bis.Relation Bis.Transition List
open Bis.TigerBeetle (utf8)

variable {node : Node} {driver : Int8Reading} {env : Env} {now : Nat} {request : ForensicRequest}

/-! ### Verification -/

/-- Under the audit secret the event carries its own digest, in the current scheme. -/
def Verified (node : Node) (env : Env) (event : PiiForensicStoredEvent) : Prop :=
  verifyPiiForensicAuditEvent node env event = .ok true

theorem someUnverified_iff {rows : List Row} :
    someUnverified node env rows = .ok false ↔ ∀ row ∈ rows, Verified node env row.event := by
  induction rows with
  | nil => simp [someUnverified]
  | cons row rest ih =>
    rw [forall_mem_cons, ← ih, someUnverified, Verified]
    cases verifyPiiForensicAuditEvent node env row.event with
    | error e =>
      constructor
      · intro h
        cases h
      · rintro ⟨h, _⟩
        cases h
    | ok valid =>
      rw [ok_bind]
      cases valid with
      | true => simp
      | false =>
        constructor
        · intro h
          cases h
        · rintro ⟨h, _⟩
          cases h

variable {event : PiiForensicStoredEvent} {page : Page VerifiedForensicEvent String}

theorem Verified.created (h : Verified node env event) :
    ∃ text, toISOString event.createdAt = some text := by
  unfold Verified verifyPiiForensicAuditEvent at h
  split at h
  · cases h
  · obtain ⟨expected, hexpected, _⟩ := except_bind_ok h
    obtain ⟨canonical, hcanonical, _⟩ := except_bind_ok hexpected
    obtain ⟨_, _, hcanonical⟩ := except_bind_ok hcanonical
    obtain ⟨text, htext, _⟩ := except_bind_ok hcanonical
    unfold canonicalCreatedAt at htext
    split at htext
    · next text' hiso => exact ⟨text', hiso⟩
    · cases htext

variable {text : String} {rest : List Row} {last : Row} {trail : Trail}

theorem jsTrim_hex (h : isHex64 text = true) : jsTrim text.toList = text.toList := by
  have hspace : ∀ c ∈ text.toList, isJsSpace c = false := by
    intro c hc
    have hform := all_eq_true.mp (Bool.and_eq_true_iff.mp h).2 c hc
    have hsmall : c.toNat < 128 := by
      simp only [Bool.or_eq_true, Bool.and_eq_true, decide_eq_true_eq, Char.isDigit,
        UInt32.le_iff_toNat_le] at hform
      rcases hform with ⟨_, hle⟩ | ⟨_, hle⟩
      · exact Nat.lt_of_le_of_lt hle (by decide)
      · exact Nat.lt_of_le_of_lt hle (by decide)
    have hall : ∀ n : Fin 128, ((Char.ofNat n.val).isDigit || ('a' ≤ Char.ofNat n.val &&
        Char.ofNat n.val ≤ 'f')) = true → isJsSpace (Char.ofNat n.val) = false := by decide
    have hc := hall ⟨c.toNat, hsmall⟩
    rw [Char.ofNat_toNat] at hc
    exact hc hform
  have hdrop : ∀ characters : List Char, (∀ c ∈ characters, isJsSpace c = false) →
      characters.dropWhile isJsSpace = characters := by
    intro characters hall
    cases characters with
    | nil => rfl
    | cons c rest => simp [hall c mem_cons_self]
  rw [jsTrim, hdrop _ hspace, hdrop _ (by simpa using hspace), reverse_reverse]

/-- A stored digest that is the digest of the event is found to be so. -/
theorem verified_of_hash (hscheme : event.integrityScheme = .hmacSha256CanonicalJsonV2)
    (hhash : piiForensicIntegrityHash node env event.toPiiForensicWriteInput event.createdAt = .ok
      event.integrityHash) : Verified node env event := by
  have hhex : isHex64 event.integrityHash = true := by
    obtain ⟨canonical, _, hdigest⟩ := except_bind_ok hhash
    obtain ⟨secret, _, hdigest⟩ := except_bind_ok hdigest
    rw [← Except.ok.inj hdigest]
    exact node.hmacSha256_hex _ _
  have hstored : trimmedHash event = event.integrityHash := by
    rw [trimmedHash, jsTrim_hex hhex, String.ofList_toList]
  have hequal : fixedTimeHexEqual event.integrityHash event.integrityHash = true :=
    (fixedTimeHexEqual_iff hhex).mpr rfl
  unfold Verified verifyPiiForensicAuditEvent
  simp only [hscheme, ne_eq, not_true_eq_false, if_false, hhash, ok_bind, hstored, hequal]
  rfl

/-- The members of an object, which have a key each, are put into one order from any other. -/
theorem canonicalDetail_perm {detail other : List (String × Value)}
    (hkeys : (detail.map Prod.fst).Nodup) (h : other.Perm detail) :
    canonicalDetail other = canonicalDetail detail := by
  have htotal : Std.Total keyBefore := ⟨fun a b => String.le_total a.1 b.1⟩
  have htrans : IsTrans _ keyBefore := ⟨fun _ _ _ => String.le_trans⟩
  have hother := perm_insertionSort keyBefore other
  have hdetail := perm_insertionSort keyBefore detail
  apply List.Perm.eq_of_pairwise 
  · intro a b ha hb hab hba
    exact inj_on_of_nodup_map hkeys (h.mem_iff.mp (hother.mem_iff.mp ha))
      (hdetail.mem_iff.mp hb) (String.le_antisymm hab hba)
  · exact pairwise_insertionSort keyBefore other
  · exact pairwise_insertionSort keyBefore detail
  · exact hother.trans (h.trans hdetail.symm)

/-- The digest that is stored covers the event as it is handed out. -/
theorem verified_append {jsonb : JsonbOrder} {input : PiiForensicWriteInput} {after : Trail}
    (hkeys : (input.detail.map Prod.fst).Nodup)
    (h : ∀ event ∈ trail.events, Verified node env event)
    (happend : appendPiiForensicAuditEvent node env jsonb now trail input = .ok after) :
    ∀ event ∈ after.events, Verified node env event := by
  obtain ⟨_, hdetail, happend⟩ := except_bind_ok happend
  obtain ⟨hash, hhash, happend⟩ := except_bind_ok happend
  obtain rfl := Except.ok.inj happend
  intro event hevent
  rcases mem_append.mp hevent with hold | hnew
  · exact h event hold
  · obtain rfl := mem_singleton.mp hnew
    refine verified_of_hash rfl (Eq.trans ?_ hhash)
    have hperm : (jsonb.arrange (canonicalDetail input.detail)).Perm input.detail :=
      (jsonb.perm _).trans (perm_insertionSort keyBefore input.detail)
    have hsame : assertApprovedDetail (jsonb.arrange (canonicalDetail input.detail)) =
        assertApprovedDetail input.detail := by
      unfold assertApprovedDetail
      rw [hperm.all_eq]
    simp only [piiForensicIntegrityHash, canonicalPiiForensicAuditEvent, hsame,
      canonicalDetail_perm hkeys hperm]

/-- What has been appended is found to be genuine, whatever is read of it and in whatever
order the column hands out the details. -/
theorem appended_genuine (node : Node) (env : Env) (jsonb : JsonbOrder) (incidents : List Incident)
    (inputs : List (Nat ×
      { input : PiiForensicWriteInput // (input.detail.map Prod.fst).Nodup })) :
    Always (fun trail a => (appendPiiForensicAuditEvent node env jsonb a.1 trail a.2.val).toOption)
      (fun trail => ∀ request, someUnverified node env (trail.matching request) = .ok false)
      ⟨incidents, [], nodup_nil⟩ inputs := by
  refine Always.mono (I := fun trail : Trail => ∀ event ∈ trail.events, Verified node env event)
    ?_ (always_of_step inputs ?_ ?_)
  · intro trail htrail request
    apply someUnverified_iff.mpr
    intro row hrow
    obtain ⟨event, hevent, rfl⟩ := mem_map.mp (mem_of_mem_filter hrow)
    exact htrail event hevent
  · intro trail a after htrail hstep
    cases happend : appendPiiForensicAuditEvent node env jsonb a.1 trail a.2.val with
    | error e => cases happend ▸ hstep
    | ok next =>
      exact Option.some.inj (happend ▸ hstep) ▸ verified_append a.2.property htrail happend
  · intro event hevent
    cases hevent

/-! ### One page -/

/-- The position that is put into the cursor of a page that ends on `last`. -/
def endPosition (driver : Int8Reading) (request : ForensicRequest) (last : Row)
    (createdAt : String) : CursorPosition where
  tenantId := request.tenantId
  incidentRef := request.incidentRef
  createdAt := createdAt
  id := driver.read last.event.id

/-- The page ends on `last` and hands out `next`. -/
def EndsOn (node : Node) (driver : Int8Reading) (env : Env) (now : Nat)
    (request : ForensicRequest) (rest : List Row) (last : Row) (next : String) : Prop :=
  ∃ text, rest[request.limit - 1]? = some last ∧ toISOString last.event.createdAt = some text ∧
    encodeForensicCursor node env now (endPosition driver request last text) = .ok next

theorem take_succ_short (h : rest.length ≤ request.limit) :
    rest.take (request.limit + 1) = rest := take_of_length_le (by omega)

theorem verifiedPage_short (h : rest.length ≤ request.limit) :
    verifiedPage node driver env now request (rest.take (request.limit + 1)) = (do
      if ← someUnverified node env rest then
        .error (.thrown "PII forensic audit integrity verification failed.")
      else return ⟨rest.map (Row.entry driver), none⟩) := by
  have hmore : decide (request.limit < rest.length) = false := decide_eq_false (by omega)
  rw [take_succ_short h, verifiedPage]
  simp only [hmore, Bool.false_eq_true, if_false]

theorem verifiedPage_long (h : request.limit < rest.length)
    (hlast : rest[request.limit - 1]? = some last) :
    verifiedPage node driver env now request (rest.take (request.limit + 1)) = (do
      if ← someUnverified node env (rest.take request.limit) then
        .error (.thrown "PII forensic audit integrity verification failed.")
      else do
        let createdAt ← canonicalCreatedAt last.event.createdAt
        let next ← encodeForensicCursor node env now (endPosition driver request last createdAt)
        return ⟨(rest.take request.limit).map (Row.entry driver), some next⟩) := by
  have hlength : (rest.take (request.limit + 1)).length = request.limit + 1 := by
    rw [length_take]
    omega
  have hmore : decide (request.limit < (rest.take (request.limit + 1)).length) = true := by
    rw [hlength]
    exact decide_eq_true (by omega)
  have htake : (rest.take (request.limit + 1)).take request.limit = rest.take request.limit := by
    rw [take_take, Nat.min_eq_left (by omega)]
  have hend : (rest.take request.limit).getLast? = some last := by
    rw [getLast?_take request.limit_pos h, hlast]
  rw [verifiedPage]
  simp only [hmore, if_true, htake, hend]
  rfl

theorem getElem?_end (h : request.limit < rest.length) :
    ∃ last, rest[request.limit - 1]? = some last :=
  ⟨rest[request.limit - 1], List.getElem?_eq_getElem (by omega)⟩

/-- A page has only verified rows, and a cursor if there are rows behind it. -/
theorem verifiedPage_ok
    (h : verifiedPage node driver env now request (rest.take (request.limit + 1)) = .ok page) :
    (∀ row ∈ rest.take request.limit, Verified node env row.event) ∧
      (request.limit < rest.length → ∃ last next, page.next = some next ∧
        EndsOn node driver env now request rest last next) := by
  rcases Nat.lt_or_ge request.limit rest.length with hlong | hshort
  · obtain ⟨last, hlast⟩ := getElem?_end hlong
    rw [verifiedPage_long hlong hlast] at h
    obtain ⟨unverified, hverified, h⟩ := except_bind_ok h
    cases unverified with
    | true => cases h
    | false =>
      obtain ⟨text, htext, h⟩ := except_bind_ok h
      obtain ⟨next, hnext, h⟩ := except_bind_ok h
      cases h
      refine ⟨someUnverified_iff.mp hverified, fun _ => ⟨last, next, rfl, text, hlast, ?_, hnext⟩⟩
      unfold canonicalCreatedAt at htext
      split at htext
      next text' hiso =>
        cases htext
        exact hiso
      · cases htext
  · rw [verifiedPage_short hshort] at h
    obtain ⟨unverified, hverified, h⟩ := except_bind_ok h
    cases unverified with
    | true => cases h
    | false =>
      rw [take_of_length_le hshort]
      exact ⟨someUnverified_iff.mp hverified, fun hlong => absurd hlong (by omega)⟩

theorem verifiedPage_last (hshort : rest.length ≤ request.limit)
    (hverified : ∀ row ∈ rest, Verified node env row.event) :
    verifiedPage node driver env now request (rest.take (request.limit + 1)) =
      .ok ⟨rest.map (Row.entry driver), none⟩ := by
  rw [verifiedPage_short hshort, someUnverified_iff.mpr hverified]
  rfl

theorem verifiedPage_more (hlong : request.limit < rest.length)
    (hverified : ∀ row ∈ rest.take request.limit, Verified node env row.event)
    (hsign : ∀ position, ∃ next, encodeForensicCursor node env now position = .ok next) :
    ∃ last next, EndsOn node driver env now request rest last next ∧
      verifiedPage node driver env now request (rest.take (request.limit + 1)) =
        .ok ⟨(rest.take request.limit).map (Row.entry driver), some next⟩ := by
  obtain ⟨last, hlast⟩ := getElem?_end hlong
  have hmem : last ∈ rest.take request.limit := by
    have hend := getLast?_take request.limit_pos hlong
    rw [hlast] at hend
    exact mem_of_getLast? hend
  obtain ⟨text, htext⟩ := (hverified last hmem).created
  obtain ⟨next, hnext⟩ := hsign (endPosition driver request last text)
  refine ⟨last, next, ⟨text, hlast, htext, hnext⟩, ?_⟩
  have hcreated : canonicalCreatedAt last.event.createdAt = .ok text := by
    rw [canonicalCreatedAt, htext]
  rw [verifiedPage_long hlong hlast, someUnverified_iff.mpr hverified]
  simp only [ok_bind, Bool.false_eq_true, if_false, hcreated, hnext]
  rfl

/-! ### The rows of the query -/

theorem keys_nodup (trail : Trail) (request : ForensicRequest) :
    ((trail.matching request).map Row.key).Nodup := by
  have hsub : ((trail.matching request).map fun row => row.event.id).Sublist
      (trail.events.map (·.id)) := by
    have hfilter : (trail.matching request).Sublist (trail.events.map trail.join) :=
      filter_sublist
    have hmap := hfilter.map fun row => row.event.id
    rwa [map_map] at hmap
  have hids : ((trail.matching request).map fun row => row.event.id).Nodup :=
    trail.ids_nodup.sublist hsub
  have hpairs : (trail.matching request).Pairwise fun a b => a.event.id ≠ b.event.id :=
    pairwise_map.mp hids
  refine pairwise_map.mpr (hpairs.imp ?_)
  intro a b hne heq
  have hpair : ((a.event.createdAt : Int), (a.event.id : Int)) =
      ((b.event.createdAt : Int), (b.event.id : Int)) := toLex.injective heq
  exact hne (Int.ofNat.inj (Prod.mk.inj hpair).2)

/-- All rows of the request, the newest first. -/
def Trail.newestFirst (trail : Trail) (request : ForensicRequest) : List Row :=
  descending Row.key (trail.matching request)

theorem select_none (trail : Trail) (request : ForensicRequest) :
    trail.select request none = (trail.newestFirst request).take (request.limit + 1) := by
  have hall : (trail.matching request).filter (fun _ => true) = trail.matching request :=
    filter_eq_self.mpr fun _ _ => rfl
  simp only [Trail.select, Option.all_none, hall]
  rfl

/-- Behind the key of a row comes what follows that row. -/
theorem select_some {front : List Row} {position : ForensicCursorPayload}
    (h : trail.newestFirst request = front ++ last :: rest)
    (hkey : toLex (position.createdAt, position.id) = last.key) :
    trail.select request (some position) = rest.take (request.limit + 1) := by
  have hstrict := descending_strict (keys_nodup trail request)
  have hbehind := descending_filter (keys_nodup trail request)
    fun row => decide (row.key < last.key)
  change descending Row.key (trail.matching request) = _ at h
  rw [h] at hstrict hbehind
  simp only [Trail.select, Option.all_some, hkey]
  rw [hbehind, filter_behind hstrict]

/-! ### Going on from a cursor -/

/-- The id of the event comes back out of a cursor: the driver made a safe
integer of it. -/
def Resumable (driver : Int8Reading) (event : PiiForensicStoredEvent) : Prop :=
  driver = .number ∧ event.id ≤ 2 ^ 53 - 1

theorem idProperty_read {n : Nat} {id : Int} (hpos : 0 < n) :
    idProperty node (some (driver.read n)) = some id ↔
      driver = .number ∧ n ≤ 2 ^ 53 - 1 ∧ id = n := by
  cases driver with
  | text => simp [idProperty, Int8Reading.read]
  | number =>
    have hvalue : node.numberValue (.ofInt (roundToDouble n)) =
        (roundToDouble (roundToDouble n) : Int) := by
      rw [Node.numberValue, Number.toInt?_ofInt]
    simp only [idProperty, Int8Reading.read, hvalue, Rat.den_intCast, Rat.num_intCast, true_and]
    rcases Nat.lt_or_ge n (2 ^ 53) with hsmall | hlarge
    · have hsame : roundToDouble (n : Int) = n := roundToDouble_of_small (by omega)
      have hsafe : isSafeInteger (n : Int) = true := decide_eq_true (by omega)
      rw [hsame, hsame, if_pos ⟨hsafe, by omega⟩]
      constructor
      · intro h
        exact ⟨by omega, (Option.some.inj h).symm⟩
      · rintro ⟨_, rfl⟩
        rfl
    · have hone : 2 ^ 53 ≤ roundToDouble (n : Int) := le_roundToDouble (by omega)
      have htwo : 2 ^ 53 ≤ roundToDouble (roundToDouble (n : Int)) := le_roundToDouble hone
      have hlost : isSafeInteger (roundToDouble (roundToDouble (n : Int))) = false :=
        decide_eq_false (by omega)
      rw [hlost, if_neg (by simp)]
      constructor
      · intro h
        cases h
      · rintro ⟨hle, _⟩
        omega

theorem isPlain_incidentRef {ref : String} (h : isIncidentRef ref = true) :
    ref.toList.length ≤ 25 ∧ ref.toList.all isPlain = true := by
  simp only [isIncidentRef, Bool.and_eq_true, beq_iff_eq] at h
  obtain ⟨⟨hfront, hlength⟩, hrest⟩ := h
  have hall : (ref.toList.drop 7).all isPlain = true := by
    rw [all_eq_true] at hrest ⊢
    intro c hc
    have hform := hrest c hc
    simp only [Bool.or_eq_true] at hform
    rcases hform with hupper | hdigit
    · rw [isUpper_eq] at hupper
      simp only [isPlain, isBase64UrlChar, isAlphanum_eq, hupper, Bool.true_or]
    · simp [isPlain, isBase64UrlChar, Char.isAlphanum, hdigit]
  constructor
  · have htake : (ref.toList.take 7).length ≤ 7 := by
      rw [length_take]
      omega
    rw [← take_append_drop 7 ref.toList, length_append]
    omega
  · rw [← take_append_drop 7 ref.toList, all_append, hfront, hall]
    decide

/-- A row of an incident carries the reference that was asked for. -/
theorem isPlain_request {row : Row} (h : row ∈ trail.matching request) :
    ∀ ref ∈ request.incidentRef, ref.toList.length ≤ 25 ∧ ref.toList.all isPlain = true := by
  intro ref href
  have hrow := (mem_filter.mp h).2
  rw [Bool.and_eq_true, href] at hrow
  simp only [Option.all_some, Option.any_eq_true, decide_eq_true_eq] at hrow
  obtain ⟨incident, _, rfl⟩ := hrow.2
  exact isPlain_incidentRef incident.incidentRef_form

theorem endPosition_written (hmem : last ∈ trail.matching request)
    (htext : toISOString last.event.createdAt = some text)
    (hresumable : Resumable driver last.event) :
    (endPosition driver request last text).Written := by
  obtain ⟨rfl, hsafe⟩ := hresumable
  have hpos := last.event.id_pos
  refine ⟨isPlain_request hmem, ⟨_, htext⟩, last.event.id, ?_, hpos, hsafe⟩
  have hsame : roundToDouble (last.event.id : Int) = last.event.id :=
    roundToDouble_of_small (by omega)
  simp only [endPosition, Int8Reading.read, hsame]

/-- A text behind a dot and a digest is split at one place only. -/
theorem cursor_injective {encoded encoded' mac mac' : String} (hmac : isHex64 mac = true)
    (hmac' : isHex64 mac' = true) (h : encoded ++ "." ++ mac = encoded' ++ "." ++ mac') :
    encoded = encoded' ∧ mac = mac' := by
  have hlists := congrArg String.toList h
  rw [toList_cursor, toList_cursor] at hlists
  obtain ⟨hencoded, hsame⟩ :=
    append_separator_right (dot_notMem_hex hmac) (dot_notMem_hex hmac') hlists
  exact ⟨String.toList_inj.mp hencoded, String.toList_inj.mp hsame⟩

/-- What an accepted cursor says is what was put into it. -/
theorem decode_issue_ok {issue : Issue} {tenantId : Int32} {ref : Option String}
    {payload : ForensicCursorPayload}
    (h : decodeForensicCursor node env now (issue.cursor node) tenantId ref = .ok payload) :
    assertCursorPayload node now issue.members tenantId ref =
      .ok (payload.createdAt, payload.id, payload.expiresAt) := by
  obtain ⟨encoded, members, version, key, hcursor, hmembers, _, hfields⟩ :=
    decodeForensicCursor_ok h
  obtain ⟨hencoded, _⟩ := cursor_injective (node.hmacSha256_hex _ _) (node.hmacSha256_hex _ _)
    hcursor
  rw [← hencoded] at hmembers
  rw [parseCursorPayload_ok hmembers] at hfields
  exact hfields

theorem cursor_ne_empty (issue : Issue) : issue.cursor node ≠ "" := by
  intro h
  have hlist := congrArg String.toList h
  rw [Issue.cursor, toList_cursor] at hlist
  exact absurd hlist (by simp)

theorem cursorPosition_issue (issue : Issue) :
    cursorPosition node env now request (some (issue.cursor node)) =
      (decodeForensicCursor node env now (issue.cursor node) request.tenantId
        request.incidentRef).map some := by
  unfold cursorPosition
  dsimp only
  rw [if_neg (cursor_ne_empty issue)]

/-- The cursor of a page can be read if and only if its id comes back. -/
theorem read_issue_resumable {issue : Issue}
    (hposition : issue.position = endPosition driver request last text)
    (h : readVerifiedPiiForensicEvents node driver env now trail request (some (issue.cursor node))
      = .ok page) : Resumable driver last.event := by
  unfold readVerifiedPiiForensicEvents at h
  obtain ⟨position, hposition', _⟩ := except_bind_ok h
  rw [cursorPosition_issue] at hposition'
  cases hdecode : decodeForensicCursor node env now (issue.cursor node) request.tenantId
      request.incidentRef with
  | error e => rw [hdecode] at hposition'; cases hposition'
  | ok payload =>
    have hfields := decode_issue_ok hdecode
    obtain ⟨_, _, _, createdAt, id, _, hid, _⟩ :=
      (assertCursorPayload_members issue.written).mp hfields
    rw [hposition] at hid
    obtain ⟨hdriver, hsafe, _⟩ := (idProperty_read last.event.id_pos).mp hid
    exact ⟨hdriver, hsafe⟩

/-- With a cursor in time and under its key, a page begins behind the last row. -/
theorem read_issue {issue : Issue} {front : List Row} {version : String}
    (hrows : trail.newestFirst request = front ++ last :: rest)
    (htext : toISOString last.event.createdAt = some text)
    (hposition : issue.position = endPosition driver request last text)
    (hkeyVersion : issue.keyVersion = some version)
    (hkey : KeyInForce node env now version issue.key) (hlive : now < issue.expiresAt)
    (hresumable : Resumable driver last.event) :
    readVerifiedPiiForensicEvents node driver env now trail request (some (issue.cursor node)) =
      verifiedPage node driver env now request (rest.take (request.limit + 1)) := by
  have hmem : last ∈ trail.matching request := by
    have hmem : last ∈ trail.newestFirst request := by
      rw [hrows]
      exact mem_append_right front mem_cons_self
    exact (descending_perm (trail.matching request)).mem_iff.mp hmem
  have hwritten : issue.position.Written := by
    rw [hposition]
    exact endPosition_written hmem htext hresumable
  have hfields : assertCursorPayload node now issue.members request.tenantId request.incidentRef =
      .ok ((last.event.createdAt : Int), (last.event.id : Int), (issue.expiresAt : Int)) := by
    refine (assertCursorPayload_members issue.written).mpr ?_
    rw [hposition]
    exact ⟨rfl, rfl, hlive, _, _, dateTime_toISOString htext,
      (idProperty_read last.event.id_pos).mpr ⟨hresumable.1, hresumable.2, rfl⟩, rfl⟩
  have hdecode := decodeForensicCursor_issue hkeyVersion hkey
    (jsLength_issue hwritten hkeyVersion hkey.isKeyVersion) hfields
  unfold readVerifiedPiiForensicEvents
  rw [cursorPosition_issue, hdecode]
  simp only [Except.map, ok_bind]
  rw [select_some hrows rfl]

/-! ### Walks -/

section

variable {clock : Nat → Nat} {pages : Nat} {trail : Trail}

/-- The server can sign at every page, and every page is read before the cursor
of the page before it expires. `clock k` is the instant of page number `k`. -/
structure Timely (node : Node) (env : Env) (clock : Nat → Nat) (pages : Nat) : Prop where
  signs : ∀ k ≤ pages, ∃ active, activeCursorKey node env (clock k) = .ok active
  lifetime : ∃ ttl, cursorTtlSeconds env = .ok ttl ∧
    (∀ k ≤ pages, clock k + ttl * 1000 ≤ maxTime) ∧
    ∀ k < pages, clock (k + 1) < clock k + ttl * 1000

/-- Page number `k` of a walk. -/
def readAt (node : Node) (driver : Int8Reading) (env : Env) (clock : Nat → Nat) (trail : Trail)
    (request : ForensicRequest) (k : Nat) (cursor : Option String) :
    Except ForensicError (Page VerifiedForensicEvent String) :=
  readVerifiedPiiForensicEvents node driver env (clock k) trail request cursor

variable {k : Nat} {cursor : Option String} {rest : List Row}

theorem Timely.encodes (h : Timely node env clock pages) (hk : k ≤ pages)
    (position : CursorPosition) :
    ∃ next, encodeForensicCursor node env (clock k) position = .ok next := by
  obtain ⟨active, hactive⟩ := h.signs k hk
  obtain ⟨ttl, httl, hranges, _⟩ := h.lifetime
  have hrange := hranges k hk
  generalize htime : clock k + ttl * 1000 = time at hrange
  have hiso : toISOString time = some (String.ofList (clockOf time).text) := if_pos hrange
  simp only [encodeForensicCursor, hactive, httl, ok_bind, htime, hiso]
  exact ⟨_, rfl⟩

/-- The cursor of one page is under its key and in time at the next one. -/
theorem Timely.issue (h : Timely node env clock pages) (hk : k < pages) {position : CursorPosition}
    {cursor : String} (hcursor : encodeForensicCursor node env (clock k) position = .ok cursor) :
    ∃ (issue : Issue) (version : String), cursor = issue.cursor node ∧
      issue.position = position ∧ issue.keyVersion = some version ∧
      KeyInForce node env (clock (k + 1)) version issue.key ∧
      clock (k + 1) < issue.expiresAt := by
  obtain ⟨issue, version, ttl, hactive, httl, hexpires, hkeyVersion, hposition, hissue⟩ :=
    encodeForensicCursor_ok hcursor
  obtain ⟨ttl', httl', _, htimes⟩ := h.lifetime
  obtain rfl : ttl' = ttl := Except.ok.inj (httl'.symm.trans httl)
  obtain ⟨⟨version', key'⟩, hactive'⟩ := h.signs (k + 1) hk
  obtain ⟨hversion, keys, _, hkeys, hlookup, _, _⟩ := activeCursorKey_ok hactive
  obtain ⟨hversion', hforce⟩ := activeCursorKey_ok hactive'
  obtain rfl : version' = version := hversion'.trans hversion.symm
  have hkey : key' = issue.key := by
    obtain ⟨keys', _, hkeys', hlookup', _, _⟩ := hforce
    obtain rfl : keys' = keys := Except.ok.inj (hkeys'.symm.trans hkeys)
    exact Option.some.inj (hlookup'.symm.trans hlookup)
  refine ⟨issue, version', hissue, hposition, hkeyVersion, hkey ▸ hforce, ?_⟩
  have htime := htimes k hk
  omega

/-- The walk is at page `k` with this cursor, and `rest` is what it has not read. -/
inductive At (node : Node) (driver : Int8Reading) (env : Env) (clock : Nat → Nat) (trail : Trail)
    (request : ForensicRequest) : Nat → Option String → List Row → Prop
  | first : At node driver env clock trail request 0 none (trail.newestFirst request)
  | next {k : Nat} {cursor text : String} {front rest : List Row} {last : Row}
      (hk : k ≤ front.length)
      (hrows : trail.newestFirst request = front ++ last :: rest)
      (htext : toISOString last.event.createdAt = some text)
      (hcursor : encodeForensicCursor node env (clock k) (endPosition driver request last text) =
        .ok cursor) : At node driver env clock trail request (k + 1) (some cursor) rest

/-- Every page before this one has taken a row at least. -/
theorem At.suffix (h : At node driver env clock trail request k cursor rest) :
    ∃ front, trail.newestFirst request = front ++ rest ∧ k ≤ front.length := by
  cases h with
  | first => exact ⟨[], rfl, Nat.le_refl 0⟩
  | next hk hrows =>
    refine ⟨_, hrows.trans (append_cons _ _ _), ?_⟩
    rw [length_append, length_singleton]
    omega

theorem At.le_length (h : At node driver env clock trail request k cursor rest) :
    k ≤ (trail.matching request).length := by
  obtain ⟨front, hfront, hk⟩ := h.suffix
  have hlength : (trail.newestFirst request).length = (trail.matching request).length :=
    (descending_perm (trail.matching request)).length_eq
  rw [hfront, length_append] at hlength
  omega

theorem readAt_first (k : Nat) :
    readAt node driver env clock trail request k none =
      verifiedPage node driver env (clock k) request
        ((trail.newestFirst request).take (request.limit + 1)) := by
  rw [← select_none]
  rfl

/-- A page that can be read is made of the rows that have not been read. -/
theorem At.readAt_ok (htimely : Timely node env clock (trail.matching request).length)
    {page : Page VerifiedForensicEvent String}
    (h : At node driver env clock trail request k cursor rest)
    (hread : readAt node driver env clock trail request k cursor = .ok page) :
    verifiedPage node driver env (clock k) request (rest.take (request.limit + 1)) = .ok page := by
  have hle := h.le_length
  cases h with
  | first =>
    rw [readAt_first] at hread
    exact hread
  | next hk hrows htext hcursor =>
    obtain ⟨issue, version, rfl, hposition, hkeyVersion, hkey, hlive⟩ :=
      htimely.issue hle hcursor
    have hresumable := read_issue_resumable hposition hread
    rw [readAt, read_issue hrows htext hposition hkeyVersion hkey hlive hresumable] at hread
    exact hread

/-- The row that a page ends on, among all rows. -/
theorem At.split {last : Row} (h : At node driver env clock trail request k cursor rest)
    (hlong : request.limit < rest.length) (hlast : rest[request.limit - 1]? = some last) :
    ∃ front, trail.newestFirst request = front ++ last :: rest.drop request.limit ∧
      k ≤ front.length := by
  obtain ⟨front, hfront, hk⟩ := h.suffix
  have hpos := request.limit_pos
  have hget : rest[request.limit - 1] = last := by
    rw [List.getElem?_eq_getElem (by omega)] at hlast
    exact Option.some.inj hlast
  have hdrop : rest.drop (request.limit - 1) = last :: rest.drop request.limit := by
    rw [drop_eq_getElem_cons (by omega), hget, Nat.sub_add_cancel hpos]
  refine ⟨front ++ rest.take (request.limit - 1), ?_, ?_⟩
  · rw [hfront, ← hdrop, append_assoc, take_append_drop]
  · rw [length_append]
    omega

/-- The walk hands out every event once, the newest first, and stops. -/
def Complete (node : Node) (driver : Int8Reading) (env : Env) (clock : Nat → Nat) (trail : Trail)
    (request : ForensicRequest) : Prop :=
  ∃ (rows : List Row) (fuel : Nat),
    walk (readAt node driver env clock trail request) fuel 0 none =
      some (.ok (rows.map (Row.entry driver))) ∧
    rows.Perm (trail.matching request) ∧ rows.Pairwise fun a b => b.key < a.key

/-- The condition under which a walk gets through: every event is verified, and
of those that a page ends on the id comes back. -/
def Walkable (node : Node) (driver : Int8Reading) (env : Env) (trail : Trail)
    (request : ForensicRequest) : Prop :=
  (∀ row ∈ trail.matching request, Verified node env row.event) ∧
    ∀ row, PageEnd request.limit (trail.newestFirst request) row → Resumable driver row.event

theorem mem_newestFirst {row : Row} :
    row ∈ trail.newestFirst request ↔ row ∈ trail.matching request :=
  (descending_perm (trail.matching request)).mem_iff

theorem complete_of_walkable (htimely : Timely node env clock (trail.matching request).length)
    (h : Walkable node driver env trail request) :
    Complete node driver env clock trail request := by
  obtain ⟨hverified, hends⟩ := h
  -- at every page: the rest is verified, its page ends come back, and the cursor can be read
  let Ready : Nat → Option String → List Row → Prop := fun k cursor rest =>
    At node driver env clock trail request k cursor rest ∧
      (∀ row ∈ rest, Verified node env row.event) ∧
      (∀ row, PageEnd request.limit rest row → Resumable driver row.event) ∧
      readAt node driver env clock trail request k cursor =
        verifiedPage node driver env (clock k) request (rest.take (request.limit + 1))
  have hlast : ∀ k cursor rest, Ready k cursor rest → rest.length ≤ request.limit →
      readAt node driver env clock trail request k cursor =
        .ok ⟨rest.map (Row.entry driver), none⟩ := by
    rintro k cursor rest ⟨_, hrest, _, hread⟩ hshort
    rw [hread]
    exact verifiedPage_last hshort hrest
  have hmore : ∀ k cursor rest, Ready k cursor rest → request.limit < rest.length → ∃ next,
      readAt node driver env clock trail request k cursor =
        .ok ⟨(rest.take request.limit).map (Row.entry driver), some next⟩ ∧
      Ready (k + 1) (some next) (rest.drop request.limit) := by
    rintro k cursor rest ⟨hat, hrest, hpages, hread⟩ hlong
    obtain ⟨last, next, hon, hpage⟩ := verifiedPage_more hlong
      (fun row hrow => hrest row (mem_of_mem_take hrow)) (htimely.encodes hat.le_length)
    obtain ⟨text, hend, htext, hcursor⟩ := hon
    obtain ⟨front, hrows, hk⟩ := hat.split hlong hend
    have hat' := At.next hk hrows htext hcursor
    have hresumable := hpages last (pageEnd_first hlong hend)
    refine ⟨next, hread.trans hpage, hat',
      fun row hrow => hrest row (mem_of_mem_drop hrow),
      fun row hrow => hpages row ((pageEnd_iff request.limit_pos).mpr ⟨hlong, Or.inr hrow⟩), ?_⟩
    obtain ⟨issue, version, rfl, hposition, hkeyVersion, hkey, hlive⟩ :=
      htimely.issue hat'.le_length hcursor
    exact read_issue hrows htext hposition hkeyVersion hkey hlive hresumable
  have hready : Ready 0 none (trail.newestFirst request) :=
    ⟨.first, fun row hrow => hverified row (mem_newestFirst.mp hrow), hends, readAt_first 0⟩
  obtain ⟨fuel, hwalk⟩ := walk_reads request.limit_pos hlast hmore hready
  exact ⟨trail.newestFirst request, fuel, hwalk, descending_perm _,
    descending_strict (keys_nodup trail request)⟩

theorem walkable_of_complete (htimely : Timely node env clock (trail.matching request).length)
    (h : Complete node driver env clock trail request) :
    Walkable node driver env trail request := by
  obtain ⟨rows, fuel, hwalk, _, _⟩ := h
  have hgood : ∀ k cursor rest page, At node driver env clock trail request k cursor rest →
      readAt node driver env clock trail request k cursor = .ok page →
      ∀ row ∈ rest.take request.limit, Verified node env row.event :=
    fun _ _ _ _ hat hread => (verifiedPage_ok (hat.readAt_ok htimely hread)).1
  have hends : ∀ k cursor rest page, At node driver env clock trail request k cursor rest →
      readAt node driver env clock trail request k cursor = .ok page →
      request.limit < rest.length → ∃ next, page.next = some next ∧
        At node driver env clock trail request (k + 1) (some next) (rest.drop request.limit) ∧
        ∀ page', readAt node driver env clock trail request (k + 1) (some next) = .ok page' →
          ∀ row, rest[request.limit - 1]? = some row → Resumable driver row.event := by
    intro k cursor rest page hat hread hlong
    obtain ⟨last, next, hnext, text, hend, htext, hcursor⟩ :=
      (verifiedPage_ok (hat.readAt_ok htimely hread)).2 hlong
    obtain ⟨front, hrows, hk⟩ := hat.split hlong hend
    have hat' := At.next hk hrows htext hcursor
    refine ⟨next, hnext, hat', ?_⟩
    intro page' hpage' row hrow
    obtain rfl : last = row := Option.some.inj (hend.symm.trans hrow)
    obtain ⟨issue, version, rfl, hposition, _⟩ := htimely.issue hat'.le_length hcursor
    exact read_issue_resumable hposition hpage'
  obtain ⟨hverified, hresumable⟩ := walk_ok request.limit_pos hgood hends hwalk .first
  exact ⟨fun row hrow => hverified row (mem_newestFirst.mpr hrow), hresumable⟩

/-- In time, a walk gets through exactly if it is walkable. -/
theorem complete_iff_walkable (htimely : Timely node env clock (trail.matching request).length) :
    Complete node driver env clock trail request ↔ Walkable node driver env trail request :=
  ⟨walkable_of_complete htimely, complete_of_walkable htimely⟩

/-- Where the driver hands ids over as texts, only a walk of one page gets through. -/
theorem walkable_text_iff :
    Walkable node .text env trail request ↔
      (∀ row ∈ trail.matching request, Verified node env row.event) ∧
        (trail.matching request).length ≤ request.limit := by
  have hlength : (trail.newestFirst request).length = (trail.matching request).length :=
    (descending_perm (trail.matching request)).length_eq
  constructor
  · rintro ⟨hverified, hends⟩
    refine ⟨hverified, ?_⟩
    by_contra hmany
    have hlong : request.limit < (trail.newestFirst request).length := by omega
    obtain ⟨last, hlast⟩ := getElem?_end hlong
    cases (hends last (pageEnd_first hlong hlast)).1
  · rintro ⟨hverified, hfew⟩
    refine ⟨hverified, fun row hrow => ?_⟩
    have hlong := hrow.lt_length
    omega

end

end Bis.Pii
