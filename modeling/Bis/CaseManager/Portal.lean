import Bis.CaseManager.Service

/-!
Who gets data of a case from the portal. A stakeholder may have what the token allows that
was issued to them, until it is revoked or runs out. The comments ask the table for the
token; the other requests ask nobody.
-/

namespace Bis.CaseManager

open Bis.Relation Bis.Transition List

/-! ### The law -/

/-- The permission that a request needs. -/
def Visit.permitted : Visit → Stakeholder → Bool
  | .documents, row => row.canViewDocuments
  | .comment _, row => row.canComment
  | .case, _ | .timeline, _ => true

def Stakeholder.admits (row : Stakeholder) (token : String) (now : Time) : Bool :=
  row.accessToken == some token && row.accessExpiresAt.any fun expires => decide (now < expires)

/-- In the history: the token was issued to a stakeholder of the case, was not revoked and has
not run out, and the stakeholder may do this. -/
def Authorised (s : Store) (token : String) (now : Time) (caseId : Nat) (visit : Visit) : Prop :=
  ∃ row ∈ s.issued, row.id ∉ s.revoked ∧ row.admits token now = true ∧ row.caseId = caseId ∧
    visit.permitted row = true

/-- The case that a reply has data of, or that took the comment. -/
def Reply.about (s : Store) (ref : String) : Reply → Option Nat
  | .caseView _ | .documents _ _ | .timeline _ _ => (s.caseOf ref).map Case.id
  | .commented _ caseId _ _ _ _ => some caseId
  | .done _ | .error _ _ | .badRequest => none

def Lawful (s : Store) (request : PortalRequest) : Prop :=
  ∀ caseId, (servePortal s request).2.about s request.ref = some caseId →
    ∃ token, stakeholderTokenAuth request.query request.authorization = some token ∧
      Authorised s token request.db.now caseId request.visit

/-- Whether the database answers what the portal reads. -/
def Database.answers (db : Database) : Visit → Bool
  | .case => db.reads
  | _ => db.reads && db.rereads

/-- A request that is no comment, has a token, names a case and is answered by the database
comes with the token of a row of the table that allows it. -/
def Guarded (s : Store) (request : PortalRequest) : Prop :=
  match request.visit with
  | .comment _ => True
  | visit => ∀ token c, stakeholderTokenAuth request.query request.authorization = some token →
      s.caseOf request.ref = some c → request.db.answers visit = true →
      ∃ row ∈ s.stakeholders.rows, row.admits token request.db.now = true ∧ row.caseId = c.id ∧
        visit.permitted row = true

/-! ### What a request does to the tokens -/

variable {s t : Store} {isEmail : String → Bool}

structure SameGrants (s t : Store) : Prop where
  stakeholders : t.stakeholders = s.stakeholders
  issued : t.issued = s.issued
  revoked : t.revoked = s.revoked

theorem insertEvent_eq (s : Store) (db : Database) (caseId : Nat) (eventType title : String)
    (detail : List (String × Detail)) (actorId : Option Int) (actorName : String) :
    ∃ timeline, insertEvent s db caseId eventType title detail actorId actorName =
      { s with timeline } := by
  unfold insertEvent
  split
  · exact ⟨_, rfl⟩
  · exact ⟨s.timeline, rfl⟩

variable {caseId : Nat} {request : PortalRequest}

theorem SameGrants.logged (h : SameGrants s t) {db : Database} {eventType title : String}
    {detail : List (String × Detail)} {actorId : Option Int} {actorName : String} {reply : Reply} :
    SameGrants s (insertEvent t db caseId eventType title detail actorId actorName, reply).1 := by
  obtain ⟨timeline, heq⟩ := insertEvent_eq t db caseId eventType title detail actorId actorName
  rw [heq]
  exact ⟨h.stakeholders, h.issued, h.revoked⟩

theorem createCase_grants (actor : Actor) (ref : String) (body : CaseBody) (db : Database) :
    SameGrants s (createCase s actor ref body db).1 := by
  fun_cases createCase s actor ref body db
  · exact ⟨rfl, rfl, rfl⟩
  · exact ⟨rfl, rfl, rfl⟩
  · apply SameGrants.logged
    exact ⟨rfl, rfl, rfl⟩

theorem updateCase_grants (actor : Actor) (ref : String) (body : CaseChange) (db : Database) :
    SameGrants s (updateCase s actor ref body db).1 := by
  fun_cases updateCase s actor ref body db
  · exact ⟨rfl, rfl, rfl⟩
  · exact ⟨rfl, rfl, rfl⟩
  · exact ⟨rfl, rfl, rfl⟩
  · apply SameGrants.logged
    exact ⟨rfl, rfl, rfl⟩

theorem archiveCase_grants (ref : String) (db : Database) :
    SameGrants s (archiveCase s ref db).1 := by
  fun_cases archiveCase s ref db
  · exact ⟨rfl, rfl, rfl⟩
  · exact ⟨rfl, rfl, rfl⟩

theorem updateCaseStatus_grants (actor : Actor) (ref status : String) (db : Database) :
    SameGrants s (updateCaseStatus s actor ref status db).1 := by
  fun_cases updateCaseStatus s actor ref status db
  · exact ⟨rfl, rfl, rfl⟩
  · exact ⟨rfl, rfl, rfl⟩
  · exact ⟨rfl, rfl, rfl⟩
  · apply SameGrants.logged
    exact ⟨rfl, rfl, rfl⟩

theorem addParty_grants (actor : Actor) (ref role name : String) (db : Database) :
    SameGrants s (addParty s actor ref role name db).1 := by
  fun_cases addParty s actor ref role name db
  · exact ⟨rfl, rfl, rfl⟩
  · exact ⟨rfl, rfl, rfl⟩
  · exact ⟨rfl, rfl, rfl⟩
  · apply SameGrants.logged
    exact ⟨rfl, rfl, rfl⟩

theorem uploadDocument_grants (actor : Actor) (ref : String) (body : DocumentBody)
    (db : Database) : SameGrants s (uploadDocument s actor ref body db).1 := by
  fun_cases uploadDocument s actor ref body db
  · exact ⟨rfl, rfl, rfl⟩
  · exact ⟨rfl, rfl, rfl⟩
  · exact ⟨rfl, rfl, rfl⟩
  · apply SameGrants.logged
    exact ⟨rfl, rfl, rfl⟩

theorem deleteDocument_grants (actor : Actor) (docId : Nat) (db : Database) :
    SameGrants s (deleteDocument s actor docId db).1 := by
  fun_cases deleteDocument s actor docId db
  · exact ⟨rfl, rfl, rfl⟩
  · exact ⟨rfl, rfl, rfl⟩
  · apply SameGrants.logged
    exact ⟨rfl, rfl, rfl⟩
  · exact ⟨rfl, rfl, rfl⟩

theorem addComment_grants (actor : Actor) (ref content : String) (confidential : Bool)
    (db : Database) : SameGrants s (addComment s actor ref content confidential db).1 := by
  fun_cases addComment s actor ref content confidential db
  · exact ⟨rfl, rfl, rfl⟩
  · exact ⟨rfl, rfl, rfl⟩
  · exact ⟨rfl, rfl, rfl⟩
  · apply SameGrants.logged
    exact ⟨rfl, rfl, rfl⟩

/-! ### The table and the history -/

/-- A row without the time of its last use. -/
def Stakeholder.grant (row : Stakeholder) : Stakeholder := { row with lastAccessedAt := none }

/-- The row that an invitation has become. -/
def Store.current (s : Store) (row : Stakeholder) : Stakeholder :=
  (if row.id ∈ s.revoked then row.revoke else row).grant

/-- The table is the invitations, less what was revoked. -/
structure Recorded (s : Store) : Prop where
  rows : s.stakeholders.rows.map Stakeholder.grant = s.issued.map s.current
  issued : ∀ row ∈ s.issued, row.id < s.stakeholders.next
  revoked : ∀ id ∈ s.revoked, id < s.stakeholders.next

theorem Recorded.same (h : Recorded s) (hsame : SameGrants s t) : Recorded t := by
  obtain ⟨hstakeholders, hissued, hrevoked⟩ := hsame
  refine ⟨?_, ?_, ?_⟩
  · have hcurrent : t.current = s.current := by
      funext row
      unfold Store.current
      rw [hrevoked]
    rw [hstakeholders, hissued, hcurrent]
    exact h.rows
  · rw [hstakeholders, hissued]
    exact h.issued
  · rw [hstakeholders, hrevoked]
    exact h.revoked

theorem current_id (row : Stakeholder) : (s.current row).id = row.id := by
  unfold Store.current Stakeholder.grant Stakeholder.revoke
  split <;> rfl

theorem Recorded.invited (h : Recorded s) {row : Stakeholder}
    (hid : row.id = s.stakeholders.next) :
    Recorded { s with
      stakeholders := ⟨s.stakeholders.next + 1, s.stakeholders.rows ++ [row]⟩
      issued := s.issued ++ [row] } := by
  have hnew : row.id ∉ s.revoked := by
    intro hrevoked
    exact absurd (h.revoked row.id hrevoked) (by omega)
  have hcurrent : s.current row = row.grant := by
    unfold Store.current
    rw [if_neg hnew]
  refine ⟨?_, ?_, ?_⟩
  · change (s.stakeholders.rows ++ [row]).map Stakeholder.grant =
      (s.issued ++ [row]).map s.current
    rw [map_append, map_append, h.rows, map_singleton, map_singleton, hcurrent]
  · intro other hother
    change other.id < s.stakeholders.next + 1
    rcases mem_concat.mp hother with hold | hlast
    · exact Nat.lt_succ_of_lt (h.issued other hold)
    · rw [hlast]
      omega
  · exact fun id hrevoked => Nat.lt_succ_of_lt (h.revoked id hrevoked)

theorem insert_eq_none {α : Type} {t t' : Serial α} {write : Write} {row : Nat → α}
    (h : t.insert write row = (t', none)) : t'.rows = t.rows ∧ t.next ≤ t'.next := by
  unfold Serial.insert at h
  split at h
  next => cases h
  next drawn =>
    obtain ⟨rfl, _⟩ := Prod.mk.inj h
    refine ⟨rfl, ?_⟩
    dsimp only
    split <;> omega

theorem insert_eq_some {α : Type} {t t' : Serial α} {write : Write} {row : Nat → α} {id : Nat}
    (h : t.insert write row = (t', some id)) :
    id = t.next ∧ t' = ⟨t.next + 1, t.rows ++ [row t.next]⟩ := by
  unfold Serial.insert at h
  split at h
  next =>
    obtain ⟨rfl, hid⟩ := Prod.mk.inj h
    exact ⟨(Option.some.inj hid).symm, rfl⟩
  next => cases h

theorem Recorded.invite (h : Recorded s) (actor : Actor) (ref : String) (body : StakeholderBody)
    (accessToken : String) (db : Database) :
    Recorded (inviteStakeholder s isEmail actor ref body accessToken db).1 := by
  fun_cases inviteStakeholder s isEmail actor ref body accessToken db
  · exact h
  · exact h
  next hinsert =>
    obtain ⟨hrows, hnext⟩ := insert_eq_none hinsert
    refine ⟨?_, ?_, ?_⟩
    · exact (congrArg (List.map Stakeholder.grant) hrows).trans h.rows
    · exact fun row hrow => Nat.lt_of_lt_of_le (h.issued row hrow) hnext
    · exact fun id hid => Nat.lt_of_lt_of_le (h.revoked id hid) hnext
  next row _ _ _ hinsert =>
    obtain ⟨rfl, rfl⟩ := insert_eq_some hinsert
    have hinvited : Recorded { s with
        stakeholders := ⟨s.stakeholders.next + 1, s.stakeholders.rows ++ [row s.stakeholders.next]⟩
        issued := s.issued ++ [row s.stakeholders.next] } := h.invited rfl
    apply hinvited.same
    apply SameGrants.logged
    exact ⟨rfl, rfl, rfl⟩

theorem revoke_current {row : Stakeholder} (id : Nat) :
    ({ s with revoked := s.revoked ++ [id] } : Store).current row =
      if row.id = id then (s.current row).revoke else s.current row := by
  unfold Store.current
  simp only [mem_append, mem_singleton]
  by_cases hid : row.id = id
  · rw [if_pos (.inr hid), if_pos hid]
    split <;> rfl
  · rw [if_neg hid]
    simp only [hid, or_false]

theorem Recorded.revokeStakeholder (h : Recorded s) (stakeholderId : Nat) (db : Database) :
    Recorded (revokeStakeholder s stakeholderId db).1 := by
  fun_cases CaseManager.revokeStakeholder s stakeholderId db
  · exact h
  next hknown =>
    refine ⟨?_, h.issued, ?_⟩
    · change (updateWhere (fun row => row.id == stakeholderId) Stakeholder.revoke
        s.stakeholders.rows).map Stakeholder.grant = s.issued.map _
      have hstep (row : Stakeholder) :
          (if row.id == stakeholderId then row.revoke else row).grant =
            if row.grant.id = stakeholderId then row.grant.revoke else row.grant := by
        by_cases hid : row.id = stakeholderId
        · simp only [beq_iff_eq, hid, if_true, Stakeholder.grant, Stakeholder.revoke]
        · simp only [beq_iff_eq, hid, if_false, Stakeholder.grant]
      have hrows : (updateWhere (fun row => row.id == stakeholderId) Stakeholder.revoke
          s.stakeholders.rows).map Stakeholder.grant =
          (s.stakeholders.rows.map Stakeholder.grant).map fun row =>
            if row.id = stakeholderId then row.revoke else row := by
        unfold updateWhere
        rw [map_map, map_map]
        exact map_congr_left fun row _ => hstep row
      rw [hrows, h.rows, map_map]
      apply map_congr_left
      intro row _
      change (if (s.current row).id = stakeholderId then _ else _) = _
      rw [current_id]
      exact (revoke_current stakeholderId).symm
    · intro id hid
      rcases mem_concat.mp hid with hold | hlast
      · exact h.revoked id hold
      · obtain ⟨row, hrow, heq⟩ := any_eq_true.mp hknown
        have hmem : row.grant ∈ s.issued.map s.current :=
          h.rows ▸ mem_map_of_mem hrow
        obtain ⟨issued, hissued, hcurrent⟩ := mem_map.mp hmem
        have hids : issued.id = row.id := by
          rw [← current_id issued, hcurrent]
          rfl
        rw [hlast, ← beq_iff_eq.mp heq, ← hids]
        exact h.issued issued hissued
  · exact h

theorem Recorded.addStakeholderComment (h : Recorded s) (token ref content : String)
    (db : Database) : Recorded (addStakeholderComment s token ref content db).1 := by
  fun_cases CaseManager.addStakeholderComment s token ref content db
  · exact h
  · exact h
  · exact h
  · exact h
  · exact h
  · exact h.same ⟨rfl, rfl, rfl⟩
  next stakeholder _ _ _ _ _ _ _ touched _ =>
    have htouched : Recorded touched := by
      change Recorded (if db.touches then _ else _)
      split
      next =>
        refine ⟨?_, h.issued, h.revoked⟩
        apply Eq.trans (map_updateWhere _ s.stakeholders.rows) h.rows
        exact fun row => rfl
      next => exact h.same ⟨rfl, rfl, rfl⟩
    apply htouched.same
    apply SameGrants.logged
    exact ⟨rfl, rfl, rfl⟩

theorem Recorded.answered (h : Recorded s) (request : Request) :
    Recorded (serve isEmail s request).1 := by
  cases request with
  | staff actor action db =>
    cases action with
    | createCase ref body => exact h.same (createCase_grants actor ref body db)
    | updateCase ref body => exact h.same (updateCase_grants actor ref body db)
    | archiveCase ref => exact h.same (archiveCase_grants ref db)
    | updateCaseStatus ref status => exact h.same (updateCaseStatus_grants actor ref status db)
    | addParty ref role name => exact h.same (addParty_grants actor ref role name db)
    | uploadDocument ref body => exact h.same (uploadDocument_grants actor ref body db)
    | deleteDocument docId => exact h.same (deleteDocument_grants actor docId db)
    | inviteStakeholder ref body accessToken => exact h.invite actor ref body accessToken db
    | revokeStakeholder stakeholderId => exact h.revokeStakeholder stakeholderId db
    | addComment ref content confidential =>
      exact h.same (addComment_grants actor ref content confidential db)
  | portal request =>
    change Recorded (servePortal s request).1
    unfold servePortal
    split
    next => exact h
    next token _ =>
      split
      next => exact h
      next => exact h
      next => exact h
      next content _ => exact h.addStakeholderComment token request.ref content request.db

theorem recorded_empty : Recorded Store.empty := by
  refine ⟨rfl, ?_, ?_⟩
  · intro row hrow
    cases hrow
  · intro id hid
    cases hid

theorem Recorded.stateAfter (h : Recorded s) (history : List Request) :
    Recorded (Transition.stateAfter (serve isEmail) s history) := by
  induction history generalizing s with
  | nil => exact h
  | cons request rest ih => exact ih (h.answered request)

/-! ### The requests of the portal -/

/-- A row that admits is an invitation that was not revoked, and the other way round. -/
theorem Recorded.authorised_iff (h : Recorded s) {token : String} {now : Time} {visit : Visit} :
    Authorised s token now caseId visit ↔
      ∃ row ∈ s.stakeholders.rows, row.admits token now = true ∧ row.caseId = caseId ∧
        visit.permitted row = true := by
  -- Nothing of this depends on when the token was last used.
  have hgrant {row row' : Stakeholder} (heq : row.grant = row'.grant)
      (hrow : row.admits token now = true ∧ row.caseId = caseId ∧ visit.permitted row = true) :
      row'.admits token now = true ∧ row'.caseId = caseId ∧ visit.permitted row' = true := by
    have hview (r : Stakeholder) : (r.admits token now, r.caseId, visit.permitted r) =
        (r.grant.admits token now, r.grant.caseId, visit.permitted r.grant) := by
      cases visit <;> rfl
    have hsame := (hview row).trans ((congrArg (fun r : Stakeholder =>
      (r.admits token now, r.caseId, visit.permitted r)) heq).trans (hview row').symm)
    obtain ⟨hadmits, hrest⟩ := Prod.mk.inj hsame
    obtain ⟨hcase, hpermitted⟩ := Prod.mk.inj hrest
    exact ⟨hadmits ▸ hrow.1, hcase ▸ hrow.2.1, hpermitted ▸ hrow.2.2⟩
  constructor
  · rintro ⟨row, hrow, hkept, hallowed⟩
    have hcurrent : s.current row = row.grant := by
      unfold Store.current
      rw [if_neg hkept]
    have hmem : row.grant ∈ s.stakeholders.rows.map Stakeholder.grant := by
      rw [h.rows, ← hcurrent]
      exact mem_map_of_mem hrow
    obtain ⟨stored, hstored, heq⟩ := mem_map.mp hmem
    exact ⟨stored, hstored, hgrant heq.symm hallowed⟩
  · rintro ⟨row, hrow, hallowed⟩
    have hmem : row.grant ∈ s.issued.map s.current := h.rows ▸ mem_map_of_mem hrow
    obtain ⟨issued, hissued, hcurrent⟩ := mem_map.mp hmem
    unfold Store.current at hcurrent
    split at hcurrent
    next =>
      have htoken : row.accessToken = none := (congrArg Stakeholder.accessToken hcurrent).symm
      have hadmits := hallowed.1
      unfold Stakeholder.admits at hadmits
      rw [htoken] at hadmits
      cases hadmits
    next hkept => exact ⟨issued, hissued, hkept, hgrant hcurrent.symm hallowed⟩

/-- A comment that is accepted comes with a row that allows it. -/
theorem commented_admits {token ref content : String} {db : Database}
    (h : (addStakeholderComment s token ref content db).2.about s ref = some caseId) :
    ∃ row ∈ s.stakeholders.rows, row.admits token db.now = true ∧ row.caseId = caseId ∧
      row.canComment = true := by
  revert h
  fun_cases addStakeholderComment s token ref content db
  · exact fun h => by cases h
  · exact fun h => by cases h
  · exact fun h => by cases h
  · exact fun h => by cases h
  · exact fun h => by cases h
  · exact fun h => by cases h
  next stakeholder hfound hcomment _ _ _ _ _ _ _ _ =>
    intro h
    have hadmits : stakeholder.admits token db.now = true :=
      @List.find?_some _ (fun row : Stakeholder => row.admits token db.now) _ _ hfound
    refine ⟨stakeholder, mem_of_find?_eq_some hfound, hadmits, Option.some.inj h, ?_⟩
    simpa using hcomment

/-- The other requests have data of the case whatever the token is. -/
theorem about_of_read (hread : ∀ content, request.visit ≠ .comment content) :
    (servePortal s request).2.about s request.ref =
      if (stakeholderTokenAuth request.query request.authorization).isSome &&
        request.db.answers request.visit then (s.caseOf request.ref).map Case.id else none := by
  unfold servePortal
  cases htoken : stakeholderTokenAuth request.query request.authorization with
  | none => rfl
  | some token =>
    rw [Option.isSome_some, Bool.true_and]
    dsimp only
    cases hvisit : request.visit with
    | comment content => exact absurd hvisit (hread content)
    | case =>
      change (getCaseForStakeholder s request.ref request.db).about s request.ref =
        if request.db.reads then _ else _
      unfold getCaseForStakeholder getByRef
      cases request.db.reads with
      | false => rfl
      | true =>
        cases hcase : s.caseOf request.ref with
        | none => rfl
        | some c => exact congrArg (Option.map Case.id) hcase
    | documents =>
      change (listDocumentsForStakeholder s request.ref request.db).about s request.ref =
        if request.db.reads && request.db.rereads then _ else _
      unfold listDocumentsForStakeholder getCaseIDByRef
      cases request.db.reads with
      | false => rfl
      | true =>
        cases hcase : s.caseOf request.ref with
        | none => cases request.db.rereads <;> rfl
        | some c =>
          cases request.db.rereads with
          | false => rfl
          | true => exact congrArg (Option.map Case.id) hcase
    | timeline =>
      change (getTimeline s request.ref request.db).about s request.ref =
        if request.db.reads && request.db.rereads then _ else _
      unfold getTimeline getCaseIDByRef
      cases request.db.reads with
      | false => rfl
      | true =>
        cases hcase : s.caseOf request.ref with
        | none => cases request.db.rereads <;> rfl
        | some c =>
          cases request.db.rereads with
          | false => rfl
          | true => exact congrArg (Option.map Case.id) hcase

theorem guarded_of_read (hread : ∀ content, request.visit ≠ .comment content) :
    Guarded s request ↔
      ∀ token c, stakeholderTokenAuth request.query request.authorization = some token →
        s.caseOf request.ref = some c → request.db.answers request.visit = true →
        ∃ row ∈ s.stakeholders.rows, row.admits token request.db.now = true ∧
          row.caseId = c.id ∧ request.visit.permitted row = true := by
  unfold Guarded
  cases hvisit : request.visit with
  | comment content => exact absurd hvisit (hread content)
  | case | documents | timeline => exact Iff.rfl

theorem Recorded.lawful_of_comment (h : Recorded s) {content : String}
    (hvisit : request.visit = .comment content) : Lawful s request := by
  intro caseId habout
  unfold servePortal at habout
  cases htoken : stakeholderTokenAuth request.query request.authorization with
  | none =>
    rw [htoken] at habout
    cases habout
  | some token =>
    rw [htoken, hvisit] at habout
    refine ⟨token, rfl, ?_⟩
    rw [hvisit]
    exact h.authorised_iff.mpr (commented_admits habout)

theorem Recorded.lawful_of_read (h : Recorded s)
    (hread : ∀ content, request.visit ≠ .comment content) :
    Lawful s request ↔ Guarded s request := by
  rw [guarded_of_read hread]
  unfold Lawful
  rw [about_of_read hread]
  constructor
  · intro hlawful token c htoken hcase hanswers
    have habout := hlawful c.id
    rw [htoken, hcase, hanswers] at habout
    obtain ⟨token', heq, hauthorised⟩ := habout rfl
    cases heq
    exact h.authorised_iff.mp hauthorised
  · intro hguarded caseId habout
    split at habout
    next hread =>
      obtain ⟨hsome, hanswers⟩ := Bool.and_eq_true_iff.mp hread
      obtain ⟨token, htoken⟩ := Option.isSome_iff_exists.mp hsome
      obtain ⟨c, hcase, rfl⟩ := Option.map_eq_some_iff.mp habout
      exact ⟨token, htoken, h.authorised_iff.mpr (hguarded token c htoken hcase hanswers)⟩
    next => cases habout

/-- After any history, a request of the portal gets what its token allows exactly when it is a
comment or comes with the token of a row that the reader may use. -/
theorem lawful_iff_guarded (isEmail : String → Bool) (history : List Request)
    (request : PortalRequest) :
    Lawful (stateAfter (serve isEmail) .empty history) request ↔
      Guarded (stateAfter (serve isEmail) .empty history) request := by
  have h : Recorded (stateAfter (serve isEmail) .empty history) :=
    recorded_empty.stateAfter history
  by_cases hread : ∀ content, request.visit ≠ .comment content
  · exact h.lawful_of_read hread
  · obtain ⟨content, hvisit⟩ := not_forall_not.mp hread
    refine ⟨fun _ => ?_, fun _ => h.lawful_of_comment hvisit⟩
    unfold Guarded
    rw [hvisit]
    exact True.intro

/-- A case with one document, and nobody invited. -/
def leaseHistory : List Request :=
  [.staff {} (.createCase "CASE-2026-0A1B2C3D" ⟨"Lease fraud", "fraud", "", none⟩) {},
    .staff {} (.uploadDocument "CASE-2026-0A1B2C3D"
      ⟨"lease.pdf", none, "cases/1/lease.pdf", "https://files/lease.pdf", none, none, none, false⟩) {}]

def guess : PortalRequest := ⟨"guess", "", "CASE-2026-0A1B2C3D", .documents, {}⟩

theorem guess_answered :
    ¬ ∀ (isEmail : String → Bool) (history : List Request) (request : PortalRequest),
      Lawful (stateAfter (serve isEmail) .empty history) request := by
  intro hall
  have habout : (servePortal (stateAfter (serve fun _ => true) .empty leaseHistory) guess).2.about
      (stateAfter (serve fun _ => true) .empty leaseHistory) guess.ref = some 1 := by
    decide
  obtain ⟨_, _, row, hrow, _⟩ := hall (fun _ => true) leaseHistory guess 1 habout
  cases hrow

end Bis.CaseManager
