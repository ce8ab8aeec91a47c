import Bis.CaseManager.Service

/-!
What of confidential documents and comments a stakeholder sees. Their rows are kept from the
portal, but each of them draws an id and leaves an event in the timeline, with the name of the
file or the author of the comment. What leaves no trace is the rest of a row: where the file
is, what it is about, what the comment says.
-/

namespace Bis.CaseManager

open Bis.Relation Bis.Transition List

/-! ### What leaves a trace -/

def Document.seen (d : Document) : Document :=
  if d.confidential then
    { d with fileKey := "", url := "", sizeBytes := none, category := none, description := none }
  else d

def Comment.seen (c : Comment) : Comment := if c.confidential then { c with content := "" } else c

def Store.seen (s : Store) : Store :=
  { s with
    documents := ⟨s.documents.next, s.documents.rows.map Document.seen⟩
    comments := ⟨s.comments.next, s.comments.rows.map Comment.seen⟩ }

/-- Whether a field is filled is seen in the reply. -/
def filled (field : String) : String := if field.isEmpty then "" else "-"

def DocumentBody.seen (body : DocumentBody) : DocumentBody :=
  if body.confidential then
    { body with
      fileKey := filled body.fileKey
      url := filled body.url
      sizeBytes := none
      category := none
      description := none }
  else body

def Action.seen : Action → Action
  | .uploadDocument ref body => .uploadDocument ref body.seen
  | .addComment ref content true =>
    .addComment ref (if bindsContent content then "-" else "") true
  | action => action

def Request.seen : Request → Request
  | .staff actor action db => .staff actor action.seen db
  | .portal request => .portal request

/-! ### Requests on what is seen -/

variable {s t : Store} {isEmail : String → Bool}

/-- A reply with what is seen of the store. -/
def blinded (result : Store × Reply) : Store × Reply := (result.1.seen, result.2)

theorem blinded_logged (s : Store) (db : Database) (caseId : Nat) (eventType title : String)
    (detail : List (String × Detail)) (actorId : Option Int) (actorName : String)
    (reply : Reply) :
    blinded (insertEvent s db caseId eventType title detail actorId actorName, reply) =
      (insertEvent s.seen db caseId eventType title detail actorId actorName, reply) := by
  unfold insertEvent
  split
  · rfl
  · rfl

theorem createCase_seen (actor : Actor) (ref : String) (body : CaseBody) (db : Database) :
    createCase s.seen actor ref body db = blinded (createCase s actor ref body db) := by
  have hcase : s.seen.caseOf ref = s.caseOf ref := rfl
  have hcases : s.seen.cases = s.cases := rfl
  unfold createCase
  rw [hcase, hcases]
  split
  · rfl
  · dsimp only
    generalize s.cases.insert _ _ = inserted
    obtain ⟨cases, id⟩ := inserted
    cases id with
    | none => rfl
    | some id =>
      dsimp only
      rw [blinded_logged]
      rfl

theorem updateCase_seen (actor : Actor) (ref : String) (body : CaseChange) (db : Database) :
    updateCase s.seen actor ref body db = blinded (updateCase s actor ref body db) := by
  have hcase : getByRef s.seen db.reads ref = getByRef s db.reads ref := rfl
  unfold updateCase
  rw [hcase]
  cases getByRef s db.reads ref with
  | none => rfl
  | some existing =>
    dsimp only
    split
    · rfl
    · cases db.writes with
      | refused drawn => rfl
      | done =>
        dsimp only
        rw [blinded_logged]
        rfl

theorem archiveCase_seen (ref : String) (db : Database) :
    archiveCase s.seen ref db = blinded (archiveCase s ref db) := by
  unfold archiveCase
  cases db.writes with
  | refused drawn => rfl
  | done => rfl

theorem updateCaseStatus_seen (actor : Actor) (ref status : String) (db : Database) :
    updateCaseStatus s.seen actor ref status db =
      blinded (updateCaseStatus s actor ref status db) := by
  have hcase : getByRef s.seen db.reads ref = getByRef s db.reads ref := rfl
  unfold updateCaseStatus
  rw [hcase]
  split
  · rfl
  · cases getByRef s db.reads ref with
    | none => rfl
    | some existing =>
      dsimp only
      cases db.writes with
      | refused drawn => rfl
      | done =>
        dsimp only
        rw [blinded_logged]
        rfl

theorem addParty_seen (actor : Actor) (ref role name : String) (db : Database) :
    addParty s.seen actor ref role name db = blinded (addParty s actor ref role name db) := by
  have hcase : getCaseIDByRef s.seen db.reads ref = getCaseIDByRef s db.reads ref := rfl
  have hparties : s.seen.parties = s.parties := rfl
  unfold addParty
  rw [hcase, hparties]
  cases getCaseIDByRef s db.reads ref with
  | error reply => rfl
  | ok caseId =>
    dsimp only
    split
    · rfl
    · generalize s.parties.insert _ _ = inserted
      obtain ⟨parties, id⟩ := inserted
      cases id with
      | none => rfl
      | some id =>
        dsimp only
        rw [blinded_logged]
        rfl

theorem inviteStakeholder_seen (actor : Actor) (ref : String) (body : StakeholderBody)
    (accessToken : String) (db : Database) :
    inviteStakeholder s.seen isEmail actor ref body accessToken db =
      blinded (inviteStakeholder s isEmail actor ref body accessToken db) := by
  have hcase : getCaseIDByRef s.seen db.reads ref = getCaseIDByRef s db.reads ref := rfl
  have hstakeholders : s.seen.stakeholders = s.stakeholders := rfl
  unfold inviteStakeholder
  rw [hcase, hstakeholders]
  cases getCaseIDByRef s db.reads ref with
  | error reply => rfl
  | ok caseId =>
    dsimp only
    split
    · rfl
    · generalize s.stakeholders.insert _ _ = inserted
      obtain ⟨stakeholders, id⟩ := inserted
      cases id with
      | none => rfl
      | some id =>
        dsimp only
        rw [blinded_logged]
        rfl

theorem revokeStakeholder_seen (stakeholderId : Nat) (db : Database) :
    revokeStakeholder s.seen stakeholderId db =
      blinded (revokeStakeholder s stakeholderId db) := by
  have hstakeholders : s.seen.stakeholders = s.stakeholders := rfl
  unfold revokeStakeholder
  rw [hstakeholders]
  cases db.writes with
  | refused drawn => rfl
  | done =>
    dsimp only
    split
    · rfl
    · rfl

/-! ### Documents and comments -/

theorem insert_map {α β : Type} (f : α → β) (t : Serial α) (write : Write) (row : Nat → α) :
    (⟨t.next, t.rows.map f⟩ : Serial β).insert write (fun id => f (row id)) =
      (⟨(t.insert write row).1.next, (t.insert write row).1.rows.map f⟩,
        (t.insert write row).2) := by
  cases write with
  | done =>
    unfold Serial.insert
    dsimp only
    rw [map_append, map_singleton]
  | refused drawn => rfl

theorem Document.seen_seen (d : Document) : d.seen.seen = d.seen := by
  unfold Document.seen
  cases hconfidential : d.confidential with
  | false => simp [hconfidential]
  | true => simp

theorem Comment.seen_seen (c : Comment) : c.seen.seen = c.seen := by
  unfold Comment.seen
  cases hconfidential : c.confidential with
  | false => simp [hconfidential]
  | true => simp

theorem map_seen_seen (rows : List Document) :
    (rows.map Document.seen).map Document.seen = rows.map Document.seen := by
  rw [map_map]
  exact map_congr_left fun d _ => d.seen_seen

theorem map_comments_seen_seen (rows : List Comment) :
    (rows.map Comment.seen).map Comment.seen = rows.map Comment.seen := by
  rw [map_map]
  exact map_congr_left fun c _ => c.seen_seen

theorem seen_seen (s : Store) : s.seen.seen = s.seen := by
  unfold Store.seen
  dsimp only
  rw [map_seen_seen, map_comments_seen_seen]

theorem blinded_blinded (result : Store × Reply) : blinded (blinded result) = blinded result :=
  Prod.ext (seen_seen result.1) rfl

theorem filled_isEmpty (field : String) : (filled field).isEmpty = field.isEmpty := by
  unfold filled
  split
  next hempty => rw [hempty]; rfl
  next hfilled => rw [Bool.not_eq_true] at hfilled; rw [hfilled]; rfl

theorem DocumentBody.seen_binds (body : DocumentBody) : body.seen.binds = body.binds := by
  unfold DocumentBody.seen DocumentBody.binds
  split
  next => rw [filled_isEmpty, filled_isEmpty]
  next => rfl

theorem DocumentBody.seen_row (body : DocumentBody) (caseId : Nat) (userId : Option Int)
    (now : Time) (id : Nat) :
    (body.seen.row caseId userId now id).seen = (body.row caseId userId now id).seen := by
  unfold DocumentBody.seen Document.seen DocumentBody.row
  cases hconfidential : body.confidential with
  | false => simp [hconfidential]
  | true => simp

/-- Rows that are seen alike make stores that are. -/
theorem seen_documents {rows rows' : List Document}
    (hrows : rows'.map Document.seen = rows.map Document.seen) (next : Nat) :
    ({ s.seen with documents := ⟨next, rows'⟩ } : Store).seen =
      ({ s with documents := ⟨next, rows⟩ } : Store).seen := by
  unfold Store.seen
  dsimp only
  rw [hrows, map_comments_seen_seen]

theorem seen_comments {rows rows' : List Comment}
    (hrows : rows'.map Comment.seen = rows.map Comment.seen) (next : Nat) :
    ({ s.seen with comments := ⟨next, rows'⟩ } : Store).seen =
      ({ s with comments := ⟨next, rows⟩ } : Store).seen := by
  unfold Store.seen
  dsimp only
  rw [hrows, map_seen_seen]

theorem uploadDocument_seen (actor : Actor) (ref : String) (body : DocumentBody) (db : Database) :
    blinded (uploadDocument s.seen actor ref body.seen db) =
      blinded (uploadDocument s actor ref body db) := by
  have hcase : getCaseIDByRef s.seen db.reads ref = getCaseIDByRef s db.reads ref := rfl
  have hname : body.seen.filename = body.filename ∧ body.seen.mimeType = body.mimeType := by
    unfold DocumentBody.seen
    split
    · exact ⟨rfl, rfl⟩
    · exact ⟨rfl, rfl⟩
  unfold uploadDocument
  rw [hcase, body.seen_binds, hname.1, hname.2]
  cases getCaseIDByRef s db.reads ref with
  | error reply => exact Prod.ext (seen_seen s) rfl
  | ok caseId =>
    dsimp only
    split
    · exact Prod.ext (seen_seen s) rfl
    · -- The two rows differ in what is not seen.
      cases db.writes with
      | refused drawn => exact Prod.ext (seen_documents (map_seen_seen _) _) rfl
      | done =>
        have hrows : (s.documents.rows.map Document.seen ++
            [body.seen.row caseId actor.userId db.now s.documents.next]).map Document.seen =
            (s.documents.rows ++
              [body.row caseId actor.userId db.now s.documents.next]).map Document.seen := by
          rw [map_append, map_append, map_seen_seen, map_singleton,
            map_singleton, body.seen_row]
        dsimp only [Serial.insert]
        rw [blinded_logged, blinded_logged]
        exact congrArg (fun u => (insertEvent u db caseId _ _ _ _ _, Reply.done 201))
          (seen_documents hrows _)

theorem deleteDocument_seen (actor : Actor) (docId : Nat) (db : Database) :
    deleteDocument s.seen actor docId db = blinded (deleteDocument s actor docId db) := by
  have hkey (d : Document) : d.seen.id = d.id ∧ d.seen.caseId = d.caseId ∧
      d.seen.filename = d.filename := by
    unfold Document.seen
    split
    · exact ⟨rfl, rfl, rfl⟩
    · exact ⟨rfl, rfl, rfl⟩
  have hfind : (s.seen.documents.rows.find? fun d => d.id == docId) =
      (s.documents.rows.find? fun d => d.id == docId).map Document.seen := by
    change (s.documents.rows.map Document.seen).find? _ = _
    rw [find?_map]
    congr 2
    funext d
    exact congrArg (· == docId) (hkey d).1
  have hrest : (s.seen.documents.rows.filter fun d => d.id != docId) =
      (s.documents.rows.filter fun d => d.id != docId).map Document.seen := by
    change (s.documents.rows.map Document.seen).filter _ = _
    rw [filter_map]
    congr 2
    funext d
    exact congrArg (· != docId) (hkey d).1
  unfold deleteDocument
  rw [hfind, hrest]
  cases db.writes with
  | refused drawn => rfl
  | done =>
    dsimp only
    cases s.documents.rows.find? fun d => d.id == docId with
    | none => rfl
    | some document =>
      rw [Option.map_some]
      dsimp only
      rw [(hkey document).2.1, (hkey document).2.2]
      split
      · rw [blinded_logged]
        rfl
      · rfl

theorem addComment_seen (actor : Actor) (ref : String) {content content' : String}
    (confidential : Bool) (db : Database) (hbinds : bindsContent content' = bindsContent content)
    (hcontent : confidential = true ∨ content' = content) :
    blinded (addComment s.seen actor ref content' confidential db) =
      blinded (addComment s actor ref content confidential db) := by
  have hcase : getCaseIDByRef s.seen db.reads ref = getCaseIDByRef s db.reads ref := rfl
  have hrow (id caseId : Nat) :
      (⟨id, caseId, content', actor.userId, actor.userName, actor.userRole, none, confidential,
        db.now⟩ : Comment).seen =
      (⟨id, caseId, content, actor.userId, actor.userName, actor.userRole, none, confidential,
        db.now⟩ : Comment).seen := by
    rcases hcontent with rfl | rfl
    · rfl
    · rfl
  unfold addComment
  rw [hcase, hbinds]
  cases getCaseIDByRef s db.reads ref with
  | error reply => exact Prod.ext (seen_seen s) rfl
  | ok caseId =>
    dsimp only
    split
    · exact Prod.ext (seen_seen s) rfl
    · cases db.writes with
      | refused drawn => exact Prod.ext (seen_comments (map_comments_seen_seen _) _) rfl
      | done =>
        have hrows : (s.comments.rows.map Comment.seen ++
            [(⟨s.comments.next, caseId, content', actor.userId, actor.userName, actor.userRole,
              none, confidential, db.now⟩ : Comment)]).map Comment.seen =
            (s.comments.rows ++
              [(⟨s.comments.next, caseId, content, actor.userId, actor.userName,
                actor.userRole, none, confidential, db.now⟩ : Comment)]).map Comment.seen := by
          rw [map_append, map_append, map_comments_seen_seen, map_singleton,
            map_singleton, hrow]
        dsimp only [Serial.insert]
        rw [blinded_logged, blinded_logged]
        exact congrArg (fun u => (insertEvent u db caseId _ _ _ _ _, Reply.done 201))
          (seen_comments hrows _)

theorem addStakeholderComment_seen (token ref content : String) (db : Database) :
    addStakeholderComment s.seen token ref content db =
      blinded (addStakeholderComment s token ref content db) := by
  have hstakeholder : s.seen.stakeholderOf token db.now = s.stakeholderOf token db.now := rfl
  have hcases : s.seen.cases = s.cases := rfl
  unfold addStakeholderComment
  rw [hstakeholder, hcases]
  split
  · rfl
  · cases s.stakeholderOf token db.now with
    | none => rfl
    | some stakeholder =>
      dsimp only
      split
      · rfl
      · generalize (if db.rereads then
          ((s.cases.rows.find? fun c => c.id == stakeholder.caseId).map Case.ref).getD ""
          else "") = caseRef
        split
        · rfl
        · split
          · rfl
          · -- A stakeholder's comment is not confidential.
            have hinsert := insert_map Comment.seen s.comments db.writes fun id =>
              ⟨id, stakeholder.caseId, content, none, stakeholder.name, "stakeholder",
                some stakeholder.id, false, db.now⟩
            have hrow (id : Nat) : (⟨id, stakeholder.caseId, content, none, stakeholder.name,
                "stakeholder", some stakeholder.id, false, db.now⟩ : Comment).seen =
                ⟨id, stakeholder.caseId, content, none, stakeholder.name, "stakeholder",
                  some stakeholder.id, false, db.now⟩ := rfl
            have hcomments : s.seen.comments =
                ⟨s.comments.next, s.comments.rows.map Comment.seen⟩ := rfl
            simp only [hrow] at hinsert
            rw [hcomments, hinsert]
            generalize s.comments.insert _ _ = inserted
            obtain ⟨comments, id⟩ := inserted
            cases id with
            | none => rfl
            | some id =>
              dsimp only
              rw [blinded_logged]
              split
              · rfl
              · rfl

/-! ### The portal -/

/-- The rows of the documents that are listed are seen as they are. -/
theorem filter_seen (caseId : Nat) (rows : List Document) :
    ((rows.map Document.seen).filter fun d => d.caseId == caseId && !d.confidential) =
      rows.filter fun d => d.caseId == caseId && !d.confidential := by
  induction rows with
  | nil => rfl
  | cons d rest ih =>
    rw [map_cons, filter_cons, filter_cons, ih]
    cases hconfidential : d.confidential with
    | false =>
      have hsame : d.seen = d := by
        unfold Document.seen
        rw [hconfidential]
        rfl
      rw [hsame, hconfidential]
    | true =>
      have hsame : d.seen.confidential = true := by
        unfold Document.seen
        rw [hconfidential]
        rfl
      rw [hsame, Bool.not_true, Bool.and_false, Bool.and_false]
      rfl

theorem servePortal_seen (request : PortalRequest) :
    servePortal s.seen request = blinded (servePortal s request) := by
  unfold servePortal
  cases stakeholderTokenAuth request.query request.authorization with
  | none => rfl
  | some token =>
    dsimp only
    cases request.visit with
    | case => rfl
    | timeline => rfl
    | comment content => exact addStakeholderComment_seen token request.ref content request.db
    | documents =>
      have hcase : getCaseIDByRef s.seen request.db.reads request.ref =
          getCaseIDByRef s request.db.reads request.ref := rfl
      have hlist : listDocumentsForStakeholder s.seen request.ref request.db =
          listDocumentsForStakeholder s request.ref request.db := by
        unfold listDocumentsForStakeholder
        rw [hcase]
        cases getCaseIDByRef s request.db.reads request.ref with
        | error reply => rfl
        | ok caseId =>
          change (if request.db.rereads then Reply.documents request.ref
            ((((s.documents.rows.map Document.seen).filter _).insertionSort _).map _)
            else _) = _
          rw [filter_seen]
      exact Prod.ext rfl hlist

theorem serve_seen (s : Store) (request : Request) :
    blinded (serve isEmail s.seen request.seen) = blinded (serve isEmail s request) := by
  cases request with
  | portal request =>
    exact (congrArg blinded (servePortal_seen request)).trans (blinded_blinded _)
  | staff actor action db =>
    cases action with
    | createCase ref body =>
      exact (congrArg blinded (createCase_seen actor ref body db)).trans (blinded_blinded _)
    | updateCase ref body =>
      exact (congrArg blinded (updateCase_seen actor ref body db)).trans (blinded_blinded _)
    | archiveCase ref =>
      exact (congrArg blinded (archiveCase_seen ref db)).trans (blinded_blinded _)
    | updateCaseStatus ref status =>
      exact (congrArg blinded (updateCaseStatus_seen actor ref status db)).trans
        (blinded_blinded _)
    | addParty ref role name =>
      exact (congrArg blinded (addParty_seen actor ref role name db)).trans (blinded_blinded _)
    | uploadDocument ref body => exact uploadDocument_seen actor ref body db
    | deleteDocument docId =>
      exact (congrArg blinded (deleteDocument_seen actor docId db)).trans (blinded_blinded _)
    | inviteStakeholder ref body accessToken =>
      exact (congrArg blinded (inviteStakeholder_seen actor ref body accessToken db)).trans
        (blinded_blinded _)
    | revokeStakeholder stakeholderId =>
      exact (congrArg blinded (revokeStakeholder_seen stakeholderId db)).trans
        (blinded_blinded _)
    | addComment ref content confidential =>
      cases confidential with
      | false => exact addComment_seen actor ref false db rfl (.inr rfl)
      | true =>
        apply addComment_seen actor ref true db _ (.inl rfl)
        cases hbinds : bindsContent content with
        | false => rfl
        | true => rfl

/-- Requests that are seen alike keep stores that are. -/
theorem serve_agrees (hstores : s.seen = t.seen) {a b : Request} (hrequests : a.seen = b.seen) :
    (serve isEmail s a).1.seen = (serve isEmail t b).1.seen := by
  have hresult : blinded (serve isEmail s a) = blinded (serve isEmail t b) := by
    rw [← serve_seen s a, ← serve_seen t b, hstores, hrequests]
  exact congrArg Prod.fst hresult

/-! ### Histories -/

/-- The requests that change something. -/
def changing (isEmail : String → Bool) : Store → List Request → List Request
  | _, [] => []
  | s, request :: rest =>
    let next := (serve isEmail s request).1
    if next = s then changing isEmail s rest else request :: changing isEmail next rest

theorem stateAfter_changing (s : Store) (history : List Request) :
    stateAfter (serve isEmail) s (changing isEmail s history) =
      stateAfter (serve isEmail) s history := by
  induction history generalizing s with
  | nil => rfl
  | cons request rest ih =>
    unfold changing
    dsimp only
    split
    next hsame => rw [ih, stateAfter_cons, hsame]
    next => rw [stateAfter_cons, stateAfter_cons, ih]

theorem stateAfter_agrees {first second : List Request} (hstores : s.seen = t.seen)
    (hseen : first.map Request.seen = second.map Request.seen) :
    (stateAfter (serve isEmail) s first).seen = (stateAfter (serve isEmail) t second).seen := by
  induction first generalizing s t second with
  | nil =>
    cases second with
    | nil => exact hstores
    | cons b rest => cases hseen
  | cons a rest ih =>
    cases second with
    | nil => cases hseen
    | cons b rest' =>
      rw [map_cons, map_cons] at hseen
      obtain ⟨hrequest, hrest⟩ := List.cons.inj hseen
      rw [stateAfter_cons, stateAfter_cons]
      exact ih (serve_agrees hstores hrequest) hrest

/-- Where the requests that change something are seen alike, the portal replies alike. -/
theorem portal_agrees (isEmail : String → Bool) (first second : List Request)
    (hseen : (changing isEmail .empty first).map Request.seen =
      (changing isEmail .empty second).map Request.seen) (request : PortalRequest) :
    (servePortal (stateAfter (serve isEmail) .empty first) request).2 =
      (servePortal (stateAfter (serve isEmail) .empty second) request).2 := by
  have hstores : (stateAfter (serve isEmail) .empty first).seen =
      (stateAfter (serve isEmail) .empty second).seen := by
    rw [← stateAfter_changing _ first, ← stateAfter_changing _ second]
    exact stateAfter_agrees rfl hseen
  have hreply (s : Store) : (servePortal s request).2 = (servePortal s.seen request).2 :=
    (congrArg Prod.snd (servePortal_seen request)).symm
  rw [hreply, hstores, ← hreply]

/-! ### A case with a secret -/

/-- On a confidential document or comment. -/
def Request.isConfidential (s : Store) : Request → Bool
  | .staff _ (.uploadDocument _ body) _ => body.confidential
  | .staff _ (.addComment _ _ confidential) _ => confidential
  | .staff _ (.deleteDocument docId) _ =>
    s.documents.rows.any fun d => d.id == docId && d.confidential
  | _ => false

/-- The other requests of a history. -/
def publicPart (isEmail : String → Bool) : Store → List Request → List Request
  | _, [] => []
  | s, request :: rest =>
    let later := publicPart isEmail (serve isEmail s request).1 rest
    if request.isConfidential s then later else request :: later

def opened : List Request :=
  [.staff {} (.createCase "CASE-2026-0A1B2C3D" ⟨"Lease fraud", "fraud", "", none⟩) {},
    .staff {} (.inviteStakeholder "CASE-2026-0A1B2C3D"
      ⟨"regulator", "Ada Obi", "ada@example.org", none, true, none, none⟩ "5f6e") {}]

def upload (confidential : Bool) (filename fileKey : String) : Request :=
  .staff {} (.uploadDocument "CASE-2026-0A1B2C3D"
    ⟨filename, none, fileKey, "https://files/" ++ fileKey, none, none, none, confidential⟩) {}

def remark (content : String) : Request :=
  .staff {} (.addComment "CASE-2026-0A1B2C3D" content true) {}

def ask (visit : Visit) : PortalRequest := ⟨"5f6e", "", "CASE-2026-0A1B2C3D", visit, {}⟩

/-- Two files under one name, and two remarks. -/
theorem portal_agrees_on_contents :
    (servePortal (stateAfter (serve fun _ => true) .empty
      (opened ++ [upload true "tip.pdf" "a", remark "Call him."])) (ask .timeline)).2 =
    (servePortal (stateAfter (serve fun _ => true) .empty
      (opened ++ [upload true "tip.pdf" "b", remark "Do not call."])) (ask .timeline)).2 :=
  portal_agrees (fun _ => true) (opened ++ [upload true "tip.pdf" "a", remark "Call him."])
    (opened ++ [upload true "tip.pdf" "b", remark "Do not call."]) (by decide)
    (ask .timeline)

/-- The timeline names the file, and the next document and the next comment have other ids. -/
theorem secret_shows :
    (¬ ∀ (isEmail : String → Bool) (first second : List Request) (request : PortalRequest),
      request.visit = .timeline →
      publicPart isEmail .empty first = publicPart isEmail .empty second →
        (servePortal (stateAfter (serve isEmail) .empty first) request).2 =
          (servePortal (stateAfter (serve isEmail) .empty second) request).2) ∧
    (¬ ∀ (isEmail : String → Bool) (first second : List Request) (request : PortalRequest),
      request.visit = .documents →
      publicPart isEmail .empty first = publicPart isEmail .empty second →
        (servePortal (stateAfter (serve isEmail) .empty first) request).2 =
          (servePortal (stateAfter (serve isEmail) .empty second) request).2) ∧
    ¬ ∀ (isEmail : String → Bool) (first second : List Request) (request : PortalRequest)
      (content : String), request.visit = .comment content →
      publicPart isEmail .empty first = publicPart isEmail .empty second →
        (servePortal (stateAfter (serve isEmail) .empty first) request).2 =
          (servePortal (stateAfter (serve isEmail) .empty second) request).2 := by
  refine ⟨?_, ?_, ?_⟩
  · intro hall
    have hsame := hall (fun _ => true) opened (opened ++ [upload true "tip.pdf" "a"])
      (ask .timeline) rfl (by decide)
    revert hsame
    decide
  · intro hall
    have hsame := hall (fun _ => true) (opened ++ [upload false "lease.pdf" "b"])
      (opened ++ [upload true "tip.pdf" "a", upload false "lease.pdf" "b"]) (ask .documents) rfl
      (by decide)
    revert hsame
    decide
  · intro hall
    have hsame := hall (fun _ => true) opened (opened ++ [remark "Call him."])
      (ask (.comment "Noted.")) "Noted." rfl (by decide)
    revert hsame
    decide

end Bis.CaseManager
