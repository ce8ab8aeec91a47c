import Bis.Number.Machine
import Bis.Relation.Table
import Bis.Transition.Unwinding
import Mathlib.Data.List.Sort

/-!
The case manager: the requests of the staff, which have passed the check of their JWT, and
those of the stakeholder portal, which come with an access token. Every request is answered;
what the database does with it (reads that fail, writes it refuses) is part of the request.

Of a case, a party and a reply to the staff there is what the portal can show of it. The
lists of the staff only read, and the events for Kafka are read by nobody here.
-/

namespace Bis.CaseManager

open Bis.Number Bis.Relation

/-! ### Tables -/

/-- Nanoseconds since 1970. -/
abbrev Time := Int

/-- As `time.RFC3339` has it. -/
def Time.seconds (t : Time) : Int := t / 1000000000

structure Case where
  id : Nat
  (ref title type status priority : String)
  summary : Option String
  (createdAt updatedAt : Time)
  deriving DecidableEq

structure Document where
  (id caseId : Nat)
  filename : String
  mimeType : Option String
  (fileKey url : String)
  sizeBytes : Option Int
  (category description : Option String)
  confidential : Bool
  uploadedBy : Option Int
  createdAt : Time
  deriving DecidableEq

structure Stakeholder where
  (id caseId : Nat)
  (role name email : String)
  (organisation accessToken : Option String)
  accessExpiresAt : Option Time
  (canComment canViewDocuments : Bool)
  lastAccessedAt : Option Time
  invitedBy : Option Int
  createdAt : Time
  deriving DecidableEq

structure Comment where
  (id caseId : Nat)
  content : String
  authorId : Option Int
  (authorName authorRole : String)
  stakeholderId : Option Nat
  confidential : Bool
  createdAt : Time
  deriving DecidableEq

/-- A member of the JSON object of an event. -/
inductive Detail where
  | number (n : Nat)
  | text (s : String)
  | flag (b : Bool)
  | null
  deriving DecidableEq

structure TimelineEvent where
  (id caseId : Nat)
  (eventType title : String)
  detail : List (String × Detail)
  actorId : Option Int
  actorName : String
  createdAt : Time
  deriving DecidableEq

/-- A table with a serial id. -/
structure Serial (α : Type) where
  next : Nat
  rows : List α
  deriving DecidableEq

/-- What the database does with a write; a refused INSERT may have drawn its id. -/
inductive Write where
  | done
  | refused (drawn : Bool)
  deriving DecidableEq

def Serial.insert {α : Type} (t : Serial α) (write : Write) (row : Nat → α) :
    Serial α × Option Nat :=
  match write with
  | .done => (⟨t.next + 1, t.rows ++ [row t.next]⟩, some t.next)
  | .refused drawn => (⟨if drawn then t.next + 1 else t.next, t.rows⟩, none)

/-- The invitations and the revocations are history that no handler reads. -/
structure Store where
  cases : Serial Case
  parties : Serial Unit
  documents : Serial Document
  stakeholders : Serial Stakeholder
  comments : Serial Comment
  timeline : Serial TimelineEvent
  issued : List Stakeholder
  revoked : List Nat
  deriving DecidableEq

def Store.empty : Store :=
  ⟨⟨1, []⟩, ⟨1, []⟩, ⟨1, []⟩, ⟨1, []⟩, ⟨1, []⟩, ⟨1, []⟩, [], []⟩

/-! ### Requests -/

/-- From the claims of the JWT; without a name it is "system". -/
structure Actor where
  userId : Option Int := none
  userName : String := "system"
  userRole : String := ""
  deriving DecidableEq

/-- The database on a request: its first and its second read, its own write, the timeline's
event and the access time of a stakeholder. -/
structure Database where
  now : Time := 0
  reads : Bool := true
  rereads : Bool := true
  writes : Write := .done
  logs : Write := .done
  touches : Bool := true
  deriving DecidableEq

structure CaseBody where
  (title type priority : String)
  summary : Option String
  deriving DecidableEq

/-- The fields of a change; `others` are those that the portal does not show. -/
structure CaseChange where
  (title priority summary : Option String)
  others : Nat
  deriving DecidableEq

structure DocumentBody where
  filename : String
  mimeType : Option String
  (fileKey url : String)
  sizeBytes : Option Int
  (category description : Option String)
  confidential : Bool
  deriving DecidableEq

structure StakeholderBody where
  (role name email : String)
  organisation : Option String
  canComment : Bool
  canViewDocuments : Option Bool
  expiryDays : Option Int
  deriving DecidableEq

inductive Action where
  | createCase (ref : String) (body : CaseBody)
  | updateCase (ref : String) (body : CaseChange)
  | archiveCase (ref : String)
  | updateCaseStatus (ref status : String)
  | addParty (ref role name : String)
  | uploadDocument (ref : String) (body : DocumentBody)
  | deleteDocument (docId : Nat)
  | inviteStakeholder (ref : String) (body : StakeholderBody) (accessToken : String)
  | revokeStakeholder (stakeholderId : Nat)
  | addComment (ref content : String) (confidential : Bool)
  deriving DecidableEq

/-- What a stakeholder asks of the portal. -/
inductive Visit where
  | case
  | documents
  | timeline
  | comment (content : String)
  deriving DecidableEq

/-- The token is in the query or in the Authorization header. -/
structure PortalRequest where
  (query authorization ref : String)
  visit : Visit
  db : Database
  deriving DecidableEq

inductive Request where
  | staff (actor : Actor) (action : Action) (db : Database)
  | portal (request : PortalRequest)
  deriving DecidableEq

/-! ### Replies -/

structure CaseView where
  (ref title type status priority : String)
  summary : Option String
  (createdAt updatedAt : Time)
  deriving DecidableEq

inductive Reply where
  /-- A success for the staff. -/
  | done (status : Nat)
  | error (status : Nat) (message : String)
  /-- The body does not bind. -/
  | badRequest
  | caseView (view : CaseView)
  | documents (ref : String) (documents : List Document)
  | timeline (ref : String) (events : List TimelineEvent)
  | commented (id caseId : Nat) (ref content authorName : String) (createdAt : Int)
  deriving DecidableEq

def Reply.serverError : Reply := .error 500 "Database error"

def Reply.caseNotFound : Reply := .error 404 "Case not found"

/-! ### Repository -/

section Handlers

variable (s : Store)

def Store.caseOf (ref : String) : Option Case := s.cases.rows.find? fun c => c.ref == ref

def getCaseIDByRef (reads : Bool) (ref : String) : Except Reply Nat :=
  if reads then
    match s.caseOf ref with
    | some c => .ok c.id
    | none => .error .caseNotFound
  else .error .serverError

/-- An error and a missing case are the same to who asks. -/
def getByRef (reads : Bool) (ref : String) : Option Case :=
  if reads then s.caseOf ref else none

/-- The values of the column's type. -/
def timelineEventTypes : List String :=
  ["case_created", "status_changed", "party_added", "document_uploaded", "document_deleted",
    "comment_added", "investigation_linked", "stakeholder_invited", "field_task_dispatched",
    "alert_triggered", "decision_recorded", "case_closed"]

/-- Who calls it drops its error. -/
def insertEvent (db : Database) (caseId : Nat) (eventType title : String)
    (detail : List (String × Detail)) (actorId : Option Int) (actorName : String) : Store :=
  if timelineEventTypes.contains eventType then
    { s with
      timeline := (s.timeline.insert db.logs fun id =>
        ⟨id, caseId, eventType, title, detail, actorId, actorName, db.now⟩).1 }
  else s

def updateStatus (db : Database) (ref status : String) : Store :=
  { s with
    cases := { s.cases with
      rows := updateWhere (fun c => c.ref == ref)
        (fun c => { c with status, updatedAt := db.now }) s.cases.rows } }

/-! ### Cases -/

def CaseBody.binds (body : CaseBody) : Bool :=
  decide (3 ≤ body.title.length ∧ body.title.length ≤ 300) && !body.type.isEmpty

def createCase (actor : Actor) (ref : String) (body : CaseBody) (db : Database) : Store × Reply :=
  if !body.binds then (s, .badRequest)
  else
    let priority := if body.priority.isEmpty then "medium" else body.priority
    -- The reference is unique.
    let write := if (s.caseOf ref).isSome then .refused true else db.writes
    let (cases, id) := s.cases.insert write fun id =>
      ⟨id, ref, body.title, body.type, "draft", priority, body.summary, db.now, db.now⟩
    let s := { s with cases }
    match id with
    | none => (s, .error 500 "Failed to create case")
    | some id =>
      (insertEvent s db id "case_created" ("Case " ++ ref ++ " created") [] actor.userId
        actor.userName, .done 201)

/-- How many fields it sets. -/
def CaseChange.fields (body : CaseChange) : Nat :=
  [body.title, body.priority, body.summary].countP Option.isSome + body.others

def updateCase (actor : Actor) (ref : String) (body : CaseChange) (db : Database) : Store × Reply :=
  match getByRef s db.reads ref with
  | none => (s, .caseNotFound)
  | some existing =>
    if body.fields = 0 then (s, .done 200)
    else
      match db.writes with
      | .refused _ => (s, .error 500 "Failed to update case")
      | .done =>
        let changed :=
          { s with
            cases := { s.cases with
              rows := updateWhere (fun c => c.ref == ref)
                (fun c => { c with
                  title := body.title.getD c.title
                  priority := body.priority.getD c.priority
                  summary := body.summary.or c.summary
                  updatedAt := db.now }) s.cases.rows } }
        (insertEvent changed db existing.id "case_updated" ("Case " ++ ref ++ " updated")
          [("fields", .number body.fields)] actor.userId actor.userName, .done 200)

def archiveCase (ref : String) (db : Database) : Store × Reply :=
  match db.writes with
  | .refused _ => (s, .error 500 "Failed to archive case")
  | .done => (updateStatus s db ref "archived", .done 200)

def updateCaseStatus (actor : Actor) (ref status : String) (db : Database) : Store × Reply :=
  if status.isEmpty then (s, .badRequest)
  else
    match getByRef s db.reads ref with
    | none => (s, .caseNotFound)
    | some existing =>
      match db.writes with
      | .refused _ => (s, .error 500 "Failed to update status")
      | .done =>
        (insertEvent (updateStatus s db ref status) db existing.id "status_changed"
          ("Status changed: " ++ existing.status ++ " → " ++ status)
          [("from", .text existing.status), ("to", .text status)] actor.userId actor.userName,
          .done 200)

def addParty (actor : Actor) (ref role name : String) (db : Database) : Store × Reply :=
  match getCaseIDByRef s db.reads ref with
  | .error reply => (s, reply)
  | .ok caseId =>
    if role.isEmpty || name.length < 2 || 200 < name.length then (s, .badRequest)
    else
      let (parties, id) := s.parties.insert db.writes fun _ => ()
      let s := { s with parties }
      match id with
      | none => (s, .error 500 "Failed to add party")
      | some id =>
        (insertEvent s db caseId "party_added" ("Party added: " ++ name ++ " (" ++ role ++ ")")
          [("name", .text name), ("partyId", .number id), ("role", .text role)] actor.userId
          actor.userName, .done 201)

/-! ### Documents -/

def DocumentBody.binds (body : DocumentBody) : Bool :=
  !body.filename.isEmpty && !body.fileKey.isEmpty && !body.url.isEmpty

def DocumentBody.row (body : DocumentBody) (caseId : Nat) (userId : Option Int) (now : Time)
    (id : Nat) : Document :=
  ⟨id, caseId, body.filename, body.mimeType, body.fileKey, body.url, body.sizeBytes, body.category,
    body.description, body.confidential, userId, now⟩

def uploadDocument (actor : Actor) (ref : String) (body : DocumentBody) (db : Database) :
    Store × Reply :=
  match getCaseIDByRef s db.reads ref with
  | .error reply => (s, reply)
  | .ok caseId =>
    if !body.binds then (s, .badRequest)
    else
      let (documents, id) := s.documents.insert db.writes (body.row caseId actor.userId db.now)
      let s := { s with documents }
      match id with
      | none => (s, .error 500 "Failed to persist document metadata")
      | some id =>
        (insertEvent s db caseId "document_uploaded" ("Document uploaded: " ++ body.filename)
          [("docId", .number id), ("filename", .text body.filename),
            ("mimeType", body.mimeType.elim .null .text)] actor.userId actor.userName,
          .done 201)

/-- A failed first read leaves no name to log, and the document goes all the same. -/
def deleteDocument (actor : Actor) (docId : Nat) (db : Database) : Store × Reply :=
  match db.writes with
  | .refused _ => (s, .error 500 "Failed to delete document")
  | .done =>
    match s.documents.rows.find? fun d => d.id == docId with
    | none => (s, .error 404 "Document not found")
    | some document =>
      let deleted :=
        { s with
          documents := { s.documents with
            rows := s.documents.rows.filter fun d => d.id != docId } }
      if db.reads then
        (insertEvent deleted db document.caseId "document_deleted"
          ("Document deleted: " ++ document.filename)
          [("docId", .number docId), ("filename", .text document.filename)] actor.userId
          actor.userName, .done 200)
      else (deleted, .done 200)

/-! ### Stakeholders -/

/-- The check of an address is that of the binding library. -/
def StakeholderBody.binds (isEmail : String → Bool) (body : StakeholderBody) : Bool :=
  !body.role.isEmpty && decide (2 ≤ body.name.length ∧ body.name.length ≤ 200) &&
    !body.email.isEmpty && isEmail body.email

/-- A `Duration`, which wraps. -/
def StakeholderBody.expiry (body : StakeholderBody) : Int :=
  let expiryDays :=
    match body.expiryDays with
    | some days => if 0 < days then days else 30
    | none => 30
  wrapI64 (expiryDays * 86400000000000)

def inviteStakeholder (isEmail : String → Bool) (actor : Actor) (ref : String)
    (body : StakeholderBody) (accessToken : String) (db : Database) : Store × Reply :=
  match getCaseIDByRef s db.reads ref with
  | .error reply => (s, reply)
  | .ok caseId =>
    if !body.binds isEmail then (s, .badRequest)
    else
      -- The token is unique.
      let write :=
        if s.stakeholders.rows.any fun row => row.accessToken == some accessToken then
          .refused true
        else db.writes
      let row (id : Nat) : Stakeholder :=
        ⟨id, caseId, body.role, body.name, body.email, body.organisation, some accessToken,
          some (db.now + body.expiry), body.canComment, body.canViewDocuments.getD true, none,
          actor.userId, db.now⟩
      let (stakeholders, id) := s.stakeholders.insert write row
      let s := { s with stakeholders }
      match id with
      | none => (s, .error 500 "Failed to invite stakeholder")
      | some id =>
        (insertEvent { s with issued := s.issued ++ [row id] } db caseId "stakeholder_invited"
          ("Stakeholder invited: " ++ body.name ++ " (" ++ body.role ++ ")")
          [("email", .text body.email), ("name", .text body.name), ("role", .text body.role),
            ("stakeholderId", .number id)] actor.userId actor.userName, .done 201)

def Stakeholder.revoke (row : Stakeholder) : Stakeholder :=
  { row with accessToken := none, accessExpiresAt := none }

def revokeStakeholder (stakeholderId : Nat) (db : Database) : Store × Reply :=
  match db.writes with
  | .refused _ => (s, .error 500 "Failed to revoke stakeholder")
  | .done =>
    if s.stakeholders.rows.any fun row => row.id == stakeholderId then
      ({ s with
        stakeholders := { s.stakeholders with
          rows := updateWhere (fun row => row.id == stakeholderId) Stakeholder.revoke
            s.stakeholders.rows }
        revoked := s.revoked ++ [stakeholderId] }, .done 200)
    else (s, .error 404 "Stakeholder not found")

/-! ### Comments -/

def bindsContent (content : String) : Bool := decide (1 ≤ content.length ∧ content.length ≤ 5000)

def addComment (actor : Actor) (ref content : String) (confidential : Bool) (db : Database) :
    Store × Reply :=
  match getCaseIDByRef s db.reads ref with
  | .error reply => (s, reply)
  | .ok caseId =>
    if !bindsContent content then (s, .badRequest)
    else
      let (comments, id) := s.comments.insert db.writes fun id =>
        ⟨id, caseId, content, actor.userId, actor.userName, actor.userRole, none, confidential,
          db.now⟩
      let s := { s with comments }
      match id with
      | none => (s, .error 500 "Failed to add comment")
      | some id =>
        (insertEvent s db caseId "comment_added" ("Comment added by " ++ actor.userName)
          [("commentId", .number id), ("confidential", .flag confidential)] actor.userId
          actor.userName, .done 201)

/-! ### The portal -/

/-- The token that the middleware hands on; without one it refuses the request. -/
def stakeholderTokenAuth (query authorization : String) : Option String :=
  let token :=
    if query.isEmpty && authorization.startsWith "Bearer " then (authorization.drop 7).toString
    else query
  if token.isEmpty then none else some token

def getCaseForStakeholder (ref : String) (db : Database) : Reply :=
  match getByRef s db.reads ref with
  | none => .caseNotFound
  | some c =>
    .caseView ⟨c.ref, c.title, c.type, c.status, c.priority, c.summary, c.createdAt, c.updatedAt⟩

/-- Newest first, with the times as they are printed. -/
def listDocumentsForStakeholder (ref : String) (db : Database) : Reply :=
  match getCaseIDByRef s db.reads ref with
  | .error reply => reply
  | .ok caseId =>
    if db.rereads then
      .documents ref
        (((s.documents.rows.filter fun d => d.caseId == caseId && !d.confidential).insertionSort
          fun d d' => d'.createdAt ≤ d.createdAt).map fun d =>
            { d with createdAt := d.createdAt.seconds })
    else .serverError

/-- `GetTimelineForStakeholder` is the timeline of the staff. -/
def getTimeline (ref : String) (db : Database) : Reply :=
  match getCaseIDByRef s db.reads ref with
  | .error reply => reply
  | .ok caseId =>
    if db.rereads then
      .timeline ref
        (((s.timeline.rows.filter fun e => e.caseId == caseId).insertionSort
          fun e e' => e.createdAt ≤ e'.createdAt).map fun e =>
            { e with createdAt := e.createdAt.seconds })
    else .serverError

/-- The row of a token that has not run out. -/
def Store.stakeholderOf (token : String) (now : Time) : Option Stakeholder :=
  s.stakeholders.rows.find? fun row =>
    row.accessToken == some token && row.accessExpiresAt.any fun expires => decide (now < expires)

def addStakeholderComment (token ref content : String) (db : Database) : Store × Reply :=
  if !db.reads then (s, .serverError)
  else
    match s.stakeholderOf token db.now with
    | none => (s, .error 401 "Invalid or expired stakeholder token")
    | some stakeholder =>
      if !stakeholder.canComment then
        (s, .error 403 "This stakeholder does not have comment permission")
      else
        -- A failed read leaves the reference empty.
        let caseRef :=
          if db.rereads then
            ((s.cases.rows.find? fun c => c.id == stakeholder.caseId).map Case.ref).getD ""
          else ""
        if caseRef ≠ ref then (s, .error 403 "Token does not match this case")
        else if !bindsContent content then (s, .badRequest)
        else
          let (comments, id) := s.comments.insert db.writes fun id =>
            ⟨id, stakeholder.caseId, content, none, stakeholder.name, "stakeholder",
              some stakeholder.id, false, db.now⟩
          let s := { s with comments }
          match id with
          | none => (s, .error 500 "Failed to add comment")
          | some id =>
            let touched :=
              if db.touches then
                { s with
                  stakeholders := { s.stakeholders with
                    rows := updateWhere (fun row => row.id == stakeholder.id)
                      (fun row => { row with lastAccessedAt := some db.now })
                      s.stakeholders.rows } }
              else s
            (insertEvent touched db stakeholder.caseId "comment_added"
              ("Stakeholder comment from " ++ stakeholder.name)
              [("commentId", .number id), ("stakeholderId", .number stakeholder.id)] none
              stakeholder.name,
              .commented id stakeholder.caseId ref content stakeholder.name db.now.seconds)

def servePortal (request : PortalRequest) : Store × Reply :=
  match stakeholderTokenAuth request.query request.authorization with
  | none => (s, .error 401 "Stakeholder access token required")
  | some token =>
    match request.visit with
    | .case => (s, getCaseForStakeholder s request.ref request.db)
    | .documents => (s, listDocumentsForStakeholder s request.ref request.db)
    | .timeline => (s, getTimeline s request.ref request.db)
    | .comment content => addStakeholderComment s token request.ref content request.db

def serveStaff (isEmail : String → Bool) (actor : Actor) (db : Database) :
    Action → Store × Reply
  | .createCase ref body => createCase s actor ref body db
  | .updateCase ref body => updateCase s actor ref body db
  | .archiveCase ref => archiveCase s ref db
  | .updateCaseStatus ref status => updateCaseStatus s actor ref status db
  | .addParty ref role name => addParty s actor ref role name db
  | .uploadDocument ref body => uploadDocument s actor ref body db
  | .deleteDocument docId => deleteDocument s actor docId db
  | .inviteStakeholder ref body accessToken =>
    inviteStakeholder s isEmail actor ref body accessToken db
  | .revokeStakeholder stakeholderId => revokeStakeholder s stakeholderId db
  | .addComment ref content confidential => addComment s actor ref content confidential db

end Handlers

def serve (isEmail : String → Bool) : Bis.Transition.Answering Store Request Reply
  | s, .staff actor action db => serveStaff s isEmail actor db action
  | s, .portal request => servePortal s request

end Bis.CaseManager
