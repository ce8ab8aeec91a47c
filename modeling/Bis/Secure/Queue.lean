import Bis.Transition.Run
import Mathlib.Logic.Function.Basic
import Mathlib.Algebra.Group.Nat.Defs

/-!
The encrypted queues of the mobile app: evidence, KYC documents and field operations. The
queue is one encrypted file; the first two queues have a file with the ciphertext beside it
for every item. The key is in the keychain of the device, and is made when it is first
wanted.

The three queues do the same with their own items, so they are one program here. Each call
of a method is a task that stands before its next access to the keychain, a file or the
network, and a run interleaves any number of tasks. Directories and the temporary copy of
an upload are left out; nothing reads them.
-/

namespace Bis.Secure

open Bis.Transition

abbrev Bytes := List UInt8

/-- The authenticated encryption of the platform, with the JSON text of what is encrypted. -/
structure Cipher where
  Sealed : Type → Type
  encrypt : {α : Type} → Bytes → Bytes → α → Sealed α
  decrypt : {α : Type} → Bytes → Sealed α → Option α
  decrypt_encrypt : ∀ {α : Type} (key nonce : Bytes) (value : α),
    decrypt key (encrypt key nonce value) = some value

structure QueueItem (Content : Type) where
  id : String
  content : Content
  (attempts nextAttemptAt createdAt : Nat)

/-- The rules for the file of an item. -/
structure FileRules (Content : Type) where
  maxBytes : Nat
  sizeError : String
  /-- The plaintext is deleted when the ciphertext is written. -/
  deletesPlain : Bool
  intact : Content → Bytes → Bool

structure SecureQueue (Input Content : Type) where
  /-- From the size and the bytes of the file, and an idempotency key. -/
  content : Input → Nat → Bytes → String → Content
  files : Option (FileRules Content)
  keyError : String

/-! ### The three queues -/

inductive EvidenceContentType where
  | jpeg | png | pdf

structure EvidenceInput where
  investigationId : Nat
  contentType : EvidenceContentType
  description : String

structure EvidenceContent where
  input : EvidenceInput
  sha256 : String
  contentLength : Nat
  idempotencyKey : String

def maxEvidenceBytes : Nat := 25 * 1024 * 1024

def secureEvidenceQueue (sha256 : Bytes → String) : SecureQueue EvidenceInput EvidenceContent where
  content input contentLength original idempotencyKey :=
    ⟨input, sha256 original, contentLength, idempotencyKey⟩
  files := some
    { maxBytes := maxEvidenceBytes
      sizeError := "Evidence must be between 1 byte and 25 MB"
      deletesPlain := false
      intact := fun content plaintext =>
        sha256 plaintext == content.sha256 && plaintext.length == content.contentLength }
  keyError := "A hardware-backed evidence encryption key is required; this device cannot " ++
    "securely store field evidence"

inductive KycDocumentType where
  | ninSlip | passport | driversLicense | votersCard | utilityBill | bankStatement
  | cacCertificate | other

inductive KycContentType where
  | jpeg | png

structure KycDocumentInput where
  kycRecordId : Nat
  documentType : KycDocumentType
  contentType : KycContentType

structure KycDocumentContent where
  input : KycDocumentInput
  sha256 : String
  contentLength : Nat
  idempotencyKey : String

def maxKycDocumentBytes : Nat := 5 * 1024 * 1024

def secureKycDocumentQueue (sha256 : Bytes → String) :
    SecureQueue KycDocumentInput KycDocumentContent where
  content input contentLength original idempotencyKey :=
    ⟨input, sha256 original, contentLength, idempotencyKey⟩
  files := some
    { maxBytes := maxKycDocumentBytes
      sizeError := "KYC documents must be between 1 byte and 5 MB"
      deletesPlain := true
      intact := fun content plaintext =>
        sha256 plaintext == content.sha256 && plaintext.length == content.contentLength }
  keyError := "A hardware-backed key is required before KYC documents can be captured offline"

/-- The identifier of an operation is its idempotency key. -/
structure FieldDispatchInput where
  (investigationId agentId agentName location : String)

def secureFieldOperationQueue : SecureQueue FieldDispatchInput FieldDispatchInput where
  content input _ _ _ := input
  files := none
  keyError := "A hardware-backed field-operation encryption key is required; this device " ++
    "cannot securely queue dispatches"

def delayMs (attempts : Nat) : Nat := min 60000 (1000 * 2 ^ min attempts 6)

def QueueItem.retry {Content : Type} (item : QueueItem Content) (now : Nat) : QueueItem Content :=
  { item with attempts := item.attempts + 1, nextAttemptAt := now + delayMs (item.attempts + 1) }

/-! ### Tasks -/

section Tasks

variable (cipher : Cipher) (Input Content : Type)

/-- An item with the bytes that `enqueue` was given for it. -/
structure Capture where
  item : QueueItem Content
  bytes : Bytes

/-- How many items had been added, and how often the queue had been written. -/
structure Version where
  (added writes : Nat)

/-- The locals of the loop; `done` are the items it has uploaded. -/
structure Uploads where
  version : Version
  (todo remaining : List (QueueItem Content))
  done : List String

/-- What the queue is loaded for. -/
inductive Load where
  | enqueue (capture : Capture Content)
  | pending
  | sync

inductive Save where
  | enqueue (capture : Capture Content)
  | sync (done : List String)

/-- What the device key is wanted for. -/
inductive Job where
  | sealFile (input : Input) (contentLength : Nat) (original : Bytes)
  | openQueue (load : Load Content) (version : Version)
      (ciphertext : cipher.Sealed (List (QueueItem Content)))
  | openFile (uploads : Uploads Content) (item : QueueItem Content)
      (ciphertext : cipher.Sealed Bytes)
  | sealQueue (version : Version) (items : List (QueueItem Content)) (save : Save Content)

/-- The calls to the server, where those to the object store are one of them. -/
inductive Stage where
  | initiate
  | put
  | complete

inductive Reply where
  | enqueued (item : QueueItem Content)
  | synced (uploaded pending : Nat)
  | threw (error : Option String)

/-- Where a call stands. -/
inductive Task where
  | idle
  | stat (input : Input)
  | readPlain (input : Input) (contentLength : Nat)
  | key (job : Job cipher Input Content)
  | setKey (fresh : Bytes) (job : Job cipher Input Content)
  | writeFile (input : Input) (contentLength : Nat) (original : Bytes)
      (ciphertext : cipher.Sealed Bytes)
  | unlinkPlain (capture : Capture Content)
  | existsQueue (load : Load Content)
  | readQueue (load : Load Content)
  | writeQueue (version : Version) (ciphertext : cipher.Sealed (List (QueueItem Content)))
      (items : List (QueueItem Content)) (save : Save Content)
  | network
  | loop (uploads : Uploads Content)
  | readFile (uploads : Uploads Content) (item : QueueItem Content)
  | upload (uploads : Uploads Content) (item : QueueItem Content) (stage : Stage)
  | unlinkFile (uploads : Uploads Content) (item : QueueItem Content)
  | returned (reply : Reply Content)

/-- The device with its storage. What was captured, added to the queue and uploaded is history
that no method reads. -/
structure Phone where
  keychain : Option Bytes
  queueFile : Option (cipher.Sealed (List (QueueItem Content)))
  files : String → Option (cipher.Sealed Bytes)
  draining : Bool
  tasks : Nat → Task cipher Input Content
  (captured added : List (Capture Content))
  uploaded : List String
  writes : Nat

end Tasks

/-- What the platform answers, and draws; a call that is not `ok` throws. -/
structure Answer where
  ok : Bool := true
  now : Nat := 0
  id : String := ""
  idempotencyKey : String := ""
  key : Bytes := []
  nonce : Bytes := []
  size : Nat := 0
  bytes : Bytes := []
  connected : Bool := true

section Queue

variable {cipher : Cipher} {Input Content : Type}

/-- Past the flag, until the `finally`. -/
def Job.isDraining : Job cipher Input Content → Bool
  | .openQueue .sync _ _ | .openFile _ _ _ | .sealQueue _ _ (.sync _) => true
  | _ => false

def Task.isDraining : Task cipher Input Content → Bool
  | .existsQueue .sync | .readQueue .sync | .loop _ | .readFile _ _ | .upload _ _ _
  | .unlinkFile _ _ | .writeQueue _ _ _ (.sync _) => true
  | .key job | .setKey _ job => job.isDraining
  | _ => false

/-- The item whose `upload` is on its way. -/
def Job.uploading : Job cipher Input Content → Option (Uploads Content × QueueItem Content)
  | .openFile uploads item _ => some (uploads, item)
  | _ => none

def Task.uploading : Task cipher Input Content → Option (Uploads Content × QueueItem Content)
  | .readFile uploads item | .upload uploads item _ => some (uploads, item)
  | .key job | .setKey _ job => job.uploading
  | _ => none

/-- The upload of an item has thrown. -/
def Uploads.retry (uploads : Uploads Content) (item : QueueItem Content) (now : Nat) :
    Uploads Content :=
  { uploads with remaining := uploads.remaining ++ [item.retry now] }

namespace Phone

def empty : Phone cipher Input Content :=
  ⟨none, none, fun _ => none, false, fun _ => .idle, [], [], [], 0⟩

variable (queue : SecureQueue Input Content) (s : Phone cipher Input Content) (call : Nat)
  (answer : Answer)

def setTask (task : Task cipher Input Content) : Phone cipher Input Content :=
  { s with tasks := Function.update s.tasks call task }

def version : Version := ⟨s.added.length, s.writes⟩

def isCaptured (id : String) : Bool := s.captured.any fun capture => capture.item.id == id

/-- A call throws: inside an upload the loop goes on, elsewhere the method ends. -/
def throws (error : Option String) : Phone cipher Input Content :=
  match (s.tasks call).uploading with
  | some (uploads, item) => s.setTask call (.loop (uploads.retry item answer.now))
  | none =>
    { s with draining := s.draining && !(s.tasks call).isDraining }.setTask call
      (.returned (.threw error))

/-- `loadQueue` has its items. -/
def loaded (load : Load Content) (version : Version) (items : List (QueueItem Content)) :
    Phone cipher Input Content :=
  match load with
  | .enqueue capture =>
    s.setTask call (.key (.sealQueue version (items ++ [capture.item]) (.enqueue capture)))
  | .pending => s.setTask call (.returned (.synced 0 items.length))
  | .sync => s.setTask call (.loop ⟨version, items, [], []⟩)

/-- The device key is there. -/
def withKey (key : Bytes) (job : Job cipher Input Content) : Phone cipher Input Content :=
  match job with
  | .sealFile input contentLength original =>
    s.setTask call (.writeFile input contentLength original
      (cipher.encrypt key answer.nonce original))
  | .openQueue load version ciphertext =>
    match cipher.decrypt key ciphertext with
    | some items => s.loaded call load version items
    | none => s.throws call answer none
  | .openFile uploads item ciphertext =>
    match cipher.decrypt key ciphertext with
    | some plaintext =>
      if queue.files.all fun rules => rules.intact item.content plaintext then
        s.setTask call (.upload uploads item .initiate)
      else s.throws call answer none
    | none => s.throws call answer none
  | .sealQueue version items save =>
    s.setTask call (.writeQueue version (cipher.encrypt key answer.nonce items) items save)

/-- The item of an `enqueue` is made. -/
def capture (content : Content) (bytes : Bytes) : Capture Content :=
  ⟨⟨answer.id, content, 0, answer.now, answer.now⟩, bytes⟩

/-- `saveQueue` is through. -/
def saved (items : List (QueueItem Content)) (save : Save Content) : Phone cipher Input Content :=
  match save with
  | .enqueue capture =>
    { s with added := s.added ++ [capture] }.setTask call (.returned (.enqueued capture.item))
  | .sync done =>
    { s with draining := false }.setTask call (.returned (.synced done.length items.length))

/-- The upload of an item is through. -/
def completed (uploads : Uploads Content) (item : QueueItem Content) : Phone cipher Input Content :=
  let uploads := { uploads with done := uploads.done ++ [item.id] }
  { s with uploaded := s.uploaded ++ [item.id] }.setTask call
    (if queue.files.isSome then .unlinkFile uploads item else .loop uploads)

/-- The loop takes its next item, or has none. -/
def next (uploads : Uploads Content) : Phone cipher Input Content :=
  match uploads.todo with
  | [] =>
    s.setTask call (.key (.sealQueue uploads.version uploads.remaining (.sync uploads.done)))
  | item :: todo =>
    if answer.now < item.nextAttemptAt then
      s.setTask call (.loop
        { uploads with todo, remaining := uploads.remaining ++ [item] })
    else
      s.setTask call
        (if queue.files.isSome then .readFile { uploads with todo } item
        else .upload { uploads with todo } item .complete)

/-- The access that a task stands before, when it does not throw. -/
def perform : Option (Phone cipher Input Content) :=
  match s.tasks call with
  | .idle | .returned _ | .loop _ | .unlinkPlain _ | .unlinkFile _ _ => none
  | .stat input =>
    match queue.files with
    | some rules =>
      some (s.setTask call
        (if 0 < answer.size ∧ answer.size ≤ rules.maxBytes then .readPlain input answer.size
        else .returned (.threw (some rules.sizeError))))
    | none => none
  | .readPlain input contentLength =>
    some (s.setTask call (.key (.sealFile input contentLength answer.bytes)))
  | .key job =>
    some
      (match s.keychain with
      | some key => s.withKey queue call answer key job
      | none => s.setTask call (.setKey answer.key job))
  | .setKey fresh job =>
    some ({ s with keychain := some fresh }.withKey queue call answer fresh job)
  | .writeFile input contentLength original ciphertext =>
    if s.isCaptured answer.id then none
    else
      let capture := capture answer
        (queue.content input contentLength original answer.idempotencyKey) original
      some
        ({ s with
          files := Function.update s.files answer.id (some ciphertext)
          captured := s.captured ++ [capture] }.setTask call
            (if queue.files.any FileRules.deletesPlain then .unlinkPlain capture
            else .existsQueue (.enqueue capture)))
  | .existsQueue load =>
    some
      (if s.queueFile.isSome then s.setTask call (.readQueue load)
      else s.loaded call load s.version [])
  | .readQueue load =>
    some
      (match s.queueFile with
      | some ciphertext => s.setTask call (.key (.openQueue load s.version ciphertext))
      | none => s.throws call answer none)
  | .writeQueue _ ciphertext items save =>
    some ({ s with queueFile := some ciphertext, writes := s.writes + 1 }.saved call items save)
  | .network =>
    some
      (if answer.connected then { s with draining := true }.setTask call (.existsQueue .sync)
      else s.setTask call (.existsQueue .pending))
  | .readFile uploads item =>
    some
      (match s.files item.id with
      | some ciphertext => s.setTask call (.key (.openFile uploads item ciphertext))
      | none => s.throws call answer none)
  | .upload uploads item .initiate => some (s.setTask call (.upload uploads item .put))
  | .upload uploads item .put => some (s.setTask call (.upload uploads item .complete))
  | .upload uploads item .complete => some (s.completed queue call uploads item)

/-- What a refused key throws. -/
def refusal : Option String :=
  match s.tasks call with
  | .setKey _ _ => some queue.keyError
  | _ => none

/-- A task goes on. The errors of an `unlink` are caught. -/
def advance : Option (Phone cipher Input Content) :=
  match s.tasks call with
  | .idle | .returned _ => none
  | .loop uploads => some (s.next queue call answer uploads)
  | .unlinkPlain capture => some (s.setTask call (.existsQueue (.enqueue capture)))
  | .unlinkFile uploads item =>
    some ({ s with
      files := if answer.ok then Function.update s.files item.id none else s.files }.setTask call
        (.loop uploads))
  | _ =>
    if answer.ok then s.perform queue call answer
    else some (s.throws call answer (s.refusal queue call))

/-- `enqueue`, up to its first access; an operation is made at once. -/
def enqueue (input : Input) : Option (Phone cipher Input Content) :=
  match queue.files with
  | some _ => some (s.setTask call (.stat input))
  | none =>
    if s.isCaptured answer.id then none
    else
      let capture := capture answer (queue.content input 0 [] answer.idempotencyKey) []
      some ({ s with captured := s.captured ++ [capture] }.setTask call
        (.existsQueue (.enqueue capture)))

/-- The process is gone and a new one starts. -/
def kill : Phone cipher Input Content := { s with draining := false, tasks := fun _ => .idle }

end Phone

/-- `sync` is `drain` for operations. -/
inductive PhoneStep (Input : Type) where
  | enqueue (call : Nat) (input : Input) (answer : Answer)
  | sync (call : Nat)
  | advance (call : Nat) (answer : Answer)
  | kill

def Task.isIdle : Task cipher Input Content → Bool
  | .idle => true
  | _ => false

def phoneStep (queue : SecureQueue Input Content) :
    Step (Phone cipher Input Content) (PhoneStep Input)
  | s, .enqueue call input answer =>
    if (s.tasks call).isIdle then s.enqueue queue call answer input else none
  | s, .sync call =>
    if (s.tasks call).isIdle then
      some (s.setTask call (if s.draining then .existsQueue .pending else .network))
    else none
  | s, .advance call answer => s.advance queue call answer
  | s, .kill => some s.kill

end Queue

end Bis.Secure
