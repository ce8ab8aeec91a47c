import Bis.Secure.Queue

/-!
Tasks of an encrypted queue side by side. The flag of a sync is tested before the network
is asked and set after it; a save writes back what was loaded some accesses before; and the
device key is made by whoever finds none. Where none of these comes in between another
task's accesses, one sync runs at a time, and what `enqueue` has returned is in the queue
and can be decrypted until it is uploaded.
-/

namespace Bis.Secure

open Bis.Transition List Function Option

section Queue

variable {cipher : Cipher} {Input Content : Type}

/-- The item as it was captured, with other attempts. -/
def QueueItem.isOf (item : QueueItem Content) (capture : Capture Content) : Prop :=
  ∃ attempts nextAttemptAt, item = { capture.item with attempts, nextAttemptAt }

/-- The item is stored, and its bytes come out under the stored key. -/
def Phone.hasKept (queue : SecureQueue Input Content) (s : Phone cipher Input Content)
    (capture : Capture Content) : Prop :=
  ∃ key ciphertext items, s.keychain = some key ∧ s.queueFile = some ciphertext ∧
    cipher.decrypt key ciphertext = some items ∧ (∃ item ∈ items, item.isOf capture) ∧
      (queue.files.isSome = true → ∃ file, s.files capture.item.id = some file ∧
        cipher.decrypt key file = some capture.bytes)

structure Preserved (queue : SecureQueue Input Content) (s : Phone cipher Input Content) :
    Prop where
  single : ∀ i j, (s.tasks i).isDraining = true → (s.tasks j).isDraining = true → i = j
  kept : ∀ capture ∈ s.added, capture.item.id ∉ s.uploaded → s.hasKept queue capture

/-- A sync sets the flag while it is down, a key is stored where there is none, and a save
leaves nothing out that was added since the load and is still to be uploaded. -/
def Phone.allows (s : Phone cipher Input Content) (answer : Answer) :
    Task cipher Input Content → Prop
  | .network => answer.connected = true → s.draining = false
  | .setKey _ _ => s.keychain.isNone = true
  | .writeQueue version _ _ _ =>
    ∀ capture ∈ s.added.drop version.added, capture.item.id ∈ s.uploaded
  | _ => True

def Phone.apart (s : Phone cipher Input Content) : PhoneStep Input → Prop
  | .advance call answer => answer.ok = true → s.allows answer (s.tasks call)
  | _ => True

instance (s : Phone cipher Input Content) (answer : Answer) :
    DecidablePred (s.allows answer) := by
  intro task
  cases task <;> dsimp only [Phone.allows] <;> infer_instance

instance (s : Phone cipher Input Content) : DecidablePred s.apart := by
  intro a
  cases a <;> dsimp only [Phone.apart] <;> infer_instance

/-! ### What a task has -/

/-- Of the first items that were added, the list has those that are not uploaded. -/
def Phone.covers (s : Phone cipher Input Content) (version : Version)
    (items : List (QueueItem Content)) : Prop :=
  version.added ≤ s.added.length ∧ ∀ capture ∈ s.added.take version.added,
    capture.item.id ∈ s.uploaded ∨ ∃ item ∈ items, item.isOf capture

def Phone.opens (s : Phone cipher Input Content) {α : Type} (ciphertext : cipher.Sealed α)
    (value : α) : Prop :=
  ∃ key, s.keychain = some key ∧ cipher.decrypt key ciphertext = some value

def Phone.holdsLoad (s : Phone cipher Input Content) : Load Content → Prop
  | .enqueue capture => capture ∈ s.captured
  | .pending | .sync => True

def Phone.holdsSave (s : Phone cipher Input Content) (items : List (QueueItem Content)) :
    Save Content → Prop
  | .enqueue capture => capture ∈ s.captured ∧ capture.item ∈ items
  | .sync _ => True

def Phone.holdsJob (s : Phone cipher Input Content) : Job cipher Input Content → Prop
  | .sealFile _ _ _ => True
  | .openQueue load version ciphertext =>
    s.holdsLoad load ∧ ∃ items, s.opens ciphertext items ∧ s.covers version items
  | .openFile uploads item _ =>
    s.covers uploads.version (item :: (uploads.todo ++ uploads.remaining))
  | .sealQueue version items save => s.holdsSave items save ∧ s.covers version items

def Phone.holds (s : Phone cipher Input Content) : Task cipher Input Content → Prop
  | .idle | .returned _ | .stat _ | .readPlain _ _ | .network => True
  | .key job | .setKey _ job => s.holdsJob job
  | .writeFile _ _ original ciphertext => s.opens ciphertext original
  | .unlinkPlain capture => capture ∈ s.captured
  | .existsQueue load | .readQueue load => s.holdsLoad load
  | .writeQueue version ciphertext items save =>
    s.holdsSave items save ∧ s.covers version items ∧ s.opens ciphertext items
  | .loop uploads => s.covers uploads.version (uploads.todo ++ uploads.remaining)
  | .readFile uploads item | .upload uploads item _ =>
    s.covers uploads.version (item :: (uploads.todo ++ uploads.remaining))
  | .unlinkFile uploads item =>
    item.id ∈ s.uploaded ∧ s.covers uploads.version (uploads.todo ++ uploads.remaining)

structure Sound (queue : SecureQueue Input Content) (s : Phone cipher Input Content) : Prop where
  flag : ∀ i, (s.tasks i).isDraining = true → s.draining = true
  single : ∀ i j, (s.tasks i).isDraining = true → (s.tasks j).isDraining = true → i = j
  unwritten : s.queueFile = none → s.added = []
  stored : ∀ ciphertext, s.queueFile = some ciphertext →
    ∃ items, s.opens ciphertext items ∧ s.covers s.version items
  files : queue.files.isSome = true → ∀ capture ∈ s.captured, capture.item.id ∈ s.uploaded ∨
    ∃ file, s.files capture.item.id = some file ∧ s.opens file capture.bytes
  known : ∀ capture ∈ s.added, capture ∈ s.captured
  tasks : ∀ i, s.holds (s.tasks i)

variable {queue : SecureQueue Input Content} {s t : Phone cipher Input Content} {call : Nat}
  {answer : Answer}

/-- Nothing is forgotten: neither the key, nor what was captured, added or uploaded. -/
structure Later (s t : Phone cipher Input Content) : Prop where
  keychain : ∀ key, s.keychain = some key → t.keychain = some key
  captured : ∀ capture ∈ s.captured, capture ∈ t.captured
  added : ∃ more, t.added = s.added ++ more
  uploaded : ∀ id ∈ s.uploaded, id ∈ t.uploaded

theorem later_setTask (task : Task cipher Input Content) : Later s (s.setTask call task) :=
  ⟨fun _ h => h, fun _ h => h, ⟨[], (append_nil _).symm⟩, fun _ h => h⟩

theorem Later.opens (h : Later s t) {α : Type} {ciphertext : cipher.Sealed α} {value : α}
    (hopens : s.opens ciphertext value) : t.opens ciphertext value := by
  obtain ⟨key, hkey, hvalue⟩ := hopens
  exact ⟨key, h.keychain key hkey, hvalue⟩

variable {version : Version} {items : List (QueueItem Content)} {task : Task cipher Input Content}
  {item : QueueItem Content} {uploads : Uploads Content}

theorem Later.covers (h : Later s t) (hcovers : s.covers version items) :
    t.covers version items := by
  obtain ⟨hle, hitems⟩ := hcovers
  obtain ⟨more, hadded⟩ := h.added
  unfold Phone.covers
  rw [hadded, take_append_of_le_length hle, length_append]
  refine ⟨Nat.le_trans hle (Nat.le_add_right _ _), ?_⟩
  intro capture hcapture
  rcases hitems capture hcapture with huploaded | hitem
  · exact .inl (h.uploaded _ huploaded)
  · exact .inr hitem

theorem Later.holdsLoad (h : Later s t) {load : Load Content} (hload : s.holdsLoad load) :
    t.holdsLoad load := by
  cases load with
  | enqueue capture => exact h.captured capture hload
  | pending => trivial
  | sync => trivial

theorem Later.holdsSave (h : Later s t) {save : Save Content} (hsave : s.holdsSave items save) :
    t.holdsSave items save := by
  cases save with
  | enqueue capture => exact ⟨h.captured capture hsave.1, hsave.2⟩
  | sync => trivial

variable {job : Job cipher Input Content} {items' : List (QueueItem Content)}
  {capture : Capture Content}

theorem Later.holdsJob (h : Later s t) (hjob : s.holdsJob job) : t.holdsJob job := by
  cases job with
  | sealFile => trivial
  | openQueue load version ciphertext =>
    obtain ⟨hload, items, hopens, hcovers⟩ := hjob
    exact ⟨h.holdsLoad hload, items, h.opens hopens, h.covers hcovers⟩
  | openFile uploads item ciphertext => exact h.covers hjob
  | sealQueue version items save => exact ⟨h.holdsSave hjob.1, h.covers hjob.2⟩

theorem Later.holds (h : Later s t) (htask : s.holds task) : t.holds task := by
  cases task with
  | idle | returned | stat | readPlain | network => trivial
  | key | setKey => exact h.holdsJob htask
  | writeFile => exact h.opens htask
  | unlinkPlain capture => exact h.captured capture htask
  | existsQueue | readQueue => exact h.holdsLoad htask
  | writeQueue => exact ⟨h.holdsSave htask.1, h.covers htask.2.1, h.opens htask.2.2⟩
  | loop | readFile | upload => exact h.covers htask
  | unlinkFile => exact ⟨h.uploaded _ htask.1, h.covers htask.2⟩

/-! ### Lists -/

theorem covers_mono (h : s.covers version items)
    (himp : ∀ item ∈ items, ∀ capture : Capture Content, item.isOf capture → capture.item.id ∈
      s.uploaded ∨ ∃ item' ∈ items', item'.isOf capture) : s.covers version items' := by
  refine ⟨h.1, ?_⟩
  intro capture hcapture
  rcases h.2 capture hcapture with huploaded | ⟨item, hitem, hof⟩
  · exact .inl huploaded
  · exact himp item hitem capture hof

theorem covers_of_subset (h : s.covers version items) (hsubset : ∀ item ∈ items, item ∈ items') :
    s.covers version items' :=
  covers_mono h fun item hitem _ hof => .inr ⟨item, hsubset item hitem, hof⟩

theorem isOf_id (h : item.isOf capture) : capture.item.id = item.id := by
  obtain ⟨_, _, rfl⟩ := h
  rfl

theorem isOf_retry (h : item.isOf capture) (now : Nat) : (item.retry now).isOf capture := by
  obtain ⟨attempts, nextAttemptAt, rfl⟩ := h
  exact ⟨_, _, rfl⟩

/-- An item that is tried again keeps its place among the rest. -/
theorem covers_retry (h : s.covers uploads.version (item :: (uploads.todo ++ uploads.remaining)))
    (now : Nat) :
    s.covers uploads.version
      ((uploads.retry item now).todo ++ (uploads.retry item now).remaining) := by
  apply covers_mono h
  intro other hother capture hof
  refine .inr ?_
  change ∃ item' ∈ uploads.todo ++ (uploads.remaining ++ [item.retry now]), _
  rcases mem_cons.mp hother with rfl | hrest
  · exact ⟨other.retry now, by simp, isOf_retry hof now⟩
  · refine ⟨other, ?_, hof⟩
    rw [← append_assoc]
    exact mem_append_left _ hrest

/-- An item that is uploaded may go. -/
theorem covers_uploaded (h : s.covers version (item :: items)) (huploaded : item.id ∈ s.uploaded) :
    s.covers version items := by
  apply covers_mono h
  intro other hother capture hof
  rcases mem_cons.mp hother with rfl | hrest
  · exact .inl (isOf_id hof ▸ huploaded)
  · exact .inr ⟨other, hrest, hof⟩

theorem uploading_covers (h : s.holds task) (huploading : task.uploading = some (uploads, item)) :
    task.isDraining = true ∧
      s.covers uploads.version (item :: (uploads.todo ++ uploads.remaining)) := by
  cases task with
  | readFile | upload => cases huploading; exact ⟨rfl, h⟩
  | key job | setKey fresh job =>
    cases job with
    | openFile => cases huploading; exact ⟨rfl, h⟩
    | _ => cases huploading
  | _ => cases huploading

/-! ### Moves of one task -/

theorem setTask_tasks_self (task : Task cipher Input Content) :
    (s.setTask call task).tasks call = task := update_self _ _ _

theorem setTask_tasks_of_ne {i : Nat} (hne : i ≠ call) (task : Task cipher Input Content) :
    (s.setTask call task).tasks i = s.tasks i := update_of_ne hne _ _

/-- Nobody drains who did not before. -/
theorem Sound.move (h : Sound queue s)
    (hdraining : task.isDraining = true → (s.tasks call).isDraining = true) (hholds : s.holds
    task) : Sound queue (s.setTask call task) := by
  have hold {i : Nat} (hi : ((s.setTask call task).tasks i).isDraining = true) :
      (s.tasks i).isDraining = true := by
    by_cases hcall : i = call
    · rw [hcall, setTask_tasks_self] at hi
      exact hcall ▸ hdraining hi
    · rw [setTask_tasks_of_ne hcall] at hi
      exact hi
  refine ⟨?_, ?_, h.unwritten, h.stored, h.files, h.known, ?_⟩
  · exact fun i hi => h.flag i (hold hi)
  · exact fun i j hi hj => h.single i j (hold hi) (hold hj)
  · intro i
    apply (later_setTask task).holds
    by_cases hcall : i = call
    · rw [hcall, setTask_tasks_self]
      exact hholds
    · rw [setTask_tasks_of_ne hcall]
      exact h.tasks i

/-- The one that drains stops. -/
theorem Sound.stop (h : Sound queue s) (reply : Reply Content)
    (hdraining : (s.tasks call).isDraining = true) :
    Sound queue ({ s with draining := false }.setTask call (.returned reply)) := by
  have hmoved : Sound queue (s.setTask call (.returned reply)) :=
    h.move (fun hreturned => by cases hreturned) True.intro
  have hnone (i : Nat) : ((s.setTask call (.returned reply)).tasks i).isDraining ≠ true := by
    intro hi
    by_cases hcall : i = call
    · rw [hcall, setTask_tasks_self] at hi
      cases hi
    · rw [setTask_tasks_of_ne hcall] at hi
      exact hcall (h.single i call hi hdraining)
  refine ⟨?_, hmoved.single, h.unwritten, h.stored, h.files, h.known, ?_⟩
  · exact fun i hi => absurd hi (hnone i)
  · exact hmoved.tasks

theorem Sound.throws (h : Sound queue s) (error : Option String) :
    Sound queue (s.throws call answer error) := by
  unfold Phone.throws
  split
  next uploads item huploading =>
    obtain ⟨hdraining, hcovers⟩ := uploading_covers (h.tasks call) huploading
    exact h.move (fun _ => hdraining) (covers_retry hcovers answer.now)
  next =>
    cases hdraining : (s.tasks call).isDraining with
    | true =>
      rw [Bool.not_true, Bool.and_false]
      exact h.stop _ hdraining
    | false =>
      rw [Bool.not_false, Bool.and_true]
      exact h.move (fun hreturned => by cases hreturned) True.intro

theorem Sound.loaded (h : Sound queue s) {load : Load Content} (hload : s.holdsLoad load)
    (hcovers : s.covers version items) (hdraining : load = .sync → (s.tasks call).isDraining =
    true) :
    Sound queue (s.loaded call load version items) := by
  cases load with
  | enqueue capture =>
    apply h.move
    · intro hsealing
      cases hsealing
    · refine ⟨⟨hload, mem_append_right _ mem_cons_self⟩, ?_⟩
      exact covers_of_subset hcovers fun _ hitem => mem_append_left _ hitem
  | pending =>
    apply h.move
    · intro hreturned
      cases hreturned
    · trivial
  | sync =>
    apply h.move
    · exact fun _ => hdraining rfl
    · change s.covers version (items ++ [])
      rw [append_nil]
      exact hcovers

/-- What is encrypted is decrypted under the same key. -/
theorem opens_encrypt {key nonce : Bytes} (hkey : s.keychain = some key) {α : Type} (value : α) :
    s.opens (cipher.encrypt key nonce value) value :=
  ⟨key, hkey, cipher.decrypt_encrypt key nonce value⟩

theorem Sound.withKey (h : Sound queue s) {key : Bytes} (hkey : s.keychain = some key)
    (hjob : s.holdsJob job) (hdraining : job.isDraining = true → (s.tasks call).isDraining = true) :
    Sound queue (s.withKey queue call answer key job) := by
  cases job with
  | sealFile input contentLength original =>
    apply h.move
    · intro hwriting
      cases hwriting
    · exact opens_encrypt hkey original
  | openQueue load version ciphertext =>
    obtain ⟨hload, items, ⟨key', hkey', hitems⟩, hcovers⟩ := hjob
    obtain rfl := some.inj (hkey.symm.trans hkey')
    unfold Phone.withKey
    dsimp only
    rw [hitems]
    apply h.loaded hload hcovers
    rintro rfl
    exact hdraining rfl
  | openFile uploads item ciphertext =>
    unfold Phone.withKey
    dsimp only
    split
    next =>
      split
      next => exact h.move (fun _ => hdraining rfl) hjob
      next => exact h.throws none
    next => exact h.throws none
  | sealQueue version items save =>
    apply h.move
    · intro hwriting
      cases save with
      | enqueue capture => cases hwriting
      | sync done => exact hdraining rfl
    · exact ⟨hjob.1, hjob.2, opens_encrypt hkey items⟩

/-! ### Moves of the storage -/

/-- A key is stored where there is none. -/
theorem Sound.store_key (h : Sound queue s) (hnone : s.keychain = none) (fresh : Bytes) :
    Sound queue { s with keychain := some fresh } := by
  have hlater : Later s { s with keychain := some fresh } := by
    refine ⟨?_, fun _ hc => hc, ⟨[], (append_nil _).symm⟩, fun _ hid => hid⟩
    intro key hkey
    rw [hnone] at hkey
    cases hkey
  refine ⟨h.flag, h.single, h.unwritten, ?_, ?_, h.known, fun i => hlater.holds (h.tasks i)⟩
  · intro ciphertext hfile
    obtain ⟨items, hopens, hcovers⟩ := h.stored ciphertext hfile
    exact ⟨items, hlater.opens hopens, hlater.covers hcovers⟩
  · intro hfiles capture hcapture
    rcases h.files hfiles capture hcapture with huploaded | ⟨file, hfile, hopens⟩
    · exact .inl huploaded
    · exact .inr ⟨file, hfile, hlater.opens hopens⟩

theorem isCaptured_eq_false {id : String} (h : ¬ s.isCaptured id = true) :
    ∀ capture ∈ s.captured, capture.item.id ≠ id := by
  intro capture hcapture heq
  exact h (any_eq_true.mpr ⟨capture, hcapture, beq_iff_eq.mpr heq⟩)

/-- An item is made, with its file where it has one. -/
theorem Sound.make (h : Sound queue s) {made : Capture Content}
    (hnew : ¬ s.isCaptured made.item.id = true) (files : String → Option (cipher.Sealed Bytes))
    (hfiles : queue.files.isSome = true → (∀ id, id ≠ made.item.id → files id = s.files id) ∧
      ∃ file, files made.item.id = some file ∧ s.opens file made.bytes) :
    Sound queue { s with files, captured := s.captured ++ [made] } := by
  have hlater : Later s { s with files, captured := s.captured ++ [made] } :=
    ⟨fun _ hkey => hkey, fun _ hc => mem_append_left _ hc, ⟨[], (append_nil _).symm⟩,
      fun _ hid => hid⟩
  refine ⟨h.flag, h.single, h.unwritten, ?_, ?_, ?_, fun i => hlater.holds (h.tasks i)⟩
  · intro ciphertext hfile
    obtain ⟨items, hopens, hcovers⟩ := h.stored ciphertext hfile
    exact ⟨items, hopens, hlater.covers hcovers⟩
  · intro hsome capture hcapture
    obtain ⟨hothers, file, hfile, hopens⟩ := hfiles hsome
    rcases mem_append.mp hcapture with hold | hmade
    · rcases h.files hsome capture hold with huploaded | ⟨oldFile, hold', hopens⟩
      · exact .inl huploaded
      · have hne := isCaptured_eq_false hnew capture hold
        exact .inr ⟨oldFile, (hothers _ hne).trans hold', hopens⟩
    · rw [mem_singleton.mp hmade]
      exact .inr ⟨file, hfile, hopens⟩
  · exact fun capture hcapture => mem_append_left _ (h.known capture hcapture)

/-- The queue is saved with what has been added since the load, or without what is uploaded. -/
theorem covers_saved (hcovers : s.covers version items)
    (hsince : ∀ capture ∈ s.added.drop version.added, capture.item.id ∈ s.uploaded) :
    ∀ capture ∈ s.added, capture.item.id ∈ s.uploaded ∨ ∃ item ∈ items, item.isOf capture := by
  intro capture hcapture
  rw [← take_append_drop version.added s.added] at hcapture
  rcases mem_append.mp hcapture with hbefore | hafter
  · exact hcovers.2 capture hbefore
  · exact .inl (hsince capture hafter)

theorem Sound.saved (h : Sound queue s) {ciphertext : cipher.Sealed (List (QueueItem Content))}
    {save : Save Content} (htask : s.tasks call = .writeQueue version ciphertext items save)
    (hsince : ∀ capture ∈ s.added.drop version.added, capture.item.id ∈ s.uploaded) :
    Sound queue ({ s with
      queueFile := some ciphertext, writes := s.writes + 1 }.saved call items save) := by
  have hholds := h.tasks call
  rw [htask] at hholds
  obtain ⟨hsave, hcovers, hopens⟩ := hholds
  have hall := covers_saved hcovers hsince
  have hwritten : Sound queue { s with queueFile := some ciphertext, writes := s.writes + 1 } := by
    refine ⟨h.flag, h.single, ?_, ?_, h.files, h.known, h.tasks⟩
    · intro hnone
      cases hnone
    · intro stored hstored
      cases hstored
      refine ⟨items, hopens, Nat.le_refl _, ?_⟩
      exact fun capture hcapture => hall capture (mem_of_mem_take hcapture)
  cases save with
  | enqueue capture =>
    have hlater : Later s { s with
        queueFile := some ciphertext, writes := s.writes + 1, added := s.added ++ [capture] } :=
      ⟨fun _ hkey => hkey, fun _ hc => hc, ⟨[capture], rfl⟩, fun _ hid => hid⟩
    have hadded : Sound queue { s with
          queueFile := some ciphertext
          writes := s.writes + 1
          added := s.added ++ [capture] } := by
      refine ⟨h.flag, h.single, ?_, ?_, h.files, ?_, fun i => hlater.holds (h.tasks i)⟩
      · intro hnone
        cases hnone
      · intro stored hstored
        cases hstored
        refine ⟨items, hopens, Nat.le_refl _, ?_⟩
        intro other hother
        rcases mem_append.mp (mem_of_mem_take hother) with hold | hnew
        · exact hall other hold
        · rw [mem_singleton.mp hnew]
          exact .inr ⟨capture.item, hsave.2, _, _, rfl⟩
      · intro other hother
        rcases mem_append.mp hother with hold | hnew
        · exact h.known other hold
        · rw [mem_singleton.mp hnew]
          exact hsave.1
    exact hadded.move (fun hreturned => by cases hreturned) True.intro
  | sync done =>
    apply hwritten.stop
    change (s.tasks call).isDraining = true
    rw [htask]
    rfl

theorem Sound.completed (h : Sound queue s) {stage : Stage}
    (htask : s.tasks call = .upload uploads item stage) :
    Sound queue (s.completed queue call uploads item) := by
  have hholds := h.tasks call
  have hdraining : (s.tasks call).isDraining = true := by
    rw [htask]
    rfl
  rw [htask] at hholds
  have hlater : Later s { s with uploaded := s.uploaded ++ [item.id] } :=
    ⟨fun _ hkey => hkey, fun _ hc => hc, ⟨[], (append_nil _).symm⟩,
      fun _ hid => mem_append_left _ hid⟩
  have huploaded : Sound queue { s with uploaded := s.uploaded ++ [item.id] } := by
    refine ⟨h.flag, h.single, h.unwritten, ?_, ?_, h.known, fun i => hlater.holds (h.tasks i)⟩
    · intro ciphertext hfile
      obtain ⟨items, hopens, hcovers⟩ := h.stored ciphertext hfile
      exact ⟨items, hopens, hlater.covers hcovers⟩
    · intro hsome capture hcapture
      rcases h.files hsome capture hcapture with hdone | hfile
      · exact .inl (mem_append_left _ hdone)
      · exact .inr hfile
  have hin : item.id ∈ s.uploaded ++ [item.id] := mem_append_right _ mem_cons_self
  have hrest := covers_uploaded (hlater.covers hholds) hin
  apply huploaded.move
  · exact fun _ => hdraining
  · split
    · exact ⟨hin, hrest⟩
    · exact hrest

/-- The file of an item that is uploaded is deleted, or is not. -/
theorem Sound.unlink (h : Sound queue s) {id : String} (hid : id ∈ s.uploaded)
    {files : String → Option (cipher.Sealed Bytes)} (hfiles : ∀ i, i ≠ id → files i = s.files i) :
    Sound queue { s with files } := by
  refine ⟨h.flag, h.single, h.unwritten, h.stored, ?_, h.known, h.tasks⟩
  intro hsome capture hcapture
  by_cases heq : capture.item.id = id
  · exact .inl (heq ▸ hid)
  · rcases h.files hsome capture hcapture with huploaded | ⟨file, hfile, hopens⟩
    · exact .inl huploaded
    · exact .inr ⟨file, (hfiles _ heq).trans hfile, hopens⟩

theorem Sound.next (h : Sound queue s) {uploads : Uploads Content}
    (htask : s.tasks call = .loop uploads) : Sound queue (s.next queue call answer uploads) := by
  have hcovers := h.tasks call
  have hdraining : (s.tasks call).isDraining = true := by
    rw [htask]
    rfl
  rw [htask] at hcovers
  obtain ⟨version, todo, remaining, done⟩ := uploads
  cases todo with
  | nil => exact h.move (fun _ => hdraining) ⟨True.intro, hcovers⟩
  | cons item todo =>
    change Sound queue (if answer.now < item.nextAttemptAt then _ else _)
    split
    next =>
      apply h.move
      · exact fun _ => hdraining
      · apply covers_of_subset hcovers
        intro other hother
        change other ∈ todo ++ (remaining ++ [item])
        rw [← append_assoc]
        rcases mem_cons.mp hother with rfl | hrest
        · exact mem_append_right _ mem_cons_self
        · exact mem_append_left _ hrest
    next =>
      apply h.move
      · exact fun _ => hdraining
      · split
        · exact hcovers
        · exact hcovers

/-- The list of a queue that is not there. -/
theorem Sound.covers_nil (h : Sound queue s) (hnone : s.queueFile = none) :
    s.covers s.version [] := by
  refine ⟨Nat.le_refl _, ?_⟩
  rw [h.unwritten hnone, take_nil]
  intro capture hcapture
  cases hcapture

theorem Sound.perform (h : Sound queue s) (hok : answer.ok = true)
    (hapart : s.apart (.advance call answer))
    (ht : s.perform queue call answer = some t) : Sound queue t := by
  have hholds := h.tasks call
  have hapart := hapart hok
  unfold Phone.perform at ht
  split at ht
  case h_1 | h_2 | h_3 | h_4 | h_5 => cases ht
  case h_6 input htask =>
    split at ht
    next =>
      cases ht
      split
      · exact h.move (fun hreading => by cases hreading) True.intro
      · exact h.move (fun hreturned => by cases hreturned) True.intro
    next => cases ht
  case h_7 =>
    cases ht
    exact h.move (fun hsealing => by cases hsealing) True.intro
  case h_8 job htask =>
    rw [htask] at hholds
    have hdraining : job.isDraining = true → (s.tasks call).isDraining = true := by
      rw [htask]
      exact id
    cases ht
    split
    next key hkey => exact h.withKey hkey hholds hdraining
    next => exact h.move hdraining hholds
  case h_9 fresh job htask =>
    rw [htask] at hholds hapart
    have hnone := isNone_iff_eq_none.mp hapart
    have hlater : Later s { s with keychain := some fresh } := by
      refine ⟨?_, fun _ hc => hc, ⟨[], (append_nil _).symm⟩, fun _ hid => hid⟩
      intro key hkey
      rw [hnone] at hkey
      cases hkey
    cases ht
    apply (h.store_key hnone fresh).withKey rfl (hlater.holdsJob hholds)
    intro hdraining
    change (s.tasks call).isDraining = true
    rw [htask]
    exact hdraining
  case h_10 input contentLength original ciphertext htask =>
    rw [htask] at hholds
    split at ht
    next => cases ht
    next hnew =>
      cases ht
      have hmade := @Sound.make _ _ _ _ _ h (Phone.capture answer
        (queue.content input contentLength original answer.idempotencyKey) original) hnew
        (update s.files answer.id (some ciphertext)) (fun _ =>
          ⟨fun id hne => update_of_ne hne _ _, ciphertext, update_self _ _ _,
            hholds⟩)
      apply hmade.move
      · intro hdraining
        split at hdraining
        · cases hdraining
        · cases hdraining
      · split
        · exact mem_append_right _ mem_cons_self
        · exact mem_append_right _ mem_cons_self
  case h_11 load htask =>
    rw [htask] at hholds
    have hdraining : load = .sync → (s.tasks call).isDraining = true := by
      rintro rfl
      rw [htask]
      rfl
    cases ht
    split
    next =>
      apply h.move
      · intro hreading
        cases load with
        | sync => exact hdraining rfl
        | _ => cases hreading
      · exact hholds
    next hnone =>
      exact h.loaded hholds (h.covers_nil (by simpa using hnone)) hdraining
  case h_12 load htask =>
    rw [htask] at hholds
    cases ht
    split
    next ciphertext hfile =>
      obtain ⟨items, hopens, hcovers⟩ := h.stored ciphertext hfile
      apply h.move
      · intro hdraining
        rw [htask]
        cases load with
        | sync => rfl
        | _ => cases hdraining
      · exact ⟨hholds, items, hopens, hcovers⟩
    next => exact h.throws none
  case h_13 version ciphertext items save htask =>
    rw [htask] at hapart
    cases ht
    exact h.saved htask hapart
  case h_14 htask =>
    rw [htask] at hapart
    cases ht
    split
    next hconnected =>
      have hdown := hapart hconnected
      have hnobody (i : Nat) : (s.tasks i).isDraining ≠ true := by
        intro hi
        rw [h.flag i hi] at hdown
        cases hdown
      have honly {i : Nat}
          (hi : ((s.setTask call (.existsQueue .sync)).tasks i).isDraining = true) : i = call := by
        by_contra hcall
        rw [setTask_tasks_of_ne hcall] at hi
        exact hnobody i hi
      refine ⟨fun _ _ => rfl, ?_, h.unwritten, h.stored, h.files, h.known, ?_⟩
      · exact fun i j hi hj => (honly hi).trans (honly hj).symm
      · intro i
        change s.holds ((s.setTask call (.existsQueue .sync)).tasks i)
        by_cases hcall : i = call
        · rw [hcall, setTask_tasks_self]
          trivial
        · rw [setTask_tasks_of_ne hcall]
          exact h.tasks i
    next => exact h.move (fun hexists => by cases hexists) True.intro
  case h_15 uploads item htask =>
    rw [htask] at hholds
    cases ht
    split
    next =>
      apply h.move
      · intro _
        rw [htask]
        rfl
      · exact hholds
    next => exact h.throws none
  case h_16 | h_17 =>
    rename_i uploads item htask
    rw [htask] at hholds
    cases ht
    apply h.move
    · intro _
      rw [htask]
      rfl
    · exact hholds
  case h_18 uploads item htask =>
    cases ht
    exact h.completed htask

theorem Sound.advance (h : Sound queue s) (hapart : s.apart (.advance call answer))
    (ht : s.advance queue call answer = some t) : Sound queue t := by
  have hholds := h.tasks call
  unfold Phone.advance at ht
  split at ht
  next => cases ht
  next => cases ht
  next uploads htask =>
    cases ht
    exact h.next htask
  next made htask =>
    rw [htask] at hholds
    cases ht
    exact h.move (fun hexists => by cases hexists) hholds
  next uploads item htask =>
    rw [htask] at hholds
    cases ht
    have hunlinked : Sound queue { s with
        files := if answer.ok then update s.files item.id none else s.files } := by
      apply h.unlink hholds.1
      intro id hne
      split
      · exact update_of_ne hne _ _
      · rfl
    apply hunlinked.move
    · intro _
      change (s.tasks call).isDraining = true
      rw [htask]
      rfl
    · exact hholds.2
  next =>
    split at ht
    next hok => exact h.perform hok hapart ht
    next =>
      cases ht
      exact h.throws _

theorem Sound.step (h : Sound queue s) {a : PhoneStep Input} (hapart : s.apart a)
    (ht : phoneStep queue s a = some t) : Sound queue t := by
  cases a with
  | enqueue call input answer =>
    simp only [phoneStep] at ht
    split at ht
    next =>
      unfold Phone.enqueue at ht
      split at ht
      next =>
        cases ht
        exact h.move (fun hstat => by cases hstat) True.intro
      next hfiles =>
        split at ht
        next => cases ht
        next hnew =>
          cases ht
          have hmade := @Sound.make _ _ _ _ _ h (Phone.capture answer
            (queue.content input 0 [] answer.idempotencyKey) []) hnew s.files (fun hsome => by
              rw [hfiles] at hsome
              cases hsome)
          apply hmade.move
          · intro hexists
            cases hexists
          · exact mem_append_right _ mem_cons_self
    next => cases ht
  | sync call =>
    simp only [phoneStep] at ht
    split at ht
    next =>
      cases ht
      apply h.move
      · intro hdraining
        split at hdraining
        · cases hdraining
        · cases hdraining
      · split
        · trivial
        · trivial
    next => cases ht
  | advance call answer => exact h.advance hapart ht
  | kill =>
    cases ht
    refine ⟨?_, ?_, h.unwritten, h.stored, h.files, h.known, fun i => True.intro⟩
    · intro i hi
      cases hi
    · intro i j hi
      cases hi

theorem Sound.preserved (h : Sound queue s) : Preserved queue s := by
  refine ⟨h.single, ?_⟩
  intro capture hcapture hpending
  cases hfile : s.queueFile with
  | none =>
    rw [h.unwritten hfile] at hcapture
    cases hcapture
  | some ciphertext =>
    obtain ⟨items, ⟨key, hkey, hitems⟩, _, hcovers⟩ := h.stored ciphertext hfile
    have hitem := hcovers capture (by rw [Phone.version, take_length]; exact hcapture)
    refine ⟨key, ciphertext, items, hkey, hfile, hitems, hitem.resolve_left hpending, ?_⟩
    intro hsome
    obtain ⟨file, hstored, key', hkey', hbytes⟩ :=
      (h.files hsome capture (h.known capture hcapture)).resolve_left hpending
    obtain rfl := some.inj (hkey.symm.trans hkey')
    exact ⟨file, hstored, hbytes⟩

theorem sound_empty : Sound queue (Phone.empty : Phone cipher Input Content) := by
  refine ⟨?_, ?_, fun _ => rfl, ?_, ?_, ?_, fun i => True.intro⟩
  · intro i hi
    cases hi
  · intro i j hi
    cases hi
  · intro ciphertext hfile
    cases hfile
  · intro _ capture hcapture
    cases hcapture
  · intro capture hcapture
    cases hcapture

/-- Where tasks keep apart, one sync runs at a time, and what was enqueued is there until it
is uploaded. -/
theorem always_preserved (cipher : Cipher) (queue : SecureQueue Input Content)
    (labels : List (PhoneStep Input))
    (hapart : Meets (phoneStep queue) (fun (s : Phone cipher Input Content) a => s.apart a) .empty
      labels) :
    Always (phoneStep queue) (Preserved queue) (.empty : Phone cipher Input Content) labels :=
  (always_of_meets (fun _ _ _ h hapart ht => Sound.step h hapart ht) sound_empty hapart).mono
    fun _ h => h.preserved

end Queue

/-! ### A device with two photographs -/

/-- A ciphertext that only its key opens. -/
def boxCipher : Cipher where
  Sealed α := Bytes × α
  encrypt key _ value := (key, value)
  decrypt key ciphertext := if ciphertext.1 = key then some ciphertext.2 else none
  decrypt_encrypt _ _ _ := if_pos rfl

/-- The digest of the one photograph here, which is one byte long. -/
def photoDigest (_ : Bytes) : String :=
  "4bf5122f344554c53bde2ebb8cd2b7e3d1600ad631c385a5d7cce23c7785459a"

def photo : EvidenceInput := ⟨7, .jpeg, "gate"⟩

abbrev photoQueue := secureEvidenceQueue photoDigest

def photoAnswer (id : String) : Answer :=
  { id, idempotencyKey := id, key := [9], nonce := [1], size := 1, bytes := [1] }

/-- As far as the queue is loaded, when there is none yet. -/
def loadRun (call : Nat) (id : String) (accesses : Nat) : List (PhoneStep EvidenceInput) :=
  .enqueue call photo (photoAnswer id) ::
    List.replicate accesses (.advance call (photoAnswer id))

def saveRun (call : Nat) : List (PhoneStep EvidenceInput) :=
  [.advance call {}, .advance call {}]

def syncRun (call : Nat) : List (PhoneStep EvidenceInput) :=
  .sync call :: List.replicate 14 (.advance call {})

theorem preserved_uploaded :
    Always (phoneStep photoQueue) (Preserved photoQueue)
      (.empty : Phone boxCipher EvidenceInput EvidenceContent)
      (loadRun 0 "a" 6 ++ saveRun 0 ++ syncRun 1) :=
  always_preserved boxCipher photoQueue (loadRun 0 "a" 6 ++ saveRun 0 ++ syncRun 1)
    (by decide)

/-- Two syncs pass the test before one sets the flag; of two items that are enqueued side by
side, the first is lost. -/
theorem tasks_collide :
    (¬ ∀ (labels : List (PhoneStep EvidenceInput)), Always (phoneStep photoQueue)
      (fun s : Phone boxCipher EvidenceInput EvidenceContent =>
        ∀ i j, (s.tasks i).isDraining = true → (s.tasks j).isDraining = true → i = j) .empty
          labels) ∧
    ¬ ∀ (labels : List (PhoneStep EvidenceInput)), Always (phoneStep photoQueue)
      (fun s : Phone boxCipher EvidenceInput EvidenceContent =>
        ∀ capture ∈ s.added, capture.item.id ∉ s.uploaded → s.hasKept photoQueue capture) .empty
          labels := by
  constructor
  · intro hall
    have hrun : (run (phoneStep photoQueue) (.empty : Phone boxCipher EvidenceInput EvidenceContent)
        [.sync 0, .sync 1, .advance 0 {}, .advance 1 {}]).map (fun s =>
          ((s.tasks 0).isDraining, (s.tasks 1).isDraining)) = some (true, true) := by
      decide
    obtain ⟨s, hs, hview⟩ := map_eq_some_iff.mp hrun
    obtain ⟨hfirst, hsecond⟩ := Prod.mk.inj hview
    cases (hall _).finish hs 0 1 hfirst hsecond
  · intro hall
    have hrun : (run (phoneStep photoQueue) (.empty : Phone boxCipher EvidenceInput EvidenceContent)
        (loadRun 0 "a" 6 ++ loadRun 1 "b" 5 ++ saveRun 0 ++ saveRun 1)).map (fun s =>
          (s.added.map fun capture => capture.item.id, s.uploaded,
            s.queueFile.map fun ciphertext => ciphertext.2.map QueueItem.id)) =
        some (["a", "b"], [], some ["b"]) := by
      decide
    obtain ⟨s, hs, hview⟩ := map_eq_some_iff.mp hrun
    obtain ⟨hadded, hview⟩ := Prod.mk.inj hview
    obtain ⟨huploaded, hqueue⟩ := Prod.mk.inj hview
    have hin : "a" ∈ s.added.map fun capture => capture.item.id := hadded ▸ mem_cons_self
    obtain ⟨capture, hcapture, hid⟩ := mem_map.mp hin
    have hpending : capture.item.id ∉ s.uploaded := by
      rw [huploaded]
      exact not_mem_nil
    obtain ⟨key, ciphertext, items, _, hfile, hopen, ⟨item, hitem, hof⟩, _⟩ :=
      (hall _).finish hs capture hcapture hpending
    rw [hfile] at hqueue
    have hopen : (if ciphertext.1 = key then some ciphertext.2 else none) = some items := hopen
    split at hopen
    next =>
      have hids : items.map QueueItem.id = ["b"] := by
        rw [← some.inj hopen]
        exact some.inj hqueue
      have hitemId := mem_map_of_mem (f := QueueItem.id) hitem
      rw [hids, ← isOf_id hof, hid] at hitemId
      exact absurd hitemId (by decide)
    next => cases hopen

end Bis.Secure
