import Bis.Secure.Sync
import Mathlib.Data.List.Perm.Basic

/-!
The app is killed with a queue half done, and starts again. An item has its ciphertext
before it has its place in the queue, and loses it before it loses its place; a sync writes
the queue once, after its last item. What is stored is in order again whenever nothing of
this was going on, and no two tasks were writing the queue.
-/

namespace Bis.Secure

open Bis.Transition List Function Option

section Queue

variable {cipher : Cipher} {Input Content : Type}

def ids (items : List (QueueItem Content)) : List String := items.map QueueItem.id

def Task.isResting : Task cipher Input Content → Bool
  | .idle | .returned _ => true
  | _ => false

/-- No call is under way, as after a start. -/
def Phone.atRest (s : Phone cipher Input Content) : Prop := ∀ i, (s.tasks i).isResting = true

/-- The items of the queue file; without a file there are none. -/
def Phone.stored (s : Phone cipher Input Content) : Option (List (QueueItem Content)) :=
  match s.queueFile with
  | none => some []
  | some ciphertext => s.keychain.bind fun key => cipher.decrypt key ciphertext

/-- Some sync takes the item out of the queue and does not upload it. -/
def Phone.leaves (queue : SecureQueue Input Content) (s : Phone cipher Input Content)
    (id : String) : Prop :=
  ∃ (call : Nat) (answers : List Answer) (t : Phone cipher Input Content)
      (items : List (QueueItem Content)),
    run (phoneStep queue) s (.sync call :: answers.map (PhoneStep.advance call)) = some t ∧
      t.atRest ∧ t.stored = some items ∧ id ∉ ids items ∧ t.uploaded.count id = s.uploaded.count id

structure Restartable (queue : SecureQueue Input Content) (s : Phone cipher Input Content) :
    Prop where
  once : s.uploaded.Nodup
  held : s.atRest → ∀ items, s.stored = some items → ∀ item ∈ items,
    (s.files item.id).isSome = true ∨ (item.id ∈ s.uploaded ∧ s.leaves queue item.id)
  listed : s.atRest → ∀ id, (s.files id).isSome = true →
    ∃ items, s.stored = some items ∧ id ∈ ids items

/-! ### What a task has not saved -/

def Load.inHand : Load Content → Option String
  | .enqueue capture => some capture.item.id
  | .pending | .sync => none

def Save.inHand : Save Content → Option String
  | .enqueue capture => some capture.item.id
  | .sync _ => none

/-- The item that has its ciphertext and is not in the queue yet. -/
def Task.inHand : Task cipher Input Content → Option String
  | .unlinkPlain capture => some capture.item.id
  | .existsQueue load | .readQueue load => load.inHand
  | .key (.openQueue load _ _) | .setKey _ (.openQueue load _ _) => load.inHand
  | .key (.sealQueue _ _ save) | .setKey _ (.sealQueue _ _ save) => save.inHand
  | .writeQueue _ _ _ save => save.inHand
  | _ => none

/-- What a sync has yet to save and what it has uploaded, with the one whose ciphertext is
about to be deleted. -/
structure Progress where
  version : Version
  (rest done : List String)
  unlinking : Option String

def Uploads.progress (uploads : Uploads Content) : Progress :=
  ⟨uploads.version, ids uploads.todo ++ ids uploads.remaining, uploads.done, none⟩

/-- With the item that it is about. -/
def Uploads.progressWith (uploads : Uploads Content) (item : QueueItem Content) : Progress :=
  { uploads.progress with rest := item.id :: (ids uploads.todo ++ ids uploads.remaining) }

def Save.progress (version : Version) (items : List (QueueItem Content)) :
    Save Content → Option Progress
  | .enqueue _ => none
  | .sync done => some ⟨version, ids items, done, none⟩

def Task.progress : Task cipher Input Content → Option Progress
  | .loop uploads => some uploads.progress
  | .readFile uploads item | .upload uploads item _ => some (uploads.progressWith item)
  | .key (.openFile uploads item _) | .setKey _ (.openFile uploads item _) =>
    some (uploads.progressWith item)
  | .unlinkFile uploads item => some { uploads.progress with unlinking := some item.id }
  | .key (.sealQueue version items save) | .setKey _ (.sealQueue version items save) =>
    save.progress version items
  | .writeQueue version _ items save => save.progress version items
  | _ => none

def Task.done (task : Task cipher Input Content) : List String :=
  (task.progress.map Progress.done).getD []

/-- A queue file that is going to be opened. -/
def Task.loading : Task cipher Input Content →
    Option (Load Content × Version × cipher.Sealed (List (QueueItem Content)))
  | .key (.openQueue load version ciphertext) | .setKey _ (.openQueue load version ciphertext) =>
    some (load, version, ciphertext)
  | _ => none

def Save.adding (version : Version) (items : List (QueueItem Content)) :
    Save Content → Option (Version × List (QueueItem Content) × Capture Content)
  | .enqueue capture => some (version, items, capture)
  | .sync _ => none

/-- A queue that is going to be written with one more item. -/
def Task.adding : Task cipher Input Content →
    Option (Version × List (QueueItem Content) × Capture Content)
  | .key (.sealQueue version items save) | .setKey _ (.sealQueue version items save) =>
    save.adding version items
  | .writeQueue version _ items save => save.adding version items
  | _ => none

def Task.unsaved (task : Task cipher Input Content) : Bool :=
  task.inHand.isSome || !task.done.isEmpty

/-- Nothing is left behind when the access throws. -/
def Task.mayThrow : Task cipher Input Content → Bool
  | .unlinkPlain _ => true
  | .unlinkFile _ _ => false
  | task => task.uploading.isSome || !task.unsaved

/-- Nothing is written between the load and the save of a queue, and no task ends with an
item that it has not saved. -/
def Phone.permits (s : Phone cipher Input Content) (answer : Answer) :
    Task cipher Input Content → Prop
  | .network => answer.connected = true → s.draining = false
  | .setKey _ _ => s.keychain.isNone = true
  | .writeQueue version _ _ _ => version.writes = s.writes
  | _ => True

def Phone.careful (s : Phone cipher Input Content) : PhoneStep Input → Prop
  | .advance call answer =>
    if answer.ok = true then s.permits answer (s.tasks call)
    else (s.tasks call).mayThrow = true
  | .kill => ∀ i, (s.tasks i).unsaved = false
  | _ => True

/-! ### The invariant -/

/-- Items of the queue, each once. -/
def Phone.lists (s : Phone cipher Input Content) (ids : List String) : Prop :=
  ids.Nodup ∧ ∀ id ∈ ids, ∃ capture ∈ s.added, capture.item.id = id

def Phone.dated (s : Phone cipher Input Content) (version : Version) : Prop :=
  version.writes ≤ s.writes ∧ (version.writes = s.writes → version.added = s.added.length)

structure Phone.Proceeds (s : Phone cipher Input Content) (p : Progress) : Prop where
  dated : s.dated p.version
  lists : s.lists p.rest
  fresh : ∀ id ∈ p.rest, id ∉ s.uploaded
  done : ∀ id ∈ p.done, id ∈ s.uploaded ∧ (s.files id = none ∨ p.unlinking = some id)
  current : p.version.writes = s.writes →
    ∃ old, s.stored = some old ∧ (ids old).Perm (p.done ++ p.rest)

structure Phone.Loads (s : Phone cipher Input Content) (load : Load Content) (version : Version)
    (ciphertext : cipher.Sealed (List (QueueItem Content))) : Prop where
  dated : s.dated version
  current : version.writes = s.writes → s.queueFile = some ciphertext
  sync : load = .sync → ∃ items, s.opens ciphertext items ∧ s.lists (ids items) ∧
    ∀ id ∈ ids items, id ∉ s.uploaded

structure Phone.Adds (s : Phone cipher Input Content) (version : Version)
    (items : List (QueueItem Content)) (capture : Capture Content) : Prop where
  dated : s.dated version
  current : version.writes = s.writes →
    ∃ old, s.stored = some old ∧ items = old ++ [capture.item]

structure Phone.Tidies (s : Phone cipher Input Content) (task : Task cipher Input Content) :
    Prop where
  progress : ∀ p, task.progress = some p → s.Proceeds p
  loading : ∀ load version ciphertext, task.loading = some (load, version, ciphertext) →
    s.Loads load version ciphertext
  adding : ∀ version items capture, task.adding = some (version, items, capture) →
    s.Adds version items capture
  reading : ∀ load, task = .readQueue load → s.queueFile ≠ none

structure Tidy (queue : SecureQueue Input Content) (s : Phone cipher Input Content) : Prop where
  sound : Sound queue s
  once : s.uploaded.Nodup
  uploaded : ∀ id ∈ s.uploaded, ∃ capture ∈ s.added, capture.item.id = id
  stored : ∀ items, s.stored = some items → s.lists (ids items)
  stale : ∀ items, s.stored = some items → ∀ id ∈ ids items, id ∈ s.uploaded →
    ∃ i, id ∈ (s.tasks i).done
  files : ∀ id, (s.files id).isSome = true →
    (∃ items, s.stored = some items ∧ id ∈ ids items) ∨ ∃ i, (s.tasks i).inHand = some id
  hands : ∀ i id, (s.tasks i).inHand = some id →
    (∃ capture ∈ s.captured, capture.item.id = id) ∧ (∀ capture ∈ s.added, capture.item.id ≠ id) ∧
      ∀ j, (s.tasks j).inHand = some id → j = i
  tasks : ∀ i, s.Tidies (s.tasks i)

variable {queue : SecureQueue Input Content} {s t : Phone cipher Input Content} {call : Nat}
  {answer : Answer}

variable {ciphertext : cipher.Sealed (List (QueueItem Content))} {items : List (QueueItem Content)}
  {task : Task cipher Input Content} {p : Progress} {version : Version}
  {uploads : Uploads Content} {item : QueueItem Content} {load : Load Content}

theorem stored_of_opens (hfile : s.queueFile = some ciphertext) (hopens : s.opens ciphertext
    items) : s.stored = some items := by
  obtain ⟨key, hkey, hitems⟩ := hopens
  unfold Phone.stored
  rw [hfile, hkey]
  exact hitems

/-- At rest nothing is on its way. -/
theorem isResting_unsaved (h : task.isResting = true) : task.inHand = none ∧ task.done = [] := by
  cases task with
  | idle | returned => exact ⟨rfl, rfl⟩
  | _ => cases h

theorem Tidy.restartable (h : Tidy queue s) (hfiles : queue.files.isSome = true) :
    Restartable queue s := by
  refine ⟨h.once, ?_, ?_⟩
  · intro hrest items hstored item hitem
    have hid : item.id ∈ ids items := mem_map_of_mem hitem
    have hpending : item.id ∉ s.uploaded := by
      intro huploaded
      obtain ⟨i, hdone⟩ := h.stale items hstored item.id hid huploaded
      rw [(isResting_unsaved (hrest i)).2] at hdone
      cases hdone
    obtain ⟨capture, hcapture, heq⟩ := (h.stored items hstored).2 item.id hid
    rcases h.sound.files hfiles capture (h.sound.known capture hcapture) with hup | ⟨file, hfile, _⟩
    · exact absurd (heq ▸ hup) hpending
    · rw [← heq, hfile]
      exact .inl rfl
  · intro hrest id hsome
    rcases h.files id hsome with hstored | ⟨i, hhand⟩
    · exact hstored
    · rw [(isResting_unsaved (hrest i)).1] at hhand
      cases hhand

/-! ### Moves of one task -/

/-- The rest in another order. -/
theorem Phone.Proceeds.perm (h : s.Proceeds p) {rest : List String} (hperm : p.rest.Perm rest) :
    s.Proceeds { p with rest } := by
  refine ⟨h.dated, ⟨hperm.nodup_iff.mp h.lists.1, ?_⟩, ?_, h.done, ?_⟩
  · exact fun id hid => h.lists.2 id (hperm.mem_iff.mpr hid)
  · exact fun id hid => h.fresh id (hperm.mem_iff.mpr hid)
  · intro hcurrent
    obtain ⟨old, hold, hids⟩ := h.current hcurrent
    exact ⟨old, hold, hids.trans (List.Perm.append_left _ hperm)⟩

/-- A task with nothing to save. -/
theorem tidies_of_none (hprogress : task.progress = none) (hloading : task.loading = none)
    (hadding : task.adding = none) (hreading : ∀ load, task ≠ .readQueue load) : s.Tidies task := by
  refine ⟨?_, ?_, ?_, fun load heq => absurd heq (hreading load)⟩
  · intro p hp
    rw [hprogress] at hp
    cases hp
  · intro load version ciphertext hl
    rw [hloading] at hl
    cases hl
  · intro version items capture ha
    rw [hadding] at ha
    cases ha

theorem tidies_of_progress (hprogress : task.progress = some p) (hloading : task.loading = none)
    (hadding : task.adding = none) (hreading : ∀ load, task ≠ .readQueue load) (h : s.Proceeds p) :
    s.Tidies task := by
  refine ⟨?_, ?_, ?_, fun load heq => absurd heq (hreading load)⟩
  · intro q hq
    rw [hprogress] at hq
    exact some.inj hq ▸ h
  · intro load version ciphertext hl
    rw [hloading] at hl
    cases hl
  · intro version items capture ha
    rw [hadding] at ha
    cases ha

/-- What the other tasks find after a step: the same queue, or one that was written since. -/
structure Keeps (s t : Phone cipher Input Content) : Prop where
  keychain : ∀ key, s.keychain = some key → t.keychain = some key
  added : ∀ capture ∈ s.added, capture ∈ t.added
  files : ∀ id ∈ s.uploaded, s.files id = none → t.files id = none
  uploaded : ∀ id ∈ s.uploaded, id ∈ t.uploaded
  writes : (t.writes = s.writes ∧ t.queueFile = s.queueFile ∧ t.added = s.added) ∨
    (s.writes < t.writes ∧ t.queueFile ≠ none)

theorem keeps_of_same (hkeychain : t.keychain = s.keychain) (hadded : t.added = s.added)
    (hfiles : t.files = s.files) (huploaded : t.uploaded = s.uploaded)
    (hwrites : t.writes = s.writes) (hqueue : t.queueFile = s.queueFile) : Keeps s t := by
  refine ⟨?_, ?_, ?_, ?_, .inl ⟨hwrites, hqueue, hadded⟩⟩
  · exact fun key hkey => hkeychain.trans hkey
  · exact fun capture hcapture => hadded ▸ hcapture
  · exact fun id _ hnone => hfiles ▸ hnone
  · exact fun id hid => huploaded ▸ hid

theorem Keeps.opens (h : Keeps s t) {α : Type} {ciphertext : cipher.Sealed α} {value : α}
    (hopens : s.opens ciphertext value) : t.opens ciphertext value := by
  obtain ⟨key, hkey, hvalue⟩ := hopens
  exact ⟨key, h.keychain key hkey, hvalue⟩

theorem Keeps.lists (h : Keeps s t) {ids : List String} (hlists : s.lists ids) : t.lists ids := by
  refine ⟨hlists.1, ?_⟩
  intro id hid
  obtain ⟨capture, hcapture, heq⟩ := hlists.2 id hid
  exact ⟨capture, h.added capture hcapture, heq⟩

theorem Keeps.stored (h : Keeps s t) (hqueue : t.queueFile = s.queueFile)
    {items : List (QueueItem Content)} (hstored : s.stored = some items) :
    t.stored = some items := by
  unfold Phone.stored at hstored ⊢
  rw [hqueue]
  cases hfile : s.queueFile with
  | none =>
    rw [hfile] at hstored
    exact hstored
  | some ciphertext =>
    rw [hfile] at hstored
    obtain ⟨key, hkey, hitems⟩ := bind_eq_some_iff.mp hstored
    exact bind_eq_some_iff.mpr ⟨key, h.keychain key hkey, hitems⟩

/-- A load of before a write is not current. -/
theorem Keeps.current (h : Keeps s t) (hdated : s.dated version) :
    t.dated version ∧ (version.writes = t.writes → version.writes = s.writes ∧
      t.queueFile = s.queueFile) := by
  rcases h.writes with ⟨hwrites, hqueue, hadded⟩ | ⟨hlt, _⟩
  · unfold Phone.dated
    rw [hwrites, hadded]
    exact ⟨hdated, fun heq => ⟨heq, hqueue⟩⟩
  · have hbefore : version.writes < t.writes := Nat.lt_of_le_of_lt hdated.1 hlt
    refine ⟨⟨Nat.le_of_lt hbefore, ?_⟩, ?_⟩
    · exact fun heq => absurd heq (Nat.ne_of_lt hbefore)
    · exact fun heq => absurd heq (Nat.ne_of_lt hbefore)

theorem Phone.Proceeds.keep (h : s.Proceeds p) (hkeeps : Keeps s t)
    (hfresh : ∀ id ∈ t.uploaded, id ∈ s.uploaded) : t.Proceeds p := by
  obtain ⟨hdated, hcurrent⟩ := hkeeps.current h.dated
  refine ⟨hdated, hkeeps.lists h.lists, ?_, ?_, ?_⟩
  · exact fun id hid huploaded => h.fresh id hid (hfresh id huploaded)
  · intro id hid
    obtain ⟨huploaded, hfile⟩ := h.done id hid
    exact ⟨hkeeps.uploaded id huploaded, hfile.imp_left (hkeeps.files id huploaded)⟩
  · intro heq
    obtain ⟨hbefore, hqueue⟩ := hcurrent heq
    obtain ⟨old, hold, hperm⟩ := h.current hbefore
    exact ⟨old, hkeeps.stored hqueue hold, hperm⟩

theorem progress_isDraining (h : task.progress = some p) : task.isDraining = true := by
  cases task with
  | loop | readFile | upload | unlinkFile => rfl
  | key job | setKey fresh job =>
    cases job with
    | openFile => rfl
    | sealQueue version items save =>
      cases save with
      | sync => rfl
      | enqueue => cases h
    | _ => cases h
  | writeQueue version ciphertext items save =>
    cases save with
    | sync => rfl
    | enqueue => cases h
  | _ => cases h

theorem loading_isDraining (h : task.loading = some (.sync, version, ciphertext)) :
    task.isDraining = true := by
  cases task with
  | key job | setKey fresh job =>
    cases job with
    | openQueue load =>
      obtain ⟨rfl, _⟩ := Prod.mk.inj (some.inj h)
      rfl
    | _ => cases h
  | _ => cases h

/-- Only the task that drains minds what is uploaded. -/
theorem Phone.Tidies.keep (h : s.Tidies task) (hkeeps : Keeps s t)
    (hfresh : task.isDraining = true → ∀ id ∈ t.uploaded, id ∈ s.uploaded) : t.Tidies task := by
  refine ⟨?_, ?_, ?_, ?_⟩
  · exact fun p hp => (h.progress p hp).keep hkeeps (hfresh (progress_isDraining hp))
  · intro load version ciphertext hload
    have hloads := h.loading load version ciphertext hload
    obtain ⟨hdated, hcurrent⟩ := hkeeps.current hloads.dated
    refine ⟨hdated, ?_, ?_⟩
    · intro heq
      obtain ⟨hbefore, hqueue⟩ := hcurrent heq
      exact hqueue.trans (hloads.current hbefore)
    · rintro rfl
      obtain ⟨items, hopens, hlists, hpending⟩ := hloads.sync rfl
      refine ⟨items, hkeeps.opens hopens, hkeeps.lists hlists, ?_⟩
      exact fun id hid huploaded =>
        hpending id hid (hfresh (loading_isDraining hload) id huploaded)
  · intro version items capture hadding
    have hadds := h.adding version items capture hadding
    obtain ⟨hdated, hcurrent⟩ := hkeeps.current hadds.dated
    refine ⟨hdated, ?_⟩
    intro heq
    obtain ⟨hbefore, hqueue⟩ := hcurrent heq
    obtain ⟨old, hold, hitems⟩ := hadds.current hbefore
    exact ⟨old, hkeeps.stored hqueue hold, hitems⟩
  · intro load heq
    rcases hkeeps.writes with ⟨_, hqueue, _⟩ | ⟨_, hqueue⟩
    · exact hqueue ▸ h.reading load heq
    · exact hqueue

/-- The task goes on with what it has, and files may be deleted. -/
theorem Tidy.moveFiles (h : Tidy queue s) {files : String → Option (cipher.Sealed Bytes)}
    (hgone : ∀ id, s.files id = none → files id = none)
    (hsound : Sound queue ({ s with files }.setTask call task))
    (hhand : task.inHand = (s.tasks call).inHand) (hdone : task.done = (s.tasks call).done)
    (htidies : { s with files }.Tidies task) : Tidy queue ({ s with files }.setTask call task) := by
  have hsame (i : Nat) : (update s.tasks call task i).inHand = (s.tasks i).inHand ∧
      (update s.tasks call task i).done = (s.tasks i).done := by
    by_cases hcall : i = call
    · rw [hcall, update_self]
      exact ⟨hhand, hdone⟩
    · rw [update_of_ne hcall]
      exact ⟨rfl, rfl⟩
  have hkeeps : Keeps s ({ s with files }.setTask call task) :=
    ⟨fun _ hkey => hkey, fun _ hc => hc, fun id _ => hgone id, fun _ hid => hid,
      .inl ⟨rfl, rfl, rfl⟩⟩
  refine ⟨hsound, h.once, h.uploaded, ?_, ?_, ?_, ?_, ?_⟩
  · exact fun items hitems => hkeeps.lists (h.stored items hitems)
  · intro items hitems id hid huploaded
    obtain ⟨i, hi⟩ := h.stale items hitems id hid huploaded
    exact ⟨i, (hsame i).2 ▸ hi⟩
  · intro id hsome
    have hbefore : (s.files id).isSome = true := by
      rw [isSome_iff_ne_none] at hsome ⊢
      exact fun hnone => hsome (hgone id hnone)
    rcases h.files id hbefore with hstored | ⟨i, hi⟩
    · exact .inl hstored
    · exact .inr ⟨i, (hsame i).1.trans hi⟩
  · intro i id hi
    obtain ⟨hcaptured, hadded, honly⟩ := h.hands i id ((hsame i).1.symm.trans hi)
    exact ⟨hcaptured, hadded, fun j hj => honly j ((hsame j).1.symm.trans hj)⟩
  · intro i
    by_cases hcall : i = call
    · rw [hcall, setTask_tasks_self]
      exact htidies.keep (keeps_of_same rfl rfl rfl rfl rfl rfl) fun _ _ hid => hid
    · rw [setTask_tasks_of_ne hcall]
      exact (h.tasks i).keep hkeeps fun _ _ hid => hid

theorem Tidy.move (h : Tidy queue s) (hsound : Sound queue (s.setTask call task))
    (hhand : task.inHand = (s.tasks call).inHand) (hdone : task.done = (s.tasks call).done)
    (htidies : s.Tidies task) : Tidy queue (s.setTask call task) :=
  h.moveFiles (fun _ hnone => hnone) hsound hhand hdone htidies

theorem Tidy.moveFrom (h : Tidy queue s) {before : Task cipher Input Content}
    (htask : s.tasks call = before) (hsound : Sound queue (s.setTask call task))
    (hhand : task.inHand = before.inHand) (hdone : task.done = before.done)
    (htidies : s.Tidies task) : Tidy queue (s.setTask call task) := by
  subst htask
  exact h.move hsound hhand hdone htidies

/-- Neither the flag nor a first key matters to what is stored. -/
theorem Tidy.same (h : Tidy queue s) {keychain : Option Bytes} {draining : Bool}
    (hsound : Sound queue { s with keychain, draining })
    (hkeychain : ∀ key, s.keychain = some key → keychain = some key)
    (hstored : { s with keychain, draining }.stored = s.stored) :
    Tidy queue { s with keychain, draining } := by
  have hkeeps : Keeps s { s with keychain, draining } :=
    ⟨hkeychain, fun _ hc => hc, fun _ _ hfile => hfile, fun _ hid => hid, .inl ⟨rfl, rfl, rfl⟩⟩
  refine ⟨hsound, h.once, h.uploaded, ?_, ?_, ?_, h.hands, ?_⟩
  · rw [hstored]
    exact fun items hitems => hkeeps.lists (h.stored items hitems)
  · rw [hstored]
    exact h.stale
  · rw [hstored]
    exact h.files
  · exact fun i => (h.tasks i).keep hkeeps fun _ _ hid => hid

theorem uploading_progress (h : task.uploading = some (uploads, item)) :
    task.progress = some (uploads.progressWith item) ∧ task.inHand = none := by
  cases task with
  | readFile | upload => cases h; exact ⟨rfl, rfl⟩
  | key job | setKey fresh job =>
    cases job with
    | openFile => cases h; exact ⟨rfl, rfl⟩
    | _ => cases h
  | _ => cases h

theorem done_of_progress (h : task.progress = some p) : task.done = p.done := by
  unfold Task.done
  rw [h]
  rfl

theorem unsaved_eq_false (h : task.unsaved = false) : task.inHand = none ∧ task.done = [] := by
  obtain ⟨hhand, hdone⟩ := Bool.or_eq_false_iff.mp h
  constructor
  · simpa using hhand
  · simpa using hdone

/-- The item keeps its place behind the others. -/
theorem perm_retry (uploads : Uploads Content) (item : QueueItem Content) (now : Nat) :
    (uploads.progressWith item).rest.Perm (uploads.retry item now).progress.rest := by
  change (item.id :: (ids uploads.todo ++ ids uploads.remaining)).Perm
    (ids uploads.todo ++ ids (uploads.remaining ++ [item.retry now]))
  have hids : ids (uploads.remaining ++ [item.retry now]) = ids uploads.remaining ++ [item.id] :=
    map_append
  rw [hids, ← append_assoc]
  exact (perm_append_singleton _ _).symm

/-- A task ends that has nothing to save. -/
theorem Tidy.finish (h : Tidy queue s) (reply : Reply Content)
    (hunsaved : (s.tasks call).unsaved = false) :
    Tidy queue (s.setTask call (.returned reply)) := by
  obtain ⟨hhand, hdone⟩ := unsaved_eq_false hunsaved
  apply h.move
  · exact h.sound.move (fun hreturned => by cases hreturned) True.intro
  · exact hhand.symm
  · exact hdone.symm
  · exact tidies_of_none rfl rfl rfl nofun

theorem Tidy.throws (h : Tidy queue s) (error : Option String)
    (hmay : (s.tasks call).uploading.isSome = true ∨ (s.tasks call).unsaved = false) :
    Tidy queue (s.throws call answer error) := by
  have hsound : Sound queue (s.throws call answer error) := h.sound.throws error
  unfold Phone.throws at hsound ⊢
  split at hsound
  next uploads item huploading =>
    obtain ⟨hprogress, hhand⟩ := uploading_progress huploading
    apply h.move hsound
    · exact hhand.symm
    · exact (done_of_progress hprogress).symm
    · refine tidies_of_progress rfl rfl rfl nofun ?_
      exact ((h.tasks call).progress _ hprogress).perm (perm_retry uploads item answer.now)
  next hnone =>
    have hunsaved : (s.tasks call).unsaved = false := by
      rcases hmay with hsome | hunsaved
      · rw [hnone] at hsome
        cases hsome
      · exact hunsaved
    exact (h.finish _ hunsaved).same hsound (fun _ hkey => hkey) rfl

/-- The list that a task has loaded. -/
theorem Tidy.loaded (h : Tidy queue s) (hsound : Sound queue (s.loaded call load version items))
    (hhand : (s.tasks call).inHand = load.inHand) (hdone : (s.tasks call).done = [])
    (hdated : s.dated version) (hcurrent : version.writes = s.writes → s.stored = some items)
    (hsync : load = .sync → s.lists (ids items) ∧ ∀ id ∈ ids items, id ∉ s.uploaded) :
    Tidy queue (s.loaded call load version items) := by
  cases load with
  | enqueue capture =>
    apply h.move hsound
    · exact hhand.symm
    · exact hdone.symm
    · refine ⟨nofun, nofun, fun version' items' capture' ha => ?_, nofun⟩
      cases ha
      exact ⟨hdated, fun heq => ⟨items, hcurrent heq, rfl⟩⟩
  | pending =>
    apply h.finish
    unfold Task.unsaved
    rw [hhand, hdone]
    rfl
  | sync =>
    apply h.move hsound
    · exact hhand.symm
    · exact hdone.symm
    · refine tidies_of_progress rfl rfl rfl nofun ?_
      obtain ⟨hlists, hfresh⟩ := hsync rfl
      have hrest : (⟨version, items, [], []⟩ : Uploads Content).progress.rest = ids items :=
        append_nil _
      refine ⟨hdated, hrest ▸ hlists, hrest ▸ hfresh, ?_, ?_⟩
      · intro id hid
        cases hid
      · intro heq
        refine ⟨items, hcurrent heq, ?_⟩
        rw [hrest]
        exact List.Perm.refl _

/-- What a task that wants the key is about. -/
def Job.Wanted (task : Task cipher Input Content) (job : Job cipher Input Content) : Prop :=
  task = .key job ∨ ∃ fresh, task = .setKey fresh job

/-- Waiting for the key or storing a fresh one, the task is the same. -/
theorem Job.Wanted.facts {job : Job cipher Input Content} (h : job.Wanted task) :
    task.inHand = (Task.key job).inHand ∧ task.progress = (Task.key job).progress ∧
      task.loading = (Task.key job).loading ∧ task.adding = (Task.key job).adding ∧
      task.uploading = (Task.key job).uploading ∧ (s.holds task → s.holdsJob job) := by
  rcases h with rfl | ⟨fresh, rfl⟩
  · exact ⟨rfl, rfl, rfl, rfl, rfl, id⟩
  · cases job <;> exact ⟨rfl, rfl, rfl, rfl, rfl, id⟩

theorem Tidy.withKey (h : Tidy queue s) {key : Bytes} (hkey : s.keychain = some key)
    {job : Job cipher Input Content} (htask : job.Wanted (s.tasks call))
    (hsound : Sound queue (s.withKey queue call answer key job)) :
    Tidy queue (s.withKey queue call answer key job) := by
  have htidies := h.tasks call
  obtain ⟨hhand, hprogress, hloading, hadding, huploading, hholds⟩ := htask.facts (s := s)
  have hjob := hholds (h.sound.tasks call)
  have hdone : (s.tasks call).done = (Task.key job).done := by
    unfold Task.done
    rw [hprogress]
  cases job with
  | sealFile input contentLength original =>
    apply h.move hsound
    · exact hhand.symm
    · exact hdone.symm
    · exact tidies_of_none rfl rfl rfl nofun
  | openQueue load version ciphertext =>
    have hloads := htidies.loading load version ciphertext hloading
    obtain ⟨_, items, ⟨key', hkey', hitems⟩, _⟩ := hjob
    obtain rfl := some.inj (hkey.symm.trans hkey')
    unfold Phone.withKey at hsound ⊢
    dsimp only at hsound ⊢
    rw [hitems] at hsound ⊢
    apply h.loaded hsound hhand hdone hloads.dated
    · exact fun heq => stored_of_opens (hloads.current heq) ⟨key, hkey, hitems⟩
    · intro hsync
      obtain ⟨items', ⟨key'', hkey'', hitems'⟩, hlists, hfresh⟩ := hloads.sync hsync
      obtain rfl := some.inj (hkey.symm.trans hkey'')
      obtain rfl := some.inj (hitems.symm.trans hitems')
      exact ⟨hlists, hfresh⟩
  | openFile uploads item ciphertext =>
    have hthrows : Tidy queue (s.throws call answer none) :=
      h.throws none (.inl (huploading ▸ rfl))
    revert hsound
    unfold Phone.withKey
    dsimp only
    split
    next =>
      split
      next =>
        intro hsound
        apply h.move hsound
        · exact hhand.symm
        · exact hdone.symm
        · exact tidies_of_progress rfl rfl rfl nofun (htidies.progress _ hprogress)
      next => exact fun _ => hthrows
    next => exact fun _ => hthrows
  | sealQueue version items save =>
    apply h.move hsound
    · exact hhand.symm
    · exact hdone.symm
    · refine ⟨?_, nofun, ?_, nofun⟩
      · exact fun p hp => htidies.progress p (hprogress.trans hp)
      · exact fun version' items' capture ha =>
          htidies.adding version' items' capture (hadding.trans ha)

/-! ### Moves of the storage -/

theorem forall_setTask {p : Nat → Task cipher Input Content → Prop} (hself : p call task)
    (hothers : ∀ i, i ≠ call → p i (s.tasks i)) (i : Nat) :
    p i ((s.setTask call task).tasks i) := by
  by_cases hcall : i = call
  · rw [hcall, setTask_tasks_self]
    exact hself
  · rw [setTask_tasks_of_ne hcall]
    exact hothers i hcall

theorem exists_setTask {P : Task cipher Input Content → Prop} (h : ∃ i, P (s.tasks i))
    (hcall : ¬ P (s.tasks call)) : ∃ i, P ((s.setTask call task).tasks i) := by
  obtain ⟨i, hi⟩ := h
  have hne : i ≠ call := fun heq => hcall (heq ▸ hi)
  exact ⟨i, by rwa [setTask_tasks_of_ne hne]⟩

theorem Tidy.store_key (h : Tidy queue s) (hnone : s.keychain = none) (fresh : Bytes) :
    Tidy queue { s with keychain := some fresh } := by
  have hunwritten : s.queueFile = none := by
    cases hfile : s.queueFile with
    | none => rfl
    | some ciphertext =>
      obtain ⟨items, ⟨key, hkey, _⟩, _⟩ := h.sound.stored ciphertext hfile
      rw [hnone] at hkey
      cases hkey
  apply h.same (h.sound.store_key hnone fresh)
  · intro key hkey
    rw [hnone] at hkey
    cases hkey
  · unfold Phone.stored
    rw [hunwritten]

theorem Tidy.raise (h : Tidy queue s) : Tidy queue { s with draining := true } := by
  apply h.same
  · exact ⟨fun _ _ => rfl, h.sound.single, h.sound.unwritten, h.sound.stored, h.sound.files,
      h.sound.known, h.sound.tasks⟩
  · exact fun _ hkey => hkey
  · rfl

theorem Tidy.uploaded_captured (h : Tidy queue s) {id : String} (hid : id ∈ s.uploaded) :
    ∃ capture ∈ s.captured, capture.item.id = id := by
  obtain ⟨capture, hadded, heq⟩ := h.uploaded id hid
  exact ⟨capture, h.sound.known capture hadded, heq⟩

/-- The new item is in nobody else's hands. -/
theorem Tidy.make (h : Tidy queue s) (made : Capture Content)
    {ciphertext : cipher.Sealed Bytes} {task : Task cipher Input Content}
    (hnew : ¬ s.isCaptured made.item.id = true)
    (ht : t = { s with
      files := update s.files made.item.id (some ciphertext)
      captured := s.captured ++ [made] }.setTask call task)
    (hsound : Sound queue t)
    (hbefore : (s.tasks call).inHand = none) (hdone : (s.tasks call).done = [])
    (hhand : task.inHand = some made.item.id)
    (htidies : ∀ {u : Phone cipher Input Content}, u.Tidies task) :
    Tidy queue t := by
  have hnew := isCaptured_eq_false hnew
  have hkeeps : Keeps s t := by
    subst ht
    refine ⟨fun _ hkey => hkey, fun _ hc => hc, ?_, fun _ hid => hid, .inl ⟨rfl, rfl, rfl⟩⟩
    intro id huploaded hnone
    obtain ⟨capture, hcapture, rfl⟩ := h.uploaded_captured huploaded
    exact (update_of_ne (hnew capture hcapture) _ _).trans hnone
  subst ht
  have hothers {i : Nat} {id : String} (hi : i ≠ call) (hhold : (s.tasks i).inHand = some id) :
      id ≠ made.item.id := by
    obtain ⟨⟨capture, hcapture, rfl⟩, _⟩ := h.hands i id hhold
    exact hnew capture hcapture
  refine ⟨hsound, h.once, h.uploaded, ?_, ?_, ?_, ?_, ?_⟩
  · exact fun items hitems => hkeeps.lists (h.stored items hitems)
  · intro items hitems id hid huploaded
    refine exists_setTask (P := fun task => id ∈ task.done) (h.stale items hitems id hid huploaded) ?_
    rw [hdone]
    exact not_mem_nil
  · intro id hsome
    by_cases heq : id = made.item.id
    · refine .inr ⟨call, ?_⟩
      rw [setTask_tasks_self, hhand, heq]
    · have hold : (s.files id).isSome = true := by
        rw [← update_of_ne heq (some ciphertext) s.files]
        exact hsome
      refine (h.files id hold).imp_right fun hi => ?_
      refine exists_setTask (P := fun task => task.inHand = some id) hi ?_
      rw [hbefore]
      exact nofun
  · intro i id hi
    by_cases hcall : i = call
    · rw [hcall, setTask_tasks_self, hhand] at hi
      cases hi
      refine ⟨⟨made, mem_append_right _ mem_cons_self, rfl⟩, ?_, ?_⟩
      · exact fun capture hadded => hnew capture (h.sound.known capture hadded)
      · intro j hj
        by_contra hne
        rw [hcall] at hne
        rw [setTask_tasks_of_ne hne] at hj
        exact hothers hne hj rfl
    · rw [setTask_tasks_of_ne hcall] at hi
      obtain ⟨⟨capture, hcapture, heq⟩, hadded, honly⟩ := h.hands i id hi
      refine ⟨⟨capture, mem_append_left _ hcapture, heq⟩, hadded, ?_⟩
      intro j hj
      by_cases hj' : j = call
      · rw [hj', setTask_tasks_self, hhand] at hj
        exact absurd (some.inj hj).symm (hothers hcall hi)
      · rw [setTask_tasks_of_ne hj'] at hj
        exact honly j hj
  · apply forall_setTask
    · exact htidies
    · exact fun i _ => (h.tasks i).keep hkeeps fun _ _ hid => hid

theorem Tidy.exists (h : Tidy queue s) (htask : s.tasks call = .existsQueue load)
    (hsound : Sound queue (if s.queueFile.isSome then s.setTask call (.readQueue load) else s.loaded
      call load s.version [])) :
    Tidy queue (if s.queueFile.isSome then s.setTask call (.readQueue load)
      else s.loaded call load s.version []) := by
  revert hsound
  split
  next hsome =>
    intro hsound
    apply h.moveFrom htask hsound rfl rfl
    refine ⟨nofun, nofun, nofun, fun _ _ hnone => ?_⟩
    rw [hnone] at hsome
    cases hsome
  next hnone =>
    intro hsound
    have hstored : s.stored = some [] := by
      unfold Phone.stored
      rw [Option.not_isSome_iff_eq_none.mp hnone]
    apply h.loaded hsound (congrArg Task.inHand htask) (congrArg Task.done htask)
    · exact ⟨Nat.le_refl _, fun _ => rfl⟩
    · exact fun _ => hstored
    · exact fun _ => ⟨h.stored [] hstored, fun id hid => absurd hid not_mem_nil⟩

/-- Nobody else is syncing, so nothing that a sync finds has been uploaded. -/
theorem Tidy.read (h : Tidy queue s) (htask : s.tasks call = .readQueue load)
    (hfile : s.queueFile = some ciphertext)
    (hsound : Sound queue (s.setTask call (.key (.openQueue load s.version ciphertext)))) :
    Tidy queue (s.setTask call (.key (.openQueue load s.version ciphertext))) := by
  have hdone : (s.tasks call).done = [] := congrArg Task.done htask
  apply h.moveFrom htask hsound rfl rfl
  · refine ⟨nofun, ?_, nofun, nofun⟩
    · intro load' version' ciphertext' hl
      cases hl
      refine ⟨⟨Nat.le_refl _, fun _ => rfl⟩, fun _ => hfile, ?_⟩
      rintro rfl
      obtain ⟨items, hopens, _⟩ := h.sound.stored ciphertext hfile
      have hstored := stored_of_opens hfile hopens
      refine ⟨items, hopens, h.stored items hstored, ?_⟩
      intro id hid huploaded
      obtain ⟨i, hi⟩ := h.stale items hstored id hid huploaded
      have hdraining : (s.tasks i).isDraining = true := by
        unfold Task.done at hi
        cases hprogress : (s.tasks i).progress with
        | none =>
          rw [hprogress] at hi
          cases hi
        | some p => exact progress_isDraining hprogress
      rw [h.sound.single i call hdraining (by rw [htask]; rfl), hdone] at hi
      cases hi

/-- A task with nothing in hand leaves the others theirs. -/
theorem Tidy.hands_setTask (h : Tidy queue s) (hnone : task.inHand = none) {i : Nat} {id : String}
    (hi : ((s.setTask call task).tasks i).inHand = some id) :
    i ≠ call ∧ (s.tasks i).inHand = some id ∧
      ∀ j, ((s.setTask call task).tasks j).inHand = some id → j = i := by
  have hold {j : Nat} (hj : ((s.setTask call task).tasks j).inHand = some id) :
      j ≠ call ∧ (s.tasks j).inHand = some id := by
    by_cases hcall : j = call
    · rw [hcall, setTask_tasks_self, hnone] at hj
      cases hj
    · rw [setTask_tasks_of_ne hcall] at hj
      exact ⟨hcall, hj⟩
  obtain ⟨hne, hhand⟩ := hold hi
  exact ⟨hne, hhand, fun j hj => (h.hands i id hhand).2.2 j (hold hj).2⟩

/-- The queue is written with what was there and the new item. -/
theorem Tidy.saved_enqueue (h : Tidy queue s) {made : Capture Content}
    (htask : s.tasks call = .writeQueue version ciphertext items (.enqueue made))
    (hcurrent : version.writes = s.writes)
    (ht : t = { s with
      queueFile := some ciphertext, writes := s.writes + 1, added := s.added ++ [made] }.setTask
        call (.returned (.enqueued made.item)))
    (hsound : Sound queue t) : Tidy queue t := by
  have hhand : (s.tasks call).inHand = some made.item.id := congrArg Task.inHand htask
  obtain ⟨hcaptured, hfresh, honly⟩ := h.hands call _ hhand
  obtain ⟨old, hold, hitems⟩ :=
    ((h.tasks call).adding version items made (by rw [htask]; rfl)).current hcurrent
  have hholds := h.sound.tasks call
  rw [htask] at hholds
  have hstored : t.stored = some items := ht ▸ stored_of_opens rfl hholds.2.2
  have hids : ids items = ids old ++ [made.item.id] := by
    rw [hitems]
    exact map_append
  obtain ⟨hnodup, hlisted⟩ := h.stored old hold
  have hkeeps : Keeps s t := by
    subst ht
    refine ⟨fun _ hkey => hkey, fun _ hc => mem_append_left _ hc, fun _ _ hfile => hfile,
      fun _ hid => hid, .inr ⟨Nat.lt_succ_self _, ?_⟩⟩
    intro hnone
    cases hnone
  subst ht
  refine ⟨hsound, h.once, ?_, ?_, ?_, ?_, ?_, ?_⟩
  · intro id hid
    obtain ⟨capture, hcapture, heq⟩ := h.uploaded id hid
    exact ⟨capture, mem_append_left _ hcapture, heq⟩
  · intro items' hitems'
    obtain rfl := some.inj (hstored.symm.trans hitems')
    rw [hids]
    constructor
    · apply nodup_append.mpr
      refine ⟨hnodup, pairwise_singleton _ _, ?_⟩
      rintro id hid _ hlast rfl
      obtain ⟨capture, hcapture, heq⟩ := hlisted id hid
      exact hfresh capture hcapture (heq.trans (mem_singleton.mp hlast))
    · intro id hid
      rcases mem_append.mp hid with hbefore | hlast
      · obtain ⟨capture, hcapture, heq⟩ := hlisted id hbefore
        exact ⟨capture, mem_append_left _ hcapture, heq⟩
      · exact ⟨made, mem_append_right _ mem_cons_self, (mem_singleton.mp hlast).symm⟩
  · intro items' hitems' id hid huploaded
    obtain rfl := some.inj (hstored.symm.trans hitems')
    rw [hids] at hid
    rcases mem_append.mp hid with hbefore | hlast
    · refine exists_setTask (P := fun task => id ∈ task.done) (h.stale old hold id hbefore huploaded) ?_
      rw [htask]
      exact not_mem_nil
    · obtain ⟨capture, hcapture, heq⟩ := h.uploaded id huploaded
      exact absurd (heq.trans (mem_singleton.mp hlast)) (hfresh capture hcapture)
  · intro id hsome
    rcases h.files id hsome with ⟨items', hitems', hid⟩ | ⟨i, hi⟩
    · obtain rfl := some.inj (hold.symm.trans hitems')
      refine .inl ⟨items, hstored, ?_⟩
      rw [hids]
      exact mem_append_left _ hid
    · by_cases hcall : i = call
      · rw [hcall, hhand] at hi
        refine .inl ⟨items, hstored, ?_⟩
        rw [hids, some.inj hi]
        exact mem_append_right _ mem_cons_self
      · refine .inr ⟨i, ?_⟩
        rw [setTask_tasks_of_ne hcall]
        exact hi
  · intro i id hi
    obtain ⟨hcall, hhold, hone⟩ := h.hands_setTask rfl hi
    obtain ⟨hcap, hadded, _⟩ := h.hands i id hhold
    refine ⟨hcap, ?_, hone⟩
    intro capture hcapture
    rcases mem_append.mp hcapture with hbefore | hlast
    · exact hadded capture hbefore
    · rintro rfl
      rw [mem_singleton.mp hlast] at hhold
      exact hcall (honly i hhold)
  · apply forall_setTask
    · exact tidies_of_none rfl rfl rfl nofun
    · exact fun i _ => (h.tasks i).keep hkeeps fun _ _ hid => hid

/-- The queue is written without what the sync has uploaded. -/
theorem Tidy.saved_sync (h : Tidy queue s) {done : List String}
    (htask : s.tasks call = .writeQueue version ciphertext items (.sync done))
    (hcurrent : version.writes = s.writes)
    (ht : t = { s with
      queueFile := some ciphertext, writes := s.writes + 1, draining := false }.setTask call
        (.returned (.synced done.length items.length)))
    (hsound : Sound queue t) : Tidy queue t := by
  have hproceeds := (h.tasks call).progress ⟨version, ids items, done, none⟩ (by rw [htask]; rfl)
  obtain ⟨old, hold, hperm⟩ := hproceeds.current hcurrent
  have hholds := h.sound.tasks call
  rw [htask] at hholds
  have hstored : t.stored = some items := ht ▸ stored_of_opens rfl hholds.2.2
  have hkeeps : Keeps s t := by
    subst ht
    refine ⟨fun _ hkey => hkey, fun _ hc => hc, fun _ _ hfile => hfile, fun _ hid => hid,
      .inr ⟨Nat.lt_succ_self _, ?_⟩⟩
    intro hnone
    cases hnone
  subst ht
  refine ⟨hsound, h.once, h.uploaded, ?_, ?_, ?_, ?_, ?_⟩
  · intro items' hitems'
    obtain rfl := some.inj (hstored.symm.trans hitems')
    exact hproceeds.lists
  · intro items' hitems' id hid huploaded
    obtain rfl := some.inj (hstored.symm.trans hitems')
    exact absurd huploaded (hproceeds.fresh id hid)
  · intro id hsome
    rcases h.files id hsome with ⟨items', hitems', hid⟩ | hi
    · obtain rfl := some.inj (hold.symm.trans hitems')
      rcases mem_append.mp (hperm.mem_iff.mp hid) with hdone | hrest
      · rcases (hproceeds.done id hdone).2 with hnone | hunlinking
        · change (s.files id).isSome = true at hsome
          rw [hnone] at hsome
          cases hsome
        · cases hunlinking
      · exact .inl ⟨items, hstored, hrest⟩
    · refine .inr (exists_setTask (P := fun task => task.inHand = some id) hi ?_)
      rw [htask]
      exact nofun
  · intro i id hi
    obtain ⟨_, hhold, hone⟩ := h.hands_setTask rfl hi
    obtain ⟨hcap, hadded, _⟩ := h.hands i id hhold
    exact ⟨hcap, hadded, hone⟩
  · apply forall_setTask
    · exact tidies_of_none rfl rfl rfl nofun
    · exact fun i _ => (h.tasks i).keep hkeeps fun _ _ hid => hid

/-- The item is uploaded for the first time, and its ciphertext goes next. -/
theorem Tidy.completed (h : Tidy queue s) (hfiles : queue.files.isSome = true) {stage : Stage}
    (htask : s.tasks call = .upload uploads item stage) :
    Tidy queue (s.completed queue call uploads item) := by
  have hsound := h.sound.completed htask
  unfold Phone.completed at hsound ⊢
  rw [hfiles] at hsound ⊢
  simp only [if_true] at hsound ⊢
  have hproceeds := (h.tasks call).progress (uploads.progressWith item) (by rw [htask]; rfl)
  have hfresh := hproceeds.fresh item.id mem_cons_self
  have hdone : (s.tasks call).done = uploads.done := congrArg Task.done htask
  have hdraining : (s.tasks call).isDraining = true := congrArg Task.isDraining htask
  generalize hgone : ({ uploads with done := uploads.done ++ [item.id] } : Uploads Content) = gone
    at hsound ⊢
  have hkeeps : Keeps s ({ s with uploaded := s.uploaded ++ [item.id] }.setTask call
      (.unlinkFile gone item)) :=
    ⟨fun _ hkey => hkey, fun _ hc => hc, fun _ _ hfile => hfile,
      fun _ hid => mem_append_left _ hid, .inl ⟨rfl, rfl, rfl⟩⟩
  refine ⟨hsound, ?_, ?_, ?_, ?_, ?_, ?_, ?_⟩
  · apply nodup_append.mpr
    refine ⟨h.once, pairwise_singleton _ _, ?_⟩
    rintro id hid _ hlast rfl
    exact hfresh (mem_singleton.mp hlast ▸ hid)
  · intro id hid
    rcases mem_append.mp hid with hbefore | hlast
    · exact h.uploaded id hbefore
    · rw [mem_singleton.mp hlast]
      exact hproceeds.lists.2 item.id mem_cons_self
  · exact fun items hitems => hkeeps.lists (h.stored items hitems)
  · intro items hitems id hid huploaded
    have hcall : id ∈ gone.done → ∃ i, id ∈
        (({ s with uploaded := s.uploaded ++ [item.id] }.setTask call
          (.unlinkFile gone item)).tasks i).done := by
      intro hgoneId
      refine ⟨call, ?_⟩
      rw [setTask_tasks_self]
      exact hgoneId
    rcases mem_append.mp huploaded with hbefore | hlast
    · obtain ⟨i, hi⟩ := h.stale items hitems id hid hbefore
      by_cases hi' : i = call
      · apply hcall
        rw [hi', hdone] at hi
        rw [← hgone]
        exact mem_append_left _ hi
      · refine ⟨i, ?_⟩
        rw [setTask_tasks_of_ne hi']
        exact hi
    · apply hcall
      rw [← hgone]
      exact mem_append_right _ hlast
  · intro id hsome
    refine (h.files id hsome).imp_right fun hi => ?_
    refine exists_setTask (P := fun task => task.inHand = some id) hi ?_
    rw [htask]
    exact nofun
  · intro i id hi
    obtain ⟨_, hhold, hone⟩ := h.hands_setTask rfl hi
    obtain ⟨hcap, hadded, _⟩ := h.hands i id hhold
    exact ⟨hcap, hadded, hone⟩
  · apply forall_setTask
    · refine tidies_of_progress rfl rfl rfl nofun ?_
      subst hgone
      obtain ⟨hnodup, hlisted⟩ := hproceeds.lists
      obtain ⟨hhead, hrest⟩ := nodup_cons.mp hnodup
      refine ⟨hproceeds.dated, ⟨hrest, fun id hid => hlisted id (mem_cons_of_mem _ hid)⟩, ?_,
        ?_, ?_⟩
      · intro id hid huploaded
        rcases mem_append.mp huploaded with hbefore | hlast
        · exact hproceeds.fresh id (mem_cons_of_mem _ hid) hbefore
        · exact hhead (mem_singleton.mp hlast ▸ hid)
      · intro id hid
        rcases mem_append.mp hid with hbefore | hlast
        · obtain ⟨huploaded, hnone⟩ := hproceeds.done id hbefore
          refine ⟨mem_append_left _ huploaded, .inl ?_⟩
          rcases hnone with hnone | hunlinking
          · exact hnone
          · cases hunlinking
        · rw [mem_singleton.mp hlast]
          exact ⟨mem_append_right _ mem_cons_self, .inr rfl⟩
      · intro heq
        obtain ⟨old, hold, hperm⟩ := hproceeds.current heq
        refine ⟨old, hold, ?_⟩
        have hassoc : uploads.done ++ [item.id] ++ (ids uploads.todo ++ ids uploads.remaining) =
            uploads.done ++ (item.id :: (ids uploads.todo ++ ids uploads.remaining)) :=
          append_assoc _ _ _
        exact hassoc ▸ hperm
    · intro i hcall
      apply (h.tasks i).keep hkeeps
      intro hi
      exact absurd (h.sound.single i call hi hdraining) hcall

/-- The ciphertext of an item that is uploaded is deleted. -/
theorem Tidy.unlink (h : Tidy queue s) (htask : s.tasks call = .unlinkFile uploads item)
    (ht : t = { s with files := update s.files item.id none }.setTask call (.loop uploads))
    (hsound : Sound queue t) : Tidy queue t := by
  have hproceeds := (h.tasks call).progress { uploads.progress with unlinking := some item.id }
    (by rw [htask]; rfl)
  have hgone : ∀ id, id = item.id ∨ s.files id = none → update s.files item.id none id = none := by
    intro id hid
    by_cases heq : id = item.id
    · rw [heq, update_self]
    · rw [update_of_ne heq]
      exact hid.resolve_left heq
  subst ht
  apply h.moveFiles (fun id hnone => hgone id (.inr hnone)) hsound
  · rw [htask]
    rfl
  · rw [htask]
    rfl
  · refine tidies_of_progress rfl rfl rfl nofun ?_
    refine ⟨hproceeds.dated, hproceeds.lists, hproceeds.fresh, ?_, hproceeds.current⟩
    intro id hid
    obtain ⟨huploaded, hnone⟩ := hproceeds.done id hid
    refine ⟨huploaded, .inl (hgone id ?_)⟩
    exact hnone.symm.imp_left fun hunlinking => (some.inj hunlinking).symm

theorem Tidy.next (h : Tidy queue s) {uploads : Uploads Content}
    (htask : s.tasks call = .loop uploads) : Tidy queue (s.next queue call answer uploads) := by
  have hsound := @Sound.next _ _ _ _ _ _ answer h.sound _ htask
  have hproceeds := (h.tasks call).progress uploads.progress (by rw [htask]; rfl)
  have hhand : (s.tasks call).inHand = none := congrArg Task.inHand htask
  have hdone : (s.tasks call).done = uploads.done := congrArg Task.done htask
  obtain ⟨version, todo, remaining, done⟩ := uploads
  cases todo with
  | nil =>
    apply h.move hsound
    · exact hhand.symm
    · exact hdone.symm
    · exact tidies_of_progress rfl rfl rfl nofun hproceeds
  | cons item todo =>
    revert hsound
    unfold Phone.next
    dsimp only
    split
    next =>
      intro hsound
      apply h.move hsound
      · exact hhand.symm
      · exact hdone.symm
      · refine tidies_of_progress rfl rfl rfl nofun ?_
        apply hproceeds.perm
        change (item.id :: (ids todo ++ ids remaining)).Perm
          (ids todo ++ ids (remaining ++ [item]))
        rw [ids, ids, ids, map_append, ← append_assoc]
        exact (perm_append_singleton _ _).symm
    next =>
      intro hsound
      apply h.move hsound
      · rw [hhand]
        split <;> rfl
      · rw [hdone]
        split <;> rfl
      · split
        · exact tidies_of_progress rfl rfl rfl nofun hproceeds
        · exact tidies_of_progress rfl rfl rfl nofun hproceeds

/-! ### Steps -/

/-- A queue that is current has everything that was added. -/
theorem Tidy.writeQueue_version (h : Tidy queue s) {save : Save Content}
    (htask : s.tasks call = .writeQueue version ciphertext items save) : s.dated version := by
  have htidies := h.tasks call
  rw [htask] at htidies
  cases save with
  | enqueue capture => exact (htidies.adding version items capture rfl).dated
  | sync done => exact (htidies.progress _ rfl).dated

theorem Tidy.apart (h : Tidy queue s) {a : PhoneStep Input} (hcareful : s.careful a) :
    s.apart a := by
  cases a with
  | advance call answer =>
    intro hok
    simp only [Phone.careful, hok, if_true] at hcareful
    cases htask : s.tasks call with
    | network | setKey =>
      rw [htask] at hcareful
      exact hcareful
    | writeQueue version ciphertext items save =>
      rw [htask] at hcareful
      have hadded := (h.writeQueue_version htask).2 hcareful
      change ∀ capture ∈ s.added.drop version.added, _
      rw [hadded, drop_length]
      intro capture hcapture
      cases hcapture
    | _ => exact True.intro
  | _ => exact True.intro

theorem Tidy.perform (h : Tidy queue s) (hfiles : queue.files.isSome = true)
    (hok : answer.ok = true) (hcareful : s.careful (.advance call answer))
    (ht : s.perform queue call answer = some t) : Tidy queue t := by
  have hsound := h.sound.perform hok (h.apart hcareful) ht
  simp only [Phone.careful, hok, if_true] at hcareful
  unfold Phone.perform at ht
  split at ht
  case h_1 | h_2 | h_3 | h_4 | h_5 => cases ht
  case h_6 input htask =>
    split at ht
    next =>
      cases ht
      apply h.move hsound
      · rw [htask]
        split <;> rfl
      · rw [htask]
        split <;> rfl
      · split
        · exact tidies_of_none rfl rfl rfl nofun
        · exact tidies_of_none rfl rfl rfl nofun
    next => cases ht
  case h_7 input contentLength htask =>
    cases ht
    apply h.moveFrom htask hsound rfl rfl
    exact tidies_of_none rfl rfl rfl nofun
  case h_8 job htask =>
    cases ht
    revert hsound
    split
    next key hkey => exact h.withKey hkey (.inl htask)
    next =>
      intro hsound
      have htidies := h.tasks call
      rw [htask] at htidies
      apply h.move hsound
      · rw [htask]
        cases job with
        | _ => rfl
      · rw [htask]
        cases job with
        | _ => rfl
      · cases job with
        | sealFile => exact tidies_of_none rfl rfl rfl nofun
        | openQueue | openFile | sealQueue =>
          exact ⟨htidies.progress, htidies.loading, htidies.adding, nofun⟩
  case h_9 fresh job htask =>
    rw [htask] at hcareful
    cases ht
    exact (h.store_key (isNone_iff_eq_none.mp hcareful) fresh).withKey rfl
      (.inr ⟨fresh, htask⟩) hsound
  case h_10 input contentLength original ciphertext htask =>
    split at ht
    next => cases ht
    next hnew =>
      cases ht
      revert hsound
      split
      all_goals
        intro hsound
        refine h.make (Phone.capture answer (queue.content input contentLength original
          answer.idempotencyKey) original) hnew rfl hsound ?_ ?_ rfl ?_
        · exact congrArg Task.inHand htask
        · exact congrArg Task.done htask
        · exact tidies_of_none rfl rfl rfl nofun
  case h_11 load htask =>
    cases ht
    exact h.exists htask hsound
  case h_12 load htask =>
    cases ht
    revert hsound
    split
    next ciphertext hfile => exact h.read htask hfile
    next hnone => exact absurd hnone ((h.tasks call).reading load htask)
  case h_13 version ciphertext items save htask =>
    rw [htask] at hcareful
    cases ht
    cases save with
    | enqueue made => exact h.saved_enqueue htask hcareful rfl hsound
    | sync done => exact h.saved_sync htask hcareful rfl hsound
  case h_14 htask =>
    cases ht
    revert hsound
    split
    next =>
      intro hsound
      apply h.raise.move hsound
      · change _ = (s.tasks call).inHand
        rw [htask]
        rfl
      · change _ = (s.tasks call).done
        rw [htask]
        rfl
      · exact tidies_of_none rfl rfl rfl nofun
    next =>
      intro hsound
      apply h.moveFrom htask hsound rfl rfl
      exact tidies_of_none rfl rfl rfl nofun
  case h_15 uploads item htask =>
    cases ht
    have htidies := h.tasks call
    rw [htask] at htidies
    revert hsound
    split
    next =>
      intro hsound
      apply h.moveFrom htask hsound rfl rfl
      exact tidies_of_progress rfl rfl rfl nofun (htidies.progress _ rfl)
    next => exact fun _ => h.throws none (.inl (by rw [htask]; rfl))
  case h_16 | h_17 =>
    rename_i uploads item htask
    cases ht
    have htidies := h.tasks call
    rw [htask] at htidies
    apply h.moveFrom htask hsound rfl rfl
    exact tidies_of_progress rfl rfl rfl nofun (htidies.progress _ rfl)
  case h_18 uploads item htask =>
    cases ht
    exact h.completed hfiles htask

theorem of_mayThrow (h : task.mayThrow = true) (hplain : ∀ made, task ≠ .unlinkPlain made) :
    task.uploading.isSome = true ∨ task.unsaved = false := by
  unfold Task.mayThrow at h
  split at h
  next made => exact absurd rfl (hplain made)
  next => cases h
  next => simpa using h

theorem isIdle_isResting (h : task.isIdle = true) : task.isResting = true := by
  cases task with
  | idle => rfl
  | _ => cases h

theorem Tidy.advance (h : Tidy queue s) (hfiles : queue.files.isSome = true)
    (hcareful : s.careful (.advance call answer))
    (ht : s.advance queue call answer = some t) : Tidy queue t := by
  have hsound := h.sound.advance (h.apart hcareful) ht
  unfold Phone.advance at ht
  split at ht
  next => cases ht
  next => cases ht
  next uploads htask =>
    cases ht
    exact h.next htask
  next made htask =>
    cases ht
    apply h.moveFrom htask hsound rfl rfl
    exact tidies_of_none rfl rfl rfl nofun
  next uploads item htask =>
    have hok : answer.ok = true := by
      by_contra hfailed
      rw [Phone.careful, if_neg hfailed, htask] at hcareful
      cases hcareful
    rw [hok] at ht
    cases ht
    exact h.unlink htask rfl hsound
  next hplain _ =>
    split at ht
    next hok => exact h.perform hfiles hok hcareful ht
    next hfailed =>
      cases ht
      rw [Phone.careful, if_neg hfailed] at hcareful
      exact h.throws _ (of_mayThrow hcareful hplain)

theorem Tidy.step (h : Tidy queue s) (hfiles : queue.files.isSome = true) {a : PhoneStep Input}
    (hcareful : s.careful a) (ht : phoneStep queue s a = some t) : Tidy queue t := by
  have hsound := h.sound.step (h.apart hcareful) ht
  cases a with
  | enqueue call input answer =>
    simp only [phoneStep] at ht
    split at ht
    next hidle =>
      unfold Phone.enqueue at ht
      split at ht
      next =>
        cases ht
        obtain ⟨hhand, hdone⟩ := isResting_unsaved (isIdle_isResting hidle)
        apply h.move hsound
        · exact hhand.symm
        · exact hdone.symm
        · exact tidies_of_none rfl rfl rfl (by simp)
      next hnone =>
        rw [hnone] at hfiles
        cases hfiles
    next => cases ht
  | sync call =>
    simp only [phoneStep] at ht
    split at ht
    next hidle =>
      cases ht
      obtain ⟨hhand, hdone⟩ := isResting_unsaved (isIdle_isResting hidle)
      apply h.move hsound
      · rw [hhand]
        split <;> rfl
      · rw [hdone]
        split <;> rfl
      · split
        · exact tidies_of_none rfl rfl rfl (by simp)
        · exact tidies_of_none rfl rfl rfl (by simp)
    next => cases ht
  | advance call answer => exact h.advance hfiles hcareful ht
  | kill =>
    cases ht
    refine ⟨hsound, h.once, h.uploaded, h.stored, ?_, ?_, ?_, ?_⟩
    · intro items hitems id hid huploaded
      obtain ⟨i, hi⟩ := h.stale items hitems id hid huploaded
      rw [(unsaved_eq_false (hcareful i)).2] at hi
      cases hi
    · intro id hsome
      rcases h.files id hsome with hstored | ⟨i, hi⟩
      · exact .inl hstored
      · rw [(unsaved_eq_false (hcareful i)).1] at hi
        cases hi
    · intro i id hi
      cases hi
    · exact fun i => tidies_of_none rfl rfl rfl (by rintro _ ⟨⟩)

theorem tidy_empty : Tidy queue (Phone.empty : Phone cipher Input Content) := by
  refine ⟨sound_empty, nodup_nil, ?_, ?_, ?_, ?_, ?_, ?_⟩
  · intro id hid
    cases hid
  · intro items hitems
    cases hitems
    exact ⟨nodup_nil, fun id hid => absurd hid not_mem_nil⟩
  · intro items hitems id _ huploaded
    cases huploaded
  · intro id hsome
    cases hsome
  · intro i id hi
    cases hi
  · exact fun i => tidies_of_none rfl rfl rfl nofun

/-- Where nothing is cut off between two of its accesses, every stored item can be uploaded
after a start, none is uploaded twice, and every ciphertext belongs to an item. -/
theorem always_restartable (cipher : Cipher) (queue : SecureQueue Input Content)
    (hfiles : queue.files.isSome = true) (labels : List (PhoneStep Input))
    (hcareful : Meets (phoneStep queue) (fun (s : Phone cipher Input Content) a => s.careful a)
      .empty labels) :
    Always (phoneStep queue) (Restartable queue) (.empty : Phone cipher Input Content) labels :=
  (always_of_meets (fun _ _ _ h hcareful ht => Tidy.step h hfiles hcareful ht) tidy_empty
    hcareful).mono fun _ h => h.restartable hfiles

end Queue

/-! ### Kills -/

section Survival

variable {cipher : Cipher} {Input Content : Type} (s : Phone cipher Input Content)

/-- The condition, where nothing is killed. -/
def Phone.survives : PhoneStep Input → Prop
  | .kill => False
  | .advance call answer => s.careful (.advance call answer)
  | _ => True

instance (answer : Answer) : DecidablePred (s.permits answer)
  | .network => inferInstanceAs (Decidable (answer.connected = true → s.draining = false))
  | .setKey _ _ => inferInstanceAs (Decidable (s.keychain.isNone = true))
  | .writeQueue version _ _ _ => inferInstanceAs (Decidable (version.writes = s.writes))
  | .idle | .stat _ | .readPlain _ _ | .key _ | .writeFile _ _ _ _ | .unlinkPlain _
  | .existsQueue _ | .readQueue _ | .loop _ | .readFile _ _ | .upload _ _ _ | .unlinkFile _ _
  | .returned _ => instDecidableTrue

instance : DecidablePred s.survives
  | .kill => instDecidableFalse
  | .advance call answer =>
    inferInstanceAs (Decidable (if answer.ok = true then s.permits answer (s.tasks call)
      else (s.tasks call).mayThrow = true))
  | .enqueue _ _ _ | .sync _ => instDecidableTrue

variable {s}

theorem survives_careful {a : PhoneStep Input} (h : s.survives a) : s.careful a := by
  cases a with
  | advance call answer => exact h
  | kill => cases h
  | _ => exact True.intro

end Survival

/-- A start, a photograph and its upload. -/
theorem restartable_uploaded :
    Always (phoneStep photoQueue) (Restartable photoQueue)
      (.empty : Phone boxCipher EvidenceInput EvidenceContent)
      (.kill :: (loadRun 0 "a" 6 ++ saveRun 0 ++ syncRun 1)) := by
  apply always_restartable boxCipher photoQueue rfl
  apply Meets.cons rfl
  · exact fun _ => rfl
  · have hsurvives : Meets (phoneStep photoQueue) (fun s a => s.survives a)
        (Phone.empty : Phone boxCipher EvidenceInput EvidenceContent)
        (loadRun 0 "a" 6 ++ saveRun 0 ++ syncRun 1) := by
      decide
    exact hsurvives.mono fun _ _ => survives_careful

/-- The app is killed when the server has the item and the queue does not know, or when the
ciphertext is written and the queue is not. -/
theorem halves_remain :
    (¬ ∀ (labels : List (PhoneStep EvidenceInput)), Always (phoneStep photoQueue)
      (fun s : Phone boxCipher EvidenceInput EvidenceContent => s.uploaded.Nodup) .empty labels) ∧
    ¬ ∀ (labels : List (PhoneStep EvidenceInput)), Always (phoneStep photoQueue)
      (fun s : Phone boxCipher EvidenceInput EvidenceContent => s.atRest → ∀ id,
        (s.files id).isSome = true → ∃ items, s.stored = some items ∧ id ∈ ids items) .empty
          labels := by
  constructor
  · intro hall
    have hrun : (run (phoneStep photoQueue) (.empty : Phone boxCipher EvidenceInput EvidenceContent)
        (loadRun 0 "a" 6 ++ saveRun 0 ++ (syncRun 1).take 11 ++ .kill ::
          (syncRun 2).take 11)).map (fun s => s.uploaded) = some ["a", "a"] := by
      decide
    obtain ⟨s, hs, hview⟩ := map_eq_some_iff.mp hrun
    have honce := (hall _).finish hs
    rw [hview] at honce
    exact absurd honce (by decide)
  · intro hall
    have hrun : (run (phoneStep photoQueue) (.empty : Phone boxCipher EvidenceInput EvidenceContent)
        (loadRun 0 "a" 5)).map (fun s => ((s.files "a").isSome, s.queueFile.isNone)) =
        some (true, true) := by
      decide
    obtain ⟨s, hs, hview⟩ := map_eq_some_iff.mp hrun
    obtain ⟨hfile, hqueue⟩ := Prod.mk.inj hview
    have hkilled : run (phoneStep photoQueue)
        (.empty : Phone boxCipher EvidenceInput EvidenceContent) (loadRun 0 "a" 5 ++ [.kill]) =
        some s.kill := (run_append_iff _ _ _ _).mpr ⟨s, hs, rfl⟩
    obtain ⟨items, hstored, hid⟩ := (hall _).finish hkilled (fun _ => rfl) "a" hfile
    have hnone : s.kill.stored = some [] := by
      have hqueue : s.kill.queueFile = none := isNone_iff_eq_none.mp hqueue
      unfold Phone.stored
      rw [hqueue]
    rw [hnone] at hstored
    rw [← some.inj hstored] at hid
    cases hid

end Bis.Secure
