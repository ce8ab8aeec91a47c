import Bis.Archive.Consistency
import Bis.Archive.Worker

/-!
What a step can do to the tables. Each case has the function that has been carried out and
where the worker stood; the tables stay consistent in every run.
-/

namespace Bis.Archive

open Bis.Relation Bis.Transition Option

/-- The columns that a writer of transactions changes. -/
def Label.change : Label → Option ((Transaction → Bool) × (Values → Values))
  | .update id values => some (fun tx => tx.id == id, fun _ => values)
  | .freezeAccount accountId =>
    some (System.isBlockedBy accountId, fun v => { v with status := .blocked })
  | .reverse tenantId tx _ _ =>
    some (System.isReversed tenantId tx.txRef, fun v => { v with status := .reversed })
  | _ => none

/-- Recovery gives the rows of the batch back. -/
def Batch.isReleased (batch : Batch) (stat : Stat) (expired : Bool) : Bool :=
  !recoveryKeyDisposition batch.status batch.encryptionKeyId expired &&
    (batch.status == .planned || (batch.status == .uploading && stat == .missing))

/-- Where the worker can go without a change to the tables or the bucket. -/
inductive Move (config : Config) (s : System) (a : Label) : Worker → Prop where
  | stop : Move config s a .idle
  | fail (batch : ArchiveBatch) : Move config s a (.failing batch)
  | start : Move config s a (.recovering s.db.inFlight)
  | next (batch : Batch) (rest : List Batch) (hworker : s.worker = .recovering (batch :: rest)) :
      Move config s a (.recovering rest)
  | write (batch : ArchiveBatch) (hlabel : a = .writeParquet true)
      (hworker : s.worker = .uploading batch) :
      Move config s a
        (.written batch ((s.db.readBatch batch.id).map fun tx => tx.record config batch.id))

inductive Effect (config : Config) (s : System) (a : Label) (t : System) : Prop where
  | moved (worker : Worker) (hmove : Move config s a worker) (ht : t = { s with worker })
  | stored (batch : ArchiveBatch) (records : List TransactionArchiveV1) (outcome : Outcome)
      (hworker : s.worker = .written batch records) (ht : t = s.uploadFile batch records outcome)
  | manifested (batch : ArchiveBatch) (records : List TransactionArchiveV1) (outcome : Outcome)
      (hworker : s.worker = .uploaded batch records)
      (ht : t = s.uploadManifest batch records outcome)
  | noted (warmRuns : List (List Nat)) (reversals : List Transaction)
      (ht : t = { s with warmRuns, reversals })
  | values (p : Transaction → Bool) (f : Values → Values) (hchange : a.change = some (p, f))
      (ht : t = { s with db := s.db.updateValues p f })
  | inserted (tenantId : Option Nat) (txRef type : String) (values : Values) (createdAt : Nat)
      (ht : t = { s with db := s.db.insertTransaction tenantId txRef type values createdAt })
  | reversed (p : Transaction → Bool) (f : Values → Values) (hchange : a.change = some (p, f))
      (tenantId : Option Nat) (txRef type : String) (values : Values) (createdAt : Nat)
      (reversals : List Transaction)
      (ht : t = { s with
        db := (s.db.updateValues p f).insertTransaction tenantId txRef type values createdAt
        reversals })
  | planned (now : Nat) (skipped : List Nat) (worker : Worker) (db : Database)
      (hworker : s.worker = .recovering [])
      (hplan : s.db.planBatch (s.db.candidates config now skipped) = some db)
      (hnext : worker = .idle ∨
        worker = .planned ⟨s.db.nextBatch, (s.db.candidates config now skipped).length⟩)
      (ht : t = { s with db, worker })
  | uploading (batch : ArchiveBatch) (key : String) (worker : Worker) (db : Database)
      (hworker : s.worker = .planned batch) (hmark : s.db.markUploading batch.id key = some db)
      (hnext : worker = .idle ∨ worker = .uploading batch) (ht : t = { s with db, worker })
  | quarantined (batch : Batch) (rest : List Batch) (worker : Worker) (db : Database)
      (hworker : s.worker = .recovering (batch :: rest))
      (hquarantine : s.db.quarantineBatch batch.id = some db)
      (hnext : worker = .idle ∨ worker = .recovering rest) (ht : t = { s with db, worker })
  | released (batch : Batch) (rest : List Batch) (worker : Worker) (db : Database) (stat : Stat)
      (expired : Bool) (outcome : Outcome) (hlabel : a = .recover stat expired outcome)
      (hstat : stat = .missing → s.hasObject batch.id = false)
      (hreleases : batch.isReleased stat expired = true) (hdone : outcome.done = true)
      (hworker : s.worker = .recovering (batch :: rest))
      (hrelease : s.db.releaseUnuploadedBatch batch.id = some db)
      (hnext : worker = .idle ∨ worker = .recovering rest)
      (ht : t = { s with db, worker, released := s.released ++ [batch.id] })
  | committed (batch : ArchiveBatch) (records : List TransactionArchiveV1) (worker : Worker)
      (db : Database) (hworker : s.worker = .manifested batch records)
      (hcommit : s.db.commitVerified batch.id batch.rowCount = some db)
      (hnext : worker = .idle ∨ worker = .failing batch)
      (ht : t = { s with
        db
        worker
        commits := s.commits ++
          [⟨batch.id, s.db.transactions.filter (Database.isMarkedBy batch.id)⟩] })
  | failed (batch : ArchiveBatch) (hlabel : a = .markFailed true)
      (hworker : s.worker = .failing batch)
      (ht : t = { s with db := s.db.markFailed batch.id, worker := .idle })
  | warmed (run : Nat) (ids : List Nat) (hlabel : a = .markWarm run true)
      (hrun : s.warmRuns[run]? = some ids) (warmRuns : List (List Nat))
      (ht : t = { s with db := s.db.markWarm (ids.take warmChunk), warmRuns })

variable {config : Config} {s t : System} {a : Label}

/-- A statement that is carried out, whatever the worker hears of it. -/
theorem execute_done {outcome : Outcome} {after : Option Database} {next : Worker} {db : Database}
    (hafter : after = some db) (hdone : outcome.done = true) :
    ∃ worker, (worker = .idle ∨ worker = next) ∧
      s.execute outcome after next = { s with db, worker } := by
  subst hafter
  cases outcome with
  | ok => exact ⟨next, .inr rfl, rfl⟩
  | error done =>
    obtain rfl : done = true := hdone
    exact ⟨.idle, .inl rfl, rfl⟩

theorem execute_undone {outcome : Outcome} {after : Option Database} (next : Worker)
    (hundone : after = none ∨ outcome.done = false) :
    s.execute outcome after next = { s with worker := .idle } := by
  cases after with
  | none => rfl
  | some db =>
    have hdone := hundone.resolve_left (some_ne_none db)
    cases outcome with
    | ok => cases hdone
    | error done =>
      obtain rfl : done = false := hdone
      rfl

theorem execute_cases (outcome : Outcome) (after : Option Database) (next : Worker) :
    s.execute outcome after next = { s with worker := .idle } ∨
      ∃ db worker, after = some db ∧ (worker = .idle ∨ worker = next) ∧
        s.execute outcome after next = { s with db, worker } := by
  rcases hafter : after with _ | db
  · exact .inl (execute_undone next (.inl rfl))
  · cases hdone : outcome.done with
    | false => exact .inl (execute_undone next (.inr hdone))
    | true =>
      obtain ⟨worker, hnext, h⟩ := @execute_done s outcome _ next db rfl hdone
      exact .inr ⟨db, worker, rfl, hnext, h⟩

/-- The cycle ends. -/
theorem stopped (ht : t = { s with worker := .idle }) : Effect config s a t :=
  .moved .idle .stop ht

variable {db : Database}

theorem releaseUnuploadedBatch_isSome {batch : Nat}
    (hin : db.batchIn batch [.planned, .uploading] = true) :
    ∃ after, db.releaseUnuploadedBatch batch = some after :=
  ⟨_, if_pos hin⟩

theorem releaseUnuploadedBatch_none {batch : Nat}
    (hin : ¬ db.batchIn batch [.planned, .uploading] = true) :
    db.releaseUnuploadedBatch batch = none :=
  if_neg hin

theorem recover_effect {batch : Batch} {rest : List Batch} {stat : Stat} {expired : Bool}
    {outcome : Outcome} (hworker : s.worker = .recovering (batch :: rest))
    (hstat : stat = .missing → s.hasObject batch.id = false) :
    Effect config s (.recover stat expired outcome)
      (s.recover batch rest stat expired outcome) := by
  have hquarantine : Effect config s (.recover stat expired outcome)
      (s.execute outcome (s.db.quarantineBatch batch.id) (.recovering rest)) := by
    rcases @execute_cases s outcome (s.db.quarantineBatch batch.id) (.recovering rest) with
      h | ⟨db, worker, hdb, hnext, h⟩
    · exact stopped h
    · exact .quarantined batch rest worker db hworker hdb hnext h
  have hrelease (hreleases : batch.isReleased stat expired = true) :
      Effect config s (.recover stat expired outcome)
        (if outcome.done && s.db.batchIn batch.id [.planned, .uploading] then
          { s.execute outcome (s.db.releaseUnuploadedBatch batch.id) (.recovering rest) with
            released := s.released ++ [batch.id] }
        else s.execute outcome (s.db.releaseUnuploadedBatch batch.id) (.recovering rest)) := by
    split
    next hcond =>
      obtain ⟨hdone, hin⟩ := Bool.and_eq_true_iff.mp hcond
      obtain ⟨db, hdb⟩ := releaseUnuploadedBatch_isSome hin
      obtain ⟨worker, hnext, h⟩ := @execute_done s outcome _ (.recovering rest) db hdb hdone
      rw [h]
      exact .released batch rest worker db stat expired outcome rfl hstat hreleases hdone hworker
        hdb hnext rfl
    next hcond =>
      have hundone : s.db.releaseUnuploadedBatch batch.id = none ∨ outcome.done = false := by
        cases hdone : outcome.done with
        | false => exact .inr rfl
        | true =>
          rw [hdone, Bool.true_and] at hcond
          exact .inl (releaseUnuploadedBatch_none hcond)
      exact stopped (execute_undone (.recovering rest) hundone)
  unfold System.recover
  dsimp only
  split
  next => exact hquarantine
  next hkey =>
    have hkey := Bool.eq_false_iff.mpr hkey
    split
    next hstatus =>
      apply hrelease
      rw [Batch.isReleased, hkey, hstatus]
      rfl
    next hstatus =>
      apply hrelease
      rw [Batch.isReleased, hkey, hstatus]
      rfl
    next => exact stopped rfl
    next => exact hquarantine
    next => exact hquarantine
    next => exact .moved _ (.next batch rest hworker) rfl

/-- Every step has one of the effects. -/
theorem step_effect (ht : System.step config s a = some t) : Effect config s a t := by
  cases a with
  | start =>
    simp only [System.step] at ht
    split at ht
    next => exact .moved _ .start (some.inj ht).symm
    next => cases ht
  | recover stat expired outcome =>
    simp only [System.step] at ht
    split at ht
    next batch rest hworker =>
      split at ht
      next hstat =>
        cases ht
        exact recover_effect hworker fun h => Bool.eq_false_iff.mpr (hstat.2 h)
      next => cases ht
    next => cases ht
  | plan now skipped outcome =>
    simp only [System.step] at ht
    split at ht
    next hworker =>
      cases ht
      unfold System.plan
      dsimp only
      split
      next =>
        rcases @execute_cases s outcome (s.db.planBatch (s.db.candidates config now skipped))
            (.planned ⟨s.db.nextBatch, (s.db.candidates config now skipped).length⟩) with
          h | ⟨db, worker, hdb, hnext, h⟩
        · exact stopped h
        · exact .planned now skipped worker db hworker hdb hnext h
      next => exact stopped rfl
    next => cases ht
  | markUploading key expired outcome =>
    simp only [System.step] at ht
    split at ht
    next batch hworker =>
      cases ht
      split
      next => exact stopped rfl
      next =>
        rcases @execute_cases s outcome (s.db.markUploading batch.id key) (.uploading batch) with
          h | ⟨db, worker, hdb, hnext, h⟩
        · exact stopped h
        · exact .uploading batch key worker db hworker hdb hnext h
    next => cases ht
  | writeParquet done =>
    simp only [System.step] at ht
    split at ht
    next batch hworker =>
      refine .moved _ ?_ (some.inj ht).symm
      cases done with
      | false => exact .fail batch
      | true =>
        split
        next => exact .write batch rfl hworker
        next => exact .fail batch
    next => cases ht
  | uploadFile outcome =>
    simp only [System.step] at ht
    split at ht
    next hworker => exact .stored _ _ outcome hworker (some.inj ht).symm
    next => cases ht
  | uploadManifest outcome =>
    simp only [System.step] at ht
    split at ht
    next hworker => exact .manifested _ _ outcome hworker (some.inj ht).symm
    next => cases ht
  | commit outcome =>
    simp only [System.step] at ht
    split at ht
    next batch records hworker =>
      cases ht
      unfold System.commit
      split
      next => exact .moved _ (.fail batch) rfl
      next db hcommit =>
        split
        next =>
          refine .committed batch records _ db hworker hcommit ?_ rfl
          split
          · exact .inl rfl
          · exact .inr rfl
        next => exact .moved _ (.fail batch) rfl
    next => cases ht
  | markFailed done =>
    simp only [System.step] at ht
    split at ht
    next batch hworker =>
      cases ht
      cases done with
      | true => exact .failed batch rfl hworker rfl
      | false => exact stopped rfl
    next => cases ht
  | crash => exact stopped (some.inj ht).symm
  | insert tenantId txRef type values createdAt =>
    simp only [System.step] at ht
    split at ht
    next => cases ht
    next => exact .inserted tenantId txRef type values createdAt (some.inj ht).symm
  | update | freezeAccount => exact .values _ _ rfl (some.inj ht).symm
  | findReversal tenantId txRef =>
    simp only [System.step] at ht
    split at ht
    next =>
      split at ht
      next => exact .noted _ _ (some.inj ht).symm
      next => cases ht
    next => cases ht
  | reverse tenantId tx reversalRef now =>
    simp only [System.step] at ht
    split at ht
    next => exact .reversed _ _ rfl _ _ _ _ _ _ (some.inj ht).symm
    next => cases ht
  | selectWarm now ids =>
    simp only [System.step] at ht
    split at ht
    next => exact .noted _ _ (some.inj ht).symm
    next => cases ht
  | markWarm run done =>
    simp only [System.step] at ht
    obtain ⟨ids, hrun, rfl⟩ := map_eq_some_iff.mp ht
    cases done with
    | true => exact .warmed run ids rfl hrun _ rfl
    | false => exact .noted _ _ rfl

/-! ### What is on the tables of every state -/

theorem Consistent.updateValues (h : Consistent db) (p : Transaction → Bool) (f : Values → Values) :
    Consistent (db.updateValues p f) := by
  apply h.rewriteTransactions
  · exact fun _ => rfl
  · exact fun _ => rfl

theorem Consistent.markWarm (h : Consistent db) (ids : List Nat) :
    Consistent (db.markWarm ids) := by
  apply h.rewriteTransactions
  · exact fun _ => rfl
  · exact fun _ => rfl

theorem Consistent.step (h : Consistent s.db) (ht : System.step config s a = some t) :
    Consistent t.db := by
  cases step_effect ht with
  | moved _ _ ht | stored _ _ _ _ ht | manifested _ _ _ _ ht | noted _ _ ht => exact ht ▸ h
  | values p f _ ht => exact ht ▸ h.updateValues p f
  | inserted tenantId txRef type values createdAt ht =>
    exact ht ▸ h.insertTransaction tenantId txRef type values createdAt
  | reversed p f _ tenantId txRef type values createdAt _ ht =>
    exact ht ▸ (h.updateValues p f).insertTransaction tenantId txRef type values createdAt
  | planned now skipped _ _ _ hplan _ ht =>
    subst ht
    exact h.planBatch (h.candidates_nodup config now skipped)
      (candidates_owner s.db config now skipped) hplan
  | uploading _ _ _ _ _ hmark _ ht => exact ht ▸ h.markUploading hmark
  | quarantined _ _ _ _ _ hquarantine _ ht => exact ht ▸ h.quarantineBatch hquarantine
  | released _ _ _ _ _ _ _ _ _ _ _ _ hrelease _ ht =>
    exact ht ▸ h.releaseUnuploadedBatch hrelease
  | committed _ _ _ _ _ hcommit _ ht => exact ht ▸ h.commitVerified hcommit
  | failed batch _ _ ht => exact ht ▸ h.markFailed batch.id
  | warmed _ ids _ _ _ ht => exact ht ▸ h.markWarm (ids.take warmChunk)

end Bis.Archive
