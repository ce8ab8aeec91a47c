import Bis.Tokens.Rotate

/-!
When a rotation leaves one token behind. The token that is rotated is set inactive before
its successor is inserted and never becomes active again, so the two are not active
together. Nothing but the insertion can give a token a second active successor, or one
after its revocation.
-/

namespace Bis.Tokens

open Bis.Relation Bis.Transition Option

variable {hashToken : String → String} {s t : System}

/-- The token is known by now, and it is not active. -/
def System.Retired (s : System) (id : Nat) : Prop :=
  id < s.nextId ∧ ∀ row ∈ s.tokens, row.id = id → row.active = false

structure Inv (s : System) : Prop where
  ids : ∀ row ∈ s.tokens, row.id < s.nextId
  rotated : ∀ row ∈ s.tokens, ∀ id, row.rotatedFrom = some id → s.Retired id
  updating : ∀ call ∈ s.calls, ∀ existing generated,
    call.stage = .updating existing generated → call.tokenId < s.nextId
  inserting : ∀ call ∈ s.calls, ∀ existing generated,
    call.stage = .inserting existing generated → s.Retired call.tokenId

/-! ### What the operations keep -/

theorem Inv.drop (h : Inv s) (id : Nat) : Inv (s.drop id) where
  ids := h.ids
  rotated := h.rotated
  updating call hcall := h.updating call (List.mem_of_mem_filter hcall)
  inserting call hcall := h.inserting call (List.mem_of_mem_filter hcall)

theorem Inv.reply (h : Inv s) (id : Nat) (reply : Reply) : Inv (s.reply id reply) :=
  let hdrop := h.drop id
  ⟨hdrop.ids, hdrop.rotated, hdrop.updating, hdrop.inserting⟩

theorem Inv.goOn (h : Inv s) {call : Call} {stage : Stage}
    (hupdating : ∀ existing generated, stage = .updating existing generated →
      call.tokenId < s.nextId)
    (hinserting : ∀ existing generated, stage = .inserting existing generated →
      s.Retired call.tokenId) :
    Inv (s.goOn call stage) := by
  refine ⟨h.ids, h.rotated, ?_, ?_⟩
  · intro other hother
    rcases mem_upsert hother with rfl | hold
    · exact hupdating
    · exact h.updating other hold
  · intro other hother
    rcases mem_upsert hother with rfl | hold
    · exact hinserting
    · exact h.inserting other hold

theorem mem_setInactive {id : Nat} {row : ApiToken} (h : row ∈ (s.setInactive id).tokens) :
    (row.active = false ∧ ∃ old ∈ s.tokens, row = { old with active := false } ∧ old.id = id) ∨
      (row ∈ s.tokens ∧ row.id ≠ id) := by
  rcases mem_updateWhere.mp h with ⟨old, hold, hid, rfl⟩ | ⟨hrow, hid⟩
  · exact .inl ⟨rfl, old, hold, rfl, beq_iff_eq.mp hid⟩
  · exact .inr ⟨hrow, fun heq => hid (beq_iff_eq.mpr heq)⟩

theorem Retired.setInactive {id : Nat} (h : s.Retired id) (other : Nat) :
    (s.setInactive other).Retired id := by
  refine ⟨h.1, ?_⟩
  intro row hrow hid
  rcases mem_setInactive hrow with ⟨hactive, -⟩ | ⟨hold, -⟩
  · exact hactive
  · exact h.2 row hold hid

theorem retired_setInactive {id : Nat} (h : id < s.nextId) : (s.setInactive id).Retired id := by
  refine ⟨h, ?_⟩
  intro row hrow hid
  rcases mem_setInactive hrow with ⟨hactive, -⟩ | ⟨-, hne⟩
  · exact hactive
  · exact absurd hid hne

theorem Inv.setInactive (h : Inv s) (id : Nat) : Inv (s.setInactive id) := by
  refine ⟨?_, ?_, h.updating, ?_⟩
  · intro row hrow
    rcases mem_setInactive hrow with ⟨-, old, hold, rfl, -⟩ | ⟨hold, -⟩
    · exact h.ids old hold
    · exact h.ids row hold
  · intro row hrow parent hparent
    rcases mem_setInactive hrow with ⟨-, old, hold, rfl, -⟩ | ⟨hold, -⟩
    · exact Retired.setInactive (h.rotated old hold parent hparent) id
    · exact Retired.setInactive (h.rotated row hold parent hparent) id
  · intro call hcall existing generated hstage
    exact Retired.setInactive (h.inserting call hcall existing generated hstage) id

theorem Retired.insertToken {id : Nat} (h : s.Retired id) (values : ApiToken) :
    (s.insertToken values).Retired id := by
  refine ⟨Nat.lt_succ_of_lt h.1, ?_⟩
  intro row hrow hid
  rcases mem_concat.mp hrow with hold | hnew
  · exact h.2 row hold hid
  · -- The new row has an id of its own.
    cases hnew
    exact absurd hid (Nat.ne_of_gt h.1)

theorem Inv.insertToken (h : Inv s) {values : ApiToken}
    (hvalues : ∀ id, values.rotatedFrom = some id → s.Retired id) :
    Inv (s.insertToken values) := by
  refine ⟨?_, ?_, ?_, ?_⟩
  · intro row hrow
    rcases mem_concat.mp hrow with hold | rfl
    · exact Nat.lt_succ_of_lt (h.ids row hold)
    · exact Nat.lt_succ_self _
  · intro row hrow id hid
    rcases mem_concat.mp hrow with hold | rfl
    · exact Retired.insertToken (h.rotated row hold id hid) values
    · exact Retired.insertToken (hvalues id hid) values
  · intro call hcall existing generated hstage
    exact Nat.lt_succ_of_lt (h.updating call hcall existing generated hstage)
  · intro call hcall existing generated hstage
    exact Retired.insertToken (h.inserting call hcall existing generated hstage) values

/-! ### The steps -/

theorem Inv.select (h : Inv s) (call : Call) (raw : String) : Inv (s.select call raw) := by
  unfold System.select
  split
  · exact h.reply _ _
  next existing hexisting =>
    split
    · obtain ⟨hrow, hid⟩ := found_of_lookup hexisting
      refine h.goOn ?_ ?_
      · intro _ _ _
        rw [← hid]
        exact h.ids existing hrow
      · intro _ _ hstage
        cases hstage
    · exact h.reply _ _

theorem Inv.update (h : Inv s) {call : Call} (hcall : call ∈ s.calls) {existing : ApiToken}
    {generated : Generated} (hstage : call.stage = .updating existing generated) :
    Inv (s.update call existing generated) := by
  have hid := h.updating call hcall existing generated hstage
  have hinactive := h.setInactive call.tokenId
  unfold System.update
  split
  · refine hinactive.goOn ?_ ?_
    · intro _ _ hnext
      cases hnext
    · intro _ _ _
      exact retired_setInactive hid
  · have hrevoked : Inv { s.setInactive call.tokenId with revoked := s.revoked ++ [call.tokenId] } :=
      ⟨hinactive.ids, hinactive.rotated, hinactive.updating, hinactive.inserting⟩
    exact hrevoked.reply _ _

theorem Inv.insert (h : Inv s) {call : Call} (hcall : call ∈ s.calls) {existing : ApiToken}
    {generated : Generated} (hstage : call.stage = .inserting existing generated) :
    Inv (s.insert hashToken call existing generated) := by
  unfold System.insert
  split
  · exact h.reply _ _
  · refine (h.insertToken ?_).reply _ _
    intro id hid
    cases hid
    exact h.inserting call hcall existing generated hstage

theorem Inv.create (h : Inv s) {user : User} {input : CreateInput} {raw : String}
    (hstep : s.create hashToken user input raw = some t) : Inv t := by
  unfold System.create at hstep
  simp only at hstep
  split at hstep
  · cases hstep
  · cases hstep
    refine h.insertToken ?_
    intro id hid
    cases hid

theorem Inv.start (h : Inv s) (id tokenId : Nat) (procedure : Procedure) (user : User) :
    Inv { s with calls := s.calls ++ [⟨id, procedure, tokenId, user, .selecting⟩] } := by
  refine ⟨h.ids, h.rotated, ?_, ?_⟩
  · intro call hcall existing generated hstage
    rcases mem_concat.mp hcall with hold | rfl
    · exact h.updating call hold existing generated hstage
    · cases hstage
  · intro call hcall existing generated hstage
    rcases mem_concat.mp hcall with hold | rfl
    · exact h.inserting call hold existing generated hstage
    · cases hstage

/-- What the calls of a step do, with the call that takes it. -/
inductive Taken (hashToken : String → String) (s t : System) : Label → Prop where
  | create {user : User} {input : CreateInput} {raw : String}
      (h : s.create hashToken user input raw = some t) : Taken hashToken s t (.create user input raw)
  | start {id tokenId : Nat} {procedure : Procedure} {user : User}
      (h : t = { s with calls := s.calls ++ [⟨id, procedure, tokenId, user, .selecting⟩] }) :
      Taken hashToken s t (.start id procedure tokenId user)
  | select {call : Call} {raw : String} (h : t = s.select call raw) :
      Taken hashToken s t (.select call.id raw)
  | update {call : Call} {existing : ApiToken} {generated : Generated} (hcall : call ∈ s.calls)
      (hstage : call.stage = .updating existing generated)
      (h : t = s.update call existing generated) : Taken hashToken s t (.update call.id)
  | insert {call : Call} {existing : ApiToken} {generated : Generated} (hcall : call ∈ s.calls)
      (hstage : call.stage = .inserting existing generated)
      (hlookup : lookup Call.id call.id s.calls = some call)
      (h : t = s.insert hashToken call existing generated) : Taken hashToken s t (.insert call.id)
  | lose {id : Nat} (h : t = s.drop id) : Taken hashToken s t (.lose id)

theorem taken_of_step {a : Label} (hstep : System.step hashToken s a = some t) :
    Taken hashToken s t a := by
  cases a with
  | create user input raw => exact .create hstep
  | start id procedure tokenId user =>
    simp only [System.step] at hstep
    split at hstep
    · cases hstep
    · exact .start (some.inj hstep).symm
  | select id raw =>
    simp only [System.step] at hstep
    split at hstep
    next procedure tokenId user hlookup =>
      exact @Taken.select _ _ _ ⟨id, procedure, tokenId, user, .selecting⟩ raw
        (some.inj hstep).symm
    · cases hstep
  | update id =>
    simp only [System.step] at hstep
    split at hstep
    next hlookup =>
      obtain ⟨hcall, hid⟩ := found_of_lookup hlookup
      cases hid
      exact Taken.update hcall rfl (some.inj hstep).symm
    · cases hstep
  | insert id =>
    simp only [System.step] at hstep
    split at hstep
    next hlookup =>
      obtain ⟨hcall, hid⟩ := found_of_lookup hlookup
      cases hid
      exact Taken.insert hcall rfl hlookup (some.inj hstep).symm
    · cases hstep
  | lose id => exact .lose (some.inj hstep).symm

theorem Inv.step (h : Inv s) {a : Label} (hstep : System.step hashToken s a = some t) : Inv t := by
  cases taken_of_step hstep with
  | create hcreate => exact h.create hcreate
  | start heq => exact heq ▸ h.start _ _ _ _
  | select heq => exact heq ▸ h.select _ _
  | update hcall hstage heq => exact heq ▸ h.update hcall hstage
  | insert hcall hstage _ heq => exact heq ▸ h.insert hcall hstage
  | lose heq => exact heq ▸ h.drop _

theorem inv_empty : Inv .empty := by
  refine ⟨?_, ?_, ?_, ?_⟩
  · intro row hrow
    cases hrow
  · intro row hrow
    cases hrow
  · intro call hcall
    cases hcall
  · intro call hcall
    cases hcall

/-! ### Successors -/

/-- No token gains an active successor, and none is made after a revocation. -/
structure NoGain (s t : System) : Prop where
  count : ∀ id, t.successorCount id ≤ s.successorCount id
  revoked : (∀ row ∈ s.tokens, row.afterRevocation = false) →
    ∀ row ∈ t.tokens, row.afterRevocation = false

theorem noGain_of_eq (h : t.tokens = s.tokens) : NoGain s t := by
  refine ⟨?_, ?_⟩
  · intro id
    refine Nat.le_of_eq ?_
    unfold System.successorCount
    rw [h]
  · intro hall
    rw [h]
    exact hall

theorem noGain_setInactive {id : Nat} (h : t.tokens = (s.setInactive id).tokens) : NoGain s t := by
  refine ⟨?_, ?_⟩
  · intro parent
    unfold System.successorCount
    rw [h]
    simp only [System.setInactive, updateWhere]
    rw [List.countP_map]
    apply List.countP_mono_left
    intro row _ hactive
    simp only [Function.comp_apply] at hactive
    split at hactive
    · cases hactive
    · exact hactive
  · intro hall row hrow
    rw [h] at hrow
    rcases mem_setInactive hrow with ⟨-, old, hold, rfl, -⟩ | ⟨hold, -⟩
    · exact hall old hold
    · exact hall row hold

theorem successorCount_insertToken (values : ApiToken) (id : Nat) :
    (s.insertToken values).successorCount id = s.successorCount id +
      if values.active && values.rotatedFrom == some id then 1 else 0 := by
  unfold System.successorCount System.insertToken
  simp [List.countP_append, List.countP_singleton]

theorem noGain_create {user : User} {input : CreateInput} {raw : String}
    (h : s.create hashToken user input raw = some t) : NoGain s t := by
  unfold System.create at h
  simp only at h
  split at h
  · cases h
  · cases h
    refine ⟨?_, ?_⟩
    · intro id
      rw [successorCount_insertToken]
      simp
    · intro hall row hrow
      rcases mem_concat.mp hrow with hold | rfl
      · exact hall row hold
      · rfl

theorem tokens_select (call : Call) (raw : String) : (s.select call raw).tokens = s.tokens := by
  unfold System.select
  split
  · rfl
  · split <;> rfl

theorem tokens_update (call : Call) (existing : ApiToken) (generated : Generated) :
    (s.update call existing generated).tokens = (s.setInactive call.tokenId).tokens := by
  unfold System.update
  split <;> rfl

/-- Given the invariant, a token is never active beside its successor. -/
theorem Inv.lawful_iff (h : Inv s) : s.Lawful ↔
    (∀ id, s.successorCount id ≤ 1) ∧ ∀ row ∈ s.tokens, row.afterRevocation = false := by
  constructor
  · intro hlawful
    exact ⟨hlawful.one, hlawful.revoked⟩
  · rintro ⟨hone, hrevoked⟩
    refine ⟨hone, ?_, hrevoked⟩
    intro id hpositive
    obtain ⟨row, hrow, hsuccessor⟩ := List.countP_pos_iff.mp hpositive
    rw [Bool.and_eq_true, beq_iff_eq] at hsuccessor
    exact (h.rotated row hrow id hsuccessor.2).2

theorem Lawful.of_noGain (hlawful : s.Lawful) (h : NoGain s t) (hinv : Inv t) : t.Lawful :=
  hinv.lawful_iff.mpr ⟨fun id => Nat.le_trans (h.count id) (hlawful.one id),
    h.revoked hlawful.revoked⟩

/-- An insertion keeps the law exactly where the token has no active successor and has not
been revoked. -/
theorem lawful_insert_iff (hs : Inv s) (hlawful : s.Lawful) {call : Call}
    {existing : ApiToken} {generated : Generated} (hcall : call ∈ s.calls)
    (hstage : call.stage = .inserting existing generated) :
    (s.insert hashToken call existing generated).Lawful ↔
      s.isTaken (hashToken generated.token) = true ∨
        (s.successorCount call.tokenId = 0 ∧ call.tokenId ∉ s.revoked) := by
  have hinv : Inv (s.insert hashToken call existing generated) := hs.insert hcall hstage
  rw [hinv.lawful_iff]
  unfold System.insert
  split
  next htaken =>
    simp only [htaken, true_or, iff_true]
    exact ⟨hlawful.one, hlawful.revoked⟩
  next htaken =>
    simp only [htaken, false_or, Bool.false_eq_true]
    set after := s.insertToken (s.successor hashToken call existing generated) with hafter
    have hcount : ∀ id, after.successorCount id = s.successorCount id +
        if call.tokenId = id then 1 else 0 := by
      intro id
      rw [hafter, successorCount_insertToken]
      simp [System.successor]
    have hrows : (∀ row ∈ after.tokens, row.afterRevocation = false) ↔
        call.tokenId ∉ s.revoked := by
      constructor
      · intro hall
        have hnew := hall _ (List.mem_append_right _ (List.mem_singleton_self _))
        simpa [System.successor] using hnew
      · intro hrevoked row hrow
        rcases mem_concat.mp hrow with hold | rfl
        · exact hlawful.revoked row hold
        · simpa [System.successor] using hrevoked
    refine and_congr ?_ hrows
    constructor
    · intro hone
      have hself : after.successorCount call.tokenId ≤ 1 := hone call.tokenId
      rw [hcount, if_pos rfl] at hself
      omega
    · intro hzero id
      change after.successorCount id ≤ 1
      rw [hcount]
      split
      next heq =>
        refine Nat.le_of_eq ?_
        rw [← heq, hzero]
      · exact hlawful.one id

theorem lawful_step_iff (hs : Inv s) (hlawful : s.Lawful) {a : Label}
    (hstep : System.step hashToken s a = some t) :
    t.Lawful ↔ s.isUnrotated hashToken a = true := by
  have hinv : Inv t := hs.step hstep
  have hkept : NoGain s t → (t.Lawful ↔ True) := fun h =>
    iff_true_intro (Lawful.of_noGain hlawful h hinv)
  cases taken_of_step hstep with
  | create hcreate => simpa [System.isUnrotated] using hkept (noGain_create hcreate)
  | start heq => simpa [System.isUnrotated] using hkept (noGain_of_eq (by rw [heq]))
  | @select call raw heq =>
    have htokens : t.tokens = s.tokens := by rw [heq, tokens_select]
    simpa [System.isUnrotated] using hkept (noGain_of_eq htokens)
  | @update call existing generated hcall hstage heq =>
    have htokens : t.tokens = (s.setInactive call.tokenId).tokens := by rw [heq, tokens_update]
    simpa [System.isUnrotated] using hkept (noGain_setInactive htokens)
  | @insert call existing generated hcall hstage hlookup heq =>
    rw [heq, lawful_insert_iff hs hlawful hcall hstage]
    obtain ⟨id, procedure, tokenId, user, stage⟩ := call
    cases hstage
    simp [System.isUnrotated, hlookup]
  | lose heq => simpa [System.isUnrotated] using hkept (noGain_of_eq (by rw [heq]; rfl))

theorem lawful_empty : System.empty.Lawful := by
  refine ⟨fun _ => Nat.zero_le _, ?_, ?_⟩
  · intro id _ row hrow
    cases hrow
  · intro row hrow
    cases hrow

/-! ### Runs -/

/-- Rotation leaves one active successor, and none after a revocation, exactly in the runs
whose insertions all find the token unrotated and unrevoked. -/
theorem rotation_lawful_iff (hashToken : String → String) (labels : List Label) :
    Always (System.step hashToken) System.Lawful .empty labels ↔
      Meets (System.step hashToken) (fun s a => s.isUnrotated hashToken a = true) .empty labels :=
  always_iff_meets labels (fun _ _ _ hs hstep => hs.step hstep)
    (fun _ _ _ hs hlawful hstep => lawful_step_iff hs hlawful hstep) inv_empty lawful_empty

/-- Two rotations of one token that both read it before either inserts. -/
def twoRotations : List Label :=
  [.create ⟨7, false⟩ ⟨"ci", none, ["kyc:read"], 60, none⟩ "a",
    .start 1 .rotate 1 ⟨7, false⟩, .start 2 .rotate 1 ⟨7, false⟩, .select 1 "b", .select 2 "c",
    .update 1, .update 2, .insert 1, .insert 2]

theorem twoRotations_unlawful : ¬ ∀ (hashToken : String → String) (labels : List Label),
    Always (System.step hashToken) System.Lawful .empty labels := by
  intro hall
  have hcount : (run (System.step id) .empty twoRotations).map (·.successorCount 1) = some 2 := by
    decide
  obtain ⟨s, hrun, hs⟩ := map_eq_some_iff.mp hcount
  have hone := ((hall id twoRotations).finish hrun).one 1
  omega

end Bis.Tokens
