import Bis.TigerBeetle.PendingBatch
import Mathlib.Data.List.Forall2

/-!
A slice of transfers that is committed without the accumulator, chunk by chunk. The
answer of the ledger to a call is an argument; what it names in a result is the place of
a transfer in the chunk of the call.

Nothing looks into a transfer.
-/

namespace Bis.TigerBeetle

open List

variable {τ : Type*}

structure TransferResult where
  index : UInt32
  result : String

/-- Results, or the text of an error. -/
abbrev CommitAnswer := Except String (List TransferResult)

/-- A call of `commitBatch`, for the transfers from `start` on. -/
structure CommitCall (τ : Type*) where
  start : Nat
  chunk : List τ
  answer : CommitAnswer

/-- The calls that `SubmitBatch` makes, and what it returns. -/
structure Submission (τ : Type*) where
  calls : List (CommitCall τ)
  allResults : List TransferResult
  error : Option String

/-- The loop of `SubmitBatch` from `i` on. -/
def submitFrom (commitBatch : Nat → List τ → CommitAnswer) (i : Nat) (transfers : List τ)
    (allResults : List TransferResult) : Submission τ :=
  if transfers.length = 0 then { calls := [], allResults, error := none }
  else
    let chunk := transfers.take maxBatchSize
    let answer := commitBatch i chunk
    let call : CommitCall τ := { start := i, chunk, answer }
    match answer with
    | .error err =>
      { calls := [call], allResults
        error := some ("batch [" ++ toString i ++ ":" ++ toString (i + chunk.length) ++ "]: " ++
          err) }
    | .ok results =>
      let later := submitFrom commitBatch (i + maxBatchSize) (transfers.drop maxBatchSize)
        (allResults ++ results)
      { later with calls := call :: later.calls }
termination_by transfers.length
decreasing_by
  have hpos : 0 < maxBatchSize := by decide
  rw [length_drop]
  omega

def submitBatch (commitBatch : Nat → List τ → CommitAnswer) (transfers : List τ) : Submission τ :=
  submitFrom commitBatch 0 transfers []

/-! ### What a caller relies on -/

/-- The results that a call returned. -/
def CommitCall.results (call : CommitCall τ) : List TransferResult :=
  match call.answer with
  | .error _ => []
  | .ok results => results

def TransferResult.failed (r : TransferResult) : Bool := r.result != "ok"

/-- The failures that the ledger reports, each with its call. -/
def Submission.failures (s : Submission τ) : List (CommitCall τ × TransferResult) :=
  s.calls.flatMap fun call => (call.results.filter TransferResult.failed).map fun r => (call, r)

/-- A failure is returned with the place in the caller's list of the transfer it is about. -/
def Names (returned : TransferResult) (failure : CommitCall τ × TransferResult) : Prop :=
  returned.result = failure.2.result ∧ (failure.2.index.toNat < failure.1.chunk.length →
    returned.index.toNat = failure.1.start + failure.2.index.toNat)

structure WellSubmitted (transfers : List τ) (s : Submission τ) : Prop where
  sizes : ∀ call ∈ s.calls, call.chunk.length ≤ maxBatchSize
  /-- Of the transfers behind a call that fails none is sent. -/
  inOrder : (s.calls.map CommitCall.chunk).flatten <+: transfers
  complete : s.error = none → (s.calls.map CommitCall.chunk).flatten = transfers
  placed : ∀ call ∈ s.calls, ∀ j < call.chunk.length,
    call.chunk[j]? = transfers[call.start + j]?
  /-- The failures among the results that are returned are those of the ledger. -/
  indexed : List.Forall₂ Names (s.allResults.filter TransferResult.failed) s.failures

/-- The chunk at place `k`. -/
def chunkAt (transfers : List τ) (k : Nat) : List τ :=
  (transfers.drop (k * maxBatchSize)).take maxBatchSize

/-- No call fails before the chunk at place `k`. -/
def Reached (commitBatch : Nat → List τ → CommitAnswer) (i : Nat) (transfers : List τ) (k : Nat) :
    Prop :=
  ∀ j < k, ∃ results, commitBatch (i + j * maxBatchSize) (chunkAt transfers j) = .ok results

/-- The call for a chunk. -/
def callAt (commitBatch : Nat → List τ → CommitAnswer) (i : Nat) (transfers : List τ) (k : Nat) :
    CommitCall τ :=
  let start := i + k * maxBatchSize
  ⟨start, chunkAt transfers k, commitBatch start (chunkAt transfers k)⟩

/-- The ledger reports no failure of a transfer behind the first chunk. -/
def FailuresInFirstChunk (commitBatch : Nat → List τ → CommitAnswer) (transfers : List τ) : Prop :=
  ∀ k, 0 < k → Reached commitBatch 0 transfers k →
    ∀ r ∈ (callAt commitBatch 0 transfers k).results, r.failed →
      (chunkAt transfers k).length ≤ r.index.toNat

/-! ### The loop -/

section

variable {commitBatch : Nat → List τ → CommitAnswer} {i : Nat} {transfers : List τ}
variable {allResults : List TransferResult}

theorem submitFrom_nil : submitFrom commitBatch i [] allResults = ⟨[], allResults, none⟩ := by
  rw [submitFrom]
  rfl

theorem submitFrom_error (allResults : List TransferResult) (hsome : transfers ≠ [])
    {err : String}
    (h : commitBatch i (transfers.take maxBatchSize) = .error err) :
    ∃ text, submitFrom commitBatch i transfers allResults =
      ⟨[⟨i, transfers.take maxBatchSize, .error err⟩], allResults, some text⟩ := by
  rw [submitFrom, if_neg (mt length_eq_zero_iff.mp hsome)]
  simp only [h]
  exact ⟨_, rfl⟩

theorem submitFrom_ok (hsome : transfers ≠ []) {results : List TransferResult}
    (h : commitBatch i (transfers.take maxBatchSize) = .ok results) :
    submitFrom commitBatch i transfers allResults =
      let later := submitFrom commitBatch (i + maxBatchSize) (transfers.drop maxBatchSize)
        (allResults ++ results)
      { later with
        calls := ⟨i, transfers.take maxBatchSize, .ok results⟩ :: later.calls } := by
  rw [submitFrom, if_neg (mt length_eq_zero_iff.mp hsome)]
  simp only [h]

theorem chunkAt_zero : chunkAt transfers 0 = transfers.take maxBatchSize := by
  simp [chunkAt]

theorem chunkAt_succ (k : Nat) :
    chunkAt transfers (k + 1) = chunkAt (transfers.drop maxBatchSize) k := by
  rw [chunkAt, chunkAt, drop_drop, Nat.succ_mul, Nat.add_comm maxBatchSize]

/-- An induction over the chunks. -/
theorem chunk_induction {motive : Nat → List τ → Prop}
    (nil : ∀ i, motive i [])
    (cons : ∀ i transfers, transfers ≠ [] →
      motive (i + maxBatchSize) (transfers.drop maxBatchSize) → motive i transfers)
    (i : Nat) (transfers : List τ) : motive i transfers := by
  induction h : transfers.length using Nat.strongRecOn generalizing i transfers with
  | ind n ih =>
    by_cases hsome : transfers = []
    · rw [hsome]
      exact nil i
    · refine cons i transfers hsome (ih _ ?_ _ _ rfl)
      have hpos : 0 < maxBatchSize := by decide
      have hlength : 0 < transfers.length := length_pos_iff.mpr hsome
      rw [length_drop]
      omega

theorem place_succ (i k : Nat) :
    i + (k + 1) * maxBatchSize = i + maxBatchSize + k * maxBatchSize := by
  rw [Nat.succ_mul]
  omega

theorem place_zero (i : Nat) : i + 0 * maxBatchSize = i := by
  rw [Nat.zero_mul, Nat.add_zero]

/-- Behind a first chunk that was accepted. -/
theorem reached_succ {k : Nat} {results : List TransferResult}
    (h : commitBatch i (transfers.take maxBatchSize) = .ok results) :
    Reached commitBatch i transfers (k + 1) ↔
      Reached commitBatch (i + maxBatchSize) (transfers.drop maxBatchSize) k := by
  constructor
  · intro hreached j hj
    have hnext := hreached (j + 1) (Nat.succ_lt_succ hj)
    rwa [place_succ, chunkAt_succ] at hnext
  · intro hreached j hj
    cases j with
    | zero => exact ⟨results, by rw [place_zero, chunkAt_zero, h]⟩
    | succ j =>
      rw [place_succ, chunkAt_succ]
      exact hreached j (Nat.lt_of_succ_lt_succ hj)

theorem callAt_chunk (k : Nat) :
    (callAt commitBatch i transfers k).chunk = chunkAt transfers k := rfl

theorem callAt_zero :
    callAt commitBatch i transfers 0 =
      ⟨i, transfers.take maxBatchSize, commitBatch i (transfers.take maxBatchSize)⟩ := by
  simp only [callAt, place_zero, chunkAt_zero]

theorem callAt_succ (k : Nat) :
    callAt commitBatch i transfers (k + 1) =
      callAt commitBatch (i + maxBatchSize) (transfers.drop maxBatchSize) k := by
  simp only [callAt, place_succ, chunkAt_succ]

/-- The calls of the loop are those for the chunks that are reached. -/
theorem mem_calls_iff {call : CommitCall τ} :
    call ∈ (submitFrom commitBatch i transfers allResults).calls ↔
      ∃ k, Reached commitBatch i transfers k ∧ chunkAt transfers k ≠ [] ∧
        call = callAt commitBatch i transfers k := by
  induction i, transfers using chunk_induction generalizing allResults with
  | nil i => simp [submitFrom_nil, chunkAt]
  | cons i transfers hsome ih =>
    have hfirst : Reached commitBatch i transfers 0 := fun j hj => absurd hj (Nat.not_lt_zero j)
    have hchunk : chunkAt transfers 0 ≠ [] := by
      rw [chunkAt_zero]
      exact mt take_eq_nil_iff.mp (by simp [hsome, maxBatchSize])
    cases hanswer : commitBatch i (transfers.take maxBatchSize) with
    | error err =>
      obtain ⟨text, heq⟩ := submitFrom_error allResults hsome hanswer
      rw [heq, ← hanswer, ← callAt_zero, mem_singleton]
      constructor
      · intro hcall
        exact ⟨0, hfirst, hchunk, hcall⟩
      · rintro ⟨k, hreached, -, rfl⟩
        cases k with
        | zero => rfl
        | succ k =>
          obtain ⟨results, hok⟩ := hreached 0 (Nat.zero_lt_succ k)
          rw [place_zero, chunkAt_zero, hanswer] at hok
          cases hok
    | ok results =>
      rw [submitFrom_ok hsome hanswer, ← hanswer, ← callAt_zero]
      simp only [mem_cons, ih]
      constructor
      · rintro (hcall | ⟨k, hreached, hsome, rfl⟩)
        · exact ⟨0, hfirst, hchunk, hcall⟩
        · refine ⟨k + 1, (reached_succ hanswer).mpr hreached, ?_, (callAt_succ k).symm⟩
          rwa [chunkAt_succ]
      · rintro ⟨k, hreached, hsome, rfl⟩
        cases k with
        | zero => exact .inl rfl
        | succ k =>
          rw [chunkAt_succ] at hsome
          exact .inr ⟨k, (reached_succ hanswer).mp hreached, hsome, callAt_succ k⟩

/-- What is sent is a part of the list from its start on. -/
theorem sent_prefix :
    ((submitFrom commitBatch i transfers allResults).calls.map CommitCall.chunk).flatten <+:
      transfers := by
  induction i, transfers using chunk_induction generalizing allResults with
  | nil i =>
    rw [submitFrom_nil]
    exact nil_prefix
  | cons i transfers hsome ih =>
    cases hanswer : commitBatch i (transfers.take maxBatchSize) with
    | error err =>
      obtain ⟨text, heq⟩ := submitFrom_error allResults hsome hanswer
      rw [heq]
      simpa using take_prefix maxBatchSize transfers
    | ok results =>
      rw [submitFrom_ok hsome hanswer, map_cons, flatten_cons]
      have hlater := (prefix_append_right_inj (transfers.take maxBatchSize)).mpr
        (@ih (allResults ++ results))
      rwa [take_append_drop] at hlater

/-- Without an error it is the list. -/
theorem sent_all (h : (submitFrom commitBatch i transfers allResults).error = none) :
    ((submitFrom commitBatch i transfers allResults).calls.map CommitCall.chunk).flatten =
      transfers := by
  induction i, transfers using chunk_induction generalizing allResults with
  | nil i =>
    rw [submitFrom_nil]
    rfl
  | cons i transfers hsome ih =>
    cases hanswer : commitBatch i (transfers.take maxBatchSize) with
    | error err =>
      obtain ⟨text, heq⟩ := submitFrom_error allResults hsome hanswer
      rw [heq] at h
      cases h
    | ok results =>
      rw [submitFrom_ok hsome hanswer] at h ⊢
      rw [map_cons, flatten_cons, ih h, take_append_drop]

theorem allResults_eq :
    (submitFrom commitBatch i transfers allResults).allResults =
      allResults ++
        (submitFrom commitBatch i transfers allResults).calls.flatMap CommitCall.results := by
  induction i, transfers using chunk_induction generalizing allResults with
  | nil i =>
    rw [submitFrom_nil]
    simp
  | cons i transfers hsome ih =>
    cases hanswer : commitBatch i (transfers.take maxBatchSize) with
    | error err =>
      obtain ⟨text, heq⟩ := submitFrom_error allResults hsome hanswer
      rw [heq]
      simp [CommitCall.results]
    | ok results =>
      rw [submitFrom_ok hsome hanswer, flatMap_cons]
      rw [ih, append_assoc]
      rfl

theorem chunkAt_length (k : Nat) : (chunkAt transfers k).length ≤ maxBatchSize :=
  length_take_le ..

theorem chunkAt_getElem {k j : Nat} (h : j < (chunkAt transfers k).length) :
    (chunkAt transfers k)[j]? = transfers[0 + k * maxBatchSize + j]? := by
  have hj : j < maxBatchSize := Nat.lt_of_lt_of_le h (chunkAt_length k)
  rw [chunkAt, List.getElem?_take_of_lt hj, List.getElem?_drop, Nat.zero_add]

/-- The failures are returned as the ledger numbers them. -/
theorem forall₂_names_iff :
    List.Forall₂ Names
        ((submitFrom commitBatch i transfers []).allResults.filter TransferResult.failed)
        (submitFrom commitBatch i transfers []).failures ↔
      ∀ failure ∈ (submitFrom commitBatch i transfers []).failures, Names failure.2 failure := by
  have hreturned : (submitFrom commitBatch i transfers []).allResults.filter
      TransferResult.failed = (submitFrom commitBatch i transfers []).failures.map Prod.snd := by
    rw [allResults_eq, nil_append, filter_flatMap, Submission.failures, map_flatMap]
    simp only [map_map, Function.comp_def, map_id_fun', id]
  rw [hreturned, List.forall₂_map_left_iff, List.forall₂_same]

theorem mem_failures {call : CommitCall τ} {r : TransferResult} {s : Submission τ} :
    (call, r) ∈ s.failures ↔ call ∈ s.calls ∧ r ∈ call.results ∧ r.failed := by
  simp [Submission.failures]

end

/-- The transfers are sent in order, in chunks that fit, and each failure that is returned
carries the index of its transfer, exactly if none is behind the first chunk. -/
theorem submitBatch_wellSubmitted_iff (commitBatch : Nat → List τ → CommitAnswer)
    (transfers : List τ) :
    WellSubmitted transfers (submitBatch commitBatch transfers) ↔
      FailuresInFirstChunk commitBatch transfers := by
  unfold submitBatch
  constructor
  · intro h k hk hreached r hr hfailed
    by_contra hinside
    have hinside : r.index.toNat < (chunkAt transfers k).length := Nat.lt_of_not_le hinside
    have hsome : chunkAt transfers k ≠ [] := length_pos_iff.mp (Nat.zero_lt_of_lt hinside)
    have hcall : callAt commitBatch 0 transfers k ∈
        (submitFrom commitBatch 0 transfers []).calls :=
      mem_calls_iff.mpr ⟨k, hreached, hsome, rfl⟩
    have hnames := forall₂_names_iff.mp h.indexed _ (mem_failures.mpr ⟨hcall, hr, hfailed⟩)
    have hindex := hnames.2 hinside
    have hstart : (callAt commitBatch 0 transfers k).start = 0 + k * maxBatchSize := rfl
    have hpos : 0 < k * maxBatchSize := Nat.mul_pos hk (by decide)
    dsimp only at hindex
    omega
  · intro h
    refine ⟨?_, sent_prefix, sent_all, ?_, forall₂_names_iff.mpr ?_⟩
    · intro call hcall
      obtain ⟨k, -, -, rfl⟩ := mem_calls_iff.mp hcall
      exact chunkAt_length k
    · intro call hcall j hj
      obtain ⟨k, -, -, rfl⟩ := mem_calls_iff.mp hcall
      exact chunkAt_getElem hj
    · rintro ⟨call, r⟩ hfailure
      obtain ⟨hcall, hr, hfailed⟩ := mem_failures.mp hfailure
      obtain ⟨k, hreached, -, rfl⟩ := mem_calls_iff.mp hcall
      refine ⟨rfl, fun hinside => ?_⟩
      cases k with
      | zero => rw [callAt_zero, Nat.zero_add]
      | succ k =>
        have houtside := h (k + 1) (Nat.zero_lt_succ k) hreached r hr hfailed
        exact absurd hinside (Nat.not_lt_of_le houtside)

/-- A ledger that applies everything but the 8191st transfer, the first of its chunk. -/
def exceedsCredits (start : Nat) (_ : List Nat) : CommitAnswer :=
  if start = maxBatchSize then .ok [⟨0, "exceeds_credits"⟩] else .ok []

/-- Its failure is returned with the index 0. -/
theorem secondChunk_not_wellSubmitted :
    ¬WellSubmitted (List.range 8191) (submitBatch exceedsCredits (List.range 8191)) := by
  intro h
  have hreached : Reached exceedsCredits 0 (List.range 8191) 1 := by
    intro j hj
    obtain rfl := Nat.lt_one_iff.mp hj
    exact ⟨[], rfl⟩
  have hlength : (chunkAt (List.range 8191) 1).length = 1 := by
    rw [chunkAt, length_take, length_drop, length_range]
    rfl
  have hsome : chunkAt (List.range 8191) 1 ≠ [] := by
    intro hnil
    rw [hnil] at hlength
    cases hlength
  have hcall : callAt exceedsCredits 0 (List.range 8191) 1 ∈
      (submitBatch exceedsCredits (List.range 8191)).calls :=
    mem_calls_iff.mpr ⟨1, hreached, hsome, rfl⟩
  have hanswer : (callAt exceedsCredits 0 (List.range 8191) 1).results =
      [⟨0, "exceeds_credits"⟩] := rfl
  have hr : ⟨0, "exceeds_credits"⟩ ∈ (callAt exceedsCredits 0 (List.range 8191) 1).results := by
    rw [hanswer]
    exact mem_singleton_self _
  have hfailure : (callAt exceedsCredits 0 (List.range 8191) 1, ⟨0, "exceeds_credits"⟩) ∈
      (submitBatch exceedsCredits (List.range 8191)).failures :=
    mem_failures.mpr ⟨hcall, hr, by decide⟩
  have hindex := (forall₂_names_iff.mp h.indexed _ hfailure).2 (by
    rw [callAt_chunk, hlength]
    decide)
  have hstart : (callAt exceedsCredits 0 (List.range 8191) 1).start = maxBatchSize := rfl
  rw [hstart] at hindex
  exact absurd hindex (by decide)

end Bis.TigerBeetle
