import Bis.Transition.Run
import Mathlib.Data.List.Perm.Basic

/-!
The batch accumulator of the payment rails: any number of goroutines add
transfers and flush. What runs under the mutex is one step; the flush function
is called outside of it, so any number of calls are under way at once, and each
of them returns a result or an error at any time.

The context and the results of a flush are left out, and nothing looks into a
transfer.
-/

namespace Bis.TigerBeetle

open Bis.Transition List

variable {τ : Type*}

def maxBatchSize : Nat := 8190

structure PendingBatch (τ : Type*) where
  transfers : List τ
  maxSize : Nat

def PendingBatch.new (maxSize : Int) : PendingBatch τ :=
  { transfers := []
    maxSize := if maxSize ≤ 0 ∨ (maxBatchSize : Int) < maxSize then maxBatchSize
      else maxSize.toNat }

/-- The locked section of `Add`, and the batch it hands to the flush function. -/
def PendingBatch.add (b : PendingBatch τ) (t : τ) : PendingBatch τ × Option (List τ) :=
  let transfers := b.transfers ++ [t]
  if b.maxSize ≤ transfers.length then ({ b with transfers := [] }, some transfers)
  else ({ b with transfers }, none)

/-- The locked section of `Flush`. -/
def PendingBatch.flush (b : PendingBatch τ) : PendingBatch τ × Option (List τ) :=
  if b.transfers.length = 0 then (b, none) else ({ b with transfers := [] }, some b.transfers)

/-- The accumulator, the calls of the flush function under way, and what has been
added and delivered so far. -/
structure BatchRun (τ : Type*) where
  batch : PendingBatch τ
  flushing : List (List τ)
  added : List τ
  delivered : List (List τ)

def BatchRun.new (maxSize : Int) : BatchRun τ :=
  { batch := .new maxSize, flushing := [], added := [], delivered := [] }

inductive BatchStep (τ : Type*) where
  | add (t : τ)
  | flush
  /-- Call `i` of those under way returns, with an error or without. -/
  | returned (i : Nat) (failed : Bool)

def BatchRun.begin (s : BatchRun τ) (next : PendingBatch τ × Option (List τ)) : BatchRun τ :=
  { s with batch := next.1, flushing := s.flushing ++ next.2.toList }

def batchStep : Step (BatchRun τ) (BatchStep τ)
  | s, .add t => some ({ s with added := s.added ++ [t] }.begin (s.batch.add t))
  | s, .flush => some (s.begin s.batch.flush)
  | s, .returned i failed =>
    match s.flushing[i]? with
    | none => none
    | some batch =>
      let s := { s with flushing := s.flushing.eraseIdx i }
      if failed then some s else some { s with delivered := s.delivered ++ [batch] }

/-- Every transfer added is waiting, on its way, or delivered once. -/
def BatchRun.Conserved [DecidableEq τ] (s : BatchRun τ) : Prop :=
  ∀ t, s.added.count t =
    s.batch.transfers.count t + s.flushing.flatten.count t + s.delivered.flatten.count t

/-- The step is not a flush that returns an error. -/
def Succeeds (_ : BatchRun τ) : BatchStep τ → Prop
  | .returned _ failed => failed = false
  | _ => True

/-- No call of the flush function is without a transfer. -/
def BatchRun.Filled (s : BatchRun τ) : Prop := ∀ batch ∈ s.flushing, batch ≠ []

/-! ### One step -/

inductive BatchTakes (s : BatchRun τ) : BatchStep τ → BatchRun τ → Prop
  | wait (t : τ) :
      BatchTakes s (.add t)
        { s with
          batch := { s.batch with transfers := s.batch.transfers ++ [t] }
          added := s.added ++ [t] }
  | fill (t : τ) :
      BatchTakes s (.add t)
        { s with
          batch := { s.batch with transfers := [] }
          flushing := s.flushing ++ [s.batch.transfers ++ [t]]
          added := s.added ++ [t] }
  | idle : BatchTakes s .flush s
  | flush (hsome : s.batch.transfers ≠ []) :
      BatchTakes s .flush
        { s with
          batch := { s.batch with transfers := [] }
          flushing := s.flushing ++ [s.batch.transfers] }
  | fail (i : Nat) (batch : List τ) (hi : s.flushing[i]? = some batch) :
      BatchTakes s (.returned i true) { s with flushing := s.flushing.eraseIdx i }
  | deliver (i : Nat) (batch : List τ) (hi : s.flushing[i]? = some batch) :
      BatchTakes s (.returned i false)
        { s with flushing := s.flushing.eraseIdx i, delivered := s.delivered ++ [batch] }

theorem batchTakes_of_step {s s' : BatchRun τ} {a : BatchStep τ} (h : batchStep s a = some s') :
    BatchTakes s a s' := by
  cases a with
  | add t =>
    cases h
    have hfill : BatchTakes s (.add t) _ := BatchTakes.fill t
    have hwait : BatchTakes s (.add t) _ := BatchTakes.wait t
    simp only [BatchRun.begin, PendingBatch.add]
    split
    · exact hfill
    · simpa using hwait
  | flush =>
    cases h
    have hidle : BatchTakes s .flush s := .idle
    simp only [BatchRun.begin, PendingBatch.flush, length_eq_zero_iff]
    split
    · simpa using hidle
    · next hsome => exact BatchTakes.flush hsome
  | returned i failed =>
    cases hi : s.flushing[i]? with
    | none => simp [batchStep, hi] at h
    | some batch =>
      cases failed with
      | false =>
        obtain rfl : _ = s' := by simpa [batchStep, hi] using h
        exact .deliver i batch hi
      | true =>
        obtain rfl : _ = s' := by simpa [batchStep, hi] using h
        exact .fail i batch hi

theorem filled_step {s s' : BatchRun τ} {a : BatchStep τ} (hfilled : s.Filled)
    (h : batchStep s a = some s') : s'.Filled := by
  intro batch hbatch
  cases batchTakes_of_step h with
  | wait | idle => exact hfilled batch hbatch
  | fill t =>
    rcases mem_append.mp hbatch with hold | hnew
    · exact hfilled batch hold
    · obtain rfl := mem_singleton.mp hnew
      simp
  | flush hsome =>
    rcases mem_append.mp hbatch with hold | hnew
    · exact hfilled batch hold
    · obtain rfl := mem_singleton.mp hnew
      exact hsome
  | fail | deliver => exact hfilled batch (mem_of_mem_eraseIdx hbatch)

section

variable [DecidableEq τ]

theorem count_eraseIdx {batches : List (List τ)} {i : Nat} {batch : List τ}
    (h : batches[i]? = some batch) (t : τ) :
    batches.flatten.count t = batch.count t + (batches.eraseIdx i).flatten.count t := by
  obtain ⟨hi, rfl⟩ := List.getElem?_eq_some_iff.mp h
  have hperm := (List.getElem_cons_eraseIdx_perm hi).flatten.count_eq t
  rw [← hperm, flatten_cons, count_append]

/-- A step keeps the transfers exactly if it is not a flush that fails. -/
theorem conserved_step_iff {s s' : BatchRun τ} {a : BatchStep τ} (hfilled : s.Filled)
    (hconserved : s.Conserved) (h : batchStep s a = some s') : s'.Conserved ↔ Succeeds s a := by
  cases batchTakes_of_step h with
  | wait t =>
    refine iff_of_true (fun x => ?_) trivial
    have hx := hconserved x
    simp only [count_append]
    omega
  | fill | flush =>
    refine iff_of_true (fun x => ?_) trivial
    have hx := hconserved x
    simp only [count_append, flatten_append, flatten_singleton, count_nil]
    omega
  | idle => exact iff_of_true hconserved trivial
  | fail i batch hi =>
    refine iff_of_false (fun hafter => ?_) (by simp [Succeeds])
    have hmem : batch ∈ s.flushing := mem_of_getElem? hi
    obtain ⟨t, rest, hbatch⟩ := exists_cons_of_ne_nil (hfilled batch hmem)
    have hbefore := hconserved t
    have hnow := hafter t
    have herased := count_eraseIdx hi t
    have hone : 0 < batch.count t :=
      count_pos_iff.mpr (by rw [hbatch]; exact mem_cons_self)
    simp only at hnow
    omega
  | deliver i batch hi =>
    refine iff_of_true (fun x => ?_) rfl
    have hx := hconserved x
    have herased := count_eraseIdx hi x
    simp only [flatten_append, flatten_singleton, count_append]
    omega

/-! ### Every run -/

/-- No transfer is lost or delivered twice in the runs in which no flush returns
an error, and in no others. -/
theorem always_conserved_iff (maxSize : Int) (labels : List (BatchStep τ)) :
    Always batchStep BatchRun.Conserved (.new maxSize) labels ↔
      Meets batchStep Succeeds (.new maxSize) labels := by
  refine always_iff_meets labels (fun s a t hs => filled_step hs)
    (fun s a t hs hc => conserved_step_iff hs hc) ?_ ?_
  · intro batch hbatch
    cases hbatch
  · intro t
    simp [BatchRun.new, PendingBatch.new]

end

/-- Three transfers fill the batch, and the one flush of it fails. -/
theorem failed_flush_loses_transfers :
    ¬Always batchStep BatchRun.Conserved (BatchRun.new 3 : BatchRun Nat)
      [.add 1, .add 2, .add 3, .returned 0 true] := by
  intro h
  have hrun : (run batchStep (BatchRun.new 3 : BatchRun Nat)
      [.add 1, .add 2, .add 3, .returned 0 true]).map
        (fun s => (s.added, s.batch.transfers, s.flushing, s.delivered)) =
      some ([1, 2, 3], [], [], []) := by decide
  obtain ⟨s, hs, hvalues⟩ := Option.map_eq_some_iff.mp hrun
  have hone := h.finish hs 1
  simp only [Prod.mk.injEq] at hvalues
  obtain ⟨hadded, hpending, hflushing, hdelivered⟩ := hvalues
  rw [hadded, hpending, hflushing, hdelivered] at hone
  exact absurd hone (by decide)

end Bis.TigerBeetle
