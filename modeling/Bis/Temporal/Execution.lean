import Mathlib.Tactic.Common

/-!
The execution of an activity under a retry policy. The attempts that could be
made are a sequence and `body` says how one of them ends. A new attempt is made
as long as the one before ended in an error and the policy allows another.
-/

namespace Bis.Temporal

variable {τ ε α : Type*}

/-- The last attempt that is made, of those numbered from `0` to `limit`. -/
def lastAttempt (body : τ → Except ε α) (attempts : Nat → τ) : Nat → Nat
  | 0 => 0
  | limit + 1 =>
    match body (attempts (lastAttempt body attempts limit)) with
    | .ok _ => lastAttempt body attempts limit
    | .error _ => limit + 1

/-- How the activity ends: as the last attempt that is made. -/
def execute (body : τ → Except ε α) (limit : Nat) (attempts : Nat → τ) : Except ε α :=
  body (attempts (lastAttempt body attempts limit))

variable {body : τ → Except ε α} {attempts : Nat → τ}

theorem lastAttempt_le (limit : Nat) : lastAttempt body attempts limit ≤ limit := by
  induction limit with
  | zero => exact Nat.le_refl _
  | succ limit ih =>
    unfold lastAttempt
    split
    · omega
    · exact Nat.le_refl _

variable {limit n : Nat}

/-- An activity that ends in an error has used every attempt it was allowed. -/
theorem lastAttempt_of_error {e : ε}
    (h : body (attempts (lastAttempt body attempts limit)) = .error e) :
    lastAttempt body attempts limit = limit := by
  cases limit with
  | zero => rfl
  | succ limit =>
    unfold lastAttempt at h ⊢
    split at h
    · next a hok => exact absurd (hok.symm.trans h) nofun
    · rfl

/-- Every attempt before the last one ended in an error. -/
theorem error_before_last (hn : n < lastAttempt body attempts limit) :
    ∃ e, body (attempts n) = .error e := by
  induction limit with
  | zero => exact absurd hn (Nat.not_lt_zero n)
  | succ limit ih =>
    unfold lastAttempt at hn
    split at hn
    · exact ih hn
    next e herror =>
      rcases Nat.lt_succ_iff_lt_or_eq.mp hn with hlt | rfl
      · rw [← lastAttempt_of_error herror] at hlt
        exact ih hlt
      · exact ⟨e, by rwa [lastAttempt_of_error herror] at herror⟩

/-- An activity fails exactly if every attempt does. -/
theorem execute_error_iff :
    (∃ e, execute body limit attempts = .error e) ↔
      ∀ n ≤ limit, ∃ e, body (attempts n) = .error e := by
  constructor
  · rintro ⟨e, h⟩ n hn
    have hlast : lastAttempt body attempts limit = limit := lastAttempt_of_error h
    rcases Nat.lt_or_eq_of_le hn with hlt | rfl
    · exact error_before_last (hlast.symm ▸ hlt)
    · exact ⟨e, by rwa [execute, hlast] at h⟩
  · intro h
    exact h _ (lastAttempt_le limit)

/-- The last attempt is the first that succeeds. -/
theorem lastAttempt_of_first (hn : n ≤ limit) {a : α} (hok : body (attempts n) = .ok a)
    (hbefore : ∀ m < n, ∃ e, body (attempts m) = .error e) :
    lastAttempt body attempts limit = n := by
  rcases Nat.lt_trichotomy (lastAttempt body attempts limit) n with hlt | heq | hgt
  · obtain ⟨e, herror⟩ := hbefore _ hlt
    have hlimit := lastAttempt_of_error herror
    omega
  · exact heq
  · obtain ⟨e, herror⟩ := error_before_last hgt
    exact absurd (hok.symm.trans herror) nofun

end Bis.Temporal
