import Bis.TigerBeetle.Debit

/-!
The balance check of the ledger service at every value of its unsigned fields.
The casts to `i64` lose `2 ^ 64` for each field that is `2 ^ 63` or more, so the
comparison is right as long as no more of that is lost on the side of what is
taken than on the side of what there is.
-/

namespace Bis.TigerBeetle

open Bis.Number

/-- What a cast of this `u64` to `i64` loses, in units of `2 ^ 64`. -/
def castLoss (x : UInt64) : Int := if 2 ^ 63 ≤ x.toNat then 1 else 0

theorem toNat_eq_wrapI64 (x : UInt64) :
    (x.toNat : Int) = wrapI64 x.toNat + 2 ^ 64 * castLoss x := by
  have hx := x.toNat_lt
  unfold wrapI64 castLoss Int.bmod
  split <;> norm_num <;> split <;> omega

theorem fits_wrapI64 (x : Int) : FitsI64 (wrapI64 x) := (wrapI64_spec x).1

/-- An account with any values in its fields. -/
def u64Account (debitsPending debitsPosted creditsPending creditsPosted : UInt64) : TbAccount where
  debitsPending := debitsPending.toNat
  debitsPosted := debitsPosted.toNat
  creditsPending := creditsPending.toNat
  creditsPosted := creditsPosted.toNat

theorem fitsU64_u64Account (debitsPending debitsPosted creditsPending creditsPosted : UInt64) :
    (u64Account debitsPending debitsPosted creditsPending creditsPosted).fitsU64 = true := by
  have h1 := debitsPending.toNat_lt
  have h2 := debitsPosted.toNat_lt
  have h3 := creditsPending.toNat_lt
  have h4 := creditsPosted.toNat_lt
  simp [TbAccount.fitsU64, u64Account, h1, h2, h3, h4]

/-- Neither subtraction of `available_balance` leaves the range of `i64`. -/
def TbAccount.NoOverflow (account : TbAccount) : Prop :=
  FitsI64 (wrapI64 account.creditsPosted - wrapI64 account.debitsPosted) ∧
    FitsI64 (wrapI64 account.creditsPosted - wrapI64 account.debitsPosted -
      wrapI64 account.debitsPending)

/-- `execute_debit` gets past its check of the account that it has read. -/
def Posts (request : DebitRequest) (account : TbAccount) : Prop :=
  ∀ transfer, ∃ available, Debit.check ⟨.executeDebit request, transfer⟩ account = .ok available

/-- The check is exact: nothing overflows, and a transfer that is posted is covered. -/
def CheckExact (request : DebitRequest) (account : TbAccount) : Prop :=
  account.NoOverflow ∧
    (Posts request account → (request.amountKobo.toNat : Int) ≤ account.available)

theorem availableBalance_of_noOverflow {account : TbAccount} (h : account.NoOverflow) :
    account.availableBalance = wrapI64 account.creditsPosted - wrapI64 account.debitsPosted -
      wrapI64 account.debitsPending := by
  unfold TbAccount.availableBalance
  rw [wrapI64_of_fits h.1, wrapI64_of_fits h.2]

theorem posts_iff {request : DebitRequest} {account : TbAccount} (h : account.fitsU64 = true) :
    Posts request account ↔ wrapI64 request.amountKobo.toNat ≤ account.availableBalance := by
  unfold Posts Debit.check
  simp only [h, Bool.not_true, Bool.false_eq_true, if_false]
  constructor
  · intro hposts
    obtain ⟨available, hok⟩ := hposts ⟨"", "", "", 0⟩
    split at hok
    · cases hok
    · omega
  · intro hle transfer
    exact ⟨account.availableBalance, if_neg (by omega)⟩

/-- What is compared is off by the losses, and two values of `i64` differ by less than one. -/
theorem covers_iff {credits debits pending amount c d p a lc ld lp la : Int}
    (hcredits : credits = c + 2 ^ 64 * lc) (hdebits : debits = d + 2 ^ 64 * ld)
    (hpending : pending = p + 2 ^ 64 * lp) (hamount : amount = a + 2 ^ 64 * la)
    (hbalance : FitsI64 (c - d - p)) (ha : FitsI64 a) :
    (a ≤ c - d - p → amount ≤ credits - debits - pending) ↔ c - d - p < a ∨ ld + lp + la ≤ lc := by
  unfold FitsI64 at hbalance ha
  constructor
  · intro h
    by_contra hnot
    rw [not_or, not_lt, not_le] at hnot
    have hcovered := h hnot.1
    omega
  · rintro (hrefused | hlosses) hle
    · omega
    · omega

/-- Exactly when the check is exact: nothing overflows, and either the signed comparison
refuses, or the casts lose no more of the debits and the amount than of the credits. -/
theorem checkExact_iff (request : DebitRequest)
    (debitsPending debitsPosted creditsPending creditsPosted : UInt64) :
    CheckExact request (u64Account debitsPending debitsPosted creditsPending creditsPosted) ↔
      FitsI64 (wrapI64 creditsPosted.toNat - wrapI64 debitsPosted.toNat) ∧
      FitsI64 (wrapI64 creditsPosted.toNat - wrapI64 debitsPosted.toNat -
        wrapI64 debitsPending.toNat) ∧
      (wrapI64 creditsPosted.toNat - wrapI64 debitsPosted.toNat - wrapI64 debitsPending.toNat <
          wrapI64 request.amountKobo.toNat ∨
        castLoss debitsPosted + castLoss debitsPending + castLoss request.amountKobo ≤
          castLoss creditsPosted) := by
  let account := u64Account debitsPending debitsPosted creditsPending creditsPosted
  have hposts : Posts request account ↔
      wrapI64 request.amountKobo.toNat ≤ account.availableBalance :=
    posts_iff (fitsU64_u64Account debitsPending debitsPosted creditsPending creditsPosted)
  have hexact : account.NoOverflow → account.availableBalance =
      wrapI64 creditsPosted.toNat - wrapI64 debitsPosted.toNat - wrapI64 debitsPending.toNat :=
    availableBalance_of_noOverflow
  have havailable : account.available =
      (creditsPosted.toNat : Int) - debitsPosted.toNat - debitsPending.toNat := rfl
  have hcredits := toNat_eq_wrapI64 creditsPosted
  have hdebits := toNat_eq_wrapI64 debitsPosted
  have hpending := toNat_eq_wrapI64 debitsPending
  have hamount := toNat_eq_wrapI64 request.amountKobo
  change account.NoOverflow ∧ (Posts request account → _ ≤ account.available) ↔ _
  rw [← and_assoc]
  change _ ↔ account.NoOverflow ∧ _
  apply and_congr_right
  intro hfits
  rw [hposts, hexact hfits, havailable]
  exact covers_iff hcredits hdebits hpending hamount hfits.2 (fits_wrapI64 _)

/-- The casts of a debit of `2 ^ 63` kobo against an empty account read it as `- 2 ^ 63`. -/
theorem hugeDebit_posted :
    ¬ ∀ (request : DebitRequest)
      (debitsPending debitsPosted creditsPending creditsPosted : UInt64),
      CheckExact request (u64Account debitsPending debitsPosted creditsPending creditsPosted) := by
  intro h
  have hexact := h ⟨7, 9223372036854775808, "NGN", 1, "INV-1"⟩ 0 0 0 0
  have hposts : Posts ⟨7, 9223372036854775808, "NGN", 1, "INV-1"⟩ (u64Account 0 0 0 0) := by
    rw [posts_iff (fitsU64_u64Account 0 0 0 0)]
    decide
  have hcovered := hexact.2 hposts
  revert hcovered
  decide

end Bis.TigerBeetle
