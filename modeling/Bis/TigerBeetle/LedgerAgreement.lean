import Bis.Relation.Pairing
import Bis.TigerBeetle.LedgerViews
import Mathlib.RingTheory.Int.Basic

/-!
Where the two views agree. The page reads the ledger's timestamp as nanoseconds, the
export as seconds: a thousand times the number cannot be a millionth of it, except at
zero.
-/

namespace Bis.TigerBeetle.LedgerViews

open Bis.Calendar Bis.Number Bis.Relation List

/-! ### Numbers -/

theorem number_of_small {n : Nat} (h : n ≤ 2 ^ 53) : number n = n := by
  rw [number, roundToDouble_of_small (by omega), Int.toNat_natCast]

theorem le_number_of_large {n : Nat} (h : 2 ^ 53 ≤ n) : 2 ^ 53 ≤ number n := by
  have hlarge := le_roundToDouble (x := n) (by exact_mod_cast h)
  unfold number
  omega

theorem number_eq_zero_iff (n : Nat) : number n = 0 ↔ n = 0 := by
  rcases Nat.lt_or_ge (2 ^ 53) n with hlarge | hsmall
  · have hnumber := le_number_of_large hlarge.le
    omega
  · rw [number_of_small hsmall]

theorem newDate_number {n : Nat} : newDate (number n) = if n ≤ maxTime then some n else none := by
  have hmax : maxTime < 2 ^ 53 := by decide
  unfold newDate
  rcases Nat.lt_or_ge (2 ^ 53) n with hlarge | hsmall
  · have hnumber := le_number_of_large hlarge.le
    rw [if_neg (by norm_cast; omega), if_neg (by omega)]
  · rw [number_of_small hsmall, Nat.floor_natCast]
    norm_cast

/-- An instant that a `Date` holds has one text. -/
theorem toISOString_inj {first second : Nat} {text : String}
    (hfirst : toISOString first = some text) (hsecond : toISOString second = some text) :
    first = second := by
  have hread := parseISOString_toISOString hfirst
  rw [parseISOString_toISOString hsecond] at hread
  exact (Option.some.inj hread).symm

/-! ### Amounts -/

theorem hundred_mul_zpow_ne_one (m k : ℤ) : (100 : ℚ) * 2 ^ m * k ≠ 1 := by
  intro h
  rcases Int.le_total 0 m with hm | hm
  · obtain ⟨n, rfl⟩ := Int.eq_ofNat_of_zero_le hm
    have hint : 100 * 2 ^ n * k = 1 := by
      rw [zpow_natCast] at h
      exact_mod_cast h
    have hdvd : (100 : ℤ) ∣ 1 := ⟨2 ^ n * k, by linarith⟩
    omega
  · obtain ⟨n, hn⟩ := Int.eq_ofNat_of_zero_le (Int.neg_nonneg_of_nonpos hm)
    obtain rfl : m = -(n : ℤ) := by omega
    have hint : 100 * k = 2 ^ n := by
      rw [zpow_neg, zpow_natCast] at h
      have hpos : (2 : ℚ) ^ n ≠ 0 := pow_ne_zero n (by norm_num)
      field_simp at h
      exact_mod_cast h
    have hdvd : (5 : ℤ) ∣ 2 ^ n := ⟨20 * k, by rw [← hint]; ring⟩
    have hprime : Prime (5 : ℤ) := Int.prime_iff_natAbs_prime.mpr Nat.prime_five
    have hfive : (5 : ℤ) ∣ 2 := hprime.dvd_of_dvd_pow hdvd
    omega

/-- A quotient too large for `toFixed` has whole steps. -/
theorem exists_ulp_eq_of_large {q : ℚ} (h : 10 ^ 20 ≤ q) : ∃ n : ℕ, ulp q = 2 ^ n := by
  have hpower : ((2 : ℕ) : ℚ) ^ (52 : ℤ) ≤ q := by
    refine le_trans ?_ h
    norm_num
  have hlog : 52 ≤ Int.log 2 q :=
    (Int.zpow_le_iff_le_log (by norm_num) (by linarith)).mp hpower
  obtain ⟨n, hn⟩ := Int.eq_ofNat_of_zero_le (Int.sub_nonneg_of_le hlog)
  refine ⟨n, ?_⟩
  rw [ulp, hn]
  exact zpow_natCast 2 n

theorem abs_hundred_toDouble_sub_le (amount : ℕ) (k : ℤ) :
    |100 * toDouble (amount / 100) - amount| ≤ |k * (100 * ulp (amount / 100)) - amount| := by
  have hnear := abs_mul_toDouble_sub_le (show (0 : ℚ) ≤ 100 by norm_num) ((amount : ℚ) / 100) k
  rwa [mul_div_cancel₀ (amount : ℚ) (show (100 : ℚ) ≠ 0 by norm_num)] at hnear

theorem hundred_toDouble (q : ℚ) : 100 * toDouble q = roundEven (q / ulp q) * (100 * ulp q) := by
  rw [toDouble]
  ring

/-- Among the numbers that naira can be, the rounded one is near the amount if any is. -/
theorem near_toDouble_iff (amount : ℕ) :
    ((amount : ℚ) - 1 / 2 ≤ 100 * toDouble (amount / 100) ∧
        100 * toDouble (amount / 100) < amount + 1 / 2) ↔ KoboKept amount := by
  constructor
  · rw [hundred_toDouble]
    exact fun h => ⟨_, h⟩
  · rintro ⟨k, hlow, hhigh⟩
    have hclose := abs_hundred_toDouble_sub_le amount k
    have hbound : |k * (100 * ulp (amount / 100)) - (amount : ℚ)| ≤ 1 / 2 := by
      rw [abs_le]
      constructor <;> linarith
    have hwithin := abs_le.mp (hclose.trans hbound)
    refine ⟨by linarith, lt_of_le_of_ne (by linarith) ?_⟩
    -- A tie above the amount would be a step away from one below it.
    intro htie
    have hhalf : |100 * toDouble (amount / 100) - (amount : ℚ)| = 1 / 2 := by
      rw [htie, add_sub_cancel_left]
      norm_num
    have hother : k * (100 * ulp (amount / 100)) = (amount : ℚ) - 1 / 2 := by
      rw [hhalf] at hclose
      rcases le_abs.mp hclose with h | h <;> linarith
    have hgrid := hundred_toDouble ((amount : ℚ) / 100)
    apply hundred_mul_zpow_ne_one (Int.log 2 ((amount : ℚ) / 100) - 52)
      (roundEven ((amount : ℚ) / 100 / ulp (amount / 100)) - k)
    rw [← ulp, Int.cast_sub]
    linarith

/-- Naira in whole steps are near the amount only if they are the amount. -/
theorem eq_toDouble_iff_of_large {amount : ℕ} (hlarge : (10 : ℚ) ^ 20 ≤ amount / 100) :
    100 * toDouble (amount / 100) = (amount : ℚ) ↔ KoboKept amount := by
  obtain ⟨n, hn⟩ := exists_ulp_eq_of_large hlarge
  constructor
  · intro h
    refine ⟨roundEven ((amount : ℚ) / 100 / ulp (amount / 100)), ?_⟩
    rw [← hundred_toDouble, h]
    constructor <;> linarith
  · rintro ⟨k, hlow, hhigh⟩
    have hwhole : k * (100 * ulp (amount / 100)) = ((k * (100 * 2 ^ n) : ℤ) : ℚ) := by
      rw [hn]
      push_cast
      ring
    have hexact : k * (100 * ulp (amount / 100)) = (amount : ℚ) := by
      rw [hwhole] at hlow hhigh ⊢
      have hle : (amount : ℤ) < k * (100 * 2 ^ n) + 1 := by
        have h : (amount : ℚ) < ((k * (100 * 2 ^ n) : ℤ) : ℚ) + 1 := by linarith
        exact_mod_cast h
      have hge : k * (100 * 2 ^ n) < (amount : ℤ) + 1 := by
        have h : ((k * (100 * 2 ^ n) : ℤ) : ℚ) < (amount : ℚ) + 1 := by linarith
        exact_mod_cast h
      have heq : k * (100 * 2 ^ n) = (amount : ℤ) := by omega
      rw [heq, Int.cast_natCast]
    have hclose := abs_hundred_toDouble_sub_le amount k
    rw [hexact, sub_self, abs_zero] at hclose
    exact sub_eq_zero.mp (abs_nonpos_iff.mp hclose)

theorem floor_hundredths_iff (x : ℚ) (amount : ℕ) :
    (⌊100 * x + 1 / 2⌋ : ℚ) / 100 * 100 = amount ↔
      (amount : ℚ) - 1 / 2 ≤ 100 * x ∧ 100 * x < amount + 1 / 2 := by
  have hcast : (⌊100 * x + 1 / 2⌋ : ℚ) = amount ↔ ⌊100 * x + 1 / 2⌋ = (amount : ℤ) := by
    norm_cast
  rw [div_mul_cancel₀ _ (by norm_num), hcast, Int.floor_eq_iff, Int.cast_natCast]
  constructor
  · rintro ⟨hlow, hhigh⟩
    constructor <;> linarith
  · rintro ⟨hlow, hhigh⟩
    constructor <;> linarith

/-- The naira of the file are the amount exactly when the amount is near the numbers
that naira can be. -/
theorem toFixed2_mul_hundred_iff (amount : ℕ) :
    toFixed2 (toDouble (amount / 100)) * 100 = amount ↔ KoboKept amount := by
  unfold toFixed2
  split
  next hsmall => rw [floor_hundredths_iff, near_toDouble_iff]
  next hlarge =>
    have hdouble : toDouble ((amount : ℚ) / 100) ≤ 2 * (amount / 100) :=
      toDouble_le_two_mul (div_nonneg (Nat.cast_nonneg amount) (by norm_num))
    have hfar : (10 : ℚ) ^ 20 ≤ amount / 100 := by linarith
    rw [mul_comm, eq_toDouble_iff_of_large hfar]

/-! ### One transfer -/

theorem newDate_exportTime (transfer : LedgerTransfer) :
    newDate transfer.exportTime =
      if number (transfer.timestamp.getD 0) * 1000 ≤ maxTime then
        some (number (transfer.timestamp.getD 0) * 1000)
      else none := newDate_number

/-- The two readings of a timestamp meet in 1970. -/
theorem row_iff (transfer : LedgerTransfer) :
    (∃ row, exportRow transfer = .ok row ∧ SameTransfer row (ledgerEntry transfer)) ↔
      transfer.timestamp.getD 0 = 0 ∧ KoboKept (number transfer.amount) := by
  have hquotient : toDouble ((number (transfer.timestamp.getD 0) : ℚ) / 1000000) ≤
      2 * ((number (transfer.timestamp.getD 0) : ℚ) / 1000000) :=
    toDouble_le_two_mul (by positivity)
  constructor
  · rintro ⟨row, hrow, hsame⟩
    unfold exportRow at hrow
    split at hrow
    · cases hrow
    next text htext =>
      cases hrow
      refine ⟨?_, (toFixed2_mul_hundred_iff _).mp hsame.amount⟩
      obtain ⟨exportInstant, hexport, hexportText⟩ := Option.bind_eq_some_iff.mp htext
      obtain ⟨pageInstant, hpage, hpageText⟩ := Option.bind_eq_some_iff.mp hsame.instant
      obtain rfl := toISOString_inj hexportText hpageText
      rw [newDate_exportTime] at hexport
      split at hexport
      next =>
        cases hexport
        rw [← number_eq_zero_iff]
        by_contra hpositive
        unfold ledgerEntry newDate at hpage
        dsimp only at hpage
        split at hpage
        · have hfloor := (Option.some.inj hpage).ge
          rw [Nat.le_floor_iff' (by omega)] at hfloor
          have hone : (1 : ℚ) ≤ number (transfer.timestamp.getD 0) := by
            exact_mod_cast Nat.one_le_iff_ne_zero.mpr hpositive
          push_cast at hfloor
          linarith
        · cases hpage
      next => cases hexport
  · rintro ⟨hzero, hkept⟩
    have hnumber : number 0 = 0 := number_of_small (Nat.zero_le _)
    rw [hzero, hnumber, Nat.cast_zero, zero_div, mul_zero] at hquotient
    have hexport : newDate transfer.exportTime = some 0 := by
      rw [newDate_exportTime, hzero, hnumber]
      rfl
    have hpage : (ledgerEntry transfer).timestamp = some 0 := by
      unfold ledgerEntry newDate
      dsimp only
      rw [hzero, hnumber, Nat.cast_zero, zero_div, Nat.floor_of_nonpos hquotient,
        if_pos (hquotient.trans (Nat.cast_nonneg maxTime))]
    obtain ⟨text, htext⟩ : ∃ text, toISOString 0 = some text := ⟨_, if_pos (Nat.zero_le _)⟩
    have hbind : (newDate transfer.exportTime).bind toISOString = some text := by
      rw [hexport]
      exact htext
    refine ⟨_, by rw [exportRow, hbind], ?_⟩
    constructor
    case id => rfl
    case type => rfl
    case amount => exact (toFixed2_mul_hundred_iff _).mpr hkept
    case instant =>
      rw [hpage]
      exact htext

/-! ### The lists -/

theorem exported_iff (tenantId : String) (type : TypeFilter) (transfer : LedgerTransfer) :
    exported { tenantId, type } transfer = true ↔ type.Exports transfer.code := by
  cases type <;> simp [exported, unbounded, TypeFilter.Exports]

theorem shown_iff (type : TypeFilter) (transfer : LedgerTransfer) :
    shown type (ledgerEntry transfer) = true ↔ type.Shows transfer.code := by
  cases type <;> simp [shown, ledgerEntry, LedgerTransfer.entryType, TypeFilter.Shows]

theorem TypeFilter.shows_of_exports {type : TypeFilter} {code : Nat} (h : type.Exports code) :
    type.Shows code := by
  cases type with
  | all => trivial
  | debit =>
    change code = 1 at h
    change code ≠ 2
    omega
  | credit => exact h

section Views

variable {transfersOf : String → Option Nat → Option (List LedgerTransfer)}
  {contextTenantId : Option Int} {tenantId : String}

/-- All transfers of a tenant. -/
def listed (transfersOf : String → Option Nat → Option (List LedgerTransfer))
    (tenantId : String) : List LedgerTransfer :=
  (transfersOf (tenantAccountId tenantId) none).getD []

theorem getLedger_eq
    (hlimit : ∀ account n,
      transfersOf account (some n) = (transfersOf account none).map (List.take n))
    (haccess : assertBillingTenantAccess contextTenantId tenantId = .ok ()) (limit : Nat)
    (type : TypeFilter) :
    getLedger transfersOf contextTenantId { tenantId, limit, type } =
      .ok ((((listed transfersOf tenantId).take limit).filter
        fun transfer => shown type (ledgerEntry transfer)).map ledgerEntry) := by
  have htake : (transfersOf (tenantAccountId tenantId) (some limit)).getD [] =
      (listed transfersOf tenantId).take limit := by
    rw [hlimit, listed]
    cases transfersOf (tenantAccountId tenantId) none with
    | none => rw [Option.map_none, Option.getD_none, take_nil]
    | some transfers => rfl
  unfold getLedger
  rw [haccess]
  dsimp only
  rw [htake, filter_map]
  rfl

theorem agree_ok_iff
    (haccess : assertBillingTenantAccess contextTenantId tenantId = .ok ())
    (type : TypeFilter) (entries : List LedgerEntry) :
    Agree (exportLedger transfersOf contextTenantId { tenantId, type }) (.ok entries) ↔
      ∃ rows, ((listed transfersOf tenantId).filter (exported { tenantId, type })).mapM exportRow =
        .ok rows ∧ List.Forall₂ SameTransfer rows entries := by
  unfold Agree exportLedger
  rw [haccess]
  dsimp only
  rw [← listed]
  cases ((listed transfersOf tenantId).filter (exported { tenantId, type })).mapM exportRow with
  | ok | error => simp

/-- The views agree on the transfers of one type exactly when the page's limit leaves
none of them out, none that the page shows has a code the export does not count, none
has a timestamp, and none has an amount that naira cannot hold. -/
theorem agree_iff
    (hlimit : ∀ account n,
      transfersOf account (some n) = (transfersOf account none).map (List.take n))
    (hids : ((listed transfersOf tenantId).map LedgerTransfer.id).Nodup)
    (haccess : assertBillingTenantAccess contextTenantId tenantId = .ok ()) (limit : Nat)
    (type : TypeFilter) :
    Agree (exportLedger transfersOf contextTenantId { tenantId, type })
        (getLedger transfersOf contextTenantId { tenantId, limit, type }) ↔
      (∀ transfer ∈ (listed transfersOf tenantId).take limit, type.Shows transfer.code →
        type.Exports transfer.code ∧ transfer.timestamp.getD 0 = 0 ∧
          KoboKept (number transfer.amount)) ∧
      ∀ transfer ∈ (listed transfersOf tenantId).drop limit, ¬ type.Exports transfer.code := by
  have hsame : ∀ first ∈ (listed transfersOf tenantId).filter (exported { tenantId, type }),
      ∀ second ∈ ((listed transfersOf tenantId).take limit).filter
        (fun transfer => shown type (ledgerEntry transfer)),
      (∃ row, exportRow first = .ok row ∧ SameTransfer row (ledgerEntry second)) →
        first = second := by
    rintro first hfirst second hsecond ⟨row, hrow, hsame⟩
    have hid : first.id = second.id := by
      unfold exportRow at hrow
      split at hrow
      · cases hrow
      · cases hrow
        exact hsame.id
    have hmem := mem_of_mem_take (mem_filter.mp hsecond).1
    exact inj_on_of_nodup_map hids (mem_filter.mp hfirst).1 hmem hid
  have hcodes : ∀ transfer : LedgerTransfer, exported { tenantId, type } transfer →
      shown type (ledgerEntry transfer) := by
    intro transfer hexported
    exact (shown_iff type transfer).mpr
      (TypeFilter.shows_of_exports ((exported_iff tenantId type transfer).mp hexported))
  rw [getLedger_eq hlimit haccess, agree_ok_iff haccess, exists_mapM_ok_iff,
    List.forall₂_map_right_iff, forall₂_iff_of_diagonal hsame,
    filter_eq_filter_take_iff hcodes]
  simp only [row_iff, exported_iff, shown_iff, mem_filter]
  constructor
  · rintro ⟨⟨hshown, hleft⟩, hrows⟩
    refine ⟨?_, hleft⟩
    intro transfer hmem hshows
    have hexports := hshown transfer hmem hshows
    exact ⟨hexports, hrows transfer ⟨mem_of_mem_take hmem, hexports⟩⟩
  · rintro ⟨hshown, hleft⟩
    refine ⟨⟨fun transfer hmem hshows => (hshown transfer hmem hshows).1, hleft⟩, ?_⟩
    rintro transfer ⟨hmem, hexports⟩
    rw [← take_append_drop limit (listed transfersOf tenantId), mem_append] at hmem
    rcases hmem with htake | hdrop
    · exact (hshown transfer htake (TypeFilter.shows_of_exports hexports)).2
    · exact absurd hexports (hleft transfer hdrop)

/-- A ledger with the given transfers of each account. -/
def replyOf (transfers : List LedgerTransfer) (_ : String) (limit : Option Nat) :
    Option (List LedgerTransfer) :=
  some (limit.elim transfers transfers.take)

/-- A basic check that was paid for on a day of 2026. -/
def basicDebit : LedgerTransfer :=
  { id := "7c0e", timestamp := some 1788609600000000000, amount := 50000, code := 1,
    userData128 := some "INV-900", userData64 := some 1 }

theorem basicDebit_agree_iff :
    Agree (exportLedger (replyOf [basicDebit]) (some 42) { tenantId := "42" })
        (getLedger (replyOf [basicDebit]) (some 42) { tenantId := "42" }) ↔
      (∀ transfer ∈ (listed (replyOf [basicDebit]) "42").take 100,
        TypeFilter.all.Shows transfer.code →
          TypeFilter.all.Exports transfer.code ∧ transfer.timestamp.getD 0 = 0 ∧
            KoboKept (number transfer.amount)) ∧
      ∀ transfer ∈ (listed (replyOf [basicDebit]) "42").drop 100,
        ¬ TypeFilter.all.Exports transfer.code := by
  apply agree_iff
  · intro account n
    rfl
  · decide
  · decide

/-- The export of this transfer fails, and the page shows it. -/
theorem basicDebit_not_agree :
    ¬ Agree (exportLedger (replyOf [basicDebit]) (some 42) { tenantId := "42" })
      (getLedger (replyOf [basicDebit]) (some 42) { tenantId := "42" }) := by
  have hlate : ¬ number (basicDebit.timestamp.getD 0) * 1000 ≤ maxTime := by decide
  have hrow : exportRow basicDebit = .error .rangeError := by
    rw [exportRow, newDate_exportTime, if_neg hlate]
    rfl
  have haccess : assertBillingTenantAccess (some 42) "42" = .ok () := by decide
  have hexport : exportLedger (replyOf [basicDebit]) (some 42) { tenantId := "42" } =
      .error .rangeError := by
    unfold exportLedger
    rw [haccess]
    change List.mapM exportRow [basicDebit] = _
    rw [mapM_cons, hrow]
    rfl
  rw [hexport]
  exact id

end Views

end Bis.TigerBeetle.LedgerViews
