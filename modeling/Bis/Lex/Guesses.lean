import Bis.Lex.Pin

/-!
When an issued PIN stands three wrong guesses at most and is good once. The count of the
wrong guesses is on a row of its own, which a lock that has ended takes with it; so the
PIN must not outlive its lock, and nothing else may take the row of a live PIN.
-/

namespace Bis.Lex

open Bis.Transition List Function Option

/-! ### What is promised -/

/-- A wrong guess that was held against the PIN. -/
def Guess.wrong (guess : Guess) : Bool := guess.compared && !guess.result.valid

def Guess.valid (guess : Guess) : Bool := guess.result.valid

/-- Nothing was said that ends the life of the PIN. -/
def Guess.leavesOpen (guess : Guess) : Bool :=
  !guess.result.valid && !guess.result.expired && !guess.result.locked && !guess.result.used

/-- At most three wrong guesses are compared, one at most succeeds, and none does after the
PIN has expired, was used or was locked. -/
structure Issue.Bounded (issue : Issue) : Prop where
  wrong : issue.guesses.countP Guess.wrong ≤ PINMaxAttempts
  once : issue.guesses.countP Guess.valid ≤ 1
  inTime : ∀ guess ∈ issue.guesses, guess.valid → guess.now ≤ issue.issuedAt + pinTTL
  last : issue.guesses.Pairwise fun later earlier => later.valid → earlier.leavesOpen

def GuessesBounded (s : PinSystem) : Prop :=
  ∀ phone, ∀ issue ∈ s.issues phone, issue.Bounded

/-! ### When it is kept -/

namespace Officer

/-- The PIN can still be used. -/
def live (officer : Officer) (now : Nat) : Bool :=
  officer.session.any fun session => !session.used && !session.isExpired now

/-- The lock, if there is one, holds; or the PIN is gone too, and is looked at. -/
def lockHolds (officer : Officer) (now : Nat) (db : Carried) : Bool :=
  (officer.attempts.bind Attempts.lockedUntil).all fun lockedUntil =>
    decide (now < second * lockedUntil) || (db.readSession && !officer.live now)

end Officer

/-- What a guess has to write is written, no guess finds its lock over and the PIN alive, a
PIN is not issued under a lock that stays, and the cleanup, where its second statement is
carried out, finds no count to delete beside a PIN that has not expired. -/
def KeepsCount (s : PinSystem) : PinLabel → Prop
  | .issue phone _ _ _ cleared =>
    cleared = true ∨ (s.store phone).attempts.bind Attempts.lockedUntil = none
  | .verify phone _ now db => db.write = true ∧ (s.store phone).lockHolds now db = true
  | .cleanup now carried =>
    carried = true → ∀ phone, ∀ row ∈ (s.store phone).attempts, row.lockedUntil = none →
      row.windowStart < (now - hour) / second →
        ∀ session ∈ (s.store phone).session, session.expiresAt < now / second

/-! ### One guess more -/

variable {officer : Officer} {issue : Issue} {guess : Guess}

/-- A guess that fails. -/
theorem Issue.Bounded.refuse (h : issue.Bounded) (hvalid : guess.valid = false)
    (hwrong : guess.wrong = true → issue.guesses.countP Guess.wrong < PINMaxAttempts) :
    (issue.record guess).Bounded where
  wrong := by
    change (guess :: issue.guesses).countP Guess.wrong ≤ PINMaxAttempts
    rw [countP_cons]
    split
    next hw => exact hwrong hw
    next => exact h.wrong
  once := by
    change (guess :: issue.guesses).countP Guess.valid ≤ 1
    rw [countP_cons_of_neg (by simp [hvalid])]
    exact h.once
  inTime := by
    intro g hg hgvalid
    rcases mem_cons.mp hg with rfl | hold
    · rw [hvalid] at hgvalid
      cases hgvalid
    · exact h.inTime g hold hgvalid
  last := by
    refine pairwise_cons.mpr ⟨?_, h.last⟩
    intro earlier _ hgvalid
    rw [hvalid] at hgvalid
    cases hgvalid

/-- The guess that succeeds, after none that ended the life of the PIN. -/
theorem Issue.Bounded.succeed (h : issue.Bounded) (hvalid : guess.valid = true)
    (hopen : ∀ earlier ∈ issue.guesses, earlier.leavesOpen = true)
    (htime : guess.now ≤ issue.issuedAt + pinTTL) : (issue.record guess).Bounded where
  wrong := by
    have hright : guess.wrong = false := by
      have hresult : guess.result.valid = true := hvalid
      simp [Guess.wrong, hresult]
    change (guess :: issue.guesses).countP Guess.wrong ≤ PINMaxAttempts
    rw [countP_cons_of_neg (by simp [hright])]
    exact h.wrong
  once := by
    have hnone : issue.guesses.countP Guess.valid = 0 := by
      rw [countP_eq_zero]
      intro earlier hearlier hev
      have hleaves := hopen earlier hearlier
      have hresult : earlier.result.valid = true := hev
      simp [Guess.leavesOpen, hresult] at hleaves
    change (guess :: issue.guesses).countP Guess.valid ≤ 1
    exact Nat.le_of_eq (by rw [countP_cons_of_pos hvalid, hnone])
  inTime := by
    intro g hg hgvalid
    rcases mem_cons.mp hg with rfl | hold
    · exact htime
    · exact h.inTime g hold hgvalid
  last := by
    refine pairwise_cons.mpr ⟨?_, h.last⟩
    intro earlier hearlier _
    exact hopen earlier hearlier

/-! ### The count of the wrong guesses -/

/-- The count that the next wrong guess adds to. -/
def Officer.count (officer : Officer) : Nat :=
  officer.attempts.elim 0 Attempts.attempts

def Officer.lock (officer : Officer) : Option Nat := officer.attempts.bind Attempts.lockedUntil

/-- While there is no lock, the count is below the limit. -/
def Officer.Small (officer : Officer) : Prop :=
  officer.lock = none → officer.count < PINMaxAttempts

variable {now : Nat} {db : Carried}

theorem Officer.gone_of_lock_over {lockedUntil : Nat} (h : officer.lockHolds now db = true)
    (hlock : officer.lock = some lockedUntil) (hover : ¬ now < second * lockedUntil) :
    db.readSession = true ∧ officer.live now = false := by
  have hall : (decide (now < second * lockedUntil) ||
      (db.readSession && !officer.live now)) = true := by
    rw [Officer.lockHolds, ← Officer.lock, hlock] at h
    exact h
  rcases Bool.or_eq_true_iff.mp hall with hlocked | hgone
  · exact absurd (of_decide_eq_true hlocked) hover
  · obtain ⟨hread, hlive⟩ := Bool.and_eq_true_iff.mp hgone
    exact ⟨hread, by simpa using hlive⟩

/-- A PIN that is not used and not locked has all its wrong guesses in the count. -/
structure Tracks (officer : Officer) (issue : Issue) : Prop where
  bounded : issue.Bounded
  small : officer.Small
  expires : ∀ session ∈ officer.session, session.used = false →
    session.expiresAt = (issue.issuedAt + pinTTL) / second
  counted : ∀ session ∈ officer.session, session.used = false → officer.lock = none →
    issue.guesses.countP Guess.wrong ≤ officer.count ∧
      ∀ guess ∈ issue.guesses, guess.leavesOpen = true

/-- Where the rows stay and the guess tells nothing. -/
theorem Tracks.same (h : Tracks officer issue) (hwrong : guess.compared = false)
    (hvalid : guess.valid = false)
    (hopen : ∀ session ∈ officer.session, session.used = false → officer.lock = none →
      guess.leavesOpen = true) : Tracks officer (issue.record guess) where
  bounded := h.bounded.refuse hvalid (by simp [Guess.wrong, hwrong])
  small := h.small
  expires := h.expires
  counted := by
    intro session hsession hused hlock
    obtain ⟨hcount, hleaves⟩ := h.counted session hsession hused hlock
    refine ⟨?_, ?_⟩
    · change (guess :: issue.guesses).countP Guess.wrong ≤ officer.count
      rw [countP_cons_of_neg (by simp [Guess.wrong, hwrong])]
      exact hcount
    · intro g hg
      rcases mem_cons.mp hg with rfl | hold
      · exact hopen session hsession hused hlock
      · exact hleaves g hold

/-- Where no PIN is left that could be used. -/
theorem Tracks.spent (h : Tracks officer issue) {after : Officer} (hsmall : after.Small)
    (hspent : ∀ session ∈ after.session, session.used = true) (hwrong : guess.compared = false)
    (hvalid : guess.valid = false) : Tracks after (issue.record guess) where
  bounded := h.bounded.refuse hvalid (by simp [Guess.wrong, hwrong])
  small := hsmall
  expires := by
    intro session hsession hused
    rw [hspent session hsession] at hused
    cases hused
  counted := by
    intro session hsession hused
    rw [hspent session hsession] at hused
    cases hused

theorem Tracks.wrongGuess (h : Tracks officer issue) {session : Session}
    (hsession : session ∈ officer.session) (hused : session.used = false)
    (hlock : officer.lock = none) (hwrite : db.write = true) :
    Tracks (officer.wrongGuess officer.count now db).officer
      (issue.record ((officer.wrongGuess officer.count now db).asGuess now)) := by
  obtain ⟨hcount, hleaves⟩ := h.counted session hsession hused hlock
  have hbelow : issue.guesses.countP Guess.wrong < PINMaxAttempts :=
    Nat.lt_of_le_of_lt hcount (h.small hlock)
  unfold Officer.wrongGuess
  simp only [hwrite, if_true]
  split
  next hmax =>
    refine ⟨h.bounded.refuse rfl (fun _ => hbelow), ?_, h.expires, ?_⟩
    · intro hlock'
      cases hlock'
    · intro _ _ _ hlock'
      cases hlock'
  next hmax =>
    refine ⟨h.bounded.refuse rfl (fun _ => hbelow), fun _ => Nat.lt_of_not_le hmax, h.expires, ?_⟩
    intro _ _ _ _
    refine ⟨?_, ?_⟩
    · change (_ :: issue.guesses).countP Guess.wrong ≤ officer.count + 1
      rw [countP_cons_of_pos rfl]
      exact Nat.succ_le_succ hcount
    · intro g hg
      rcases mem_cons.mp hg with rfl | hold
      · rfl
      · exact hleaves g hold

theorem Tracks.rightGuess (h : Tracks officer issue) {session : Session}
    (hsession : session ∈ officer.session) (hused : session.used = false)
    (hlock : officer.lock = none) (hexpired : session.isExpired now = false)
    (hwrite : db.write = true) :
    Tracks (officer.rightGuess session db).officer
      (issue.record ((officer.rightGuess session db).asGuess now)) := by
  obtain ⟨_, hleaves⟩ := h.counted session hsession hused hlock
  have htime : now ≤ issue.issuedAt + pinTTL := by
    have hle : now ≤ second * session.expiresAt :=
      Nat.le_of_not_lt (of_decide_eq_false hexpired)
    rw [h.expires session hsession hused] at hle
    exact Nat.le_trans hle (Nat.mul_div_le _ _)
  have hspent : ∀ after ∈ (officer.rightGuess session db).officer.session, after.used = true := by
    intro after hafter
    unfold Officer.rightGuess at hafter
    simp only [hwrite, if_true, mem_some_iff] at hafter
    rw [← hafter]
  refine ⟨h.bounded.succeed rfl hleaves htime, ?_, ?_, ?_⟩
  · intro _
    change (if db.clear then none else officer.attempts).elim 0 Attempts.attempts <
      PINMaxAttempts
    split
    · exact Nat.zero_lt_succ _
    · exact h.small hlock
  · intro after hafter hunused
    rw [hspent after hafter] at hunused
    cases hunused
  · intro after hafter hunused
    rw [hspent after hafter] at hunused
    cases hunused

/-- The session is looked at, with the count of the officer's row. -/
theorem Tracks.checkSession (h : Tracks officer issue) (hlock : officer.lock = none)
    (pinHash : String) (hwrite : db.write = true) :
    Tracks (officer.checkSession pinHash officer.count now db).officer
      (issue.record ((officer.checkSession pinHash officer.count now db).asGuess now)) := by
  unfold Officer.checkSession
  split
  next =>
    split
    next hnone =>
      refine h.spent h.small ?_ rfl rfl
      intro session hsession
      rw [hnone] at hsession
      cases hsession
    next session hsession =>
      split
      next hexpired =>
        refine h.spent h.small ?_ rfl rfl
        intro after hafter
        cases hafter
      next hexpired =>
        split
        next hused =>
          refine h.spent h.small ?_ rfl rfl
          intro after hafter
          rw [hsession] at hafter
          cases hafter
          exact hused
        next hused =>
          have hunused : session.used = false := Bool.eq_false_iff.mpr hused
          split
          next hright =>
            exact h.rightGuess hsession hunused hlock (Bool.eq_false_iff.mpr hexpired) hwrite
          next hwrong => exact h.wrongGuess hsession hunused hlock hwrite
  next => exact h.same rfl rfl fun _ _ _ _ => rfl

/-- The lock is over, and the PIN is gone. -/
theorem Tracks.checkGone (h : Tracks officer issue) {row : Option Attempts}
    (hsmall : ∀ session, Officer.Small ⟨session, row⟩) (pinHash : String) (hwrite : db.write = true)
    (hread : db.readSession = true) (hgone : officer.live now = false) :
    Tracks (Officer.checkSession ⟨officer.session, row⟩ pinHash 0 now db).officer
      (issue.record
        ((Officer.checkSession ⟨officer.session, row⟩ pinHash 0 now db).asGuess now)) := by
  unfold Officer.checkSession
  simp only [hread, if_true]
  split
  next hnone =>
    refine h.spent (hsmall _) ?_ rfl rfl
    intro session hsession
    rw [hnone] at hsession
    cases hsession
  next session hsession =>
    split
    next hexpired =>
      refine h.spent (hsmall _) ?_ rfl rfl
      intro after hafter
      cases hafter
    next hexpired =>
      have hused : session.used = true := by
        have hlive : (!session.used && !session.isExpired now) = false := by
          rw [← hgone, Officer.live, hsession]
          rfl
        simpa [hexpired] using hlive
      rw [if_pos hused]
      refine h.spent (hsmall _) ?_ rfl rfl
      intro after hafter
      rw [hsession] at hafter
      cases hafter
      exact hused

theorem Tracks.verifyPIN (h : Tracks officer issue) (pinHash : String) (hwrite : db.write = true)
    (hholds : officer.lockHolds now db = true) :
    Tracks (officer.verifyPIN pinHash now db).officer
      (issue.record ((officer.verifyPIN pinHash now db).asGuess now)) := by
  unfold Officer.verifyPIN
  split
  next =>
    split
    next hrow =>
      have hcount : officer.count = 0 := by rw [Officer.count, hrow]; rfl
      have hlock : officer.lock = none := by rw [Officer.lock, hrow]; rfl
      rw [← hcount]
      exact h.checkSession hlock pinHash hwrite
    next attempts windowStart hrow =>
      have hcount : officer.count = attempts := by rw [Officer.count, hrow]; rfl
      have hlock : officer.lock = none := by rw [Officer.lock, hrow]; rfl
      rw [← hcount]
      exact h.checkSession hlock pinHash hwrite
    next attempts windowStart lockedUntil hrow =>
      have hlock : officer.lock = some lockedUntil := by rw [Officer.lock, hrow]; rfl
      split
      next hlocked =>
        refine h.same rfl rfl ?_
        intro _ _ _ hnone
        rw [hlock] at hnone
        cases hnone
      next hover =>
        obtain ⟨hread, hgone⟩ := Officer.gone_of_lock_over hholds hlock hover
        refine h.checkGone ?_ pinHash hwrite hread hgone
        intro session hnone
        cases hunlock : db.unlock with
        | true => exact Nat.zero_lt_succ _
        | false =>
          rw [hunlock] at hnone
          exact absurd (hlock.symm.trans hnone) (by simp)
  next => exact h.same rfl rfl fun _ _ _ _ => rfl

/-! ### The other calls -/

theorem Tracks.issuePIN (hsmall : officer.Small) (pinHash agencyCode : String) {cleared : Bool}
    (hlock : cleared = true ∨ officer.lock = none) :
    Tracks (officer.issuePIN pinHash agencyCode now cleared) ⟨now, []⟩ where
  bounded := by
    refine ⟨Nat.zero_le _, Nat.zero_le _, ?_, List.Pairwise.nil⟩
    intro guess hguess
    cases hguess
  small := by
    intro hnone
    cases hcleared : cleared with
    | true => exact Nat.zero_lt_succ _
    | false =>
      rcases hlock with hcleared' | hlock
      · rw [hcleared] at hcleared'
        cases hcleared'
      · exact hsmall hlock
  expires := by
    intro session hsession _
    cases hsession
    rfl
  counted := by
    intro _ _ _ _
    refine ⟨Nat.zero_le _, ?_⟩
    intro guess hguess
    cases hguess

/-- The cleanup takes a row or leaves it. -/
theorem Officer.Small.cleanup (h : officer.Small) (now : Nat) (carried : Bool) :
    (officer.cleanup now carried).Small := by
  intro hlock
  cases hrow : (officer.cleanup now carried).attempts with
  | none =>
    rw [Officer.count, hrow]
    exact Nat.zero_lt_succ _
  | some row =>
    have hold : officer.attempts = some row := by
      cases carried with
      | true => exact (Option.mem_filter_iff.mp hrow).1
      | false => exact hrow
    rw [Officer.lock, hrow, ← hold] at hlock
    rw [Officer.count, hrow, ← hold]
    exact h hlock

theorem Officer.cleanup_keeps {carried : Bool} (h : carried = true → ∀ row ∈ officer.attempts,
    row.lockedUntil = none → row.windowStart < (now - hour) / second →
      ∀ session ∈ officer.session, session.expiresAt < now / second) :
    (officer.cleanup now carried).attempts = officer.attempts ∨
      (officer.cleanup now carried).session = none := by
  rcases officer with ⟨session, _ | row⟩
  · cases carried <;> exact .inl rfl
  cases carried with
  | false => exact .inl rfl
  | true =>
    by_cases hdeleted : row.lockedUntil = none ∧ row.windowStart < (now - hour) / second
    · right
      cases session with
      | none => rfl
      | some session =>
        have hover := h rfl row rfl hdeleted.1 hdeleted.2 session rfl
        simp [Officer.cleanup, hover]
    · left
      rw [not_and_or, ← isNone_iff_eq_none] at hdeleted
      simpa [Officer.cleanup, Option.filter, imp_iff_not_or] using hdeleted

theorem Tracks.cleanup (h : Tracks officer issue) {carried : Bool}
    (hkeeps : carried = true → ∀ row ∈ officer.attempts, row.lockedUntil = none →
      row.windowStart < (now - hour) / second →
        ∀ session ∈ officer.session, session.expiresAt < now / second) :
    Tracks (officer.cleanup now carried) issue := by
  have hsession : ∀ session ∈ (officer.cleanup now carried).session, session ∈ officer.session := by
    intro session hmem
    exact (Option.mem_filter_iff.mp hmem).1
  rcases Officer.cleanup_keeps hkeeps with hattempts | hgone
  · refine ⟨h.bounded, h.small.cleanup now carried, ?_, ?_⟩
    · intro session hmem
      exact h.expires session (hsession session hmem)
    · intro session hmem hused hlock
      rw [Officer.lock, hattempts] at hlock
      rw [Officer.count, hattempts]
      exact h.counted session (hsession session hmem) hused hlock
  · refine ⟨h.bounded, h.small.cleanup now carried, ?_, ?_⟩
    · intro session hmem
      rw [hgone] at hmem
      cases hmem
    · intro session hmem
      rw [hgone] at hmem
      cases hmem

/-! ### Steps -/

/-- Each issued PIN is tracked by the rows of its officer; without one there are none. -/
def Tracked (s : PinSystem) : Prop :=
  ∀ phone, (s.issues phone = none → s.store phone = ⟨none, none⟩) ∧
    ∀ issue ∈ s.issues phone, Tracks (s.store phone) issue

variable {s t : PinSystem}

theorem tracked_empty : Tracked .empty := by
  intro phone
  refine ⟨fun _ => rfl, ?_⟩
  intro issue hissue
  cases hissue

theorem Tracked.small (h : Tracked s) (phone : String) : (s.store phone).Small := by
  cases hissue : s.issues phone with
  | none =>
    rw [(h phone).1 hissue]
    exact fun _ => Nat.zero_lt_succ _
  | some issue => exact ((h phone).2 issue hissue).small

/-- Where one officer is concerned. -/
theorem Tracked.update (h : Tracked s) (phone : String) {after : Officer} {issue : Option Issue}
    (hnone : issue = none → after = ⟨none, none⟩) (hsome : ∀ i ∈ issue, Tracks after i) :
    Tracked ⟨update s.store phone after, update s.issues phone issue⟩ := by
  intro other
  by_cases hother : other = phone
  · subst hother
    simp only [update_self]
    exact ⟨hnone, hsome⟩
  · simp only [update_of_ne hother]
    exact h other

theorem verifyPIN_none (pinHash : String) (now : Nat) (db : Carried) :
    (Officer.verifyPIN ⟨none, none⟩ pinHash now db).officer = ⟨none, none⟩ := by
  unfold Officer.verifyPIN Officer.checkSession
  cases db.readAttempts <;> cases db.readSession <;> rfl

theorem Tracked.step {a : PinLabel} (h : Tracked s) (hkeeps : KeepsCount s a)
    (ht : PinSystem.step s a = some t) : Tracked t := by
  cases a with
  | issue phone pinHash agencyCode now cleared =>
    cases ht
    refine h.update phone (fun hnone => by cases hnone) ?_
    intro issue hissue
    cases hissue
    exact .issuePIN (h.small phone) pinHash agencyCode hkeeps
  | verify phone pinHash now db =>
    cases ht
    obtain ⟨hwrite, hholds⟩ := hkeeps
    refine h.update phone ?_ ?_
    · intro hnone
      have hfresh := (h phone).1 (map_eq_none_iff.mp hnone)
      unfold PinSystem.verification
      rw [hfresh]
      exact verifyPIN_none pinHash now db
    · intro issue hissue
      obtain ⟨old, hold, rfl⟩ := map_eq_some_iff.mp hissue
      exact ((h phone).2 old hold).verifyPIN pinHash hwrite hholds
  | cleanup now carried =>
    cases ht
    intro phone
    refine ⟨?_, ?_⟩
    · intro hnone
      change (s.store phone).cleanup now carried = ⟨none, none⟩
      rw [(h phone).1 hnone]
      cases carried <;> rfl
    · intro issue hissue
      exact ((h phone).2 issue hissue).cleanup fun hcarried => hkeeps hcarried phone

/-! ### Runs -/

/-- In a run in which what has to be written is written, no guess finds its lock over and
its PIN alive, and nothing else takes the count from a live PIN, the guesses at each PIN
are bounded. -/
theorem guesses_bounded (labels : List PinLabel)
    (hkeeps : Meets PinSystem.step KeepsCount .empty labels) :
    Always PinSystem.step GuessesBounded .empty labels := by
  refine (always_of_meets (fun s a t h hkeeps ht => Tracked.step h hkeeps ht)
    tracked_empty hkeeps).mono ?_
  intro s h phone issue hissue
  exact ((h phone).2 issue hissue).bounded

/-! ### A PIN and its lock -/

/-- Three wrong guesses within the second in which the PIN is issued. -/
def lockedRun : List PinLabel :=
  [.issue "07" "right" "NPF" 0 true, .verify "07" "wrong" 1 {}, .verify "07" "wrong" 2 {},
   .verify "07" "wrong" 3 {}]

theorem lockedRun_bounded :
    Always PinSystem.step GuessesBounded .empty
      (lockedRun ++ [.verify "07" "right" 4 {}, .cleanup (2 * hour) true]) := by
  refine guesses_bounded _ ?_
  refine .cons rfl (.inl rfl) ?_
  refine .cons rfl ⟨rfl, by decide⟩ (.cons rfl ⟨rfl, by decide⟩ ?_)
  refine .cons rfl ⟨rfl, by decide⟩ (.cons rfl ⟨rfl, by decide⟩ ?_)
  refine .cons rfl ?_ trivial
  intro _ phone row hrow hunlocked
  by_cases hphone : phone = "07"
  · subst hphone
    cases hrow
    cases hunlocked
  · simp only [PinSystem.verify, PinSystem.empty, update_of_ne hphone] at hrow
    cases hrow

/-- At the instant at which PIN and lock end, the lock is over and the PIN is not; a right
guess succeeds then, and a wrong one is the fourth. -/
theorem guess_unbounded : ¬ ∀ labels, Always PinSystem.step GuessesBounded .empty labels := by
  intro hall
  have hrun : (run PinSystem.step .empty (lockedRun ++ [.verify "07" "wrong" pinTTL {}])).map
      (fun s => (s.issues "07").map fun issue => issue.guesses.countP Guess.wrong) =
        some (some 4) := by
    decide
  obtain ⟨s, hs, hview⟩ := map_eq_some_iff.mp hrun
  obtain ⟨issue, hissue, hcount⟩ := map_eq_some_iff.mp hview
  have hwrong := ((hall _).finish hs "07" issue hissue).wrong
  rw [hcount] at hwrong
  revert hwrong
  decide

end Bis.Lex
