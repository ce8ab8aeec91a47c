import Bis.Stablecoin.RateLimit

/-!
When the limiter does what a limit per minute is meant to do. Two things stand in the
way: reads are recorded in the window of the transfers, and a transfer may be recorded
in a window that the collector has deleted in the meantime.
-/

namespace Bis.Stablecoin

open Bis.Relation Bis.Transition Bis.Window List Function

variable {cfg : StablecoinRLConfig} {s t : Limiter}

/-! ### What is promised -/

namespace Limiter

def log (s : Limiter) (accountID : String) : List Verdict :=
  (s.transfers.filter fun transfer => transfer.accountID == accountID).map TransferVerdict.verdict

end Limiter

/-- In no minute more transfers of an account are admitted than the limit says. -/
def WithinLimit (cfg : StablecoinRLConfig) (s : Limiter) : Prop :=
  ∀ accountID start, ((admittedAt (s.log accountID)).filter
    fun time => decide (start ≤ time ∧ time ≤ start + minute)).length ≤ cfg.limit

/-- What is decided on the transfers of an account is a function of their times. -/
def OnlyTransfers (cfg : StablecoinRLConfig) (s : Limiter) : Prop :=
  ∀ accountID, s.log accountID =
    verdicts minute cfg.limit ((s.log accountID).map Verdict.time)

/-! ### When it is kept -/

/-- A transfer is recorded in the window that is in the map, and the reads in it make
no difference: there is room with them, or there is none without them. -/
def CountsTransfers (cfg : StablecoinRLConfig) (s : Limiter) : Label → Prop
  | .allow request now _ =>
    ∀ r ∈ s.requests, r.id = request → r.kind = .transfer →
      (⟨r.accountID, r.window⟩ : Slot) ∈ s.windows ∧
        ((counted now (s.timestamps r.window)).length < cfg.limit ∨
          cfg.limit ≤ ((counted now (s.timestamps r.window)).filter
            fun entry => entry.kind == .transfer).length)
  | _ => True

instance (cfg : StablecoinRLConfig) (s : Limiter) : DecidablePred (CountsTransfers cfg s) := by
  intro a
  unfold CountsTransfers
  split <;> infer_instance

/-! ### Entries -/

def transferTimes (timestamps : List Entry) : List Nat :=
  (timestamps.filter fun entry => entry.kind == .transfer).map Entry.time

theorem transferTimes_recent (cutoff : Nat) (timestamps : List Entry) :
    transferTimes (recent Entry.time cutoff timestamps) =
      recent id cutoff (transferTimes timestamps) := by
  unfold transferTimes recent
  rw [filter_map, filter_filter, filter_filter]
  congr 1
  apply filter_congr
  intro entry _
  exact Bool.and_comm _ _

theorem transferTimes_concat (timestamps : List Entry) (entry : Entry) :
    transferTimes (timestamps ++ [entry]) = transferTimes timestamps ++
      if entry.kind = .transfer then [entry.time] else [] := by
  unfold transferTimes
  rw [filter_append, map_append]
  cases hkind : entry.kind with
  | transfer => simp [hkind]
  | read => simp [hkind]

/-- Entries in order, none of them later than the clock. -/
structure Tidy (clock : Nat) (timestamps : List Entry) : Prop where
  ordered : Ordered Entry.time timestamps
  bounded : ∀ entry ∈ timestamps, entry.time ≤ clock

variable {clock now : Nat} {timestamps : List Entry} {r : Request}

theorem Tidy.counted (h : Tidy clock timestamps) (hnow : clock ≤ now) :
    Tidy now (counted now timestamps) where
  ordered := h.ordered.sublist (dropWhile_sublist _)
  bounded entry hentry :=
    (h.bounded entry ((dropWhile_sublist _).subset hentry)).trans hnow

theorem Tidy.concat (h : Tidy clock timestamps) (kind : RequestKind) :
    Tidy clock (timestamps ++ [⟨clock, kind⟩]) where
  ordered := by
    refine pairwise_append.mpr ⟨h.ordered, pairwise_singleton _ _, ?_⟩
    intro entry hentry last hlast
    obtain rfl := mem_singleton.mp hlast
    exact h.bounded entry hentry
  bounded := by
    intro entry hentry
    rcases mem_concat.mp hentry with hentry | rfl
    · exact h.bounded entry hentry
    · exact le_refl _

theorem transferTimes_counted (h : Tidy clock timestamps) :
    transferTimes (counted now timestamps) = recent id (now - minute) (transferTimes timestamps) := by
  unfold counted
  generalize now - minute = bound
  rw [evict_eq_recent h.ordered, transferTimes_recent]

theorem stale_last {last : Entry} (hstale : stale now (timestamps ++ [last]) = true) :
    last.time < now - minute := by
  unfold stale at hstale
  rw [getLast?_concat, Option.all_some] at hstale
  exact of_decide_eq_true hstale

/-- A stale window has nothing from the cutoff on. -/
theorem recent_of_stale {cutoff : Nat} (h : Tidy clock timestamps)
    (hstale : stale now timestamps = true) (hcutoff : now - minute ≤ cutoff) :
    recent id cutoff (transferTimes timestamps) = [] := by
  have hold : recent Entry.time cutoff timestamps = [] := by
    unfold recent
    rw [filter_eq_nil_iff]
    intro entry hentry hrecent
    rcases eq_nil_or_concat timestamps with rfl | ⟨rest, last, rfl⟩
    · cases hentry
    · rw [concat_eq_append] at hentry hstale
      have hordered := h.ordered
      rw [concat_eq_append] at hordered
      have hle : entry.time ≤ last.time := by
        rcases mem_concat.mp hentry with hentry | hentry
        · exact (pairwise_append.mp hordered).2.2 entry hentry last
            (mem_singleton.mpr rfl)
        · rw [hentry]
      have hfrom : cutoff ≤ entry.time := of_decide_eq_true hrecent
      exact absurd (hfrom.trans hle) (Nat.not_le.mpr ((stale_last hstale).trans_le hcutoff))
  rw [← transferTimes_recent, hold]
  rfl

/-! ### The invariant -/

structure Sound (cfg : StablecoinRLConfig) (s : Limiter) : Prop where
  accounts : (s.windows.map Slot.accountID).Nodup
  allocated : ∀ slot ∈ s.windows, slot.window < s.nextWindow
  requested : ∀ r ∈ s.requests, r.window < s.nextWindow
  distinct : ∀ a ∈ s.windows, ∀ b ∈ s.windows, a.window = b.window → a = b
  owned : ∀ slot ∈ s.windows, ∀ r ∈ s.requests, slot.window = r.window →
    slot.accountID = r.accountID
  tidy : ∀ window, Tidy s.clock (s.timestamps window)
  pass : ∀ pass, s.gc = some pass → pass.now ≤ s.clock
  represents : ∀ slot ∈ s.windows, Represents id (s.clock - minute) s.clock
    (transferTimes (s.timestamps slot.window)) (admittedAt (s.log slot.accountID))
  /-- An account without a window has had no transfer admitted for a minute. -/
  forgotten : ∀ accountID, (∀ slot ∈ s.windows, slot.accountID ≠ accountID) →
    recent id (s.clock - minute) (admittedAt (s.log accountID)) = []
  onlyTransfers : OnlyTransfers cfg s

theorem sound_empty : Sound cfg .empty := by
  refine ⟨nodup_nil, ?_, ?_, ?_, ?_, ?_, ?_, ?_, ?_, ?_⟩
  · intro slot hslot
    cases hslot
  · intro r hr
    cases hr
  · intro a ha
    cases ha
  · intro slot hslot
    cases hslot
  · intro window
    refine ⟨List.Pairwise.nil, ?_⟩
    intro entry hentry
    cases hentry
  · intro pass hpass
    cases hpass
  · intro slot hslot
    cases hslot
  · intro accountID _
    rfl
  · intro accountID
    rfl

theorem Sound.withinLimit (h : Sound cfg s) : WithinLimit cfg s := by
  intro accountID start
  rw [h.onlyTransfers accountID]
  exact admitted_within _ start

/-! ### Time passes -/

theorem Represents.later {entries log : List Nat}
    (h : Represents id (clock - minute) clock entries log) (hnow : clock ≤ now) :
    Represents id (now - minute) now entries log :=
  h.advance (Nat.sub_le_sub_right hnow minute) hnow

theorem recent_later {log : List Nat} (h : recent id (clock - minute) log = []) (hnow : clock ≤
    now) :
    recent id (now - minute) log = [] := by
  rw [← recent_recent (Nat.sub_le_sub_right hnow minute), h]
  rfl

theorem Tidy.later (h : Tidy clock timestamps) (hnow : clock ≤ now) : Tidy now timestamps :=
  ⟨h.ordered, fun entry hentry => (h.bounded entry hentry).trans hnow⟩

/-- What `counted` leaves of a window answers for the account as before. -/
theorem Represents.counted {log : List Nat}
    (h : Represents id (clock - minute) clock (transferTimes timestamps) log)
    (htidy : Tidy clock timestamps) (hnow : clock ≤ now) :
    Represents id (now - minute) now (transferTimes (counted now timestamps)) log := by
  have hlater := Represents.later h hnow
  rw [transferTimes_counted htidy, ← evict_eq_recent hlater.ordered]
  exact hlater.evict (le_refl _)

/-- The time of a step passes for the whole limiter. -/
theorem Sound.later (h : Sound cfg s) (hnow : s.clock ≤ now) {gc : Option Pass}
    (hpass : ∀ pass, gc = some pass → pass.now ≤ now) : Sound cfg { s with clock := now, gc } where
  accounts := h.accounts
  allocated := h.allocated
  requested := h.requested
  distinct := h.distinct
  owned := h.owned
  tidy window := (h.tidy window).later hnow
  pass := hpass
  represents slot hslot := Represents.later (h.represents slot hslot) hnow
  forgotten accountID hnone := recent_later (h.forgotten accountID hnone) hnow
  onlyTransfers := h.onlyTransfers

/-! ### Requests -/

theorem Sound.window (h : Sound cfg s) (request : Nat) (accountID : String) (kind : RequestKind) :
    Sound cfg (s.window request accountID kind) := by
  unfold Limiter.window
  cases hslot : s.slot accountID with
  | some slot =>
    obtain ⟨hmem, hkey⟩ := (lookup_eq_some_iff h.accounts).mp hslot
    refine ⟨h.accounts, h.allocated, ?_, h.distinct, ?_, h.tidy, h.pass, h.represents,
      h.forgotten, h.onlyTransfers⟩
    · intro r hr
      rcases mem_concat.mp hr with hr | rfl
      · exact h.requested r hr
      · exact h.allocated slot hmem
    · intro other hother r hr hwindow
      rcases mem_concat.mp hr with hr | rfl
      · exact h.owned other hother r hr hwindow
      · rw [h.distinct other hother slot hmem hwindow]
        exact hkey
  | none =>
    have hfresh (slot : Slot) (hslot' : slot ∈ s.windows) : slot.accountID ≠ accountID := by
      intro hkey
      rw [Limiter.slot, (lookup_eq_some_iff h.accounts).mpr ⟨hslot', hkey⟩] at hslot
      cases hslot
    have hold (window : Nat) (hlt : window < s.nextWindow) :
        update s.timestamps s.nextWindow [] window = s.timestamps window :=
      update_of_ne (Nat.ne_of_lt hlt) _ _
    refine ⟨?_, ?_, ?_, ?_, ?_, ?_, h.pass, ?_, ?_, h.onlyTransfers⟩
    · rw [map_append]
      refine nodup_append_fresh h.accounts ?_
      intro hmem
      obtain ⟨slot, hslot', hkey⟩ := mem_map.mp hmem
      exact hfresh slot hslot' hkey
    · intro slot hslot'
      rcases mem_append.mp hslot' with hslot' | hslot'
      · exact Nat.lt_succ_of_lt (h.allocated slot hslot')
      · obtain rfl := mem_singleton.mp hslot'
        exact Nat.lt_succ_self _
    · intro r hr
      rcases mem_concat.mp hr with hr | rfl
      · exact Nat.lt_succ_of_lt (h.requested r hr)
      · exact Nat.lt_succ_self _
    · intro a ha b hb hwindow
      rcases mem_concat.mp ha with ha | rfl
      · rcases mem_concat.mp hb with hb | rfl
        · exact h.distinct a ha b hb hwindow
        · exact absurd hwindow (Nat.ne_of_lt (h.allocated a ha))
      · rcases mem_concat.mp hb with hb | hb
        · exact absurd hwindow.symm (Nat.ne_of_lt (h.allocated b hb))
        · exact hb.symm
    · intro slot hslot' r hr hwindow
      rcases mem_append.mp hslot' with hslot' | hslot'
      · rcases mem_concat.mp hr with hr | rfl
        · exact h.owned slot hslot' r hr hwindow
        · exact absurd hwindow (Nat.ne_of_lt (h.allocated slot hslot'))
      · obtain rfl := mem_singleton.mp hslot'
        rcases mem_concat.mp hr with hr | rfl
        · exact absurd hwindow.symm (Nat.ne_of_lt (h.requested r hr))
        · rfl
    · intro window
      by_cases hnew : window = s.nextWindow
      · subst hnew
        simp only [update_self]
        exact ⟨List.Pairwise.nil, fun entry hentry => by cases hentry⟩
      · simp only [update_of_ne hnew]
        exact h.tidy window
    · intro slot hslot'
      rcases mem_append.mp hslot' with hslot' | hslot'
      · simp only [hold slot.window (h.allocated slot hslot')]
        exact h.represents slot hslot'
      · obtain rfl := mem_singleton.mp hslot'
        simp only [update_self]
        refine ⟨List.Pairwise.nil, ?_, ?_⟩
        · intro time htime
          cases htime
        · intro cutoff hcutoff
          have hnone := h.forgotten accountID hfresh
          change recent id cutoff [] = recent id cutoff (admittedAt (s.log accountID))
          rw [← recent_recent hcutoff (admittedAt (s.log accountID)), hnone]
    · intro other hnone
      refine h.forgotten other ?_
      exact fun slot hslot' => hnone slot (mem_append_left _ hslot')

theorem Sound.gcVisit (h : Sound cfg s) {pass : Pass} (hgc : s.gc = some pass)
    (accountID : String) : Sound cfg (s.gcVisit pass accountID) := by
  have hnow := h.pass pass hgc
  have hsub {slot : Slot} (hslot : slot ∈ (s.gcVisit pass accountID).windows) :
      slot ∈ s.windows := (mem_filter.mp hslot).1
  refine ⟨?_, fun slot hslot => h.allocated slot (hsub hslot), h.requested,
    fun a ha b hb => h.distinct a (hsub ha) b (hsub hb),
    fun slot hslot => h.owned slot (hsub hslot), h.tidy, ?_,
    fun slot hslot => h.represents slot (hsub hslot), ?_, h.onlyTransfers⟩
  · exact h.accounts.sublist (filter_sublist.map _)
  · intro pass' hpass'
    cases hpass'
    exact hnow
  · intro other hnone
    by_cases hany : ∃ slot ∈ s.windows, slot.accountID = other
    · obtain ⟨slot, hslot, rfl⟩ := hany
      -- Its window has just been deleted, so it is stale.
      have hdeleted : stale pass.now (s.timestamps slot.window) = true := by
        by_contra hfresh
        refine hnone slot (mem_filter.mpr ⟨hslot, ?_⟩) rfl
        rw [Bool.not_eq_true']
        rw [Bool.not_eq_true] at hfresh
        rw [hfresh, Bool.and_false]
      have hempty := recent_of_stale (h.tidy slot.window) hdeleted
        (Nat.sub_le_sub_right hnow minute)
      exact ((h.represents slot hslot).agrees _ (le_refl _)).symm.trans hempty
    · refine h.forgotten other ?_
      intro slot hslot hkey
      exact hany ⟨slot, hslot, hkey⟩

/-! ### Decisions -/

theorem Limiter.log_append {transfers : List TransferVerdict}
    (ht : t.transfers = s.transfers ++ transfers) (accountID : String) :
    t.log accountID = s.log accountID ++
      (transfers.filter fun transfer => transfer.accountID == accountID).map
        TransferVerdict.verdict := by
  unfold Limiter.log
  rw [ht, filter_append, map_append]

theorem allowTransfer_allowed (cfg : StablecoinRLConfig) (timestamps : List Entry)
    (now since : Nat) : (allowTransfer cfg timestamps now since).1.allowed =
      decide ((counted now timestamps).length < cfg.limit) := by
  unfold allowTransfer
  by_cases hfull : cfg.limit ≤ (counted now timestamps).length
  · simp only [if_pos hfull, Nat.not_lt.mpr hfull, decide_false]
  · simp only [if_neg hfull, Nat.lt_of_not_le hfull, decide_true]

theorem allowTransfer_entries (cfg : StablecoinRLConfig) (timestamps : List Entry)
    (now since : Nat) :
    (allowTransfer cfg timestamps now since).2 = counted now timestamps ++
      if (allowTransfer cfg timestamps now since).1.allowed then [⟨now, .transfer⟩] else [] := by
  unfold allowTransfer
  by_cases hfull : cfg.limit ≤ (counted now timestamps).length
  · simp only [if_pos hfull, Bool.false_eq_true, if_false, append_nil]
  · simp only [if_neg hfull, if_true]

theorem allowRead_entries (cfg : StablecoinRLConfig) (timestamps : List Entry) (now : Nat) :
    (allowRead cfg timestamps now).2 = counted now timestamps ∨
      (allowRead cfg timestamps now).2 = counted now timestamps ++ [⟨now, .read⟩] := by
  unfold allowRead
  by_cases hfull : cfg.readRPM ≤ (counted now timestamps).length
  · exact .inl (by simp only [if_pos hfull])
  · exact .inr (by simp only [if_neg hfull])

/-- A request does its work in the window that it holds, and is gone. -/
structure Records (s t : Limiter) (r : Request) (now : Nat) (timestamps : List Entry) : Prop where
  clock : t.clock = now
  windows : t.windows = s.windows
  nextWindow : t.nextWindow = s.nextWindow
  requests : ∀ other ∈ t.requests, other ∈ s.requests
  gc : t.gc = s.gc
  timestamps : t.timestamps = update s.timestamps r.window timestamps

/-- All but the log follows from what is recorded. -/
theorem Sound.records (h : Sound cfg s) (hrecords : Records s t r now timestamps)
    (hnow : s.clock ≤ now) (htidy : Tidy now timestamps)
    (hlog : ∀ accountID, (∀ slot ∈ s.windows, slot.accountID ≠ accountID) → t.log accountID = s.log
      accountID)
    (hown : ∀ slot ∈ s.windows, slot.window = r.window → Represents id (now - minute) now
      (transferTimes timestamps) (admittedAt (t.log slot.accountID)))
    (hothers : ∀ slot ∈ s.windows, slot.window ≠ r.window → t.log slot.accountID = s.log
      slot.accountID) (honly : OnlyTransfers cfg t) : Sound cfg t where
  accounts := hrecords.windows ▸ h.accounts
  allocated := by
    rw [hrecords.windows, hrecords.nextWindow]
    exact h.allocated
  requested := by
    rw [hrecords.nextWindow]
    exact fun other hother => h.requested other (hrecords.requests other hother)
  distinct := hrecords.windows ▸ h.distinct
  owned := by
    rw [hrecords.windows]
    exact fun slot hslot other hother => h.owned slot hslot other (hrecords.requests other hother)
  tidy := by
    intro window
    rw [hrecords.clock, hrecords.timestamps]
    by_cases hwindow : window = r.window
    · subst hwindow
      rw [update_self]
      exact htidy
    · rw [update_of_ne hwindow]
      exact (h.tidy window).later hnow
  pass := by
    rw [hrecords.gc, hrecords.clock]
    exact fun pass hpass => (h.pass pass hpass).trans hnow
  represents := by
    rw [hrecords.windows, hrecords.clock, hrecords.timestamps]
    intro slot hslot
    by_cases hwindow : slot.window = r.window
    · rw [hwindow, update_self]
      exact hown slot hslot hwindow
    · rw [update_of_ne hwindow, hothers slot hslot hwindow]
      exact Represents.later (h.represents slot hslot) hnow
  forgotten := by
    rw [hrecords.windows, hrecords.clock]
    intro accountID hnone
    rw [hlog accountID hnone]
    exact recent_later (h.forgotten accountID hnone) hnow
  onlyTransfers := honly

theorem Sound.read (h : Sound cfg s) (hkind : r.kind = .read) {since : Nat} (hnow : s.clock ≤ now) :
    Sound cfg (s.allow cfg r now since) := by
  have hrecords : Records s (s.allow cfg r now since) r now
      (allowRead cfg (s.timestamps r.window) now).2 := by
    unfold Limiter.allow
    rw [hkind]
    exact ⟨rfl, rfl, rfl, fun other hother => (mem_filter.mp hother).1, rfl, rfl⟩
  have htransfers : (s.allow cfg r now since).transfers = s.transfers := by
    unfold Limiter.allow
    rw [hkind]
  have hlog (accountID : String) : (s.allow cfg r now since).log accountID = s.log accountID := by
    unfold Limiter.log
    rw [htransfers]
  have htimes : transferTimes (allowRead cfg (s.timestamps r.window) now).2 =
      transferTimes (counted now (s.timestamps r.window)) := by
    rcases allowRead_entries cfg (s.timestamps r.window) now with hsame | hadded
    · rw [hsame]
    · rw [hadded, transferTimes_concat]
      exact append_nil _
  have htidy := (h.tidy r.window).counted hnow
  refine h.records hrecords hnow ?_ (fun accountID _ => hlog accountID) ?_
    (fun slot _ _ => hlog slot.accountID) ?_
  · rcases allowRead_entries cfg (s.timestamps r.window) now with hsame | hadded
    · exact hsame ▸ htidy
    · exact hadded ▸ htidy.concat .read
  · intro slot hslot hwindow
    rw [htimes, hlog, ← hwindow]
    exact Represents.counted (h.represents slot hslot) (h.tidy slot.window) hnow
  · intro accountID
    rw [hlog]
    exact h.onlyTransfers accountID

/-- The verdict that the limiter gives is the one on the transfers of the account. -/
theorem Sound.verdict (h : Sound cfg s) {r : Request} {now since : Nat} (hnow : s.clock ≤ now)
    (hslot : (⟨r.accountID, r.window⟩ : Slot) ∈ s.windows)
    (hreads : (counted now (s.timestamps r.window)).length < cfg.limit ∨
      cfg.limit ≤ ((counted now (s.timestamps r.window)).filter
        fun entry => entry.kind == .transfer).length) :
    (allowTransfer cfg (s.timestamps r.window) now since).1.allowed =
      admits minute cfg.limit (s.log r.accountID) now := by
  have hagrees := (Represents.later (h.represents _ hslot) hnow).agrees _ (le_refl (now - minute))
  have hlength : ((counted now (s.timestamps r.window)).filter
      fun entry => entry.kind == .transfer).length =
        (recent id (now - minute) (admittedAt (s.log r.accountID))).length := by
    rw [← hagrees, ← transferTimes_counted (h.tidy r.window)]
    exact (length_map _).symm
  have hle := length_filter_le (fun entry : Entry => entry.kind == .transfer)
    (counted now (s.timestamps r.window))
  rw [allowTransfer_allowed, admits, decide_eq_decide]
  constructor
  · intro hlt
    exact hlength ▸ hle.trans_lt hlt
  · intro hlt
    rcases hreads with hroom | hfull
    · exact hroom
    · exact absurd (hlength ▸ hlt) (Nat.not_lt.mpr hfull)

theorem Sound.transfer (h : Sound cfg s) (hkind : r.kind = .transfer) {since : Nat}
    (hnow : s.clock ≤ now) (hslot : (⟨r.accountID, r.window⟩ : Slot) ∈ s.windows)
    (hreads : (counted now (s.timestamps r.window)).length < cfg.limit ∨ cfg.limit ≤ ((counted now
      (s.timestamps r.window)).filter fun entry => entry.kind == .transfer).length) :
    Sound cfg (s.allow cfg r now since) := by
  have hverdict := @Sound.verdict cfg s h r now since hnow hslot hreads
  generalize hdecision : allowTransfer cfg (s.timestamps r.window) now since = decision at hverdict
  have hentries : decision.2 = counted now (s.timestamps r.window) ++
      if decision.1.allowed then [⟨now, .transfer⟩] else [] := by
    rw [← hdecision]
    exact allowTransfer_entries cfg (s.timestamps r.window) now since
  have hrecords : Records s (s.allow cfg r now since) r now decision.2 := by
    unfold Limiter.allow
    rw [hkind, ← hdecision]
    exact ⟨rfl, rfl, rfl, fun other hother => (mem_filter.mp hother).1, rfl, rfl⟩
  have htransfers : (s.allow cfg r now since).transfers =
      s.transfers ++ [⟨r.accountID, now, decision.1.allowed⟩] := by
    unfold Limiter.allow
    rw [hkind, ← hdecision]
  have hlogOwn : (s.allow cfg r now since).log r.accountID =
      s.log r.accountID ++ [⟨now, decision.1.allowed⟩] := by
    rw [Limiter.log_append htransfers]
    simp
  have hlogOther {accountID : String} (hne : r.accountID ≠ accountID) :
      (s.allow cfg r now since).log accountID = s.log accountID := by
    rw [Limiter.log_append htransfers]
    simp [hne]
  have htidy := (h.tidy r.window).counted hnow
  refine h.records hrecords hnow ?_ ?_ ?_ ?_ ?_
  · rw [hentries]
    cases decision.1.allowed with
    | true => exact htidy.concat .transfer
    | false => simpa using htidy
  · intro accountID hnone
    exact hlogOther (hnone _ hslot)
  · intro slot hslot' hwindow
    obtain rfl : slot = ⟨r.accountID, r.window⟩ := h.distinct slot hslot' _ hslot hwindow
    have hcounted := Represents.counted (h.represents _ hslot') (h.tidy r.window) hnow
    rw [hlogOwn, hentries]
    cases decision.1.allowed with
    | true =>
      rw [if_pos rfl, transferTimes_concat, admittedAt_append]
      exact hcounted.push rfl
    | false =>
      rw [if_neg Bool.false_ne_true, append_nil, admittedAt_append]
      simpa [admittedAt] using hcounted
  · intro slot hslot' hwindow
    refine hlogOther ?_
    intro hkey
    have hsame : slot = ⟨r.accountID, r.window⟩ :=
      inj_on_of_nodup_map h.accounts hslot' hslot hkey.symm
    exact hwindow (congrArg Slot.window hsame)
  · intro accountID
    by_cases hkey : r.accountID = accountID
    · subst hkey
      have hbefore := h.onlyTransfers r.accountID
      rw [hlogOwn, map_append, map_singleton, verdicts_concat, ← hbefore, hverdict]
    · rw [hlogOther hkey]
      exact h.onlyTransfers accountID

theorem Sound.step {label : Label} (h : Sound cfg s) (hcounts : CountsTransfers cfg s label)
    (ht : Limiter.step cfg s label = some t) : Sound cfg t := by
  cases label with
  | window request accountID kind =>
    simp only [Limiter.step] at ht
    split at ht
    next => cases ht
    next =>
      cases ht
      exact h.window request accountID kind
  | allow request now since =>
    simp only [Limiter.step] at ht
    split at ht
    next => cases ht
    next hnow =>
      obtain ⟨r, hlookup, rfl⟩ := Option.map_eq_some_iff.mp ht
      have hmem := mem_of_find?_eq_some hlookup
      have hid : r.id = request := by simpa using find?_some hlookup
      have hclock : s.clock ≤ now := Nat.le_of_not_lt hnow
      cases hkind : r.kind with
      | read => exact h.read hkind hclock
      | transfer =>
        obtain ⟨hslot, hreads⟩ := hcounts r hmem hid hkind
        exact h.transfer hkind hclock hslot hreads
  | gcStart now =>
    simp only [Limiter.step] at ht
    split at ht
    next => cases ht
    next hnot =>
      cases ht
      simp only [Bool.or_eq_true, decide_eq_true_eq, not_or] at hnot
      refine h.later (Nat.le_of_not_lt hnot.1) ?_
      intro pass hpass
      cases hpass
      exact le_refl _
  | gcVisit accountID =>
    simp only [Limiter.step] at ht
    split at ht
    next => cases ht
    next pass hgc =>
      split at ht
      next =>
        cases ht
        exact h.gcVisit hgc accountID
      next => cases ht
  | gcEnd =>
    simp only [Limiter.step] at ht
    split at ht
    next => cases ht
    next pass hgc =>
      split at ht
      next =>
        cases ht
        refine h.later (le_refl _) ?_
        intro other hother
        cases hother
      next => cases ht

/-- In a run in which every transfer is recorded in the window that is in the map, and no
reads make a difference, the limit holds in every minute and only transfers count. -/
theorem transfers_limited (cfg : StablecoinRLConfig) (labels : List Label)
    (hcounts : Meets (Limiter.step cfg) (CountsTransfers cfg) .empty labels) :
    Always (Limiter.step cfg) (fun s => WithinLimit cfg s ∧ OnlyTransfers cfg s) .empty labels := by
  have hstep (s : Limiter) (a : Label) (t : Limiter) (h : Sound cfg s)
      (hcounts : CountsTransfers cfg s a) (ht : Limiter.step cfg s a = some t) : Sound cfg t :=
    h.step hcounts ht
  refine (always_of_meets hstep sound_empty hcounts).mono ?_
  exact fun s h => ⟨h.withinLimit, h.onlyTransfers⟩

/-! ### Runs of one account -/

/-- Two transfers and a read, with a pass of the collector. -/
def quietMinute : List Label :=
  [.window 1 "wallet" .transfer, .allow 1 1 1, .window 2 "wallet" .read, .allow 2 2 2,
   .gcStart 3, .gcVisit "wallet", .gcEnd, .window 3 "wallet" .transfer, .allow 3 4 4]

theorem quietMinute_limited :
    Always (Limiter.step defaultConfig)
      (fun s => WithinLimit defaultConfig s ∧ OnlyTransfers defaultConfig s) .empty quietMinute :=
  transfers_limited defaultConfig quietMinute (by decide)

def requests (kind : RequestKind) (ids : List Nat) : List Label :=
  ids.map fun id => .window id "wallet" kind

def answers (ids : List Nat) : List Label := ids.map fun id => .allow id id id

/-- Seven transfers hold the window when the collector deletes it, and an eighth gets a
new one: eight are admitted. And after seven reads no transfer is. -/
theorem limit_broken :
    (¬ ∀ cfg labels, Always (Limiter.step cfg) (WithinLimit cfg) .empty labels) ∧
      ¬ ∀ cfg labels, Always (Limiter.step cfg) (OnlyTransfers cfg) .empty labels := by
  constructor
  · intro hall
    have hrun : (run (Limiter.step defaultConfig) .empty
        (requests .transfer [1, 2, 3, 4, 5, 6, 7] ++ [.gcStart 0, .gcVisit "wallet", .gcEnd] ++
          answers [1, 2, 3, 4, 5, 6, 7] ++ requests .transfer [8] ++ answers [8])).map
        (fun s => admittedAt (s.log "wallet")) = some [1, 2, 3, 4, 5, 6, 7, 8] := by
      decide
    obtain ⟨s, hs, hadmitted⟩ := Option.map_eq_some_iff.mp hrun
    have hlimit := (hall defaultConfig _).finish hs "wallet" 1
    rw [hadmitted] at hlimit
    revert hlimit
    decide
  · intro hall
    have hrun : (run (Limiter.step defaultConfig) .empty
        (requests .read [1, 2, 3, 4, 5, 6, 7] ++ answers [1, 2, 3, 4, 5, 6, 7] ++
          requests .transfer [8] ++ answers [8])).map (fun s => s.log "wallet") =
        some [⟨8, false⟩] := by
      decide
    obtain ⟨s, hs, hlog⟩ := Option.map_eq_some_iff.mp hrun
    have honly := (hall defaultConfig _).finish hs "wallet"
    rw [hlog] at honly
    revert honly
    decide

end Bis.Stablecoin
