import Bis.Sessions.Refresh

/-!
What a lease of a refresh family is worth. The rotation asks whether its lease is
still the one in the row; the revocation does not, and neither does whoever takes
an expired lease over ask whether its holder had sent the token already.
-/

namespace Bis.Sessions

open Bis.Relation Bis.Transition List Option

/-! ### The steps, case by case -/

/-- The steps of `Exchange.advance`, one constructor for each. -/
inductive Turn (family : RefreshFamily) (x : Exchange) : Action → RefreshFamily → Stage → Prop
  | unconfigured (h : x.stage = .leased) :
      Turn family x .unconfigured family (.refused .unconfigured)
  | present (h : x.stage = .leased) : Turn family x .present family .waiting
  | answer {received} (h : x.stage = .waiting) :
      Turn family x (.answer received) family received.stage
  | verify {valid tokens} (h : x.stage = .answered tokens) : Turn family x (.verify valid) family
      (if valid then .persisted tokens else .refused .invalidClaims)
  | rotate {now tokens} (h : x.stage = .persisted tokens)
      (hlease : family.leaseId = some x.leaseId) (hopen : family.revoked = false) :
      Turn family x (.rotate now)
        { refreshToken := tokens.refreshToken, generation := family.generation + 1
          leaseId := none, leaseExpiresAt := none, expiresAt := tokens.expiresAt now
          revokedAt := family.revokedAt } .ended
  | lost {now tokens} (h : x.stage = .persisted tokens) : Turn family x (.rotate now) family .ended
  | revoke {now cause} (h : x.stage = .refused cause) :
      Turn family x (.revoke now) (family.revokeRefreshFamily now) .ended
  | crash : Turn family x .crash family .ended

variable {family family' : RefreshFamily} {x : Exchange} {action : Action} {stage' : Stage}
  {s t : System} {leaseId now : Nat}

theorem turn_of_advance (h : x.advance family action = some (family', stage')) :
    Turn family x action family' stage' := by
  unfold Exchange.advance at h
  split at h
  next =>
    split at h
    next hstage =>
      cases h
      exact .unconfigured hstage
    next => cases h
  next =>
    split at h
    next hstage =>
      cases h
      exact .present hstage
    next => cases h
  next =>
    split at h
    next hstage =>
      cases h
      exact .answer hstage
    next => cases h
  next =>
    split at h
    next hstage =>
      cases h
      exact .verify hstage
    next => cases h
  next =>
    split at h
    next tokens hstage =>
      split at h
      next rotated hrotated =>
        cases h
        unfold RefreshFamily.rotateRefreshFamily at hrotated
        split at hrotated
        next hguard =>
          cases hrotated
          refine .rotate hstage hguard.1 ?_
          unfold RefreshFamily.revoked
          rw [isNone_iff_eq_none.mp hguard.2]
          rfl
        next => cases hrotated
      next =>
        cases h
        exact .lost hstage
    next => cases h
  next =>
    split at h
    next hstage =>
      cases h
      exact .revoke hstage
    next => cases h
  next =>
    cases h
    exact .crash

theorem act_ok (h : s.act leaseId action = some t) : ∃ x ∈ s.exchanges, x.leaseId = leaseId ∧
      lookup Exchange.id leaseId s.exchanges = some x ∧ ∃ stage',
        Turn s.family x action t.family stage' ∧
        t.exchanges = upsert Exchange.id { x with stage := stage' } s.exchanges ∧
        t.presented = s.presented ++ action.presents x ∧ t.issued = s.issued ++ action.issues := by
  unfold System.act at h
  obtain ⟨x, hx, h⟩ := bind_eq_some_iff.mp h
  obtain ⟨⟨family, stage'⟩, hadvance, h⟩ := bind_eq_some_iff.mp h
  cases h
  have hid : x.id = leaseId := by simpa using find?_some hx
  exact ⟨x, mem_of_find?_eq_some hx, hid, hx, stage', turn_of_advance hadvance, rfl, rfl, rfl⟩

theorem acquire_ok (h : s.acquire leaseId now = some t) :
    (∀ x ∈ s.exchanges, x.leaseId ≠ leaseId) ∧ s.family.revoked = false ∧
      t = { s with
        family := { s.family with
          leaseId := some leaseId, leaseExpiresAt := some (now + leaseTtlMs) }
        exchanges := s.exchanges ++
          [{ leaseId, refreshToken := s.family.refreshToken, stage := .leased }] } := by
  unfold System.acquire at h
  split at h
  next => cases h
  next hfree =>
    obtain ⟨⟨family, lease⟩, hlease, h⟩ := bind_eq_some_iff.mp h
    cases h
    unfold RefreshFamily.acquireRefreshLease at hlease
    split at hlease
    next hguard =>
      cases hlease
      refine ⟨?_, ?_, rfl⟩
      · intro x hx hid
        exact hfree (any_eq_true.mpr ⟨x, hx, beq_iff_eq.mpr hid⟩)
      · unfold RefreshFamily.revoked
        rw [isNone_iff_eq_none.mp hguard.1]
        rfl
    next => cases hlease

/-! ### Leases and tokens -/

/-- The tokens of the leases, of the row and of the answers, and what has been
presented of them. -/
structure Leased (s : System) : Prop where
  ids : (s.exchanges.map Exchange.id).Nodup
  held : ∀ x ∈ s.exchanges, s.family.leaseId = some x.leaseId →
    x.refreshToken = s.family.refreshToken
  holder : ∀ l, s.family.leaseId = some l → ∃ x ∈ s.exchanges, x.leaseId = l
  revokedFree : s.family.revoked = true → s.family.leaseId = none
  sent : ∀ p ∈ s.presented, ∃ x ∈ s.exchanges, x.leaseId = p.1 ∧ x.refreshToken = p.2 ∧
    x.stage ≠ .leased
  storedIssued : s.family.refreshToken ∈ s.issued
  leaseIssued : ∀ x ∈ s.exchanges, x.refreshToken ∈ s.issued
  answerIssued : ∀ x ∈ s.exchanges, ∀ tokens, x.stage.tokens = some tokens →
    tokens.refreshToken ∈ s.issued
  answerNew : ∀ x ∈ s.exchanges, ∀ tokens, x.stage.tokens = some tokens →
    tokens.refreshToken ≠ s.family.refreshToken ∧
      ∀ y ∈ s.exchanges, y.refreshToken ≠ tokens.refreshToken
  answerOwn : ∀ x ∈ s.exchanges, ∀ y ∈ s.exchanges, ∀ tokens tokens',
    x.stage.tokens = some tokens → y.stage.tokens = some tokens' →
      tokens.refreshToken = tokens'.refreshToken → x.leaseId = y.leaseId

/-- The provider issues no refresh token twice. -/
def IssuesFresh (s : System) : Label → Prop
  | .act _ action => ∀ token ∈ action.issues, token ∉ s.issued
  | _ => True

/-- Every token is presented once, and the one in the row only under its lease. -/
structure PresentedOnce (s : System) : Prop where
  once : (s.presented.map Prod.snd).Nodup
  current : s.family.revoked = false → ∀ p ∈ s.presented, p.2 = s.family.refreshToken →
    s.family.leaseId = some p.1

section Act

variable {s t : System} {x : Exchange} {stage' : Stage}

/-- An exchange of the next state is the one that moved, or as it was. -/
theorem mem_after (hids : (s.exchanges.map Exchange.id).Nodup)
    (hexchanges : t.exchanges = upsert Exchange.id { x with stage := stage' } s.exchanges)
    {y : Exchange} : y ∈ t.exchanges ↔
      y = { x with stage := stage' } ∨ (y ∈ s.exchanges ∧ y.leaseId ≠ x.leaseId) := by
  rw [hexchanges]
  exact mem_upsert_iff hids

/-- A lease goes on from one state to the next. -/
theorem lease_after (hids : (s.exchanges.map Exchange.id).Nodup) (hx : x ∈ s.exchanges)
    (hexchanges : t.exchanges = upsert Exchange.id { x with stage := stage' } s.exchanges)
    {y : Exchange} (hy : y ∈ s.exchanges) : ∃ y' ∈ t.exchanges, y'.toLease = y.toLease ∧
      (y' = y ∨ y' = { x with stage := stage' }) := by
  by_cases hid : y.leaseId = x.leaseId
  · obtain rfl := inj_on_of_nodup_map hids hy hx hid
    exact ⟨_, (mem_after hids hexchanges).mpr (.inl rfl), rfl, .inr rfl⟩
  · exact ⟨y, (mem_after hids hexchanges).mpr (.inr ⟨hy, hid⟩), rfl, .inl rfl⟩

theorem lease_before (hids : (s.exchanges.map Exchange.id).Nodup) (hx : x ∈ s.exchanges)
    (hexchanges : t.exchanges = upsert Exchange.id { x with stage := stage' } s.exchanges)
    {y' : Exchange} (hy' : y' ∈ t.exchanges) : ∃ y ∈ s.exchanges, y.toLease = y'.toLease := by
  rcases (mem_after hids hexchanges).mp hy' with rfl | ⟨hy, _⟩
  · exact ⟨x, hx, rfl⟩
  · exact ⟨y', hy, rfl⟩

end Act

/-- What a turn does to the row. -/
inductive FamilyTurn (x : Exchange) (family family' : RefreshFamily) : Prop
  | same (h : family' = family)
  | rotated (tokens : Tokens) (hstage : x.stage = .persisted tokens)
      (hlease : family.leaseId = some x.leaseId) (hopen : family.revoked = false)
      (htoken : family'.refreshToken = tokens.refreshToken) (hfree : family'.leaseId = none)
      (hrevoked : family'.revoked = false)
  | revoked (cause : Refusal) (hstage : x.stage = .refused cause)
      (htoken : family'.refreshToken = family.refreshToken)
      (hgeneration : family'.generation = family.generation) (hfree : family'.leaseId = none)
      (hrevoked : family'.revoked = true)

theorem familyTurn_of_turn (h : Turn family x action family' stage') :
    FamilyTurn x family family' := by
  cases h with
  | rotate hstage hlease hopen => exact .rotated _ hstage hlease hopen rfl rfl hopen
  | revoke hstage => exact .revoked _ hstage rfl rfl rfl rfl
  | unconfigured | present | answer | verify | lost | crash => exact .same rfl

/-- Tokens that a turn has in hand were in hand, or are just issued. -/
theorem tokens_of_turn (h : Turn family x action family' stage') {tokens : Tokens}
    (htokens : stage'.tokens = some tokens) :
    (family' = family ∧ x.stage.tokens = some tokens) ∨
      (family' = family ∧ tokens.refreshToken ∈ action.issues) := by
  cases h with
  | @answer received hstage =>
    cases received with
    | tokens received =>
      cases htokens
      exact .inr ⟨rfl, mem_singleton.mpr rfl⟩
    | rejected | transient => cases htokens
  | @verify valid tokens' hstage =>
    cases valid with
    | true =>
      cases htokens
      exact .inl ⟨rfl, by rw [hstage]; rfl⟩
    | false => cases htokens
  | unconfigured | present | rotate | lost | revoke | crash => cases htokens

/-- The token is in the row as long as an exchange may present it. -/
theorem stage_after_leased (h : Turn family x action family' stage') : stage' ≠ .leased := by
  cases h with
  | @answer received => cases received <;> exact Stage.noConfusion
  | @verify valid => cases valid <;> exact Stage.noConfusion
  | unconfigured | present | rotate | lost | revoke | crash => exact Stage.noConfusion

theorem leased_of_act (hleased : Leased s) (hfresh : IssuesFresh s (.act leaseId action))
    (h : s.act leaseId action = some t) : Leased t := by
  obtain ⟨x, hx, hxId, _, stage', hturn, hexchanges, hpresented, hissued⟩ := act_ok h
  have hbefore {y' : Exchange} (hy' : y' ∈ t.exchanges) : ∃ y ∈ s.exchanges, y.toLease = y'.toLease :=
    lease_before hleased.ids hx hexchanges hy'
  have hfamily := familyTurn_of_turn hturn
  have hkept {token : String} (htoken : token ∈ s.issued) : token ∈ t.issued :=
    hissued ▸ mem_append_left _ htoken
  -- Tokens in hand were in hand before, with the row as it is, or are new.
  have htokens {y' : Exchange} (hy' : y' ∈ t.exchanges) {tokens : Tokens}
      (h : y'.stage.tokens = some tokens) :
      (∃ y ∈ s.exchanges, y.leaseId = y'.leaseId ∧ y.stage.tokens = some tokens ∧
        (t.family = s.family ∨ y.leaseId ≠ x.leaseId)) ∨
        (t.family = s.family ∧ y'.leaseId = x.leaseId ∧ tokens.refreshToken ∈ action.issues) := by
    rcases (mem_after hleased.ids hexchanges).mp hy' with rfl | ⟨hy, hother⟩
    · rcases tokens_of_turn hturn h with ⟨hsame, hold⟩ | ⟨hsame, hnew⟩
      · exact .inl ⟨x, hx, rfl, hold, .inl hsame⟩
      · exact .inr ⟨hsame, rfl, hnew⟩
    · exact .inl ⟨y', hy, rfl, h, .inr hother⟩
  refine ⟨?_, ?_, ?_, ?_, ?_, ?_, ?_, ?_, ?_, ?_⟩
  · rw [hexchanges]
    exact nodup_upsert hleased.ids
  · intro y' hy' hlease
    cases hfamily with
    | same hsame =>
      rw [hsame] at hlease ⊢
      obtain ⟨y, hy, hleaseSame⟩ := hbefore hy'
      rw [← hleaseSame] at hlease ⊢
      exact hleased.held y hy hlease
    | rotated _ _ _ _ _ hfree _ | revoked _ _ _ _ hfree _ =>
      rw [hfree] at hlease
      cases hlease
  · intro l hlease
    cases hfamily with
    | same hsame =>
      rw [hsame] at hlease
      obtain ⟨y, hy, hid⟩ := hleased.holder l hlease
      obtain ⟨y', hy', hleaseSame, _⟩ := lease_after hleased.ids hx hexchanges hy
      exact ⟨y', hy', (congrArg Lease.leaseId hleaseSame).trans hid⟩
    | rotated _ _ _ _ _ hfree _ | revoked _ _ _ _ hfree _ =>
      rw [hfree] at hlease
      cases hlease
  · intro hrevoked
    cases hfamily with
    | same hsame =>
      rw [hsame] at hrevoked ⊢
      exact hleased.revokedFree hrevoked
    | rotated _ _ _ _ _ hfree _ | revoked _ _ _ _ hfree _ => exact hfree
  · intro p hp
    rw [hpresented] at hp
    rcases mem_append.mp hp with hp | hp
    · obtain ⟨y, hy, hid, htoken, hstage⟩ := hleased.sent p hp
      obtain ⟨y', hy', hleaseSame, hwhich⟩ := lease_after hleased.ids hx hexchanges hy
      refine ⟨y', hy', (congrArg Lease.leaseId hleaseSame).trans hid,
        (congrArg Lease.refreshToken hleaseSame).trans htoken, ?_⟩
      rcases hwhich with rfl | rfl
      · exact hstage
      · exact stage_after_leased hturn
    · have hpair : p = (x.leaseId, x.refreshToken) := by
        cases action with
        | present => exact mem_singleton.mp hp
        | unconfigured | answer | verify | rotate | revoke | crash => cases hp
      refine ⟨{ x with stage := stage' }, (mem_after hleased.ids hexchanges).mpr (.inl rfl), ?_, ?_,
        stage_after_leased hturn⟩
      · rw [hpair]
      · rw [hpair]
  · apply hkept
    cases hfamily with
    | same hsame => exact hsame ▸ hleased.storedIssued
    | rotated tokens hstage _ _ htoken _ _ =>
      rw [htoken]
      exact hleased.answerIssued x hx tokens (by rw [hstage]; rfl)
    | revoked _ _ htoken _ _ _ => exact htoken ▸ hleased.storedIssued
  · intro y' hy'
    obtain ⟨y, hy, hleaseSame⟩ := hbefore hy'
    rw [← hleaseSame]
    exact hkept (hleased.leaseIssued y hy)
  · intro y' hy' tokens h
    rcases htokens hy' h with ⟨y, hy, _, hold, _⟩ | ⟨_, _, hnew⟩
    · exact hkept (hleased.answerIssued y hy tokens hold)
    · exact hissued ▸ mem_append_right _ hnew
  · intro y' hy' tokens h
    rcases htokens hy' h with ⟨y, hy, _, hold, hwhich⟩ | ⟨hsame, _, hnew⟩
    · obtain ⟨hstored, hleases⟩ := hleased.answerNew y hy tokens hold
      refine ⟨?_, ?_⟩
      · cases hfamily with
        | same hsame => exact hsame ▸ hstored
        | revoked _ _ htoken _ _ _ => exact htoken ▸ hstored
        | rotated tokens' hstage hlease _ htoken hfree _ =>
          intro hclash
          have howner := hleased.answerOwn y hy x hx tokens tokens' hold (by rw [hstage]; rfl)
            (hclash.trans htoken)
          rcases hwhich with hsame | hother
          · rw [hsame, hlease] at hfree
            cases hfree
          · exact hother howner
      · intro z' hz'
        obtain ⟨z, hz, hleaseSame⟩ := hbefore hz'
        rw [← hleaseSame]
        exact hleases z hz
    · have hunknown := hfresh tokens.refreshToken hnew
      refine ⟨?_, ?_⟩
      · rw [hsame]
        exact fun hclash => hunknown (hclash ▸ hleased.storedIssued)
      · intro z' hz' hclash
        obtain ⟨z, hz, hleaseSame⟩ := hbefore hz'
        rw [← hleaseSame] at hclash
        exact hunknown (hclash ▸ hleased.leaseIssued z hz)
  · intro y' hy' z' hz' tokens tokens' hy hz hsame
    rcases htokens hy' hy with ⟨y, hyMem, hyId, hyOld, _⟩ | ⟨_, hyId, hyNew⟩
    · rcases htokens hz' hz with ⟨z, hzMem, hzId, hzOld, _⟩ | ⟨_, _, hzNew⟩
      · have howner := hleased.answerOwn y hyMem z hzMem tokens tokens' hyOld hzOld hsame
        rw [← hyId, ← hzId, howner]
      · exact absurd (hsame ▸ hleased.answerIssued y hyMem tokens hyOld) (hfresh _ hzNew)
    · rcases htokens hz' hz with ⟨z, hzMem, hzId, hzOld, _⟩ | ⟨_, hzId, _⟩
      · exact absurd (hsame ▸ hleased.answerIssued z hzMem tokens' hzOld) (hfresh _ hyNew)
      · rw [hyId, hzId]

theorem leased_of_acquire (hleased : Leased s) (h : s.acquire leaseId now = some t) : Leased t := by
  obtain ⟨hunused, hopen, rfl⟩ := acquire_ok h
  have hmem {y : Exchange} (hy : y ∈ s.exchanges ++
      [{ leaseId, refreshToken := s.family.refreshToken, stage := .leased }]) :
      y ∈ s.exchanges ∨ y = { leaseId, refreshToken := s.family.refreshToken, stage := .leased } := by
    rcases mem_concat.mp hy with hy | hy
    · exact .inl hy
    · exact .inr hy
  have htokens {y : Exchange} (hy : y ∈ s.exchanges ++
      [{ leaseId, refreshToken := s.family.refreshToken, stage := .leased }]) {tokens : Tokens}
      (h : y.stage.tokens = some tokens) : y ∈ s.exchanges := by
    rcases hmem hy with hy | rfl
    · exact hy
    · cases h
  refine ⟨?_, ?_, ?_, ?_, ?_, hleased.storedIssued, ?_, ?_, ?_, ?_⟩
  · rw [map_append]
    apply nodup_append_fresh hleased.ids
    intro hin
    obtain ⟨x, hx, hid⟩ := mem_map.mp hin
    exact hunused x hx hid
  · intro y hy hlease
    rcases hmem hy with hy | rfl
    · exact absurd (some.inj hlease).symm (hunused y hy)
    · rfl
  · intro l hlease
    cases hlease
    exact ⟨_, mem_concat_self, rfl⟩
  · intro hrevoked
    have hstill : s.family.revoked = true := hrevoked
    rw [hopen] at hstill
    cases hstill
  · intro p hp
    obtain ⟨x, hx, hsent⟩ := hleased.sent p hp
    exact ⟨x, mem_append_left _ hx, hsent⟩
  · intro y hy
    rcases hmem hy with hy | rfl
    · exact hleased.leaseIssued y hy
    · exact hleased.storedIssued
  · intro y hy tokens h
    exact hleased.answerIssued y (htokens hy h) tokens h
  · intro y hy tokens h
    obtain ⟨hstored, hleases⟩ := hleased.answerNew y (htokens hy h) tokens h
    refine ⟨hstored, ?_⟩
    intro z hz
    rcases hmem hz with hz | rfl
    · exact hleases z hz
    · exact hstored.symm
  · intro y hy z hz tokens tokens' hyTokens hzTokens hsame
    exact hleased.answerOwn y (htokens hy hyTokens) z (htokens hz hzTokens) tokens tokens' hyTokens
      hzTokens hsame

theorem leased_of_step {a : Label} (hleased : Leased s) (hfresh : IssuesFresh s a)
    (h : s.step a = some t) : Leased t := by
  cases a with
  | acquire leaseId now => exact leased_of_acquire hleased h
  | act leaseId action => exact leased_of_act hleased hfresh h

theorem leased_start (refreshToken : String) (expiresAt : Nat) :
    Leased (start refreshToken expiresAt) where
  ids := nodup_nil
  held _ h := by cases h
  holder _ h := by cases h
  revokedFree h := by cases h
  sent _ h := by cases h
  storedIssued := mem_singleton.mpr rfl
  leaseIssued _ h := by cases h
  answerIssued _ h := by cases h
  answerNew _ h := by cases h
  answerOwn _ h := by cases h

/-! ### What the exchanges do -/

/-- A lease is taken over only from a holder that has not sent its token, a token is
sent only under its lease, and a family is revoked only under the lease and after
an answer of the provider. -/
def HolderOnly (s : System) : Label → Prop
  | .acquire _ _ => ∀ old ∈ s.family.leaseId, old ∉ s.presented.map Prod.fst
  | .act leaseId .present => s.family.leaseId = some leaseId
  | .act leaseId (.revoke _) => s.family.revoked = true ∨
      (s.family.leaseId = some leaseId ∧
        ∀ x ∈ s.exchanges, x.leaseId = leaseId → x.stage ≠ .refused .transient)
  | _ => True

/-- What a step must not do to a family. -/
structure Guarded (s t : System) (a : Label) : Prop where
  /-- An exchange that has lost its lease neither rotates nor revokes. -/
  lost : ∀ leaseId action, a = .act leaseId action → s.family.leaseId ≠ some leaseId →
    t.family.generation = s.family.generation ∧
      t.family.refreshToken = s.family.refreshToken ∧ t.family.revoked = s.family.revoked
  /-- A revoked family stays revoked; it is neither leased nor rotated. -/
  revoked : s.family.revoked = true → t.family.revoked = true ∧
    t.family.generation = s.family.generation ∧
      t.family.refreshToken = s.family.refreshToken ∧
      t.exchanges.map Exchange.id = s.exchanges.map Exchange.id
  /-- A transient failure does not revoke. -/
  transient : ∀ leaseId action, a = .act leaseId action →
    (∃ x ∈ s.exchanges, x.leaseId = leaseId ∧ x.stage = .refused .transient) →
      t.family.revoked = s.family.revoked

theorem presentedOnce_of_acquire (honce : PresentedOnce s)
    (hcond : HolderOnly s (.acquire leaseId now)) (h : s.acquire leaseId now = some t) :
    PresentedOnce t := by
  obtain ⟨_, hopen, rfl⟩ := acquire_ok h
  refine ⟨honce.once, ?_⟩
  intro _ p hp htoken
  have hholder := honce.current hopen p hp htoken
  exact absurd (mem_map_of_mem hp) (hcond p.1 hholder)

theorem presentedOnce_of_act (hleased : Leased s) (honce : PresentedOnce s)
    (hcond : HolderOnly s (.act leaseId action)) (h : s.act leaseId action = some t) :
    PresentedOnce t := by
  obtain ⟨x, hx, hxId, _, stage', hturn, _, hpresented, _⟩ := act_ok h
  have hsilent (hnone : action.presents x = []) : PresentedOnce t := by
    rw [hnone, append_nil] at hpresented
    refine ⟨hpresented ▸ honce.once, ?_⟩
    intro hopen p hp htoken
    rw [hpresented] at hp
    cases familyTurn_of_turn hturn with
    | same hsame =>
      rw [hsame] at hopen htoken ⊢
      exact honce.current hopen p hp htoken
    | rotated tokens hstage _ _ hrotated _ _ =>
      obtain ⟨y, hy, _, hsent, _⟩ := hleased.sent p hp
      have hnew := (hleased.answerNew x hx tokens (by rw [hstage]; rfl)).2 y hy
      exact absurd (hsent.trans (htoken.trans hrotated)) hnew
    | revoked _ _ _ _ _ hrevoked =>
      rw [hopen] at hrevoked
      cases hrevoked
  cases action with
  | unconfigured | answer | verify | rotate | revoke | crash => exact hsilent rfl
  | present =>
    generalize hafter : t.family = family' at hturn
    cases hturn with
    | present hstage =>
      have hlease : s.family.leaseId = some x.leaseId := hxId ▸ hcond
      have hopen : s.family.revoked = false := by
        cases hrevoked : s.family.revoked with
        | false => rfl
        | true =>
          rw [hleased.revokedFree hrevoked] at hlease
          cases hlease
      have hstored := hleased.held x hx hlease
      have hpresented : t.presented = s.presented ++ [(x.leaseId, x.refreshToken)] := hpresented
      refine ⟨?_, ?_⟩
      · rw [hpresented, map_append]
        apply nodup_append_fresh honce.once
        intro hmem
        obtain ⟨p, hp, htoken⟩ := mem_map.mp hmem
        have hholder := honce.current hopen p hp (htoken.trans hstored)
        obtain ⟨y, hy, hyId, _, hyStage⟩ := hleased.sent p hp
        have hsame : y.leaseId = x.leaseId :=
          hyId.trans (some.inj (hholder.symm.trans hlease))
        obtain rfl := inj_on_of_nodup_map hleased.ids hy hx hsame
        exact hyStage hstage
      · intro _ p hp htoken
        rw [hafter] at htoken ⊢
        rw [hpresented] at hp
        rcases mem_concat.mp hp with hp | rfl
        · exact honce.current hopen p hp htoken
        · exact hlease

/-- What a turn leaves of the row, by the lease and the stage it starts from. -/
theorem kept_of_turn (hx : x ∈ s.exchanges) (hcond : HolderOnly s (.act x.leaseId action))
    (hturn : Turn s.family x action family' stage') :
    (s.family.leaseId ≠ some x.leaseId ∨ s.family.revoked = true →
      family'.generation = s.family.generation ∧ family'.refreshToken = s.family.refreshToken ∧
        family'.revoked = s.family.revoked) ∧
      (x.stage = .refused .transient → family'.revoked = s.family.revoked) := by
  cases hturn with
  | unconfigured | present | answer | verify | lost | crash =>
    exact ⟨fun _ => ⟨rfl, rfl, rfl⟩, fun _ => rfl⟩
  | rotate hstage hlease hopen =>
    refine ⟨?_, fun _ => rfl⟩
    rintro (hlost | hrevoked)
    · exact absurd hlease hlost
    · rw [hopen] at hrevoked
      cases hrevoked
  | @revoke now _ hstage =>
    rcases hcond with hrevoked | ⟨hlease, hcause⟩
    · have hsame : (s.family.revokeRefreshFamily now).revoked = s.family.revoked := hrevoked.symm
      exact ⟨fun _ => ⟨rfl, rfl, hsame⟩, fun _ => hsame⟩
    · refine ⟨?_, fun htransient => absurd htransient (hcause x hx rfl)⟩
      rintro (hlost | hrevoked)
      · exact absurd hlease hlost
      · exact ⟨rfl, rfl, hrevoked.symm⟩

theorem guarded_of_step {a : Label} (hleased : Leased s) (hcond : HolderOnly s a)
    (h : s.step a = some t) : Guarded s t a := by
  cases a with
  | acquire leaseId now =>
    obtain ⟨_, hopen, rfl⟩ := acquire_ok h
    refine ⟨?_, ?_, ?_⟩
    · intro _ _ hact
      cases hact
    · intro hrevoked
      rw [hopen] at hrevoked
      cases hrevoked
    · intro _ _ hact
      cases hact
  | act leaseId action =>
    obtain ⟨x, hx, rfl, _, stage', hturn, hexchanges, _, _⟩ := act_ok h
    obtain ⟨hkept, htransient⟩ := kept_of_turn hx hcond hturn
    refine ⟨?_, ?_, ?_⟩
    · intro leaseId' action' hact hlost
      cases hact
      exact hkept (.inl hlost)
    · intro hrevoked
      obtain ⟨hgeneration, htoken, hsame⟩ := hkept (.inr hrevoked)
      refine ⟨hsame.trans hrevoked, hgeneration, htoken, ?_⟩
      rw [hexchanges]
      exact map_upsert hx rfl
    · rintro leaseId' action' hact ⟨y, hy, hid, hstage⟩
      cases hact
      obtain rfl := inj_on_of_nodup_map hleased.ids hy hx hid
      exact htransient hstage

/-- As long as a lease is worth what it should be, every token of the provider is
presented once, and nobody without the lease, no transient failure and no later
exchange touches the family. -/
theorem exchanges_guarded (refreshToken : String) (expiresAt : Nat) (labels : List Label)
    (hfresh : Meets System.step IssuesFresh (start refreshToken expiresAt) labels)
    (hholder : Meets System.step HolderOnly (start refreshToken expiresAt) labels) :
    Always System.step (fun s => (s.presented.map Prod.snd).Nodup) (start refreshToken expiresAt)
        labels ∧
      Meets System.step (fun s a => ∀ t, s.step a = some t → Guarded s t a)
        (start refreshToken expiresAt) labels := by
  have hboth : Meets System.step (fun s a => IssuesFresh s a ∧ HolderOnly s a)
      (start refreshToken expiresAt) labels := hfresh.and hholder
  have hstep : ∀ s a t, Leased s ∧ PresentedOnce s → IssuesFresh s a ∧ HolderOnly s a →
      s.step a = some t → Leased t ∧ PresentedOnce t := by
    rintro s a t ⟨hleased, honce⟩ ⟨hnew, hcond⟩ h
    refine ⟨leased_of_step hleased hnew h, ?_⟩
    cases a with
    | acquire leaseId now => exact presentedOnce_of_acquire honce hcond h
    | act leaseId action => exact presentedOnce_of_act hleased honce hcond h
  have hstart : Leased (start refreshToken expiresAt) ∧
      PresentedOnce (start refreshToken expiresAt) :=
    ⟨leased_start refreshToken expiresAt, nodup_nil, fun _ _ h => by cases h⟩
  refine ⟨?_, ?_⟩
  · have halways := always_of_meets hstep hstart hboth
    exact halways.mono fun s hs => hs.2.once
  · apply meets_of_invariant hstep _ hstart hboth
    rintro s a ⟨hleased, _⟩ ⟨_, hcond⟩ t h
    exact guarded_of_step hleased hcond h

instance (s : System) : DecidablePred (IssuesFresh s) := by
  intro a
  unfold IssuesFresh
  split <;> infer_instance

instance (s : System) : DecidablePred (HolderOnly s) := by
  intro a
  unfold HolderOnly
  split <;> infer_instance

/-- Two exchanges one after the other, and a third that the provider refuses. -/
def oneAfterTheOther : List Label :=
  [.acquire 1 0, .act 1 .present, .act 1 (.answer (.tokens ⟨"second", some 1800⟩)),
   .act 1 (.verify true), .act 1 (.rotate 500),
   .acquire 2 1000, .act 2 .crash,
   .acquire 3 40000, .act 3 .present, .act 3 (.answer .rejected), .act 3 (.revoke 41000)]

theorem oneAfterTheOther_guarded :
    Always System.step (fun s => (s.presented.map Prod.snd).Nodup) (start "first" 1000000)
        oneAfterTheOther ∧
      Meets System.step (fun s a => ∀ t, s.step a = some t → Guarded s t a)
        (start "first" 1000000) oneAfterTheOther :=
  exchanges_guarded "first" 1000000 oneAfterTheOther (by decide) (by decide)

/-! The lease of the first exchange expires while it waits for the provider, and the
second one presents the same token. -/

def takenOver : List Label :=
  [.acquire 1 0, .act 1 .present, .acquire 2 30001, .act 2 .present]

theorem presented_twice :
    ¬ Always System.step (fun s => (s.presented.map Prod.snd).Nodup) (start "first" 1000000)
      takenOver := by
  intro h
  have hrun : (run System.step (start "first" 1000000) takenOver).map
      (fun s => s.presented.map Prod.snd) = some ["first", "first"] := by
    decide
  obtain ⟨s, hs, hpresented⟩ := map_eq_some_iff.mp hrun
  have honce := h.finish hs
  rw [hpresented] at honce
  exact absurd honce (by decide)

end Bis.Sessions
