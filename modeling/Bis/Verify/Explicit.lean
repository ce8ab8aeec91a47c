import Bis.Monitoring.Delta
import Bis.Verify.Engine

/-!
Whether a subject is reported clear, or an identity verified, only on an answer that says so.
Our own providers' answers are taken at their word. The screenings of a monitored subject and
what Youverify answers are taken for clear or verified where the answer has neither the
decision nor any hits or data: exactly the answers that have one are safe.
-/

namespace Bis.Verify

open Bis.Json Bis.Monitoring Bis.Transition Option

/-! ### What an answer says -/

/-- A list of hits that is there and empty. -/
def isEmptyArray (value : Option Value) : Bool := (array? value).any List.isEmpty

def isBoolean (value : Option Value) : Bool := isBool true value || isBool false value

/-- The answer says that the subject is clear. -/
def saysClear : MonitoringListKind → Value → Bool
  | .sanctions, res => isBool true (get "clear" res) || isEmptyArray (get "hits" res)
  | .pep, res =>
    isBool false (get "isPEP" res) || isEmptyArray (get "hits" res) ||
      isEmptyArray (get "matches" res)
  | .watchlist, res =>
    isBool false (get "hit" res) || isBool false ((get "data" res).bind (get "hit"))

/-- The answer has a decision, or a list of hits. -/
def hasDecision : MonitoringListKind → Value → Bool
  | .sanctions, res => isBoolean (get "clear" res) || (array? (get "hits" res)).isSome
  | .pep, res =>
    isBoolean (get "isPEP" res) || (array? (get "hits" res)).isSome ||
      (array? (get "matches" res)).isSome
  | .watchlist, res =>
    isBoolean (get "hit" res) || isBoolean ((get "data" res).bind (get "hit"))

def isVerified : Value → Bool
  | .string text => text == "VERIFIED"
  | _ => false

def isTrue : Value → Bool
  | .bool b => b
  | _ => false

def isText : Value → Bool
  | .string text => text != ""
  | _ => false

def isArray : Value → Bool
  | .array _ => true
  | _ => false

def saysVerified : Value → Bool := carries ninTags "status" isVerified

def saysNoSanctions : Value → Bool := carries sanctionsTags "clear" isTrue

/-- Some datum of a person. -/
def hasIdentity : Value → Bool :=
  carries youverifyTags "data" fun data => personTags.any fun tag => carries personTags tag isText data

def hasHits : Value → Bool := carries ["data"] "data" (carries ["hits"] "hits" isArray)

/-! ### Own providers -/

variable {now : String} {reply : Reply} {v res : Value} {tag name : String} {cfg : Config}

theorem decodeMembers_of_decodeStruct {α : Type*} {tags : List String}
    {assign : String → Value → α → Option α} {zero r : α} {P : α → Prop}
    (h : decodeStruct tags assign zero v = some r) (hzero : ¬ P zero) (hr : P r) :
    ∃ members, v = .object members ∧ decodeMembers tags assign members zero = some r := by
  unfold decodeStruct at h
  split at h
  · cases h
    exact absurd hr hzero
  · exact ⟨_, rfl, h⟩
  · cases h

theorem status_of_assignNIN {before after : NINResult} (h : assignNIN tag v before = some after) :
    after.status = before.status ∨ (tag = "status" ∧ goString before.status v = some after.status) := by
  unfold assignNIN at h
  split at h <;> obtain ⟨x, hx, rfl⟩ := map_eq_some_iff.mp h <;>
    first | exact .inr ⟨rfl, hx⟩ | exact .inl rfl

theorem saysVerified_of_decodeNIN {r : NINResult} (h : decodeNIN v = some r)
    (hr : r.status = "VERIFIED") : saysVerified v = true := by
  have hzero : ¬ NINResult.zero.status = "VERIFIED" := by decide
  obtain ⟨members, rfl, hmembers⟩ :=
    decodeMembers_of_decodeStruct (P := fun r => r.status = "VERIFIED") h hzero hr
  obtain ⟨key, v, tag, before, after, hmem, htag, hassign, hbefore, hafter⟩ :=
    exists_member_of_decodeMembers (P := fun r => r.status = "VERIFIED") hmembers hzero hr
  rcases status_of_assignNIN hassign with hsame | ⟨rfl, hstring⟩
  · exact absurd (hsame ▸ hafter) hbefore
  · refine carries_of_mem hmem htag ?_
    cases v with
    | null => exact absurd ((some.inj hstring).trans hafter) hbefore
    | string text =>
      cases hstring
      simpa [isVerified] using hafter
    | bool | number | array | object => cases hstring

theorem clear_of_assignSanctions {before after : SanctionsResult}
    (h : assignSanctions tag v before = some after) :
    after.clear = before.clear ∨ (tag = "clear" ∧ goBool before.clear v = some after.clear) := by
  unfold assignSanctions at h
  split at h <;> obtain ⟨x, hx, rfl⟩ := map_eq_some_iff.mp h <;>
    first | exact .inr ⟨rfl, hx⟩ | exact .inl rfl

theorem saysNoSanctions_of_decodeSanctions {r : SanctionsResult} (h : decodeSanctions v = some r)
    (hr : r.clear = true) : saysNoSanctions v = true := by
  have hzero : ¬ SanctionsResult.zero.clear = true := by decide
  obtain ⟨members, rfl, hmembers⟩ :=
    decodeMembers_of_decodeStruct (P := fun r => r.clear = true) h hzero hr
  obtain ⟨key, v, tag, before, after, hmem, htag, hassign, hbefore, hafter⟩ :=
    exists_member_of_decodeMembers (P := fun r => r.clear = true) hmembers hzero hr
  rcases clear_of_assignSanctions hassign with hsame | ⟨rfl, hbool⟩
  · exact absurd (hsame ▸ hafter) hbefore
  · refine carries_of_mem hmem htag ?_
    cases v with
    | null => exact absurd ((some.inj hbool).trans hafter) hbefore
    | bool b =>
      cases hbool
      exact hafter
    | string | number | array | object => cases hbool

/-! ### Youverify -/

theorem mem_of_tagFor {tags : List String} {key : String} (h : tagFor tags key = some tag) :
    tag ∈ tags := by
  unfold tagFor at h
  split at h
  next hkey =>
    cases h
    exact hkey
  · exact List.mem_of_find?_eq_some h

/-- Hits that have been decoded were written down. -/
theorem hasHits_of_decode {hits : YouverifyHits} (h : decodeYouverifySanctions v = some hits)
    (hhits : hits.isSome = true) : hasHits v = true := by
  have hnone : ¬ (none : YouverifyHits).isSome = true := nofun
  obtain ⟨members, rfl, hmembers⟩ :=
    decodeMembers_of_decodeStruct (P := fun hits => hits.isSome = true) h hnone hhits
  obtain ⟨key, data, tag, before, after, hmem, htag, hassign, hbefore, hafter⟩ :=
    exists_member_of_decodeMembers (P := fun hits => hits.isSome = true) hmembers hnone hhits
  cases List.mem_singleton.mp (mem_of_tagFor htag)
  refine carries_of_mem hmem htag ?_
  obtain ⟨members', rfl, hmembers'⟩ :=
    decodeMembers_of_decodeStruct (P := fun hits => hits.isSome = true) hassign hbefore hafter
  obtain ⟨key', items, tag', before', after', hmem', htag', hassign', hbefore', hafter'⟩ :=
    exists_member_of_decodeMembers (P := fun hits => hits.isSome = true) hmembers' hbefore hafter
  cases List.mem_singleton.mp (mem_of_tagFor htag')
  refine carries_of_mem hmem' htag' ?_
  cases items with
  | null =>
    cases hassign'
    cases hafter'
  | array items => rfl
  | bool | number | string | object => cases hassign'

/-! ### Monitoring -/

variable {sha256Hex : String → String}

theorem uniqueHits_eq_nil_iff {hits : List MonitoringHit} : uniqueHits hits = [] ↔ hits = [] := by
  constructor
  · intro h
    refine List.eq_nil_iff_forall_not_mem.mpr ?_
    intro hit hhit
    obtain ⟨kept, hkept, -⟩ := exists_uniqueHits hhit
    rw [h] at hkept
    cases hkept
  · rintro rfl
    rfl

theorem clear_sanctions_iff :
    (screenSanctions sha256Hex name res = [] → saysClear .sanctions res = true) ↔
      hasDecision .sanctions res = true := by
  unfold screenSanctions saysClear hasDecision isBoolean isEmptyArray
  dsimp only
  cases array? (get "hits" res) with
  | none => cases isBool false (get "clear" res) <;> simp
  | some hits =>
    cases hits with
    | nil | cons => simp

theorem clear_pep_iff :
    (screenPep sha256Hex name res = [] → saysClear .pep res = true) ↔
      hasDecision .pep res = true := by
  unfold screenPep
  rw [uniqueHits_eq_nil_iff]
  unfold pepHits saysClear hasDecision isBoolean isEmptyArray
  dsimp only
  cases array? (get "hits" res) with
  | some hits =>
    cases hits with
    | nil | cons => simp
  | none =>
    cases array? (get "matches" res) with
    | some hits =>
      cases hits with
      | nil | cons => simp
    | none => cases isBool true (get "isPEP" res) <;> simp

theorem clear_watchlist_iff :
    (screenWatchlist sha256Hex name res = [] → saysClear .watchlist res = true) ↔
      hasDecision .watchlist res = true := by
  unfold screenWatchlist saysClear hasDecision isBoolean
  dsimp only
  cases isBool true (get "hit" res) with
  | true => simp
  | false => cases isBool true ((get "data" res).bind (get "hit")) <;> simp

theorem clear_screenOne_iff (kind : MonitoringListKind) {name : String} {res : Value} :
    (screenOne sha256Hex kind name res = [] → saysClear kind res = true) ↔
      hasDecision kind res = true := by
  cases kind with
  | sanctions => exact clear_sanctions_iff
  | pep => exact clear_pep_iff
  | watchlist => exact clear_watchlist_iff

/-- The name is long enough and every provider answers. -/
def Complete (s : Screening) : Prop :=
  2 ≤ Pii.jsLength (Pii.jsTrim s.subjectName.toList) ∧
    ∀ kind ∈ s.listSet, (s.answer kind).isSome = true

theorem screenLists_isOk {answer : MonitoringListKind → Option Value} {name : String}
    {kinds : List MonitoringListKind} :
    (∃ hits, screenLists sha256Hex answer name kinds = .ok hits) ↔
      ∀ kind ∈ kinds, (answer kind).isSome = true := by
  induction kinds with
  | nil => simp [screenLists]
  | cons kind rest ih =>
    rw [List.forall_mem_cons, ← ih]
    simp only [screenLists]
    cases answer kind with
    | none => simp
    | some res =>
      simp only [isSome_some, true_and]
      constructor
      · rintro ⟨hits, h⟩
        obtain ⟨others, hothers, -⟩ := except_bind_ok h
        exact ⟨others, hothers⟩
      · rintro ⟨others, hothers⟩
        refine ⟨screenOne sha256Hex kind name res ++ others, ?_⟩
        rw [hothers]
        rfl

theorem runSubjectScreening_isOk {s : Screening} :
    (∃ snapshot, runSubjectScreening sha256Hex s = .ok snapshot) ↔ Complete s := by
  have hlists := @screenLists_isOk sha256Hex s.answer s.name s.listSet.eraseDups
  simp only [List.mem_eraseDups] at hlists
  unfold Complete
  rw [← hlists]
  unfold runSubjectScreening sanitizeName
  by_cases hshort : Pii.jsLength (Pii.jsTrim s.subjectName.toList) < 2
  · simp only [hshort, if_true]
    constructor
    · rintro ⟨snapshot, h⟩
      cases h
    · rintro ⟨hlong, -⟩
      omega
  · simp only [hshort, if_false]
    constructor
    · rintro ⟨snapshot, h⟩
      obtain ⟨name, hname, h⟩ := except_bind_ok h
      cases hname
      obtain ⟨hits, hhits, -⟩ := except_bind_ok h
      exact ⟨Nat.le_of_not_lt hshort, hits, hhits⟩
    · rintro ⟨-, hits, hhits⟩
      refine ⟨⟨s.name, s.screenedAt, hits.mergeSort fun a b => a.id ≤ b.id⟩, ?_⟩
      change (screenLists sha256Hex s.answer s.name s.listSet.eraseDups).bind _ = _
      rw [hhits]
      rfl

theorem clear_subject_iff {s : Screening} {kind : MonitoringListKind} :
    ((∃ snapshot, runSubjectScreening sha256Hex s = .ok snapshot ∧ kind ∈ s.listSet ∧
        ∀ hit ∈ snapshot.hits, hit.list ≠ kind) →
      ∃ res, s.answer kind = some res ∧ saysClear kind res = true) ↔
      (Complete s → kind ∈ s.listSet →
        ∃ res, s.answer kind = some res ∧ hasDecision kind res = true) := by
  have hclear : ∀ {snapshot res}, runSubjectScreening sha256Hex s = .ok snapshot →
      kind ∈ s.listSet → s.answer kind = some res →
      ((∀ hit ∈ snapshot.hits, hit.list ≠ kind) ↔ screenOne sha256Hex kind s.name res = []) := by
    intro snapshot res hrun hkind hanswer
    have hfound : s.found sha256Hex kind = screenOne sha256Hex kind s.name res := by
      unfold Screening.found
      rw [hanswer]
      rfl
    rw [← hfound, List.eq_nil_iff_forall_not_mem]
    constructor
    · intro hnone hit hhit
      have hlist : hit.list = kind := (proper_listed (listed_of_found hhit)).list
      exact hnone hit ((mem_hits hrun).mpr ⟨hlist ▸ hkind, hlist ▸ hhit⟩) hlist
    · rintro hnone hit hhit rfl
      exact hnone hit ((mem_hits hrun).mp hhit).2
  constructor
  · intro h hcomplete hkind
    obtain ⟨snapshot, hrun⟩ := runSubjectScreening_isOk.mpr hcomplete
    obtain ⟨res, hanswer⟩ := isSome_iff_exists.mp (hcomplete.2 kind hkind)
    refine ⟨res, hanswer, (@clear_screenOne_iff sha256Hex kind s.name res).mp ?_⟩
    intro hnil
    obtain ⟨res', hanswer', hsays⟩ :=
      h ⟨snapshot, hrun, hkind, (hclear hrun hkind hanswer).mpr hnil⟩
    obtain rfl := some.inj (hanswer.symm.trans hanswer')
    exact hsays
  · rintro h ⟨snapshot, hrun, hkind, hnone⟩
    obtain ⟨res, hanswer, hdecision⟩ := h (runSubjectScreening_isOk.mp ⟨snapshot, hrun⟩) hkind
    refine ⟨res, hanswer, (@clear_screenOne_iff sha256Hex kind s.name res).mpr hdecision ?_⟩
    exact (hclear hrun hkind hanswer).mp hnone

/-! ### All checks -/

/-- A provider's answer, and the function that makes something of it. -/
inductive Check where
  | screen (kind : MonitoringListKind) (subjectName : String) (res : Value)
  | subject (s : Screening) (kind : MonitoringListKind)
  | ownNIN (now : String) (reply : Reply)
  | youverifyNIN (cfg : Config) (nin now : String) (reply : Reply)
  | lookupNIN (cfg : Config) (nin now : String) (replies : Replies)
  | ownSanctions (now : String) (reply : Reply)
  | youverifySanctions (cfg : Config) (name now : String) (reply : Reply)
  | checkSanctions (cfg : Config) (name now : String) (replies : Replies)

/-- The own provider is asked, and its answer is one. -/
def usesOwnNIN (cfg : Config) (replies : Replies) : Bool :=
  cfg.hasNIMC && (replies.own.json.bind decodeNIN).isSome

def usesOwnSanctions (cfg : Config) (replies : Replies) : Bool :=
  cfg.hasOFAC && (replies.own.json.bind decodeSanctions).isSome

namespace Check

/-- The subject is reported clear, or the identity verified. -/
def Favourable (sha256Hex : String → String) : Check → Prop
  | screen kind subjectName res => screenOne sha256Hex kind subjectName res = []
  | subject s kind => ∃ snapshot, runSubjectScreening sha256Hex s = .ok snapshot ∧
      kind ∈ s.listSet ∧ ∀ hit ∈ snapshot.hits, hit.list ≠ kind
  | ownNIN now reply => ∃ r, Verify.ownNIN now reply = some r ∧ r.status = "VERIFIED"
  | youverifyNIN cfg nin now reply =>
    ∃ r, Verify.youverifyNIN cfg nin now reply = some r ∧ r.status = "VERIFIED"
  | lookupNIN cfg nin now replies => (Verify.lookupNIN cfg nin now replies).status = "VERIFIED"
  | ownSanctions now reply => ∃ r, Verify.ownSanctions now reply = some r ∧ r.clear = true
  | youverifySanctions cfg name now reply =>
    ∃ r, Verify.youverifySanctions cfg name now reply = some r ∧ r.clear = true
  | checkSanctions cfg name now replies =>
    (Verify.checkSanctions cfg name now replies).clear = true

/-- The answer has that decision, or the hits or the data that go with it. -/
def Explicit : Check → Prop
  | screen kind _ res => saysClear kind res = true
  | subject s kind => ∃ res, s.answer kind = some res ∧ saysClear kind res = true
  | ownNIN _ reply => ∃ body, reply.json = some body ∧ saysVerified body = true
  | youverifyNIN _ _ _ reply => ∃ body, reply.json = some body ∧ hasIdentity body = true
  | lookupNIN cfg _ _ replies =>
    if usesOwnNIN cfg replies then ∃ body, replies.own.json = some body ∧ saysVerified body = true
    else ∃ body, replies.youverify.json = some body ∧ hasIdentity body = true
  | ownSanctions _ reply => ∃ body, reply.json = some body ∧ saysNoSanctions body = true
  | youverifySanctions _ _ _ reply => ∃ body, reply.json = some body ∧ hasHits body = true
  | checkSanctions cfg _ _ replies =>
    if usesOwnSanctions cfg replies then
      ∃ body, replies.own.json = some body ∧ saysNoSanctions body = true
    else ∃ body, replies.youverify.json = some body ∧ hasHits body = true

/-- An answer that is taken up has a decision, where the function does not ask for one. -/
def Decided : Check → Prop
  | screen kind _ res => hasDecision kind res = true
  | subject s kind => Complete s → kind ∈ s.listSet →
      ∃ res, s.answer kind = some res ∧ hasDecision kind res = true
  | ownNIN _ _ | ownSanctions _ _ => True
  | youverifyNIN cfg _ _ reply =>
    ∀ body ∈ youverifyPost cfg reply, (decodeYouverifyNIN body).isSome = true →
      hasIdentity body = true
  | lookupNIN cfg _ _ replies =>
    usesOwnNIN cfg replies = false →
      ∀ body ∈ youverifyPost cfg replies.youverify, (decodeYouverifyNIN body).isSome = true →
        hasIdentity body = true
  | youverifySanctions cfg _ _ reply =>
    ∀ body ∈ youverifyPost cfg reply, (decodeYouverifySanctions body).isSome = true →
      hasHits body = true
  | checkSanctions cfg _ _ replies =>
    usesOwnSanctions cfg replies = false →
      ∀ body ∈ youverifyPost cfg replies.youverify,
        (decodeYouverifySanctions body).isSome = true → hasHits body = true

end Check

theorem json_of_youverifyPost {body : Value} (h : youverifyPost cfg reply = some body) :
    reply.json = some body := by
  unfold youverifyPost at h
  split at h
  · cases h
  · exact h

/-- Youverify's answer is taken for verified whenever it can be decoded. -/
theorem youverifyNIN_iff {nin : String} :
    ((∃ r, youverifyNIN cfg nin now reply = some r ∧ r.status = "VERIFIED") →
      ∃ body, reply.json = some body ∧ hasIdentity body = true) ↔
      ∀ body ∈ youverifyPost cfg reply, (decodeYouverifyNIN body).isSome = true →
        hasIdentity body = true := by
  unfold youverifyNIN
  constructor
  · intro h body hbody hdecodes
    obtain ⟨resp, hresp⟩ := isSome_iff_exists.mp hdecodes
    obtain ⟨body', hbody', hidentity⟩ := h ⟨_, by rw [hbody, bind_some, hresp]; rfl, rfl⟩
    obtain rfl := some.inj ((json_of_youverifyPost hbody).symm.trans hbody')
    exact hidentity
  · rintro h ⟨r, hr, -⟩
    obtain ⟨resp, hresp, -⟩ := map_eq_some_iff.mp hr
    obtain ⟨body, hbody, hdecode⟩ := bind_eq_some_iff.mp hresp
    exact ⟨body, json_of_youverifyPost hbody, h body hbody (isSome_of_eq_some hdecode)⟩

/-- Youverify's answer is taken for clear whenever it can be decoded and has no hits. -/
theorem youverifySanctions_iff :
    ((∃ r, youverifySanctions cfg name now reply = some r ∧ r.clear = true) →
      ∃ body, reply.json = some body ∧ hasHits body = true) ↔
      ∀ body ∈ youverifyPost cfg reply, (decodeYouverifySanctions body).isSome = true →
        hasHits body = true := by
  unfold youverifySanctions
  constructor
  · intro h body hbody hdecodes
    obtain ⟨hits, hhits⟩ := isSome_iff_exists.mp hdecodes
    cases hlisted : hits with
    | some listed => exact hasHits_of_decode hhits (by rw [hlisted]; rfl)
    | none =>
      rw [hlisted] at hhits
      obtain ⟨body', hbody', hfound⟩ :=
        h ⟨_, by rw [hbody, bind_some, hhits]; rfl, rfl⟩
      obtain rfl := some.inj ((json_of_youverifyPost hbody).symm.trans hbody')
      exact hfound
  · rintro h ⟨r, hr, -⟩
    obtain ⟨hits, hhits, -⟩ := map_eq_some_iff.mp hr
    obtain ⟨body, hbody, hdecode⟩ := bind_eq_some_iff.mp hhits
    exact ⟨body, json_of_youverifyPost hbody, h body hbody (isSome_of_eq_some hdecode)⟩

theorem ownNIN_explicit (h : ∃ r, ownNIN now reply = some r ∧ r.status = "VERIFIED") :
    ∃ body, reply.json = some body ∧ saysVerified body = true := by
  obtain ⟨r, hr, hstatus⟩ := h
  obtain ⟨decoded, hdecoded, rfl⟩ := map_eq_some_iff.mp hr
  obtain ⟨body, hbody, hdecode⟩ := bind_eq_some_iff.mp hdecoded
  exact ⟨body, hbody, saysVerified_of_decodeNIN hdecode hstatus⟩

theorem ownSanctions_explicit (h : ∃ r, ownSanctions now reply = some r ∧ r.clear = true) :
    ∃ body, reply.json = some body ∧ saysNoSanctions body = true := by
  obtain ⟨r, hr, hclear⟩ := h
  obtain ⟨decoded, hdecoded, rfl⟩ := map_eq_some_iff.mp hr
  obtain ⟨body, hbody, hdecode⟩ := bind_eq_some_iff.mp hdecoded
  exact ⟨body, hbody, saysNoSanctions_of_decodeSanctions hdecode hclear⟩

/-! ### The chains -/

theorem unanswered {α β : Type} {configured : Bool} {decoded : Option α} {f : α → β}
    (h : (configured && decoded.isSome) = false) :
    (if configured then decoded.map f else none) = none := by
  cases configured with
  | false => rfl
  | true =>
    rw [Bool.true_and, Option.isSome_eq_false_iff, isNone_iff_eq_none] at h
    rw [h]
    rfl

theorem lookupNIN_of_own {cfg : Config} {nin : String} {replies : Replies}
    (h : usesOwnNIN cfg replies = true) :
    ∃ r, ownNIN now replies.own = some r ∧ lookupNIN cfg nin now replies = r := by
  obtain ⟨hconfigured, hdecodes⟩ := Bool.and_eq_true_iff.mp h
  obtain ⟨r, hr⟩ := isSome_iff_exists.mp hdecodes
  have hown : ownNIN now replies.own =
      some { r with source := "own", sandbox := false, checkedAt := now } := by
    unfold ownNIN
    rw [hr]
    rfl
  refine ⟨_, hown, ?_⟩
  unfold lookupNIN
  rw [if_pos hconfigured, hown]

theorem lookupNIN_of_youverify {nin : String} {replies : Replies}
    (h : usesOwnNIN cfg replies = false) :
    (lookupNIN cfg nin now replies).status = "VERIFIED" ↔
      ∃ r, youverifyNIN cfg nin now replies.youverify = some r ∧ r.status = "VERIFIED" := by
  have hnone : (if cfg.hasNIMC then ownNIN now replies.own else none) = none := unanswered h
  unfold lookupNIN
  rw [hnone]
  dsimp only
  cases youverifyNIN cfg nin now replies.youverify with
  | none => simp
  | some r => simp

theorem checkSanctions_of_own {cfg : Config} {name : String} {replies : Replies}
    (h : usesOwnSanctions cfg replies = true) :
    ∃ r, ownSanctions now replies.own = some r ∧ checkSanctions cfg name now replies = r := by
  obtain ⟨hconfigured, hdecodes⟩ := Bool.and_eq_true_iff.mp h
  obtain ⟨r, hr⟩ := isSome_iff_exists.mp hdecodes
  have hown : ownSanctions now replies.own =
      some { r with source := "own", sandbox := false, checkedAt := now } := by
    unfold ownSanctions
    rw [hr]
    rfl
  refine ⟨_, hown, ?_⟩
  unfold checkSanctions
  rw [if_pos hconfigured, hown]

theorem checkSanctions_of_youverify {replies : Replies} (h : usesOwnSanctions cfg replies = false) :
    (checkSanctions cfg name now replies).clear = true ↔
      ∃ r, youverifySanctions cfg name now replies.youverify = some r ∧ r.clear = true := by
  have hnone : (if cfg.hasOFAC then ownSanctions now replies.own else none) = none := unanswered h
  unfold checkSanctions
  rw [hnone]
  dsimp only
  cases youverifySanctions cfg name now replies.youverify with
  | none => simp
  | some r => simp

/-- A subject is reported clear, or an identity verified, only on an answer that says so,
exactly where the answer that is taken up has a decision. -/
theorem favourable_explicit_iff (sha256Hex : String → String) (check : Check) :
    (check.Favourable sha256Hex → check.Explicit) ↔ check.Decided := by
  cases check with
  | screen kind subjectName res => exact clear_screenOne_iff kind
  | subject s kind => exact clear_subject_iff
  | ownNIN now reply => exact iff_true_intro ownNIN_explicit
  | youverifyNIN cfg nin now reply => exact youverifyNIN_iff
  | lookupNIN cfg nin now replies =>
    simp only [Check.Favourable, Check.Explicit, Check.Decided]
    cases huses : usesOwnNIN cfg replies with
    | true =>
      obtain ⟨r, hown, heq⟩ := @lookupNIN_of_own now cfg nin replies huses
      rw [heq, if_pos rfl]
      exact iff_of_true (fun hstatus => ownNIN_explicit ⟨r, hown, hstatus⟩) nofun
    | false =>
      rw [lookupNIN_of_youverify huses, if_neg Bool.false_ne_true, youverifyNIN_iff]
      exact ⟨fun h _ => h, fun h => h rfl⟩
  | ownSanctions now reply => exact iff_true_intro ownSanctions_explicit
  | youverifySanctions cfg name now reply => exact youverifySanctions_iff
  | checkSanctions cfg name now replies =>
    simp only [Check.Favourable, Check.Explicit, Check.Decided]
    cases huses : usesOwnSanctions cfg replies with
    | true =>
      obtain ⟨r, hown, heq⟩ := @checkSanctions_of_own now cfg name replies huses
      rw [heq, if_pos rfl]
      exact iff_of_true (fun hclear => ownSanctions_explicit ⟨r, hown, hclear⟩) nofun
    | false =>
      rw [checkSanctions_of_youverify huses, if_neg Bool.false_ne_true, youverifySanctions_iff]
      exact ⟨fun h _ => h, fun h => h rfl⟩

/-- The empty object, with status 200, for a sanctions search of the gateway by Youverify. -/
def emptyAnswer : Check :=
  .checkSanctions ⟨"", "", "", "", "key"⟩ "JOHN DOE" "2026-01-01T00:00:00Z"
    ⟨.unreachable, .answered 200 (some (.object []))⟩

theorem emptyAnswer_clear : ¬ ∀ (sha256Hex : String → String) (check : Check),
    check.Favourable sha256Hex → check.Explicit := by
  intro hall
  have hclear : emptyAnswer.Favourable id := by
    change (checkSanctions _ _ _ _).clear = true
    decide
  obtain ⟨body, hbody, hhits⟩ :
      ∃ body, (Reply.answered 200 (some (.object []))).json = some body ∧ hasHits body = true :=
    hall id emptyAnswer hclear
  cases hbody
  cases hhits

end Bis.Verify
