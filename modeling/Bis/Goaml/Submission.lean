import Bis.Goaml.Filing

/-!
When the calls keep what they promise. A filing in review belongs to one call at
most, and nothing else changes it; the two ways to break the promise are a response
that refuses without an error, and an edit of a draft that was sent before.
-/

namespace Bis.Goaml

open Bis.Relation Bis.Transition List Option

variable {s t : System}

/-! ### What is promised -/

/-- The answer that a call has got for a filing. -/
def Stage.answer : Stage → Option (Nat × NfiuResponse)
  | .answered filing (some response) _ => some (filing.id, response)
  | _ => none

def Label.call : Label → Option Nat
  | .act call _ => some call
  | _ => none

/-- A filing only becomes submitted by a call whose answer accepts it. -/
def SubmitsAccepted (s : System) (a : Label) (t : System) : Prop :=
  ∀ row ∈ t.filings, row.status = .submitted →
    (∃ old ∈ s.filings, old.id = row.id ∧ old.status = .submitted) ∨
      ∃ call ∈ s.calls, a.call = some call.id ∧
        ∃ response, call.stage.answer = some (row.id, response) ∧ response.accepts = true

/-- One key, one document. -/
def OneDocument (s : System) : Prop :=
  ∀ a ∈ s.sendings, ∀ b ∈ s.sendings, a.idempotencyKey = b.idempotencyKey →
    a.xmlPayload = b.xmlPayload

/-! ### When it is kept -/

/-- What is sent under the reference from now on is what was sent before. -/
def SameDocument (s : System) (filingRef document : String) : Prop :=
  ∀ d ∈ s.sendings, d.idempotencyKey = filingRef → d.xmlPayload = document

instance (s : System) (filingRef document : String) :
    Decidable (SameDocument s filingRef document) :=
  inferInstanceAs (Decidable (∀ d ∈ s.sendings, _))

/-- A response that accepts, or says why it does not. -/
def NfiuResponse.explained : NfiuResponse → Bool
  | .ok body => body.accepted || body.errors != some []
  | .notOk _ _ | .networkError _ => true

/-- No response refuses with an empty list of errors, and whatever writes the document
of a filing whose reference was sent before writes the one that was sent. -/
def KeepsDocuments (s : System) : Label → Prop
  | .create _ filingRef report now =>
    SameDocument s filingRef (generateGoamlXml filingRef report now)
  | .act id (.write now) =>
    ∀ call ∈ s.calls, call.id = id →
      match call.stage with
      | .editing existing updates =>
        ∀ row ∈ s.filings, row.isDraft call.tenantId existing.id = true →
          SameDocument s row.filingRef
            (generateGoamlXml existing.filingRef (updates.apply existing.report) now)
      | _ => True
  | .act _ (.answer response) => response.explained = true
  | _ => True

instance (s : System) : DecidablePred (KeepsDocuments s) := by
  intro a
  cases a with
  | create => exact inferInstanceAs (Decidable (SameDocument _ _ _))
  | act id action =>
    cases action with
    | write now =>
      have hstage (call : Call) : Decidable
          (match call.stage with
          | .editing existing updates =>
            ∀ row ∈ s.filings, row.isDraft call.tenantId existing.id = true →
              SameDocument s row.filingRef
                (generateGoamlXml existing.filingRef (updates.apply existing.report) now)
          | _ => True) := by
        split <;> infer_instance
      exact inferInstanceAs (Decidable (∀ call ∈ s.calls, call.id = id → _))
    | answer response => exact inferInstanceAs (Decidable (_ = _))
    | select | claim | send | finish | databaseError | crash => exact .isTrue trivial
  | update | submit | bulkSubmit | delete => exact .isTrue trivial

/-! ### Responses -/

theorem refused_of_explained {response : Option NfiuResponse}
    (hexplained : ∀ r, response = some r → r.explained = true)
    (hnot : ∀ r, response = some r → r.accepts = false) : (submitToNfiu response).refused = true := by
  cases response with
  | none => rfl
  | some response =>
    have hsays := hexplained response rfl
    have hrefuses := hnot response rfl
    cases response with
    | notOk | networkError => rfl
    | ok body =>
      change body.accepted = false at hrefuses
      simp only [NfiuResponse.explained, hrefuses, Bool.false_or, bne_iff_ne] at hsays
      simp only [submitToNfiu, NfiuResult.refused, hrefuses, Bool.not_false, Bool.true_and,
        decide_eq_true_eq]
      cases herrors : body.errors with
      | none => simp
      | some errors =>
        cases errors with
        | nil => exact absurd herrors hsays
        | cons first rest => simp

/-! ### What a call does -/

/-- The filing that a call has claimed. -/
def Stage.held : Stage → Option Filing
  | .claimed filing _ | .sent filing _ | .answered filing _ _ => some filing
  | .editing _ _ | .next _ | .selected _ _ _ | .done => none

/-- The step of a call, by what it does to the rows and to the documents that are sent. -/
inductive Turn (s : System) (call : Call) : Action → System → Prop
  /-- Nothing is written, and no filing is claimed. -/
  | idle (action : Action) (call' : Call)
      (hidle : call'.id = call.id ∧ call'.stage.held = none) :
      Turn s call action (s.goOn call' s.filings)
  | write (call' : Call) (existing : Filing) (updates : Updates) (now : String)
      (hidle : call'.id = call.id ∧ call'.stage.held = none)
      (hstage : call.stage = .editing existing updates) :
      Turn s call (.write now)
        (s.goOn call' (writeUpdate call.tenantId existing updates now s.filings))
  | claimLost (action : Action) (call' : Call) (id : Nat)
      (hidle : call'.id = call.id ∧ call'.stage.held = none) :
      Turn s call action (s.goOn call' (claim call.tenantId id s.filings))
  | claim (row : Filing) (rest : List Nat) (hrow : row ∈ s.filings)
      (hdraft : row.isDraft call.tenantId row.id = true) :
      Turn s call .claim
        (s.goOn { call with stage := .claimed { row with status := .pendingReview } rest }
          (claim call.tenantId row.id s.filings))
  | send (filing : Filing) (rest : List Nat) (hstage : call.stage = .claimed filing rest) :
      Turn s call .send
        { s.goOn { call with stage := .sent filing rest } s.filings with
          sendings := s.sendings ++ [⟨filing.filingRef, filing.document⟩] }
  | answer (action : Action) (filing : Filing) (response : Option NfiuResponse) (rest : List Nat)
      (hheld : call.stage.held = some filing)
      (hresponse : ∀ r, response = some r → action = .answer r) :
      Turn s call action
        (s.goOn { call with stage := .answered filing response rest } s.filings)
  | finish (action : Action) (call' : Call) (filing : Filing) (response : Option NfiuResponse)
      (rest : List Nat) (hidle : call'.id = call.id ∧ call'.stage.held = none)
      (hstage : call.stage = .answered filing response rest) :
      Turn s call action
        (s.goOn call' (finish call.tenantId filing.id (submitToNfiu response) s.filings))

theorem goOn_idle (call : Call) (rest : List Nat) (result : BulkResult) :
    (call.goOn rest result).id = call.id ∧ (call.goOn rest result).stage.held = none := by
  unfold Call.goOn
  split <;> exact ⟨rfl, rfl⟩

theorem finished_idle (call : Call) (filing : Filing) (rest : List Nat) (result : NfiuResult) :
    (call.finished filing rest result).id = call.id ∧
      (call.finished filing rest result).stage.held = none := by
  unfold Call.finished
  split <;> exact goOn_idle call rest _

theorem select_idle (call : Call) (id : Nat) (rest : List Nat) :
    (s.select call id rest).id = call.id ∧ (s.select call id rest).stage.held = none := by
  unfold System.select
  split
  · exact goOn_idle call rest _
  · split
    · exact goOn_idle call rest _
    · exact ⟨rfl, rfl⟩

variable {id : Nat} {action : Action}

theorem turn_of_act (h : s.act id action = some t) :
    ∃ call, lookup Call.id id s.calls = some call ∧ Turn s call action t := by
  unfold System.act at h
  obtain ⟨call, hcall, h⟩ := bind_eq_some_iff.mp h
  refine ⟨call, hcall, ?_⟩
  have hdone : ({ call with stage := .done } : Call).id = call.id ∧
      ({ call with stage := .done } : Call).stage.held = none := ⟨rfl, rfl⟩
  cases hstage : call.stage with
  | editing existing updates =>
    rw [hstage] at h
    cases action with
    | write now =>
      cases h
      exact .write _ existing updates now hdone hstage
    | crash =>
      cases h
      exact .idle _ _ hdone
    | select | claim | send | answer | finish | databaseError => simp at h
  | next filings =>
    rw [hstage] at h
    cases action with
    | select =>
      cases filings with
      | nil => simp at h
      | cons filing rest =>
        cases h
        exact .idle _ _ (select_idle call filing rest)
    | databaseError =>
      cases filings with
      | nil => simp at h
      | cons filing rest =>
        cases h
        exact .idle _ _ (goOn_idle call rest _)
    | crash =>
      have ht : s.goOn { call with stage := .done } s.filings = t := by
        cases filings <;> exact some.inj h
      exact ht ▸ .idle _ _ hdone
    | write | claim | send | answer | finish => simp at h
  | selected filing filingRef rest =>
    rw [hstage] at h
    cases action with
    | claim =>
      simp only at h
      split at h
      next =>
        cases h
        exact .idle _ _ (goOn_idle call rest _)
      next row hfind =>
        cases h
        have hdraft := find?_some hfind
        have hid : row.id = filing := by
          simp only [Filing.isDraft, Bool.and_eq_true, beq_iff_eq] at hdraft
          exact hdraft.1
        subst hid
        exact .claim row rest (mem_of_find?_eq_some hfind) hdraft
    | databaseError written =>
      cases h
      cases written with
      | true => exact .claimLost _ _ filing (goOn_idle call rest _)
      | false => exact .idle _ _ (goOn_idle call rest _)
    | crash =>
      cases h
      exact .idle _ _ hdone
    | write | select | send | answer | finish => simp at h
  | claimed filing rest =>
    rw [hstage] at h
    cases action with
    | send =>
      simp only at h
      split at h
      next =>
        cases h
        exact .send filing rest hstage
      next =>
        cases h
        refine .answer _ filing none rest (by simp [hstage, Stage.held]) ?_
        intro r hr
        cases hr
    | crash =>
      cases h
      exact .idle _ _ hdone
    | write | select | claim | answer | finish | databaseError => simp at h
  | sent filing rest =>
    rw [hstage] at h
    cases action with
    | answer response =>
      cases h
      refine .answer _ filing (some response) rest (by simp [hstage, Stage.held]) ?_
      intro r hr
      rw [some.inj hr]
    | crash =>
      cases h
      exact .idle _ _ hdone
    | write | select | claim | send | finish | databaseError => simp at h
  | answered filing response rest =>
    rw [hstage] at h
    cases action with
    | finish =>
      cases h
      exact .finish _ _ filing response rest (finished_idle call filing rest _) hstage
    | databaseError written =>
      cases h
      cases written with
      | true => exact .finish _ _ filing response rest (goOn_idle call rest _) hstage
      | false => exact .idle _ _ (goOn_idle call rest _)
    | crash =>
      cases h
      exact .idle _ _ hdone
    | write | select | claim | send | answer => simp at h
  | done =>
    rw [hstage] at h
    cases action with
    | crash =>
      cases h
      exact .idle _ _ hdone
    | write | select | claim | send | answer | finish | databaseError => simp at h

/-! ### Rows -/

/-- Every document that was sent under the reference of a filing is the one in its row. -/
structure Rows (s : System) : Prop where
  ids : (s.filings.map Filing.id).Nodup
  below : ∀ row ∈ s.filings, row.id < s.nextId
  refs : (s.filings.map Filing.filingRef).Nodup
  documents : ∀ row ∈ s.filings, SameDocument s row.filingRef row.document
  one : OneDocument s

def KeepsDocument (row row' : Filing) : Prop :=
  row'.id = row.id ∧ row'.filingRef = row.filingRef ∧ row'.document = row.document

/-- The rows get other documents at most where these are the ones that were sent. -/
theorem Rows.revised (h : Rows s) (hnext : t.nextId = s.nextId) (hsendings : t.sendings = s.sendings)
    (hrows : Revised (fun row row' => row'.id = row.id ∧ row'.filingRef = row.filingRef ∧
      SameDocument s row.filingRef row'.document) s.filings t.filings) : Rows t := by
  have hids : t.filings.map Filing.id = s.filings.map Filing.id :=
    hrows.map_eq fun _ _ hkeeps => hkeeps.1
  have hrefs : t.filings.map Filing.filingRef = s.filings.map Filing.filingRef :=
    hrows.map_eq fun _ _ hkeeps => hkeeps.2.1
  refine ⟨hids ▸ h.ids, ?_, hrefs ▸ h.refs, ?_, ?_⟩
  · intro row' hrow'
    obtain ⟨row, hrow, hid, _⟩ := hrows.exists_before hrow'
    rw [hnext, hid]
    exact h.below row hrow
  · intro row' hrow'
    obtain ⟨row, hrow, _, href, hsame⟩ := hrows.exists_before hrow'
    unfold SameDocument
    rw [hsendings, href]
    exact hsame
  · unfold OneDocument
    rw [hsendings]
    exact h.one

theorem Rows.keeps (h : Rows s) (hnext : t.nextId = s.nextId) (hsendings : t.sendings = s.sendings)
    (hrows : Revised KeepsDocument s.filings t.filings) : Rows t := by
  refine h.revised hnext hsendings ?_
  obtain ⟨revise, ht, hkeeps⟩ := hrows
  refine ⟨revise, ht, ?_⟩
  intro row hrow
  obtain ⟨hid, href, hdocument⟩ := hkeeps row hrow
  exact ⟨hid, href, hdocument ▸ h.documents row hrow⟩

theorem claim_keeps (tenantId id : Nat) (filings : List Filing) :
    Revised KeepsDocument filings (claim tenantId id filings) :=
  revised_updateWhere (fun _ _ _ => ⟨rfl, rfl, rfl⟩) fun _ _ _ => ⟨rfl, rfl, rfl⟩

theorem finish_keeps (tenantId id : Nat) (result : NfiuResult) (filings : List Filing) :
    Revised KeepsDocument filings (finish tenantId id result filings) := by
  unfold finish
  split
  · exact revised_updateWhere (fun _ _ _ => ⟨rfl, rfl, rfl⟩) fun _ _ _ => ⟨rfl, rfl, rfl⟩
  · exact revised_updateWhere (fun _ _ _ => ⟨rfl, rfl, rfl⟩) fun _ _ _ => ⟨rfl, rfl, rfl⟩

theorem Rows.send (h : Rows s) {filing : Filing} (hfiling : filing ∈ s.filings)
    (hfilings : t.filings = s.filings) (hnext : t.nextId = s.nextId)
    (hsendings : t.sendings = s.sendings ++ [⟨filing.filingRef, filing.document⟩]) : Rows t := by
  refine ⟨hfilings ▸ h.ids, ?_, hfilings ▸ h.refs, ?_, ?_⟩
  · rw [hfilings, hnext]
    exact h.below
  · rw [hfilings]
    intro row hrow d hd hkey
    rw [hsendings] at hd
    rcases mem_concat.mp hd with hd | rfl
    · exact h.documents row hrow d hd hkey
    · obtain rfl : filing = row := inj_on_of_nodup_map h.refs hfiling hrow hkey
      rfl
  · intro a ha b hb hkey
    rw [hsendings] at ha hb
    rcases mem_concat.mp ha with ha | rfl
    · rcases mem_concat.mp hb with hb | rfl
      · exact h.one a ha b hb hkey
      · exact h.documents filing hfiling a ha hkey
    · rcases mem_concat.mp hb with hb | rfl
      · exact (h.documents filing hfiling b hb hkey.symm).symm
      · rfl

/-! ### Claims -/

/-- A claimed filing is in review, as the call has read it, and has no other call. -/
structure Claims (s : System) : Prop where
  callIds : (s.calls.map Call.id).Nodup
  held : ∀ call ∈ s.calls, ∀ filing, call.stage.held = some filing →
    filing ∈ s.filings ∧ filing.status = .pendingReview
  exclusive : ∀ p ∈ s.calls, ∀ q ∈ s.calls, ∀ f g, p.stage.held = some f →
    q.stage.held = some g → f.id = g.id → p.id = q.id
  explained : ∀ call ∈ s.calls, ∀ filing response rest,
    call.stage = .answered filing (some response) rest → response.explained = true

/-- What a call has to respect of the others. -/
def OthersKeep (s : System) (id : Nat) (filings : List Filing) : Prop :=
  ∀ other ∈ s.calls, other.id ≠ id → ∀ filing, other.stage.held = some filing → filing ∈ filings

theorem Claims.goOn (h : Claims s) {call : Call} {filings : List Filing}
    (hothers : OthersKeep s call.id filings)
    (hown : ∀ filing, call.stage.held = some filing →
      filing ∈ filings ∧ filing.status = .pendingReview ∧
        ∀ other ∈ s.calls, other.id ≠ call.id → ∀ g, other.stage.held = some g → g.id ≠ filing.id)
    (hexplained : ∀ filing response rest,
      call.stage = .answered filing (some response) rest → response.explained = true) :
    Claims (s.goOn call filings) where
  callIds := nodup_upsert h.callIds
  held := by
    intro p hp filing hheld
    rcases (mem_upsert_iff h.callIds).mp hp with rfl | ⟨hp, hne⟩
    · obtain ⟨hmem, hstatus, _⟩ := hown filing hheld
      exact ⟨hmem, hstatus⟩
    · exact ⟨hothers p hp hne filing hheld, (h.held p hp filing hheld).2⟩
  exclusive := by
    intro p hp q hq f g hf hg hid
    rcases (mem_upsert_iff h.callIds).mp hp with rfl | ⟨hpold, hpne⟩
    · rcases (mem_upsert_iff h.callIds).mp hq with rfl | ⟨hqold, hqne⟩
      · rfl
      · exact absurd hid.symm ((hown f hf).2.2 q hqold hqne g hg)
    · rcases (mem_upsert_iff h.callIds).mp hq with rfl | ⟨hqold, hqne⟩
      · exact absurd hid ((hown g hg).2.2 p hpold hpne f hf)
      · exact h.exclusive p hpold q hqold f g hf hg hid
  explained := by
    intro p hp filing response rest hstage
    rcases (mem_upsert_iff h.callIds).mp hp with rfl | ⟨hp, _⟩
    · exact hexplained filing response rest hstage
    · exact h.explained p hp filing response rest hstage

theorem Claims.idle (h : Claims s) {call call' : Call} {filings : List Filing}
    (hidle : call'.id = call.id ∧ call'.stage.held = none)
    (hothers : OthersKeep s call.id filings) : Claims (s.goOn call' filings) := by
  refine h.goOn (hidle.1 ▸ hothers) ?_ ?_
  · intro filing hheld
    rw [hidle.2] at hheld
    cases hheld
  · intro filing response rest hstage
    have hnone := hidle.2
    rw [hstage] at hnone
    cases hnone

/-- A row that is changed only as a draft is changed for no call. -/
theorem Claims.othersKeep_draft (h : Claims s) (id tenantId filing : Nat) (f : Filing → Filing) :
    OthersKeep s id (updateWhere (Filing.isDraft tenantId filing) f s.filings) := by
  intro other hother _ row hheld
  obtain ⟨hmem, hstatus⟩ := h.held other hother row hheld
  refine mem_updateWhere_of_not hmem ?_
  simp [Filing.isDraft, hstatus]

theorem Claims.othersKeep_finish (h : Claims s) {call : Call} (hcall : call ∈ s.calls)
    {filing : Filing} (hheld : call.stage.held = some filing) (tenantId : Nat)
    (result : NfiuResult) : OthersKeep s call.id (finish tenantId filing.id result s.filings) := by
  intro other hother hne row hrow
  obtain ⟨hmem, _⟩ := h.held other hother row hrow
  have hid : row.id ≠ filing.id := by
    intro hid
    exact hne (h.exclusive other hother call hcall row filing hrow hheld hid)
  unfold finish
  split
  · exact mem_updateWhere_of_not hmem (by simp [hid])
  · exact mem_updateWhere_of_not hmem (by simp [hid])

/-- The call itself goes on with the filing that it holds. -/
theorem Claims.own (h : Claims s) {call : Call} (hcall : call ∈ s.calls) {filing : Filing}
    (hheld : call.stage.held = some filing) :
    filing ∈ s.filings ∧ filing.status = .pendingReview ∧
      ∀ other ∈ s.calls, other.id ≠ call.id →
        ∀ g, other.stage.held = some g → g.id ≠ filing.id := by
  obtain ⟨hmem, hstatus⟩ := h.held call hcall filing hheld
  refine ⟨hmem, hstatus, ?_⟩
  intro other hother hne g hg hid
  exact hne (h.exclusive other hother call hcall g filing hg hheld hid)

structure Sound (s : System) : Prop where
  rows : Rows s
  claims : Claims s

/-! ### Steps -/

theorem Turn.rows {call : Call} (hrows : Rows s) (hclaims : Claims s) (hcall : call ∈ s.calls)
    (hid : call.id = id) (hkeeps : KeepsDocuments s (.act id action)) (hturn : Turn s call action
    t) : Rows t := by
  have hrefl : Revised KeepsDocument s.filings s.filings :=
    revised_refl fun _ _ => ⟨rfl, rfl, rfl⟩
  cases hturn with
  | idle | answer => exact hrows.keeps rfl rfl hrefl
  | write call' existing updates now hidle hstage =>
    have hsame := hkeeps call hcall hid
    rw [hstage] at hsame
    refine hrows.revised rfl rfl (revised_updateWhere ?_ ?_)
    · intro row hrow hdraft
      exact ⟨rfl, rfl, hsame row hrow hdraft⟩
    · intro row hrow _
      exact ⟨rfl, rfl, hrows.documents row hrow⟩
  | claimLost | claim => exact hrows.keeps rfl rfl (claim_keeps _ _ _)
  | send filing rest hstage =>
    have hheld : call.stage.held = some filing := by rw [hstage]; rfl
    exact hrows.send (hclaims.held call hcall filing hheld).1 rfl rfl rfl
  | finish => exact hrows.keeps rfl rfl (finish_keeps _ _ _ _)

theorem Turn.claims {call : Call} (hrows : Rows s) (hclaims : Claims s) (hcall : call ∈ s.calls)
    (hkeeps : KeepsDocuments s (.act id action)) (hturn : Turn s call action t) : Claims t := by
  have hsame : OthersKeep s call.id s.filings := fun other hother _ filing hheld =>
    (hclaims.held other hother filing hheld).1
  cases hturn with
  | idle action call' hidle => exact hclaims.idle hidle hsame
  | write call' existing updates now hidle hstage | claimLost action call' filing hidle =>
    exact hclaims.idle hidle (hclaims.othersKeep_draft _ _ _ _)
  | claim row rest hrow hdraft =>
    refine hclaims.goOn (hclaims.othersKeep_draft _ _ _ _) ?_ ?_
    · intro filing hheld
      cases hheld
      refine ⟨mem_updateWhere.mpr (.inl ⟨row, hrow, hdraft, rfl⟩), rfl, ?_⟩
      intro other hother _ g hg hid
      obtain ⟨hmem, hstatus⟩ := hclaims.held other hother g hg
      obtain rfl : g = row := inj_on_of_nodup_map hrows.ids hmem hrow hid
      simp [Filing.isDraft, hstatus] at hdraft
    · intro filing response rest hstage
      cases hstage
  | send filing rest hstage =>
    have hheld : call.stage.held = some filing := by rw [hstage]; rfl
    have hnext : Claims (s.goOn { call with stage := .sent filing rest } s.filings) := by
      refine hclaims.goOn hsame ?_ ?_
      · intro filing' hheld'
        cases hheld'
        exact hclaims.own hcall hheld
      · intro filing' response rest' hstage'
        cases hstage'
    exact ⟨hnext.callIds, hnext.held, hnext.exclusive, hnext.explained⟩
  | answer action filing response rest hheld hresponse =>
    refine hclaims.goOn hsame ?_ ?_
    · intro filing' hheld'
      cases hheld'
      exact hclaims.own hcall hheld
    · intro filing' response' rest' hstage'
      have hsome : response = some response' := (Stage.answered.inj hstage').2.1
      rw [hresponse response' hsome] at hkeeps
      exact hkeeps
  | finish action call' filing response rest hidle hstage =>
    have hheld : call.stage.held = some filing := by rw [hstage]; rfl
    exact hclaims.idle hidle (hclaims.othersKeep_finish hcall hheld _ _)

/-- A call makes a filing submitted by writing down an answer that accepts it. -/
theorem Turn.submits {call : Call} (hclaims : Claims s) (hcall : call ∈ s.calls)
    (hid : call.id = id) (hturn : Turn s call action t) : SubmitsAccepted s (.act id action) t := by
  intro row' hrow' hsubmitted
  have hold {tenantId filing : Nat} {f : Filing → Filing}
      (hf : ∀ row, row.status = .draft → (f row).status ≠ .submitted)
      (hmem : row' ∈ updateWhere (Filing.isDraft tenantId filing) f s.filings) :
      ∃ old ∈ s.filings, old.id = row'.id ∧ old.status = .submitted := by
    rcases mem_updateWhere.mp hmem with ⟨old, _, hdraft, rfl⟩ | ⟨hkept, _⟩
    · have hstatus : old.status = .draft := by
        simp only [Filing.isDraft, Bool.and_eq_true, beq_iff_eq] at hdraft
        exact hdraft.2.2
      exact absurd hsubmitted (hf old hstatus)
    · exact ⟨row', hkept, rfl, hsubmitted⟩
  cases hturn with
  | idle => exact .inl ⟨row', hrow', rfl, hsubmitted⟩
  | write =>
    refine .inl (hold ?_ hrow')
    intro row hdraft
    simp [hdraft]
  | claimLost | claim =>
    refine .inl (hold ?_ hrow')
    intro row _
    simp
  | send => exact .inl ⟨row', hrow', rfl, hsubmitted⟩
  | answer => exact .inl ⟨row', hrow', rfl, hsubmitted⟩
  | finish action call' filing response rest hidle hstage =>
    change row' ∈ Goaml.finish _ _ _ _ at hrow'
    unfold Goaml.finish at hrow'
    split at hrow'
    next =>
      rcases mem_updateWhere.mp hrow' with ⟨old, _, _, rfl⟩ | ⟨hkept, _⟩
      · cases hsubmitted
      · exact .inl ⟨row', hkept, rfl, hsubmitted⟩
    next hrefused =>
      rcases mem_updateWhere.mp hrow' with ⟨old, _, hmatch, rfl⟩ | ⟨hkept, _⟩
      · simp only [Bool.and_eq_true, beq_iff_eq] at hmatch
        refine .inr ⟨call, hcall, by rw [hid]; rfl, ?_⟩
        by_contra hnot
        refine hrefused (refused_of_explained ?_ ?_)
        · intro r hr
          exact hclaims.explained call hcall filing r rest (hr ▸ hstage)
        · intro r hr
          by_contra haccepts
          refine hnot ⟨r, ?_, by simpa using haccepts⟩
          rw [hstage, hr]
          exact congrArg (fun filing => some (filing, r)) hmatch.1.symm
      · exact .inl ⟨row', hkept, rfl, hsubmitted⟩

theorem system_call_ok {tenantId : Nat} {bulk : Bool} {stage : Stage}
    (h : s.call id tenantId bulk stage = some t) :
    (∀ call ∈ s.calls, call.id ≠ id) ∧
      t = { s with calls := s.calls ++ [⟨id, tenantId, bulk, stage, []⟩] } := by
  unfold System.call at h
  obtain ⟨hfresh, rfl⟩ := insert_eq_some.mp h
  exact ⟨fun call hcall => by simpa using hfresh call hcall, rfl⟩

theorem Sound.call (h : Sound s) {tenantId : Nat} {bulk : Bool} {stage : Stage}
    (hheld : stage.held = none) (ht : s.call id tenantId bulk stage = some t) :
    Sound t ∧ t.filings = s.filings := by
  obtain ⟨hfresh, rfl⟩ := system_call_ok ht
  obtain ⟨hrows, hclaims⟩ := h
  have hnot (p : Call) (hp : p ∈ s.calls ++ [⟨id, tenantId, bulk, stage, []⟩]) (filing : Filing)
      (hf : p.stage.held = some filing) : p ∈ s.calls := by
    rcases mem_concat.mp hp with hp | rfl
    · exact hp
    · rw [hheld] at hf
      cases hf
  refine ⟨⟨⟨hrows.ids, hrows.below, hrows.refs, hrows.documents, hrows.one⟩, ?_, ?_, ?_, ?_⟩, rfl⟩
  · rw [map_append]
    refine nodup_append_fresh hclaims.callIds ?_
    intro hold
    obtain ⟨p, hp, hid⟩ := mem_map.mp hold
    exact hfresh p hp hid
  · intro p hp filing hf
    exact hclaims.held p (hnot p hp filing hf) filing hf
  · intro p hp q hq f g hf hg
    exact hclaims.exclusive p (hnot p hp f hf) q (hnot q hq g hg) f g hf hg
  · intro p hp filing response rest hstage
    have hf : p.stage.held = some filing := by rw [hstage]; rfl
    exact hclaims.explained p (hnot p hp filing hf) filing response rest hstage

/-- A new filing has a reference under which its document only was sent. -/
theorem Sound.create (h : Sound s) {row : Filing} (hid : row.id = s.nextId)
    (hfresh : ∀ other ∈ s.filings, other.filingRef ≠ row.filingRef)
    (hsame : SameDocument s row.filingRef row.document) :
    Sound { s with nextId := s.nextId + 1, filings := s.filings ++ [row] } := by
  obtain ⟨hrows, hclaims⟩ := h
  refine ⟨⟨?_, ?_, ?_, ?_, hrows.one⟩, hclaims.callIds, ?_, hclaims.exclusive, hclaims.explained⟩
  · rw [map_append]
    refine nodup_append_fresh hrows.ids ?_
    intro hold
    obtain ⟨other, hother, hsameId⟩ := mem_map.mp hold
    have hlt := hrows.below other hother
    omega
  · intro other hother
    rcases mem_concat.mp hother with hother | rfl
    · exact Nat.lt_succ_of_lt (hrows.below other hother)
    · rw [hid]
      exact Nat.lt_succ_self _
  · rw [map_append]
    refine nodup_append_fresh hrows.refs ?_
    intro hold
    obtain ⟨other, hother, href⟩ := mem_map.mp hold
    exact hfresh other hother href
  · intro other hother
    rcases mem_concat.mp hother with hother | rfl
    · exact hrows.documents other hother
    · exact hsame
  · intro call hcall filing hheld
    obtain ⟨hmem, hstatus⟩ := hclaims.held call hcall filing hheld
    exact ⟨mem_append_left _ hmem, hstatus⟩

theorem Sound.delete (h : Sound s) (tenantId id : Nat) :
    Sound { s with filings := s.filings.filter fun row => !row.isDraft tenantId id } := by
  obtain ⟨hrows, hclaims⟩ := h
  have hsub := filter_sublist (p := fun row => !row.isDraft tenantId id) (l := s.filings)
  refine ⟨⟨hrows.ids.sublist (hsub.map _), ?_, hrows.refs.sublist (hsub.map _), ?_, hrows.one⟩,
    hclaims.callIds, ?_, hclaims.exclusive, hclaims.explained⟩
  · exact fun row hrow => hrows.below row (hsub.subset hrow)
  · exact fun row hrow => hrows.documents row (hsub.subset hrow)
  · intro call hcall filing hheld
    obtain ⟨hmem, hstatus⟩ := hclaims.held call hcall filing hheld
    exact ⟨mem_filter.mpr ⟨hmem, by simp [Filing.isDraft, hstatus]⟩, hstatus⟩

theorem Sound.step {label : Label} (h : Sound s) (hkeeps : KeepsDocuments s label)
    (ht : s.step label = some t) : Sound t ∧ SubmitsAccepted s label t := by
  have hsame (hfilings : t.filings = s.filings) : SubmitsAccepted s label t := by
    intro row hrow hsubmitted
    exact .inl ⟨row, hfilings ▸ hrow, rfl, hsubmitted⟩
  cases label with
  | create tenantId filingRef report now =>
    obtain ⟨hfresh, rfl⟩ := insert_eq_some.mp ht
    refine ⟨h.create rfl ?_ hkeeps, ?_⟩
    · exact fun other hother => by simpa using hfresh other hother
    · intro row hrow hsubmitted
      rcases mem_concat.mp hrow with hrow | rfl
      · exact .inl ⟨row, hrow, rfl, hsubmitted⟩
      · cases hsubmitted
  | update call tenantId id updates =>
    simp only [System.step] at ht
    split at ht
    next => cases ht
    next existing _ =>
      obtain ⟨hsound, hfilings⟩ := h.call rfl ht
      exact ⟨hsound, hsame hfilings⟩
  | submit | bulkSubmit =>
    simp only [System.step] at ht
    obtain ⟨hsound, hfilings⟩ := h.call rfl ht
    exact ⟨hsound, hsame hfilings⟩
  | delete tenantId id =>
    cases ht
    refine ⟨h.delete tenantId id, ?_⟩
    intro row hrow hsubmitted
    exact .inl ⟨row, (mem_filter.mp hrow).1, rfl, hsubmitted⟩
  | act id action =>
    obtain ⟨call, hlookup, hturn⟩ := turn_of_act ht
    obtain ⟨hcall, hid⟩ := (lookup_eq_some_iff h.claims.callIds).mp hlookup
    exact ⟨⟨hturn.rows h.rows h.claims hcall hid hkeeps, hturn.claims h.rows h.claims hcall hkeeps⟩,
      hturn.submits h.claims hcall hid⟩

theorem sound_empty (configured : Bool) : Sound (.empty configured) := by
  refine ⟨⟨nodup_nil, ?_, nodup_nil, ?_, ?_⟩, nodup_nil, ?_, ?_, ?_⟩
  all_goals
    intro row hrow
    cases hrow

/-! ### Runs -/

/-- In a run in which no response refuses without an error, and nothing gives a filing
that was sent another document, what is submitted is accepted, and a key has one document. -/
theorem submissions_kept (configured : Bool) (labels : List Label)
    (hkeeps : Meets System.step KeepsDocuments (.empty configured) labels) :
    Meets System.step (fun s a => ∀ t, s.step a = some t → SubmitsAccepted s a t)
        (.empty configured) labels ∧
      Always System.step OneDocument (.empty configured) labels := by
  have hstep (s : System) (a : Label) (t : System) (h : Sound s) (hkeeps : KeepsDocuments s a)
      (ht : s.step a = some t) : Sound t := (h.step hkeeps ht).1
  constructor
  · refine meets_of_invariant hstep ?_ (sound_empty configured) hkeeps
    exact fun s a h hkeeps t ht => (h.step hkeeps ht).2
  · refine (always_of_meets hstep (sound_empty configured) hkeeps).mono ?_
    exact fun s h => h.rows.one

/-! ### Two filings -/

def structuring : Report where
  reportType := "STR"
  subjectName := "Ada Obi"
  subjectBvn := none
  subjectNin := none
  subjectAccountNumber := none
  subjectBank := none
  transactionDate := none
  transactionAmount := none
  transactionCurrency := some "NGN"
  suspiciousActivity := "Structuring / Smurfing"
  narrativeDetails := none

/-- One filing is created and sent, and this is answered. -/
def answeredRun (response : NfiuResponse) : List Label :=
  [.create 1 "STR-LR0A1B2C-9F3E" structuring "2024-01-05T10:00:00.000Z", .submit 1 1 1,
   .act 1 .claim, .act 1 .send, .act 1 (.answer response), .act 1 .finish]

theorem accepted_kept :
    Meets System.step (fun s a => ∀ t, s.step a = some t → SubmitsAccepted s a t) (.empty true)
        (answeredRun (.ok ⟨some "FIU-77", some "accepted", none⟩)) ∧
      Always System.step OneDocument (.empty true)
        (answeredRun (.ok ⟨some "FIU-77", some "accepted", none⟩)) :=
  submissions_kept true _ (by decide)

structure View where
  rows : List (Nat × StrStatus)
  answers : List (Option (Nat × NfiuResponse))
  deriving DecidableEq

def System.view (s : System) : View where
  rows := s.filings.map fun row => (row.id, row.status)
  answers := s.calls.map fun call => call.stage.answer

/-- A response that refuses with an empty list of errors makes the filing submitted. And a
draft that was sent once is edited after a lost answer and sent again, under the same key. -/
theorem promise_broken :
    (¬ ∀ configured labels, Meets System.step
      (fun s a => ∀ t, s.step a = some t → SubmitsAccepted s a t) (.empty configured) labels) ∧
      ¬ ∀ configured labels, Always System.step OneDocument (.empty configured) labels := by
  constructor
  · intro hall
    have hrun : ((run System.step (.empty true)
        ((answeredRun (.ok ⟨none, some "rejected", some []⟩)).take 5)).bind fun s =>
          (s.step (.act 1 .finish)).map fun t => (s.view, t.view)) =
        some
          (⟨[(1, .pendingReview)], [some (1, .ok ⟨none, some "rejected", some []⟩)]⟩,
           ⟨[(1, .submitted)], [none]⟩) := by
      decide
    obtain ⟨s, hs, hrun⟩ := bind_eq_some_iff.mp hrun
    obtain ⟨t, ht, hviews⟩ := map_eq_some_iff.mp hrun
    obtain ⟨hbefore, hafter⟩ := Prod.mk.inj hviews
    obtain ⟨hrows, hanswers⟩ := View.mk.inj hbefore
    obtain ⟨hrows', _⟩ := View.mk.inj hafter
    obtain ⟨row', hfilings', hrow'⟩ := map_eq_singleton_iff.mp hrows'
    obtain ⟨hid', hstatus'⟩ := Prod.mk.inj hrow'
    obtain ⟨old, hfilings, hold⟩ := map_eq_singleton_iff.mp hrows
    obtain ⟨call, hcalls, hcall⟩ := map_eq_singleton_iff.mp hanswers
    have hmeets := hall true (answeredRun (.ok ⟨none, some "rejected", some []⟩))
    have hlast := ((Meets.append hmeets hs) t ht).1 t ht row' (by simp [hfilings']) hstatus'
    rcases hlast with ⟨other, hother, _, hsubmitted⟩ | ⟨other, hother, _, response, hanswer, haccepts⟩
    · rw [hfilings] at hother
      obtain rfl := mem_singleton.mp hother
      rw [(Prod.mk.inj hold).2] at hsubmitted
      cases hsubmitted
    · rw [hcalls] at hother
      obtain rfl := mem_singleton.mp hother
      rw [hcall] at hanswer
      obtain ⟨_, rfl⟩ := Prod.mk.inj (some.inj hanswer)
      cases haccepts
  · intro hall
    have hrun : (run System.step (.empty true)
        (answeredRun (.networkError "The operation was aborted due to timeout") ++
          [.update 2 1 1 ⟨none, none, none, none, none, none, some "250000", none, none⟩,
           .act 2 (.write "2024-01-05T10:05:00.000Z"), .submit 3 1 1, .act 3 .claim,
           .act 3 .send])).map (fun s =>
        (s.sendings.map Sending.idempotencyKey,
          decide (s.sendings.map Sending.xmlPayload).Nodup)) =
        some (["STR-LR0A1B2C-9F3E", "STR-LR0A1B2C-9F3E"], true) := by
      decide +kernel
    obtain ⟨s, hs, hviews⟩ := map_eq_some_iff.mp hrun
    obtain ⟨hkeys, hdiffer⟩ := Prod.mk.inj hviews
    obtain ⟨first, rest, hsendings, hfirst, hrest⟩ := map_eq_cons_iff.mp hkeys
    obtain ⟨second, rfl, hsecond⟩ := map_eq_singleton_iff.mp hrest
    have hne := of_decide_eq_true hdiffer
    rw [hsendings] at hne
    have hsame := (hall true _).finish hs first (by simp [hsendings]) second (by simp [hsendings])
      (hfirst.trans hsecond.symm)
    simp [hsame] at hne

end Bis.Goaml
