import Bis.Encoding.Framing
import Bis.Json.Syntax
import Bis.Transition.Run
import Mathlib.Data.List.Nodup

/-!
The screening engine and its result cache. Any number of requests are under way
at once: each reads the cache, asks a provider if it finds nothing there, writes
a stable result back and returns. What a provider answers, whether Redis is
reachable and when an entry expires is up to the labels.

A result is kept together with the subject it was computed for. The code does
not have this second part: it stores and returns the result alone. The options,
the callback and the creation time of a request are left out.
-/

namespace Bis.Screening

open Bis.Encoding Bis.Transition Function

inductive ScreeningType where
  | ninTrace | criminalEfcc | criminalIcpc | courtRecord | cacDirectorship | educationWaec
  | educationNeco | educationUniversity | nyscDischarge | employmentVerification
  | professionalLicenceCoren | professionalLicenceNba | professionalLicenceMdcn
  | professionalLicenceIcan | professionalLicenceCibn | adverseMedia | pepSanctions | watchlist
  | workPermit | continuousMonitor | addressVerification | bvnVerification | creditCheck
  | drugTest | sexOffenderRegistry | terrorismWatchlist | interpolNotice | socialMedia
  deriving DecidableEq

/-- The name that serde gives a variant. -/
def ScreeningType.name : ScreeningType → String
  | .ninTrace => "nin_trace"
  | .criminalEfcc => "criminal_efcc"
  | .criminalIcpc => "criminal_icpc"
  | .courtRecord => "court_record"
  | .cacDirectorship => "cac_directorship"
  | .educationWaec => "education_waec"
  | .educationNeco => "education_neco"
  | .educationUniversity => "education_university"
  | .nyscDischarge => "nysc_discharge"
  | .employmentVerification => "employment_verification"
  | .professionalLicenceCoren => "professional_licence_coren"
  | .professionalLicenceNba => "professional_licence_nba"
  | .professionalLicenceMdcn => "professional_licence_mdcn"
  | .professionalLicenceIcan => "professional_licence_ican"
  | .professionalLicenceCibn => "professional_licence_cibn"
  | .adverseMedia => "adverse_media"
  | .pepSanctions => "pep_sanctions"
  | .watchlist => "watchlist"
  | .workPermit => "work_permit"
  | .continuousMonitor => "continuous_monitor"
  | .addressVerification => "address_verification"
  | .bvnVerification => "bvn_verification"
  | .creditCheck => "credit_check"
  | .drugTest => "drug_test"
  | .sexOffenderRegistry => "sex_offender_registry"
  | .terrorismWatchlist => "terrorism_watchlist"
  | .interpolNotice => "interpol_notice"
  | .socialMedia => "social_media"

structure SubjectInfo where
  fullName : String
  (nin bvn dob phone email address state cacRc waecNumber nyscNumber licenceNumber : Option String)

structure ScreeningRequest where
  (requestId orderRef : String)
  (resultId candidateId tenantId : Int)
  screeningType : ScreeningType
  subject : SubjectInfo

inductive ScreeningOutcome where
  | clear
  | consider
  | adverse
  | unverified
  | error

structure ScreeningResult where
  (requestId orderRef : String)
  resultId : Int
  screeningType : ScreeningType
  outcome : ScreeningOutcome
  summary : String
  details : Json.Value
  riskScore : Rat
  sources : List String
  completedAt : Int
  error : Option String

/-- What comes of asking a provider. -/
inductive ProviderAnswer where
  | answered (outcome : ScreeningOutcome) (summary : String) (details : Json.Value)
      (riskScore : Rat) (sources : List String)
  | failed (err : String)

def makeResult (req : ScreeningRequest) (outcome : ScreeningOutcome) (summary : String)
    (details : Json.Value) (riskScore : Rat) (sources : List String) (now : Int) :
    ScreeningResult :=
  { requestId := req.requestId, orderRef := req.orderRef, resultId := req.resultId
    screeningType := req.screeningType, outcome, summary, details, riskScore, sources
    completedAt := now, error := none }

def errorResult (req : ScreeningRequest) (err : String) (now : Int) : ScreeningResult :=
  { requestId := req.requestId, orderRef := req.orderRef, resultId := req.resultId
    screeningType := req.screeningType, outcome := .error, summary := "Screening error: " ++ err
    details := .object [("error", .string err)], riskScore := 1 / 2, sources := []
    completedAt := now, error := some err }

/-- Every handler ends in one of these two, for the request it was given. -/
def screen (req : ScreeningRequest) (answer : ProviderAnswer) (now : Int) : ScreeningResult :=
  match answer with
  | .answered outcome summary details riskScore sources =>
    makeResult req outcome summary details riskScore sources now
  | .failed err => errorResult req err now

def SubjectInfo.identifier (subject : SubjectInfo) : String :=
  (subject.nin.or subject.bvn).getD "unknown"

/-- `serde_json::to_string`. -/
def ScreeningType.json (t : ScreeningType) : String := "\"" ++ t.name ++ "\""

def cacheKey (req : ScreeningRequest) : String :=
  "bis:screening:cache:" ++ req.screeningType.json ++ ":" ++ req.subject.identifier

def ScreeningOutcome.stable : ScreeningOutcome → Bool
  | .clear | .consider | .adverse => true
  | .unverified | .error => false

/-- A result, and whom it is about. -/
structure Screened where
  result : ScreeningResult
  subject : SubjectInfo

/-- What a hit returns: the entry under the request's own ids. -/
def Screened.reuse (entry : Screened) (req : ScreeningRequest) : Screened :=
  { entry with
    result := { entry.result with requestId := req.requestId, resultId := req.resultId } }

/-- How far a call of `run_screening` has come. -/
inductive Call where
  | idle
  | reading (req : ScreeningRequest)
  | asking (req : ScreeningRequest)
  | writing (req : ScreeningRequest) (screened : Screened)
  | returned (req : ScreeningRequest) (screened : Screened)

structure ScreeningEngine where
  cache : String → Option Screened
  calls : Nat → Call

def ScreeningEngine.new : ScreeningEngine := { cache := fun _ => none, calls := fun _ => .idle }

inductive ScreeningStep where
  | request (call : Nat) (req : ScreeningRequest)
  /-- `GET`; it may fail. -/
  | read (call : Nat) (reachable : Bool)
  | answer (call : Nat) (answer : ProviderAnswer) (now : Int)
  /-- `SETEX`; it may fail. -/
  | write (call : Nat) (reachable : Bool)
  | expire (key : String)

def ScreeningEngine.move (s : ScreeningEngine) (call : Nat) (next : Call) : ScreeningEngine :=
  { s with calls := update s.calls call next }

def ScreeningEngine.store (s : ScreeningEngine) (key : String) (entry : Option Screened) :
    ScreeningEngine :=
  { s with cache := update s.cache key entry }

/-- What `GET` finds. -/
def ScreeningEngine.lookup (s : ScreeningEngine) (req : ScreeningRequest) (reachable : Bool) :
    Option Screened :=
  if reachable then s.cache (cacheKey req) else none

def screeningStep : Step ScreeningEngine ScreeningStep
  | s, .request call req =>
    match s.calls call with
    | .idle => some (s.move call (.reading req))
    | _ => none
  | s, .read call reachable =>
    match s.calls call with
    | .reading req =>
      match s.lookup req reachable with
      | some entry => some (s.move call (.returned req (entry.reuse req)))
      | none => some (s.move call (.asking req))
    | _ => none
  | s, .answer call answer now =>
    match s.calls call with
    | .asking req => some (s.move call (.writing req ⟨screen req answer now, req.subject⟩))
    | _ => none
  | s, .write call reachable =>
    match s.calls call with
    | .writing req screened =>
      let s := s.move call (.returned req screened)
      if screened.result.outcome.stable && reachable then
        some (s.store (cacheKey req) (some screened))
      else some s
    | _ => none
  | s, .expire key => some (s.store key none)

/-- The result is about the request's subject and carries its order reference. -/
def Screened.BelongsTo (screened : Screened) (req : ScreeningRequest) : Prop :=
  screened.subject = req.subject ∧ screened.result.orderRef = req.orderRef

def Call.Own : Call → Prop
  | .returned req screened => screened.BelongsTo req
  | _ => True

/-- Every result returned so far belongs to the request it was returned for. -/
def ScreeningEngine.AllOwn (s : ScreeningEngine) : Prop := ∀ call, (s.calls call).Own

/-- Requests of one screening type and identifier are about one subject and for one
order. -/
def Agreeing (issued : ScreeningRequest → Prop) : Prop :=
  ∀ first second, issued first → issued second → first.screeningType = second.screeningType →
    first.subject.identifier = second.subject.identifier →
      first.subject = second.subject ∧ first.orderRef = second.orderRef

def ScreeningStep.From (issued : ScreeningRequest → Prop) : ScreeningStep → Prop
  | .request _ req => issued req
  | _ => True

/-! ### Requests that meet on a key -/

def ScreeningType.all : List ScreeningType :=
  [.ninTrace, .criminalEfcc, .criminalIcpc, .courtRecord, .cacDirectorship, .educationWaec,
    .educationNeco, .educationUniversity, .nyscDischarge, .employmentVerification,
    .professionalLicenceCoren, .professionalLicenceNba, .professionalLicenceMdcn,
    .professionalLicenceIcan, .professionalLicenceCibn, .adverseMedia, .pepSanctions, .watchlist,
    .workPermit, .continuousMonitor, .addressVerification, .bvnVerification, .creditCheck,
    .drugTest, .sexOffenderRegistry, .terrorismWatchlist, .interpolNotice, .socialMedia]

theorem mem_all (t : ScreeningType) : t ∈ ScreeningType.all := by
  cases t <;> decide

theorem name_injective {t t' : ScreeningType} (h : t.name = t'.name) : t = t' := by
  have hnodup : (ScreeningType.all.map ScreeningType.name).Nodup := by decide
  exact List.inj_on_of_nodup_map hnodup (mem_all t) (mem_all t') h

theorem quote_not_mem_name (t : ScreeningType) : '"' ∉ t.name.toList := by
  cases t <;> decide

/-- A name in quotes, and what follows it, can be read back. -/
theorem quoted_injective {front quote back name name' rest rest' : String}
    (hquote : quote.toList = ['"']) (hname : '"' ∉ name.toList) (hname' : '"' ∉ name'.toList)
    (h : front ++ (quote ++ name ++ quote) ++ back ++ rest =
      front ++ (quote ++ name' ++ quote) ++ back ++ rest') : name = name' ∧ rest = rest' := by
  have hlist := congrArg String.toList h
  simp only [String.toList_append, List.append_assoc, List.append_cancel_left_eq, hquote,
    List.cons_append, List.nil_append] at hlist
  obtain ⟨hsame, hrest⟩ := append_separator_left hname hname' (List.cons.inj hlist).2
  exact ⟨String.toList_inj.mp hsame, String.toList_inj.mp (List.append_cancel_left hrest)⟩

theorem cacheKey_eq_iff {first second : ScreeningRequest} :
    cacheKey first = cacheKey second ↔ first.screeningType = second.screeningType ∧
      first.subject.identifier = second.subject.identifier := by
  constructor
  · intro h
    obtain ⟨hname, hidentifier⟩ := quoted_injective (by simp) (quote_not_mem_name _)
      (quote_not_mem_name _) h
    exact ⟨name_injective hname, hidentifier⟩
  · rintro ⟨htype, hidentifier⟩
    unfold cacheKey
    rw [htype, hidentifier]

/-! ### One step -/

/-- The calls are for the requests issued, and what they hold is their own. -/
def Call.Sound (issued : ScreeningRequest → Prop) : Call → Prop
  | .idle => True
  | .reading req | .asking req => issued req
  | .writing req screened => issued req ∧ screened.BelongsTo req
  | .returned req screened => screened.BelongsTo req

/-- Every entry belongs to a request that was issued with its key. -/
structure ScreeningEngine.Sound (issued : ScreeningRequest → Prop) (s : ScreeningEngine) :
    Prop where
  entries : ∀ key entry, s.cache key = some entry →
    ∃ req, issued req ∧ cacheKey req = key ∧ entry.BelongsTo req
  calls : ∀ call, (s.calls call).Sound issued

theorem screen_orderRef (req : ScreeningRequest) (answer : ProviderAnswer) (now : Int) :
    (screen req answer now).orderRef = req.orderRef := by
  cases answer <;> rfl

inductive ScreeningTakes (s : ScreeningEngine) : ScreeningStep → ScreeningEngine → Prop
  | request (call : Nat) (req : ScreeningRequest) (hcall : s.calls call = .idle) :
      ScreeningTakes s (.request call req) (s.move call (.reading req))
  | hit (call : Nat) (reachable : Bool) (req : ScreeningRequest) (entry : Screened)
      (hcall : s.calls call = .reading req) (hentry : s.lookup req reachable = some entry) :
      ScreeningTakes s (.read call reachable) (s.move call (.returned req (entry.reuse req)))
  | miss (call : Nat) (reachable : Bool) (req : ScreeningRequest)
      (hcall : s.calls call = .reading req) (hentry : s.lookup req reachable = none) :
      ScreeningTakes s (.read call reachable) (s.move call (.asking req))
  | answer (call : Nat) (answer : ProviderAnswer) (now : Int) (req : ScreeningRequest)
      (hcall : s.calls call = .asking req) :
      ScreeningTakes s (.answer call answer now)
        (s.move call (.writing req ⟨screen req answer now, req.subject⟩))
  | keep (call : Nat) (reachable : Bool) (req : ScreeningRequest) (screened : Screened)
      (hcall : s.calls call = .writing req screened) :
      ScreeningTakes s (.write call reachable)
        ((s.move call (.returned req screened)).store (cacheKey req) (some screened))
  | skip (call : Nat) (reachable : Bool) (req : ScreeningRequest) (screened : Screened)
      (hcall : s.calls call = .writing req screened) :
      ScreeningTakes s (.write call reachable) (s.move call (.returned req screened))
  | expire (key : String) : ScreeningTakes s (.expire key) (s.store key none)

variable {s s' : ScreeningEngine} {a : ScreeningStep}

theorem screeningTakes_of_step (h : screeningStep s a = some s') : ScreeningTakes s a s' := by
  cases a with
  | request call req =>
    cases hcall : s.calls call <;> simp only [screeningStep, hcall] at h <;> cases h
    exact .request call req hcall
  | read call reachable =>
    cases hcall : s.calls call with
    | reading req =>
      cases hentry : s.lookup req reachable with
      | none =>
        simp only [screeningStep, hcall, hentry] at h
        cases h
        exact .miss call reachable req hcall hentry
      | some entry =>
        simp only [screeningStep, hcall, hentry] at h
        cases h
        exact .hit call reachable req entry hcall hentry
    | idle | asking | writing | returned => simp only [screeningStep, hcall] at h; cases h
  | answer call answer now =>
    cases hcall : s.calls call <;> simp only [screeningStep, hcall] at h <;> cases h
    exact .answer call answer now _ hcall
  | write call reachable =>
    cases hcall : s.calls call with
    | writing req screened =>
      simp only [screeningStep, hcall] at h
      split at h
      · cases h
        exact .keep call reachable req screened hcall
      · cases h
        exact .skip call reachable req screened hcall
    | idle | reading | asking | returned => simp only [screeningStep, hcall] at h; cases h
  | expire key =>
    cases h
    exact .expire key

/-- A property of every call survives the move of one call that has it. -/
theorem forall_calls_move {Q : Call → Prop} {call : Nat} {next : Call}
    (h : ∀ other, Q (s.calls other)) (hnext : Q next) :
    ∀ other, Q ((s.move call next).calls other) :=
  (Function.forall_update_iff s.calls fun _ => Q).mpr ⟨hnext, fun other _ => h other⟩

theorem lookup_eq_some {req : ScreeningRequest} {reachable : Bool} {entry : Screened}
    (h : s.lookup req reachable = some entry) : s.cache (cacheKey req) = some entry := by
  unfold ScreeningEngine.lookup at h
  split at h
  · exact h
  · cases h

variable {issued : ScreeningRequest → Prop}

theorem sound_step (hagree : Agreeing issued) (hs : s.Sound issued) (ha : a.From issued)
    (h : screeningStep s a = some s') : s'.Sound issued := by
  cases screeningTakes_of_step h with
  | request call req => exact ⟨hs.entries, forall_calls_move hs.calls ha⟩
  | hit call reachable req entry hcall hentry =>
    refine ⟨hs.entries, forall_calls_move hs.calls ?_⟩
    have hreq := hs.calls call
    rw [hcall] at hreq
    obtain ⟨writer, hwriter, hkey, hsubject, horder⟩ := hs.entries _ _ (lookup_eq_some hentry)
    obtain ⟨htype, hidentifier⟩ := cacheKey_eq_iff.mp hkey
    obtain ⟨hsame, hsame'⟩ := hagree writer req hwriter hreq htype hidentifier
    exact ⟨hsubject.trans hsame, horder.trans hsame'⟩
  | miss call reachable req hcall =>
    have hreq := hs.calls call
    rw [hcall] at hreq
    exact ⟨hs.entries, forall_calls_move hs.calls hreq⟩
  | answer call answer now req hcall =>
    have hreq := hs.calls call
    rw [hcall] at hreq
    exact ⟨hs.entries, forall_calls_move hs.calls ⟨hreq, rfl, screen_orderRef req answer now⟩⟩
  | keep call _ req screened hcall =>
    have hreq := hs.calls call
    rw [hcall] at hreq
    refine ⟨?_, forall_calls_move hs.calls hreq.2⟩
    intro key entry hentry
    by_cases hkey : key = cacheKey req
    · subst hkey
      simp only [ScreeningEngine.store, update_self, Option.some.injEq] at hentry
      exact ⟨req, hreq.1, rfl, hentry ▸ hreq.2⟩
    · simp only [ScreeningEngine.store, update_of_ne hkey] at hentry
      exact hs.entries key entry hentry
  | skip call _ req screened hcall =>
    have hreq := hs.calls call
    rw [hcall] at hreq
    exact ⟨hs.entries, forall_calls_move hs.calls hreq.2⟩
  | expire key =>
    refine ⟨?_, hs.calls⟩
    intro other entry hentry
    by_cases hkey : other = key
    · subst hkey
      simp [ScreeningEngine.store] at hentry
    · simp only [ScreeningEngine.store, update_of_ne hkey] at hentry
      exact hs.entries other entry hentry

theorem allOwn_of_sound (h : s.Sound issued) : s.AllOwn := by
  intro call
  have hcall := h.calls call
  cases hphase : s.calls call with
  | returned req screened => rwa [hphase] at hcall
  | idle | reading | asking | writing => trivial

/-! ### Every run -/

/-- One request after another, with a provider that clears the first. -/
def inTurn (first second : ScreeningRequest) : List ScreeningStep :=
  [.request 0 first, .read 0 true, .answer 0 (.answered .clear "no hits" .null 0 ["aggregator"]) 0,
    .write 0 true, .request 1 second, .read 1 true]

/-- The second request gets what was found for the first. -/
theorem run_inTurn {first second : ScreeningRequest} (hkey : cacheKey second = cacheKey first) :
    ∃ s entry, run screeningStep .new (inTurn first second) = some s ∧
      s.calls 1 = .returned second entry ∧ entry.subject = first.subject ∧
        entry.result.orderRef = first.orderRef := by
  simp [inTurn, run, screeningStep, ScreeningEngine.new, ScreeningEngine.move,
    ScreeningEngine.lookup, ScreeningEngine.store, screen, makeResult, ScreeningOutcome.stable,
    Screened.reuse, hkey]

/-- Every result returned belongs to its request, in whatever way the requests
interleave, exactly if those that share a key are about one subject and order. -/
theorem always_allOwn_iff (issued : ScreeningRequest → Prop) :
    (∀ labels : List ScreeningStep, (∀ a ∈ labels, a.From issued) →
        Always screeningStep ScreeningEngine.AllOwn .new labels) ↔ Agreeing issued := by
  constructor
  · intro h first second hfirst hsecond htype hidentifier
    have hkey := cacheKey_eq_iff.mpr ⟨htype.symm, hidentifier.symm⟩
    obtain ⟨s, entry, hrun, hcall, hsubject, horder⟩ := run_inTurn hkey
    have hown := (h (inTurn first second) (by simp [inTurn, ScreeningStep.From, *])).finish hrun 1
    rw [hcall] at hown
    exact ⟨hsubject.symm.trans hown.1, horder.symm.trans hown.2⟩
  · intro hagree labels hlabels
    have hsound : Always screeningStep (ScreeningEngine.Sound issued) .new labels := by
      apply always_of_meets (C := fun _ a => a.From issued)
      · exact fun s a t hs ha => sound_step hagree hs ha
      · refine ⟨?_, fun call => trivial⟩
        intro key entry hentry
        cases hentry
      · exact Meets.of_forall fun a ha _ => hlabels a ha
    exact hsound.mono fun s hs => allOwn_of_sound hs

/-- Two people without NIN and BVN, screened for adverse media one after the
other: the second gets the first one's clearance under the first one's order. -/
def unidentified (fullName orderRef : String) (tenantId : Int) : ScreeningRequest :=
  { requestId := "r-" ++ orderRef, orderRef, resultId := tenantId, candidateId := tenantId, tenantId
    screeningType := .adverseMedia
    subject :=
      { fullName, nin := none, bvn := none, dob := none, phone := none, email := none
        address := none, state := none, cacRc := none, waecNumber := none, nyscNumber := none
        licenceNumber := none } }

theorem unidentified_subject_reused :
    ¬Always screeningStep ScreeningEngine.AllOwn .new
      (inTurn (unidentified "Ada Obi" "O-1" 1) (unidentified "Musa Bello" "O-2" 2)) := by
  intro h
  have hkey : cacheKey (unidentified "Musa Bello" "O-2" 2) =
      cacheKey (unidentified "Ada Obi" "O-1" 1) := rfl
  obtain ⟨s, entry, hrun, hcall, -, horder⟩ := run_inTurn hkey
  have hown := h.finish hrun 1
  rw [hcall] at hown
  exact absurd (horder.symm.trans hown.2) (by decide)

end Bis.Screening
