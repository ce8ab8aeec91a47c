import Bis.Monitoring.Snapshot
import Bis.Number.Binary64
import Bis.Pii.ForensicCursor

/-!
The screening of a monitored subject: the providers' answers, made into the hits of a
snapshot. An answer is the body that was read as JSON, or nothing where the provider
cannot be reached, is not configured or does not answer properly.

The hash and the time come from outside. The identifiers of a subject only go into a
request and are left out.
-/

namespace Bis.Monitoring

open Bis.Json Bis.Relation
open Bis.Number (toDouble)
open Bis.Pii (jsTrim jsLength)

/-! ### Values of an answer -/

/-- `value?.name`; of members with one name the last counts. -/
def get (name : String) : Value → Option Value
  | .object members => (lastOf Prod.fst name members).map Prod.snd
  | _ => none

def array? : Option Value → Option (List Value)
  | some (.array items) => some items
  | _ => none

def string? : Option Value → Option String
  | some (.string text) => some text
  | _ => none

/-- `value === b` -/
def isBool (b : Bool) : Option Value → Bool
  | some (.bool b') => b' == b
  | _ => false

/-- A number from here on is read as infinite. -/
def overflow : Rat := 2 ^ 1024 - 2 ^ 970

/-- Scores come on a scale to 1 or to 100. -/
def normalizeScore : Option Value → Option Nat
  | some (.number n) =>
    if overflow ≤ |n.toRat| then none
    else
      let score := toDouble n.toRat
      let scaled := if 0 < score ∧ score ≤ 1 then toDouble (score * 100) else score
      some (max 0 (min 100 ⌊scaled + 1 / 2⌋)).toNat
  | _ => none

def scoreBand (score : Option Nat) : String :=
  match score with
  | none => "hit"
  | some score => if 90 ≤ score then "high" else if 70 ≤ score then "medium" else "low"

/-! ### Hits -/

def MonitoringListKind.name : MonitoringListKind → String
  | .sanctions => "sanctions"
  | .pep => "pep"
  | .watchlist => "watchlist"

section Hits

variable (sha256Hex : String → String)

def hitId (parts : List String) : String :=
  String.ofList ((sha256Hex ("|".intercalate parts)).toList.take 32)

/-- The name in a hit, or the subject's own. -/
def hitName (subjectName : String) (h : Value) : String :=
  match string? (get "name" h) with
  | some text =>
    let trimmed := jsTrim text.toList
    if trimmed.isEmpty then subjectName else String.ofList trimmed
  | none => subjectName

/-- A hit that the provider has reported without a score. -/
def plainHit (list : MonitoringListKind) (matchedName : String) (sourceList : Option String) :
    MonitoringHit where
  id := hitId sha256Hex [list.name, "", matchedName]
  list
  matchedName
  sourceList
  status := "hit"
  score := none

def sanctionsHit (subjectName : String) (h : Value) : MonitoringHit :=
  let matchedName := hitName subjectName h
  let sourceList := string? (get "list" h)
  let score := normalizeScore (get "score" h)
  { id := hitId sha256Hex ["sanctions", sourceList.getD "", matchedName]
    list := .sanctions
    matchedName
    sourceList
    status := scoreBand score
    score }

def pepHit (subjectName : String) (h : Value) : MonitoringHit :=
  let matchedName := hitName subjectName h
  let score := normalizeScore (get "score" h)
  { id := hitId sha256Hex ["pep", "", matchedName]
    list := .pep
    matchedName
    sourceList := none
    status := scoreBand score
    score }

/-- A hit that is not itemized is kept as one of its own. -/
def screenSanctions (subjectName : String) (res : Value) : List MonitoringHit :=
  let rawHits := (array? (get "hits" res)).getD []
  if rawHits.isEmpty && isBool false (get "clear" res) then
    [plainHit sha256Hex .sanctions subjectName none]
  else rawHits.map (sanctionsHit sha256Hex subjectName)

def pepHits (subjectName : String) (res : Value) : List MonitoringHit :=
  let rawHits := ((array? (get "hits" res)).or (array? (get "matches" res))).getD []
  (if isBool true (get "isPEP" res) then
    [plainHit sha256Hex .pep subjectName (some "pep_registry")] else []) ++
    rawHits.map (pepHit sha256Hex subjectName)

/-- The values of a `Map` from identifiers to hits. -/
def uniqueHits (hits : List MonitoringHit) : List MonitoringHit :=
  hits.foldl (fun kept hit => upsert MonitoringHit.id hit kept) []

def screenPep (subjectName : String) (res : Value) : List MonitoringHit :=
  uniqueHits (pepHits sha256Hex subjectName res)

def screenWatchlist (subjectName : String) (data : Value) : List MonitoringHit :=
  if isBool true (get "hit" data) || isBool true ((get "data" data).bind (get "hit")) then
    [plainHit sha256Hex .watchlist subjectName (some "efcc_watchlist")]
  else []

end Hits

/-! ### The screening -/

inductive ScreeningError where
  | badRequest (message : String)
  | providerUnavailable (provider : String)
  deriving DecidableEq

def sanitizeName (name : String) : Except ScreeningError String :=
  let trimmed := jsTrim name.toList
  if jsLength trimmed < 2 then
    .error (.badRequest "A subject name of at least two characters is required")
  else .ok (String.ofList trimmed)

/-- What is screened, and what the providers answer. -/
structure Screening where
  subjectName : String
  listSet : List MonitoringListKind
  answer : MonitoringListKind → Option Value
  screenedAt : String

section Screening

variable (sha256Hex : String → String)

def screenOne (kind : MonitoringListKind) (name : String) (res : Value) : List MonitoringHit :=
  match kind with
  | .sanctions => screenSanctions sha256Hex name res
  | .pep => screenPep sha256Hex name res
  | .watchlist => screenWatchlist sha256Hex name res

/-- One list behind the other; a provider without an answer ends the screening. -/
def screenLists (answer : MonitoringListKind → Option Value) (name : String) :
    List MonitoringListKind → Except ScreeningError (List MonitoringHit)
  | [] => .ok []
  | kind :: rest =>
    match answer kind with
    | none => .error (.providerUnavailable kind.name)
    | some res => do
      let hits ← screenLists answer name rest
      .ok (screenOne sha256Hex kind name res ++ hits)

/-- The hits are sorted by their identifiers, whose order `localeCompare` shares. -/
def runSubjectScreening (s : Screening) : Except ScreeningError MonitoringSnapshot := do
  let name ← sanitizeName s.subjectName
  let hits ← screenLists sha256Hex s.answer name s.listSet.eraseDups
  .ok
    { subjectName := name
      screenedAt := s.screenedAt
      hits := hits.mergeSort fun a b => a.id ≤ b.id }

end Screening

end Bis.Monitoring
