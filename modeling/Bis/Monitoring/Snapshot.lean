import Bis.Calendar.Iso
import Bis.Relation.Keyed

/-!
What a screening finds of a subject, and how two findings differ. The hits come
from the providers; a provider may list a hit twice, and the maps in the diff then
have the last of them.
-/

namespace Bis.Monitoring

open Bis.Relation

inductive MonitoringListKind where
  | sanctions | pep | watchlist
  deriving DecidableEq

inductive MonitoringFrequency where
  | daily | weekly | monthly

structure MonitoringHit where
  id : String
  list : MonitoringListKind
  matchedName : String
  sourceList : Option String
  status : String
  score : Option Nat
  deriving DecidableEq

structure MonitoringSnapshot where
  (subjectName screenedAt : String)
  hits : List MonitoringHit
  deriving DecidableEq

structure MonitoringStatusChange where
  id : String
  list : MonitoringListKind
  (matchedName before after : String)
  deriving DecidableEq

structure MonitoringDelta where
  changed : Bool
  (newHits removedHits : List MonitoringHit)
  statusChanges : List MonitoringStatusChange

def baselineHits (baseline : Option MonitoringSnapshot) : List MonitoringHit :=
  (baseline.map MonitoringSnapshot.hits).getD []

/-- The change of a hit's status band against the map of the baseline. -/
def statusChange (baseHits : List MonitoringHit) (hit : MonitoringHit) :
    Option MonitoringStatusChange := do
  let known ← lastOf MonitoringHit.id hit.id baseHits
  if known.status ≠ hit.status then
    some
      { id := hit.id, list := hit.list, matchedName := hit.matchedName
        before := known.status, after := hit.status }
  else none

def diffSnapshots (baseline : Option MonitoringSnapshot) (current : MonitoringSnapshot) :
    MonitoringDelta :=
  let baseHits := baselineHits baseline
  let newHits := current.hits.filter fun hit => !baseHits.any fun h => h.id == hit.id
  let removedHits := baseHits.filter fun hit => !current.hits.any fun h => h.id == hit.id
  let statusChanges := current.hits.filterMap (statusChange baseHits)
  { changed := !newHits.isEmpty || !removedHits.isEmpty || !statusChanges.isEmpty
    newHits, removedHits, statusChanges }

/-! ### Alerts -/

inductive AlertType where
  | newHit | statusChange | removedHit
  deriving DecidableEq

inductive AlertDelta where
  | hit (hit : MonitoringHit)
  | statusChange (change : MonitoringStatusChange)
  deriving DecidableEq

structure PendingAlert where
  alertType : AlertType
  severity : String
  delta : AlertDelta
  deriving DecidableEq

def alertSeverity (alertType : AlertType) (list : MonitoringListKind) (status : String) : String :=
  match alertType with
  | .newHit => if list = .sanctions then "critical" else "high"
  | .statusChange => if status = "high" then "high" else "medium"
  | .removedHit => "low"

def hitAlert (alertType : AlertType) (hit : MonitoringHit) : PendingAlert where
  alertType
  severity := alertSeverity alertType hit.list hit.status
  delta := .hit hit

def changeAlert (change : MonitoringStatusChange) : PendingAlert where
  alertType := .statusChange
  severity := alertSeverity .statusChange change.list change.after
  delta := .statusChange change

/-- One alert for each item of a delta. -/
def MonitoringDelta.alerts (delta : MonitoringDelta) : List PendingAlert :=
  if delta.changed then
    delta.newHits.map (hitAlert .newHit) ++ delta.statusChanges.map changeAlert ++
      delta.removedHits.map (hitAlert .removedHit)
  else []

/-! ### Schedule -/

def dayMs : Nat := 24 * 3600 * 1000

/-- A day that the next month does not have runs over into the month after it. -/
def nextMonth (date : Calendar.Date) : Calendar.Date :=
  if date.month = 12 then { date with year := date.year + 1, month := 1 }
  else { date with month := date.month + 1 }

def nextRunAt (frequency : MonitoringFrequency) (instant : Nat) : Nat :=
  match frequency with
  | .daily => instant + dayMs
  | .weekly => instant + 7 * dayMs
  | .monthly =>
    Calendar.daysOf (nextMonth (Calendar.dateOf (instant / dayMs))) * dayMs + instant % dayMs

example : nextRunAt .monthly 1706659200000 = 1709337600000 := by decide

end Bis.Monitoring
