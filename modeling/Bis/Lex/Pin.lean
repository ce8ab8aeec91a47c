import Bis.Transition.Run
import Mathlib.Logic.Function.Basic

/-!
The one-time PINs of the intake service: a PIN lives for ten minutes, is good for one
submission, and locks its officer out after three wrong guesses. Times of calls are in
nanoseconds; the database keeps whole seconds. Most errors of the database are not
looked at, so every call says which of its statements are carried out.

The guesses at the PIN that was issued last are recorded beside the tables.
-/

namespace Bis.Lex

open Bis.Transition

def second : Nat := 1000000000
def minute : Nat := 60 * second
def hour : Nat := 60 * minute

def PINTTLMinutes : Nat := 10
def PINMaxAttempts : Nat := 3

def pinTTL : Nat := PINTTLMinutes * minute

/-- A row of `pin_sessions`. -/
structure Session where
  (pinHash agencyCode : String)
  (issuedAt expiresAt : Nat)
  used : Bool

/-- A row of `pin_attempts`. -/
structure Attempts where
  (attempts windowStart : Nat)
  lockedUntil : Option Nat

/-- The rows of one officer. -/
structure Officer where
  session : Option Session
  attempts : Option Attempts

structure VerifyPINResult where
  valid : Bool := false
  expired : Bool := false
  locked : Bool := false
  used : Bool := false
  attempts : Nat := 0
  remaining : Nat := 0

/-- Which statements of `VerifyPIN` are carried out: the two that read, the end of a lock,
the one that writes what came out, and the last one of a right guess. -/
structure Carried where
  readAttempts : Bool := true
  unlock : Bool := true
  readSession : Bool := true
  write : Bool := true
  clear : Bool := true

/-- `compared` says that the guess was held against the PIN. -/
structure Verification where
  officer : Officer
  result : VerifyPINResult
  compared : Bool

def Session.isExpired (session : Session) (now : Nat) : Bool :=
  decide (second * session.expiresAt < now)

namespace Officer

/-- The second statement may fail where the first is carried out. -/
def issuePIN (officer : Officer) (pinHash agencyCode : String) (now : Nat) (cleared : Bool) :
    Officer where
  session := some ⟨pinHash, agencyCode, now / second, (now + pinTTL) / second, false⟩
  attempts := if cleared then none else officer.attempts

/-- The conflict clause leaves `locked_until` as it is. -/
def wrongGuess (officer : Officer) (attempts now : Nat) (db : Carried) : Verification :=
  let newAttempts := attempts + 1
  if PINMaxAttempts ≤ newAttempts then
    { officer :=
        { officer with
          attempts :=
            if db.write then some ⟨newAttempts, now / second, some ((now + pinTTL) / second)⟩
            else officer.attempts }
      result := { locked := true, attempts := newAttempts }
      compared := true }
  else
    { officer :=
        { officer with
          attempts :=
            if db.write then
              some ⟨newAttempts, now / second, officer.attempts.bind Attempts.lockedUntil⟩
            else officer.attempts }
      result := { attempts := newAttempts, remaining := PINMaxAttempts - newAttempts }
      compared := true }

def rightGuess (officer : Officer) (session : Session) (db : Carried) : Verification where
  officer :=
    { session := some (if db.write then { session with used := true } else session)
      attempts := if db.clear then none else officer.attempts }
  result := { valid := true, remaining := PINMaxAttempts }
  compared := true

/-- What `VerifyPIN` does when the officer is not locked out. -/
def checkSession (officer : Officer) (pinHash : String) (attempts now : Nat) (db : Carried) :
    Verification :=
  if db.readSession then
    match officer.session with
    | none => ⟨officer, { expired := true }, false⟩
    | some session =>
      if session.isExpired now then
        ⟨{ officer with session := if db.write then none else some session },
          { expired := true }, false⟩
      else if session.used then ⟨officer, { used := true }, false⟩
      else if session.pinHash = pinHash then officer.rightGuess session db
      else officer.wrongGuess attempts now db
  else ⟨officer, {}, false⟩

def verifyPIN (officer : Officer) (pinHash : String) (now : Nat) (db : Carried) : Verification :=
  if db.readAttempts then
    match officer.attempts with
    | none => officer.checkSession pinHash 0 now db
    | some ⟨attempts, _, none⟩ => officer.checkSession pinHash attempts now db
    | some ⟨attempts, _, some lockedUntil⟩ =>
      if now < second * lockedUntil then
        ⟨officer, { locked := true, attempts }, false⟩
      else
        checkSession { officer with attempts := if db.unlock then none else officer.attempts }
          pinHash 0 now db
  else ⟨officer, {}, false⟩

/-- `CleanupExpiredPINs`, for one officer; the second statement is not tried when the first
has failed. -/
def cleanup (officer : Officer) (now : Nat) (carried : Bool) : Officer where
  session := officer.session.filter fun session => !decide (session.expiresAt < now / second)
  attempts :=
    if carried then
      officer.attempts.filter fun row =>
        !(row.lockedUntil.isNone && decide (row.windowStart < (now - hour) / second))
    else officer.attempts

end Officer

/-! ### Runs -/

structure Guess where
  now : Nat
  result : VerifyPINResult
  compared : Bool

/-- What became of the PIN that was issued last, its last guess first. -/
structure Issue where
  issuedAt : Nat
  guesses : List Guess

def Verification.asGuess (v : Verification) (now : Nat) : Guess := ⟨now, v.result, v.compared⟩

def Issue.record (issue : Issue) (guess : Guess) : Issue :=
  { issue with guesses := guess :: issue.guesses }

structure PinSystem where
  store : String → Officer
  issues : String → Option Issue

inductive PinLabel where
  | issue (phone pinHash agencyCode : String) (now : Nat) (cleared : Bool)
  | verify (phone pinHash : String) (now : Nat) (db : Carried)
  | cleanup (now : Nat) (carried : Bool)

namespace PinSystem

def empty : PinSystem := ⟨fun _ => ⟨none, none⟩, fun _ => none⟩

def verification (s : PinSystem) (phone pinHash : String) (now : Nat) (db : Carried) :
    Verification :=
  (s.store phone).verifyPIN pinHash now db

def verify (s : PinSystem) (phone pinHash : String) (now : Nat) (db : Carried) : PinSystem :=
  let v := s.verification phone pinHash now db
  { store := Function.update s.store phone v.officer
    issues := Function.update s.issues phone
      ((s.issues phone).map fun issue => issue.record (v.asGuess now)) }

/-- A call of `IssuePIN` or `CleanupExpiredPINs` whose first statement fails is no step. -/
def step : Step PinSystem PinLabel
  | s, .issue phone pinHash agencyCode now cleared =>
    some
      { store := Function.update s.store phone
          ((s.store phone).issuePIN pinHash agencyCode now cleared)
        issues := Function.update s.issues phone (some ⟨now, []⟩) }
  | s, .verify phone pinHash now db => some (s.verify phone pinHash now db)
  | s, .cleanup now carried =>
    some { s with store := fun phone => (s.store phone).cleanup now carried }

end PinSystem

end Bis.Lex
