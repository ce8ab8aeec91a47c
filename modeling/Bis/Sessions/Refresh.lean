import Bis.Relation.Keyed
import Bis.Transition.Run

/-!
The refresh of a browser session. A refresh family is one row with a refresh
token of the identity provider. An exchange leases the row for thirty seconds,
presents the token to the provider, and then rotates the row or revokes it, each
of them a step of its own. Any number of exchanges run on one family, and a lease
may expire at any point of its exchange.

The token is stored encrypted, which nothing here depends on. A lease id is a
random UUID, so no two leases have the same.
-/

namespace Bis.Sessions

open Bis.Relation Bis.Transition

/-! ### The row -/

def leaseTtlMs : Nat := 30000

structure RefreshFamily where
  refreshToken : String
  generation : Nat
  (leaseId leaseExpiresAt : Option Nat)
  expiresAt : Nat
  revokedAt : Option Nat

structure Lease where
  leaseId : Nat
  refreshToken : String

def createRefreshFamily (refreshToken : String) (expiresAt : Nat) : RefreshFamily where
  refreshToken
  generation := 0
  leaseId := none
  leaseExpiresAt := none
  expiresAt
  revokedAt := none

namespace RefreshFamily

/-- One conditional update; without a row it gives no lease. -/
def acquireRefreshLease (family : RefreshFamily) (leaseId now : Nat) :
    Option (RefreshFamily × Lease) :=
  if family.revokedAt.isNone ∧ now < family.expiresAt ∧
      (family.leaseExpiresAt.all fun expiry => decide (expiry < now)) = true then
    some ({ family with leaseId := some leaseId, leaseExpiresAt := some (now + leaseTtlMs) },
      { leaseId, refreshToken := family.refreshToken })
  else none

def rotateRefreshFamily (family : RefreshFamily) (leaseId : Nat) (refreshToken : String)
    (expiresAt : Nat) : Option RefreshFamily :=
  if family.leaseId = some leaseId ∧ family.revokedAt.isNone then
    some
      { refreshToken
        generation := family.generation + 1
        leaseId := none
        leaseExpiresAt := none
        expiresAt
        revokedAt := family.revokedAt }
  else none

/-- Whoever holds the lease. -/
def revokeRefreshFamily (family : RefreshFamily) (now : Nat) : RefreshFamily :=
  { family with leaseId := none, leaseExpiresAt := none, revokedAt := some now }

def revoked (family : RefreshFamily) : Bool := family.revokedAt.isSome

end RefreshFamily

/-! ### The exchanges -/

structure Tokens where
  refreshToken : String
  refreshExpiresIn : Option Nat
  deriving DecidableEq

/-- Why an exchange revokes the family. It does not itself know the cause. -/
inductive Refusal where
  /-- The provider is not configured, so nothing was sent. -/
  | unconfigured
  /-- The provider has refused the token. -/
  | rejected
  /-- No answer in time, a lost connection, or an error of the provider. -/
  | transient
  /-- The new access token is not valid. -/
  | invalidClaims
  deriving DecidableEq

inductive Stage where
  | leased
  /-- The token has been sent. -/
  | waiting
  | answered (tokens : Tokens)
  /-- The claims are valid and the user is written. -/
  | persisted (tokens : Tokens)
  | refused (cause : Refusal)
  | ended
  deriving DecidableEq

def Stage.tokens : Stage → Option Tokens
  | .answered tokens | .persisted tokens => some tokens
  | _ => none

/-- An exchange that has got a lease. -/
structure Exchange extends Lease where
  stage : Stage

structure System where
  family : RefreshFamily
  exchanges : List Exchange
  /-- The leases whose token has been sent to the provider, with the token. -/
  presented : List (Nat × String)
  /-- The tokens that the provider has issued. -/
  issued : List String

def start (refreshToken : String) (expiresAt : Nat) : System where
  family := createRefreshFamily refreshToken expiresAt
  exchanges := []
  presented := []
  issued := [refreshToken]

/-- What `exchangeRefreshToken` comes back with once the token is sent. -/
inductive Answer where
  | tokens (received : Tokens)
  | rejected
  | transient

def Answer.stage : Answer → Stage
  | .tokens received => .answered received
  | .rejected => .refused .rejected
  | .transient => .refused .transient

def Answer.issues : Answer → List String
  | .tokens received => [received.refreshToken]
  | .rejected | .transient => []

inductive Action where
  | unconfigured
  | present
  | answer (received : Answer)
  /-- `verifyKeycloakToken`, and the write of the user where it succeeds. -/
  | verify (valid : Bool)
  | rotate (now : Nat)
  | revoke (now : Nat)
  /-- Also a failed write: the exchange does nothing more. -/
  | crash

inductive Label where
  | acquire (leaseId now : Nat)
  | act (leaseId : Nat) (action : Action)

def Tokens.expiresAt (tokens : Tokens) (now : Nat) : Nat :=
  now + max 60 (tokens.refreshExpiresIn.getD 86400) * 1000

/-- What an exchange does to the row, and where it stands then. -/
def Exchange.advance (family : RefreshFamily) (x : Exchange) :
    Action → Option (RefreshFamily × Stage)
  | .unconfigured => if x.stage = .leased then some (family, .refused .unconfigured) else none
  | .present => if x.stage = .leased then some (family, .waiting) else none
  | .answer received => if x.stage = .waiting then some (family, received.stage) else none
  | .verify valid =>
    match x.stage with
    | .answered tokens =>
      some (family, if valid then .persisted tokens else .refused .invalidClaims)
    | _ => none
  | .rotate now =>
    match x.stage with
    | .persisted tokens =>
      match family.rotateRefreshFamily x.leaseId tokens.refreshToken (tokens.expiresAt now) with
      | some rotated => some (rotated, .ended)
      | none => some (family, .ended)
    | _ => none
  | .revoke now =>
    match x.stage with
    | .refused _ => some (family.revokeRefreshFamily now, .ended)
    | _ => none
  | .crash => some (family, .ended)

def Action.presents (x : Exchange) : Action → List (Nat × String)
  | .present => [(x.leaseId, x.refreshToken)]
  | _ => []

def Action.issues : Action → List String
  | .answer received => received.issues
  | _ => []

def Exchange.id (x : Exchange) : Nat := x.leaseId

namespace System

def acquire (s : System) (leaseId now : Nat) : Option System := do
  if s.exchanges.any fun x => x.id == leaseId then none
  else
    let (family, lease) ← s.family.acquireRefreshLease leaseId now
    some { s with family, exchanges := s.exchanges ++ [{ lease with stage := .leased }] }

def act (s : System) (leaseId : Nat) (action : Action) : Option System := do
  let x ← lookup Exchange.id leaseId s.exchanges
  let (family, stage) ← x.advance s.family action
  some
    { family
      exchanges := upsert Exchange.id { x with stage } s.exchanges
      presented := s.presented ++ action.presents x
      issued := s.issued ++ action.issues }

def step : Step System Label
  | s, .acquire leaseId now => s.acquire leaseId now
  | s, .act leaseId action => s.act leaseId action

end System

end Bis.Sessions
