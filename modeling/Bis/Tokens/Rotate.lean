import Bis.Relation.Keyed
import Bis.Transition.Run

/-!
API tokens, with the calls that rotate and revoke them. `rotate` reads the token, sets it
inactive and inserts a new one with its settings; `revoke` reads it and sets it inactive.
Each statement is a step of its own, so any number of calls may meet, and a call may be
lost between two of them.

A token keeps which token it was made from, and whether that one had been revoked by then.
Neither is in the database.
-/

namespace Bis.Tokens

open Bis.Relation Bis.Transition

/-- A row of `api_tokens`. -/
structure ApiToken where
  id : Nat
  tenantId : Option Nat
  (name pre tokenHash : String)
  scopes : List String
  rateLimit : Nat
  tokenQuota : Option Nat
  expiresAt : Option String
  active : Bool
  (createdBy rotatedFrom : Option Nat)
  afterRevocation : Bool

structure User where
  id : Nat
  isAdmin : Bool

structure CreateInput where
  name : String
  tenantId : Option Nat
  scopes : List String
  rateLimit : Nat
  expiresAt : Option String

structure Generated where
  (token pre : String)

/-- The token made of 64 random hexadecimal digits. -/
def generateToken (raw : String) : Generated :=
  let pre := "bisk_live_" ++ String.ofList (raw.toList.take 8)
  { token := pre ++ "_" ++ String.ofList (raw.toList.drop 8), pre }

inductive Procedure where
  | rotate
  | revoke

inductive Stage where
  | selecting
  | updating (existing : ApiToken) (generated : Generated)
  | inserting (existing : ApiToken) (generated : Generated)

structure Call where
  id : Nat
  procedure : Procedure
  tokenId : Nat
  user : User
  stage : Stage

inductive Reply where
  | error (message : String)
  | rotated (token : String) (id : Nat) (pre : String)
  | revoked

structure System where
  tokens : List ApiToken
  nextId : Nat
  calls : List Call
  replies : List (Nat × Reply)
  /-- The tokens that a `revoke` has set inactive. -/
  revoked : List Nat

def System.empty : System := ⟨[], 1, [], [], []⟩

inductive Label where
  | create (user : User) (input : CreateInput) (raw : String)
  | start (id : Nat) (procedure : Procedure) (tokenId : Nat) (user : User)
  | select (id : Nat) (raw : String)
  | update (id : Nat)
  | insert (id : Nat)
  /-- A statement fails, or the server stops. -/
  | lose (id : Nat)

def Procedure.forbidden : Procedure → String
  | rotate => "Forbidden"
  | revoke => "Forbidden: you cannot revoke this token"

/-- `existing.createdBy !== ctx.user.id && ctx.user.role !== "admin"`, the other way round. -/
def User.mayChange (user : User) (existing : ApiToken) : Bool :=
  existing.createdBy == some user.id || user.isAdmin

namespace System

def drop (s : System) (id : Nat) : System :=
  { s with calls := s.calls.filter fun call => call.id != id }

def reply (s : System) (id : Nat) (reply : Reply) : System :=
  { s.drop id with replies := s.replies ++ [(id, reply)] }

def goOn (s : System) (call : Call) (stage : Stage) : System :=
  { s with calls := upsert Call.id { call with stage } s.calls }

/-- The hash of a token is unique. -/
def isTaken (s : System) (tokenHash : String) : Bool :=
  s.tokens.any fun row => row.tokenHash == tokenHash

def insertToken (s : System) (values : ApiToken) : System :=
  { s with tokens := s.tokens ++ [{ values with id := s.nextId }], nextId := s.nextId + 1 }

def select (s : System) (call : Call) (raw : String) : System :=
  match lookup ApiToken.id call.tokenId s.tokens with
  | none => s.reply call.id (.error "Token not found")
  | some existing =>
    if call.user.mayChange existing then s.goOn call (.updating existing (generateToken raw))
    else s.reply call.id (.error call.procedure.forbidden)

def setInactive (s : System) (id : Nat) : System :=
  { s with
    tokens := updateWhere (fun row => row.id == id) (fun row => { row with active := false })
      s.tokens }

def update (s : System) (call : Call) (existing : ApiToken) (generated : Generated) : System :=
  match call.procedure with
  | .rotate => (s.setInactive call.tokenId).goOn call (.inserting existing generated)
  | .revoke =>
    { s.setInactive call.tokenId with revoked := s.revoked ++ [call.tokenId] }.reply call.id
      .revoked

/-- The row that a rotation inserts. -/
def successor (s : System) (hashToken : String → String) (call : Call) (existing : ApiToken)
    (generated : Generated) : ApiToken :=
  { existing with
    pre := generated.pre
    tokenHash := hashToken generated.token
    active := true
    createdBy := some call.user.id
    rotatedFrom := some call.tokenId
    afterRevocation := decide (call.tokenId ∈ s.revoked) }

def insert (hashToken : String → String) (s : System) (call : Call) (existing : ApiToken)
    (generated : Generated) : System :=
  if s.isTaken (hashToken generated.token) then s.reply call.id (.error "duplicate key")
  else (s.insertToken (s.successor hashToken call existing generated)).reply call.id
    (.rotated generated.token s.nextId generated.pre)

def create (hashToken : String → String) (s : System) (user : User) (input : CreateInput)
    (raw : String) : Option System :=
  let generated := generateToken raw
  if s.isTaken (hashToken generated.token) then none
  else some (s.insertToken
    { id := s.nextId
      tenantId := input.tenantId
      name := input.name
      pre := generated.pre
      tokenHash := hashToken generated.token
      scopes := input.scopes
      rateLimit := input.rateLimit
      tokenQuota := none
      expiresAt := input.expiresAt
      active := true
      createdBy := some user.id
      rotatedFrom := none
      afterRevocation := false })

def step (hashToken : String → String) : Step System Label
  | s, .create user input raw => s.create hashToken user input raw
  | s, .start id procedure tokenId user =>
    if s.calls.any fun call => call.id == id then none
    else some { s with calls := s.calls ++ [⟨id, procedure, tokenId, user, .selecting⟩] }
  | s, .select id raw =>
    match lookup Call.id id s.calls with
    | some ⟨_, procedure, tokenId, user, .selecting⟩ =>
      some (s.select ⟨id, procedure, tokenId, user, .selecting⟩ raw)
    | _ => none
  | s, .update id =>
    match lookup Call.id id s.calls with
    | some ⟨_, procedure, tokenId, user, .updating existing generated⟩ =>
      some (s.update ⟨id, procedure, tokenId, user, .updating existing generated⟩ existing
        generated)
    | _ => none
  | s, .insert id =>
    match lookup Call.id id s.calls with
    | some ⟨_, procedure, tokenId, user, .inserting existing generated⟩ =>
      some (s.insert hashToken ⟨id, procedure, tokenId, user, .inserting existing generated⟩
        existing generated)
    | _ => none
  | s, .lose id => some (s.drop id)

/-- The active tokens that the token has been rotated to. -/
def successorCount (s : System) (id : Nat) : Nat :=
  s.tokens.countP fun row => row.active && row.rotatedFrom == some id

end System

/-- A rotated token has one active successor at most, and is not active beside it; a token
that is revoked is not rotated to a new one any more. -/
structure System.Lawful (s : System) : Prop where
  one : ∀ id, s.successorCount id ≤ 1
  replaced : ∀ id, 0 < s.successorCount id → ∀ row ∈ s.tokens, row.id = id → row.active = false
  revoked : ∀ row ∈ s.tokens, row.afterRevocation = false

/-- A rotation inserts where the token has no active successor and has not been revoked. -/
def System.isUnrotated (hashToken : String → String) (s : System) : Label → Bool
  | .insert id =>
    match lookup Call.id id s.calls with
    | some ⟨_, _, tokenId, _, .inserting _ generated⟩ =>
      s.isTaken (hashToken generated.token) ||
        (s.successorCount tokenId == 0 && !decide (tokenId ∈ s.revoked))
    | _ => true
  | _ => true

end Bis.Tokens
