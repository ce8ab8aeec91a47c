import Bis.Json.Struct

/-!
The verification engine of the gateway, for identity numbers and for sanctions: its own
provider first, then Youverify, and then a result that says that there is none. What a
provider answers is decoded into a struct, in which a member that is missing is empty.

An error of a provider is only logged. Addresses, keys as sent and the requests are left out.
-/

namespace Bis.Verify

open Bis.Json

structure Config where
  (nimcUrl nimcKey ofacUrl ofacKey youverifyApiKey : String)

structure NINResult where
  (nin firstName lastName middleName dob gender phone address state status photo checkedAt : String)
  source : String
  sandbox : Bool
  error : String

structure SanctionHit where
  (list name : String)
  score : Rat
  entityType : String
  programs : List String
  reason : String

structure SanctionsResult where
  queried : String
  hits : List SanctionHit
  clear : Bool
  (checkedAt source : String)
  sandbox : Bool
  error : String

/-- What comes of a request; the body is what it reads as, if it is JSON. -/
inductive Reply where
  | unreachable
  | answered (status : Nat) (body : Option Value)

def Reply.json : Reply → Option Value
  | .unreachable => none
  | .answered status body => if 400 ≤ status then none else body

/-! ### Structs -/

def NINResult.zero : NINResult :=
  ⟨"", "", "", "", "", "", "", "", "", "", "", "", "", false, ""⟩

def ninTags : List String :=
  ["nin", "firstName", "lastName", "middleName", "dob", "gender", "phone", "address", "state",
    "status", "photo", "checkedAt", "source", "sandbox", "error"]

def assignNIN (tag : String) (v : Value) (r : NINResult) : Option NINResult :=
  match tag with
  | "nin" => (goString r.nin v).map fun nin => { r with nin }
  | "firstName" => (goString r.firstName v).map fun firstName => { r with firstName }
  | "lastName" => (goString r.lastName v).map fun lastName => { r with lastName }
  | "middleName" => (goString r.middleName v).map fun middleName => { r with middleName }
  | "dob" => (goString r.dob v).map fun dob => { r with dob }
  | "gender" => (goString r.gender v).map fun gender => { r with gender }
  | "phone" => (goString r.phone v).map fun phone => { r with phone }
  | "address" => (goString r.address v).map fun address => { r with address }
  | "state" => (goString r.state v).map fun state => { r with state }
  | "status" => (goString r.status v).map fun status => { r with status }
  | "photo" => (goString r.photo v).map fun photo => { r with photo }
  | "checkedAt" => (goString r.checkedAt v).map fun checkedAt => { r with checkedAt }
  | "source" => (goString r.source v).map fun source => { r with source }
  | "sandbox" => (goBool r.sandbox v).map fun sandbox => { r with sandbox }
  | _ => (goString r.error v).map fun error => { r with error }

def decodeNIN : Value → Option NINResult := decodeStruct ninTags assignNIN .zero

/-- The person in an answer of Youverify. -/
structure YouverifyPerson where
  (firstName lastName middleName dob gender phone address stateOfOrigin photo : String)

structure YouverifyNIN where
  requestId : String
  data : YouverifyPerson

def personTags : List String :=
  ["firstName", "lastName", "middleName", "dateOfBirth", "gender", "mobile", "address",
    "stateOfOrigin", "photo"]

def assignPerson (tag : String) (v : Value) (p : YouverifyPerson) : Option YouverifyPerson :=
  match tag with
  | "firstName" => (goString p.firstName v).map fun firstName => { p with firstName }
  | "lastName" => (goString p.lastName v).map fun lastName => { p with lastName }
  | "middleName" => (goString p.middleName v).map fun middleName => { p with middleName }
  | "dateOfBirth" => (goString p.dob v).map fun dob => { p with dob }
  | "gender" => (goString p.gender v).map fun gender => { p with gender }
  | "mobile" => (goString p.phone v).map fun phone => { p with phone }
  | "address" => (goString p.address v).map fun address => { p with address }
  | "stateOfOrigin" => (goString p.stateOfOrigin v).map fun stateOfOrigin => { p with stateOfOrigin }
  | _ => (goString p.photo v).map fun photo => { p with photo }

def youverifyTags : List String := ["requestID", "data"]

def assignYouverifyNIN (tag : String) (v : Value) (r : YouverifyNIN) : Option YouverifyNIN :=
  match tag with
  | "requestID" => (goString r.requestId v).map fun requestId => { r with requestId }
  | _ => (decodeStruct personTags assignPerson r.data v).map fun data => { r with data }

def decodeYouverifyNIN : Value → Option YouverifyNIN :=
  decodeStruct youverifyTags assignYouverifyNIN ⟨"", "", "", "", "", "", "", "", "", ""⟩

/-- A slice of structs; `null` is the one that is not there. -/
def goSlice {α : Type*} (decode : Value → Option α) : Value → Option (Option (List α))
  | .null => some none
  | .array items => (items.mapM decode).map some
  | _ => none

def assignHit (tag : String) (v : Value) (h : SanctionHit) : Option SanctionHit :=
  match tag with
  | "list" => (goString h.list v).map fun list => { h with list }
  | "name" => (goString h.name v).map fun name => { h with name }
  | "score" => (goFloat64 h.score v).map fun score => { h with score }
  | "entityType" => (goString h.entityType v).map fun entityType => { h with entityType }
  | "programs" => (goStrings v).map fun programs => { h with programs }
  | _ => (goString h.reason v).map fun reason => { h with reason }

def decodeHit : Value → Option SanctionHit :=
  decodeStruct ["list", "name", "score", "entityType", "programs", "reason"] assignHit
    ⟨"", "", 0, "", [], ""⟩

def SanctionsResult.zero : SanctionsResult := ⟨"", [], false, "", "", false, ""⟩

def sanctionsTags : List String :=
  ["queried", "hits", "clear", "checkedAt", "source", "sandbox", "error"]

def assignSanctions (tag : String) (v : Value) (r : SanctionsResult) : Option SanctionsResult :=
  match tag with
  | "queried" => (goString r.queried v).map fun queried => { r with queried }
  | "hits" => (goSlice decodeHit v).map fun hits => { r with hits := hits.getD [] }
  | "clear" => (goBool r.clear v).map fun clear => { r with clear }
  | "checkedAt" => (goString r.checkedAt v).map fun checkedAt => { r with checkedAt }
  | "source" => (goString r.source v).map fun source => { r with source }
  | "sandbox" => (goBool r.sandbox v).map fun sandbox => { r with sandbox }
  | _ => (goString r.error v).map fun error => { r with error }

def decodeSanctions : Value → Option SanctionsResult :=
  decodeStruct sanctionsTags assignSanctions .zero

/-- The names that Youverify has for the fields of a hit. -/
def assignYouverifyHit (tag : String) (v : Value) (h : SanctionHit) : Option SanctionHit :=
  match tag with
  | "listName" => (goString h.list v).map fun list => { h with list }
  | "fullName" => (goString h.name v).map fun name => { h with name }
  | "matchScore" => (goFloat64 h.score v).map fun score => { h with score }
  | "entityType" => (goString h.entityType v).map fun entityType => { h with entityType }
  | "programs" => (goStrings v).map fun programs => { h with programs }
  | _ => (goString h.reason v).map fun reason => { h with reason }

def decodeYouverifyHit : Value → Option SanctionHit :=
  decodeStruct ["listName", "fullName", "matchScore", "entityType", "programs", "reason"]
    assignYouverifyHit ⟨"", "", 0, "", [], ""⟩

/-- The hits in the `data` of an answer, if there are any written down. -/
abbrev YouverifyHits := Option (List SanctionHit)

def assignHits (_tag : String) (v : Value) (_hits : YouverifyHits) : Option YouverifyHits :=
  goSlice decodeYouverifyHit v

def assignScreening (_tag : String) (v : Value) (hits : YouverifyHits) : Option YouverifyHits :=
  decodeStruct ["hits"] assignHits hits v

def decodeYouverifySanctions : Value → Option YouverifyHits :=
  decodeStruct ["data"] assignScreening none

/-! ### Providers -/

def youverifyPost (cfg : Config) (reply : Reply) : Option Value :=
  if cfg.youverifyApiKey = "" then none else reply.json

def ownNIN (now : String) (reply : Reply) : Option NINResult :=
  (reply.json.bind decodeNIN).map fun r =>
    { r with source := "own", sandbox := false, checkedAt := now }

def youverifyNIN (cfg : Config) (nin now : String) (reply : Reply) : Option NINResult :=
  ((youverifyPost cfg reply).bind decodeYouverifyNIN).map fun resp =>
    { nin
      firstName := resp.data.firstName
      lastName := resp.data.lastName
      middleName := resp.data.middleName
      dob := resp.data.dob
      gender := resp.data.gender
      phone := resp.data.phone
      address := resp.data.address
      state := resp.data.stateOfOrigin
      photo := resp.data.photo
      status := "VERIFIED"
      checkedAt := now
      source := "youverify"
      sandbox := false
      error := "" }

def ownSanctions (now : String) (reply : Reply) : Option SanctionsResult :=
  (reply.json.bind decodeSanctions).map fun r =>
    { r with source := "own", sandbox := false, checkedAt := now }

def youverifySanctions (cfg : Config) (name now : String) (reply : Reply) :
    Option SanctionsResult :=
  ((youverifyPost cfg reply).bind decodeYouverifySanctions).map fun hits =>
    { queried := name
      hits := hits.getD []
      clear := (hits.getD []).isEmpty
      checkedAt := now
      source := "youverify"
      sandbox := false
      error := "" }

/-! ### Chains -/

def Config.hasNIMC (cfg : Config) : Bool := cfg.nimcUrl != "" && cfg.nimcKey != ""

def Config.hasOFAC (cfg : Config) : Bool := cfg.ofacUrl != "" && cfg.ofacKey != ""

/-- What the own provider answers, and what Youverify does where it is asked. -/
structure Replies where
  (own youverify : Reply)

def lookupNIN (cfg : Config) (nin now : String) (replies : Replies) : NINResult :=
  match if cfg.hasNIMC then ownNIN now replies.own else none with
  | some result => result
  | none =>
    (youverifyNIN cfg nin now replies.youverify).getD
      { NINResult.zero with
        nin
        status := "UNAVAILABLE"
        checkedAt := now
        source := "unavailable"
        error := "No configured NIN provider returned a verification result." }

def checkSanctions (cfg : Config) (name now : String) (replies : Replies) : SanctionsResult :=
  match if cfg.hasOFAC then ownSanctions now replies.own else none with
  | some result => result
  | none =>
    (youverifySanctions cfg name now replies.youverify).getD
      { SanctionsResult.zero with
        queried := name
        clear := false
        checkedAt := now
        source := "unavailable"
        error := "No configured sanctions provider returned a screening result." }

end Bis.Verify
