/- module: JitaCart/Schema
   source: backend/migrations/20260427000000_init.sql, backend/crates/domain/src/lib.rs,
     backend/crates/api/src/errors.rs
   digest: Enumerations, rows and tables of the database, and the errors of a request. -/

import JitaCart.Base.Table
import JitaCart.Base.Numeric

/-!
Rows keep the columns that the list, claim, fulfillment, reimbursement and
contract functions read or decide on. Display names, notes on lists and claims,
estimates, notification queue and row timestamps that nothing reads are left out.

Amounts of ISK are in hundredths, the unit of every `numeric(_, 2)` column.
A `gen_random_uuid()` value is an argument of the request that inserts the row,
and an insert under a used primary key fails, so runs range over every choice of ids.
-/

set_option autoImplicit false
set_option relaxedAutoImplicit false

namespace JitaCart.Schema

open Base.Table (lookup)

abbrev Uuid := Nat

/-- Instants; only their order is used. -/
abbrev Timestamp := Nat

/-- Hundredths of an ISK. -/
abbrev Cents := Int

inductive GroupRole
  | owner | member
  deriving DecidableEq

inductive ListStatus
  | «open» | closed | archived
  deriving DecidableEq

inductive ListItemStatus
  | «open» | claimed | bought | delivered | settled
  deriving DecidableEq

inductive ClaimStatus
  | active | released | completed
  deriving DecidableEq

inductive ReimbursementStatus
  | pending | settled | cancelled
  deriving DecidableEq

inductive ContractType
  | itemExchange | auction | courier | unknown
  deriving DecidableEq

inductive ContractStatus
  | outstanding | inProgress | finishedIssuer | finishedContractor | finished
  | cancelled | rejected | failed | deleted | reversed
  deriving DecidableEq

inductive ContractMatchState
  | pending | confirmed | rejected | superseded
  deriving DecidableEq

namespace ContractStatus

def isTerminalSuccess : ContractStatus → Bool
  | finished | finishedIssuer | finishedContractor => true
  | _ => false

def isTerminalFailure : ContractStatus → Bool
  | cancelled | rejected | failed | deleted | reversed => true
  | _ => false

end ContractStatus

instance : ToString ListStatus where
  toString
    | .open => "open"
    | .closed => "closed"
    | .archived => "archived"

instance : ToString ListItemStatus where
  toString
    | .open => "open"
    | .claimed => "claimed"
    | .bought => "bought"
    | .delivered => "delivered"
    | .settled => "settled"

instance : ToString ClaimStatus where
  toString
    | .active => "active"
    | .released => "released"
    | .completed => "completed"

instance : ToString ReimbursementStatus where
  toString
    | .pending => "pending"
    | .settled => "settled"
    | .cancelled => "cancelled"

instance : ToString ContractType where
  toString
    | .itemExchange => "item_exchange"
    | .auction => "auction"
    | .courier => "courier"
    | .unknown => "unknown"

instance : ToString ContractMatchState where
  toString
    | .pending => "pending"
    | .confirmed => "confirmed"
    | .rejected => "rejected"
    | .superseded => "superseded"

inductive ApiError
  | badRequest (message : String)
  | forbidden (message : String)
  | notFound (message : String)
  | conflict (message : String)
  | quotaExceeded (message : String)
  | internal (cause : String)
  deriving DecidableEq

namespace ApiError

/-- `ApiError::forbidden()`. -/
def noAccess : ApiError := .forbidden "you cannot perform this action"

/-- `ApiError::not_found()`. -/
def missing : ApiError := .notFound "not found"

end ApiError

/-- Failures the database itself reports; a handler turns them into `internal`. -/
inductive DbError
  | duplicateKey | numericOverflow | bigintOutOfRange | checkViolation
  | columnDecode (index : Nat) (sqlType : String)
  deriving DecidableEq

def DbError.toApi : DbError → ApiError
  | .duplicateKey => .internal "duplicate key value violates unique constraint"
  | .numericOverflow => .internal "numeric field overflow"
  | .bigintOutOfRange => .internal "bigint out of range"
  | .checkViolation => .internal "violates check constraint"
  | .columnDecode index sqlType => .internal
    (s!"error occurred while decoding column {index}: mismatched types; Rust type `String` " ++
      s!"(as SQL type `TEXT`) is not compatible with SQL type `{sqlType}`")

/-- The type of a column that a query reads into a `String`. -/
inductive ColumnType
  | text
  | enum (name : String)
  deriving DecidableEq

/-- `try_get` of a `String`. The driver takes only the text types for one: an enum of the schema is
refused, whatever its value. -/
def tryGetString (index : Nat) (value : String) : ColumnType → Except DbError String
  | .text => .ok value
  | .enum name => .error (.columnDecode index name)

/-- The row check of `principals`: exactly one of user and corp, agreeing with `kind`. -/
inductive PrincipalOwner
  | user (userId : Uuid)
  | corp (corpId : Uuid)
  deriving DecidableEq

structure Principal where
  id : Uuid
  owner : PrincipalOwner
  deriving DecidableEq

structure Group where
  id : Uuid
  defaultTipPct : ℚ
  deriving DecidableEq

structure GroupMembership where
  userId : Uuid
  groupId : Uuid
  role : GroupRole
  deriving DecidableEq

structure GroupCorp where
  groupId : Uuid
  corpId : Uuid
  unlinkedAt : Option Timestamp
  deriving DecidableEq

structure Character where
  id : Uuid
  userId : Uuid
  deriving DecidableEq

structure CorpAmbassador where
  corpId : Uuid
  characterId : Uuid
  disabledAt : Option Timestamp
  deriving DecidableEq

/-- The tables that list, claim, fulfillment and contract requests only read. -/
structure Directory where
  principals : List Principal := []
  groups : List Group := []
  groupMemberships : List GroupMembership := []
  groupCorps : List GroupCorp := []
  characters : List Character := []
  corpAmbassadors : List CorpAmbassador := []
  markets : List Uuid := []
  deriving DecidableEq

/-- `lists_payer_both_or_neither`: corp and division are set together. -/
structure Payer where
  corpId : Uuid
  division : Int
  deriving DecidableEq

structure ListRow where
  id : Uuid
  groupId : Uuid
  createdByUserId : Uuid
  status : ListStatus
  tipPct : ℚ
  payer : Option Payer
  deriving DecidableEq

structure ListItem where
  id : Uuid
  listId : Uuid
  typeId : Int
  typeName : String
  qtyRequested : Int
  qtyFulfilled : Int
  requestedByUserId : Uuid
  status : ListItemStatus
  sourceLineNo : Int
  deriving DecidableEq

structure Claim where
  id : Uuid
  listId : Uuid
  haulerUserId : Uuid
  status : ClaimStatus
  deriving DecidableEq

structure ClaimItem where
  claimId : Uuid
  listItemId : Uuid
  active : Bool
  deriving DecidableEq

structure Fulfillment where
  id : Uuid
  listItemId : Uuid
  claimId : Option Uuid
  haulerUserId : Uuid
  haulerCharacterId : Option Uuid
  qty : Int
  unitPriceIsk : Cents
  boughtAtMarketId : Option Uuid
  boughtAtNote : Option String
  boughtAt : Timestamp
  reversedAt : Option Timestamp
  deriving DecidableEq

structure Contract where
  id : Uuid
  esiContractId : Int
  issuerUserId : Option Uuid
  issuerPrincipalId : Option Uuid
  assigneeUserId : Option Uuid
  assigneePrincipalId : Option Uuid
  contractType : ContractType
  status : ContractStatus
  priceIsk : Cents
  expectedTotalIsk : Option Cents
  settlementDeltaIsk : Option Cents
  dateCompleted : Option Timestamp
  itemsSyncedAt : Option Timestamp
  sourceCorpId : Option Uuid
  deriving DecidableEq

structure ContractItem where
  contractId : Uuid
  recordId : Int
  typeId : Int
  quantity : Int
  isIncluded : Bool
  deriving DecidableEq

structure Reimbursement where
  id : Uuid
  listId : Uuid
  requesterUserId : Option Uuid
  requesterPrincipalId : Uuid
  haulerUserId : Uuid
  haulerPrincipalId : Uuid
  subtotalIsk : Cents
  tipIsk : Cents
  totalIsk : Cents
  status : ReimbursementStatus
  settledAt : Option Timestamp
  settledByUserId : Option Uuid
  contractId : Option Uuid
  isCorpFunded : Bool
  deriving DecidableEq

structure Suggestion where
  id : Uuid
  contractId : Uuid
  reimbursementId : Uuid
  score : ℚ
  exactMatch : Bool
  state : ContractMatchState
  deriving DecidableEq

structure Db where
  directory : Directory := {}
  lists : List ListRow := []
  listItems : List ListItem := []
  claims : List Claim := []
  claimItems : List ClaimItem := []
  fulfillments : List Fulfillment := []
  contracts : List Contract := []
  contractItems : List ContractItem := []
  reimbursements : List Reimbursement := []
  suggestions : List Suggestion := []
  deriving DecidableEq

/-- A fulfillment counts until it is reversed. -/
def Fulfillment.live (f : Fulfillment) : Bool := f.reversedAt.isNone

/-- `f.qty * f.unit_price_isk`. -/
def Fulfillment.cost (f : Fulfillment) : Cents := f.qty * f.unitPriceIsk

namespace Directory

def roleOf (d : Directory) (userId groupId : Uuid) : Option GroupRole :=
  (d.groupMemberships.find? fun m => m.userId = userId ∧ m.groupId = groupId).map (·.role)

/-- `SELECT id FROM principals WHERE kind = 'user' AND user_id = $1`. -/
def userPrincipal (d : Directory) (userId : Uuid) : Option Uuid :=
  (lookup Principal.owner (.user userId) d.principals).map (·.id)

/-- `SELECT id FROM principals WHERE kind = 'corp' AND corp_id = $1`. -/
def corpPrincipal (d : Directory) (corpId : Uuid) : Option Uuid :=
  (lookup Principal.owner (.corp corpId) d.principals).map (·.id)

/-- `user_id` of the row `id = $1 AND kind = 'user'`. -/
def principalUser (d : Directory) (principalId : Uuid) : Option Uuid :=
  match lookup Principal.id principalId d.principals with
  | some ⟨_, .user u⟩ => some u
  | _ => none

/-- The requester principal of a list: the payer corp, or the item requester on a personal list. -/
def requesterPrincipal (d : Directory) (payer : Option Payer) (requesterUserId : Uuid) :
    Option Uuid :=
  match payer with
  | none => d.userPrincipal requesterUserId
  | some p => d.corpPrincipal p.corpId

end Directory

namespace Db

def list? (s : Db) (id : Uuid) : Option ListRow := lookup ListRow.id id s.lists

def item? (s : Db) (id : Uuid) : Option ListItem := lookup ListItem.id id s.listItems

def claim? (s : Db) (id : Uuid) : Option Claim := lookup Claim.id id s.claims

def fulfillment? (s : Db) (id : Uuid) : Option Fulfillment :=
  lookup Fulfillment.id id s.fulfillments

def contract? (s : Db) (id : Uuid) : Option Contract := lookup Contract.id id s.contracts

def reimbursement? (s : Db) (id : Uuid) : Option Reimbursement :=
  lookup Reimbursement.id id s.reimbursements

def suggestion? (s : Db) (id : Uuid) : Option Suggestion := lookup Suggestion.id id s.suggestions

end Db

end JitaCart.Schema
