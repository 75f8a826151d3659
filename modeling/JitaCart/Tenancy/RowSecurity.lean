/- module: JitaCart/Tenancy/RowSecurity
   source: backend/migrations/20260427000000_init.sql (row-level security),
     backend/migrations/20260514000000_backup_role_and_scoped_grants.sql
   digest: The policies of the tenant tables, and what any statement of the api role does. -/

import JitaCart.Base.Cascade
import JitaCart.Base.Request
import JitaCart.Base.Table
import JitaCart.Schema

/-!
The api role may execute any statement. The columns that the policies, the foreign
keys between the tenant tables and the trigger on claims read are named; `rest`
stands for the other columns. The keys of the shared tables are never deleted or
changed under the api role while something refers to them, but for those of groups.
-/

set_option autoImplicit false
set_option relaxedAutoImplicit false

namespace JitaCart.Tenancy.RowSecurity

open Schema Base.Table Base.Request Base.Cascade

inductive Table
  | groupMemberships | lists | groupCorps | groupDiscordWebhooks | groupTrackedMarkets
  | pendingWebhooks | listItems | listMarkets | claims | reimbursements | claimItems
  | fulfillments | contractMatchSuggestions | corpAmbassadors | corpWalletDivisions
  | corpWalletJournal | contracts | contractItems
  deriving DecidableEq

inductive Row (V : Type)
  | groupMembership (userId groupId : Uuid) (rest : V)
  | list (id groupId : Uuid) (rest : V)
  | groupCorp (groupId corpId : Uuid) (unlinked : Bool) (rest : V)
  | discordWebhook (groupId : Uuid) (rest : V)
  | trackedMarket (groupId marketId : Uuid) (rest : V)
  | pendingWebhook (id groupId : Uuid) (rest : V)
  | listItem (id listId : Uuid) (rest : V)
  | listMarket (listId marketId : Uuid) (rest : V)
  | claim (id listId : Uuid) (active : Bool) (rest : V)
  | reimbursement (id listId : Uuid) (rest : V)
  | claimItem (claimId listItemId : Uuid) (active : Bool) (rest : V)
  | fulfillment (id listItemId : Uuid) (claimId : Option Uuid) (rest : V)
  | suggestion (id contractId reimbursementId : Uuid) (rest : V)
  | ambassador (corpId characterId : Uuid) (contributedVia : Option Uuid) (rest : V)
  | walletDivision (corpId : Uuid) (division : Nat) (rest : V)
  | walletJournal (id corpId : Uuid) (rest : V)
  | contract (id : Uuid) (issuer assignee sourceCorp : Option Uuid) (rest : V)
  | contractItem (contractId : Uuid) (recordId : Nat) (rest : V)
  deriving DecidableEq

variable {V : Type}

namespace Row

def table : Row V → Table
  | groupMembership .. => .groupMemberships
  | list .. => .lists
  | groupCorp .. => .groupCorps
  | discordWebhook .. => .groupDiscordWebhooks
  | trackedMarket .. => .groupTrackedMarkets
  | pendingWebhook .. => .pendingWebhooks
  | listItem .. => .listItems
  | listMarket .. => .listMarkets
  | claim .. => .claims
  | reimbursement .. => .reimbursements
  | claimItem .. => .claimItems
  | fulfillment .. => .fulfillments
  | suggestion .. => .contractMatchSuggestions
  | ambassador .. => .corpAmbassadors
  | walletDivision .. => .corpWalletDivisions
  | walletJournal .. => .corpWalletJournal
  | contract .. => .contracts
  | contractItem .. => .contractItems

def key : Row V → Table × Nat × Nat
  | groupMembership userId groupId _ => (.groupMemberships, userId, groupId)
  | list id _ _ => (.lists, id, 0)
  | groupCorp groupId corpId _ _ => (.groupCorps, groupId, corpId)
  | discordWebhook groupId _ => (.groupDiscordWebhooks, groupId, 0)
  | trackedMarket groupId marketId _ => (.groupTrackedMarkets, groupId, marketId)
  | pendingWebhook id _ _ => (.pendingWebhooks, id, 0)
  | listItem id _ _ => (.listItems, id, 0)
  | listMarket listId marketId _ => (.listMarkets, listId, marketId)
  | claim id _ _ _ => (.claims, id, 0)
  | reimbursement id _ _ => (.reimbursements, id, 0)
  | claimItem claimId listItemId _ _ => (.claimItems, claimId, listItemId)
  | fulfillment id _ _ _ => (.fulfillments, id, 0)
  | suggestion id _ _ _ => (.contractMatchSuggestions, id, 0)
  | ambassador corpId characterId _ _ => (.corpAmbassadors, corpId, characterId)
  | walletDivision corpId division _ => (.corpWalletDivisions, corpId, division)
  | walletJournal id _ _ => (.corpWalletJournal, id, 0)
  | contract id _ _ _ _ => (.contracts, id, 0)
  | contractItem contractId recordId _ => (.contractItems, contractId, recordId)

/-- The column `group_id` of the tables that have it `ON DELETE CASCADE`. -/
def groupId? : Row V → Option Uuid
  | groupMembership _ groupId _ | list _ groupId _ | groupCorp groupId _ _ _
  | discordWebhook groupId _ | trackedMarket groupId _ _ | pendingWebhook _ groupId _ =>
    some groupId
  | _ => none

/-- The first row refers to the second one, `ON DELETE CASCADE`. -/
def dependsOn : Row V → Row V → Bool
  | listItem _ listId _, list id _ _ | listMarket listId _ _, list id _ _
  | claim _ listId _ _, list id _ _ | reimbursement _ listId _, list id _ _ =>
    decide (listId = id)
  | claimItem claimId _ _ _, claim id _ _ _ => decide (claimId = id)
  | claimItem _ itemId _ _, listItem id _ _ => decide (itemId = id)
  | fulfillment _ itemId _ _, listItem id _ _ => decide (itemId = id)
  | suggestion _ _ reimbursementId _, reimbursement id _ _ => decide (reimbursementId = id)
  | suggestion _ contractId _ _, contract id _ _ _ _ => decide (contractId = id)
  | contractItem contractId _ _, contract id _ _ _ _ => decide (contractId = id)
  | _, _ => false

end Row

section Policies
variable (db : List (Row V)) (user : Option Uuid)

def isGroupMember (groupId : Uuid) : Bool :=
  db.any fun
    | .groupMembership u g _ => decide (some u = user) && decide (g = groupId)
    | _ => false

def isListMember (listId : Uuid) : Bool :=
  db.any fun
    | .list id groupId _ => decide (id = listId) && isGroupMember db user groupId
    | _ => false

def isCorpMember (corpId : Uuid) : Bool :=
  db.any fun
    | .groupCorp groupId c unlinked _ =>
      decide (c = corpId) && !unlinked && isGroupMember db user groupId
    | _ => false

/-- The policy of `contracts`; a missing user is nobody's. -/
def isParty (issuer assignee sourceCorp : Option Uuid) : Bool :=
  (user.isSome && (decide (issuer = user) || decide (assignee = user))) ||
    sourceCorp.any (isCorpMember db user)

/-- `USING`, and `WITH CHECK`, which is the same on every table. A policy that reads another table
sees its rows under that table's own policy. -/
def permits : Row V → Bool
  | .list _ groupId _ | .groupCorp groupId _ _ _ | .discordWebhook groupId _
  | .trackedMarket groupId _ _ | .pendingWebhook _ groupId _ => isGroupMember db user groupId
  | .listItem _ listId _ | .listMarket listId _ _ | .claim _ listId _ _
  | .reimbursement _ listId _ => isListMember db user listId
  | .claimItem claimId _ _ _ => db.any fun
    | .claim id listId _ _ => decide (id = claimId) && isListMember db user listId
    | _ => false
  | .fulfillment _ listItemId _ _ => db.any fun
    | .listItem id listId _ => decide (id = listItemId) && isListMember db user listId
    | _ => false
  | .suggestion _ _ reimbursementId _ => db.any fun
    | .reimbursement id listId _ => decide (id = reimbursementId) && isListMember db user listId
    | _ => false
  | .ambassador corpId _ _ _ | .walletDivision corpId _ _ | .walletJournal _ corpId _ =>
    isCorpMember db user corpId
  | .contract _ issuer assignee sourceCorp _ => isParty db user issuer assignee sourceCorp
  | .contractItem contractId _ _ => db.any fun
    | .contract id issuer assignee sourceCorp _ =>
      decide (id = contractId) && isParty db user issuer assignee sourceCorp
    | _ => false
  | .groupMembership u groupId _ => decide (some u = user) || isGroupMember db user groupId

end Policies

/-- `GRANT DELETE … TO jitacart_app`, on the tables with row-level security. -/
def deletable : Table → Bool
  | .groupMemberships | .groupTrackedMarkets | .groupDiscordWebhooks | .lists | .listMarkets
  | .listItems | .claimItems => true
  | _ => false

/-- A statement with the rows that its condition selects. `groups` has no row-level security. -/
inductive Statement (V : Type)
  | insert (row : Row V)
  | update (table : Table) (selects : Row V → Bool) (set : Row V → Row V)
  | delete (table : Table) (selects : Row V → Bool)
  | deleteGroups (selects : Uuid → Bool)

variable (accepts : List (Row V) → Bool) (user : Option Uuid) (db : List (Row V))

/-- The rows of a table that the session sees. -/
def select (table : Table) (selects : Row V → Bool) : List (Row V) :=
  db.filter fun r => decide (r.table = table) && permits db user r && selects r

def targets (table : Table) (selects : Row V → Bool) (r : Row V) : Bool :=
  decide (r.table = table) && permits db user r && selects r

/-- The new status of the claim under this id, when an update has changed it. -/
def toggled (updates : Row V → Bool) (set : Row V → Row V) (claimId : Uuid) : Option Bool :=
  db.findSome? fun r =>
    if updates r then
      match r, set r with
      | .claim _ _ old _, .claim id _ new _ =>
        if id = claimId ∧ old ≠ new then some new else none
      | _, _ => none
    else none

/-- The trigger `claims_sync_items`, which is not a security definer. -/
def syncClaimItems (updates : Row V → Bool) (set : Row V → Row V) (changed : List (Row V)) :
    List (Row V) :=
  changed.map fun r =>
    match r with
    | .claimItem claimId itemId active rest =>
      match toggled db updates set claimId with
      | some now =>
        if permits changed user (.claimItem claimId itemId active rest) then
          .claimItem claimId itemId now rest
        else .claimItem claimId itemId active rest
      | none => .claimItem claimId itemId active rest
    | other => other

/-- `ON DELETE SET NULL`. -/
def unlink (gone : Row V → Bool) (goneGroup : Uuid → Bool) : Row V → Row V
  | .fulfillment id itemId (some claimId) rest =>
    if db.any fun
      | .claim i l a v => decide (i = claimId) && gone (.claim i l a v)
      | _ => false
    then .fulfillment id itemId none rest
    else .fulfillment id itemId (some claimId) rest
  | .ambassador corpId characterId (some groupId) rest =>
    if goneGroup groupId then .ambassador corpId characterId none rest
    else .ambassador corpId characterId (some groupId) rest
  | r => r

/-- What is left when these rows and groups are deleted. -/
def remove (gone : Row V → Bool) (goneGroup : Uuid → Bool) : List (Row V) :=
  let all := swept Row.dependsOn db 2 gone
  (db.filter fun r => !all r).map (unlink db all goneGroup)

/-- `accepts` stands for the other constraints of the schema. -/
def exec : Statement V → Except Unit (List (Row V))
  | .insert row => do
    require (permits db user row = true) ()
    let db' := db ++ [row]
    require (Keyed Row.key db' ∧ accepts db' = true) ()
    .ok db'
  | .update table selects set => do
    let updates := targets user db table selects
    require (∀ r ∈ db, updates r = true →
      (set r).table = table ∧ permits db user (set r) = true) ()
    let changed := updateWhere updates set db
    require (Keyed Row.key changed) ()
    let db' := syncClaimItems user db updates set changed
    require (accepts db' = true) ()
    .ok db'
  | .delete table selects => do
    require (deletable table = true) ()
    let db' := remove db (targets user db table selects) fun _ => false
    require (accepts db' = true) ()
    .ok db'
  | .deleteGroups selects => do
    let db' := remove db (fun r => r.groupId?.any selects) selects
    require (accepts db' = true) ()
    .ok db'

/-- One statement of one session. -/
def step : Option Uuid × Statement V → List (Row V) → Except Unit (List (Row V)) :=
  fun o db => exec accepts o.1 db o.2

end JitaCart.Tenancy.RowSecurity
