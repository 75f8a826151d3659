/- module: JitaCart/Api/Routes
   source: backend/crates/api/src/lists.rs, backend/crates/api/src/lists/crud.rs,
     backend/crates/api/src/extract.rs, backend/migrations/20260427000000_init.sql (list_markets)
   digest: Every mutating request of the api as an extractor read followed by a handler. -/

import JitaCart.Api.Deletion
import JitaCart.Api.Handlers
import JitaCart.Operations

/-!
The label and notes of a list and its markets are beside the database of
`Schema`: only `create`, `patch_list` and `replace_markets` write them. A deleted
list leaves its id in `gone`, and no generated id is one of those.
-/

set_option autoImplicit false
set_option relaxedAutoImplicit false

namespace JitaCart.Api.Routes

open Schema Base.Table Base.Request Extract Fulfillments Reimbursements Contracts Deletion
open Operations (changeDirectory)
open Api.Lists (Limits NewLine PatchItemBody PatchListPayerBody patchListPayer)

inductive MarketKind
  | npcHub | publicStructure
  deriving DecidableEq

structure Market where
  id : Uuid
  kind : MarketKind
  isHub : Bool
  isPublic : Bool
  shortLabel : Option String
  deriving DecidableEq

/-- The columns `destination_label` and `notes` of a list. -/
structure ListText where
  listId : Uuid
  destinationLabel : Option String
  notes : Option String
  deriving DecidableEq

structure ListMarket where
  listId : Uuid
  marketId : Uuid
  isPrimary : Bool
  deriving DecidableEq

structure TrackedMarket where
  groupId : Uuid
  marketId : Uuid
  deriving DecidableEq

structure Board where
  db : Db := {}
  texts : List ListText := []
  listMarkets : List ListMarket := []
  markets : List Market := []
  trackedMarkets : List TrackedMarket := []
  gone : List Uuid := []
  deriving DecidableEq

def maxMarketIds : Nat := 8

def validateMarketIdsSize (ids : List Uuid) : Except ApiError Unit := do
  require (ids ≠ []) (.badRequest "market_ids must not be empty")
  require (ids.length ≤ maxMarketIds)
    (.badRequest s!"too many market_ids ({ids.length}); max {maxMarketIds}")
  require ids.Nodup (.badRequest "market_ids contains duplicates")

def loadMarkets (b : Board) (ids : List Uuid) : Except ApiError (List Market) := do
  let rows := b.markets.filter fun m => decide (m.id ∈ ids)
  require (rows.length = ids.length) (.badRequest "one or more market_ids do not exist")
  return rows

def Market.label (m : Market) : String := m.shortLabel.getD "(unnamed)"

def validateMarketKind (b : Board) (groupId : Uuid) (m : Market) : Except ApiError Unit :=
  match m.kind with
  | .npcHub =>
    require (m.isHub = true)
      (.badRequest s!"market {m.label} is marked as NPC hub but is_hub=false")
  | .publicStructure =>
    require (⟨groupId, m.id⟩ ∈ b.trackedMarkets)
      (.badRequest s!"citadel '{m.label}' is not tracked by this group")

def validateMarketsForGroup (b : Board) (groupId : Uuid) : List Market → Except ApiError Unit
  | [] => .ok ()
  | m :: ms => do
    require (m.isPublic = true) (.badRequest s!"market {m.label} is not public")
    validateMarketKind b groupId m
    validateMarketsForGroup b groupId ms

/-- The markets that a body names, with its primary one among them. -/
structure MarketChoice where
  marketIds : List Uuid
  primaryMarketId : Uuid
  deriving DecidableEq

def MarketChoice.validate (body : MarketChoice) : Except ApiError Unit := do
  validateMarketIdsSize body.marketIds
  require (body.primaryMarketId ∈ body.marketIds)
    (.badRequest "primary_market_id must be in market_ids")

def MarketChoice.rows (body : MarketChoice) (listId : Uuid) (markets : List Market) :
    List ListMarket :=
  markets.map fun m => ⟨listId, m.id, decide (m.id = body.primaryMarketId)⟩

/-- `Some(None)` clears a column, `None` leaves it. -/
structure PatchListBody where
  destinationLabel : Option (Option String) := none
  notes : Option (Option String) := none
  status : Option ListStatus := none
  deriving DecidableEq

def PatchListBody.assignText (body : PatchListBody) (t : ListText) : ListText :=
  { t with
    destinationLabel := body.destinationLabel.getD t.destinationLabel
    notes := body.notes.getD t.notes }

def PatchListBody.assignRow (body : PatchListBody) (l : ListRow) : ListRow :=
  { l with status := body.status.getD l.status }

/-- A patch without a status needs a mutable list, one with a status the right to manage it. -/
def PatchListBody.permitted (body : PatchListBody) (cur : CurrentList) : Except ApiError Unit :=
  if body.status = none then cur.requireMutable else cur.requireCanManage

def patchList (b : Board) (cur : CurrentList) (body : PatchListBody) : Except ApiError Board := do
  require (body.destinationLabel ≠ none ∨ body.notes ≠ none ∨ body.status ≠ none)
    (.badRequest "nothing to update")
  body.permitted cur
  let hit := fun l : ListRow => decide (l.id = cur.listId) && decide (l.groupId = cur.groupId)
  .ok { b with
    db := { b.db with lists := updateWhere hit body.assignRow b.db.lists }
    texts := updateWhere
      (fun t => decide (t.listId = cur.listId) && (b.db.list? cur.listId).any hit)
      body.assignText b.texts }

def replaceMarkets (b : Board) (cur : CurrentList) (body : MarketChoice) :
    Except ApiError Board := do
  cur.requireMutable
  body.validate
  let markets ← loadMarkets b body.marketIds
  validateMarketsForGroup b cur.groupId markets
  require (b.db.list? cur.listId ≠ none) .missing
  .ok { b with
    listMarkets := (b.listMarkets.filter fun m => decide (m.listId ≠ cur.listId)) ++
      body.rows cur.listId markets }

structure CreateBody where
  destinationLabel : Option String
  notes : Option String
  markets : MarketChoice
  lines : List NewLine
  deriving DecidableEq

/-- The ids that an insert of a list and of its items generates. -/
structure NewIds where
  listId : Uuid
  itemIds : List Uuid
  deriving DecidableEq

def create (b : Board) (limits : Limits) (userId groupId : Uuid) (body : CreateBody)
    (ids : NewIds) : Except ApiError Board := do
  body.markets.validate
  let markets ← loadMarkets b body.markets.marketIds
  validateMarketsForGroup b groupId markets
  require (ids.listId ∉ b.gone) DbError.duplicateKey.toApi
  let s ← Handlers.create b.db limits userId groupId body.lines ids.listId ids.itemIds
  return { b with
    db := s
    texts := b.texts ++ [⟨ids.listId, body.destinationLabel, body.notes⟩]
    listMarkets := b.listMarkets ++ body.markets.rows ids.listId markets }

/-- The deleted lists take their label, notes and markets with them. -/
def Board.drop (b : Board) (gone : List Uuid) (s : Db) : Board :=
  { b with
    db := s
    texts := b.texts.filter fun t => decide (t.listId ∉ gone)
    listMarkets := b.listMarkets.filter fun m => decide (m.listId ∉ gone)
    gone := b.gone ++ gone }

structure CurrentGroup where
  userId : Uuid
  groupId : Uuid
  role : GroupRole

inductive ListRequest
  | patchList (body : PatchListBody)
  | replaceMarkets (body : MarketChoice)
  | deleteList
  | addItems (limits : Limits) (lines : List NewLine) (itemIds : List Uuid)
  | patchItem (itemId : Uuid) (body : PatchItemBody)
  | deleteItem (itemId : Uuid)
  | createClaim (itemIds : List Uuid) (claimId : Uuid)
  | recordFulfillment (itemId : Uuid) (body : RecordFulfillmentBody) (gen : Generated)
  | markDelivered (itemId : Uuid) (lastHauler : Option Uuid)
  | setListTip (tipPct : ℚ)

inductive ClaimRequest
  | addClaimItems (itemIds : List Uuid)
  | removeClaimItem (itemId : Uuid)
  | releaseClaim

inductive GroupRequest
  | create (limits : Limits) (body : CreateBody) (ids : NewIds)
  | deleteGroup

/-- Requests that know their caller only; what else they need they read in their transaction.
`directory` is every request on users, groups, corps and characters. -/
inductive UserRequest
  | patchListPayer (listId : Uuid) (body : PatchListPayerBody)
  | reverseFulfillment (fulfillmentId newReimbursementId : Uuid) (now : Timestamp)
  | settleReimbursement (reimbursementId : Uuid) (now : Timestamp)
  | doConfirm (suggestionId : Uuid) (now : Timestamp)
  | doReject (suggestionId : Uuid)
  | doManualLink (contractId reimbursementId newId : Uuid) (now : Timestamp)
  | doUnlink (contractId : Uuid)
  | directory (d : Directory)
  | track (trackedMarkets : List TrackedMarket)

inductive Request
  | onList (userId listId : Uuid) (r : ListRequest)
  | onClaim (userId claimId : Uuid) (r : ClaimRequest)
  | onGroup (userId groupId : Uuid) (r : GroupRequest)
  | byUser (userId : Uuid) (r : UserRequest)

def Request.userId : Request → Uuid
  | .onList u _ _ | .onClaim u _ _ | .onGroup u _ _ | .byUser u _ => u

/-- A request after its extractors. -/
inductive Prepared
  | onList (cur : CurrentList) (r : ListRequest)
  | onClaim (cur : CurrentClaim) (r : ClaimRequest)
  | onGroup (cur : CurrentGroup) (r : GroupRequest)
  | byUser (userId : Uuid) (r : UserRequest)

def prepare : Request → Board → Except ApiError Prepared
  | .onList userId listId r, b => (currentList b.db userId listId).map (.onList · r)
  | .onClaim userId claimId r, b => (currentClaim b.db userId claimId).map (.onClaim · r)
  | .onGroup userId groupId r, b =>
    (currentGroup b.db userId groupId).map fun role => .onGroup ⟨userId, groupId, role⟩ r
  | .byUser userId r, _ => .ok (.byUser userId r)

theorem prepare_byUser {q : Request} {b : Board} {userId : Uuid} {r : UserRequest}
    (h : prepare q b = .ok (.byUser userId r)) : q = .byUser userId r := by
  cases q with
  | onList | onClaim | onGroup =>
    obtain ⟨cur, -, hcur⟩ := map_eq_ok.mp h
    cases hcur
  | byUser u r' =>
    obtain ⟨rfl, rfl⟩ := Prepared.byUser.inj (Except.ok.inj h)
    rfl

/-- A handler that writes no more than the database of `Schema`. -/
def Board.onDb (b : Board) (x : Except ApiError Db) : Except ApiError Board :=
  x.map fun s => { b with db := s }

def Board.deleting (b : Board) (x : Except ApiError (List Uuid × Db)) : Except ApiError Board :=
  x.map fun (gone, s) => b.drop gone s

def ListRequest.handle (b : Board) (cur : CurrentList) : ListRequest → Except ApiError Board
  | .patchList body => Routes.patchList b cur body
  | .replaceMarkets body => Routes.replaceMarkets b cur body
  | .deleteList => b.deleting (Deletion.deleteList b.db cur)
  | .addItems limits lines itemIds => b.onDb (Handlers.addItems b.db cur limits lines itemIds)
  | .patchItem itemId body => b.onDb (Handlers.patchItem b.db cur itemId body)
  | .deleteItem itemId => b.onDb (Handlers.deleteItem b.db cur itemId)
  | .createClaim itemIds claimId => b.onDb (Handlers.createClaim b.db cur itemIds claimId)
  | .recordFulfillment itemId body gen =>
    b.onDb (Handlers.recordFulfillment b.db cur itemId body gen)
  | .markDelivered itemId lastHauler =>
    b.onDb (Handlers.markDelivered b.db cur itemId lastHauler)
  | .setListTip tipPct => b.onDb (Handlers.setListTip b.db cur tipPct)

def ClaimRequest.handle (b : Board) (cur : CurrentClaim) : ClaimRequest → Except ApiError Board
  | .addClaimItems itemIds => b.onDb (Handlers.addClaimItems b.db cur itemIds)
  | .removeClaimItem itemId => b.onDb (Handlers.removeClaimItem b.db cur itemId)
  | .releaseClaim => b.onDb (Handlers.releaseClaim b.db cur)

def GroupRequest.handle (b : Board) (cur : CurrentGroup) : GroupRequest → Except ApiError Board
  | .create limits body ids => Routes.create b limits cur.userId cur.groupId body ids
  | .deleteGroup => b.deleting (Deletion.deleteGroup b.db cur.role cur.groupId)

def UserRequest.handle (b : Board) (userId : Uuid) : UserRequest → Except ApiError Board
  | .patchListPayer listId body => b.onDb (Lists.patchListPayer b.db userId listId body)
  | .reverseFulfillment fulfillmentId newReimbursementId now =>
    b.onDb (Fulfillments.reverseFulfillment b.db userId fulfillmentId newReimbursementId now)
  | .settleReimbursement reimbursementId now =>
    b.onDb (Reimbursements.settleReimbursement b.db userId reimbursementId now)
  | .doConfirm suggestionId now => b.onDb (Contracts.doConfirm b.db userId suggestionId now)
  | .doReject suggestionId => b.onDb (Contracts.doReject b.db userId suggestionId)
  | .doManualLink contractId reimbursementId newId now =>
    b.onDb (Contracts.doManualLink b.db userId contractId reimbursementId newId now)
  | .doUnlink contractId => b.onDb (Contracts.doUnlink b.db userId contractId)
  | .directory d => b.onDb ((changeDirectory b.db d).mapError DbError.toApi)
  | .track trackedMarkets => .ok { b with trackedMarkets := trackedMarkets }

def handle : Prepared → Board → Except ApiError Board
  | .onList cur r, b => r.handle b cur
  | .onClaim cur r, b => r.handle b cur
  | .onGroup cur r, b => r.handle b cur
  | .byUser userId r, b => r.handle b userId

inductive Job
  | upsertContract (u : Settlement.ContractUpsert) (newId : Uuid)
  | syncItemsFor (contractId : Uuid) (items : List ContractItem) (now : Timestamp)
  | runOne (contractId : Uuid) (newId : Uuid → Uuid)
  | handleContractTerminal (u : Worker.Terminal.UpsertedContract) (now : Timestamp)
  | importMarkets (markets : List Market)

def work : Job → Board → Except ApiError Board
  | .importMarkets markets, b => .ok { b with markets := markets }
  | .upsertContract u newId, b =>
    b.onDb (((Settlement.upsertContract b.db u newId).map (·.2)).mapError settleErrorToApi)
  | .syncItemsFor cid items now, b =>
    b.onDb ((Worker.Match.syncItemsFor b.db cid items now).mapError DbError.toApi)
  | .runOne cid newId, b => b.onDb ((Worker.Match.runOne b.db cid newId).mapError DbError.toApi)
  | .handleContractTerminal u now, b =>
    b.onDb ((Worker.Terminal.handleContractTerminal b.db u now).mapError settleErrorToApi)

end JitaCart.Api.Routes
