/- module: JitaCart/Concurrent/Settling
   source: backend/crates/settlement/src/lib.rs,
     backend/crates/api/src/fulfillment/reimbursements.rs (settle_reimbursement),
     backend/crates/api/src/contracts.rs (do_confirm, do_reject, do_manual_link, do_unlink),
     backend/crates/worker/src/jobs/contracts_common.rs (handle_contract_terminal),
     backend/crates/api/src/lists/crud.rs (delete_list), backend/crates/api/src/groups.rs (delete_group)
   digest: Interleaved settlements and links of contracts, and the whole system of trade requests. -/

import JitaCart.Api.Contracts
import JitaCart.Concurrent.Trade
import JitaCart.Worker.Terminal

set_option autoImplicit false
set_option relaxedAutoImplicit false

namespace JitaCart.Concurrent.Trade

open Schema Base.Table Base.Request Base.Numeric Base.ReadCommitted
open Settlement (SettlementError boundTo boundTotal pendingOn boundLists settlementDelta
  flipsOnContract flippable supplied requestedBy owedBy notDelivered ContractUpsert)
open Api.Contracts (isMember validateLink confirmedElsewhere pairOf mayUnlink)
open Worker.CorpWallet (boundPayers scopeOf payoutSum audited walletDelta)
open Worker.Terminal (UpsertedContract)

def updateContract (cid : Uuid) (fits : Shop → Contract → Bool)
    (set : Shop → Contract → Contract) : Program (List Contract) :=
  change (·.contracts) (fun c => .contract c.id) (fun _ c => decide (c.id = cid)) fits
    fun s c => .put (.contract (set s c))

/-- `SELECT … FROM contracts WHERE id = $1 FOR UPDATE`. -/
def lockContract (cid : Uuid) : Program (Option Contract) :=
  lockOne (fun s => s.contract? cid) fun c => .contract c.id

/-- The sum in `SET` is a subquery. -/
def recomputeContractExpectedTotal (cid : Uuid) : Program (List Contract) :=
  updateContract cid (fun s _ => decide (∀ t ∈ boundTotal s.toDb cid, Fits 20 t))
    fun s c => { c with expectedTotalIsk := boundTotal s.toDb cid }

/-- Status, time and actor of a settled row. -/
def settled (settledAt : Timestamp) (settledBy : Option Uuid) (r : Reimbursement) :
    Reimbursement :=
  { r with status := .settled, settledAt := some settledAt, settledByUserId := settledBy }

def flipItems (p : Shop → ListItem → Bool) : Program (List ListItem) :=
  change (·.listItems) (fun li => .item li.id) p (fun _ _ => true)
    fun _ li => .put (.item { li with status := .settled })

/-- The list is locked here for the first time, and only if it is going to be closed. -/
def autoCloseListIfComplete (listId : Uuid) : Program PUnit := do
  let _ ← updateLists
    (fun s l => decide (l.id = listId) && decide (l.status = .open) &&
      decide (∀ li ∈ s.listItems, li.listId = listId → li.status = .settled))
    fun l => { l with status := .closed }
  pure ()

/-- The group and the total of each reimbursement that was just settled. -/
def webhookInfo (s : Db) (ids : List Uuid) : List Notice :=
  (s.reimbursements.filter fun r => decide (r.id ∈ ids)).filterMap fun r =>
    (s.list? r.listId).map fun l => ⟨r.id, l.groupId, r.totalIsk⟩

def afterSettling (cid : Uuid) (ids : List Uuid) : Program (List Notice) := do
  let _ ← flipItems fun s => flipsOnContract s.toDb cid
  let _ ← updateContract cid
    (fun _ c => decide (∀ d ∈ settlementDelta c, Fits 20 d))
    fun _ c => { c with settlementDeltaIsk := settlementDelta c }
  let listIds ← read fun s => boundLists s.toDb cid
  listIds.forM autoCloseListIfComplete
  read fun s => webhookInfo s.toDb ids

def settleViaContract (cid : Uuid) (now : Timestamp) : Program (List Notice) := do
  let locked ← lockContract cid
  let c ← .check (fetch SettlementError.notFound locked)
  let settledRows ← updateReimbursements (pendingOn cid) (fun _ => true)
    (settled (c.dateCompleted.getD now) none)
  if settledRows = [] then pure []
  else afterSettling cid (settledRows.map (·.id))

/-- `INSERT INTO pending_webhooks`, one statement for each. -/
def fireWebhook (n : Notice) : Program PUnit :=
  .statement (fun _ => []) fun _ _ => some ([.notify n], ())

def unbindReimbursements (cid : Uuid) : Program (List Reimbursement) :=
  updateReimbursements (pendingOn cid) (fun _ => true) fun r => { r with contractId := none }

def supersede (cid : Uuid) (state : ContractMatchState) : Program (List Suggestion) :=
  change (·.suggestions) (fun g => .suggestion g.id)
    (fun _ g => decide (g.contractId = cid) && decide (g.state = state)) (fun _ _ => true)
    fun _ g => .put (.suggestion { g with state := .superseded })

def unbindContract (cid : Uuid) : Program Unit := do
  let _ ← unbindReimbursements cid
  let _ ← supersede cid .pending
  let _ ← updateContract cid (fun _ _ => true) fun _ c => { c with expectedTotalIsk := none }
  pure ()

def handleContractTerminal (u : UpsertedContract) (now : Timestamp) : Program Unit :=
  if u.status.isTerminalSuccess then do
    let infos ← settleViaContract u.contractId now
    infos.forM fireWebhook
  else if u.status.isTerminalFailure then unbindContract u.contractId
  else pure ()

/-- The joined rows of a link, with the group of the reimbursement's list. -/
structure LinkRows where
  contract : Contract
  reimbursement : Reimbursement
  groupId : Uuid

/-- `contracts`, `reimbursements` and `lists` joined under given ids; the list is not locked. -/
def linkRows (snapshot s : Db) (cid rid : Uuid) : Option LinkRows := do
  let c ← s.contract? cid
  let r ← s.reimbursement? rid
  let l ← snapshot.list? r.listId
  some ⟨c, r, l.groupId⟩

/-- Bind, refresh the expected total, and settle when the contract is already finished. -/
def finalizeLink (x : LinkRows) (now : Timestamp) : Program (List Notice) := do
  let _ ← updateReimbursements (fun r => decide (r.id = x.reimbursement.id)) (fun _ => true)
    fun r => { r with contractId := some x.contract.id }
  let _ ← recomputeContractExpectedTotal x.contract.id
  if x.contract.status.isTerminalSuccess then settleViaContract x.contract.id now else pure []

/-- The suggestion with its joined rows, on the snapshot. -/
def suggested (s : Db) (suggestionId : Uuid) : Option (Suggestion × LinkRows) := do
  let g ← s.suggestion? suggestionId
  let x ← linkRows s s g.contractId g.reimbursementId
  some (g, x)

/-- `… FOR UPDATE OF s, c, r`. -/
def lockSuggested (suggestionId : Uuid) : Program (Suggestion × LinkRows) :=
  .statement
    (fun s => match suggested s.toDb suggestionId with
      | some (g, x) => [Row.suggestion g.id, .contract x.contract.id,
        .reimbursement x.reimbursement.id]
      | none => [])
    fun st s => do
      let g ← s.suggestion? suggestionId
      let x ← linkRows st.snapshot.toDb s.toDb g.contractId g.reimbursementId
      if .suggestion g.id ∈ st.planned ∧ .contract x.contract.id ∈ st.planned ∧
          .reimbursement x.reimbursement.id ∈ st.planned then
        some ([], g, x)
      else none

/-- Confirming also takes the key of `one_confirmed_suggestion_per_reimbursement`. -/
def confirmSuggestion (g : Suggestion) : Program Unit :=
  .statement
    (fun s => ((s.suggestion? g.id).map fun x =>
      [Row.suggestion x.id, .confirmed x.reimbursementId]).getD [])
    fun st s =>
      match (s.suggestion? g.id).filter fun x => decide (.suggestion x.id ∈ st.planned) with
      | some x =>
        if confirmedElsewhere s.toDb x.reimbursementId (fun y => decide (y.id = x.id)) then none
        else some ([.put (.suggestion { x with state := .confirmed })], ())
      | none => some ([], ())

def checkLink (x : LinkRows) (userId : Uuid) : Program Unit :=
  .select fun s => validateLink s.toDb x.contract x.reimbursement x.groupId userId

def doConfirm (userId suggestionId : Uuid) (now : Timestamp) : Program Unit := do
  let (g, x) ← lockSuggested suggestionId
  .check (require (g.state = .pending) (ApiError.conflict s!"suggestion is already {g.state}"))
  checkLink x userId
  confirmSuggestion g
  let infos ← finalizeLink x now
  infos.forM fireWebhook

/-- `… FOR UPDATE OF s`: contract, reimbursement and list are those of the snapshot. -/
def lockDecidable (suggestionId : Uuid) : Program (Suggestion × LinkRows) :=
  .statement (fun s => ((suggested s.toDb suggestionId).map fun x => Row.suggestion x.1.id).toList)
    fun st s => do
      let g ← s.suggestion? suggestionId
      let x ← linkRows st.snapshot.toDb st.snapshot.toDb g.contractId g.reimbursementId
      if .suggestion g.id ∈ st.planned then some ([], g, x) else none

def doReject (userId suggestionId : Uuid) : Program Unit := do
  let (g, x) ← lockDecidable suggestionId
  .check (require (g.state = .pending) (ApiError.conflict s!"suggestion is already {g.state}"))
  .check (require (x.contract.issuerUserId.getD x.reimbursement.haulerUserId = userId)
    ApiError.noAccess)
  .select fun s => require (isMember s.toDb x.groupId userId) ApiError.noAccess
  let _ ← change (·.suggestions) (fun g => .suggestion g.id)
    (fun _ g => decide (g.id = suggestionId)) (fun _ _ => true)
    fun _ g => .put (.suggestion { g with state := .rejected })
  pure ()

/-- `… WHERE c.id = $1 AND r.id = $2 FOR UPDATE OF c, r`. -/
def lockLink (cid rid : Uuid) : Program LinkRows :=
  .statement
    (fun s => match linkRows s.toDb s.toDb cid rid with
      | some x => [Row.contract x.contract.id, .reimbursement x.reimbursement.id]
      | none => [])
    fun st s => do
      let x ← linkRows st.snapshot.toDb s.toDb cid rid
      if .contract x.contract.id ∈ st.planned ∧ .reimbursement x.reimbursement.id ∈ st.planned then
        some ([], x)
      else none

/-- `INSERT … 'confirmed' … ON CONFLICT (contract_id, reimbursement_id) DO UPDATE`. Links of a pair
hold its contract, so the pair's row does not come or go while the statement waits. -/
def upsertConfirmed (cid rid newId : Uuid) : Program Unit :=
  .statement
    (fun s => .confirmed rid :: match s.suggestions.find? (pairOf cid rid) with
      | some g => [.suggestion g.id]
      | none => [.pair cid rid, .suggestion newId])
    fun st s =>
      if confirmedElsewhere s.toDb rid (pairOf cid rid) then none
      else
        match s.suggestions.find? (pairOf cid rid) with
        | some g =>
          if .suggestion g.id ∈ st.planned then
            some ([.put (.suggestion { g with state := .confirmed })], ())
          else none
        | none =>
          if .pair cid rid ∈ st.planned ∧ s.suggestion? newId = none then
            some ([.put (.suggestion ⟨newId, cid, rid, 1, false, .confirmed⟩)], ())
          else none

def doManualLink (userId contractId reimbursementId newId : Uuid) (now : Timestamp) :
    Program Unit := do
  let x ← lockLink contractId reimbursementId
  checkLink x userId
  upsertConfirmed x.contract.id x.reimbursement.id newId
  let infos ← finalizeLink x now
  infos.forM fireWebhook

def doUnlink (userId contractId : Uuid) : Program Unit := do
  let locked ← lockContract contractId
  let c ← .check (fetch ApiError.missing locked)
  .select fun s => require (mayUnlink s.toDb c userId) ApiError.noAccess
  .select fun s => require (∀ r ∈ s.reimbursements, boundTo contractId r = true →
    ∀ l ∈ s.list? r.listId, isMember s.toDb l.groupId userId) ApiError.noAccess
  .check (require (c.status.isTerminalSuccess = false)
    (ApiError.conflict "cannot unlink a finished contract; that would unwind a settlement"))
  let _ ← unbindReimbursements contractId
  let _ ← supersede contractId .confirmed
  let _ ← recomputeContractExpectedTotal contractId
  pure ()

/-- `SELECT … FROM reimbursements WHERE id = $1 FOR UPDATE`. -/
def lockReimbursement (rid : Uuid) : Program (Option Reimbursement) :=
  lockOne (fun s => s.reimbursement? rid) fun r => .reimbursement r.id

/-- Both flip statements: the hauler's delivered items that are `mine`, unless a `rival`
reimbursement of another hauler is pending and supplied the item too. -/
def flipHaulerItems (listId haulerUserId : Uuid) (mine : ListItem → Bool)
    (rival : Reimbursement → Bool) : Program (List ListItem) :=
  flipItems fun s li =>
    decide (li.listId = listId) && mine li && flippable false li.status &&
      supplied s.toDb li.id haulerUserId &&
      !(s.reimbursements.any fun r =>
        decide (r.listId = listId) && rival r && decide (r.haulerUserId ≠ haulerUserId) &&
          decide (r.status = .pending) && supplied s.toDb li.id r.haulerUserId)

/-- Count, settle, flip and close, for the items and the rivals of one kind of funding. -/
def settleRow (r : Reimbursement) (settledByUserId : Uuid) (now : Timestamp)
    (mine : ListItem → Bool) (rival : Reimbursement → Bool) : Program PUnit := do
  let owed ← read fun s => notDelivered s.toDb r.listId r.haulerUserId mine
  .check (require (owed = 0) (SettlementError.notDelivered owed))
  let _ ← updateReimbursements (fun x => decide (x.id = r.id)) (fun _ => true)
    (settled now (some settledByUserId))
  let _ ← flipHaulerItems r.listId r.haulerUserId mine rival
  autoCloseListIfComplete r.listId

def settleManual (rid settledByUserId : Uuid) (now : Timestamp) : Program PUnit := do
  let locked ← lockReimbursement rid
  let r ← .check (fetch SettlementError.notFound locked)
  .check (require (r.status = .pending) (SettlementError.notPending r.status))
  if r.isCorpFunded then
    settleRow r settledByUserId now (fun _ => true) fun _ => true
  else do
    let requester ← .check (fetch SettlementError.notFound r.requesterUserId)
    settleRow r settledByUserId now (requestedBy requester) (owedBy requester)

def settleReimbursement (userId reimbId : Uuid) (now : Timestamp) : Program PUnit := do
  let pre ← read fun s => s.reimbursement? reimbId
  let pre ← .check (fetch ApiError.missing pre)
  let _ ← lockList pre.listId
  let locked ← lockReimbursement reimbId
  let r ← .check (fetch ApiError.missing locked)
  .check (require (r.status = .pending)
    (ApiError.conflict s!"reimbursement is already {r.status}"))
  .check (require (r.contractId = none) (ApiError.conflict
    "this reimbursement is bound to a contract; unlink it before settling manually"))
  let role ← .select fun s => fetch ApiError.noAccess (roleOnList s.toDb userId pre.listId)
  .check (require (r.requesterUserId = some userId ∨ role = .owner) ApiError.noAccess)
  settleManual reimbId userId now
  let groupId ← .select fun s => fetch (ApiError.internal "no rows returned")
    ((s.list? pre.listId).map (·.groupId))
  let totalIsk ← .select fun s => fetch (ApiError.internal "no rows returned")
    ((s.reimbursement? reimbId).map (·.totalIsk))
  fireWebhook ⟨reimbId, groupId, totalIsk⟩

def upsertContract (u : ContractUpsert) (newId : Uuid) : Program Unit := do
  let prior ← lockOne (fun s => lookup Contract.esiContractId u.esiContractId s.contracts)
    fun c => .contract c.id
  match prior with
  | some c => do
    let _ ← updateContract c.id (fun _ _ => decide (Fits 20 (toScale 2 u.priceIsk)))
      fun _ c => u.assign c
    pure ()
  | none =>
    insert [.esiContract u.esiContractId, .contract newId]
      (fun s => decide (Fits 20 (toScale 2 u.priceIsk) ∧ s.contract? newId = none ∧
        lookup Contract.esiContractId u.esiContractId s.contracts = none))
      [.put (.contract (u.row newId))]

/-- The audit columns of the contract's row. -/
def stampContract (cid : Uuid) (payout : Cents) : Program (List Contract) :=
  change (·.contracts) (fun c => .contract c.id) (fun _ c => decide (c.id = cid))
    (fun _ _ => decide (Fits 20 payout)) fun _ _ => .payout cid payout

/-- The audit columns of rows that were read before; the deltas are computed by the caller. -/
def stampReimbursements (payout : Cents) (rows : List Reimbursement) :
    Program (List Reimbursement) :=
  let delta := fun r : Reimbursement => walletDelta payout (rows.map (·.totalIsk)).sum r
  change (·.reimbursements) (fun r => .reimbursement r.id)
    (fun _ r => decide (r.id ∈ rows.map (·.id)))
    (fun _ _ => rows.all fun r => decide (Fits 20 (delta r)))
    fun _ r => .audit r.id (((lookup Reimbursement.id r.id rows).map delta).getD 0)

/-- `limit1` is the unordered `LIMIT 1` of the payer query. -/
def verifyContractAgainstJournal (limit1 : List Payer → Option Payer) (cid : Uuid) :
    Program Unit := do
  let locked ← lockContract cid
  match locked with
  | none => pure ()
  | some c => do
    let payer ← read fun s => limit1 (boundPayers s.toDb cid)
    let payout ← read fun s =>
      payoutSum s.journal (scopeOf payer c.sourceCorpId) c.esiContractId
    if 0 < payout then do
      let _ ← stampContract cid payout
      let rows ← read fun s => s.reimbursements.filter (audited cid)
      let _ ← stampReimbursements payout rows
      pure ()
    else pure ()

-- Deleting lists and groups. Rows below go by statements of the foreign keys.
def deleteLists (p : ListRow → Bool) : Program (List ListRow) :=
  change (·.lists) (fun l => .list l.id) (fun _ => p) (fun _ _ => true)
    fun _ l => .drop (.list l)

def cascadeLists (gone : List Uuid) : Program Unit := do
  let items ← deleteItems fun li => decide (li.listId ∈ gone)
  let claims ← change (·.claims) (fun c => .claim c.id) (fun _ c => decide (c.listId ∈ gone))
    (fun _ _ => true) fun _ c => .drop (.claim c)
  let _ ← deleteClaimItems fun ci =>
    decide (ci.listItemId ∈ items.map (·.id) ∨ ci.claimId ∈ claims.map (·.id))
  let _ ← deleteFulfillments fun f => decide (f.listItemId ∈ items.map (·.id))
  let dues ← change (·.reimbursements) (fun r => .reimbursement r.id)
    (fun _ r => decide (r.listId ∈ gone)) (fun _ _ => true) fun _ r => .dropReimbursement r
  let _ ← change (·.suggestions) (fun g => .suggestion g.id)
    (fun _ g => decide (g.reimbursementId ∈ dues.map (·.id))) (fun _ _ => true)
    fun _ g => .drop (.suggestion g)
  pure ()

def deleteList (userId listId : Uuid) : Program Unit := do
  let cur ← .select fun s => Api.Extract.currentList s.toDb userId listId
  .check (require (cur.createdByUserId = cur.userId ∨ cur.role = .owner) ApiError.noAccess)
  let gone ← deleteLists fun l => decide (l.id = listId) && decide (l.groupId = cur.groupId)
  .check (require (gone ≠ []) ApiError.missing)
  cascadeLists (gone.map (·.id))

def dropGroup (groupId : Uuid) : Program Unit :=
  .statement
    (fun s => ((lookup Group.id groupId s.directory.groups).map fun g => Row.group g.id).toList)
    fun st s =>
      if st.planned = [] ∨ lookup Group.id groupId s.directory.groups = none then none
      else some ([.dropGroup groupId], ())

def deleteGroup (userId groupId : Uuid) : Program Unit := do
  let role ← .select fun s => Api.Extract.currentGroup s.toDb userId groupId
  .check (require (role = .owner) (ApiError.forbidden "owner role required"))
  dropGroup groupId
  let gone ← deleteLists fun l => decide (l.groupId = groupId)
  cascadeLists (gone.map (·.id))

inductive TradeRequest
  | recordFulfillment (userId listId itemId : Uuid) (body : Api.Fulfillments.RecordFulfillmentBody)
      (gen : Api.Fulfillments.Generated)
  | reverseFulfillment (userId fulfillmentId newReimbursementId : Uuid) (now : Timestamp)
  | markDelivered (userId listId itemId : Uuid) (lastHauler : Option Uuid)
  | createClaim (userId listId : Uuid) (itemIds : List Uuid) (claimId : Uuid)
  | addClaimItems (userId claimId : Uuid) (itemIds : List Uuid)
  | removeClaimItem (userId claimId itemId : Uuid)
  | releaseClaim (userId claimId : Uuid)
  | addItems (limits : Api.Lists.Limits) (userId listId : Uuid) (lines : List Api.Lists.NewLine)
      (itemIds : List Uuid)
  | patchItem (userId listId itemId : Uuid) (body : Api.Lists.PatchItemBody)
  | deleteItem (userId listId itemId : Uuid)
  | setListTip (userId listId : Uuid) (tipPct : ℚ)
  | patchListPayer (userId listId : Uuid) (body : Api.Lists.PatchListPayerBody)
  | doConfirm (userId suggestionId : Uuid) (now : Timestamp)
  | doReject (userId suggestionId : Uuid)
  | doManualLink (userId contractId reimbursementId newId : Uuid) (now : Timestamp)
  | doUnlink (userId contractId : Uuid)
  | settleReimbursement (userId reimbursementId : Uuid) (now : Timestamp)
  | handleContractTerminal (u : UpsertedContract) (now : Timestamp)
  | upsertContract (u : ContractUpsert) (newId : Uuid)
  | verifyContractAgainstJournal (limit1 : List Payer → Option Payer) (contractId : Uuid)
  | deleteList (userId listId : Uuid)
  | deleteGroup (userId groupId : Uuid)

def program : TradeRequest → Program Unit
  | .recordFulfillment userId listId itemId body gen =>
    recordFulfillment userId listId itemId body gen
  | .reverseFulfillment userId fulfillmentId newId now =>
    reverseFulfillment userId fulfillmentId newId now
  | .markDelivered userId listId itemId lastHauler => markDelivered userId listId itemId lastHauler
  | .createClaim userId listId itemIds claimId => createClaim userId listId itemIds claimId
  | .addClaimItems userId claimId itemIds => addClaimItems userId claimId itemIds
  | .removeClaimItem userId claimId itemId => removeClaimItem userId claimId itemId
  | .releaseClaim userId claimId => releaseClaim userId claimId
  | .addItems limits userId listId lines itemIds => addItems limits userId listId lines itemIds
  | .patchItem userId listId itemId body => patchItem userId listId itemId body
  | .deleteItem userId listId itemId => deleteItem userId listId itemId
  | .setListTip userId listId tipPct => setListTip userId listId tipPct
  | .patchListPayer userId listId body => patchListPayer userId listId body
  | .doConfirm userId suggestionId now => doConfirm userId suggestionId now
  | .doReject userId suggestionId => doReject userId suggestionId
  | .doManualLink userId contractId reimbursementId newId now =>
    doManualLink userId contractId reimbursementId newId now
  | .doUnlink userId contractId => doUnlink userId contractId
  | .settleReimbursement userId reimbursementId now => settleReimbursement userId reimbursementId now
  | .handleContractTerminal u now => handleContractTerminal u now
  | .upsertContract u newId => upsertContract u newId
  | .verifyContractAgainstJournal limit1 contractId => verifyContractAgainstJournal limit1 contractId
  | .deleteList userId listId => deleteList userId listId
  | .deleteGroup userId groupId => deleteGroup userId groupId

def engine : Engine Shop Write Row TradeRequest := ⟨redo, program⟩

/-- The requests that buy or take a purchase back. -/
def TradeRequest.buys : TradeRequest → Bool
  | .recordFulfillment .. => true
  | .reverseFulfillment .. => true
  | _ => false

def TradeRequest.deletes : TradeRequest → Bool
  | .deleteList .. => true
  | .deleteGroup .. => true
  | _ => false

end JitaCart.Concurrent.Trade
