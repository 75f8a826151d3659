/- module: JitaCart/Concurrent/Trade
   source: backend/crates/api/src/fulfillment.rs, backend/crates/api/src/fulfillment/claims.rs,
     backend/crates/api/src/fulfillment/fulfillments.rs,
     backend/crates/api/src/fulfillment/reimbursements.rs (upsert_reimbursement),
     backend/crates/api/src/fulfillment/tips.rs, backend/crates/api/src/lists/items.rs,
     backend/crates/api/src/corps.rs (patch_list_payer)
   digest: Interleaved purchases, claims and edits of a list, statement by statement. -/

import JitaCart.Api.Deletion
import JitaCart.Api.Fulfillments
import JitaCart.Api.Lists
import JitaCart.Base.ReadCommitted
import JitaCart.Worker.CorpWallet

/-!
Statements are those of the source, in its order. Reads that only build a
response or name people in a notification are left out, and so are the share
locks of foreign keys: without them more interleavings are possible. The audit
columns of contracts and reimbursements are kept beside the rows.
-/

set_option autoImplicit false
set_option relaxedAutoImplicit false

namespace JitaCart.Concurrent.Trade

open Schema Base.Table Base.Request Base.Numeric Base.ReadCommitted
open Api.Extract (currentList currentClaim CurrentList CurrentClaim)
open Api.ItemStatus (DeliveredDemotion liveQty hasActiveClaim baseStatus recomputedRow
  validateTipPct ensureClaimWritable)
open Api.Claims (validateClaimableItems)
open Api.Reimbursements (proposed cycle takeAmounts moneyFits moneyNonneg reimbursementStatus)
open Api.Fulfillments (RecordFulfillmentBody Generated validateBody validateRefs activeClaim
  checkActiveClaim requirePending newFulfillment IsLastHauler nilUuid)
open Api.Lists (Limits NewLine validateLines newItems PatchItemBody onItem storedTip retip
  pendingOnList PatchListPayerBody checkPayerLinked)

/-- A row of `pending_webhooks` that tells of a settled reimbursement. The payload does not name
the reimbursement, and no statement reads its id here. -/
structure Notice where
  reimbursementId : Uuid
  groupId : Uuid
  totalIsk : Cents
  deriving DecidableEq

structure Shop extends Db where
  journal : List Worker.CorpWallet.JournalRow := []
  payouts : List (Uuid × Cents) := []
  audits : List (Uuid × Cents) := []
  pendingWebhooks : List Notice := []
  deriving DecidableEq

/-- Rows, and the keys of unique indexes that an insert waits for. -/
inductive Row
  | group (id : Uuid)
  | list (id : Uuid)
  | item (id : Uuid)
  | claim (id : Uuid)
  | claimItem (claimId listItemId : Uuid)
  | activeItem (listItemId : Uuid)
  | fulfillment (id : Uuid)
  | contract (id : Uuid)
  | esiContract (esiContractId : Int)
  | reimbursement (id : Uuid)
  | cycle (key : Uuid × Uuid × Uuid)
  | suggestion (id : Uuid)
  | pair (contractId reimbursementId : Uuid)
  | confirmed (reimbursementId : Uuid)
  deriving DecidableEq

inductive Record
  | list (l : ListRow)
  | item (li : ListItem)
  | claim (c : Claim)
  | claimItem (ci : ClaimItem)
  | fulfillment (f : Fulfillment)
  | contract (c : Contract)
  | suggestion (g : Suggestion)
  deriving DecidableEq

/-- A new version of a reimbursement comes with the version that it replaces. -/
inductive Write
  | put (x : Record)
  | drop (x : Record)
  | putReimbursement (before : Option Reimbursement) (after : Reimbursement)
  | dropReimbursement (r : Reimbursement)
  | notify (n : Notice)
  | payout (contractId : Uuid) (payoutIsk : Cents)
  | audit (reimbursementId : Uuid) (deltaIsk : Cents)
  | dropGroup (groupId : Uuid)
  deriving DecidableEq

def claimItemKey (ci : ClaimItem) : Uuid × Uuid := (ci.claimId, ci.listItemId)

def putRecord (x : Record) (s : Db) : Db :=
  match x with
  | .list l => { s with lists := replace ListRow.id l.id (some l) s.lists }
  | .item li => { s with listItems := replace ListItem.id li.id (some li) s.listItems }
  | .claim c => { s with claims := replace Claim.id c.id (some c) s.claims }
  | .claimItem ci => { s with
      claimItems := replace claimItemKey (claimItemKey ci) (some ci) s.claimItems }
  | .fulfillment f => { s with
      fulfillments := replace Fulfillment.id f.id (some f) s.fulfillments }
  | .contract c => { s with contracts := replace Contract.id c.id (some c) s.contracts }
  | .suggestion g => { s with suggestions := replace Suggestion.id g.id (some g) s.suggestions }

def dropRecord (x : Record) (s : Db) : Db :=
  match x with
  | .list l => { s with lists := replace ListRow.id l.id none s.lists }
  | .item li => { s with listItems := replace ListItem.id li.id none s.listItems }
  | .claim c => { s with claims := replace Claim.id c.id none s.claims }
  | .claimItem ci => { s with
      claimItems := replace claimItemKey (claimItemKey ci) none s.claimItems }
  | .fulfillment f => { s with fulfillments := replace Fulfillment.id f.id none s.fulfillments }
  | .contract c => { s with contracts := replace Contract.id c.id none s.contracts }
  | .suggestion g => { s with suggestions := replace Suggestion.id g.id none s.suggestions }

def redo : Write → Shop → Shop
  | .put x, s => { s with toDb := putRecord x s.toDb }
  | .drop x, s => { s with toDb := dropRecord x s.toDb }
  | .putReimbursement _ r, s => { s with
      reimbursements := replace Reimbursement.id r.id (some r) s.reimbursements }
  | .dropReimbursement r, s => { s with
      reimbursements := replace Reimbursement.id r.id none s.reimbursements }
  | .notify n, s => { s with pendingWebhooks := s.pendingWebhooks ++ [n] }
  | .payout cid isk, s => { s with payouts := replace Prod.fst cid (some (cid, isk)) s.payouts }
  | .audit rid isk, s => { s with audits := replace Prod.fst rid (some (rid, isk)) s.audits }
  | .dropGroup groupId, s => { s with toDb := Api.Deletion.dropGroup s.toDb groupId }

abbrev Program := Prog Shop Write Row

section Statements
variable {α : Type}

/-- A query without a locking clause that cannot fail. -/
def read (query : Shop → α) : Program α :=
  .select fun s => (.ok (query s) : Except ApiError α)

/-- `SELECT … FOR UPDATE` of at most one row. -/
def lockOne (find : Shop → Option α) (row : α → Row) : Program (Option α) :=
  .statement (fun s => ((find s).map row).toList) fun st s =>
    some ([], (find s).filter fun x => decide (row x ∈ st.planned))

/-- `UPDATE … WHERE` or `DELETE … WHERE`, with the rows it found. The condition is checked again
on the current version of a row, and its subqueries see the snapshot. -/
def change (rows : Shop → List α) (row : α → Row) (p : Shop → α → Bool)
    (fits : Shop → α → Bool) (write : Shop → α → Write) : Program (List α) :=
  .statement (fun s => ((rows s).filter (p s)).map row) fun st s =>
    let found := (rows s).filter fun x => p st.snapshot x && decide (row x ∈ st.planned)
    if found.all (fits st.snapshot) then some (found.map (write st.snapshot), found) else none

/-- `INSERT` under keys that have to be free. -/
def insert (keys : List Row) (free : Shop → Bool) (writes : List Write) : Program Unit :=
  .statement (fun _ => keys) fun _ s => if free s then some (writes, ()) else none

end Statements

def updateLists (p : Shop → ListRow → Bool) (set : ListRow → ListRow) : Program (List ListRow) :=
  change (·.lists) (fun l => .list l.id) p (fun _ _ => true) fun _ l => .put (.list (set l))

def updateItems (p : Shop → ListItem → Bool) (set : Shop → ListItem → ListItem) :
    Program (List ListItem) :=
  change (·.listItems) (fun li => .item li.id) p
    (fun s li => decide (FitsBigint (set s li).qtyFulfilled)) fun s li => .put (.item (set s li))

def updateReimbursements (p : Reimbursement → Bool) (fits : Reimbursement → Bool)
    (set : Reimbursement → Reimbursement) : Program (List Reimbursement) :=
  change (·.reimbursements) (fun r => .reimbursement r.id) (fun _ => p) (fun _ => fits)
    fun _ r => .putReimbursement (some r) (set r)

/-- `SELECT id FROM lists WHERE id = $1 FOR UPDATE`. -/
def lockList (listId : Uuid) : Program ListRow := do
  let l ← lockOne (fun s => s.list? listId) fun l => .list l.id
  .check (fetch ApiError.missing l)

/-- `SELECT … FROM list_items WHERE id = $1 AND list_id = $2 FOR UPDATE`. -/
def lockItem (listId itemId : Uuid) : Program ListItem := do
  let li ← lockOne (fun s => (s.item? itemId).filter fun li => decide (li.listId = listId))
    fun li => .item li.id
  .check (fetch ApiError.missing li)

def recomputeItemStatus (itemId : Uuid) (demotion : DeliveredDemotion) :
    Program ListItemStatus := do
  let current ← .select fun s => fetch ApiError.missing ((s.item? itemId).map (·.status))
  if current = .settled ∨ (current = .delivered ∧ demotion = .forbid) then pure current
  else do
    let (qtyRequested, qtyFulfilled, hasActive) ← .select fun s => do
      let li ← fetch ApiError.missing (s.item? itemId)
      require (FitsBigint (liveQty s.toDb itemId)) DbError.bigintOutOfRange.toApi
      .ok (li.qtyRequested, liveQty s.toDb itemId, hasActiveClaim s.toDb itemId)
    let base := baseStatus qtyFulfilled qtyRequested hasActive
    -- Preserve delivered when the item is still fully fulfilled.
    let new := if current = .delivered ∧ base = .bought then .delivered else base
    let _ ← updateItems (fun _ li => decide (li.id = itemId))
      fun _ li => { li with status := new, qtyFulfilled := qtyFulfilled }
    pure new

/-- One statement over many items; the aggregates are those of the snapshot. -/
def recomputeItemStatusesBulk (itemIds : List Uuid) : Program (List ListItem) :=
  updateItems (fun _ li => decide (li.id ∈ itemIds)) fun s li => recomputedRow s.toDb li

/-- `UPDATE claims SET status = $1 WHERE id = $2 AND guard`; the trigger sets the claim's items. -/
def updateClaimStatus (claimId : Uuid) (guard : Claim → Bool) (status : ClaimStatus) :
    Program Unit := do
  let changed ← change (·.claims) (fun c => .claim c.id)
    (fun _ c => decide (c.id = claimId) && guard c) (fun _ _ => true)
    fun _ c => .put (.claim { c with status := status })
  changed.forM fun c =>
    if (c.status = .active) ≠ (status = .active) then do
      let _ ← change (·.claimItems) (fun ci => .claimItem ci.claimId ci.listItemId)
        (fun _ ci => decide (ci.claimId = claimId)) (fun _ _ => true)
        fun _ ci => .put (.claimItem { ci with active := decide (status = .active) })
      pure ()
    else pure ()

def insertFulfillment (f : Fulfillment) : Program Unit :=
  insert [.fulfillment f.id]
    (fun s => decide (Fits 20 f.unitPriceIsk ∧ 0 < f.qty ∧ 0 ≤ f.unitPriceIsk ∧
      s.fulfillment? f.id = none))
    [.put (.fulfillment f)]

/-- None of the claim's items is short of bought. -/
def claimDone (s : Db) (claimId : Uuid) : Bool :=
  decide (∀ ci ∈ s.claimItems, ci.claimId = claimId → ∀ li ∈ s.item? ci.listItemId,
    li.status = .bought ∨ li.status = .delivered ∨ li.status = .settled)

def completeClaim (active : Option Claim) (newStatus : ListItemStatus) : Program Unit :=
  match active with
  | none => pure ()
  | some c =>
    if newStatus = .bought ∨ newStatus = .settled then do
      let allDone ← read fun s => claimDone s.toDb c.id
      if allDone then updateClaimStatus c.id (fun x => decide (x.status = .active)) .completed
      else pure ()
    else pure ()

/-- The row that the common table expressions of the upsert propose. -/
def proposal (s : Db) (listId requesterUserId haulerUserId newId : Uuid) :
    Option Reimbursement := do
  let l ← s.list? listId
  let rp ← s.directory.requesterPrincipal l.payer requesterUserId
  let hp ← s.directory.userPrincipal haulerUserId
  some (proposed s l requesterUserId rp haulerUserId hp newId)

/-- The row that the proposed one conflicts with. -/
def taken (s : Db) (new : Reimbursement) : Option Reimbursement :=
  s.reimbursements.find? fun r => decide (cycle r = cycle new) && decide (r.status ≠ .cancelled)

def upsertRows (s : Db) (new : Reimbursement) : List Row :=
  match taken s new with
  | some r => [.reimbursement r.id]
  | none => [.cycle (cycle new), .reimbursement new.id]

/-- The proposed row against the current ones. A cycle gets its row under the lock of its list, so
it does not come or go while the statement waits. -/
def upsertRow (planned : List Row) (new : Reimbursement) (s : Db) : Option (List Write) :=
  match taken s new with
  | some r =>
    if .reimbursement r.id ∈ planned then
      if r.status = .pending then some [.putReimbursement (some r) (takeAmounts new r)]
      else some []
    else none
  | none =>
    if .cycle (cycle new) ∈ planned ∧ s.reimbursement? new.id = none then
      some [.putReimbursement none new]
    else none

def upsertReimbursement (listId requesterUserId haulerUserId newId : Uuid) : Program Unit :=
  .statement
    (fun s => match proposal s.toDb listId requesterUserId haulerUserId newId with
      | some new => upsertRows s.toDb new
      | none => [])
    fun st s => match proposal st.snapshot.toDb listId requesterUserId haulerUserId newId with
      | some new =>
        if moneyFits new ∧ moneyNonneg new then (upsertRow st.planned new s.toDb).map (·, ())
        else none
      | none => some ([], ())

def recordFulfillment (userId listId itemId : Uuid) (body : RecordFulfillmentBody)
    (gen : Generated) : Program Unit := do
  let cur ← .select fun s => currentList s.toDb userId listId
  .check cur.requireMutable
  .check (validateBody body)
  let _ ← lockList listId
  let li ← lockItem listId itemId
  -- A 64-bit addition of the release build: it wraps.
  .check (require (wrapI64 (body.qty + li.qtyFulfilled) ≤ li.qtyRequested)
    (ApiError.conflict (s!"fulfillment qty {body.qty} would exceed requested " ++
      s!"{li.qtyRequested} (already fulfilled: {li.qtyFulfilled})")))
  let status ← read fun s => reimbursementStatus s.toDb listId li.requestedByUserId userId
  .check (requirePending status fun rs =>
    .conflict (s!"reimbursement for this requester is already {rs}; " ++
      "cannot record additional fulfillments"))
  .select fun s => validateRefs s.toDb userId body
  let active ← read fun s => activeClaim s.toDb itemId
  .check (checkActiveClaim active userId cur.role body.claimId)
  insertFulfillment (newFulfillment body gen.fulfillmentId userId itemId active gen.now)
  let newStatus ← recomputeItemStatus itemId .forbid
  completeClaim active newStatus
  upsertReimbursement listId li.requestedByUserId userId gen.reimbursementId

def purchaseOf (s : Db) (fulfillmentId : Uuid) : Option (Fulfillment × ListItem) := do
  let f ← s.fulfillment? fulfillmentId
  let li ← s.item? f.listItemId
  some (f, li)

/-- The `SELECT gm.role FROM lists l JOIN group_memberships gm …` of a request on a list. -/
def roleOnList (s : Db) (userId listId : Uuid) : Option GroupRole := do
  let l ← s.list? listId
  s.directory.roleOf userId l.groupId

def reverseRow (fulfillmentId : Uuid) (now : Timestamp) : Program (List Fulfillment) :=
  change (·.fulfillments) (fun f => .fulfillment f.id)
    (fun _ f => decide (f.id = fulfillmentId) && f.live) (fun _ _ => true)
    fun _ f => .put (.fulfillment { f with reversedAt := some now })

def reverseFulfillment (userId fulfillmentId newReimbursementId : Uuid) (now : Timestamp) :
    Program Unit := do
  let (f, li) ← .select fun s => fetch ApiError.missing (purchaseOf s.toDb fulfillmentId)
  let _ ← lockList li.listId
  -- Reversal and list status are read again under the lock.
  let (reversed, listStatus) ← .select fun s => do
    let (f, li) ← fetch (ApiError.internal "no rows returned") (purchaseOf s.toDb fulfillmentId)
    let l ← fetch (ApiError.internal "no rows returned") (s.list? li.listId)
    .ok (f.reversedAt, l.status)
  .check (require (listStatus ≠ .archived)
    (ApiError.conflict "list is archived; no changes can be made"))
  .check (require (reversed = none) (ApiError.badRequest "fulfillment is already reversed"))
  let role ← .select fun s => fetch ApiError.noAccess (roleOnList s.toDb userId li.listId)
  .check (require (userId = f.haulerUserId ∨ role = .owner) ApiError.noAccess)
  let status ← read fun s =>
    reimbursementStatus s.toDb li.listId li.requestedByUserId f.haulerUserId
  .check (requirePending status fun _ =>
    .conflict "cannot reverse a fulfillment whose reimbursement is already settled")
  let changed ← reverseRow fulfillmentId now
  let row ← .check (fetch (ApiError.badRequest "fulfillment is already reversed") changed.head?)
  let _ ← recomputeItemStatus row.listItemId .allow
  upsertReimbursement li.listId li.requestedByUserId f.haulerUserId newReimbursementId

/-- `last_hauler` is a subquery of the locking read, on its snapshot. -/
def lockDeliverable (listId itemId : Uuid) (lastHauler : Option Uuid) : Program ListItemStatus :=
  .statement
    (fun s => (((s.item? itemId).filter fun li => decide (li.listId = listId)).map fun li =>
      Row.item li.id).toList)
    fun st s => do
      let li ← (s.item? itemId).filter fun li =>
        decide (li.listId = listId) && decide (.item li.id ∈ st.planned)
      if IsLastHauler st.snapshot.toDb itemId lastHauler then some ([], li.status) else none

def markDelivered (userId listId itemId : Uuid) (lastHauler : Option Uuid) : Program Unit := do
  let cur ← .select fun s => currentList s.toDb userId listId
  .check cur.requireMutable
  let _ ← lockList listId
  let status ← lockDeliverable listId itemId lastHauler
  .check (require (status = .bought) (ApiError.badRequest
    s!"item must be in 'bought' status to mark delivered (currently: {status})"))
  .check (require (userId = lastHauler.getD nilUuid ∨ cur.role = .owner) ApiError.noAccess)
  let _ ← updateItems (fun _ li => decide (li.id = itemId))
    fun _ li => { li with status := .delivered }
  pure ()

/-- One `INSERT … SELECT … FROM unnest`, then the recompute. -/
def insertClaimItems (claimId : Uuid) (itemIds : List Uuid) : Program Unit := do
  insert (itemIds.flatMap fun itemId => [.claimItem claimId itemId, .activeItem itemId])
    (fun s => decide (itemIds.Nodup ∧
      (∀ ci ∈ s.claimItems, ci.claimId = claimId → ci.listItemId ∉ itemIds) ∧
      ∀ itemId ∈ itemIds, hasActiveClaim s.toDb itemId = false))
    (itemIds.map fun itemId => .put (.claimItem ⟨claimId, itemId, true⟩))
  let _ ← recomputeItemStatusesBulk itemIds
  pure ()

def createClaim (userId listId : Uuid) (itemIds : List Uuid) (claimId : Uuid) :
    Program Unit := do
  let cur ← .select fun s => currentList s.toDb userId listId
  .check (cur.requireOpen "claims can only be created on open lists")
  .check (require (itemIds ≠ []) (ApiError.badRequest "item_ids must not be empty"))
  let _ ← lockList listId
  .select fun s => validateClaimableItems s.toDb listId itemIds
  insert [.claim claimId] (fun s => decide (s.claim? claimId = none))
    [.put (.claim ⟨claimId, listId, userId, .active⟩)]
  insertClaimItems claimId itemIds

/-- What every change of a claim begins with. -/
def openClaim (userId claimId : Uuid) : Program CurrentClaim := do
  let cur ← .select fun s => currentClaim s.toDb userId claimId
  .check cur.requireListMutable
  .check (ensureClaimWritable userId cur.haulerUserId cur.role cur.status)
  pure cur

def addClaimItems (userId claimId : Uuid) (itemIds : List Uuid) : Program Unit := do
  let cur ← openClaim userId claimId
  .check (require (itemIds ≠ []) (ApiError.badRequest "item_ids must not be empty"))
  let _ ← lockList cur.listId
  .select fun s => validateClaimableItems s.toDb cur.listId itemIds
  insertClaimItems claimId itemIds

def deleteClaimItems (p : ClaimItem → Bool) : Program (List ClaimItem) :=
  change (·.claimItems) (fun ci => .claimItem ci.claimId ci.listItemId) (fun _ => p)
    (fun _ _ => true) fun _ ci => .drop (.claimItem ci)

def removeClaimItem (userId claimId itemId : Uuid) : Program Unit := do
  let cur ← openClaim userId claimId
  let _ ← lockList cur.listId
  let gone ← deleteClaimItems fun ci =>
    decide (ci.claimId = claimId) && decide (ci.listItemId = itemId)
  .check (require (gone ≠ []) ApiError.missing)
  let _ ← recomputeItemStatus itemId .forbid
  pure ()

def releaseClaim (userId claimId : Uuid) : Program Unit := do
  let cur ← openClaim userId claimId
  let _ ← lockList cur.listId
  let itemIds ← read fun s =>
    (s.claimItems.filter fun ci => decide (ci.claimId = claimId)).map (·.listItemId)
  updateClaimStatus claimId (fun _ => true) .released
  let _ ← recomputeItemStatusesBulk itemIds
  pure ()

def addItems (limits : Limits) (userId listId : Uuid) (lines : List NewLine)
    (itemIds : List Uuid) : Program Unit := do
  let cur ← .select fun s => currentList s.toDb userId listId
  .check (cur.requireOpen "items can only be added to open lists")
  .check (validateLines lines)
  let _ ← lockList listId
  let count ← read fun s => (s.listItems.filter fun li => decide (li.listId = listId)).length
  .check (require (count + lines.length ≤ limits.itemsPerList) (ApiError.quotaExceeded
    (s!"adding {lines.length} items would push the list past its per-list cap " ++
      s!"({count} of {limits.itemsPerList})")))
  insert (itemIds.map .item)
    (fun s => decide (itemIds.length = lines.length ∧ itemIds.Nodup ∧
      ∀ id ∈ itemIds, s.item? id = none))
    ((newItems listId userId lines itemIds).map fun li => .put (.item li))

/-- Lock list and item; only an open item may be changed. -/
def lockEditable (listId itemId : Uuid) (action : String) : Program Unit := do
  let _ ← lockList listId
  let li ← lockItem listId itemId
  .check (require (li.status = .open) (ApiError.conflict
    (s!"cannot {action} item with status '{li.status}'; " ++
      "release the claim or reverse fulfillments first")))

def patchItem (userId listId itemId : Uuid) (body : PatchItemBody) : Program Unit := do
  let cur ← .select fun s => currentList s.toDb userId listId
  .check cur.requireMutable
  .check (require (body.qtyRequested ≠ none ∨ body.resolvedType ≠ none)
    (ApiError.badRequest "nothing to update"))
  .check (require (∀ qty ∈ body.qtyRequested, 0 < qty)
    (ApiError.badRequest "qty_requested must be positive"))
  lockEditable listId itemId "edit"
  if body.qtyRequested ≠ none then do
    let _ ← updateItems (fun _ => onItem listId itemId)
      fun _ => PatchItemBody.assign { body with resolvedType := none }
    pure ()
  else pure ()
  if body.resolvedType ≠ none then do
    let _ ← updateItems (fun _ => onItem listId itemId)
      fun _ => PatchItemBody.assign { body with qtyRequested := none }
    pure ()
  else pure ()

def deleteFulfillments (p : Fulfillment → Bool) : Program (List Fulfillment) :=
  change (·.fulfillments) (fun f => .fulfillment f.id) (fun _ => p) (fun _ _ => true)
    fun _ f => .drop (.fulfillment f)

def deleteItems (p : ListItem → Bool) : Program (List ListItem) :=
  change (·.listItems) (fun li => .item li.id) (fun _ => p) (fun _ _ => true)
    fun _ li => .drop (.item li)

/-- Purchases and claim rows of a deleted item go by statements of their foreign keys. -/
def deleteItem (userId listId itemId : Uuid) : Program Unit := do
  let cur ← .select fun s => currentList s.toDb userId listId
  .check cur.requireMutable
  lockEditable listId itemId "delete"
  let gone ← deleteItems (onItem listId itemId)
  .check (require (gone ≠ []) ApiError.missing)
  let _ ← deleteClaimItems fun ci => decide (ci.listItemId = itemId)
  let _ ← deleteFulfillments fun f => decide (f.listItemId = itemId)
  pure ()

def setListTip (userId listId : Uuid) (tipPct : ℚ) : Program Unit := do
  let cur ← .select fun s => currentList s.toDb userId listId
  .check cur.requireMutable
  .check (validateTipPct tipPct)
  .check (require (userId = cur.createdByUserId ∨ cur.role = .owner) ApiError.noAccess)
  let _ ← lockList listId
  if cur.role ≠ .owner then
    .select fun s => require (¬ ∃ f ∈ s.fulfillments, f.live = true ∧
      ∃ li ∈ s.item? f.listItemId, li.listId = listId) ApiError.noAccess
  else pure ()
  let _ ← updateLists (fun _ l => decide (l.id = listId))
    fun l => { l with tipPct := storedTip tipPct }
  let _ ← updateReimbursements (pendingOnList listId)
    (fun r => decide (Fits 24 (retip tipPct r).tipIsk ∧ Fits 24 (retip tipPct r).totalIsk))
    (retip tipPct)
  pure ()

/-- The list's lock is taken by the last statement only. -/
def patchListPayer (userId listId : Uuid) (body : PatchListPayerBody) : Program Unit := do
  let payer ← .check body.payer
  let groupId ← .select fun s => do
    let l ← fetch ApiError.noAccess (s.list? listId)
    require (s.directory.roleOf userId l.groupId = some .owner) ApiError.noAccess
    .ok l.groupId
  .select fun s => require (∀ r ∈ s.reimbursements, r.listId ≠ listId)
    (ApiError.conflict "payer cannot be changed after reimbursements have been generated")
  .select fun s => checkPayerLinked s.toDb groupId payer
  let _ ← updateLists (fun _ l => decide (l.id = listId)) fun l => { l with payer := payer }
  pure ()

section Emits
variable {α : Type} {P : Write → Prop}

theorem emits_read (query : Shop → α) : (read query).Emits P := Prog.emits_select _

theorem emits_lockOne (find : Shop → Option α) (row : α → Row) : (lockOne find row).Emits P := by
  refine Prog.emits_statement fun st s ws a h => ?_
  obtain ⟨rfl, -⟩ := Prod.mk.inj (Option.some.inj h)
  simp

theorem change_eq_some {found : List α} {b : Bool} {write : α → Write} {ws : List Write}
    {a : List α} (h : (if b = true then some (found.map write, found) else none) = some (ws, a)) :
    ws = found.map write ∧ a = found := by
  split at h
  · obtain ⟨rfl, rfl⟩ := Prod.mk.inj (Option.some.inj h)
    exact ⟨rfl, rfl⟩
  · cases h

theorem emits_change {rows : Shop → List α} {row : α → Row} {p fits : Shop → α → Bool}
    {write : Shop → α → Write} (h : ∀ s x, P (write s x)) :
    (change rows row p fits write).Emits P := by
  refine Prog.emits_statement fun st s ws a hact w hw => ?_
  obtain ⟨rfl, -⟩ := change_eq_some hact
  obtain ⟨x, -, rfl⟩ := List.mem_map.mp hw
  exact h _ x

theorem emits_insert {keys : List Row} {free : Shop → Bool} {writes : List Write}
    (h : ∀ w ∈ writes, P w) : (insert keys free writes).Emits P := by
  refine Prog.emits_statement fun st s ws a hact => ?_
  split at hact
  · obtain ⟨rfl, -⟩ := Prod.mk.inj (Option.some.inj hact)
    exact h
  · cases hact

theorem emits_lockList (listId : Uuid) : (lockList listId).Emits P :=
  Prog.emits_bind (emits_lockOne _ _) fun _ => Prog.emits_check _

theorem emits_lockItem (listId itemId : Uuid) : (lockItem listId itemId).Emits P :=
  Prog.emits_bind (emits_lockOne _ _) fun _ => Prog.emits_check _

end Emits

/-- Items, claims and their rows; no money and no list. -/
def Clerical : Write → Prop
  | .put (.item _) | .put (.claim _) | .put (.claimItem _) => True
  | _ => False

theorem clerical_recomputeItemStatus (itemId : Uuid) (demotion : DeliveredDemotion) :
    (recomputeItemStatus itemId demotion).Emits Clerical := by
  refine Prog.emits_bind (Prog.emits_select _) fun current => ?_
  split
  · exact Prog.emits_pure _
  · refine Prog.emits_bind (Prog.emits_select _) fun _ => ?_
    exact Prog.emits_bind (emits_change fun _ _ => trivial) fun _ => Prog.emits_pure _

theorem clerical_recomputeItemStatusesBulk (itemIds : List Uuid) :
    (recomputeItemStatusesBulk itemIds).Emits Clerical := by
  unfold recomputeItemStatusesBulk updateItems
  exact emits_change fun _ _ => trivial

theorem clerical_updateClaimStatus (claimId : Uuid) (guard : Claim → Bool) (status : ClaimStatus) :
    (updateClaimStatus claimId guard status).Emits Clerical := by
  refine Prog.emits_bind (emits_change fun _ _ => trivial) fun changed => ?_
  refine Prog.emits_forM (fun c => ?_) changed
  split
  · exact Prog.emits_bind (emits_change fun _ _ => trivial) fun _ => Prog.emits_pure _
  · exact Prog.emits_pure _

theorem clerical_completeClaim (active : Option Claim) (newStatus : ListItemStatus) :
    (completeClaim active newStatus).Emits Clerical := by
  unfold completeClaim
  split
  · exact Prog.emits_pure _
  · split
    · refine Prog.emits_bind (emits_read _) fun allDone => ?_
      split
      · exact clerical_updateClaimStatus _ _ _
      · exact Prog.emits_pure _
    · exact Prog.emits_pure _

end JitaCart.Concurrent.Trade
