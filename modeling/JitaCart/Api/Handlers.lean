/- module: JitaCart/Api/Handlers
   source: backend/crates/api/src/fulfillment/claims.rs,
     backend/crates/api/src/fulfillment/fulfillments.rs, backend/crates/api/src/lists/items.rs,
     backend/crates/api/src/fulfillment/tips.rs
   digest: The handlers as functions of the snapshot that their extractor read before them. -/

import JitaCart.Api.Fulfillments
import JitaCart.Api.Lists

/-!
A handler receives the `CurrentList` or `CurrentClaim` that the extractor read
before any lock was taken, and then runs under the lock of the list row. The
requests of `Api.Claims`, `Api.Fulfillments` and `Api.Lists` are the case in
which nothing happens in between.
-/

set_option autoImplicit false
set_option relaxedAutoImplicit false

namespace JitaCart.Api.Handlers

open Schema Base.Table Base.Request Base.Numeric Extract ItemStatus Reimbursements Api.Lists
open Fulfillments
open Claims (validateClaimableItems validateClaimableItems_ok insertClaimItems withoutClaimRow
  updateClaimStatus)

def createClaim (s : Db) (cur : CurrentList) (itemIds : List Uuid) (claimId : Uuid) :
    Except ApiError Db := do
  cur.requireOpen "claims can only be created on open lists"
  require (itemIds ≠ []) (.badRequest "item_ids must not be empty")
  lockList s cur.listId
  validateClaimableItems s cur.listId itemIds
  require (s.claim? claimId = none) DbError.duplicateKey.toApi
  insertClaimItems { s with claims := s.claims ++ [⟨claimId, cur.listId, cur.userId, .active⟩] }
    claimId itemIds

def addClaimItems (s : Db) (cur : CurrentClaim) (itemIds : List Uuid) : Except ApiError Db := do
  cur.requireListMutable
  ensureClaimWritable cur.userId cur.haulerUserId cur.role cur.status
  require (itemIds ≠ []) (.badRequest "item_ids must not be empty")
  lockList s cur.listId
  validateClaimableItems s cur.listId itemIds
  insertClaimItems s cur.claimId itemIds

def removeClaimItem (s : Db) (cur : CurrentClaim) (itemId : Uuid) : Except ApiError Db := do
  cur.requireListMutable
  ensureClaimWritable cur.userId cur.haulerUserId cur.role cur.status
  lockList s cur.listId
  let kept := withoutClaimRow s cur.claimId itemId
  require (kept.claimItems.length ≠ s.claimItems.length) .missing
  let (_, s') ← recomputeItemStatus kept itemId .forbid
  return s'

def releaseClaim (s : Db) (cur : CurrentClaim) : Except ApiError Db := do
  cur.requireListMutable
  ensureClaimWritable cur.userId cur.haulerUserId cur.role cur.status
  lockList s cur.listId
  let itemIds :=
    (s.claimItems.filter fun ci => decide (ci.claimId = cur.claimId)).map (·.listItemId)
  recomputeItemStatusesBulk (updateClaimStatus s cur.claimId (fun _ => true) .released) itemIds

def recordFulfillment (s : Db) (cur : CurrentList) (itemId : Uuid) (body : RecordFulfillmentBody)
    (gen : Generated) : Except ApiError Db := do
  cur.requireMutable
  validateBody body
  lockList s cur.listId
  let li ← fetch .missing ((s.item? itemId).filter fun li => decide (li.listId = cur.listId))
  require (wrapI64 (body.qty + li.qtyFulfilled) ≤ li.qtyRequested)
    (.conflict (s!"fulfillment qty {body.qty} would exceed requested {li.qtyRequested} " ++
      s!"(already fulfilled: {li.qtyFulfilled})"))
  requirePending (reimbursementStatus s cur.listId li.requestedByUserId cur.userId) fun rs =>
    .conflict (s!"reimbursement for this requester is already {rs}; " ++
      "cannot record additional fulfillments")
  validateRefs s cur.userId body
  let active := activeClaim s itemId
  checkActiveClaim active cur.userId cur.role body.claimId
  let s₁ ← insertFulfillment s
    (newFulfillment body gen.fulfillmentId cur.userId itemId active gen.now)
  let (newStatus, s₂) ← recomputeItemStatus s₁ itemId .forbid
  let s₃ := completeClaim s₂ active newStatus
  upsertReimbursement s₃ cur.listId li.requestedByUserId cur.userId gen.reimbursementId

def markDelivered (s : Db) (cur : CurrentList) (itemId : Uuid) (lastHauler : Option Uuid) :
    Except ApiError Db := do
  cur.requireMutable
  lockList s cur.listId
  let li ← fetch .missing ((s.item? itemId).filter fun li => decide (li.listId = cur.listId))
  require (IsLastHauler s itemId lastHauler) (.internal "last_hauler is not a result of the query")
  require (li.status = .bought) (.badRequest
    s!"item must be in 'bought' status to mark delivered (currently: {li.status})")
  require (cur.userId = lastHauler.getD nilUuid ∨ cur.role = .owner) .noAccess
  .ok (setDelivered s itemId)

def create (s : Db) (limits : Limits) (userId groupId : Uuid) (lines : List NewLine)
    (listId : Uuid) (itemIds : List Uuid) : Except ApiError Db := do
  validateLines lines
  require (lines.length ≤ limits.itemsPerList) (.quotaExceeded
    s!"list has {lines.length} items; per-list cap is {limits.itemsPerList}")
  checkListsQuota s groupId limits.listsPerGroup
  let g ← fetch (.internal "null value in column tip_pct")
    (lookup Group.id groupId s.directory.groups)
  require (s.list? listId = none) DbError.duplicateKey.toApi
  insertItems { s with lists := s.lists ++ [⟨listId, groupId, userId, .open, g.defaultTipPct, none⟩] }
    listId userId lines itemIds

def addItems (s : Db) (cur : CurrentList) (limits : Limits) (lines : List NewLine)
    (itemIds : List Uuid) : Except ApiError Db := do
  cur.requireOpen "items can only be added to open lists"
  validateLines lines
  lockList s cur.listId
  let count := (s.listItems.filter fun li => decide (li.listId = cur.listId)).length
  require (count + lines.length ≤ limits.itemsPerList)
    (.quotaExceeded (s!"adding {lines.length} items would push the list past its per-list cap " ++
      s!"({count} of {limits.itemsPerList})"))
  insertItems s cur.listId cur.userId lines itemIds

def patchItem (s : Db) (cur : CurrentList) (itemId : Uuid) (body : PatchItemBody) :
    Except ApiError Db := do
  cur.requireMutable
  require (body.qtyRequested ≠ none ∨ body.resolvedType ≠ none) (.badRequest "nothing to update")
  require (∀ qty ∈ body.qtyRequested, 0 < qty) (.badRequest "qty_requested must be positive")
  lockList s cur.listId
  let li ← fetch .missing ((s.item? itemId).filter fun li => decide (li.listId = cur.listId))
  require (li.status = .open) (.conflict (s!"cannot edit item with status '{li.status}'; " ++
    "release the claim or reverse fulfillments first"))
  .ok { s with listItems := updateWhere (onItem cur.listId itemId) body.assign s.listItems }

def deleteItem (s : Db) (cur : CurrentList) (itemId : Uuid) : Except ApiError Db := do
  cur.requireMutable
  lockList s cur.listId
  let li ← fetch .missing ((s.item? itemId).filter fun li => decide (li.listId = cur.listId))
  require (li.status = .open) (.conflict (s!"cannot delete item with status '{li.status}'; " ++
    "release the claim or reverse fulfillments first"))
  .ok (dropItem s cur.listId itemId)

def setListTip (s : Db) (cur : CurrentList) (tipPct : ℚ) : Except ApiError Db := do
  cur.requireMutable
  validateTipPct tipPct
  require (cur.userId = cur.createdByUserId ∨ cur.role = .owner) .noAccess
  lockList s cur.listId
  require (cur.role = .owner ∨ ¬ ∃ f ∈ s.fulfillments, f.live = true ∧
      ∃ li ∈ s.item? f.listItemId, li.listId = cur.listId) .noAccess
  require (∀ r ∈ s.reimbursements, pendingOnList cur.listId r = true →
      Fits 24 (retip tipPct r).tipIsk ∧ Fits 24 (retip tipPct r).totalIsk)
    DbError.numericOverflow.toApi
  .ok { s with
    lists := updateWhere (fun l => decide (l.id = cur.listId))
      (fun l => { l with tipPct := storedTip tipPct }) s.lists
    reimbursements := updateWhere (pendingOnList cur.listId) (retip tipPct) s.reimbursements }

-- A request that nothing interrupts is its extractor followed by its handler.
section Uninterrupted
variable {s s' : Db} {userId listId claimId itemId : Uuid} {itemIds : List Uuid}

theorem createClaim_iff :
    Claims.createClaim s userId listId itemIds claimId = .ok s' ↔
      ∃ cur, currentList s userId listId = .ok cur ∧
        createClaim s cur itemIds claimId = .ok s' := by
  unfold Claims.createClaim createClaim
  rw [bind_eq_ok]
  refine exists_congr fun cur => and_congr_right fun h => ?_
  obtain ⟨l, role, -, -, rfl⟩ := currentList_ok h
  rfl

theorem addClaimItems_iff :
    Claims.addClaimItems s userId claimId itemIds = .ok s' ↔
      ∃ cur, currentClaim s userId claimId = .ok cur ∧
        addClaimItems s cur itemIds = .ok s' := by
  unfold Claims.addClaimItems addClaimItems
  rw [bind_eq_ok]
  refine exists_congr fun cur => and_congr_right fun h => ?_
  obtain ⟨c, l, role, -, -, -, rfl⟩ := currentClaim_ok h
  rfl

theorem removeClaimItem_iff :
    Claims.removeClaimItem s userId claimId itemId = .ok s' ↔
      ∃ cur, currentClaim s userId claimId = .ok cur ∧
        removeClaimItem s cur itemId = .ok s' := by
  unfold Claims.removeClaimItem removeClaimItem
  rw [bind_eq_ok]
  refine exists_congr fun cur => and_congr_right fun h => ?_
  obtain ⟨c, l, role, -, -, -, rfl⟩ := currentClaim_ok h
  rfl

theorem releaseClaim_iff :
    Claims.releaseClaim s userId claimId = .ok s' ↔
      ∃ cur, currentClaim s userId claimId = .ok cur ∧ releaseClaim s cur = .ok s' := by
  unfold Claims.releaseClaim releaseClaim
  rw [bind_eq_ok]
  refine exists_congr fun cur => and_congr_right fun h => ?_
  obtain ⟨c, l, role, -, -, -, rfl⟩ := currentClaim_ok h
  rfl

theorem recordFulfillment_iff {body : RecordFulfillmentBody} {gen : Generated} :
    Fulfillments.recordFulfillment s userId listId itemId body gen = .ok s' ↔
      ∃ cur, currentList s userId listId = .ok cur ∧
        recordFulfillment s cur itemId body gen = .ok s' := by
  unfold Fulfillments.recordFulfillment recordFulfillment
  rw [bind_eq_ok]
  refine exists_congr fun cur => and_congr_right fun h => ?_
  obtain ⟨l, role, -, -, rfl⟩ := currentList_ok h
  rfl

end Uninterrupted

section Accepted
variable {s s' : Db} {itemId claimId : Uuid} {itemIds : List Uuid}

theorem createClaim_ok {cur : CurrentList}
    (h : createClaim s cur itemIds claimId = .ok s') :
    cur.status = .open ∧ itemIds ≠ [] ∧ s.list? cur.listId ≠ none ∧
      validateClaimableItems s cur.listId itemIds = .ok () ∧ s.claim? claimId = none ∧
      insertClaimItems { s with claims := s.claims ++ [⟨claimId, cur.listId, cur.userId, .active⟩] }
        claimId itemIds = .ok s' := by
  simp only [createClaim, CurrentList.requireOpen, lockList, bind_eq_ok, require_eq_ok] at h
  obtain ⟨-, snapshot, -, nonempty, -, listed, _, hval, -, fresh, h⟩ := h
  exact ⟨snapshot, nonempty, listed, hval, fresh, h⟩

theorem addClaimItems_ok {cur : CurrentClaim} (h : addClaimItems s cur itemIds = .ok s') :
    cur.listStatus ≠ .archived ∧ cur.status = .active ∧ itemIds ≠ [] ∧
      s.list? cur.listId ≠ none ∧ validateClaimableItems s cur.listId itemIds = .ok () ∧
      insertClaimItems s cur.claimId itemIds = .ok s' := by
  simp only [addClaimItems, CurrentClaim.requireListMutable, ensureClaimWritable, lockList,
    bind_eq_ok, require_eq_ok] at h
  obtain ⟨-, mutable, -, ⟨-, -, active⟩, -, nonempty, -, listed, _, hval, h⟩ := h
  exact ⟨mutable, active, nonempty, listed, hval, h⟩

theorem createClaim_ne_ok {cur : CurrentList} : createClaim s cur itemIds claimId ≠ .ok s' := by
  intro h
  obtain ⟨-, nonempty, -, valid, -⟩ := createClaim_ok h
  exact nonempty (validateClaimableItems_ok valid)

theorem addClaimItems_ne_ok {cur : CurrentClaim} : addClaimItems s cur itemIds ≠ .ok s' := by
  intro h
  obtain ⟨-, -, nonempty, -, valid, -⟩ := addClaimItems_ok h
  exact nonempty (validateClaimableItems_ok valid)

theorem removeClaimItem_ok {cur : CurrentClaim} (h : removeClaimItem s cur itemId = .ok s') :
    cur.listStatus ≠ .archived ∧ s.list? cur.listId ≠ none ∧
      (∃ ci ∈ s.claimItems, ci.claimId = cur.claimId ∧ ci.listItemId = itemId) ∧
      ∃ status, recomputeItemStatus (withoutClaimRow s cur.claimId itemId) itemId .forbid =
        .ok (status, s') := by
  simp only [removeClaimItem, CurrentClaim.requireListMutable, lockList, bind_eq_ok,
    require_eq_ok, pure_eq_ok] at h
  obtain ⟨-, mutable, -, -, -, listed, -, shorter, ⟨status, s''⟩, h, rfl⟩ := h
  refine ⟨mutable, listed, ?_, status, h⟩
  -- `rows_affected` is not zero, so the row was there.
  by_contra absent
  refine shorter (congrArg List.length (List.filter_eq_self.mpr fun ci hci => ?_))
  by_cases hclaim : ci.claimId = cur.claimId
  · have hitem : ci.listItemId ≠ itemId := fun h => absent ⟨ci, hci, hclaim, h⟩
    simp [hitem]
  · simp [hclaim]

theorem releaseClaim_ok {cur : CurrentClaim} (h : releaseClaim s cur = .ok s') :
    cur.listStatus ≠ .archived ∧ s.list? cur.listId ≠ none ∧
      recomputeItemStatusesBulk (updateClaimStatus s cur.claimId (fun _ => true) .released)
        ((s.claimItems.filter fun ci => decide (ci.claimId = cur.claimId)).map (·.listItemId)) =
          .ok s' := by
  simp only [releaseClaim, CurrentClaim.requireListMutable, lockList, bind_eq_ok,
    require_eq_ok] at h
  obtain ⟨-, mutable, -, -, -, listed, h⟩ := h
  exact ⟨mutable, listed, h⟩

theorem recordFulfillment_ok {cur : CurrentList} {body : RecordFulfillmentBody}
    {gen : Generated} (h : recordFulfillment s cur itemId body gen = .ok s') :
    cur.status ≠ .archived ∧ s.list? cur.listId ≠ none ∧ ∃ li f s₁ status s₂,
      s.item? itemId = some li ∧ li.listId = cur.listId ∧
      f = newFulfillment body gen.fulfillmentId cur.userId itemId (activeClaim s itemId) gen.now ∧
      s.fulfillment? f.id = none ∧ s₁ = { s with fulfillments := s.fulfillments ++ [f] } ∧
      recomputeItemStatus s₁ itemId .forbid = .ok (status, s₂) ∧
      upsertReimbursement (completeClaim s₂ (activeClaim s itemId) status) cur.listId
        li.requestedByUserId cur.userId gen.reimbursementId = .ok s' := by
  simp only [recordFulfillment, CurrentList.requireMutable, lockList, bind_eq_ok, fetch_eq_ok,
    require_eq_ok] at h
  obtain ⟨-, mutable, -, -, -, listed, li, hli, -, -, -, -, -, -, -, -, s₁, hins,
    ⟨status, s₂⟩, hrec, hup⟩ := h
  obtain ⟨hitem, hlist⟩ := item_filter_eq_some.mp hli
  simp only [insertFulfillment, bind_eq_ok, require_eq_ok] at hins
  obtain ⟨-, -, -, -, -, fresh, hins⟩ := hins
  exact ⟨mutable, listed, li, _, s₁, status, s₂, hitem, hlist, rfl, fresh,
    (Except.ok.inj hins).symm, hrec, hup⟩

theorem markDelivered_ok {cur : CurrentList} {lastHauler : Option Uuid}
    (h : markDelivered s cur itemId lastHauler = .ok s') :
    cur.status ≠ .archived ∧ s.list? cur.listId ≠ none ∧
      ∃ li, s.item? itemId = some li ∧ li.listId = cur.listId ∧ s' = setDelivered s itemId := by
  simp only [markDelivered, CurrentList.requireMutable, lockList, bind_eq_ok, fetch_eq_ok,
    require_eq_ok] at h
  obtain ⟨-, mutable, -, listed, li, hli, -, -, -, -, -, -, h⟩ := h
  obtain ⟨hitem, hlist⟩ := item_filter_eq_some.mp hli
  exact ⟨mutable, listed, li, hitem, hlist, (Except.ok.inj h).symm⟩

theorem create_ok {limits : Limits} {userId groupId listId : Uuid} {lines : List NewLine}
    (h : create s limits userId groupId lines listId itemIds = .ok s') :
    s.list? listId = none ∧ ∃ g : Group, insertItems
      { s with lists := s.lists ++ [⟨listId, groupId, userId, .open, g.defaultTipPct, none⟩] }
      listId userId lines itemIds = .ok s' := by
  simp only [create, bind_eq_ok, fetch_eq_ok, require_eq_ok] at h
  obtain ⟨-, -, -, -, -, -, g, -, -, fresh, h⟩ := h
  exact ⟨fresh, g, h⟩

theorem addItems_ok {cur : CurrentList} {limits : Limits} {lines : List NewLine}
    (h : addItems s cur limits lines itemIds = .ok s') :
    cur.status = .open ∧ s.list? cur.listId ≠ none ∧
      insertItems s cur.listId cur.userId lines itemIds = .ok s' := by
  simp only [addItems, CurrentList.requireOpen, lockList, bind_eq_ok, require_eq_ok] at h
  obtain ⟨-, snapshot, -, -, -, listed, -, -, h⟩ := h
  exact ⟨snapshot, listed, h⟩

theorem patchItem_ok {cur : CurrentList} {body : PatchItemBody}
    (h : patchItem s cur itemId body = .ok s') :
    cur.status ≠ .archived ∧ s.list? cur.listId ≠ none ∧
      s' = { s with
        listItems := updateWhere (onItem cur.listId itemId) body.assign s.listItems } := by
  simp only [patchItem, CurrentList.requireMutable, lockList, bind_eq_ok, fetch_eq_ok,
    require_eq_ok] at h
  obtain ⟨-, mutable, -, -, -, -, -, listed, -, -, -, -, h⟩ := h
  exact ⟨mutable, listed, (Except.ok.inj h).symm⟩

theorem deleteItem_ok {cur : CurrentList} (h : deleteItem s cur itemId = .ok s') :
    cur.status ≠ .archived ∧ s.list? cur.listId ≠ none ∧
      ∃ li, s.item? itemId = some li ∧ li.listId = cur.listId ∧
        s' = dropItem s cur.listId itemId := by
  simp only [deleteItem, CurrentList.requireMutable, lockList, bind_eq_ok, fetch_eq_ok,
    require_eq_ok] at h
  obtain ⟨-, mutable, -, listed, li, hli, -, -, h⟩ := h
  obtain ⟨hitem, hlist⟩ := item_filter_eq_some.mp hli
  exact ⟨mutable, listed, li, hitem, hlist, (Except.ok.inj h).symm⟩

theorem setListTip_ok {cur : CurrentList} {tipPct : ℚ} (h : setListTip s cur tipPct = .ok s') :
    cur.status ≠ .archived ∧ s.list? cur.listId ≠ none ∧
      s' = { s with
        lists := updateWhere (fun l => decide (l.id = cur.listId))
          (fun l => { l with tipPct := storedTip tipPct }) s.lists
        reimbursements :=
          updateWhere (pendingOnList cur.listId) (retip tipPct) s.reimbursements } := by
  simp only [setListTip, CurrentList.requireMutable, lockList, bind_eq_ok, require_eq_ok] at h
  obtain ⟨-, mutable, -, -, -, -, -, listed, -, -, -, -, h⟩ := h
  exact ⟨mutable, listed, (Except.ok.inj h).symm⟩

end Accepted

end JitaCart.Api.Handlers
