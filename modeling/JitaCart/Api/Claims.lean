/- module: JitaCart/Api/Claims
   source: backend/crates/api/src/fulfillment/claims.rs,
     backend/migrations/20260427000000_init.sql (claims_sync_items)
   digest: Creating, extending, shrinking and releasing a claim. -/

import JitaCart.Api.ItemStatus

set_option autoImplicit false
set_option relaxedAutoImplicit false

namespace JitaCart.Api.Claims

open Schema Base.Table Base.Request Extract ItemStatus

/-- The rows are read as `(Uuid, String)`, but `list_items.status` is an enum: no row decodes. -/
def validateClaimableItems (s : Db) (listId : Uuid) (itemIds : List Uuid) :
    Except ApiError Unit := do
  let found := s.listItems.filter fun li => decide (li.id ∈ itemIds) && decide (li.listId = listId)
  let rows ← (found.mapM fun li =>
    tryGetString 1 (toString li.status) (.enum "list_item_status")).mapError DbError.toApi
  require (rows.length = itemIds.length)
    (.badRequest "one or more item_ids do not belong to this list")
  match rows.find? fun status => decide (status ≠ "open") with
  | some bad => .error (.conflict
      s!"cannot claim item with status '{bad}'; only open items may be claimed")
  | none => .ok ()

/-- `claim_items` with one active row per item. -/
def withClaimRows (s : Db) (claimId : Uuid) (itemIds : List Uuid) : Db :=
  { s with claimItems := s.claimItems ++ itemIds.map fun itemId => ⟨claimId, itemId, true⟩ }

/-- Insert the rows under the primary key and `claim_items_one_active`, then recompute. -/
def insertClaimItems (s : Db) (claimId : Uuid) (itemIds : List Uuid) : Except ApiError Db := do
  require (itemIds.Nodup ∧ ∀ ci ∈ s.claimItems, ci.claimId = claimId → ci.listItemId ∉ itemIds)
    DbError.duplicateKey.toApi
  require (∀ itemId ∈ itemIds, hasActiveClaim s itemId = false)
    (.conflict "one or more items are already claimed")
  recomputeItemStatusesBulk (withClaimRows s claimId itemIds) itemIds

/-- Trigger `sync_claim_items_active`, for a claim that goes from `old` to `new`. -/
def syncClaimItemsActive (old new : ClaimStatus) (claimId : Uuid) (t : List ClaimItem) :
    List ClaimItem :=
  if new ≠ .active ∧ old = .active then
    updateWhere (fun ci => decide (ci.claimId = claimId)) (fun ci => { ci with active := false }) t
  else if new = .active ∧ old ≠ .active then
    updateWhere (fun ci => decide (ci.claimId = claimId)) (fun ci => { ci with active := true }) t
  else t

/-- `UPDATE claims SET status = $1 WHERE id = $2 AND guard`, trigger included. -/
def updateClaimStatus (s : Db) (claimId : Uuid) (guard : Claim → Bool) (status : ClaimStatus) :
    Db :=
  match s.claim? claimId with
  | none => s
  | some c =>
    if guard c then
      { s with
        claims := updateWhere (fun c => decide (c.id = claimId))
          (fun c => { c with status := status }) s.claims
        claimItems := syncClaimItemsActive c.status status claimId s.claimItems }
    else s

def createClaim (s : Db) (userId listId : Uuid) (itemIds : List Uuid) (claimId : Uuid) :
    Except ApiError Db := do
  let cur ← currentList s userId listId
  cur.requireOpen "claims can only be created on open lists"
  require (itemIds ≠ []) (.badRequest "item_ids must not be empty")
  lockList s listId
  validateClaimableItems s listId itemIds
  require (s.claim? claimId = none) DbError.duplicateKey.toApi
  insertClaimItems { s with claims := s.claims ++ [⟨claimId, listId, userId, .active⟩] }
    claimId itemIds

def addClaimItems (s : Db) (userId claimId : Uuid) (itemIds : List Uuid) :
    Except ApiError Db := do
  let cur ← currentClaim s userId claimId
  cur.requireListMutable
  ensureClaimWritable userId cur.haulerUserId cur.role cur.status
  require (itemIds ≠ []) (.badRequest "item_ids must not be empty")
  lockList s cur.listId
  validateClaimableItems s cur.listId itemIds
  insertClaimItems s claimId itemIds

/-- `DELETE FROM claim_items WHERE claim_id = $1 AND list_item_id = $2`. -/
def withoutClaimRow (s : Db) (claimId itemId : Uuid) : Db :=
  { s with
    claimItems := s.claimItems.filter fun ci =>
      !(decide (ci.claimId = claimId) && decide (ci.listItemId = itemId)) }

def removeClaimItem (s : Db) (userId claimId itemId : Uuid) : Except ApiError Db := do
  let cur ← currentClaim s userId claimId
  cur.requireListMutable
  ensureClaimWritable userId cur.haulerUserId cur.role cur.status
  lockList s cur.listId
  let kept := withoutClaimRow s claimId itemId
  require (kept.claimItems.length ≠ s.claimItems.length) .missing
  let (_, s') ← recomputeItemStatus kept itemId .forbid
  return s'

def releaseClaim (s : Db) (userId claimId : Uuid) : Except ApiError Db := do
  let cur ← currentClaim s userId claimId
  cur.requireListMutable
  ensureClaimWritable userId cur.haulerUserId cur.role cur.status
  lockList s cur.listId
  let itemIds := (s.claimItems.filter fun ci => decide (ci.claimId = claimId)).map (·.listItemId)
  recomputeItemStatusesBulk (updateClaimStatus s claimId (fun _ => true) .released) itemIds

theorem validateClaimableItems_ok {s : Db} {listId : Uuid} {itemIds : List Uuid} {u : Unit}
    (h : validateClaimableItems s listId itemIds = .ok u) : itemIds = [] := by
  simp only [validateClaimableItems, bind_eq_ok, require_eq_ok, mapError_eq_ok] at h
  obtain ⟨rows, decoded, -, count, -⟩ := h
  cases found : s.listItems.filter fun li =>
      decide (li.id ∈ itemIds) && decide (li.listId = listId) with
  | nil =>
    rw [found] at decoded
    obtain rfl := Except.ok.inj decoded
    exact List.length_eq_zero_iff.mp count.symm
  | cons li rest =>
    rw [found, List.mapM_cons] at decoded
    cases decoded

theorem insertClaimItems_ok {s s' : Db} {claimId : Uuid} {itemIds : List Uuid}
    (h : insertClaimItems s claimId itemIds = .ok s') :
    recomputeItemStatusesBulk (withClaimRows s claimId itemIds) itemIds = .ok s' := by
  simp only [insertClaimItems, bind_eq_ok, require_eq_ok] at h
  obtain ⟨-, -, -, -, h⟩ := h
  exact h

theorem createClaim_ok {s s' : Db} {userId listId : Uuid} {itemIds : List Uuid} {claimId : Uuid}
    (h : createClaim s userId listId itemIds claimId = .ok s') :
    validateClaimableItems s listId itemIds = .ok () ∧ s.claim? claimId = none ∧
      insertClaimItems { s with claims := s.claims ++ [⟨claimId, listId, userId, .active⟩] }
        claimId itemIds = .ok s' := by
  simp only [createClaim, bind_eq_ok, require_eq_ok] at h
  obtain ⟨-, -, -, -, -, -, -, -, _, hval, -, hfresh, h⟩ := h
  exact ⟨hval, hfresh, h⟩

theorem addClaimItems_ok {s s' : Db} {userId claimId : Uuid} {itemIds : List Uuid}
    (h : addClaimItems s userId claimId itemIds = .ok s') :
    ∃ c, s.claim? claimId = some c ∧ c.status = .active ∧
      validateClaimableItems s c.listId itemIds = .ok () ∧
      insertClaimItems s claimId itemIds = .ok s' := by
  simp only [addClaimItems, bind_eq_ok, require_eq_ok, ensureClaimWritable] at h
  obtain ⟨cur, hcur, -, -, -, ⟨-, -, hactive⟩, -, -, -, -, _, hval, h⟩ := h
  obtain ⟨c, l, role, hc, hl, hrole, rfl⟩ := currentClaim_ok hcur
  exact ⟨c, hc, hactive, hval, h⟩

theorem removeClaimItem_ok {s s' : Db} {userId claimId itemId : Uuid}
    (h : removeClaimItem s userId claimId itemId = .ok s') :
    ∃ status, recomputeItemStatus (withoutClaimRow s claimId itemId) itemId .forbid =
      .ok (status, s') := by
  simp only [removeClaimItem, bind_eq_ok, require_eq_ok, pure_eq_ok] at h
  obtain ⟨-, -, -, -, -, -, -, -, -, -, ⟨status, s''⟩, h, rfl⟩ := h
  exact ⟨status, h⟩

theorem releaseClaim_ok {s s' : Db} {userId claimId : Uuid}
    (h : releaseClaim s userId claimId = .ok s') :
    ∃ c, s.claim? claimId = some c ∧ c.status = .active ∧
      recomputeItemStatusesBulk (updateClaimStatus s claimId (fun _ => true) .released)
        ((s.claimItems.filter fun ci => decide (ci.claimId = claimId)).map (·.listItemId)) =
          .ok s' := by
  simp only [releaseClaim, bind_eq_ok, require_eq_ok, ensureClaimWritable] at h
  obtain ⟨cur, hcur, -, -, -, ⟨-, -, hactive⟩, -, -, h⟩ := h
  obtain ⟨c, l, role, hc, hl, hrole, rfl⟩ := currentClaim_ok hcur
  exact ⟨c, hc, hactive, h⟩

end JitaCart.Api.Claims
