/- module: JitaCart/Api/ItemStatus
   source: backend/crates/api/src/fulfillment.rs
   digest: Shared fulfillment helpers: the single and the bulk recompute of an item's status. -/

import JitaCart.Api.Extract

set_option autoImplicit false
set_option relaxedAutoImplicit false

namespace JitaCart.Api.ItemStatus

open Schema Base.Table Base.Request Base.Numeric

inductive DeliveredDemotion
  | forbid | allow
  deriving DecidableEq

/-- `SELECT ... FOR UPDATE` of the list row; on one request at a time only its existence matters. -/
def lockList (s : Db) (listId : Uuid) : Except ApiError Unit :=
  require (s.list? listId ≠ none) .missing

def validateTipPct (v : ℚ) : Except ApiError Unit :=
  require (0 ≤ v ∧ v ≤ 1) (.badRequest "tip_pct must be between 0 and 1")

def ensureClaimWritable (userId haulerUserId : Uuid) (role : GroupRole) (status : ClaimStatus) :
    Except ApiError Unit := do
  require (userId = haulerUserId ∨ role = .owner) .noAccess
  require (status = .active) (.conflict s!"claim is {status}, not active")

/-- `SUM(qty)` over the item's non-reversed fulfillments. -/
def liveQty (s : Db) (itemId : Uuid) : Int :=
  sumWhere (fun f => decide (f.listItemId = itemId) && f.live) (·.qty) s.fulfillments

/-- `EXISTS(SELECT 1 FROM claim_items WHERE list_item_id = $1 AND active)`. -/
def hasActiveClaim (s : Db) (itemId : Uuid) : Bool :=
  s.claimItems.any fun ci => decide (ci.listItemId = itemId) && ci.active

/-- The status that quantities and claims alone give. -/
def baseStatus (qtyFulfilled qtyRequested : Int) (hasActive : Bool) : ListItemStatus :=
  if qtyFulfilled ≥ qtyRequested then .bought
  else if hasActive then .claimed
  else .open

/-- `UPDATE list_items SET status = $1, qty_fulfilled = $2 WHERE id = $3`. -/
def setStatus (s : Db) (itemId : Uuid) (status : ListItemStatus) (qtyFulfilled : Int) : Db :=
  { s with
    listItems := updateWhere (fun li => decide (li.id = itemId))
      (fun li => { li with status := status, qtyFulfilled := qtyFulfilled }) s.listItems }

/-- Never demotes settled; demotes delivered only under `allow` and when no longer full. -/
def recomputeItemStatus (s : Db) (itemId : Uuid) (demotion : DeliveredDemotion) :
    Except ApiError (ListItemStatus × Db) := do
  let li ← fetch .missing (s.item? itemId)
  if li.status = .settled ∨ (li.status = .delivered ∧ demotion = .forbid) then
    .ok (li.status, s)
  else do
    let qtyFulfilled := liveQty s itemId
    require (FitsBigint qtyFulfilled) DbError.bigintOutOfRange.toApi
    let base := baseStatus qtyFulfilled li.qtyRequested (hasActiveClaim s itemId)
    -- Preserve delivered when the item is still fully fulfilled.
    let new := if li.status = .delivered ∧ base = .bought then .delivered else base
    .ok (new, setStatus s itemId new qtyFulfilled)

/-- The row a bulk recompute writes for one item. -/
def recomputedRow (s : Db) (li : ListItem) : ListItem :=
  { li with
    qtyFulfilled := liveQty s li.id
    status :=
      if li.status = .delivered ∨ li.status = .settled then li.status
      else baseStatus (liveQty s li.id) li.qtyRequested (hasActiveClaim s li.id) }

/-- One statement over many items; delivered and settled keep their status. -/
def recomputeItemStatusesBulk (s : Db) (itemIds : List Uuid) : Except ApiError Db := do
  require (∀ li ∈ s.listItems, li.id ∈ itemIds → FitsBigint (liveQty s li.id))
    DbError.bigintOutOfRange.toApi
  .ok { s with
    listItems := updateWhere (fun li => decide (li.id ∈ itemIds)) (recomputedRow s) s.listItems }

/-- What a single recompute does: nothing on a frozen status, else one row from the base status. -/
theorem recomputeItemStatus_ok {s s' : Db} {itemId : Uuid} {demotion : DeliveredDemotion}
    {status : ListItemStatus} (h : recomputeItemStatus s itemId demotion = .ok (status, s')) :
    ∃ li, s.item? itemId = some li ∧
      (((li.status = .settled ∨ (li.status = .delivered ∧ demotion = .forbid)) ∧
          status = li.status ∧ s' = s) ∨
        (li.status ≠ .settled ∧ (li.status = .delivered → demotion = .allow) ∧
          FitsBigint (liveQty s itemId) ∧
          status = (if li.status = .delivered ∧
              baseStatus (liveQty s itemId) li.qtyRequested (hasActiveClaim s itemId) = .bought
            then .delivered
            else baseStatus (liveQty s itemId) li.qtyRequested (hasActiveClaim s itemId)) ∧
          s' = setStatus s itemId status (liveQty s itemId))) := by
  simp only [recomputeItemStatus, bind_eq_ok, fetch_eq_ok] at h
  obtain ⟨li, hli, h⟩ := h
  refine ⟨li, hli, ?_⟩
  split at h
  · rename_i frozen
    simp only [Except.ok.injEq, Prod.mk.injEq] at h
    exact .inl ⟨frozen, h.1.symm, h.2.symm⟩
  · rename_i moving
    simp only [bind_eq_ok, require_eq_ok, Except.ok.injEq, Prod.mk.injEq] at h
    obtain ⟨-, fits, rfl, rfl⟩ := h
    refine .inr ⟨fun hs => moving (.inl hs), fun hd => ?_, fits, rfl, rfl⟩
    cases demotion with
    | allow => rfl
    | forbid => exact absurd (.inr ⟨hd, rfl⟩) moving

theorem recomputeItemStatusesBulk_ok {s s' : Db} {itemIds : List Uuid}
    (h : recomputeItemStatusesBulk s itemIds = .ok s') :
    s' = { s with
      listItems := updateWhere (fun li => decide (li.id ∈ itemIds)) (recomputedRow s)
        s.listItems } := by
  simp only [recomputeItemStatusesBulk, bind_eq_ok, require_eq_ok, Except.ok.injEq] at h
  obtain ⟨-, -, rfl⟩ := h
  rfl

end JitaCart.Api.ItemStatus
