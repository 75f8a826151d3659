/- module: JitaCart/Items/Stock
   source: backend/crates/api/src/fulfillment.rs (recompute_item_status,
     recompute_item_statuses_bulk), backend/crates/api/src/fulfillment/claims.rs
   digest: The item-status invariant, and the claim requests that keep it. -/

import JitaCart.Books.Projection

set_option autoImplicit false
set_option relaxedAutoImplicit false

namespace JitaCart.Items

open Schema Base.Table Base.Request Settlement
open Api.ItemStatus Api.Claims Api.Fulfillments Api.Lists

/-- Bought, delivered and settled are the statuses of a fully supplied item. -/
def done : ListItemStatus → Bool
  | .bought | .delivered | .settled => true
  | .open | .claimed => false

/-- The status that quantities and claims allow: delivered and settled need a full item, the
others are determined. -/
def consistentStatus (qtyFulfilled qtyRequested : Int) (active : Bool) : ListItemStatus → Prop
  | .delivered | .settled => qtyFulfilled = qtyRequested
  | status => status =
      if qtyFulfilled = qtyRequested then .bought else if active then .claimed else .open

instance (qtyFulfilled qtyRequested : Int) (active : Bool) (status : ListItemStatus) :
    Decidable (consistentStatus qtyFulfilled qtyRequested active status) := by
  unfold consistentStatus
  split <;> infer_instance

def ItemConsistent (s : Db) (li : ListItem) : Prop :=
  li.qtyFulfilled = liveQty s li.id ∧ li.qtyFulfilled ≤ li.qtyRequested ∧
    consistentStatus li.qtyFulfilled li.qtyRequested (hasActiveClaim s li.id) li.status

instance (s : Db) (li : ListItem) : Decidable (ItemConsistent s li) := by
  unfold ItemConsistent
  infer_instance

structure Stock (s : Db) : Prop where
  consistent : ∀ li ∈ s.listItems, ItemConsistent s li
  requested : ∀ li ∈ s.listItems, 0 < li.qtyRequested
  positive : ∀ f ∈ s.fulfillments, 0 < f.qty ∧ 0 ≤ f.unitPriceIsk
  claimed : ∀ ci ∈ s.claimItems, ∃ li ∈ s.listItems, li.id = ci.listItemId

theorem consistentStatus_base {qf qr : Int} {active : Bool} (h : qf ≤ qr) :
    consistentStatus qf qr active (baseStatus qf qr active) := by
  unfold baseStatus
  by_cases full : qf = qr
  · subst full
    simp [consistentStatus]
  · have short : ¬ qf ≥ qr := by omega
    rw [if_neg short]
    cases active <;> simp [consistentStatus, full]

theorem consistentStatus_done {qf qr : Int} {active : Bool} {status : ListItemStatus}
    (h : consistentStatus qf qr active status) : done status = true ↔ qf = qr := by
  cases status <;> simp only [consistentStatus, done] at h ⊢
  case bought =>
    refine ⟨fun _ => ?_, fun _ => trivial⟩
    by_contra short
    rw [if_neg short] at h
    split at h <;> simp at h
  case «open» =>
    refine ⟨fun hd => by simp at hd, fun full => ?_⟩
    rw [if_pos full] at h
    simp at h
  case claimed =>
    refine ⟨fun hd => by simp at hd, fun full => ?_⟩
    rw [if_pos full] at h
    simp at h
  case delivered => simpa using h
  case settled => simpa using h

private theorem consistentStatus_of_done {qf qr : Int} {active active' : Bool}
    {status : ListItemStatus} (h : consistentStatus qf qr active status) (hd : done status = true) :
    consistentStatus qf qr active' status := by
  have full := (consistentStatus_done h).mp hd
  cases status <;> simp_all [consistentStatus, done]

theorem ItemConsistent.congr {s s' : Db} {li : ListItem} (h : ItemConsistent s li)
    (qty : liveQty s' li.id = liveQty s li.id)
    (active : hasActiveClaim s' li.id = hasActiveClaim s li.id ∨ done li.status = true) :
    ItemConsistent s' li := by
  obtain ⟨hq, hle, hs⟩ := h
  refine ⟨hq.trans qty.symm, hle, ?_⟩
  rcases active with same | hd
  · rw [same]
    exact hs
  · exact consistentStatus_of_done hs hd

theorem Stock.frame {s s' : Db} (st : Stock s) (items : s'.listItems = s.listItems)
    (fulfillments : s'.fulfillments = s.fulfillments)
    (claimItems : s'.claimItems = s.claimItems) : Stock s' := by
  have active : ∀ id, hasActiveClaim s' id = hasActiveClaim s id := fun id => by
    unfold hasActiveClaim
    rw [claimItems]
  have qty : ∀ id, liveQty s' id = liveQty s id := fun id => by
    unfold liveQty
    rw [fulfillments]
  refine ⟨?_, ?_, ?_, ?_⟩
  · rw [items]
    exact fun li hli => (st.consistent li hli).congr (qty _) (.inl (active _))
  · rw [items]
    exact st.requested
  · rw [fulfillments]
    exact st.positive
  · rw [claimItems, items]
    exact st.claimed

private theorem Stock.claims_moved {s s' : Db} (st : Stock s) (items : s'.listItems = s.listItems)
    (fulfillments : s'.fulfillments = s.fulfillments)
    (others : ∀ li ∈ s.listItems,
      hasActiveClaim s' li.id = hasActiveClaim s li.id ∨ done li.status = true)
    (claimed : ∀ ci ∈ s'.claimItems, ∃ li ∈ s.listItems, li.id = ci.listItemId) : Stock s' := by
  refine ⟨?_, ?_, ?_, ?_⟩
  · intro li hli
    rw [items] at hli
    refine (st.consistent li hli).congr ?_ (others li hli)
    unfold liveQty
    rw [fulfillments]
  · rw [items]
    exact st.requested
  · rw [fulfillments]
    exact st.positive
  · rw [items]
    exact claimed

private theorem recomputedRow_id (m : Db) (li : ListItem) : (recomputedRow m li).id = li.id := rfl

private theorem consistent_recomputedRow {m s' : Db} {li : ListItem}
    (fulfillments : s'.fulfillments = m.fulfillments) (claimItems : s'.claimItems = m.claimItems)
    (fits : liveQty m li.id ≤ li.qtyRequested)
    (frozen : li.status = .delivered ∨ li.status = .settled → liveQty m li.id = li.qtyRequested) :
    ItemConsistent s' (recomputedRow m li) := by
  have qty : liveQty s' li.id = liveQty m li.id := by
    unfold liveQty
    rw [fulfillments]
  have active : hasActiveClaim s' li.id = hasActiveClaim m li.id := by
    unfold hasActiveClaim
    rw [claimItems]
  refine ⟨qty.symm, fits, ?_⟩
  simp only [recomputedRow, active]
  split
  · rename_i hs
    have full := frozen hs
    rcases hs with hs | hs <;> rw [hs] <;> exact full
  · exact consistentStatus_base fits

private theorem ItemConsistent.frozen_full {s : Db} {li : ListItem} (h : ItemConsistent s li)
    (hs : li.status = .delivered ∨ li.status = .settled) : liveQty s li.id = li.qtyRequested := by
  rw [← h.1]
  apply (consistentStatus_done h.2.2).mp
  rcases hs with hs | hs <;> simp [hs, done]

/-- A bulk recompute of the selected items restores the invariant when claims of the other items
did not move. -/
private theorem Stock.recomputed {s m s' : Db} {sel : ListItem → Bool} (st : Stock s)
    (hs' : s' = { m with listItems := updateWhere sel (recomputedRow m) m.listItems })
    (items : m.listItems = s.listItems) (fulfillments : m.fulfillments = s.fulfillments)
    (others : ∀ li ∈ s.listItems, sel li = false →
      hasActiveClaim m li.id = hasActiveClaim s li.id ∨ done li.status = true)
    (claimed : ∀ ci ∈ m.claimItems, ∃ li ∈ s.listItems, li.id = ci.listItemId) : Stock s' := by
  subst hs'
  have qty : ∀ id, liveQty m id = liveQty s id := fun id => by
    unfold liveQty
    rw [fulfillments]
  rw [items]
  refine ⟨?_, ?_, ?_, ?_⟩
  · intro li' hli'
    obtain ⟨li, hli, rfl⟩ := mem_updateWhere.mp hli'
    have old := st.consistent li hli
    split
    · refine consistent_recomputedRow rfl rfl ?_ ?_
      · rw [qty, ← old.1]
        exact old.2.1
      · intro hs
        rw [qty]
        exact old.frozen_full hs
    · rename_i off
      exact old.congr (qty _) (others li hli (by simpa using off))
  · intro li' hli'
    obtain ⟨li, hli, rfl⟩ := mem_updateWhere.mp hli'
    have := st.requested li hli
    split <;> exact this
  · intro f hf
    exact st.positive f (fulfillments ▸ hf)
  · intro ci hci
    obtain ⟨li, hli, hid⟩ := claimed ci hci
    refine ⟨_, mem_updateWhere_of_mem hli, ?_⟩
    rw [← hid]
    split <;> rfl

/-- A single recompute that may not demote, as the bulk one on that item. -/
theorem recompute_forbid {m s' : Db} {itemId : Uuid} {status : ListItemStatus}
    (keyed : Keyed ListItem.id m.listItems)
    (h : recomputeItemStatus m itemId .forbid = .ok (status, s')) :
    ∃ li, m.item? itemId = some li ∧
      (((li.status = .delivered ∨ li.status = .settled) ∧ s' = m ∧ status = li.status) ∨
        (li.status ≠ .delivered ∧ li.status ≠ .settled ∧ status = (recomputedRow m li).status ∧
          s' = { m with
            listItems := updateWhere (fun x => decide (x.id = itemId)) (recomputedRow m)
              m.listItems })) := by
  obtain ⟨li, hli, cases⟩ := recomputeItemStatus_ok h
  refine ⟨li, hli, ?_⟩
  rcases cases with ⟨frozen, rfl, rfl⟩ | ⟨unsettled, undelivered, -, hstatus, rfl⟩
  · refine .inl ⟨?_, rfl, rfl⟩
    rcases frozen with hs | ⟨hd, -⟩
    · exact .inr hs
    · exact .inl hd
  · have hd : li.status ≠ .delivered := fun hd => by simpa using undelivered hd
    obtain ⟨hmem, rfl⟩ := lookup_mem hli
    have row : status = (recomputedRow m li).status := by
      rw [hstatus]
      simp [recomputedRow, hd, unsettled]
    refine .inr ⟨hd, unsettled, row, ?_⟩
    unfold setStatus
    congr 1
    unfold updateWhere
    apply List.map_congr_left
    intro x hx
    by_cases hid : x.id = li.id
    · obtain rfl := keyed.eq_of_key hx hmem hid
      simp only [decide_true, if_true]
      rw [row]
      rfl
    · simp [hid]

theorem hasActiveClaim_congr {s s' : Db} {itemId : Uuid}
    (same : s'.claimItems.filter (fun ci => decide (ci.listItemId = itemId)) =
      s.claimItems.filter fun ci => decide (ci.listItemId = itemId)) :
    hasActiveClaim s' itemId = hasActiveClaim s itemId := by
  have byFilter : ∀ t : Db, hasActiveClaim t itemId =
      (t.claimItems.filter fun ci => decide (ci.listItemId = itemId)).any (·.active) := fun t => by
    unfold hasActiveClaim
    rw [List.any_filter]
  rw [byFilter, byFilter, same]

/-- A claim that stops being active deactivates rows of its own, and nothing else moves. -/
private theorem updateClaimStatus_rows (s : Db) (claimId : Uuid) (guard : Claim → Bool)
    {status : ClaimStatus} (inactive : status ≠ .active) :
    ∃ claims p, (∀ ci, p ci = true → ci.claimId = claimId) ∧
      updateClaimStatus s claimId guard status = { s with
        claims := claims
        claimItems := updateWhere p (fun ci => { ci with active := false }) s.claimItems } := by
  have still : updateWhere (fun _ => false) (fun ci : ClaimItem => { ci with active := false })
      s.claimItems = s.claimItems := updateWhere_eq_self fun _ _ => rfl
  unfold updateClaimStatus
  split
  · exact ⟨s.claims, fun _ => false, by simp, by rw [still]⟩
  · split
    · unfold syncClaimItemsActive
      split
      · exact ⟨_, _, fun ci hci => by simpa using hci, rfl⟩
      · split
        · rename_i hact
          exact absurd hact.1 inactive
        · exact ⟨_, fun _ => false, by simp, by rw [still]⟩
    · exact ⟨s.claims, fun _ => false, by simp, by rw [still]⟩

private theorem Stock.insertClaimItems {s m s' : Db} {claimId : Uuid} {itemIds : List Uuid}
    (st : Stock s) (h : insertClaimItems m claimId itemIds = .ok s')
    (items : m.listItems = s.listItems) (fulfillments : m.fulfillments = s.fulfillments)
    (claimItems : m.claimItems = s.claimItems)
    (known : ∀ id ∈ itemIds, ∃ li ∈ s.listItems, li.id = id) : Stock s' := by
  have hs' := recomputeItemStatusesBulk_ok (insertClaimItems_ok h)
  refine st.recomputed hs' items fulfillments ?_ ?_
  · intro li _ off
    refine .inl (hasActiveClaim_congr ?_)
    have new : (itemIds.map fun itemId => (⟨claimId, itemId, true⟩ : ClaimItem)).filter
        (fun ci => decide (ci.listItemId = li.id)) = [] := by
      rw [List.filter_eq_nil_iff]
      intro ci hci hid
      obtain ⟨id, hmem, rfl⟩ := List.mem_map.mp hci
      simp only [decide_eq_true_eq] at hid
      simp [← hid, hmem] at off
    simp only [withClaimRows, List.filter_append, new, claimItems, List.append_nil]
  · intro ci hci
    rcases List.mem_append.mp hci with hci | hci
    · exact st.claimed ci (claimItems ▸ hci)
    · obtain ⟨id, hid, rfl⟩ := List.mem_map.mp hci
      exact known id hid

theorem claimable_onList {s : Db} {listId : Uuid} {itemIds : List Uuid} {u : Unit}
    (h : validateClaimableItems s listId itemIds = .ok u) :
    ∀ id ∈ itemIds, ∃ li ∈ s.listItems, li.id = id ∧ li.listId = listId := by
  rw [validateClaimableItems_ok h]
  exact fun id hid => absurd hid List.not_mem_nil

private theorem claimable_known {s : Db} {listId : Uuid} {itemIds : List Uuid} {u : Unit}
    (h : validateClaimableItems s listId itemIds = .ok u) :
    ∀ id ∈ itemIds, ∃ li ∈ s.listItems, li.id = id := by
  intro id hid
  obtain ⟨li, hli, hk, -⟩ := claimable_onList h id hid
  exact ⟨li, hli, hk⟩

theorem Stock.createClaim {s s' : Db} {userId listId : Uuid} {itemIds : List Uuid}
    {claimId : Uuid} (st : Stock s) (h : createClaim s userId listId itemIds claimId = .ok s') : Stock s' := by
  obtain ⟨valid, -, h⟩ := createClaim_ok h
  exact st.insertClaimItems h rfl rfl rfl (claimable_known valid)

theorem Stock.addClaimItems {s s' : Db} {userId claimId : Uuid} {itemIds : List Uuid}
    (st : Stock s) (h : addClaimItems s userId claimId itemIds = .ok s') : Stock s' := by
  obtain ⟨c, -, -, valid, h⟩ := addClaimItems_ok h
  exact st.insertClaimItems h rfl rfl rfl (claimable_known valid)

theorem Stock.removeClaimItem {s s' : Db} {userId claimId itemId : Uuid} (st : Stock s)
    (keyed : Keyed ListItem.id s.listItems)
    (h : removeClaimItem s userId claimId itemId = .ok s') : Stock s' := by
  obtain ⟨status, h⟩ := removeClaimItem_ok h
  have claimed : ∀ ci ∈ (withoutClaimRow s claimId itemId).claimItems,
      ∃ li ∈ s.listItems, li.id = ci.listItemId :=
    fun ci hci => st.claimed ci (List.mem_of_mem_filter hci)
  have others : ∀ id, id ≠ itemId →
      hasActiveClaim (withoutClaimRow s claimId itemId) id = hasActiveClaim s id := by
    intro id hid
    apply hasActiveClaim_congr
    unfold withoutClaimRow
    rw [List.filter_filter]
    apply List.filter_congr
    intro ci _
    by_cases hci : ci.listItemId = id
    · simp [hci, hid]
    · simp [hci]
  have keyed' : Keyed ListItem.id (withoutClaimRow s claimId itemId).listItems := keyed
  obtain ⟨li, hli, ⟨frozen, rfl, -⟩ | ⟨-, -, -, hs'⟩⟩ := recompute_forbid keyed' h
  · -- A delivered or settled item keeps its row; it is full, so losing the claim changes nothing.
    refine st.claims_moved rfl rfl ?_ claimed
    intro x hx
    by_cases hid : x.id = itemId
    · right
      obtain ⟨hmem, hk⟩ := lookup_mem hli
      obtain rfl := keyed.eq_of_key hx hmem (hid.trans hk.symm)
      rcases frozen with hs | hs <;> simp [hs, done]
    · exact .inl (others _ hid)
  · refine st.recomputed hs' rfl rfl ?_ claimed
    intro x _ off
    exact .inl (others _ (by simpa using off))

theorem Stock.releaseClaim {s s' : Db} {userId claimId : Uuid} (st : Stock s)
    (h : releaseClaim s userId claimId = .ok s') : Stock s' := by
  obtain ⟨c, -, -, h⟩ := releaseClaim_ok h
  obtain ⟨claims, p, own, rows⟩ := updateClaimStatus_rows s claimId (fun _ => true)
    (show ClaimStatus.released ≠ .active by simp)
  have hs' := recomputeItemStatusesBulk_ok h
  rw [rows] at hs'
  refine st.recomputed hs' rfl rfl ?_ ?_
  · intro li _ off
    refine .inl (hasActiveClaim_congr (filter_updateWhere_off ?_))
    intro ci hci hp
    have apart : ci.listItemId ≠ li.id := by
      intro hid
      simp only [decide_eq_false_iff_not] at off
      refine off (List.mem_map.mpr ⟨ci, List.mem_filter.mpr ⟨hci, ?_⟩, hid⟩)
      simpa using own ci hp
    simp [apart]
  · intro ci hci
    obtain ⟨x, hx, rfl⟩ := mem_updateWhere.mp hci
    obtain ⟨li, hli, hid⟩ := st.claimed x hx
    exact ⟨li, hli, by split <;> exact hid⟩

theorem Stock.completeClaim {s : Db} {active : Option Claim} {status : ListItemStatus}
    (st : Stock s) (keyed : Keyed ListItem.id s.listItems) :
    Stock (completeClaim s active status) := by
  unfold Api.Fulfillments.completeClaim
  split
  · exact st
  · rename_i c
    split
    · rename_i finished
      obtain ⟨claims, p, own, rows⟩ := updateClaimStatus_rows s c.id
        (fun x => decide (x.status = .active)) (show ClaimStatus.completed ≠ .active by simp)
      rw [rows]
      refine st.claims_moved rfl rfl ?_ ?_
      · intro li hli
        by_cases inClaim : ∃ ci ∈ s.claimItems, p ci = true ∧ ci.listItemId = li.id
        · obtain ⟨ci, hci, hp, hid⟩ := inClaim
          have item : s.item? ci.listItemId = some li :=
            (lookup_eq_some keyed).mpr ⟨hli, hid.symm⟩
          right
          rcases finished.2 ci hci (own ci hp) li item with hs | hs | hs <;> simp [hs, done]
        · refine .inl (hasActiveClaim_congr (filter_updateWhere_off ?_))
          intro ci hci hp
          have apart : ci.listItemId ≠ li.id := fun hid => inClaim ⟨ci, hci, hp, hid⟩
          simp [apart]
      · intro ci hci
        obtain ⟨x, hx, rfl⟩ := mem_updateWhere.mp hci
        obtain ⟨li, hli, hid⟩ := st.claimed x hx
        exact ⟨li, hli, by split <;> exact hid⟩
    · exact st

end JitaCart.Items
