/- module: JitaCart/Items/Recompute
   source: backend/crates/api/src/fulfillment.rs (recompute_item_status,
     recompute_item_statuses_bulk)
   digest: The bulk recompute of item statuses is the single one, item after item. -/

import JitaCart.Api.ItemStatus

set_option autoImplicit false
set_option relaxedAutoImplicit false

namespace JitaCart.Items.Recompute

open Schema Base.Table Base.Request Base.Numeric Api.ItemStatus

/-- `recompute_item_status(id, Forbid)` for each id in turn. -/
def recomputeEach (s : Db) (itemIds : List Uuid) : Except ApiError Db :=
  itemIds.foldlM (fun s id => (recomputeItemStatus s id .forbid).map (·.2)) s

/-- The quantities of the items that a recompute leaves alone are up to date, and quantities are
`bigint` columns. -/
structure Booked (s : Db) : Prop where
  keyed : Keyed ListItem.id s.listItems
  fits : ∀ li ∈ s.listItems, FitsBigint li.qtyFulfilled
  frozen : ∀ li ∈ s.listItems, li.status = .delivered ∨ li.status = .settled →
    li.qtyFulfilled = liveQty s li.id

instance (s : Db) : Decidable (Booked s) :=
  decidable_of_iff
    (Keyed ListItem.id s.listItems ∧ (∀ li ∈ s.listItems, FitsBigint li.qtyFulfilled) ∧
      ∀ li ∈ s.listItems, li.status = .delivered ∨ li.status = .settled →
        li.qtyFulfilled = liveQty s li.id)
    ⟨fun ⟨a, b, c⟩ => ⟨a, b, c⟩, fun h => ⟨h.keyed, h.fits, h.frozen⟩⟩

/-- The rows of a bulk recompute, without its range check. -/
def recomputed (s : Db) (itemIds : List Uuid) : Db :=
  { s with
    listItems := updateWhere (fun li => decide (li.id ∈ itemIds)) (recomputedRow s) s.listItems }

section Rows
variable {s : Db}

private theorem recomputeBulk_eq (itemIds : List Uuid) :
    recomputeItemStatusesBulk s itemIds =
      (require (∀ li ∈ s.listItems, li.id ∈ itemIds → FitsBigint (liveQty s li.id))
        DbError.bigintOutOfRange.toApi).map fun _ => recomputed s itemIds := by
  unfold recomputeItemStatusesBulk require
  split <;> rfl

@[simp] theorem recomputedRow_id (li : ListItem) : (recomputedRow s li).id = li.id := rfl

private theorem recomputedRow_items (items : List ListItem) :
    recomputedRow { s with listItems := items } = recomputedRow s := rfl

private theorem baseStatus_moving (fulfilled requested : Int) (active : Bool) :
    ¬ (baseStatus fulfilled requested active = .delivered ∨
      baseStatus fulfilled requested active = .settled) := by
  unfold baseStatus
  split
  · simp
  · split <;> simp

private theorem recomputedRow_idem (li : ListItem) :
    recomputedRow s (recomputedRow s li) = recomputedRow s li := by
  unfold recomputedRow
  by_cases frozen : li.status = .delivered ∨ li.status = .settled
  · simp only [frozen, if_true]
  · simp only [frozen, if_false, baseStatus_moving]

private theorem recomputed_cons (id : Uuid) (itemIds : List Uuid) :
    recomputed s (id :: itemIds) = recomputed (recomputed s [id]) itemIds := by
  unfold recomputed
  simp only [Db.mk.injEq, true_and, and_true]
  unfold updateWhere
  rw [List.map_map]
  apply List.map_congr_left
  intro li _
  simp only [Function.comp_apply, recomputedRow_items]
  by_cases first : li.id = id
  · subst first
    by_cases again : li.id ∈ itemIds
    · simp [again, recomputedRow_idem]
    · simp [again]
  · by_cases later : li.id ∈ itemIds <;> simp [first, later]

private theorem recomputeBulk_cons (id : Uuid) (itemIds : List Uuid) :
    recomputeItemStatusesBulk s (id :: itemIds) =
      recomputeItemStatusesBulk s [id] >>= fun s₁ => recomputeItemStatusesBulk s₁ itemIds := by
  have split : (∀ li ∈ s.listItems, li.id ∈ id :: itemIds → FitsBigint (liveQty s li.id)) ↔
      (∀ li ∈ s.listItems, li.id ∈ [id] → FitsBigint (liveQty s li.id)) ∧
      ∀ li ∈ (recomputed s [id]).listItems, li.id ∈ itemIds →
        FitsBigint (liveQty (recomputed s [id]) li.id) := by
    have rest : (∀ li ∈ (recomputed s [id]).listItems, li.id ∈ itemIds →
        FitsBigint (liveQty (recomputed s [id]) li.id)) ↔
        ∀ li ∈ s.listItems, li.id ∈ itemIds → FitsBigint (liveQty s li.id) := by
      have ids : (recomputed s [id]).listItems.map (·.id) = s.listItems.map (·.id) :=
        map_updateWhere _ _ fun _ _ _ => rfl
      have all : ∀ t : List ListItem, (∀ li ∈ t, li.id ∈ itemIds → FitsBigint (liveQty s li.id)) ↔
          ∀ x ∈ t.map (·.id), x ∈ itemIds → FitsBigint (liveQty s x) := by simp
      rw [all s.listItems, ← ids]
      exact all _
    rw [rest]
    simp only [List.mem_cons, List.not_mem_nil, or_false]
    constructor
    · exact fun h => ⟨fun li hli hid => h li hli (.inl hid), fun li hli hid => h li hli (.inr hid)⟩
    · rintro ⟨first, later⟩ li hli (hid | hid)
      · exact first li hli hid
      · exact later li hli hid
  simp only [recomputeBulk_eq]
  by_cases first : ∀ li ∈ s.listItems, li.id ∈ [id] → FitsBigint (liveQty s li.id)
  · by_cases later : ∀ li ∈ (recomputed s [id]).listItems, li.id ∈ itemIds →
        FitsBigint (liveQty (recomputed s [id]) li.id)
    · rw [require, require, if_pos (split.mpr ⟨first, later⟩), if_pos first]
      simp only [Except.map, bind, Except.bind]
      rw [require, if_pos later, recomputed_cons]
    · rw [require, require, if_neg fun h => later (split.mp h).2, if_pos first]
      simp only [Except.map, bind, Except.bind]
      rw [require, if_neg later]
  · rw [require, require, if_neg fun h => first (split.mp h).1, if_neg first]
    rfl

/-- One item: the set-based statement and the read-decide-write agree. -/
private theorem recompute_single (ok : Booked s) {id : Uuid} (known : s.item? id ≠ none) :
    recomputeItemStatusesBulk s [id] = (recomputeItemStatus s id .forbid).map (·.2) := by
  obtain ⟨li, hli⟩ := Option.ne_none_iff_exists'.mp known
  obtain ⟨mem, rfl⟩ := lookup_mem hli
  have only : ∀ x ∈ s.listItems, x.id ∈ [li.id] → x = li := fun x hx hid =>
    ok.keyed.eq_of_key hx mem (by simpa using hid)
  have range : (∀ x ∈ s.listItems, x.id ∈ [li.id] → FitsBigint (liveQty s x.id)) ↔
      FitsBigint (liveQty s li.id) := by
    constructor
    · exact fun h => h li mem (by simp)
    · intro h x hx hid
      rw [only x hx hid]
      exact h
  have rows (row : ListItem) (same : recomputedRow s li = row) :
      recomputed s [li.id] = { s with
        listItems := updateWhere (fun x => decide (x.id = li.id)) (fun _ => row) s.listItems } := by
    unfold recomputed updateWhere
    congr 1
    apply List.map_congr_left
    intro x hx
    by_cases hid : x.id = li.id
    · have hx' := only x hx (by simp [hid])
      subst hx'
      simp [same]
    · simp [hid]
  rw [recomputeBulk_eq]
  unfold recomputeItemStatus
  rw [hli]
  simp only [fetch, bind, Except.bind]
  by_cases frozen : li.status = .delivered ∨ li.status = .settled
  · -- The row is written with the quantity it has.
    have quantity := ok.frozen li mem frozen
    have unchanged : recomputedRow s li = li := by
      unfold recomputedRow
      rw [if_pos frozen, ← quantity]
    have self : recomputed s [li.id] = s := by
      rw [rows li unchanged]
      have rest : updateWhere (fun x => decide (x.id = li.id)) (fun _ => li) s.listItems =
          s.listItems := by
        unfold updateWhere
        conv_rhs => rw [← List.map_id s.listItems]
        apply List.map_congr_left
        intro x hx
        by_cases hid : x.id = li.id
        · simp [only x hx (by simp [hid])]
        · simp [hid]
      rw [rest]
    have early : li.status = .settled ∨ li.status = .delivered ∧ True :=
      frozen.elim (fun h => .inr ⟨h, trivial⟩) .inl
    rw [if_pos early, require, if_pos (range.mpr (quantity ▸ ok.fits li mem))]
    simp only [Except.map, self]
  · have moving : ¬ (li.status = .settled ∨ li.status = .delivered ∧ True) := by
      rintro (h | ⟨h, -⟩)
      · exact frozen (.inr h)
      · exact frozen (.inl h)
    have plain : ¬ (li.status = .delivered ∧
        baseStatus (liveQty s li.id) li.qtyRequested (hasActiveClaim s li.id) = .bought) :=
      fun h => frozen (.inl h.1)
    rw [if_neg moving]
    by_cases fits : FitsBigint (liveQty s li.id)
    · have row : recomputedRow s li = { li with
          status := baseStatus (liveQty s li.id) li.qtyRequested (hasActiveClaim s li.id)
          qtyFulfilled := liveQty s li.id } := by
        unfold recomputedRow
        rw [if_neg frozen]
      rw [require, if_pos (range.mpr fits), require, if_pos fits, if_neg plain]
      simp only [Except.map, rows _ row, setStatus, Except.ok.injEq, Db.mk.injEq, true_and,
        and_true]
      unfold updateWhere
      apply List.map_congr_left
      intro x hx
      by_cases hid : x.id = li.id
      · simp [only x hx (by simp [hid])]
      · simp [hid]
    · rw [require, if_neg (fun h => fits (range.mp h)), require, if_neg fits]
      rfl

private theorem booked_recomputed (ok : Booked s) {id : Uuid} {s' : Db}
    (h : recomputeItemStatusesBulk s [id] = .ok s') : Booked s' := by
  rw [recomputeBulk_eq, map_eq_ok] at h
  obtain ⟨u, range, rfl⟩ := h
  have range := require_eq_ok.mp range
  refine ⟨ok.keyed.updateWhere fun _ => rfl, fun li hli => ?_, fun li hli frozen => ?_⟩
  all_goals
    obtain ⟨x, hx, rfl⟩ := mem_updateWhere.mp hli
    by_cases hid : x.id ∈ [id]
  · simp only [hid, decide_true, if_true]
    exact range x hx hid
  · simp only [hid, decide_false, Bool.false_eq_true, if_false]
    exact ok.fits x hx
  · simp only [hid, decide_true, if_true]
    rfl
  · simp only [hid, decide_false, Bool.false_eq_true, if_false] at frozen ⊢
    exact ok.frozen x hx frozen

private theorem known_recomputed (id : Uuid) {itemIds : List Uuid} {s' : Db}
    (known : ∀ x ∈ itemIds, s.item? x ≠ none) (h : recomputeItemStatusesBulk s [id] = .ok s') :
    ∀ x ∈ itemIds, s'.item? x ≠ none := by
  intro x hx
  rw [recomputeBulk_eq, map_eq_ok] at h
  obtain ⟨-, -, rfl⟩ := h
  have row : (recomputed s [id]).item? x = _ := lookup_updateWhere (by exact fun _ => rfl)
  rw [row, ne_eq, Option.map_eq_none_iff]
  exact known x hx

end Rows

/-- On existing items, in any order and with any repetitions, the bulk recompute gives the state
that recomputing one item after another gives, and touches no other item. -/
theorem recompute_bulk_eq_each (s : Db) (itemIds : List Uuid) (ok : Booked s)
    (known : ∀ id ∈ itemIds, s.item? id ≠ none) :
    recomputeItemStatusesBulk s itemIds = recomputeEach s itemIds ∧
      ∀ s', recomputeItemStatusesBulk s itemIds = .ok s' →
        ∀ id, id ∉ itemIds → s'.item? id = s.item? id := by
  constructor
  · -- Along the ids, each single recompute keeps the quantities booked.
    induction itemIds generalizing s with
    | nil =>
      have none_left : recomputed s [] = s := by
        unfold recomputed
        rw [updateWhere_eq_self fun _ _ => by simp]
      rw [recomputeBulk_eq, require, if_pos (by simp)]
      simp only [Except.map, none_left]
      rfl
    | cons id itemIds ih =>
      have head := recompute_single ok (known id List.mem_cons_self)
      unfold recomputeEach
      rw [recomputeBulk_cons, List.foldlM_cons, ← head]
      cases hs : recomputeItemStatusesBulk s [id] with
      | error e => rfl
      | ok s₁ =>
        have rest : ∀ x ∈ itemIds, s.item? x ≠ none := fun x hx =>
          known x (List.mem_cons_of_mem id hx)
        exact ih s₁ (booked_recomputed ok hs) (known_recomputed id rest hs)
  · intro s' h id apart
    obtain rfl := recomputeItemStatusesBulk_ok h
    unfold Db.item?
    rw [lookup_updateWhere (by exact fun _ => rfl)]
    cases hrow : lookup ListItem.id id s.listItems with
    | none => rfl
    | some li =>
      obtain ⟨-, rfl⟩ := lookup_mem hrow
      simp [apart]

/-- A delivered item, an open one asked for twice, and one bought in full. -/
def threeItems : Db where
  listItems :=
    [⟨1, 1, 34, "Tritanium", 5, 5, 1, .delivered, 1⟩, ⟨2, 1, 35, "Pyerite", 4, 0, 1, .open, 2⟩,
      ⟨3, 1, 36, "Mexallon", 2, 0, 1, .claimed, 3⟩]
  claimItems := [⟨1, 2, true⟩]
  fulfillments :=
    [⟨1, 1, none, 2, none, 5, 100, none, some "Jita", 1, none⟩,
      ⟨2, 3, none, 2, none, 2, 100, none, some "Jita", 1, none⟩]

theorem recompute_bulk_eq_each_threeItems :
    recomputeItemStatusesBulk threeItems [2, 1, 2, 3] = recomputeEach threeItems [2, 1, 2, 3] ∧
      ∀ s', recomputeItemStatusesBulk threeItems [2, 1, 2, 3] = .ok s' →
        ∀ id, id ∉ [2, 1, 2, 3] → s'.item? id = threeItems.item? id :=
  recompute_bulk_eq_each threeItems [2, 1, 2, 3] (by decide +kernel) (by decide +kernel)

end JitaCart.Items.Recompute
