/- module: JitaCart/Items/Edits
   source: backend/crates/api/src/lists/items.rs (patch_item, delete_item)
   digest: Which item edits keep the books, along runs of all requests and edits. -/

import JitaCart.Items.Invariant

/-!
Both handlers take status `open` for "nothing claimed and nothing bought". An item that was bought
in part without a claim is open too. Its quantity can then be cut down to what was bought, or it
can be deleted together with purchases that a reimbursement still counts.
-/

set_option autoImplicit false
set_option relaxedAutoImplicit false

namespace JitaCart.Items

open Schema Base.Table Base.Request Base.Numeric Directory Settlement Operations Books
open Api.Extract Api.ItemStatus Api.Claims Api.Fulfillments Api.Reimbursements Api.Lists

inductive ItemEdit
  | patchItem (userId listId itemId : Uuid) (body : PatchItemBody)
  | deleteItem (userId listId itemId : Uuid)

def ItemEdit.itemId : ItemEdit → Uuid
  | .patchItem _ _ itemId _ | .deleteItem _ _ itemId => itemId

def applyEdit : ItemEdit → Db → Except ApiError Db
  | .patchItem userId listId itemId body, s => patchItem s userId listId itemId body
  | .deleteItem userId listId itemId, s => deleteItem s userId listId itemId

def applyAny : Op ⊕ ItemEdit → Db → Except Refusal Db
  | .inl o, s => apply o s
  | .inr e, s => (applyEdit e s).mapError .api

/-- The item-status invariant and the subtotals of pending and settled reimbursements. -/
def BooksConsistent (s : Db) : Prop :=
  (∀ li ∈ s.listItems, ItemConsistent s li) ∧
    ∀ r ∈ s.reimbursements, r.status = .pending ∨ r.status = .settled →
      r.subtotalIsk = sumWhere (fun f => f.live && covers s r f) Fulfillment.cost s.fulfillments

instance (s : Db) : Decidable (BooksConsistent s) := by
  unfold BooksConsistent
  infer_instance

/-- A new quantity exceeds what was bought; a deleted item has only purchases that cost nothing. -/
def EditSafe (s : Db) : ItemEdit → Prop
  | .patchItem _ _ itemId body => ∀ qty ∈ body.qtyRequested, liveQty s itemId < qty
  | .deleteItem _ _ itemId => ∀ f ∈ s.fulfillments, f.listItemId = itemId → f.live = true →
      f.unitPriceIsk = 0

instance (s : Db) (e : ItemEdit) : Decidable (EditSafe s e) := by
  cases e <;> unfold EditSafe <;> infer_instance

def StepSafe (s : Db) : Op ⊕ ItemEdit → Prop
  | .inl o => NoOverflow s o
  | .inr e => EditSafe s e

instance (s : Db) (x : Op ⊕ ItemEdit) : Decidable (StepSafe s x) :=
  match x with
  | .inl o => inferInstanceAs (Decidable (NoOverflow s o))
  | .inr e => inferInstanceAs (Decidable (EditSafe s e))

private theorem Sound.booksConsistent {s : Db} (sound : Sound s) : BooksConsistent s :=
  ⟨sound.stock.consistent, fun _ hr _ => subtotal_eq_coveredCost sound.books hr⟩

private theorem consistentStatus_open {qf qr : Int} {active : Bool}
    (h : consistentStatus qf qr active .open) : qf ≠ qr ∧ active = false := by
  simp only [consistentStatus] at h
  refine ⟨fun full => ?_, ?_⟩
  · rw [if_pos full] at h
    cases h
  · cases active
    · rfl
    · split at h <;> cases h

section Patch
variable {s s' : Db} {userId listId itemId : Uuid} {body : PatchItemBody}

private theorem Sound.patchItem (sound : Sound s)
    (h : patchItem s userId listId itemId body = .ok s')
    (safe : ∀ qty ∈ body.qtyRequested, liveQty s itemId < qty) : Sound s' := by
  obtain ⟨li, hli, -, hopen, pos, rfl⟩ := patchItem_ok h
  obtain ⟨hmem, hk⟩ := lookup_mem hli
  have row : ∀ x ∈ s.listItems, onItem listId itemId x = true → x = li := by
    intro x hx hon
    simp only [onItem, Bool.and_eq_true, decide_eq_true_eq] at hon
    exact (keyed_items sound.books).eq_of_key hx hmem (hon.1.trans hk.symm)
  have books : (ledger { s with
      listItems := updateWhere (onItem listId itemId) body.assign s.listItems }).Ok := by
    rw [ledger_items s (onItem listId itemId) body.assign fun _ => rfl]
    exact sound.books
  have quantity : liveQty s li.id < body.qtyRequested.getD li.qtyRequested := by
    cases hq : body.qtyRequested with
    | some qty => exact hk ▸ safe qty hq
    | none =>
      have old := sound.stock.consistent li hmem
      have short := (consistentStatus_open (hopen ▸ old.2.2)).1
      have := old.2.1
      rw [← old.1]
      simp only [Option.getD_none]
      omega
  refine ⟨books, ⟨?_, ?_, sound.stock.positive, ?_⟩, ?_⟩
  · intro li' hli'
    obtain ⟨x, hx, rfl⟩ := mem_updateWhere.mp hli'
    have old := sound.stock.consistent x hx
    split
    · obtain rfl := row x hx ‹_›
      obtain ⟨-, idle⟩ := consistentStatus_open (hopen ▸ old.2.2)
      have short : x.qtyFulfilled < body.qtyRequested.getD x.qtyRequested := old.1 ▸ quantity
      refine ⟨old.1, short.le, ?_⟩
      change consistentStatus x.qtyFulfilled (body.qtyRequested.getD x.qtyRequested)
        (hasActiveClaim s x.id) x.status
      rw [hopen, idle]
      simp [consistentStatus, short.ne]
    · exact old
  · intro li' hli'
    obtain ⟨x, hx, rfl⟩ := mem_updateWhere.mp hli'
    have old := sound.stock.requested x hx
    split
    · change 0 < body.qtyRequested.getD x.qtyRequested
      cases hq : body.qtyRequested with
      | some qty => exact pos qty hq
      | none => exact old
    · exact old
  · intro ci hci
    obtain ⟨x, hx, hid⟩ := sound.stock.claimed ci hci
    refine ⟨_, mem_updateWhere_of_mem hx, ?_⟩
    rw [← hid]
    split <;> rfl
  · refine sound.settled.step sound.books books ?_ (fun _ _ _ f hf _ _ => hf)
      fun r hr settled => ⟨r, hr, settled, rfl⟩
    intro li' hli' settled
    obtain ⟨x, hx, rfl⟩ := mem_updateWhere.mp hli'
    refine ⟨x, hx, by split <;> rfl, ?_⟩
    split at settled <;> exact settled

/-- Books that are consistent after a patch left room above the purchases. -/
private theorem patchItem_safe (h : patchItem s userId listId itemId body = .ok s')
    (after : BooksConsistent s') : ∀ qty ∈ body.qtyRequested, liveQty s itemId < qty := by
  obtain ⟨li, hli, hlist, hopen, -, rfl⟩ := patchItem_ok h
  obtain ⟨hmem, hk⟩ := lookup_mem hli
  intro qty hq
  have hon : onItem listId itemId li = true := by simp [onItem, hk, hlist]
  have new := after.1 _ (mem_updateWhere_of_mem (p := onItem listId itemId) (f := body.assign) hmem)
  rw [if_pos hon] at new
  obtain ⟨counts, fits, status⟩ := new
  have hqty : (body.assign li).qtyRequested = qty := by
    rw [PatchItemBody.assign, Option.mem_def.mp hq]
    rfl
  have unmoved : (body.assign li).status = .open := hopen
  have apart := (consistentStatus_open (unmoved ▸ status)).1
  rw [hqty] at fits apart
  rw [counts] at fits apart
  have same : liveQty { s with
      listItems := updateWhere (onItem listId itemId) body.assign s.listItems }
      (body.assign li).id = liveQty s itemId := by
    rw [← hk]
    rfl
  rw [same] at fits apart
  omega

end Patch

section Delete
variable {s s' : Db} {userId listId itemId : Uuid}

private theorem deleteItem_rows (ok : (ledger s).Ok)
    (h : deleteItem s userId listId itemId = .ok s') :
    ∃ li, s.item? itemId = some li ∧ li.status = .open ∧
      s' = { s with
        listItems := s.listItems.filter fun x => decide (x.id ≠ itemId)
        fulfillments := s.fulfillments.filter fun f => decide (f.listItemId ≠ itemId)
        claimItems := s.claimItems.filter fun ci => decide (ci.listItemId ≠ itemId) } := by
  obtain ⟨li, hli, hlist, hopen, rfl⟩ := deleteItem_ok h
  refine ⟨li, hli, hopen, ?_⟩
  obtain ⟨hmem, hk⟩ := lookup_mem hli
  unfold dropItem
  congr 1
  apply List.filter_congr
  intro x hx
  by_cases hid : x.id = itemId
  · obtain rfl := (keyed_items ok).eq_of_key hx hmem (hid.trans hk.symm)
    simp [onItem, hid, hlist]
  · simp [onItem, hid]

private theorem liveQty_filter {s : Db} {id : Uuid} (other : id ≠ itemId) (items : List ListItem)
    (claimItems : List ClaimItem) :
    liveQty { s with
      listItems := items
      fulfillments := s.fulfillments.filter fun f => decide (f.listItemId ≠ itemId)
      claimItems := claimItems } id = liveQty s id := by
  unfold liveQty
  apply sumWhere_filter_free
  intro f _ off hp
  simp only [decide_eq_false_iff_not, not_not] at off
  simp only [Bool.and_eq_true, decide_eq_true_eq] at hp
  exact absurd (hp.1.symm.trans off) other

private theorem hasActiveClaim_filter {s : Db} {id : Uuid} (other : id ≠ itemId)
    (items : List ListItem) (fs : List Fulfillment) :
    hasActiveClaim { s with
      listItems := items
      fulfillments := fs
      claimItems := s.claimItems.filter fun ci => decide (ci.listItemId ≠ itemId) } id =
        hasActiveClaim s id := by
  apply hasActiveClaim_congr
  rw [List.filter_filter]
  apply List.filter_congr
  intro ci _
  by_cases hci : ci.listItemId = id
  · simp [hci, other]
  · simp [hci]

private theorem Sound.deleteItem (sound : Sound s) (h : deleteItem s userId listId itemId = .ok s')
    (safe : ∀ f ∈ s.fulfillments, f.listItemId = itemId → f.live = true → f.unitPriceIsk = 0) :
    Sound s' := by
  obtain ⟨li, -, -, rfl⟩ := deleteItem_rows sound.books h
  have st := sound.stock
  have books := sound.books.dropLine itemId fun f hf hid live => by
    simp [Fulfillment.cost, safe f hf hid live]
  have same : ledger { s with
        listItems := s.listItems.filter fun x => decide (x.id ≠ itemId)
        fulfillments := s.fulfillments.filter fun f => decide (f.listItemId ≠ itemId)
        claimItems := s.claimItems.filter fun ci => decide (ci.listItemId ≠ itemId) } =
      { ledger s with
        lines := (ledger s).lines.filter fun li => decide (li.id ≠ itemId)
        purchases := (ledger s).purchases.filter fun f => decide (f.listItemId ≠ itemId) } := by
    simp only [ledger, List.filter_map]
    rfl
  rw [← same] at books
  refine ⟨books, ⟨?_, ?_, ?_, ?_⟩, ?_⟩
  · intro x hx
    obtain ⟨hx, hid⟩ := List.mem_filter.mp hx
    have other : x.id ≠ itemId := by simpa using hid
    exact (st.consistent x hx).congr (liveQty_filter other _ _)
      (.inl (hasActiveClaim_filter other _ _))
  · exact fun x hx => st.requested x (List.mem_of_mem_filter hx)
  · exact fun f hf => st.positive f (List.mem_of_mem_filter hf)
  · intro ci hci
    obtain ⟨hci, hid⟩ := List.mem_filter.mp hci
    obtain ⟨x, hx, hk⟩ := st.claimed ci hci
    refine ⟨x, List.mem_filter.mpr ⟨hx, ?_⟩, hk⟩
    rw [hk]
    exact hid
  · exact sound.settled.step sound.books books
      (fun x hx settled => ⟨x, List.mem_of_mem_filter hx, rfl, settled⟩)
      (fun _ _ _ f hf _ _ => List.mem_of_mem_filter hf)
      fun r hr settled => ⟨r, hr, settled, rfl⟩

/-- Subtotals that are right after a deletion counted nothing of the deleted purchases. -/
private theorem deleteItem_safe (sound : Sound s) (h : deleteItem s userId listId itemId = .ok s')
    (after : BooksConsistent s') :
    ∀ f ∈ s.fulfillments, f.listItemId = itemId → f.live = true → f.unitPriceIsk = 0 := by
  obtain ⟨li, hli, -, rfl⟩ := deleteItem_rows sound.books h
  intro f hf hid live
  obtain ⟨hmem, hk⟩ := lookup_mem hli
  obtain ⟨r, hr, -, hcf⟩ := exists_coversItem sound.books hmem hf live (hid.trans hk.symm)
  have status : r.status = .pending ∨ r.status = .settled := by
    by_cases hp : r.status = .pending
    · exact .inl hp
    · exact .inr (settled_of_not_pending sound.books hr hp)
  have before := subtotal_eq_coveredCost sound.books hr
  have now := after.2 r hr status
  -- Off the item coverage is what it was.
  have kept : sumWhere (fun g => g.live && covers { s with
        listItems := s.listItems.filter fun x => decide (x.id ≠ itemId)
        fulfillments := s.fulfillments.filter fun f => decide (f.listItemId ≠ itemId)
        claimItems := s.claimItems.filter fun ci => decide (ci.listItemId ≠ itemId) } r g)
      Fulfillment.cost (s.fulfillments.filter fun f => decide (f.listItemId ≠ itemId)) =
      sumWhere (fun g => g.live && covers s r g) Fulfillment.cost
        (s.fulfillments.filter fun f => decide (f.listItemId ≠ itemId)) := by
    apply sumWhere_congr
    · intro g hg
      have off : g.listItemId ≠ itemId := by simpa using List.of_mem_filter hg
      have found : lookup ListItem.id g.listItemId
          (s.listItems.filter fun x => decide (x.id ≠ itemId)) = s.item? g.listItemId := by
        unfold Db.item? lookup
        rw [List.find?_filter]
        congr 1
        funext x
        by_cases hx : x.id = g.listItemId
        · simp [hx, off]
        · simp [hx]
      simp only [covers, Db.item?] at found ⊢
      rw [found]
    · intro g _
      rfl
  have split := sumWhere_filter_add (fun g => g.live && covers s r g)
    (fun g => decide (g.listItemId ≠ itemId)) Fulfillment.cost s.fulfillments
  have cost_nonneg : ∀ g ∈ s.fulfillments, 0 ≤ g.cost := fun g hg =>
    mul_nonneg (sound.stock.positive g hg).1.le (sound.stock.positive g hg).2
  have atLeast : f.cost ≤ sumWhere (fun g => (g.live && covers s r g) &&
      !decide (g.listItemId ≠ itemId)) Fulfillment.cost s.fulfillments :=
    le_sumWhere hf (by simp [live, hcf, hid]) fun g hg _ => cost_nonneg g hg
  rw [kept] at now
  rw [← before, now] at split
  rw [add_eq_left.mp split] at atLeast
  have zero : f.cost = 0 := le_antisymm atLeast (cost_nonneg f hf)
  rcases mul_eq_zero.mp zero with hq | hp
  · exact absurd hq (sound.stock.positive f hf).1.ne'
  · exact hp

end Delete

private theorem sound_stepAny (s : Db) (x : Op ⊕ ItemEdit) (s' : Db) (sound : Sound s)
    (safe : StepSafe s x) (h : applyAny x s = .ok s') : Sound s' := by
  match x with
  | .inl o => exact sound_step s o s' sound safe h
  | .inr (.patchItem userId listId itemId body) =>
    exact sound.patchItem (mapError_eq_ok.mp h) safe
  | .inr (.deleteItem userId listId itemId) => exact sound.deleteItem (mapError_eq_ok.mp h) safe

/-- Item edits and the books: after every run whose edits are safe and whose purchases do not
overflow the books are consistent; an edit accepted there is on an item without an active claim,
and it keeps the books consistent exactly when it is safe. -/
theorem edits_keep_books {steps : List (Op ⊕ ItemEdit)}
    (safe : Meets applyAny StepSafe empty steps) :
    BooksConsistent (run applyAny empty steps) ∧
      ∀ e s', applyEdit e (run applyAny empty steps) = .ok s' →
        hasActiveClaim (run applyAny empty steps) e.itemId = false ∧
          (BooksConsistent s' ↔ EditSafe (run applyAny empty steps) e) := by
  have sound : Sound (run applyAny empty steps) := meets_invariant sound_stepAny sound_empty safe
  have idle : ∀ {itemId li}, (run applyAny empty steps).item? itemId = some li →
      li.status = .open → hasActiveClaim (run applyAny empty steps) itemId = false := by
    intro itemId li hli hopen
    obtain ⟨hmem, rfl⟩ := lookup_mem hli
    exact (consistentStatus_open (hopen ▸ (sound.stock.consistent li hmem).2.2)).2
  refine ⟨sound.booksConsistent, fun e s' h => ?_⟩
  match e with
  | .patchItem userId listId itemId body =>
    obtain ⟨li, hli, -, hopen, -⟩ := patchItem_ok h
    exact ⟨idle hli hopen, patchItem_safe h,
      fun safe => (sound.patchItem h safe).booksConsistent⟩
  | .deleteItem userId listId itemId =>
    obtain ⟨li, hli, -, hopen, -⟩ := deleteItem_ok h
    exact ⟨idle hli hopen, deleteItem_safe sound h,
      fun safe => (sound.deleteItem h safe).booksConsistent⟩

/-- Half of the item is bought without a claim, so it is still open. -/
def halfBoughtRun : List (Op ⊕ ItemEdit) :=
  [.inl (.directory sampleDirectory),
    .inl (.create sampleLimits 1 1 [⟨34, "Tritanium", 10, 1⟩] 1 [1]),
    .inl (.recordFulfillment 3 1 1 (samplePurchase 5 1) ⟨1, 1, 0⟩)]

theorem edits_keep_books_halfBoughtRun :
    Meets applyAny StepSafe empty
        (halfBoughtRun ++ [.inr (.patchItem 1 1 1 ⟨some 6, none⟩)]) ∧
      BooksConsistent (run applyAny empty
        (halfBoughtRun ++ [.inr (.patchItem 1 1 1 ⟨some 6, none⟩)])) :=
  ⟨by decide +kernel, (edits_keep_books (by decide +kernel)).1⟩

/-- Cutting the request down to what was bought leaves a full item open; deleting the item leaves
a reimbursement of nothing. -/
theorem edits_break_books :
    ¬ BooksConsistent (run applyAny empty
        (halfBoughtRun ++ [.inr (.patchItem 1 1 1 ⟨some 5, none⟩)])) ∧
      ¬ BooksConsistent (run applyAny empty (halfBoughtRun ++ [.inr (.deleteItem 1 1 1)])) ∧
      BooksConsistent (run applyAny empty halfBoughtRun) := by
  decide +kernel

end JitaCart.Items
