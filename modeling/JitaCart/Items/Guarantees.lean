/- module: JitaCart/Items/Guarantees
   source: backend/crates/api/src/fulfillment/fulfillments.rs, backend/crates/api/src/fulfillment.rs,
     backend/crates/settlement/src/lib.rs
   digest: Item statuses and settled items along runs, and the purchase whose quantity wraps. -/

import JitaCart.Items.Invariant

/-!
The quantity check of `record_fulfillment` adds two `i64`; the release build wraps.
On an item that asks for the largest `i64` and is full, any further purchase passes
the check, and a delivered or settled item then skips the recompute that would fail.
-/

set_option autoImplicit false
set_option relaxedAutoImplicit false

namespace JitaCart.Items

open Schema Base.Table Base.Request Base.Numeric Directory Settlement Operations Books
open Api.Extract Api.ItemStatus Api.Claims Api.Fulfillments Api.Reimbursements Api.Lists
open Api.Contracts Worker.Match Worker.Terminal

/-- Item-status invariant: along every run in which no purchase overflows, every item counts
exactly its live purchases, at most what is requested, under a status that fits. -/
theorem items_consistent {ops : List Op} (fits : Meets apply NoOverflow empty ops) :
    ∀ li ∈ (reached ops).listItems, ItemConsistent (reached ops) li :=
  (sound_reached fits).stock.consistent

/-- A purchase in two steps, its delivery and its settlement. -/
def settledRun : List Op :=
  [.directory sampleDirectory,
    .create sampleLimits 1 1 [⟨34, "Tritanium", 10, 1⟩] 1 [1],
    .recordFulfillment 3 1 1 (samplePurchase 4 1) ⟨1, 1, 0⟩,
    .recordFulfillment 3 1 1 (samplePurchase 6 2) ⟨2, 1, 1⟩,
    .markDelivered 3 1 1 (some 3),
    .settleManual 1 1 2]

theorem items_consistent_settledRun :
    Meets apply NoOverflow empty settledRun ∧
      ∀ li ∈ (reached settledRun).listItems, ItemConsistent (reached settledRun) li :=
  ⟨by decide +kernel, items_consistent (by decide +kernel)⟩

private theorem settled_kept (s : Db) (o : Op) (s' : Db) (sound : Sound s) (fits : NoOverflow s o)
    (h : apply o s = .ok s') {li : ListItem} (hli : li ∈ s.listItems)
    (settled : li.status = .settled) :
    ∃ li' ∈ s'.listItems, li'.id = li.id ∧ li'.status = .settled := by
  have off : ∀ {x : ListItem} {itemId : Uuid}, s.item? itemId = some x → x.status ≠ .settled →
      li.id ≠ itemId := by
    rintro x itemId hx hs rfl
    rw [item?_of_mem sound.books hli] at hx
    obtain rfl := Option.some.inj hx
    exact hs settled
  cases effect_of_ok sound.books sound.stock h with
  | quiet same => exact ⟨li, same.items ▸ hli, rfl, settled⟩
  | added h same =>
    obtain ⟨-, -, -, rfl⟩ := insertItems_ok h
    exact ⟨li, List.mem_append_left _ (same.items ▸ hli), rfl, settled⟩
  | claims _ h items =>
    subst h
    refine ⟨_, mem_updateWhere_of_mem (items ▸ hli), ?_⟩
    split
    · exact ⟨rfl, by simp [recomputedRow, settled]⟩
    · exact ⟨rfl, settled⟩
  | bought h =>
    obtain ⟨x, f, m, hx, short, -, -, -, rfl, -, hitems, -⟩ := bought_shape sound fits h
    have hid := off hx fun hs => by simp [hs, done] at short
    rw [hitems]
    exact ⟨li, mem_updateWhere.mpr ⟨li, hli, if_neg (by simpa using hid)⟩, rfl, settled⟩
  | reversed h =>
    obtain ⟨f, x, m, -, -, -, hx, unsettled, rfl, -, -, hitems, -⟩ := reversed_shape sound h
    have hid := off hx unsettled
    rw [hitems]
    exact ⟨li, mem_updateWhere.mpr ⟨li, hli, if_neg (by simpa using hid)⟩, rfl, settled⟩
  | delivered h =>
    obtain ⟨x, hx, -, bought, rfl⟩ := markDelivered_ok h
    have hid := off hx fun hs => by simp [bought] at hs
    exact ⟨li, mem_updateWhere.mpr ⟨li, hli, if_neg (by simpa using hid)⟩, rfl, settled⟩
  | settledByHand h =>
    obtain ⟨r, mine, rival, lists, -, -, -, -, rfl⟩ := settleManual_ok h
    refine ⟨_, mem_updateWhere_of_mem hli, ?_⟩
    split <;> exact ⟨rfl, by simp [settled]⟩
  | settledByContract h same =>
    obtain ⟨c, -, ⟨-, rfl⟩ | ⟨-, at_, m, lists, rfl, rfl⟩⟩ := settleViaContract_ok h
    · exact ⟨li, same.items ▸ hli, rfl, settled⟩
    · refine ⟨_, mem_updateWhere_of_mem (same.items ▸ hli), ?_⟩
      split <;> exact ⟨rfl, by simp [settled]⟩

private theorem settled_kept_run {s : Db} (sound : Sound s) {later : List Op}
    (fits : Meets apply NoOverflow s later) {li : ListItem} (hli : li ∈ s.listItems)
    (settled : li.status = .settled) :
    ∃ li' ∈ (run apply s later).listItems, li'.id = li.id ∧ li'.status = .settled := by
  have kept := meets_invariant
    (I := fun t => Sound t ∧ ∃ x ∈ t.listItems, x.id = li.id ∧ x.status = .settled)
    (fun t o t' ⟨sound, x, hx, hid, hs⟩ fits h => by
      obtain ⟨y, hy, hyid, hys⟩ := settled_kept t o t' sound fits h hx hs
      exact ⟨sound_step t o t' sound fits h, y, hy, hyid.trans hid, hys⟩)
    ⟨sound, li, hli, rfl, settled⟩ fits
  exact kept.2

/-- Settlement soundness: along every run in which no purchase overflows, a settled item is full,
whatever covers it is settled, and from then on purchases on it and reversals of its purchases are
refused. -/
theorem settlement_sound {ops : List Op} (fits : Meets apply NoOverflow empty ops) {li : ListItem}
    (hli : li ∈ (reached ops).listItems) (settled : li.status = .settled) :
    li.qtyFulfilled = li.qtyRequested ∧ li.qtyFulfilled = liveQty (reached ops) li.id ∧
    (∀ r ∈ (reached ops).reimbursements, r.status ≠ .cancelled →
      coversItem (reached ops) r li = true → r.status = .settled) ∧
    (∀ later userId listId body gen s',
      Meets apply NoOverflow (reached ops)
        (later ++ [.recordFulfillment userId listId li.id body gen]) →
      recordFulfillment (run apply (reached ops) later) userId listId li.id body gen ≠ .ok s') ∧
    (∀ later userId f newId now s', Meets apply NoOverflow (reached ops) later →
      f ∈ (run apply (reached ops) later).fulfillments → f.listItemId = li.id →
      reverseFulfillment (run apply (reached ops) later) userId f.id newId now ≠ .ok s') := by
  have sound := sound_reached fits
  have consistent := sound.stock.consistent li hli
  refine ⟨?_, consistent.1, fun r hr _ hc => sound.settled li hli settled r hr hc, ?_, ?_⟩
  · exact (consistentStatus_done consistent.2.2).mp (by simp [settled, done])
  · intro later userId listId body gen s' cond h
    obtain ⟨before, now, -⟩ := meets_append.mp cond
    obtain ⟨li', hli', hid, hs⟩ := settled_kept_run sound before hli settled
    have sound' : Sound (run apply (reached ops) later) := meets_invariant sound_step sound before
    obtain ⟨x, -, -, hx, short, -⟩ := bought_shape sound' now h
    rw [← hid, item?_of_mem sound'.books hli'] at hx
    obtain rfl := Option.some.inj hx
    simp [hs, done] at short
  · intro later userId f newId now s' before hf hi h
    obtain ⟨li', hli', hid, hs⟩ := settled_kept_run sound before hli settled
    have sound' : Sound (run apply (reached ops) later) := meets_invariant sound_step sound before
    obtain ⟨g, x, -, hg, hgid, -, hx, unsettled, -⟩ := reversed_shape sound' h
    have keyed : Keyed Fulfillment.id (run apply (reached ops) later).fulfillments :=
      sound'.books.purchases
    obtain rfl := keyed.eq_of_key hg hf hgid
    rw [hi, ← hid, item?_of_mem sound'.books hli'] at hx
    obtain rfl := Option.some.inj hx
    exact unsettled hs

theorem settlement_sound_settledRun :
    ∃ li ∈ (reached settledRun).listItems, li.status = .settled ∧
      li.qtyFulfilled = li.qtyRequested ∧
      ∀ r ∈ (reached settledRun).reimbursements, r.status ≠ .cancelled →
        coversItem (reached settledRun) r li = true → r.status = .settled := by
  have fits : Meets apply NoOverflow empty settledRun := by decide +kernel
  obtain ⟨li, hli, settled⟩ : ∃ li ∈ (reached settledRun).listItems, li.status = .settled := by
    decide +kernel
  obtain ⟨full, -, covered, -⟩ := settlement_sound fits hli settled
  exact ⟨li, hli, settled, full, covered⟩

section Overflow

/-- Member 3 supplies, for nothing, an item on which member 1 asks for the largest `i64`. -/
def hugeItem (qtyFulfilled : Int) (status : ListItemStatus) : ListItem where
  id := 1
  listId := 1
  typeId := 34
  typeName := "Tritanium"
  qtyRequested := i64Max
  qtyFulfilled := qtyFulfilled
  requestedByUserId := 1
  status := status
  sourceLineNo := 1

def freeRow (hauler id : Uuid) (qty : Int) : Fulfillment :=
  newFulfillment (samplePurchase qty 0) id hauler 1 none 0

def freeDue (hauler id : Uuid) : Reimbursement where
  id := id
  listId := 1
  requesterUserId := some 1
  requesterPrincipalId := 1
  haulerUserId := hauler
  haulerPrincipalId := hauler
  subtotalIsk := 0
  tipIsk := 0
  totalIsk := 0
  status := .pending
  settledAt := none
  settledByUserId := none
  contractId := none
  isCorpFunded := false

def filling (status : ListStatus) (fs : List Fulfillment) (item : ListItem)
    (dues : List Reimbursement) : Db where
  directory := sampleDirectory
  lists := [⟨1, 1, 1, status, 0, none⟩]
  listItems := [item]
  fulfillments := fs
  reimbursements := dues

/-- The purchases so far: free rows of member 3 with ids below `n` that add up to `total`. -/
def Filled (fs : List Fulfillment) (n : Nat) (total : Int) : Prop :=
  (∀ f ∈ fs, ∃ id < n, ∃ qty, f = freeRow 3 id qty) ∧ (fs.map (·.qty)).sum = total

private theorem Filled.append {fs : List Fulfillment} {n : Nat} {total : Int}
    (h : Filled fs n total) (qty : Int) :
    Filled (fs ++ [freeRow 3 n qty]) (n + 1) (total + qty) := by
  refine ⟨fun f hf => ?_, ?_⟩
  · rcases List.mem_append.mp hf with hf | hf
    · obtain ⟨id, hid, q, rfl⟩ := h.1 f hf
      exact ⟨id, by omega, q, rfl⟩
    · exact ⟨n, by omega, qty, List.mem_singleton.mp hf⟩
  · simp [h.2, freeRow, newFulfillment, samplePurchase]

private theorem liveQty_filling {fs : List Fulfillment} {n : Nat} {total : Int}
    (h : Filled fs n total) (status : ListStatus) (item : ListItem) (dues : List Reimbursement) :
    liveQty (filling status fs item dues) 1 = total := by
  rw [← h.2]
  unfold liveQty sumWhere filling
  rw [List.filter_eq_self.mpr]
  intro f hf
  obtain ⟨id, -, q, rfl⟩ := h.1 f hf
  rfl

private theorem price_free (qty : Int) : toScale 2 (samplePurchase qty 0).unitPriceIsk = 0 := by
  norm_num [samplePurchase, toScale, roundHalfAway]

private theorem cost_freeRow (hauler id : Uuid) (qty : Int) : (freeRow hauler id qty).cost = 0 := by
  simp [Fulfillment.cost, freeRow, newFulfillment, price_free]

private theorem Filled.free {fs : List Fulfillment} {n : Nat} {total : Int}
    (h : Filled fs n total) :
    ∀ f ∈ fs, f.cost = 0 := by
  intro f hf
  obtain ⟨id, -, q, rfl⟩ := h.1 f hf
  exact cost_freeRow 3 id q

private theorem proposed_free (status : ListStatus) {fs : List Fulfillment} (item : ListItem)
    (dues : List Reimbursement) (free : ∀ f ∈ fs, f.cost = 0) (hauler newId : Uuid) :
    proposed (filling status fs item dues) ⟨1, 1, 1, status, 0, none⟩ 1 1 hauler hauler newId =
      freeDue hauler newId := by
  have zero : subtotal (filling status fs item dues) 1 false 1 hauler = 0 := by
    unfold subtotal sumWhere
    apply List.sum_eq_zero
    intro x hx
    obtain ⟨f, hf, rfl⟩ := List.mem_map.mp hx
    exact free f (List.mem_of_mem_filter hf)
  simp only [proposed, Option.isSome_none, zero]
  norm_num [freeDue, roundHalfAway]

private theorem upsert_free {fs : List Fulfillment} (item : ListItem) {dues : List Reimbursement}
    (free : ∀ f ∈ fs, f.cost = 0) (hd : dues = [] ∨ dues = [freeDue 3 1]) :
    upsertReimbursement (filling .open fs item dues) 1 1 3 1 =
      .ok (filling .open fs item [freeDue 3 1]) := by
  have new := proposed_free .open item dues free 3 1
  unfold upsertReimbursement
  change (do
    require (moneyFits (proposed (filling .open fs item dues) ⟨1, 1, 1, .open, 0, none⟩ 1 1 3 3 1)) _
    _) = _
  rw [new]
  rcases hd with rfl | rfl <;> rfl

private theorem insert_free {status : ListStatus} {fs : List Fulfillment} {item : ListItem}
    {dues : List Reimbursement} {n : Nat} {total qty : Int} (h : Filled fs n total)
    (pos : 0 < qty) (hauler : Uuid) :
    insertFulfillment (filling status fs item dues) (freeRow hauler n qty) =
      .ok (filling status (fs ++ [freeRow hauler n qty]) item dues) := by
  simp only [insertFulfillment, bind_eq_ok, require_eq_ok]
  refine ⟨(), ?_, (), ⟨pos, (price_free qty).ge⟩, (), ?_, rfl⟩
  · simp only [freeRow, newFulfillment, price_free]
    decide
  · refine lookup_eq_none.mpr fun f hf => ?_
    obtain ⟨id, hid, q, rfl⟩ := h.1 f hf
    exact Nat.ne_of_lt hid

private theorem record_free {fs : List Fulfillment} {n : Nat} {total qty : Int}
    {dues : List Reimbursement} (h : Filled fs n total) (hd : dues = [] ∨ dues = [freeDue 3 1])
    (nonneg : 0 ≤ total) (pos : 0 < qty) (atMost : qty ≤ 10000000) (room : total + qty ≤ i64Max) :
    recordFulfillment (filling .open fs (hugeItem total .open) dues) 3 1 1 (samplePurchase qty 0)
        ⟨n, 1, 0⟩ =
      .ok (filling .open (fs ++ [freeRow 3 n qty])
        (hugeItem (total + qty) (baseStatus (total + qty) i64Max false)) [freeDue 3 1]) := by
  have filled := h.append qty
  simp only [recordFulfillment, bind_eq_ok, fetch_eq_ok, require_eq_ok, requirePending_eq_ok]
  refine ⟨_, rfl, (), rfl, (), ?_, (), rfl, _, rfl, (), ?_, (), ?_, (), rfl, (), rfl,
    filling .open (fs ++ [freeRow 3 n qty]) (hugeItem total .open) dues, ?_,
    (baseStatus (total + qty) i64Max false,
      filling .open (fs ++ [freeRow 3 n qty]) (hugeItem (total + qty)
        (baseStatus (total + qty) i64Max false)) dues), ?_,
    upsert_free _ filled.free hd⟩
  · simp only [validateBody, bind_eq_ok, require_eq_ok]
    exact ⟨(), pos, (), atMost, (), le_rfl, rfl⟩
  · have fits : FitsBigint (qty + total) := ⟨by unfold i64Max; omega, by omega⟩
    change wrapI64 (qty + total) ≤ i64Max
    rw [wrapI64_of_fits fits]
    omega
  · rcases hd with rfl | rfl
    · intro rs hrs
      cases hrs
    · intro rs hrs
      exact (Option.some.inj hrs).symm
  · exact insert_free h pos 3
  · have live := liveQty_filling filled .open (hugeItem total .open) dues
    have fits : FitsBigint (total + qty) := ⟨by unfold i64Max; omega, room⟩
    simp only [recomputeItemStatus, bind_eq_ok, fetch_eq_ok]
    refine ⟨hugeItem total .open, rfl, ?_⟩
    rw [if_neg (by simp [hugeItem])]
    simp only [bind_eq_ok, require_eq_ok, live, Except.ok.injEq, Prod.mk.injEq]
    refine ⟨(), fits, ?_, ?_⟩
    · simp [hugeItem, hasActiveClaim, filling]
    · simp [hugeItem, hasActiveClaim, filling, setStatus, updateWhere]

/-- Set up, and `n` purchases of the largest quantity that a request may carry. -/
def fillRun (n : Nat) : List Op :=
  [.directory sampleDirectory,
    .create sampleLimits 1 1 [⟨34, "Tritanium", i64Max, 1⟩] 1 [1]] ++
  (List.range n).map fun k => .recordFulfillment 3 1 1 (samplePurchase 10000000 0) ⟨k, 1, 0⟩

private theorem exec_record {s s' : Db} {userId listId itemId : Uuid} {body : RecordFulfillmentBody}
    {gen : Generated} (h : recordFulfillment s userId listId itemId body gen = .ok s') :
    exec apply s (.recordFulfillment userId listId itemId body gen) = s' :=
  exec_of_ok (mapError_eq_ok.mpr h)

private theorem reached_fillRun (n : Nat) (room : 10000000 * (n : Int) < i64Max) :
    ∃ fs dues, Filled fs n (10000000 * n) ∧ (dues = [] ∨ dues = [freeDue 3 1]) ∧
      reached (fillRun n) = filling .open fs (hugeItem (10000000 * n) .open) dues := by
  induction n with
  | zero => exact ⟨[], [], ⟨by simp, rfl⟩, .inl rfl, by decide +kernel⟩
  | succ n ih =>
    push_cast at room ⊢
    obtain ⟨fs, dues, filled, hd, before⟩ := ih (by omega)
    have more : fillRun (n + 1) = fillRun n ++
        [.recordFulfillment 3 1 1 (samplePurchase 10000000 0) ⟨n, 1, 0⟩] := by
      simp [fillRun, List.range_succ]
    have accepted := record_free filled hd (by omega) (show (0 : Int) < 10000000 by omega)
      (by omega) (by omega)
    have short : baseStatus (10000000 * n + 10000000) i64Max false = .open := by
      unfold baseStatus
      rw [if_neg (by omega)]
      rfl
    rw [short] at accepted
    refine ⟨_, [freeDue 3 1], filled.append 10000000, .inr rfl, ?_⟩
    have total : (10000000 : Int) * (n + 1) = 10000000 * n + 10000000 := by ring
    rw [more, reached_append, before, total, run_cons, run_nil, exec_record accepted]

/-- The item filled to the last unit, and delivered. -/
def fullRun : List Op :=
  fillRun 922337203685 ++
    [.recordFulfillment 3 1 1 (samplePurchase 4775807 0) ⟨922337203685, 1, 0⟩,
      .markDelivered 3 1 1 (some 3)]

private theorem markDelivered_filling {fs : List Fulfillment} {n : Nat} {total : Int}
    (h : Filled fs n total) (some_row : fs ≠ []) (dues : List Reimbursement) :
    markDelivered (filling .open fs (hugeItem i64Max .bought) dues) 3 1 1 (some 3) =
      .ok (filling .open fs (hugeItem i64Max .delivered) dues) := by
  obtain ⟨f, hf⟩ := List.exists_mem_of_ne_nil fs some_row
  simp only [markDelivered, bind_eq_ok, fetch_eq_ok, require_eq_ok]
  refine ⟨_, rfl, (), rfl, (), rfl, _, rfl, (), ?_, (), rfl, (), .inl rfl, rfl⟩
  refine ⟨f, List.mem_filter.mpr ⟨hf, ?_⟩, ?_, ?_⟩
  · obtain ⟨id, -, q, rfl⟩ := h.1 f hf
    rfl
  · obtain ⟨id, -, q, rfl⟩ := h.1 f hf
    rfl
  · intro g hg
    obtain ⟨id, -, q, rfl⟩ := h.1 f hf
    obtain ⟨id', -, q', rfl⟩ := h.1 g (List.mem_of_mem_filter hg)
    exact le_rfl

private theorem reached_fullRun : ∃ fs, Filled fs 922337203686 i64Max ∧ fs ≠ [] ∧
    reached fullRun = filling .open fs (hugeItem i64Max .delivered) [freeDue 3 1] := by
  obtain ⟨fs, dues, filled, hd, before⟩ := reached_fillRun 922337203685 (by norm_num [i64Max])
  have whole : (10000000 : Int) * (922337203685 : Nat) + 4775807 = i64Max := by norm_num [i64Max]
  have accepted := record_free filled hd (by norm_num) (by norm_num) (by norm_num) whole.le
  have after := filled.append 4775807
  rw [whole] at accepted after
  have bought : baseStatus i64Max i64Max false = .bought := rfl
  rw [bought] at accepted
  refine ⟨_, after, by simp, ?_⟩
  have delivered := markDelivered_filling after (by simp) [freeDue 3 1]
  have second : exec apply _ (.markDelivered 3 1 1 (some 3)) = _ :=
    exec_of_ok (mapError_eq_ok.mpr delivered)
  rw [fullRun, reached_append, before, run_cons, exec_record accepted, run_cons, second, run_nil]

/-- On a full item any quantity passes the check, and a frozen status skips the recompute. -/
private theorem record_wraps {fs : List Fulfillment} {n : Nat} {list : ListStatus}
    {status : ListItemStatus} {dues : List Reimbursement} {hauler newId : Uuid} {s' : Db}
    (h : Filled fs n i64Max) (hlist : list ≠ .archived)
    (frozen : status = .delivered ∨ status = .settled) (member : hauler = 3 ∨ hauler = 4)
    (pending : ∀ rs ∈ reimbursementStatus (filling list fs (hugeItem i64Max status) dues) 1 1 hauler,
      rs = .pending)
    (hup : upsertReimbursement
      (filling list (fs ++ [freeRow hauler n 1]) (hugeItem i64Max status) dues) 1 1 hauler newId =
        .ok s') :
    recordFulfillment (filling list fs (hugeItem i64Max status) dues) hauler 1 1
      (samplePurchase 1 0) ⟨n, newId, 0⟩ = .ok s' := by
  have cur : currentList (filling list fs (hugeItem i64Max status) dues) hauler 1 =
      .ok ⟨hauler, 1, 1, .member, 1, list⟩ := by
    rcases member with rfl | rfl <;> rfl
  simp only [recordFulfillment, bind_eq_ok, fetch_eq_ok, require_eq_ok, requirePending_eq_ok]
  refine ⟨_, cur, (), require_eq_ok.mpr hlist, (), rfl, (), rfl, _, rfl, (), ?_, (), pending, (),
    rfl, (), rfl, _, insert_free h (by decide) hauler, (status, _), ?_, hup⟩
  · change wrapI64 (1 + i64Max) ≤ i64Max
    decide
  · simp only [recomputeItemStatus, bind_eq_ok, fetch_eq_ok]
    refine ⟨hugeItem i64Max status, rfl, ?_⟩
    rw [if_pos]
    · rfl
    · rcases frozen with rfl | rfl
      · exact .inr ⟨rfl, trivial⟩
      · exact .inl rfl

/-- One more unit for the delivered item. -/
def overflowRun : List Op :=
  fullRun ++ [.recordFulfillment 3 1 1 (samplePurchase 1 0) ⟨922337203686, 1, 0⟩]

/-- The purchase is accepted, and the item no longer counts all its purchases. -/
theorem overflow_breaks_item :
    ∃ li ∈ (reached overflowRun).listItems, ¬ ItemConsistent (reached overflowRun) li := by
  obtain ⟨fs, filled, -, before⟩ := reached_fullRun
  have after := filled.append 1
  have known : reimbursementStatus (filling .open fs (hugeItem i64Max .delivered) [freeDue 3 1])
      1 1 3 = some .pending := rfl
  have accepted := record_wraps filled (by decide) (.inl rfl) (.inl rfl)
    (fun rs hrs => (Option.some.inj (known.symm.trans hrs)).symm)
    (upsert_free (hugeItem i64Max .delivered) after.free (.inr rfl))
  rw [overflowRun, reached_append, before, run_cons, exec_record accepted, run_nil]
  refine ⟨hugeItem i64Max .delivered, List.mem_singleton.mpr rfl, ?_⟩
  rintro ⟨counts, -⟩
  rw [show (hugeItem i64Max .delivered).id = 1 from rfl, liveQty_filling after] at counts
  exact absurd counts (by decide)

def settledFullRun : List Op := fullRun ++ [.settleManual 1 1 0]

def settledFreeDue : Reimbursement :=
  { freeDue 3 1 with status := .settled, settledAt := some 0, settledByUserId := some 1 }

private theorem settleManual_filling {fs : List Fulfillment} {n : Nat} {total : Int}
    (h : Filled fs n total) (some_row : fs ≠ []) :
    settleManual (filling .open fs (hugeItem i64Max .delivered) [freeDue 3 1]) 1 1 0 =
      .ok (filling .closed fs (hugeItem i64Max .settled) [settledFreeDue]) := by
  have hauled : ∀ dues, supplied (filling .open fs (hugeItem i64Max .delivered) dues) 1 3 = true := by
    intro dues
    obtain ⟨f, hf⟩ := List.exists_mem_of_ne_nil fs some_row
    refine List.any_eq_true.mpr ⟨f, hf, ?_⟩
    obtain ⟨id, -, q, rfl⟩ := h.1 f hf
    rfl
  simp only [settleManual, bind_eq_ok, fetch_eq_ok, require_eq_ok]
  refine ⟨freeDue 3 1, rfl, (), rfl, ?_⟩
  rw [if_neg (by simp [freeDue])]
  simp only [bind_eq_ok, fetch_eq_ok, require_eq_ok]
  refine ⟨1, rfl, (), rfl, ?_⟩
  have rows : settleReimbursements (filling .open fs (hugeItem i64Max .delivered) [freeDue 3 1])
      (fun x => decide (x.id = (freeDue 3 1).id)) 0 (some 1) =
        filling .open fs (hugeItem i64Max .delivered) [settledFreeDue] := rfl
  rw [rows]
  have flips : flipItemsToSettled (filling .open fs (hugeItem i64Max .delivered) [settledFreeDue])
      1 1 3 false = filling .open fs (hugeItem i64Max .settled) [settledFreeDue] := by
    have held := hauled [settledFreeDue]
    simp only [flipItemsToSettled, flipHaulerItems, flipItems, updateWhere]
    simp only [filling, hugeItem, settledFreeDue, freeDue, requestedBy, owedBy, flippable] at held ⊢
    simp [held]
  change Except.ok (autoCloseListIfComplete (flipItemsToSettled (filling .open fs
    (hugeItem i64Max .delivered) [settledFreeDue]) 1 1 3 false) 1) = _
  rw [flips]
  rfl

/-- Another member's purchase on the settled item is accepted and reopens its books. -/
theorem overflow_reopens_settled :
    ∃ s', apply (.recordFulfillment 4 1 1 (samplePurchase 1 0) ⟨922337203686, 2, 0⟩)
        (reached settledFullRun) = .ok s' ∧
      (∃ li ∈ (reached settledFullRun).listItems, li.id = 1 ∧ li.status = .settled) ∧
      ∃ li ∈ s'.listItems, li.id = 1 ∧ li.status = .settled ∧
        ∃ r ∈ s'.reimbursements, coversItem s' r li = true ∧ r.status = .pending := by
  obtain ⟨fs, filled, some_row, before⟩ := reached_fullRun
  have settled : reached settledFullRun =
      filling .closed fs (hugeItem i64Max .settled) [settledFreeDue] := by
    have done : apply (.settleManual 1 1 0) _ = .ok _ :=
      mapError_eq_ok.mpr (settleManual_filling filled some_row)
    rw [settledFullRun, reached_append, before, run_cons, run_nil, exec_of_ok done]
  have free : ∀ f ∈ fs ++ [freeRow 4 922337203686 1], f.cost = 0 := by
    intro f hf
    rcases List.mem_append.mp hf with hf | hf
    · exact filled.free f hf
    · rw [List.mem_singleton.mp hf, cost_freeRow]
  have new := proposed_free .closed (hugeItem i64Max .settled) [settledFreeDue] free 4 2
  have opened : upsertReimbursement (filling .closed (fs ++ [freeRow 4 922337203686 1])
      (hugeItem i64Max .settled) [settledFreeDue]) 1 1 4 2 =
        .ok (filling .closed (fs ++ [freeRow 4 922337203686 1]) (hugeItem i64Max .settled)
          [settledFreeDue, freeDue 4 2]) := by
    unfold upsertReimbursement
    change (do
      require (moneyFits (proposed (filling .closed (fs ++ [freeRow 4 922337203686 1])
        (hugeItem i64Max .settled) [settledFreeDue]) ⟨1, 1, 1, .closed, 0, none⟩ 1 1 4 4 2)) _
      _) = _
    rw [new]
    rfl
  have unknown : reimbursementStatus (filling .closed fs (hugeItem i64Max .settled)
      [settledFreeDue]) 1 1 4 = none := rfl
  have accepted := record_wraps filled (by decide) (.inr rfl) (.inr rfl)
    (fun rs hrs => by simp [unknown] at hrs) opened
  rw [settled]
  refine ⟨_, mapError_eq_ok.mpr accepted, ⟨_, List.mem_singleton.mpr rfl, rfl, rfl⟩, _,
    List.mem_singleton.mpr rfl, rfl, rfl, freeDue 4 2, by simp [filling], ?_, rfl⟩
  refine coversItem_eq_true.mpr ⟨rfl, supplied_eq_true.mpr ⟨freeRow 4 922337203686 1, ?_⟩, .inr rfl⟩
  exact ⟨List.mem_append_right _ (List.mem_singleton.mpr rfl), rfl, rfl, rfl⟩


end Overflow

end JitaCart.Items
