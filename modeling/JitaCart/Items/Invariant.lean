/- module: JitaCart/Items/Invariant
   source: backend/crates/api/src/fulfillment/fulfillments.rs, backend/crates/api/src/lists/crud.rs,
     backend/crates/settlement/src/lib.rs
   digest: Books, stock and settled items together, kept by every request without an overflow. -/

import JitaCart.Items.Effect

set_option autoImplicit false
set_option relaxedAutoImplicit false

namespace JitaCart.Items

open Schema Base.Table Base.Request Base.Numeric Directory Settlement Operations Books
open Api.Extract Api.ItemStatus Api.Claims Api.Fulfillments Api.Reimbursements Api.Lists
open Api.Contracts Worker.Match Worker.Terminal

private theorem liveQty_nonneg {s : Db} (st : Stock s) (itemId : Uuid) : 0 ≤ liveQty s itemId :=
  sumWhere_nonneg fun f hf _ => (st.positive f hf).1.le

private theorem liveQty_unknown {s : Db} (ok : (ledger s).Ok) {itemId : Uuid}
    (unknown : s.item? itemId = none) : liveQty s itemId = 0 := by
  apply sumWhere_eq_zero
  intro f hf
  have known := ok.purchaseLine f hf
  rw [line?_ledger] at known
  have : f.listItemId ≠ itemId := by
    rintro rfl
    simp [unknown] at known
  simp [this]

private theorem Stock.insertItems {s m s' : Db} {listId userId : Uuid} {lines : List NewLine}
    {ids : List Uuid} (st : Stock s) (ok : (ledger s).Ok) (positive : ∀ n ∈ lines, 0 < n.qty)
    (h : insertItems m listId userId lines ids = .ok s') (items : m.listItems = s.listItems)
    (fulfillments : m.fulfillments = s.fulfillments)
    (claimItems : m.claimItems = s.claimItems) : Stock s' := by
  obtain ⟨-, -, fresh, rfl⟩ := insertItems_ok h
  have st' : Stock m := st.frame items fulfillments claimItems
  refine ⟨?_, ?_, st'.positive, ?_⟩
  · intro li hli
    rcases List.mem_append.mp hli with hli | hli
    · exact (st'.consistent li hli).congr rfl (.inl rfl)
    · obtain ⟨id, hid, n, hn, rfl⟩ := mem_newItems hli
      have unknown : s.item? id = none := by
        have := fresh id hid
        unfold Db.item? at this ⊢
        rwa [items] at this
      have qty : liveQty m id = 0 := by
        have := liveQty_unknown ok unknown
        unfold liveQty at this ⊢
        rwa [fulfillments]
      have idle : hasActiveClaim m id = false := by
        apply List.any_eq_false.mpr
        intro ci hci hact
        obtain ⟨li, hli, hk⟩ := st'.claimed ci hci
        simp only [Bool.and_eq_true, decide_eq_true_eq] at hact
        exact lookup_eq_none.mp (fresh id hid) li hli (hk.trans hact.1)
      have pos := positive n hn
      have short : (0 : Int) ≠ n.qty := by omega
      refine ⟨qty.symm, pos.le, ?_⟩
      change consistentStatus 0 n.qty (hasActiveClaim m id) .open
      rw [idle]
      simp [consistentStatus, short]
  · intro li hli
    rcases List.mem_append.mp hli with hli | hli
    · exact st'.requested li hli
    · obtain ⟨id, -, n, hn, rfl⟩ := mem_newItems hli
      exact positive n hn
  · intro ci hci
    obtain ⟨li, hli, hk⟩ := st'.claimed ci hci
    exact ⟨li, List.mem_append_left _ hli, hk⟩

private theorem Stock.restatus {s : Db} {p : ListItem → Bool} {status : ListItemStatus}
    (st : Stock s) (full : ∀ li ∈ s.listItems, p li = true → done li.status = true)
    (final : status = .delivered ∨ status = .settled) :
    Stock { s with
      listItems := updateWhere p (fun li => { li with status := status }) s.listItems } := by
  refine ⟨?_, ?_, st.positive, ?_⟩
  · intro li' hli'
    obtain ⟨li, hli, rfl⟩ := mem_updateWhere.mp hli'
    have old := st.consistent li hli
    split
    · rename_i hp
      have hfull := (consistentStatus_done old.2.2).mp (full li hli hp)
      refine ⟨old.1, old.2.1, ?_⟩
      rcases final with rfl | rfl <;> exact hfull
    · exact old.congr rfl (.inl rfl)
  · intro li' hli'
    obtain ⟨li, hli, rfl⟩ := mem_updateWhere.mp hli'
    have := st.requested li hli
    split <;> exact this
  · intro ci hci
    obtain ⟨li, hli, hid⟩ := st.claimed ci hci
    refine ⟨_, mem_updateWhere_of_mem hli, ?_⟩
    rw [← hid]
    split <;> rfl

private theorem Stock.markDelivered {s s' : Db} {userId listId itemId : Uuid}
    {lastHauler : Option Uuid} (st : Stock s) (keyed : Keyed ListItem.id s.listItems)
    (h : markDelivered s userId listId itemId lastHauler = .ok s') : Stock s' := by
  obtain ⟨li, hli, -, bought, rfl⟩ := markDelivered_ok h
  refine st.restatus ?_ (.inl rfl)
  intro x hx hid
  obtain ⟨hmem, hk⟩ := lookup_mem hli
  obtain rfl := keyed.eq_of_key hx hmem ((by simpa using hid : x.id = itemId).trans hk.symm)
  simp [bought, done]

/-- A recompute of an item that is neither settled nor, while full, delivered. -/
private theorem recompute_moved {m s' : Db} {itemId : Uuid} {demotion : DeliveredDemotion}
    {status : ListItemStatus} {li : ListItem} (hli : m.item? itemId = some li)
    (unsettled : li.status ≠ .settled)
    (undelivered : li.status = .delivered → demotion = .allow ∧ liveQty m itemId < li.qtyRequested)
    (h : recomputeItemStatus m itemId demotion = .ok (status, s')) :
    s' = setStatus m itemId
      (baseStatus (liveQty m itemId) li.qtyRequested (hasActiveClaim m itemId))
      (liveQty m itemId) := by
  obtain ⟨x, hx, cases⟩ := recomputeItemStatus_ok h
  obtain rfl : x = li := Option.some.inj (hx.symm.trans hli)
  rcases cases with ⟨hs | ⟨hd, hforbid⟩, -, -⟩ | ⟨-, -, -, hstatus, rfl⟩
  · exact absurd hs unsettled
  · have := (undelivered hd).1
    rw [hforbid] at this
    cases this
  · rw [hstatus, if_neg]
    rintro ⟨hd, hbase⟩
    have short := (undelivered hd).2
    unfold baseStatus at hbase
    rw [if_neg (by omega)] at hbase
    split at hbase <;> cases hbase

private theorem Stock.repurchased {s m : Db} {itemId : Uuid} {li : ListItem} (st : Stock s)
    (keyed : Keyed ListItem.id s.listItems) (hli : s.item? itemId = some li)
    (items : m.listItems = s.listItems) (claimItems : m.claimItems = s.claimItems)
    (positive : ∀ f ∈ m.fulfillments, 0 < f.qty ∧ 0 ≤ f.unitPriceIsk)
    (others : ∀ id, id ≠ itemId → liveQty m id = liveQty s id)
    (fits : liveQty m itemId ≤ li.qtyRequested) :
    Stock (setStatus m itemId
      (baseStatus (liveQty m itemId) li.qtyRequested (hasActiveClaim m itemId))
      (liveQty m itemId)) := by
  have active : ∀ id, hasActiveClaim m id = hasActiveClaim s id := fun id => by
    unfold hasActiveClaim
    rw [claimItems]
  obtain ⟨hmem, hk⟩ := lookup_mem hli
  unfold setStatus
  rw [items]
  refine ⟨?_, ?_, positive, ?_⟩
  · intro li' hli'
    obtain ⟨x, hx, rfl⟩ := mem_updateWhere.mp hli'
    by_cases hid : x.id = itemId
    · obtain rfl := keyed.eq_of_key hx hmem (hid.trans hk.symm)
      rw [if_pos (by simpa using hid)]
      subst hk
      exact ⟨rfl, fits, consistentStatus_base fits⟩
    · rw [if_neg (by simpa using hid)]
      exact (st.consistent x hx).congr (others x.id hid) (.inl (active _))
  · intro li' hli'
    obtain ⟨x, hx, rfl⟩ := mem_updateWhere.mp hli'
    have := st.requested x hx
    split <;> exact this
  · intro ci hci
    obtain ⟨x, hx, hid⟩ := st.claimed ci (claimItems ▸ hci)
    refine ⟨_, mem_updateWhere_of_mem hx, ?_⟩
    rw [← hid]
    split <;> rfl

theorem liveQty_append {s : Db} {f : Fulfillment} (live : f.live = true) (itemId : Uuid) :
    liveQty { s with fulfillments := s.fulfillments ++ [f] } itemId =
      liveQty s itemId + if f.listItemId = itemId then f.qty else 0 := by
  unfold liveQty
  rw [sumWhere_append, sumWhere_cons]
  simp [live]

theorem liveQty_reverseRow_other {s : Db} {f : Fulfillment} {now : Timestamp} {itemId : Uuid}
    (keyed : Keyed Fulfillment.id s.fulfillments) (hf : f ∈ s.fulfillments)
    (other : itemId ≠ f.listItemId) :
    liveQty (reverseRow s f.id now) itemId = liveQty s itemId := by
  have dropped := sumWhere_drop (p := fun g : Fulfillment => decide (g.listItemId = itemId) && g.live)
    (q := fun g => decide (g.id = f.id) && g.live)
    (f := fun g => { g with reversedAt := some now }) (v := (·.qty)) (t := s.fulfillments)
    (by intro g _ _; simp [Fulfillment.live])
  have zero : sumWhere (fun g : Fulfillment => (decide (g.listItemId = itemId) && g.live) &&
      (decide (g.id = f.id) && g.live)) (·.qty) s.fulfillments = 0 := by
    apply sumWhere_eq_zero
    intro g hg
    by_cases hid : g.id = f.id
    · obtain rfl := keyed.eq_of_key hg hf hid
      simp [other.symm]
    · simp [hid]
  rw [zero, add_zero] at dropped
  exact dropped

private theorem liveQty_reverseRow_lt {s : Db} {f : Fulfillment} (st : Stock s)
    (hf : f ∈ s.fulfillments) (live : f.live = true) (now : Timestamp) :
    liveQty (reverseRow s f.id now) f.listItemId < liveQty s f.listItemId := by
  have dropped := sumWhere_drop
    (p := fun g : Fulfillment => decide (g.listItemId = f.listItemId) && g.live)
    (q := fun g => decide (g.id = f.id) && g.live)
    (f := fun g => { g with reversedAt := some now }) (v := (·.qty)) (t := s.fulfillments)
    (by intro g _ _; simp [Fulfillment.live])
  have atLeast : f.qty ≤ sumWhere (fun g : Fulfillment =>
      (decide (g.listItemId = f.listItemId) && g.live) && (decide (g.id = f.id) && g.live))
      (·.qty) s.fulfillments :=
    le_sumWhere hf (by simp [live]) fun g hg _ => (st.positive g hg).1.le
  have pos := (st.positive f hf).1
  change sumWhere _ _ (updateWhere _ _ _) < sumWhere _ _ _
  omega

structure Sound (s : Db) : Prop where
  books : (ledger s).Ok
  stock : Stock s
  settled : SettledSound s

/-- A purchase must not carry the 64-bit sum of the quantity check over its largest value. -/
def NoOverflow (s : Db) : Op → Prop
  | .recordFulfillment _ _ itemId body _ =>
    ∀ li ∈ s.item? itemId, body.qty + li.qtyFulfilled ≤ i64Max
  | _ => True

/-- Item and body of a purchase. -/
def purchase? : Op → Option (Uuid × RecordFulfillmentBody)
  | .recordFulfillment _ _ itemId body _ => some (itemId, body)
  | _ => none

instance (s : Db) (o : Op) : Decidable (NoOverflow s o) :=
  decidable_of_iff
    (∀ p ∈ purchase? o, ∀ li ∈ s.item? p.1, p.2.qty + li.qtyFulfilled ≤ i64Max)
    (by cases o <;> simp [NoOverflow, purchase?])

theorem upsert_shape {s s' : Db} {listId requester hauler newId : Uuid}
    (h : upsertReimbursement s listId requester hauler newId = .ok s') :
    ∃ rows, s' = { s with reimbursements := rows } ∧
      (∀ r ∈ s.reimbursements, ∃ r' ∈ rows, face r' = face r) ∧
      ∀ r' ∈ rows, (∃ r ∈ s.reimbursements, face r' = face r) ∨ r'.status = .pending := by
  rcases upsertReimbursement_ok h with ⟨-, rfl⟩ | ⟨l, rp, hp, -, -, -, -, -, ⟨-, rfl⟩ | ⟨-, -, rfl⟩⟩
  · exact ⟨s'.reimbursements, rfl, fun r hr => ⟨r, hr, rfl⟩, fun r hr => .inl ⟨r, hr, rfl⟩⟩
  · refine ⟨_, rfl, fun r hr => ⟨_, mem_updateWhere_of_mem hr, ?_⟩, fun r' hr' => .inl ?_⟩
    · split <;> rfl
    · obtain ⟨r, hr, rfl⟩ := mem_updateWhere.mp hr'
      refine ⟨r, hr, ?_⟩
      split <;> rfl
  · refine ⟨_, rfl, fun r hr => ⟨r, List.mem_append_left _ hr, rfl⟩, fun r' hr' => ?_⟩
    rcases List.mem_append.mp hr' with hr | hr
    · exact .inl ⟨r', hr, rfl⟩
    · rw [List.mem_singleton.mp hr]
      exact .inr rfl

private theorem dues_kept {s s' : Db}
    (image : ∀ r ∈ s.reimbursements, ∃ r' ∈ s'.reimbursements, face r' = face r) :
    ∀ r ∈ s.reimbursements, r.status = .settled →
      ∃ r' ∈ s'.reimbursements, r'.status = .settled ∧ parties r' = parties r := by
  intro r hr settled
  obtain ⟨r', hr', hface⟩ := image r hr
  simp only [face, Prod.mk.injEq] at hface
  exact ⟨r', hr', hface.2.2.trans settled, hface.2.1⟩

section Purchases
variable {s s' : Db} {userId listId itemId : Uuid} {body : RecordFulfillmentBody} {gen : Generated}

/-- Without an overflow the quantity check keeps the purchase within the request. -/
private theorem room_of_noOverflow {li : ListItem} (st : Stock s) (hli : s.item? itemId = some li)
    (pos : 0 < body.qty)
    (fits : NoOverflow s (.recordFulfillment userId listId itemId body gen))
    (room : wrapI64 (body.qty + li.qtyFulfilled) ≤ li.qtyRequested) :
    body.qty + li.qtyFulfilled ≤ li.qtyRequested := by
  have consistent := st.consistent li (lookup_mem hli).1
  have nonneg := liveQty_nonneg st li.id
  rw [← consistent.1] at nonneg
  have atMost := fits li hli
  rwa [wrapI64_of_fits ⟨by unfold i64Max; omega, atMost⟩] at room

theorem bought_shape (sound : Sound s)
    (fits : NoOverflow s (.recordFulfillment userId listId itemId body gen))
    (h : recordFulfillment s userId listId itemId body gen = .ok s') :
    ∃ li f m, s.item? itemId = some li ∧ done li.status = false ∧ f.live = true ∧
      f.listItemId = itemId ∧ f.haulerUserId = userId ∧
      m = { s with fulfillments := s.fulfillments ++ [f] } ∧
      s'.fulfillments = m.fulfillments ∧
      s'.listItems = (setStatus m itemId
        (baseStatus (liveQty m itemId) li.qtyRequested (hasActiveClaim m itemId))
        (liveQty m itemId)).listItems ∧
      Stock s' ∧ (∀ r ∈ s.reimbursements, ∃ r' ∈ s'.reimbursements, face r' = face r) ∧
      (∀ r' ∈ s'.reimbursements,
        (∃ r ∈ s.reimbursements, face r' = face r) ∨ r'.status = .pending) ∧
      ∀ rs ∈ reimbursementStatus s li.listId li.requestedByUserId userId, rs = .pending := by
  obtain ⟨l, role, li, f, m, status, s₂, active, -, -, -, hli, hlist, pos, -, price, room, hstatus, hf,
    -, hm, hrec, hup⟩ := recordFulfillment_ok h
  have keyed := keyed_items sound.books
  have consistent := sound.stock.consistent li (lookup_mem hli).1
  have fitsIn := room_of_noOverflow sound.stock hli pos fits room
  have live : f.live = true := by
    rw [hf]
    rfl
  have onItem : f.listItemId = itemId := by
    rw [hf]
    rfl
  have qty : f.qty = body.qty := by
    rw [hf]
    rfl
  have short : done li.status = false := by
    by_contra hd
    have := (consistentStatus_done consistent.2.2).mp (by simpa using hd)
    omega
  have hli' : m.item? itemId = some li := by
    rw [hm]
    exact hli
  have hs₂ := recompute_moved hli' (fun hs => by simp [hs, done] at short)
    (fun hd => by simp [hd, done] at short) hrec
  have grown : ∀ id, liveQty m id = liveQty s id + if f.listItemId = id then f.qty else 0 :=
    fun id => hm ▸ liveQty_append live id
  have hk := (lookup_mem hli).2
  have stock₂ : Stock s₂ := by
    rw [hs₂]
    refine sound.stock.repurchased keyed hli (by rw [hm]) (by rw [hm]) ?_ ?_ ?_
    · rw [hm]
      intro g hg
      rcases List.mem_append.mp hg with hg | hg
      · exact sound.stock.positive g hg
      · rw [List.mem_singleton.mp hg, qty, hf]
        exact ⟨pos, roundHalfAway_nonneg (mul_nonneg price (by norm_num))⟩
    · intro id hid
      rw [grown, onItem, if_neg (Ne.symm hid), add_zero]
    · rw [grown, onItem, if_pos rfl, qty, ← hk, ← consistent.1]
      omega
  have keyed₂ : Keyed ListItem.id s₂.listItems := by
    rw [hs₂, hm]
    exact keyed.updateWhere fun _ => rfl
  obtain ⟨claims, claimItems, hs₃⟩ := completeClaim_shape s₂ active status
  have stock₃ : Stock (completeClaim s₂ active status) := stock₂.completeClaim keyed₂
  obtain ⟨rows, rfl, image, origin⟩ := upsert_shape hup
  have sameRows : (completeClaim s₂ active status).reimbursements = s.reimbursements := by
    rw [hs₃, hs₂, hm]
    rfl
  rw [sameRows] at image origin
  refine ⟨li, f, m, hli, short, live, onItem, by rw [hf]; rfl, hm, ?_, ?_, stock₃.frame rfl rfl rfl,
    image, origin, hlist ▸ hstatus⟩
  · rw [hs₃, hs₂]
    rfl
  · rw [hs₃, hs₂]

private theorem Sound.bought (sound : Sound s)
    (fits : NoOverflow s (.recordFulfillment userId listId itemId body gen))
    (h : recordFulfillment s userId listId itemId body gen = .ok s') : Sound s' := by
  have books := ledgerOk_record sound.books h
  obtain ⟨li, f, m, hli, short, live, onItem, -, rfl, hful, hitems, stock, image, -⟩ :=
    bought_shape sound fits h
  have settledBefore : ∀ li' ∈ s'.listItems, li'.status = .settled → li' ∈ s.listItems := by
    intro li' hli' hset
    rw [hitems] at hli'
    obtain ⟨x, hx, rfl⟩ := mem_updateWhere.mp hli'
    split at hset
    · simp only [baseStatus] at hset
      split at hset
      · cases hset
      · split at hset <;> cases hset
    · rename_i off
      rw [if_neg off]
      exact hx
  refine ⟨books, stock, sound.settled.step sound.books books ?_ ?_ (dues_kept image)⟩
  · exact fun li' hli' hset => ⟨li', settledBefore li' hli' hset, rfl, hset⟩
  · intro li' hli' hset g hg _ hi
    rw [hful] at hg
    rcases List.mem_append.mp hg with hg | hg
    · exact hg
    · rw [List.mem_singleton.mp hg, onItem] at hi
      have known := item?_of_mem sound.books (settledBefore li' hli' hset)
      rw [← hi, hli] at known
      rw [Option.some.inj known, hset] at short
      cases short

end Purchases

/-- A settled item has no purchase whose reimbursement is still pending. -/
private theorem unsettled_of_pending {s : Db} (sound : Sound s) {f : Fulfillment} {li : ListItem}
    (hf : f ∈ s.fulfillments) (live : f.live = true) (hli : s.item? f.listItemId = some li)
    (status : ∀ rs ∈ reimbursementStatus s li.listId li.requestedByUserId f.haulerUserId,
      rs = .pending) : li.status ≠ .settled := by
  intro settled
  obtain ⟨hmem, hk⟩ := lookup_mem hli
  obtain ⟨r, hr, hc, hcf⟩ := exists_coversItem sound.books hmem hf live hk.symm
  obtain ⟨-, -, -, hauler, -⟩ := covers_eq_true.mp hcf
  have read := reimbursementStatus_coversItem sound.books hr hc
  rw [← hauler] at read
  have pending := status r.status read
  rw [sound.settled li hmem settled r hr hc] at pending
  cases pending

/-- What an accepted reversal writes: its item is demoted, for it is no longer full. -/
theorem reversed_shape {s s' : Db} {userId fulfillmentId newId : Uuid} {now : Timestamp}
    (sound : Sound s) (h : reverseFulfillment s userId fulfillmentId newId now = .ok s') :
    ∃ f li m, f ∈ s.fulfillments ∧ f.id = fulfillmentId ∧ f.live = true ∧
      s.item? f.listItemId = some li ∧ li.status ≠ .settled ∧ m = reverseRow s f.id now ∧
      liveQty m f.listItemId < li.qtyRequested ∧ s'.fulfillments = m.fulfillments ∧
      s'.listItems = (setStatus m f.listItemId
        (baseStatus (liveQty m f.listItemId) li.qtyRequested (hasActiveClaim m f.listItemId))
        (liveQty m f.listItemId)).listItems ∧
      Stock s' ∧ (∀ r ∈ s.reimbursements, ∃ r' ∈ s'.reimbursements, face r' = face r) := by
  obtain ⟨f, li, l, role, status, s₂, hf, hli, -, -, live, hstatus, hrec, hup⟩ :=
    reverseFulfillment_ok h
  obtain ⟨hmem, rfl⟩ := lookup_mem hf
  have st := sound.stock
  have unsettled := unsettled_of_pending sound hmem live hli hstatus
  obtain ⟨hlimem, hk⟩ := lookup_mem hli
  have consistent := st.consistent li hlimem
  have less := liveQty_reverseRow_lt st hmem live now
  have short : liveQty (reverseRow s f.id now) f.listItemId < li.qtyRequested := by
    have := consistent.2.1
    rw [consistent.1, hk] at this
    omega
  have hs₂ := recompute_moved (m := reverseRow s f.id now) hli unsettled
    (fun _ => ⟨rfl, short⟩) hrec
  have keyedF : Keyed Fulfillment.id s.fulfillments := sound.books.purchases
  have stock₂ : Stock s₂ := by
    rw [hs₂]
    refine st.repurchased (keyed_items sound.books) hli rfl rfl ?_ ?_ short.le
    · intro g hg
      obtain ⟨x, hx, rfl⟩ := mem_updateWhere.mp hg
      have := st.positive x hx
      split <;> exact this
    · exact fun id hid => liveQty_reverseRow_other keyedF hmem hid
  obtain ⟨rows, rfl, image, -⟩ := upsert_shape hup
  refine ⟨f, li, _, hmem, rfl, live, hli, unsettled, rfl, short, ?_, ?_, stock₂.frame rfl rfl rfl, ?_⟩
  · rw [hs₂]
    rfl
  · rw [hs₂]
  · intro r hr
    refine image r ?_
    rw [hs₂]
    exact hr

theorem baseStatus_ne_settled {qf qr : Int} {active : Bool} :
    baseStatus qf qr active ≠ .settled := by
  unfold baseStatus
  split
  · simp
  · split <;> simp

/-- Items that are settled after one row got a base status were settled before. -/
private theorem settled_setStatus {m : Db} {itemId : Uuid} {qf qr qty : Int} {active : Bool}
    {li : ListItem} (hli : li ∈ (setStatus m itemId (baseStatus qf qr active) qty).listItems)
    (settled : li.status = .settled) : li ∈ m.listItems ∧ li.id ≠ itemId := by
  obtain ⟨x, hx, rfl⟩ := mem_updateWhere.mp hli
  by_cases hid : x.id = itemId
  · rw [if_pos (by simpa using hid)] at settled
    exact absurd settled baseStatus_ne_settled
  · rw [if_neg (by simpa using hid)]
    exact ⟨hx, hid⟩

private theorem Sound.reversed {s s' : Db} {userId fulfillmentId newId : Uuid} {now : Timestamp}
    (sound : Sound s) (h : reverseFulfillment s userId fulfillmentId newId now = .ok s') :
    Sound s' := by
  have books := ledgerOk_reverse sound.books h
  obtain ⟨f, li, m, -, -, -, -, -, rfl, -, hful, hitems, stock, image⟩ := reversed_shape sound h
  rw [reverseRow] at hful
  refine ⟨books, stock, sound.settled.step sound.books books ?_ ?_ (dues_kept image)⟩
  · intro li' hli' settled
    rw [hitems] at hli'
    exact ⟨li', (settled_setStatus hli' settled).1, rfl, settled⟩
  · intro li' _ _ g hg live _
    rw [hful] at hg
    obtain ⟨x, hx, rfl⟩ := mem_updateWhere.mp hg
    split at live
    · simp [Fulfillment.live] at live
    · rename_i off
      rw [if_neg off]
      exact hx

private theorem Sound.settledByHand {s s' : Db} {rid settledBy : Uuid} {now : Timestamp}
    (sound : Sound s) (h : settleManual s rid settledBy now = .ok s') : Sound s' := by
  have ok := sound.books
  have books : (ledger s').Ok := ledger_settleManual (noCancelled ok) h ▸ ok
  obtain ⟨r, mine, rival, lists, hr, -, mode, -, rfl⟩ := settleManual_ok h
  set m := settleReimbursements s (fun x => decide (x.id = r.id)) now (some settledBy) with hm
  have okm : (ledger m).Ok := by
    rw [hm, ledger_settleReimbursements (noCancelled ok)]
    exact ok
  have stm : Stock m := sound.stock.frame rfl rfl rfl
  have settledm : SettledSound m := sound.settled.settleReimbursements ok
  obtain ⟨hrmem, -⟩ := lookup_mem hr
  obtain ⟨r', hr', hp', hs'⟩ := settleReimbursements_image hrmem
    (fun x => decide (x.id = r.id)) now (some settledBy)
  simp only [decide_true, if_true] at hs'
  have hparties := hp'
  simp only [parties, Prod.mk.injEq] at hparties
  obtain ⟨hlist, hhauler, hreq, hcorp⟩ := hparties
  have mode' : Mode r' mine rival := by
    unfold Mode at mode ⊢
    rw [hcorp, hreq]
    exact mode
  refine ⟨books, ?_, ?_⟩
  · refine Stock.frame (s := flipHaulerItems m r.listId r.haulerUserId false mine rival) ?_ rfl rfl
      rfl
    refine stm.restatus ?_ (.inr rfl)
    intro li hli hflip
    simp only [Bool.and_eq_true, flippable, Bool.or_eq_true, decide_eq_true_eq] at hflip
    rcases hflip.1.1.2 with hd | hd
    · simp [hd, done]
    · simp at hd
  · refine SettledSound.flip settledm ?_
    intro li hli hflip x hx hxc
    simp only [Bool.and_eq_true, decide_eq_true_eq, Bool.not_eq_true', List.any_eq_false] at hflip
    obtain ⟨⟨⟨⟨hl, hmine⟩, -⟩, hsup⟩, unblocked⟩ := hflip
    refine flipHauler_covered okm hr' hs' mode' hli (hl.trans hlist.symm) hmine
      (hhauler ▸ hsup) ?_ x hx hxc
    intro y hy hyl hyr hyh hyp
    by_contra hsy
    refine unblocked y hy ?_
    rw [hhauler] at hyh
    simpa [hyl, hlist, hyr, hyp, hyh] using hsy

private theorem Sound.settledByContract {s s' : Db} {cid : Uuid} {now : Timestamp}
    {infos : List ContractSettledReimbursement} (sound : Sound s)
    (h : settleViaContract s cid now = .ok (infos, s')) : Sound s' := by
  have ok := sound.books
  have books : (ledger s').Ok := ledger_settleViaContract (noCancelled ok) h ▸ ok
  obtain ⟨c, -, ⟨-, rfl⟩ | ⟨-, at_, m, lists, hm, rfl⟩⟩ := settleViaContract_ok h
  · exact sound
  have okm : (ledger m).Ok := by
    rw [hm, ledger_settleReimbursements (noCancelled ok)]
    exact ok
  have stm : Stock m := by
    rw [hm]
    exact sound.stock.frame rfl rfl rfl
  have settledm : SettledSound m := hm ▸ sound.settled.settleReimbursements ok
  have bound : ∀ r ∈ m.reimbursements, boundTo cid r = true → r.status ≠ .pending := by
    intro r hr hb pending
    rw [hm] at hr
    obtain ⟨x, -, -, hcontract, ⟨-, hs⟩ | ⟨hp, rfl⟩⟩ := mem_settleReimbursements hr
    · rw [pending] at hs
      cases hs
    · simp [pendingOn, hb, pending] at hp
  refine ⟨books, ?_, ?_⟩
  · refine Stock.frame (s := flipItems m (flipsOnContract m cid)) ?_ rfl rfl rfl
    refine stm.restatus ?_ (.inr rfl)
    intro li hli hflip
    obtain ⟨-, -, -, -, hstatus, -⟩ := (flipsOnContract_eq_true okm).mp hflip
    rcases hstatus with hs | hs <;> simp [hs, done]
  · refine SettledSound.flip settledm ?_
    exact fun li hli hflip => flipsOnContract_covered okm bound hli hflip

private theorem Sound.quiet {s s' : Db} (sound : Sound s) (books : (ledger s').Ok)
    (same : Quiet s s') :
    Sound s' := by
  refine ⟨books, sound.stock.frame same.items same.fulfillments same.claimItems, ?_⟩
  refine sound.settled.step sound.books books ?_ ?_ (dues_kept fun r hr => exists_of_map_eq same.faces hr)
  · intro li hli settled
    exact ⟨li, same.items ▸ hli, rfl, settled⟩
  · intro _ _ _ f hf _ _
    exact same.fulfillments ▸ hf

private theorem Sound.added {s s' : Db} {listId userId : Uuid} {lines : List NewLine}
    {ids : List Uuid} (sound : Sound s) (h : insertItems s listId userId lines ids = .ok s')
    (books : (ledger s').Ok) (positive : ∀ n ∈ lines, 0 < n.qty) : Sound s' := by
  have stock := sound.stock.insertItems sound.books positive h rfl rfl rfl
  obtain ⟨-, -, -, rfl⟩ := insertItems_ok h
  refine ⟨books, stock, sound.settled.step sound.books books ?_ ?_ ?_⟩
  · intro li hli settled
    rcases List.mem_append.mp hli with hli | hli
    · exact ⟨li, hli, rfl, settled⟩
    · obtain ⟨id, -, n, -, rfl⟩ := mem_newItems hli
      cases settled
  · exact fun _ _ _ f hf _ _ => hf
  · exact fun r hr settled => ⟨r, hr, settled, rfl⟩

theorem settled_recomputedRow {m : Db} {li : ListItem}
    (settled : (recomputedRow m li).status = .settled) : li.status = .settled := by
  simp only [recomputedRow] at settled
  split at settled
  · exact settled
  · exact absurd settled baseStatus_ne_settled

private theorem Sound.claims {s m s' : Db} {sel : ListItem → Bool} (sound : Sound s)
    (books : (ledger s').Ok) (stock : Stock s')
    (h : s' = { m with listItems := updateWhere sel (recomputedRow m) m.listItems })
    (items : m.listItems = s.listItems) (fulfillments : m.fulfillments = s.fulfillments)
    (reimbursements : m.reimbursements = s.reimbursements) : Sound s' := by
  subst h
  refine ⟨books, stock, sound.settled.step sound.books books ?_ ?_ ?_⟩
  · intro li' hli' settled
    obtain ⟨li, hli, rfl⟩ := mem_updateWhere.mp hli'
    rw [items] at hli
    refine ⟨li, hli, ?_, ?_⟩
    · split <;> rfl
    · split at settled
      · exact settled_recomputedRow settled
      · exact settled
  · exact fun _ _ _ f hf _ _ => fulfillments ▸ hf
  · exact fun r hr settled => ⟨r, reimbursements ▸ hr, settled, rfl⟩

private theorem Sound.delivered {s s' : Db} {userId listId itemId : Uuid} {lastHauler : Option Uuid}
    (sound : Sound s) (h : markDelivered s userId listId itemId lastHauler = .ok s')
    (books : (ledger s').Ok) : Sound s' := by
  have stock := sound.stock.markDelivered (keyed_items sound.books) h
  obtain ⟨li, -, -, -, rfl⟩ := markDelivered_ok h
  refine ⟨books, stock, sound.settled.step sound.books books ?_ ?_ ?_⟩
  · intro li' hli' settled
    obtain ⟨x, hx, rfl⟩ := mem_updateWhere.mp hli'
    split at settled
    · cases settled
    · rename_i off
      rw [if_neg off]
      exact ⟨x, hx, rfl, settled⟩
  · exact fun _ _ _ f hf _ _ => hf
  · exact fun r hr settled => ⟨r, hr, settled, rfl⟩

/-- Every accepted request that does not overflow keeps books, stock and settled items. -/
theorem sound_step (s : Db) (o : Op) (s' : Db) (sound : Sound s) (fits : NoOverflow s o)
    (h : apply o s = .ok s') : Sound s' := by
  have books := ledgerOk_step s o s' sound.books h
  cases effect_of_ok sound.books sound.stock h with
  | quiet same => exact sound.quiet books same
  | added h same booksm positive => exact (sound.quiet booksm same).added h books positive
  | claims stock h items fulfillments reimbursements =>
    exact sound.claims books stock h items fulfillments reimbursements
  | bought h => exact sound.bought fits h
  | reversed h => exact sound.reversed h
  | delivered h => exact sound.delivered h books
  | settledByHand h => exact sound.settledByHand h
  | settledByContract h same booksm => exact (sound.quiet booksm same).settledByContract h

theorem sound_empty : Sound empty :=
  ⟨ledgerOk_empty, ⟨by simp [empty], by simp [empty], by simp [empty], by simp [empty]⟩,
    by simp [SettledSound, empty]⟩

theorem sound_reached {ops : List Op} (fits : Meets apply NoOverflow empty ops) :
    Sound (reached ops) :=
  meets_invariant sound_step sound_empty fits

end JitaCart.Items
