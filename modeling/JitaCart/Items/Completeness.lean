/- module: JitaCart/Items/Completeness
   source: backend/crates/settlement/src/lib.rs (settle_via_contract, sql_flip_personal,
     sql_flip_corp, settle_manual)
   digest: The last settle of an item flips it, unless a contract settle is blocked from outside. -/

import JitaCart.Items.Invariant

/-!
The bulk flip of `settle_via_contract` looks for another pending hauler on the
list without asking whether that reimbursement is for the item's requester. A
reimbursement of someone else then keeps the item from being flipped, and no
later settle comes back to it.
-/

set_option autoImplicit false
set_option relaxedAutoImplicit false

namespace JitaCart.Items

open Schema Base.Table Base.Request Directory Settlement Operations Books
open Api.Extract Api.ItemStatus Api.Claims Api.Fulfillments Api.Reimbursements Api.Lists
open Api.Contracts Worker.Match Worker.Terminal

/-- Bought or delivered: waiting for its reimbursements. -/
def awaiting (li : ListItem) : Prop := li.status = .bought ∨ li.status = .delivered

instance (li : ListItem) : Decidable (awaiting li) := by
  unfold awaiting
  infer_instance

/-- Every awaiting item has a pending reimbursement that covers it. -/
def Complete (s : Db) : Prop :=
  ∀ li ∈ s.listItems, awaiting li →
    ∃ r ∈ s.reimbursements, coversItem s r li = true ∧ r.status = .pending

/-- `x` stays pending while `bound` is settled, and its hauler, who is not `r`'s, supplied the item. -/
def blocks (s : Db) (bound : Reimbursement → Bool) (r x : Reimbursement) (li : ListItem) : Bool :=
  decide (x.listId = r.listId) && decide (x.haulerUserId ≠ r.haulerUserId) &&
    decide (x.status = .pending) && !bound x && supplied s li.id x.haulerUserId

/-- A contract settle finds, for every item whose last pending reimbursements it settles, a bound
reimbursement of the item that nobody blocks. -/
def Unblocked (s : Db) (o : Op) : Prop :=
  ∀ bound ∈ settles s o, ∀ li ∈ s.listItems, awaiting li →
    (∃ r ∈ s.reimbursements, bound r = true ∧ r.status = .pending ∧ coversItem s r li = true) →
    (∀ x ∈ s.reimbursements, coversItem s x li = true → x.status = .settled ∨ bound x = true) →
    ∃ r ∈ s.reimbursements, bound r = true ∧ coversItem s r li = true ∧
      ∀ x ∈ s.reimbursements, blocks s bound r x li = false

instance (s : Db) (o : Op) : Decidable (Unblocked s o) := by
  unfold Unblocked
  infer_instance

/-- A covering row keeps covering when its face stays and the item's live purchases do. -/
private theorem covered_image {s s' : Db} {li li' : ListItem} {r : Reimbursement}
    (image : ∀ r ∈ s.reimbursements, ∃ r' ∈ s'.reimbursements, face r' = face r)
    (line : lineOf li' = lineOf li)
    (kept : ∀ f ∈ s.fulfillments, f.live = true → f.listItemId = li.id → f ∈ s'.fulfillments)
    (hr : r ∈ s.reimbursements) (hc : coversItem s r li = true) (hp : r.status = .pending) :
    ∃ r' ∈ s'.reimbursements, coversItem s' r' li' = true ∧ r'.status = .pending := by
  obtain ⟨r', hr', hface⟩ := image r hr
  simp only [face, Prod.mk.injEq] at hface
  refine ⟨r', hr', coversItem_congr hface.2.1 line ?_ hc, hface.2.2.trans hp⟩
  intro hs
  obtain ⟨f, hf, live, hi, hu⟩ := supplied_eq_true.mp hs
  exact supplied_eq_true.mpr ⟨f, kept f hf live hi, live, hi, hu⟩

/-- Completeness survives a step under which awaiting items were awaiting before. -/
private theorem Complete.step {s s' : Db} (complete : Complete s)
    (image : ∀ r ∈ s.reimbursements, ∃ r' ∈ s'.reimbursements, face r' = face r)
    (items : ∀ li' ∈ s'.listItems, awaiting li' →
      ∃ li ∈ s.listItems, lineOf li' = lineOf li ∧ awaiting li)
    (kept : ∀ f ∈ s.fulfillments, f.live = true → f ∈ s'.fulfillments) : Complete s' := by
  intro li' hli' hw
  obtain ⟨li, hli, line, hw⟩ := items li' hli' hw
  obtain ⟨r, hr, hc, hp⟩ := complete li hli hw
  exact covered_image image line (fun f hf live _ => kept f hf live) hr hc hp

private theorem Complete.quiet {s s' : Db} (complete : Complete s) (same : Quiet s s') :
    Complete s' :=
  complete.step (fun _ hr => exists_of_map_eq same.faces hr)
    (fun li hli hw => ⟨li, same.items ▸ hli, rfl, hw⟩) fun _ hf _ => same.fulfillments ▸ hf

private theorem Complete.added {s s' : Db} {listId userId : Uuid} {lines : List NewLine}
    {ids : List Uuid}
    (complete : Complete s) (h : insertItems s listId userId lines ids = .ok s') : Complete s' := by
  obtain ⟨-, -, -, rfl⟩ := insertItems_ok h
  refine complete.step (fun r hr => ⟨r, hr, rfl⟩) ?_ fun _ hf _ => hf
  intro li hli hw
  rcases List.mem_append.mp hli with hli | hli
  · exact ⟨li, hli, rfl, hw⟩
  · obtain ⟨id, -, n, -, rfl⟩ := mem_newItems hli
    rcases hw with hw | hw <;> cases hw

/-- Among consistent items the recomputed ones await exactly when they did before. -/
private theorem awaiting_recomputedRow {s m : Db} {li : ListItem} (consistent : ItemConsistent s li)
    (fulfillments : m.fulfillments = s.fulfillments) (hw : awaiting (recomputedRow m li)) :
    awaiting li := by
  unfold awaiting at hw ⊢
  simp only [recomputedRow] at hw
  split at hw
  · exact hw
  · rename_i moving
    have qty : liveQty m li.id = li.qtyFulfilled := by
      rw [consistent.1]
      unfold liveQty
      rw [fulfillments]
    have full : li.qtyFulfilled ≥ li.qtyRequested := by
      by_contra short
      rw [qty, baseStatus, if_neg short] at hw
      split at hw <;> simp at hw
    have hd := (consistentStatus_done consistent.2.2).mpr (by have := consistent.2.1; omega)
    cases hs : li.status <;> simp_all [done]

private theorem Complete.claims {s m s' : Db} {sel : ListItem → Bool} (complete : Complete s)
    (st : Stock s) (h : s' = { m with listItems := updateWhere sel (recomputedRow m) m.listItems })
    (items : m.listItems = s.listItems) (fulfillments : m.fulfillments = s.fulfillments)
    (reimbursements : m.reimbursements = s.reimbursements) : Complete s' := by
  subst h
  refine complete.step (fun r hr => ⟨r, reimbursements ▸ hr, rfl⟩) ?_
    fun f hf _ => fulfillments ▸ hf
  intro li' hli' hw
  obtain ⟨li, hli, rfl⟩ := mem_updateWhere.mp hli'
  rw [items] at hli
  refine ⟨li, hli, ?_, ?_⟩
  · split <;> rfl
  · split at hw
    · exact awaiting_recomputedRow (st.consistent li hli) fulfillments hw
    · exact hw

private theorem Complete.delivered {s s' : Db} {userId listId itemId : Uuid}
    {lastHauler : Option Uuid} (complete : Complete s) (ok : (ledger s).Ok)
    (h : markDelivered s userId listId itemId lastHauler = .ok s') : Complete s' := by
  obtain ⟨li, hli, -, bought, rfl⟩ := markDelivered_ok h
  refine complete.step (fun r hr => ⟨r, hr, rfl⟩) ?_ fun _ hf _ => hf
  intro li' hli' hw
  obtain ⟨x, hx, rfl⟩ := mem_updateWhere.mp hli'
  refine ⟨x, hx, by split <;> rfl, ?_⟩
  by_cases hid : x.id = itemId
  · obtain ⟨hmem, hk⟩ := lookup_mem hli
    obtain rfl := (keyed_items ok).eq_of_key hx hmem (hid.trans hk.symm)
    exact .inl bought
  · rwa [if_neg (by simpa using hid)] at hw

private theorem Complete.reversed {s s' : Db} {userId fulfillmentId newId : Uuid} {now : Timestamp}
    (complete : Complete s) (sound : Sound s)
    (h : reverseFulfillment s userId fulfillmentId newId now = .ok s') : Complete s' := by
  obtain ⟨f, li, m, hf, -, live, -, -, rfl, short, hful, hitems, -, image⟩ :=
    reversed_shape sound h
  intro li' hli' hw
  rw [hitems] at hli'
  obtain ⟨x, hx, rfl⟩ := mem_updateWhere.mp hli'
  by_cases hid : x.id = f.listItemId
  · -- The reversed item is short, so it is open or claimed now.
    rw [if_pos (by simpa using hid)] at hw
    unfold awaiting baseStatus at hw
    rw [if_neg (by omega)] at hw
    split at hw <;> simp at hw
  · rw [if_neg (by simpa using hid)] at hw ⊢
    obtain ⟨r, hr, hc, hp⟩ := complete x hx hw
    refine covered_image image rfl ?_ hr hc hp
    intro g hg hlive hi
    rw [hful]
    refine mem_updateWhere.mpr ⟨g, hg, if_neg ?_⟩
    simp only [Bool.and_eq_true, decide_eq_true_eq]
    rintro ⟨same, -⟩
    have keyed : Keyed Fulfillment.id s.fulfillments := sound.books.purchases
    obtain rfl := keyed.eq_of_key hg hf same
    exact hid hi.symm

/-- The purchase that fills an item is charged to a pending reimbursement. -/
private theorem Complete.bought {s s' : Db} {userId listId itemId : Uuid}
    {body : RecordFulfillmentBody} {gen : Generated} (complete : Complete s) (sound : Sound s)
    (fits : NoOverflow s (.recordFulfillment userId listId itemId body gen))
    (h : recordFulfillment s userId listId itemId body gen = .ok s') : Complete s' := by
  have books := ledgerOk_record sound.books h
  obtain ⟨li, f, m, hli, -, live, onItem, hauler, rfl, hful, hitems, -, image, origin, hstatus⟩ :=
    bought_shape sound fits h
  intro li' hli' hw
  have hli'' := hli'
  rw [hitems] at hli'
  obtain ⟨x, hx, rfl⟩ := mem_updateWhere.mp hli'
  by_cases hid : x.id = itemId
  · obtain ⟨hmem, hk⟩ := lookup_mem hli
    obtain rfl := (keyed_items sound.books).eq_of_key hx hmem (hid.trans hk.symm)
    rw [if_pos (by simpa using hid)] at hli'' ⊢
    have hf : f ∈ s'.fulfillments := by
      rw [hful]
      exact List.mem_append_right _ (List.mem_singleton.mpr rfl)
    obtain ⟨r', hr', hc, hcf⟩ := exists_coversItem books hli'' hf live (onItem.trans hid.symm)
    refine ⟨r', hr', hc, ?_⟩
    rcases origin r' hr' with ⟨r, hr, hface⟩ | pending
    · -- The row was there before, so the status read saw it.
      obtain ⟨-, -, -, hu, -⟩ := covers_eq_true.mp hcf
      obtain ⟨hl, -, who⟩ := coversItem_eq_true.mp hc
      simp only [face, parties, Prod.mk.injEq] at hface
      obtain ⟨-, ⟨hfl, hfh, hfr, hfc⟩, hfs⟩ := hface
      rw [hfl] at hl
      rw [hfr, hfc] at who
      have read : reimbursementStatus s x.listId x.requestedByUserId r.haulerUserId =
          some r.status := reimbursementStatus_eq sound.books hr hl who
      rw [← hfh, ← hu, hauler] at read
      rw [hfs]
      exact hstatus r.status read
    · exact pending
  · rw [if_neg (by simpa using hid)] at hw ⊢
    obtain ⟨r, hr, hc, hp⟩ := complete x hx hw
    refine covered_image image rfl (fun g hg _ _ => ?_) hr hc hp
    rw [hful]
    exact List.mem_append_left _ hg

private theorem Complete.settledByHand {s s' : Db} {rid settledBy : Uuid} {now : Timestamp}
    (complete : Complete s) (ok : (ledger s).Ok)
    (h : settleManual s rid settledBy now = .ok s') : Complete s' := by
  obtain ⟨r, mine, rival, lists, hr, -, mode, owed, rfl⟩ := settleManual_ok h
  obtain ⟨hrmem, -⟩ := lookup_mem hr
  intro li' hli' hw
  obtain ⟨li, hli, rfl⟩ := mem_updateWhere.mp hli'
  split at hw
  · rcases hw with hw | hw <;> cases hw
  rename_i unflipped
  rw [if_neg unflipped]
  obtain ⟨y, hy, hyc, hyp⟩ := complete li hli hw
  -- Rows other than `r` stay pending and keep covering the item.
  have stays : ∀ x ∈ s.reimbursements, x.id ≠ r.id → coversItem s x li = true →
      x.status = .pending → ∃ x' ∈ (settleReimbursements s (fun x => decide (x.id = r.id)) now
        (some settledBy)).reimbursements, coversItem s x' li = true ∧ x'.status = .pending := by
    intro x hx hid hc hp
    refine ⟨x, mem_updateWhere.mpr ⟨x, hx, if_neg (by simpa using hid)⟩, hc, hp⟩
  by_cases hid : y.id = r.id
  · obtain rfl := (keyed_reimbursements ok).eq_of_key hy hrmem hid
    obtain ⟨hl, hsup, who⟩ := coversItem_eq_true.mp hyc
    have hmine : mine li = true := by
      rcases mode with ⟨-, rfl, -⟩ | ⟨requester, personal, hreq, rfl, -⟩
      · rfl
      · rw [personal, hreq] at who
        simpa [requestedBy, eq_comm] using who
    -- Its hauler owes no delivery, so the item is delivered and only a rival can hold it back.
    have hdel : li.status = .delivered := by
      rcases hw with hw | hw
      · unfold notDelivered at owed
        have none_left := List.filter_eq_nil_iff.mp (List.length_eq_zero_iff.mp owed) li hli
        simp [hl, hmine, hw, hsup] at none_left
      · exact hw
    simp only [hl, hmine, flippable, hdel, decide_true, Bool.true_or, Bool.true_and,
      Bool.and_eq_true, Bool.not_eq_true', not_and, Bool.not_eq_false, List.any_eq_true,
      decide_eq_true_eq] at unflipped
    obtain ⟨x, hx, ⟨⟨⟨hxl, hxr⟩, hxh⟩, hxp⟩, hxs⟩ := unflipped hsup
    obtain ⟨z, hz, hzp, -, ⟨-, hzs⟩ | ⟨hzid, rfl⟩⟩ := mem_settleReimbursements hx
    · rw [hxp] at hzs
      cases hzs
    refine stays x hz (by simpa using hzid) ?_ hxp
    refine coversItem_eq_true.mpr ⟨hl.trans hxl.symm, hxs, ?_⟩
    rcases mode with ⟨corp, -, -⟩ | ⟨requester, -, hreq, rfl, rfl⟩
    · exact .inl ((isCorpFunded_eq ok hrmem hz hxl).trans corp)
    · simp only [owedBy, decide_eq_true_eq] at hxr
      simp only [requestedBy, decide_eq_true_eq] at hmine
      exact .inr (hxr.trans (congrArg some hmine.symm))
  · exact stays y hy hid hyc hyp

private theorem Complete.settledByContract {s m s' : Db} {cid : Uuid} {now : Timestamp} {o : Op}
    {infos : List ContractSettledReimbursement} {bound : Reimbursement → Bool}
    (complete : Complete s) (ok : (ledger s).Ok) (unblocked : Unblocked s o) (same : Quiet s m)
    (books : (ledger m).Ok) (call : settles s o = some bound)
    (rows : m.reimbursements.map (fun r => (face r, boundTo cid r)) =
      s.reimbursements.map fun r => (face r, bound r))
    (h : settleViaContract m cid now = .ok (infos, s')) : Complete s' := by
  obtain ⟨c, -, ⟨-, rfl⟩ | ⟨-, at_, s₁, lists, hs₁, rfl⟩⟩ := settleViaContract_ok h
  · exact complete.quiet same
  have books₁ : (ledger s₁).Ok := by
    rw [hs₁, ledger_settleReimbursements (noCancelled books)]
    exact books
  have sup : ∀ itemId u, supplied s₁ itemId u = supplied s itemId u := fun itemId u => by
    rw [hs₁]
    unfold supplied settleReimbursements
    rw [same.fulfillments]
  -- A row outside the contract is as it was.
  have outside : ∀ x ∈ s.reimbursements, bound x = false → ∃ x' ∈ s₁.reimbursements,
      face x' = face x := by
    intro x hx hb
    obtain ⟨x', hx', heq⟩ := exists_of_map_eq rows hx
    simp only [Prod.mk.injEq, hb] at heq
    refine ⟨x', ?_, heq.1⟩
    rw [hs₁]
    exact mem_updateWhere.mpr ⟨x', hx', if_neg (by simp [pendingOn, heq.2])⟩
  intro li' hli' hw
  obtain ⟨li, hli, rfl⟩ := mem_updateWhere.mp hli'
  split at hw
  · rcases hw with hw | hw <;> cases hw
  rename_i unflipped
  rw [if_neg unflipped]
  have hlis : li ∈ s.listItems := by
    rw [← same.items]
    rw [hs₁] at hli
    exact hli
  by_cases last : ∀ x ∈ s.reimbursements, coversItem s x li = true →
      x.status = .settled ∨ bound x = true
  · exfalso
    apply unflipped
    obtain ⟨y, hy, hyc, hyp⟩ := complete li hlis hw
    have hyb : bound y = true := (last y hy hyc).resolve_left fun hs => by simp [hyp] at hs
    obtain ⟨r, hr, hrb, hrc, free⟩ := unblocked bound call li hlis hw ⟨y, hy, hyb, hyp, hyc⟩ last
    obtain ⟨r', hr', heq⟩ := exists_of_map_eq rows hr
    simp only [Prod.mk.injEq, face, hrb] at heq
    obtain ⟨⟨-, hparties, -⟩, hbound⟩ := heq
    obtain ⟨r₁, hr₁, hp₁, hb₁⟩ : ∃ r₁ ∈ s₁.reimbursements, parties r₁ = parties r ∧
        boundTo cid r₁ = true := by
      rw [hs₁]
      refine ⟨_, mem_updateWhere_of_mem hr', ?_⟩
      split <;> exact ⟨hparties, hbound⟩
    have hc₁ : coversItem s₁ r₁ li = true :=
      coversItem_congr hp₁ rfl (fun hs => (sup _ _).trans hs) hrc
    refine (flipsOnContract_eq_true books₁).mpr ⟨r₁, hr₁, hb₁, hc₁, hw, ?_⟩
    by_contra blocked
    simp only [Bool.not_eq_false] at blocked
    obtain ⟨x, hx, hxl, hxh, hxp, hxs⟩ := (blockedOnContract_eq_true books₁ hr₁).mp blocked
    rw [hs₁] at hx
    obtain ⟨z, hz, -, -, ⟨-, hst⟩ | ⟨hout, rfl⟩⟩ := mem_settleReimbursements hx
    · rw [hxp] at hst
      cases hst
    obtain ⟨w, hwm, heq⟩ := exists_of_map_eq rows.symm hz
    simp only [Prod.mk.injEq, face, parties] at heq hp₁
    obtain ⟨⟨-, ⟨hwl, hwh, -, -⟩, hws⟩, hwb⟩ := heq
    have hxb : boundTo cid x = false := by simpa [pendingOn, hxp] using hout
    have := free w hwm
    rw [sup] at hxs
    simp [blocks, hwl, hwh, hws, hwb, hxl, hp₁.1, hxp, hxb, hxs] at this
    rw [hp₁.2.1] at hxh
    exact hxh this
  · push Not at last
    obtain ⟨x, hx, hxc, hxs, hxb⟩ := last
    obtain ⟨x', hx', hface⟩ := outside x hx (by simpa using hxb)
    simp only [face, Prod.mk.injEq] at hface
    refine ⟨x', hx', coversItem_congr hface.2.1 rfl (fun hs => (sup _ _).trans hs) hxc, ?_⟩
    rw [hface.2.2]
    by_contra hp
    exact hxs (settled_of_not_pending ok hx hp)

private theorem complete_step (s : Db) (o : Op) (s' : Db) (inv : Sound s ∧ Complete s)
    (cond : NoOverflow s o ∧ Unblocked s o) (h : apply o s = .ok s') : Sound s' ∧ Complete s' := by
  obtain ⟨sound, complete⟩ := inv
  obtain ⟨fits, unblocked⟩ := cond
  refine ⟨sound_step s o s' sound fits h, ?_⟩
  cases effect_of_ok sound.books sound.stock h with
  | quiet same => exact complete.quiet same
  | added h same => exact (complete.quiet same).added h
  | claims _ h items fulfillments reimbursements =>
    exact complete.claims sound.stock h items fulfillments reimbursements
  | bought h => exact complete.bought sound fits h
  | reversed h => exact complete.reversed sound h
  | delivered h => exact complete.delivered sound.books h
  | settledByHand h => exact complete.settledByHand sound.books h
  | settledByContract h same books call rows =>
    exact complete.settledByContract sound.books unblocked same books call rows h

/-- Settlement completeness: along every run in which no quantity overflows and no contract settle
is blocked from outside, no bought or delivered item has only settled reimbursements. -/
theorem settlement_complete {ops : List Op}
    (cond : Meets apply (fun s o => NoOverflow s o ∧ Unblocked s o) empty ops) :
    ∀ li ∈ (reached ops).listItems, li.status = .bought ∨ li.status = .delivered →
      ¬ ∀ r ∈ (reached ops).reimbursements, coversItem (reached ops) r li = true →
        r.status = .settled := by
  have empty_complete : Complete empty := by simp [Complete, empty]
  obtain ⟨-, complete⟩ := meets_invariant complete_step ⟨sound_empty, empty_complete⟩ cond
  intro li hli hw all_settled
  obtain ⟨r, hr, hc, hp⟩ := complete li hli hw
  have := all_settled r hr hc
  rw [hp] at this
  cases this

/-- One hauler, and a contract that is finished when it is linked. -/
def finishedLinkRun : List Op :=
  [.directory sampleDirectory,
    .create sampleLimits 1 1 [⟨34, "Tritanium", 10, 1⟩] 1 [1],
    .recordFulfillment 3 1 1 (samplePurchase 10 1) ⟨1, 1, 0⟩,
    .upsertContract (sampleContract .finished) 1,
    .doManualLink 3 1 1 1 1]

theorem settlement_complete_finishedLinkRun :
    Meets apply (fun s o => NoOverflow s o ∧ Unblocked s o) empty finishedLinkRun ∧
      ∀ li ∈ (reached finishedLinkRun).listItems, li.status = .bought ∨ li.status = .delivered →
        ¬ ∀ r ∈ (reached finishedLinkRun).reimbursements,
          coversItem (reached finishedLinkRun) r li = true → r.status = .settled :=
  ⟨by decide +kernel, settlement_complete (by decide +kernel)⟩

/-- Members 3 and 4 supply the item of member 1, and member 4 also supplies one of member 2. The
reimbursement of 4 by 1 is settled by hand, then that of 3 by 1 through a contract. -/
def foreignBlockerRun : List Op :=
  [.directory sampleDirectory,
    .create sampleLimits 1 1 [⟨34, "Tritanium", 10, 1⟩] 1 [1],
    .addItems sampleLimits 2 1 [⟨35, "Pyerite", 10, 1⟩] [2],
    .recordFulfillment 4 1 1 (samplePurchase 5 1) ⟨1, 1, 0⟩,
    .recordFulfillment 4 1 2 (samplePurchase 5 1) ⟨2, 2, 0⟩,
    .recordFulfillment 3 1 1 (samplePurchase 5 1) ⟨3, 3, 1⟩,
    .markDelivered 3 1 1 (some 3),
    .settleManual 1 1 2,
    .upsertContract (sampleContract .finished) 1,
    .doManualLink 3 1 3 1 3]

/-- The pending reimbursement of 4 by 2 holds the item of 1 back for good. -/
theorem foreign_blocker_strands_item :
    ∃ li ∈ (reached foreignBlockerRun).listItems, li.status = .delivered ∧
      (∃ r ∈ (reached foreignBlockerRun).reimbursements,
        coversItem (reached foreignBlockerRun) r li = true) ∧
      ∀ r ∈ (reached foreignBlockerRun).reimbursements,
        coversItem (reached foreignBlockerRun) r li = true → r.status = .settled := by
  decide +kernel

end JitaCart.Items
