/- module: JitaCart/Books/Amounts
   source: backend/crates/api/src/fulfillment/reimbursements.rs (upsert_reimbursement),
     backend/crates/api/src/fulfillment/tips.rs (set_list_tip),
     backend/migrations/20260514000000_backup_role_and_scoped_grants.sql
   digest: Subtotal and tip of every reimbursement add up to its total. -/

import JitaCart.Books.Conservation

/-!
Tip and total are rounded apart, each from its own product. The subtotal is a whole
number of cents, so the total is rounded at the same place as the tip.
-/

set_option autoImplicit false
set_option relaxedAutoImplicit false

namespace JitaCart.Books

open Schema Base.Table Base.Request Base.Numeric Directory Settlement Operations
open Api.Extract Api.ItemStatus Api.Claims Api.Fulfillments Api.Reimbursements Api.Lists
open Api.Contracts Worker.Match Worker.Terminal

/-- The total is the subtotal and the tip, to the cent. -/
def AddsUp (r : Reimbursement) : Prop := r.totalIsk = r.subtotalIsk + r.tipIsk

instance (r : Reimbursement) : Decidable (AddsUp r) := by
  unfold AddsUp
  infer_instance

def amounts (r : Reimbursement) : Cents × Cents × Cents := (r.subtotalIsk, r.tipIsk, r.totalIsk)

/-- Amounts add up, and no list has a negative tip. -/
structure Amounts (s : Db) : Prop where
  sums : ∀ r ∈ s.reimbursements, 0 ≤ r.subtotalIsk ∧ AddsUp r
  tips : ∀ l ∈ s.lists, 0 ≤ l.tipPct

/-- The pending row of the cycle, whose amounts an upsert rewrites. -/
def rewrites (s : Db) (listId requesterUserId haulerUserId : Uuid) (r : Reimbursement) : Prop :=
  r.status = .pending ∧ ∃ l ∈ s.list? listId,
    ∃ rp ∈ s.directory.requesterPrincipal l.payer requesterUserId,
      ∃ hp ∈ s.directory.userPrincipal haulerUserId, cycle r = (l.id, rp, hp)

instance (s : Db) (listId requesterUserId haulerUserId : Uuid) (r : Reimbursement) :
    Decidable (rewrites s listId requesterUserId haulerUserId r) := by
  unfold rewrites
  infer_instance

theorem total_eq {amount : Int} {tip : ℚ} (h : 0 ≤ amount) (ht : 0 ≤ tip) :
    roundHalfAway (amount * (1 + tip)) = amount + roundHalfAway (amount * tip) := by
  have whole : (amount : ℚ) * (1 + tip) = amount + amount * tip := by ring
  rw [whole]
  exact roundHalfAway_int_add h (mul_nonneg (by exact_mod_cast h) ht)

theorem storedTip_nonneg {p : ℚ} (h : 0 ≤ p) : 0 ≤ storedTip p := by
  have := roundHalfAway_nonneg (x := p * 10 ^ 4) (by positivity)
  unfold storedTip toScale
  positivity

private theorem addsUp_proposed {s : Db} {l : ListRow} {requester rp hauler hp newId : Uuid}
    (tip : 0 ≤ l.tipPct) (nonneg : moneyNonneg (proposed s l requester rp hauler hp newId)) :
    AddsUp (proposed s l requester rp hauler hp newId) :=
  total_eq nonneg.1 tip

private theorem addsUp_retip {r : Reimbursement} {p : ℚ} (amount : 0 ≤ r.subtotalIsk)
    (tip : 0 ≤ p) :
    AddsUp (retip p r) :=
  total_eq amount tip

/-- The rows of an upsert: the pending row of the cycle adds up, the others are as before. -/
private theorem upsert_rows {s s' : Db} {listId requester hauler newId : Uuid}
    (tip : ∀ l ∈ s.list? listId, 0 ≤ l.tipPct)
    (h : upsertReimbursement s listId requester hauler newId = .ok s') :
    s'.lists = s.lists ∧ ∀ r ∈ s'.reimbursements,
      if rewrites s' listId requester hauler r then 0 ≤ r.subtotalIsk ∧ AddsUp r
      else r ∈ s.reimbursements := by
  rcases upsertReimbursement_ok h with ⟨missing, rfl⟩ | ⟨l, rp, hp, hl, hrp, hhp, -, nonneg, cases⟩
  · refine ⟨rfl, fun r hr => ?_⟩
    rw [if_neg]
    · exact hr
    · rintro ⟨-, l, hl, rp, hrp, hp, hhp, -⟩
      simp only [Option.mem_def] at hl hrp hhp
      simp [hl, hrp, hhp] at missing
  have adds := addsUp_proposed (tip l hl) nonneg
  have target (r : Reimbursement) (rest : List Reimbursement) :
      rewrites { s with reimbursements := rest } listId requester hauler r ↔
        r.status = .pending ∧ cycle r = (l.id, rp, hp) := by
    change (_ ∧ ∃ l ∈ s.list? listId, _) ↔ _
    simp only [hl, hrp, hhp, Option.mem_def, Option.some.injEq, exists_eq_left']
  rcases cases with ⟨-, rfl⟩ | ⟨free, -, rfl⟩
  · refine ⟨rfl, fun r' hr' => ?_⟩
    obtain ⟨r, hr, rfl⟩ := mem_updateWhere.mp hr'
    simp only [target]
    by_cases own : r.status = .pending ∧ cycle r = (l.id, rp, hp)
    · have taken : (decide (cycle r = (l.id, rp, hp)) && decide (r.status ≠ .cancelled) &&
          decide (r.status = .pending)) = true := by
        simp [own.1, own.2]
      rw [if_pos taken]
      split
      · exact ⟨nonneg.1, adds⟩
      · exact absurd own ‹_›
    · have other : ¬ (decide (cycle r = (l.id, rp, hp)) && decide (r.status ≠ .cancelled) &&
          decide (r.status = .pending)) = true := by
        simp only [Bool.and_eq_true, decide_eq_true_eq]
        exact fun taken => own ⟨taken.2, taken.1.1⟩
      rw [if_neg other, if_neg own]
      exact hr
  · refine ⟨rfl, fun r' hr' => ?_⟩
    simp only [target]
    rcases List.mem_append.mp hr' with hr' | hr'
    · rw [if_neg]
      · exact hr'
      · rintro ⟨pending, own⟩
        rw [free r' hr' own] at pending
        cases pending
    · rw [List.mem_singleton.mp hr', if_pos ⟨rfl, rfl⟩]
      exact ⟨nonneg.1, adds⟩

section Steps
variable {s s' : Db}

private theorem Amounts.frame (ok : Amounts s)
    (rows : s'.reimbursements.map amounts = s.reimbursements.map amounts)
    (tips : ∀ l ∈ s'.lists, 0 ≤ l.tipPct) : Amounts s' := by
  refine ⟨fun r hr => ?_, tips⟩
  obtain ⟨x, hx, same⟩ := exists_of_map_eq rows.symm hr
  simp only [amounts, Prod.mk.injEq] at same
  obtain ⟨h1, h2, h3⟩ := same
  unfold AddsUp
  rw [← h1, ← h2, ← h3]
  exact ok.sums x hx

theorem tips_updateWhere {p : ListRow → Bool} {f : ListRow → ListRow} {lists : List ListRow}
    (tips : ∀ l ∈ lists, 0 ≤ l.tipPct) (kept : ∀ l ∈ lists, 0 ≤ (f l).tipPct) :
    ∀ l ∈ updateWhere p f lists, 0 ≤ l.tipPct := by
  intro l' hl'
  obtain ⟨l, hl, rfl⟩ := mem_updateWhere.mp hl'
  split
  · exact kept l hl
  · exact tips l hl

private theorem Amounts.upsert {listId requester hauler newId : Uuid} (ok : Amounts s)
    (h : upsertReimbursement s listId requester hauler newId = .ok s') : Amounts s' := by
  obtain ⟨lists, rows⟩ := upsert_rows (fun l hl => ok.tips l (lookup_mem hl).1) h
  refine ⟨fun r hr => ?_, lists ▸ ok.tips⟩
  have row := rows r hr
  split at row
  · exact row
  · exact ok.sums r row

private theorem Amounts.setListTip {userId listId : Uuid} {p : ℚ} (ok : Amounts s)
    (h : setListTip s userId listId p = .ok s') : Amounts s' := by
  obtain ⟨nonneg, -, rfl⟩ := setListTip_ok h
  refine ⟨fun r' hr' => ?_, tips_updateWhere ok.tips fun _ _ => storedTip_nonneg nonneg⟩
  obtain ⟨r, hr, rfl⟩ := mem_updateWhere.mp hr'
  split
  · exact ⟨(ok.sums r hr).1, addsUp_retip (ok.sums r hr).1 nonneg⟩
  · exact ok.sums r hr

private theorem tips_autoCloseAll (listIds : List Uuid) (h : ∀ l ∈ s.lists, 0 ≤ l.tipPct) :
    ∀ l ∈ (listIds.foldl autoCloseListIfComplete s).lists, 0 ≤ l.tipPct := by
  induction listIds generalizing s with
  | nil => exact h
  | cons listId listIds ih =>
    refine ih ?_
    unfold autoCloseListIfComplete
    split
    · exact tips_updateWhere h fun l hl => h l hl
    · exact h

theorem Amounts.settleManual {rid settledBy : Uuid} {now : Timestamp} (ok : Amounts s)
    (h : settleManual s rid settledBy now = .ok s') : Amounts s' := by
  have tips : ∀ l ∈ s'.lists, 0 ≤ l.tipPct := by
    simp only [Settlement.settleManual, bind_eq_ok, fetch_eq_ok, require_eq_ok] at h
    obtain ⟨r, -, -, -, h⟩ := h
    split at h
    · simp only [bind_eq_ok, require_eq_ok, Except.ok.injEq] at h
      obtain ⟨-, -, rfl⟩ := h
      exact tips_autoCloseAll [r.listId] ok.tips
    · simp only [bind_eq_ok, fetch_eq_ok, require_eq_ok, Except.ok.injEq] at h
      obtain ⟨requester, -, -, -, rfl⟩ := h
      exact tips_autoCloseAll [r.listId] ok.tips
  obtain ⟨r, mine, rival, lists, -, -, -, -, rfl⟩ := settleManual_ok h
  exact ok.frame (map_updateWhere amounts _ fun _ _ _ => rfl) tips

theorem Amounts.settleViaContract {cid : Uuid} {now : Timestamp}
    {infos : List ContractSettledReimbursement} (ok : Amounts s)
    (h : settleViaContract s cid now = .ok (infos, s')) : Amounts s' := by
  have tips : ∀ l ∈ s'.lists, 0 ≤ l.tipPct := by
    simp only [Settlement.settleViaContract, writeSettlementDelta, bind_eq_ok, fetch_eq_ok] at h
    obtain ⟨c, -, h⟩ := h
    split at h
    · simp only [Except.ok.injEq, Prod.mk.injEq] at h
      exact h.2 ▸ ok.tips
    · simp only [bind_eq_ok, require_eq_ok, Except.ok.injEq, Prod.mk.injEq] at h
      obtain ⟨s₃, ⟨-, -, rfl⟩, -, rfl⟩ := h
      exact tips_autoCloseAll _ ok.tips
  obtain ⟨c, -, ⟨-, rfl⟩ | ⟨-, at_, m, lists, rfl, rfl⟩⟩ := settleViaContract_ok h
  · exact ok
  · exact ok.frame (map_updateWhere amounts _ fun _ _ _ => rfl) tips

private theorem Amounts.finalizeLink {c : Contract} {rid : Uuid} {now : Timestamp} (ok : Amounts s)
    (h : finalizeLink s c rid now = .ok s') : Amounts s' := by
  have bound : Amounts (bindReimbursement s c.id rid) :=
    ok.frame (map_updateWhere amounts _ fun _ _ _ => rfl) ok.tips
  rcases finalizeLink_ok h with ⟨-, infos, h⟩ | ⟨-, rfl⟩
  · refine Amounts.settleViaContract ?_ h
    exact bound.frame rfl bound.tips
  · exact bound.frame rfl bound.tips

private theorem Amounts.unbind (ok : Amounts s) (cid : Uuid) :
    Amounts (unbindReimbursements s cid) :=
  ok.frame (map_updateWhere amounts _ fun _ _ _ => rfl) ok.tips

private theorem Amounts.aside (ok : Amounts s) (h : Aside s s') : Amounts s' :=
  ok.frame (by rw [h.reimbursements]) (h.lists ▸ ok.tips)

private theorem Amounts.paperwork (ok : Amounts s) (h : Paperwork s s') : Amounts s' :=
  ok.frame (h.map_reimbursements amounts fun _ => rfl) (h.lists ▸ ok.tips)

theorem tips_create {limits : Limits} {userId groupId listId : Uuid} {lines : List NewLine}
    {itemIds : List Uuid} (books : (ledger s).Ok) (tips : ∀ l ∈ s.lists, 0 ≤ l.tipPct)
    (h : create s limits userId groupId lines listId itemIds = .ok s') :
    s'.reimbursements = s.reimbursements ∧ s'.contracts = s.contracts ∧
      ∀ l ∈ s'.lists, 0 ≤ l.tipPct := by
  obtain ⟨role, g, -, hg, -, -, h⟩ := create_ok h
  obtain ⟨-, -, -, rfl⟩ := insertItems_ok h
  refine ⟨rfl, rfl, fun l hl => ?_⟩
  rcases List.mem_append.mp hl with hl | hl
  · exact tips l hl
  · rw [List.mem_singleton.mp hl]
    exact books.directory.tips g hg

private theorem Amounts.create {limits : Limits} {userId groupId listId : Uuid}
    {lines : List NewLine} {itemIds : List Uuid} (ok : Amounts s) (books : (ledger s).Ok)
    (h : Api.Lists.create s limits userId groupId lines listId itemIds = .ok s') : Amounts s' := by
  obtain ⟨rows, -, tips⟩ := tips_create books ok.tips h
  exact ok.frame (by rw [rows]) tips

private theorem Amounts.doManualLink {userId cid rid newId : Uuid} {now : Timestamp}
    (ok : Amounts s) (h : doManualLink s userId cid rid newId now = .ok s') : Amounts s' := by
  obtain ⟨c, r, s₁, -, -, -, -, hup, h⟩ := doManualLink_ok h
  obtain ⟨suggestions, rfl⟩ := upsertConfirmed_shape hup
  refine Amounts.finalizeLink ?_ h
  exact ok.frame rfl ok.tips

private theorem Amounts.handleContractTerminal {u : UpsertedContract} {now : Timestamp}
    (ok : Amounts s) (h : handleContractTerminal s u now = .ok s') : Amounts s' := by
  rcases handleContractTerminal_ok h with ⟨-, infos, h⟩ | ⟨-, rfl⟩ | ⟨-, -, rfl⟩
  · exact ok.settleViaContract h
  · exact (ok.unbind u.contractId).frame rfl ok.tips
  · exact ok

end Steps

private theorem amounts_step (s : Db) (o : Op) (s' : Db) (books : (ledger s).Ok) (ok : Amounts s)
    (h : apply o s = .ok s') : Amounts s' := by
  by_cases plain : isAside o = true
  · exact ok.aside (aside_of_ok plain h)
  by_cases clerical : isPaperwork o = true
  · exact ok.paperwork (paperwork_of_ok clerical h)
  cases o <;> simp only [apply, mapError_eq_ok, map_eq_ok, Prod.exists, exists_eq_right] at h
  case create => exact ok.create books h
  case patchListStatus =>
    obtain ⟨p, rfl⟩ := patchListStatus_ok h
    exact ok.frame rfl (tips_updateWhere ok.tips fun l hl => ok.tips l hl)
  case recordFulfillment =>
    obtain ⟨items, claims, claimItems, purchases, li, -, hup⟩ := recordFulfillment_upserts h
    exact (ok.aside (aside_withItems ..)).upsert hup
  case reverseFulfillment =>
    obtain ⟨items, purchases, f, li, -, -, hup⟩ := reverseFulfillment_upserts h
    exact (ok.aside (aside_withItems ..)).upsert hup
  case setListTip => exact ok.setListTip h
  case patchListPayer =>
    obtain ⟨payer, l, -, -, -, rfl⟩ := patchListPayer_ok h
    exact ok.frame rfl (tips_updateWhere ok.tips fun l hl => ok.tips l hl)
  case doConfirm =>
    obtain ⟨g, c, r, -, -, -, -, -, -, h⟩ := doConfirm_ok h
    refine Amounts.finalizeLink ?_ h
    exact ok.frame rfl ok.tips
  case doManualLink => exact ok.doManualLink h
  case settleReimbursement =>
    obtain ⟨r, -, -, h⟩ := settleReimbursement_ok h
    exact ok.settleManual h
  case settleManual => exact ok.settleManual h
  case settleViaContract =>
    obtain ⟨infos, h⟩ := h
    exact ok.settleViaContract h
  case handleContractTerminal => exact ok.handleContractTerminal h
  all_goals first | exact absurd rfl plain | exact absurd rfl clerical

private theorem amounts_reached (ops : List Op) :
    (ledger (reached ops)).Ok ∧ Amounts (reached ops) :=
  run_invariant (I := fun s => (ledger s).Ok ∧ Amounts s)
    (fun s o s' ⟨books, ok⟩ h => ⟨ledgerOk_step s o s' books h, amounts_step s o s' books ok h⟩)
    ⟨ledgerOk_empty, by simp [empty], by simp [empty]⟩ ops

/-- Totals add up to the cent: in every row that the upsert or a new tip writes, whatever the
fulfillments and whatever tip from nothing to the whole, and so in every row of every reachable
state. -/
theorem total_is_subtotal_and_tip :
    (∀ s s' listId requester hauler newId, (∀ l ∈ s.list? listId, 0 ≤ l.tipPct ∧ l.tipPct ≤ 1) →
      upsertReimbursement s listId requester hauler newId = .ok s' →
      ∀ r ∈ s'.reimbursements,
        if rewrites s' listId requester hauler r then AddsUp r else r ∈ s.reimbursements) ∧
    (∀ s s' userId listId p, (∀ r ∈ s.reimbursements, 0 ≤ r.subtotalIsk) →
      setListTip s userId listId p = .ok s' →
      ∀ r ∈ s'.reimbursements, pendingOnList listId r = true → AddsUp r) ∧
    ∀ ops, ∀ r ∈ (reached ops).reimbursements, AddsUp r := by
  refine ⟨?_, ?_, fun ops r hr => ((amounts_reached ops).2.sums r hr).2⟩
  · intro s s' listId requester hauler newId tip h r hr
    obtain ⟨-, rows⟩ := upsert_rows (fun l hl => (tip l hl).1) h
    have row := rows r hr
    split at row
    · rw [if_pos ‹_›]
      exact row.2
    · rw [if_neg ‹_›]
      exact row
  · intro s s' userId listId p nonneg h r' hr' pending
    obtain ⟨tip, -, rfl⟩ := setListTip_ok h
    obtain ⟨r, hr, rfl⟩ := mem_updateWhere.mp hr'
    split at pending
    · rw [if_pos ‹_›]
      exact addsUp_retip (nonneg r hr) tip
    · exact absurd pending ‹_›

/-- Member 3 buys three pieces for 18.53 ISK each on a list with a third as tip. -/
def tippedRun : List Op :=
  [.directory sampleDirectory,
    .create sampleLimits 1 1 [⟨34, "Tritanium", 10, 1⟩] 1 [1],
    .setListTip 1 1 (1 / 3),
    .recordFulfillment 3 1 1 (samplePurchase 3 (1853 / 100)) ⟨1, 1, 0⟩]

theorem total_is_subtotal_and_tip_tippedRun :
    (reached tippedRun).reimbursements.map amounts = [(5559, 1853, 7412)] ∧
    (∀ r ∈ (reached tippedRun).reimbursements, AddsUp r) ∧
    (∀ s', upsertReimbursement (reached tippedRun) 1 1 3 2 = .ok s' →
      ∀ r ∈ s'.reimbursements,
        if rewrites s' 1 1 3 r then AddsUp r else r ∈ (reached tippedRun).reimbursements) ∧
    ∀ s', setListTip (reached tippedRun) 1 1 (1 / 7) = .ok s' →
      ∀ r ∈ s'.reimbursements, pendingOnList 1 r = true → AddsUp r := by
  have nonneg : ∀ r ∈ (reached tippedRun).reimbursements, 0 ≤ r.subtotalIsk := by decide +kernel
  have tip : ∀ l ∈ (reached tippedRun).list? 1, 0 ≤ l.tipPct ∧ l.tipPct ≤ 1 := by decide +kernel
  refine ⟨by decide +kernel, total_is_subtotal_and_tip.2.2 tippedRun, fun s' h => ?_,
    fun s' h => ?_⟩
  · exact total_is_subtotal_and_tip.1 _ s' 1 1 3 2 tip h
  · exact total_is_subtotal_and_tip.2.1 _ s' 1 1 (1 / 7) nonneg h

end JitaCart.Books
