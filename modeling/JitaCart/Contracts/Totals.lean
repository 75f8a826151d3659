/- module: JitaCart/Contracts/Totals
   source: backend/crates/settlement/src/lib.rs (recompute_contract_expected_total,
     settle_via_contract, unbind_contract), backend/crates/api/src/fulfillment/tips.rs,
     backend/crates/api/src/fulfillment/reimbursements.rs
   digest: When a contract's expected total is the sum of its bound reimbursements. -/

import JitaCart.Books.Amounts

/-!
Linking and unlinking refresh the expected total. Purchases, reversals and tip changes rewrite the
amounts of reimbursements without a look at their contract, and unbinding clears the total
even when settled reimbursements stay bound.
-/

set_option autoImplicit false
set_option relaxedAutoImplicit false

namespace JitaCart.Contracts

open Schema Base.Table Base.Request Base.Numeric Directory Settlement Operations Books
open Api.Extract Api.ItemStatus Api.Claims Api.Fulfillments Api.Reimbursements Api.Lists
open Api.Contracts Worker.Match Worker.Terminal

def bill (r : Reimbursement) : Option Uuid × Cents × Cents × Cents :=
  (r.contractId, r.subtotalIsk, r.tipIsk, r.totalIsk)

def entry (c : Contract) : Uuid × Option Cents := (c.id, c.expectedTotalIsk)

/-- Expected totals are current, apart from those of `stale` contracts. -/
structure Totals (stale : Uuid → Prop) (s : Db) : Prop where
  keyed : Keyed Contract.id s.contracts
  known : ∀ r ∈ s.reimbursements, ∀ cid, boundTo cid r = true → s.contract? cid ≠ none
  expected : ∀ c ∈ s.contracts, ¬ stale c.id → c.expectedTotalIsk = boundTotal s c.id
  sums : ∀ r ∈ s.reimbursements, 0 ≤ r.subtotalIsk ∧ r.totalIsk = r.subtotalIsk + r.tipIsk
  tips : ∀ l ∈ s.lists, 0 ≤ l.tipPct

def never (_ : Uuid) : Prop := False

section Totals
variable {stale : Uuid → Prop} {s s' : Db} {cid : Uuid}

private theorem boundTotal_eq (s : Db) (cid : Uuid) :
    boundTotal s cid =
      if s.reimbursements.filter (boundTo cid) = [] then none
      else some (((s.reimbursements.filter (boundTo cid)).map
        fun r => r.subtotalIsk + r.tipIsk).sum) := by
  unfold boundTotal sumWhere
  by_cases none_bound : s.reimbursements.filter (boundTo cid) = []
  · have : s.reimbursements.any (boundTo cid) = false := by
      rw [List.any_eq_false]
      exact fun r hr => List.filter_eq_nil_iff.mp none_bound r hr
    simp [none_bound, this]
  · have : s.reimbursements.any (boundTo cid) = true := by
      obtain ⟨r, hr⟩ := List.exists_mem_of_ne_nil _ none_bound
      obtain ⟨hmem, hb⟩ := List.mem_filter.mp hr
      exact List.any_eq_true.mpr ⟨r, hmem, hb⟩
    simp [none_bound, this]

private theorem boundTotal_congr_filter
    (same : s'.reimbursements.filter (boundTo cid) = s.reimbursements.filter (boundTo cid)) :
    boundTotal s' cid = boundTotal s cid := by
  rw [boundTotal_eq, boundTotal_eq, same]

private theorem boundTotal_congr (same : s'.reimbursements.map bill = s.reimbursements.map bill)
    (cid : Uuid) : boundTotal s' cid = boundTotal s cid := by
  have byBill : ∀ t : Db, boundTotal t cid =
      if (t.reimbursements.map bill).any (fun b => decide (b.1 = some cid)) then
        some (sumWhere (fun b => decide (b.1 = some cid)) (fun b => b.2.1 + b.2.2.1)
          (t.reimbursements.map bill))
      else none := by
    intro t
    unfold boundTotal sumWhere
    rw [List.any_map, List.filter_map, List.map_map]
    rfl
  rw [byBill, byBill, same]

private theorem boundTotal_none (h : ∀ r ∈ s.reimbursements, boundTo cid r = false) :
    boundTotal s cid = none := by
  rw [boundTotal_eq, if_pos]
  rw [List.filter_eq_nil_iff]
  intro r hr
  simp [h r hr]

private theorem boundTotal_totalIsk (some_bound : s.reimbursements.any (boundTo cid) = true)
    (sums : ∀ r ∈ s.reimbursements, r.totalIsk = r.subtotalIsk + r.tipIsk) :
    boundTotal s cid =
      some (sumWhere (boundTo cid) Reimbursement.totalIsk s.reimbursements) := by
  unfold boundTotal
  rw [if_pos some_bound, sumWhere_congr (fun _ _ => rfl) fun r hr => (sums r hr).symm]

private theorem Totals.frame (ok : Totals stale s)
    (bills : s'.reimbursements.map bill = s.reimbursements.map bill)
    (entries : s'.contracts.map entry = s.contracts.map entry)
    (tips : ∀ l ∈ s'.lists, 0 ≤ l.tipPct) : Totals stale s' := by
  have ids : s'.contracts.map (·.id) = s.contracts.map (·.id) := by
    have := congrArg (List.map Prod.fst) entries
    simpa [List.map_map, Function.comp_def, entry] using this
  refine ⟨ok.keyed.of_map_eq ids, ?_, ?_, ?_, tips⟩
  · intro r hr cid hb
    obtain ⟨x, hx, hxb⟩ := exists_of_map_eq bills.symm hr
    have hb' : boundTo cid x = true := by
      simp only [bill, Prod.mk.injEq] at hxb
      simpa [boundTo, hxb.1] using hb
    obtain ⟨c, hc⟩ := Option.ne_none_iff_exists'.mp (ok.known x hx cid hb')
    obtain ⟨hmem, hid⟩ := lookup_mem hc
    obtain ⟨c', hc', he⟩ := exists_of_map_eq entries hmem
    simp only [entry, Prod.mk.injEq] at he
    intro missing
    exact lookup_eq_none.mp missing c' hc' (he.1.trans hid)
  · intro c hc fresh
    obtain ⟨c', hc', he⟩ := exists_of_map_eq entries.symm hc
    simp only [entry, Prod.mk.injEq] at he
    rw [boundTotal_congr bills, ← he.1, ← he.2]
    exact ok.expected c' hc' (he.1 ▸ fresh)
  · intro r hr
    obtain ⟨x, hx, hxb⟩ := exists_of_map_eq bills.symm hr
    simp only [bill, Prod.mk.injEq] at hxb
    obtain ⟨-, h1, h2, h3⟩ := hxb
    rw [← h1, ← h2, ← h3]
    exact ok.sums x hx

/-- Rows rewritten in place: their amounts still add up, and contracts that they leave or enter
are stale. -/
private theorem Totals.rewrite (ok : Totals stale s) {q : Reimbursement → Bool}
    {f : Reimbursement → Reimbursement} {stale' : Uuid → Prop}
    (off : ∀ cid, ¬ stale' cid → ¬ stale cid ∧ ∀ r ∈ s.reimbursements, q r = true →
      boundTo cid r = false ∧ boundTo cid (f r) = false)
    (sums : ∀ r ∈ s.reimbursements, q r = true →
      0 ≤ (f r).subtotalIsk ∧ (f r).totalIsk = (f r).subtotalIsk + (f r).tipIsk)
    (known : ∀ r ∈ s.reimbursements, q r = true → ∀ cid, boundTo cid (f r) = true →
      s.contract? cid ≠ none) :
    Totals stale' { s with reimbursements := updateWhere q f s.reimbursements } := by
  refine ⟨ok.keyed, ?_, ?_, ?_, ok.tips⟩
  · intro r' hr' cid hb
    obtain ⟨r, hr, rfl⟩ := mem_updateWhere.mp hr'
    split at hb
    · exact known r hr ‹_› cid hb
    · exact ok.known r hr cid hb
  · intro c hc fresh
    obtain ⟨fresh', apart⟩ := off c.id fresh
    rw [ok.expected c hc fresh']
    exact (boundTotal_congr_filter (filter_updateWhere_off apart)).symm
  · intro r' hr'
    obtain ⟨r, hr, rfl⟩ := mem_updateWhere.mp hr'
    split
    · exact sums r hr ‹_›
    · exact ok.sums r hr

private theorem Totals.refresh (ok : Totals (· = cid) s) {total : Option Cents}
    (current : total = boundTotal s cid) : Totals never (setExpectedTotal s cid total) := by
  refine ⟨?_, ?_, ?_, ok.sums, ok.tips⟩
  · exact ok.keyed.of_map_eq (map_updateWhere _ _ fun _ _ _ => rfl)
  · intro r hr c hb missing
    obtain ⟨x, hx⟩ := Option.ne_none_iff_exists'.mp (ok.known r hr c hb)
    obtain ⟨hmem, hid⟩ := lookup_mem hx
    refine lookup_eq_none.mp missing _ (mem_updateWhere_of_mem hmem) ?_
    rw [← hid]
    split <;> rfl
  · intro c' hc' _
    obtain ⟨c, hc, rfl⟩ := mem_updateWhere.mp hc'
    by_cases hid : c.id = cid
    · rw [if_pos (by simpa using hid)]
      change total = boundTotal s c.id
      rw [hid]
      exact current
    · rw [if_neg (by simpa using hid)]
      exact ok.expected c hc hid

end Totals

/-- What a settled contract shows: its reimbursements settled, and the delta to their totals. -/
def SettledUp (s : Db) (cid : Uuid) : Prop :=
  (∀ r ∈ s.reimbursements, boundTo cid r = true → r.status = .settled) ∧
    ∀ c ∈ s.contracts, c.id = cid → c.settlementDeltaIsk =
      some (c.priceIsk - sumWhere (boundTo cid) Reimbursement.totalIsk s.reimbursements)

section Writes
variable {s s' : Db}

private theorem Totals.upsert {listId requester hauler newId : Uuid} (ok : Totals never s)
    (h : upsertReimbursement s listId requester hauler newId = .ok s')
    (unbound : ∀ r ∈ s.reimbursements, rewrites s listId requester hauler r →
      r.contractId = none) : Totals never s' := by
  rcases upsertReimbursement_ok h with ⟨-, rfl⟩ | ⟨l, rp, hp, hl, hrp, hhp, -, nonneg, cases⟩
  · exact ok
  have adds : ∀ new, new = proposed s l requester rp hauler hp newId →
      0 ≤ new.subtotalIsk ∧ new.totalIsk = new.subtotalIsk + new.tipIsk := by
    rintro _ rfl
    exact ⟨nonneg.1, total_eq nonneg.1 (ok.tips l (lookup_mem hl).1)⟩
  rcases cases with ⟨-, rfl⟩ | ⟨-, -, rfl⟩
  · have free : ∀ r ∈ s.reimbursements, (decide (cycle r = (l.id, rp, hp)) &&
        decide (r.status ≠ .cancelled) && decide (r.status = .pending)) = true →
          r.contractId = none := by
      intro r hr hq
      simp only [Bool.and_eq_true, decide_eq_true_eq] at hq
      exact unbound r hr ⟨hq.2, l, hl, rp, hrp, hp, hhp, hq.1.1⟩
    refine ok.rewrite ?_
      (fun _ _ _ => adds (proposed s l requester rp hauler hp newId) rfl) ?_
    · intro cid _
      refine ⟨id, fun r hr hq => ?_⟩
      simp [boundTo, takeAmounts, free r hr hq]
    · intro r hr hq cid hb
      simp [boundTo, takeAmounts, free r hr hq] at hb
  · refine ⟨ok.keyed, ?_, ?_, ?_, ok.tips⟩
    · intro r hr cid hb
      rcases List.mem_append.mp hr with hr | hr
      · exact ok.known r hr cid hb
      · rw [List.mem_singleton.mp hr] at hb
        cases hb
    · intro c hc fresh
      rw [ok.expected c hc fresh]
      refine (boundTotal_congr_filter ?_).symm
      rw [List.filter_append, List.filter_cons_of_neg (by simp [boundTo, proposed]), List.filter_nil,
        List.append_nil]
    · intro r hr
      rcases List.mem_append.mp hr with hr | hr
      · exact ok.sums r hr
      · exact adds r (List.mem_singleton.mp hr)

private theorem Totals.setListTip {userId listId : Uuid} {tipPct : ℚ} (ok : Totals never s)
    (h : setListTip s userId listId tipPct = .ok s')
    (unbound : ∀ r ∈ s.reimbursements, pendingOnList listId r = true → r.contractId = none) :
    Totals never s' := by
  obtain ⟨nonneg, -, rfl⟩ := setListTip_ok h
  have retipped : Totals never { s with
      reimbursements := updateWhere (pendingOnList listId) (retip tipPct) s.reimbursements } := by
    refine ok.rewrite ?_ ?_ ?_
    · intro cid _
      refine ⟨id, fun r hr hq => ?_⟩
      simp [boundTo, retip, unbound r hr hq]
    · intro r hr _
      obtain ⟨pos, -⟩ := ok.sums r hr
      exact ⟨pos, total_eq pos nonneg⟩
    · intro r hr hq cid hb
      simp [boundTo, retip, unbound r hr hq] at hb
  exact retipped.frame rfl rfl (tips_updateWhere ok.tips fun _ _ => storedTip_nonneg nonneg)

private theorem Totals.link {c : Contract} {rid : Uuid} (ok : Totals never s)
    (hc : s.contract? c.id ≠ none)
    (unbound : ∀ r ∈ s.reimbursements, r.id = rid → r.contractId = none) :
    Totals never (setExpectedTotal (bindReimbursement s c.id rid) c.id
      (boundTotal (bindReimbursement s c.id rid) c.id)) := by
  refine Totals.refresh (ok.rewrite ?_ ?_ ?_) rfl
  · intro cid apart
    refine ⟨id, fun r hr hq => ?_⟩
    simp [boundTo, unbound r hr (by simpa using hq), Ne.symm apart]
  · exact fun r hr _ => ok.sums r hr
  · intro r _ _ cid hb
    simp only [boundTo, decide_eq_true_eq, Option.some.injEq] at hb
    exact hb ▸ hc

private theorem Totals.unbind (ok : Totals never s) (cid : Uuid) :
    Totals (· = cid) (unbindReimbursements s cid) := by
  refine ok.rewrite ?_ ?_ ?_
  · intro other apart
    refine ⟨id, fun r _ hq => ?_⟩
    simp only [pendingOn, boundTo, Bool.and_eq_true, decide_eq_true_eq] at hq
    simp [boundTo, hq.1, Ne.symm apart]
  · exact fun r hr _ => ok.sums r hr
  · intro r _ _ other hb
    simp [boundTo] at hb

private theorem Totals.unbindContract {cid : Uuid} (ok : Totals never s)
    (pending : ∀ r ∈ s.reimbursements, boundTo cid r = true → r.status = .pending) :
    Totals never (unbindContract s cid).2 := by
  have unbound := ok.unbind cid
  have rest : Totals (· = cid) (supersede (unbindReimbursements s cid) cid .pending) :=
    unbound.frame rfl rfl unbound.tips
  refine rest.refresh (boundTotal_none ?_).symm
  intro r' hr'
  obtain ⟨r, hr, rfl⟩ := mem_updateWhere.mp hr'
  split
  · simp [boundTo]
  · rename_i kept
    by_contra hb
    simp only [Bool.not_eq_false] at hb
    exact kept (by simp [pendingOn, hb, pending r hr hb])

private theorem Totals.settleManual {rid settledBy : Uuid} {now : Timestamp} (ok : Totals never s)
    (h : settleManual s rid settledBy now = .ok s') : Totals never s' := by
  have tips := (Amounts.settleManual ⟨ok.sums, ok.tips⟩ h).tips
  obtain ⟨r, mine, rival, lists, -, -, -, -, rfl⟩ := settleManual_ok h
  exact ok.frame (map_updateWhere bill _ fun _ _ _ => rfl) rfl tips

private theorem Totals.settleViaContract {cid : Uuid} {now : Timestamp}
    {infos : List ContractSettledReimbursement} (ok : Totals never s)
    (h : settleViaContract s cid now = .ok (infos, s')) : Totals never s' := by
  have tips := (Amounts.settleViaContract ⟨ok.sums, ok.tips⟩ h).tips
  obtain ⟨c, -, ⟨-, rfl⟩ | ⟨-, at_, m, lists, rfl, rfl⟩⟩ := settleViaContract_ok h
  · exact ok
  · exact ok.frame (map_updateWhere bill _ fun _ _ _ => rfl)
      (map_updateWhere entry _ fun _ _ _ => rfl) tips

/-- The written delta: price less the totals of everything bound, all of it settled by now. -/
private theorem settlementDelta_eq {cid : Uuid} {now : Timestamp}
    {infos : List ContractSettledReimbursement} (ok : Totals never s) (books : (ledger s).Ok)
    (some_pending : ∃ r ∈ s.reimbursements, pendingOn cid r = true)
    (h : settleViaContract s cid now = .ok (infos, s')) : SettledUp s' cid := by
  have after := ok.settleViaContract h
  obtain ⟨c, -, ⟨none_pending, -⟩ | ⟨⟨r, hr, hp⟩, at_, m, lists, rfl, hs'⟩⟩ := settleViaContract_ok h
  · obtain ⟨r, hr, hp⟩ := some_pending
    simp [none_pending r hr] at hp
  have rows : s'.reimbursements = (settleReimbursements s (pendingOn cid) at_ none).reimbursements := by
    rw [hs']
    rfl
  refine ⟨?_, ?_⟩
  · intro x hx hb
    rw [rows] at hx
    obtain ⟨y, hy, rfl⟩ := mem_updateWhere.mp hx
    split
    · rfl
    · rename_i unsettled
      rw [if_neg unsettled] at hb
      cases hs : y.status with
      | pending => simp [pendingOn, hb, hs] at unsettled
      | settled => rfl
      | cancelled => exact absurd hs (noCancelled books y hy)
  · intro c' hc' hid
    have some_bound : s'.reimbursements.any (boundTo cid) = true := by
      rw [rows]
      refine List.any_eq_true.mpr ⟨_, mem_updateWhere_of_mem hr, ?_⟩
      simp only [pendingOn, Bool.and_eq_true] at hp
      split <;> exact hp.1
    have current := after.expected c' hc' id
    rw [hid, boundTotal_totalIsk some_bound fun r hr => (after.sums r hr).2] at current
    have written : c'.settlementDeltaIsk = c'.expectedTotalIsk.map (c'.priceIsk - ·) := by
      rw [hs'] at hc'
      obtain ⟨c, hc, rfl⟩ := mem_updateWhere.mp hc'
      have hcid : c.id = cid := by
        split at hid <;> exact hid
      rw [if_pos (by simpa using hcid)]
      rfl
    rw [written, current]
    rfl

end Writes

/-- The request rewrites no amount of a bound reimbursement, and it clears no total while settled
reimbursements stay bound. -/
def Refreshed (s : Db) : Op → Prop
  | .recordFulfillment userId listId itemId _ _ => ∀ li ∈ s.item? itemId,
      ∀ r ∈ s.reimbursements, rewrites s listId li.requestedByUserId userId r → r.contractId = none
  | .reverseFulfillment _ fulfillmentId _ _ => ∀ f ∈ s.fulfillment? fulfillmentId,
      ∀ li ∈ s.item? f.listItemId, ∀ r ∈ s.reimbursements,
        rewrites s li.listId li.requestedByUserId f.haulerUserId r → r.contractId = none
  | .setListTip _ listId _ =>
      ∀ r ∈ s.reimbursements, pendingOnList listId r = true → r.contractId = none
  | .unbindContract cid => ∀ r ∈ s.reimbursements, boundTo cid r = true → r.status = .pending
  | .handleContractTerminal u _ => u.status.isTerminalFailure = true →
      ∀ r ∈ s.reimbursements, boundTo u.contractId r = true → r.status = .pending
  | _ => True

instance (s : Db) (o : Op) : Decidable (Refreshed s o) := by
  unfold Refreshed
  split <;> infer_instance

/-- The contract that a request settles; a link settles only a finished one. -/
def settledContract (s : Db) : Op → Option Uuid
  | .settleViaContract cid _ => some cid
  | .handleContractTerminal u _ =>
    if u.status.isTerminalSuccess then some u.contractId else none
  | .doConfirm _ gid _ => (s.suggestion? gid).bind fun g =>
    ((s.contract? g.contractId).filter (·.status.isTerminalSuccess)).map (·.id)
  | .doManualLink _ cid _ _ _ =>
    ((s.contract? cid).filter (·.status.isTerminalSuccess)).map (·.id)
  | _ => none

section Runs
variable {s s' : Db}

theorem unbound_of_lookup (books : (ledger s).Ok) {rid : Uuid} {r : Reimbursement}
    (hr : s.reimbursement? rid = some r) (unbound : r.contractId = none) :
    ∀ x ∈ s.reimbursements, x.id = r.id → x.contractId = none := by
  intro x hx hid
  have keyed : Keyed Reimbursement.id s.reimbursements := by
    have h := books.dues
    unfold Keyed at h ⊢
    simp only [ledger, List.map_map] at h
    exact h
  obtain rfl := keyed.eq_of_key hx (lookup_mem hr).1 hid
  exact unbound

/-- A link and, on a finished contract, the settle that follows it. -/
private theorem Totals.finalizeLink {c : Contract} {rid : Uuid} {now : Timestamp}
    (ok : Totals never s) (books : (ledger s).Ok) (h : finalizeLink s c rid now = .ok s')
    (hc : s.contract? c.id ≠ none)
    (unbound : ∀ r ∈ s.reimbursements, r.id = rid → r.contractId = none)
    (pending : ∃ r ∈ s.reimbursements, r.id = rid ∧ r.status = .pending) :
    Totals never s' ∧ (c.status.isTerminalSuccess = true → SettledUp s' c.id) := by
  have linked := ok.link hc unbound
  rcases finalizeLink_ok h with ⟨-, infos, hsettle⟩ | ⟨unfinished, rfl⟩
  · refine ⟨linked.settleViaContract hsettle, fun _ => ?_⟩
    have books' := (ledger_bindReimbursement s c.id rid).symm ▸ books
    refine settlementDelta_eq linked books' ?_ hsettle
    obtain ⟨r, hr, hid, hp⟩ := pending
    refine ⟨_, mem_updateWhere_of_mem hr, ?_⟩
    rw [if_pos (by simpa using hid)]
    simp [pendingOn, boundTo, hp]
  · exact ⟨linked, fun finished => by simp [unfinished] at finished⟩

private theorem Totals.doConfirm {userId gid : Uuid} {now : Timestamp} (ok : Totals never s)
    (books : (ledger s).Ok) (h : doConfirm s userId gid now = .ok s') :
    Totals never s' ∧ ∀ cid ∈ settledContract s (.doConfirm userId gid now), SettledUp s' cid := by
  obtain ⟨g, c, r, hg, hc, hr, -, pending, unbound, h⟩ := doConfirm_ok h
  obtain ⟨hmem, hid⟩ := lookup_mem hc
  have same : Totals never (confirmWhere s fun x => decide (x.id = gid)) :=
    ok.frame rfl rfl ok.tips
  obtain ⟨after, delta⟩ := same.finalizeLink books h (hid ▸ (hc ▸ Option.some_ne_none c))
    (unbound_of_lookup books hr unbound) ⟨r, (lookup_mem hr).1, rfl, pending⟩
  refine ⟨after, fun cid hcid => ?_⟩
  simp only [settledContract, hg, hc, Option.bind_some, Option.mem_def, Option.map_eq_some_iff,
    Option.filter_eq_some_iff, Option.some.injEq] at hcid
  obtain ⟨c', ⟨rfl, finished⟩, rfl⟩ := hcid
  exact delta finished

private theorem Totals.doManualLink {userId contractId rid newId : Uuid} {now : Timestamp}
    (ok : Totals never s) (books : (ledger s).Ok)
    (h : doManualLink s userId contractId rid newId now = .ok s') :
    Totals never s' ∧ ∀ cid ∈ settledContract s (.doManualLink userId contractId rid newId now),
      SettledUp s' cid := by
  obtain ⟨c, r, s₁, hc, hr, pending, unbound, hup, h⟩ := doManualLink_ok h
  obtain ⟨hmem, hid⟩ := lookup_mem hc
  obtain ⟨suggestions, rfl⟩ := upsertConfirmed_shape hup
  have same : Totals never { s with suggestions := suggestions } := ok.frame rfl rfl ok.tips
  obtain ⟨after, delta⟩ := same.finalizeLink books h (hid ▸ (hc ▸ Option.some_ne_none c))
    (unbound_of_lookup books hr unbound) ⟨r, (lookup_mem hr).1, rfl, pending⟩
  refine ⟨after, fun cid hcid => ?_⟩
  simp only [settledContract, hc, Option.mem_def, Option.map_eq_some_iff,
    Option.filter_eq_some_iff, Option.some.injEq] at hcid
  obtain ⟨c', ⟨rfl, finished⟩, rfl⟩ := hcid
  exact delta finished

private theorem Totals.aside (ok : Totals never s) (h : Aside s s') : Totals never s' :=
  ok.frame (by rw [h.reimbursements]) (by rw [h.contracts]) (h.lists ▸ ok.tips)

private theorem Totals.recordFulfillment {userId listId itemId : Uuid}
    {body : RecordFulfillmentBody} {gen : Generated} (ok : Totals never s)
    (h : recordFulfillment s userId listId itemId body gen = .ok s')
    (cond : Refreshed s (.recordFulfillment userId listId itemId body gen)) : Totals never s' := by
  obtain ⟨items, claims, claimItems, purchases, li, hli, hup⟩ := recordFulfillment_upserts h
  exact (ok.aside (aside_withItems ..)).upsert hup fun r hr hw => cond li hli r hr hw

private theorem Totals.reverseFulfillment {userId fulfillmentId newId : Uuid} {now : Timestamp}
    (ok : Totals never s) (h : reverseFulfillment s userId fulfillmentId newId now = .ok s')
    (cond : Refreshed s (.reverseFulfillment userId fulfillmentId newId now)) : Totals never s' := by
  obtain ⟨items, purchases, f, li, hf, hli, hup⟩ := reverseFulfillment_upserts h
  exact (ok.aside (aside_withItems ..)).upsert hup fun r hr hw => cond f hf li hli r hr hw

/-- A new contract is bound to nothing, and a known one keeps its total. -/
private theorem Totals.upsertContract {u : ContractUpsert} {newId : Uuid}
    {out : ContractUpsertOutcome}
    (ok : Totals never s) (h : upsertContract s u newId = .ok (out, s')) : Totals never s' := by
  rcases upsertContract_ok h with ⟨c, -, -, rfl⟩ | ⟨fresh, -, rfl⟩
  · exact ok.frame rfl (map_updateWhere entry _ fun _ _ _ => rfl) ok.tips
  · have unused : ∀ r ∈ s.reimbursements, boundTo newId r = false := by
      intro r hr
      by_contra hb
      exact ok.known r hr newId (by simpa using hb) fresh
    refine ⟨ok.keyed.append (lookup_eq_none.mp fresh), ?_, ?_, ok.sums, ok.tips⟩
    · intro r hr cid hb
      obtain ⟨c, hc⟩ := Option.ne_none_iff_exists'.mp (ok.known r hr cid hb)
      exact Option.ne_none_iff_exists'.mpr ⟨c, lookup_append_of_some hc⟩
    · intro c hc fresh'
      rcases List.mem_append.mp hc with hc | hc
      · exact ok.expected c hc fresh'
      · rw [List.mem_singleton.mp hc]
        exact (boundTotal_none unused).symm

private theorem Totals.settleByContract {cid : Uuid} {now : Timestamp}
    {infos : List ContractSettledReimbursement} (ok : Totals never s) (books : (ledger s).Ok)
    (h : Settlement.settleViaContract s cid now = .ok (infos, s')) :
    Totals never s' ∧ (s' = s ∨ SettledUp s' cid) := by
  refine ⟨ok.settleViaContract h, ?_⟩
  by_cases some_pending : ∃ r ∈ s.reimbursements, pendingOn cid r = true
  · exact .inr (settlementDelta_eq ok books some_pending h)
  · obtain ⟨c, -, ⟨-, same⟩ | ⟨pending, -⟩⟩ := settleViaContract_ok h
    · exact .inl same
    · exact absurd pending some_pending

private theorem Totals.create {limits : Limits} {userId groupId listId : Uuid}
    {lines : List NewLine} {itemIds : List Uuid} (ok : Totals never s) (books : (ledger s).Ok)
    (h : Api.Lists.create s limits userId groupId lines listId itemIds = .ok s') :
    Totals never s' := by
  obtain ⟨rows, contracts, tips⟩ := tips_create books ok.tips h
  exact ok.frame (by rw [rows]) (by rw [contracts]) tips

private theorem Totals.doUnlink {userId cid : Uuid} (ok : Totals never s)
    (h : doUnlink s userId cid = .ok s') : Totals never s' := by
  obtain ⟨c, -, -, rfl⟩ := doUnlink_ok h
  have unbound := ok.unbind cid
  have rest : Totals (· = cid) (supersede (unbindReimbursements s cid) cid .confirmed) :=
    unbound.frame rfl rfl unbound.tips
  exact rest.refresh rfl

/-- A terminal contract settles what it is bound to, or is unbound. -/
private theorem Totals.handleContractTerminal {u : UpsertedContract} {now : Timestamp}
    (ok : Totals never s) (books : (ledger s).Ok)
    (cond : Refreshed s (.handleContractTerminal u now))
    (h : handleContractTerminal s u now = .ok s') :
    Totals never s' ∧ ∀ cid ∈ settledContract s (.handleContractTerminal u now),
      s' = s ∨ SettledUp s' cid := by
  rcases handleContractTerminal_ok h with ⟨success, infos, h⟩ | ⟨failure, rfl⟩ | ⟨-, -, rfl⟩
  · obtain ⟨after, delta⟩ := ok.settleByContract books h
    refine ⟨after, ?_⟩
    simp only [settledContract, success, if_true, Option.mem_def, Option.some.injEq, forall_eq']
    exact delta
  · refine ⟨ok.unbindContract (cond failure), fun cid hcid => ?_⟩
    have unfinished : u.status.isTerminalSuccess = false := by
      cases hs : u.status <;> simp_all [ContractStatus.isTerminalSuccess,
        ContractStatus.isTerminalFailure]
    simp [settledContract, unfinished] at hcid
  · exact ⟨ok, fun _ _ => .inl rfl⟩

private theorem settledContract_aside {o : Op} (plain : isAside o = true) :
    settledContract s o = none := by
  cases o <;> first | rfl | cases plain

/-- One step: totals stay current, and a settled contract shows its delta. -/
private theorem totals_step (s : Db) (o : Op) (s' : Db) (books : (ledger s).Ok)
    (ok : Totals never s) (cond : Refreshed s o) (h : apply o s = .ok s') :
    Totals never s' ∧ ∀ cid ∈ settledContract s o, s' = s ∨ SettledUp s' cid := by
  have idle (nothing : settledContract s o = none) (after : Totals never s') :
      Totals never s' ∧ ∀ cid ∈ settledContract s o, s' = s ∨ SettledUp s' cid :=
    ⟨after, by simp [nothing]⟩
  cases plain : isAside o with
  | true => exact idle (settledContract_aside plain) (ok.aside (aside_of_ok plain h))
  | false =>
    cases o <;> simp only [apply, mapError_eq_ok, map_eq_ok, Prod.exists, exists_eq_right] at h
    case create => exact idle rfl (ok.create books h)
    case patchListStatus =>
      obtain ⟨p, rfl⟩ := patchListStatus_ok h
      exact idle rfl (ok.frame rfl rfl (tips_updateWhere ok.tips fun l hl => ok.tips l hl))
    case recordFulfillment => exact idle rfl (ok.recordFulfillment h cond)
    case reverseFulfillment => exact idle rfl (ok.reverseFulfillment h cond)
    case setListTip => exact idle rfl (ok.setListTip h cond)
    case patchListPayer =>
      obtain ⟨payer, l, -, -, -, rfl⟩ := patchListPayer_ok h
      exact idle rfl (ok.frame rfl rfl (tips_updateWhere ok.tips fun l hl => ok.tips l hl))
    case doConfirm =>
      obtain ⟨after, delta⟩ := ok.doConfirm books h
      exact ⟨after, fun cid hcid => .inr (delta cid hcid)⟩
    case doReject =>
      obtain ⟨g, -, -, rfl⟩ := doReject_ok h
      exact idle rfl (ok.frame rfl rfl ok.tips)
    case doManualLink =>
      obtain ⟨after, delta⟩ := ok.doManualLink books h
      exact ⟨after, fun cid hcid => .inr (delta cid hcid)⟩
    case doUnlink => exact idle rfl (ok.doUnlink h)
    case settleReimbursement =>
      obtain ⟨r, -, -, h⟩ := settleReimbursement_ok h
      exact idle rfl (ok.settleManual h)
    case settleManual => exact idle rfl (ok.settleManual h)
    case settleViaContract cid now =>
      obtain ⟨infos, h⟩ := h
      obtain ⟨after, delta⟩ := ok.settleByContract books h
      refine ⟨after, ?_⟩
      simp only [settledContract, Option.mem_def, Option.some.injEq, forall_eq']
      exact delta
    case unbindContract =>
      obtain rfl := (Except.ok.inj h).symm
      exact idle rfl (ok.unbindContract cond)
    case handleContractTerminal => exact ok.handleContractTerminal books cond h
    case upsertContract =>
      obtain ⟨out, h⟩ := h
      exact idle rfl (ok.upsertContract h)
    case syncItemsFor =>
      obtain ⟨rows, rfl⟩ := syncItemsFor_ok h
      exact idle rfl (ok.frame rfl (map_updateWhere entry _ fun _ _ _ => rfl) ok.tips)
    case runOne =>
      rcases runOne_ok h with rfl | ⟨issuer, assignee, -, -, -, rfl⟩
      · exact idle rfl ok
      · exact idle rfl (ok.frame rfl rfl ok.tips)
    all_goals cases plain

end Runs

private theorem totals_empty : Totals never empty :=
  ⟨List.nodup_nil, by simp [empty], by simp [empty], by simp [empty], by simp [empty]⟩

/-- Contract totals: along every run that rewrites no bound amount and unbinds no contract with
settled reimbursements, expected totals are the bound sums, and every contract settle writes the
price less the totals of what is settled on the contract. -/
theorem contract_totals_current {ops : List Op} (cond : Meets apply Refreshed empty ops) :
    (∀ c ∈ (reached ops).contracts, c.expectedTotalIsk =
      if (reached ops).reimbursements.any (boundTo c.id) then
        some (sumWhere (boundTo c.id) (fun r => r.subtotalIsk + r.tipIsk)
          (reached ops).reimbursements)
      else none) ∧
    ∀ o s' cid, Refreshed (reached ops) o → apply o (reached ops) = .ok s' →
      settledContract (reached ops) o = some cid →
      s' = reached ops ∨
        ((∀ r ∈ s'.reimbursements, boundTo cid r = true → r.status = .settled) ∧
          ∀ c ∈ s'.contracts, c.id = cid → c.settlementDeltaIsk =
            some (c.priceIsk - sumWhere (boundTo cid) Reimbursement.totalIsk s'.reimbursements)) := by
  have inv : (ledger (reached ops)).Ok ∧ Totals never (reached ops) :=
    meets_invariant (I := fun s => (ledger s).Ok ∧ Totals never s)
      (fun s o s' ⟨books, ok⟩ cond h =>
        ⟨ledgerOk_step s o s' books h, (totals_step s o s' books ok cond h).1⟩)
      ⟨ledgerOk_empty, totals_empty⟩ cond
  obtain ⟨books, ok⟩ := inv
  exact ⟨fun c hc => ok.expected c hc id,
    fun o s' cid hcond h hcid => (totals_step _ o s' books ok hcond h).2 cid hcid⟩

/-- A purchase, its contract, the link, and the settle once the contract is finished. -/
def linkedRun (status : ContractStatus) : List Op :=
  [.directory sampleDirectory,
    .create sampleLimits 1 1 [⟨34, "Tritanium", 10, 1⟩] 1 [1],
    .recordFulfillment 3 1 1 (samplePurchase 5 1) ⟨1, 1, 0⟩,
    .upsertContract (sampleContract .outstanding) 1,
    .doManualLink 3 1 1 1 1,
    .upsertContract (sampleContract status) 1,
    .settleViaContract 1 2]

theorem contract_totals_current_linkedRun :
    Meets apply Refreshed empty (linkedRun .finished) ∧
      ∀ c ∈ (reached (linkedRun .finished)).contracts, c.expectedTotalIsk =
        if (reached (linkedRun .finished)).reimbursements.any (boundTo c.id) then
          some (sumWhere (boundTo c.id) (fun r => r.subtotalIsk + r.tipIsk)
            (reached (linkedRun .finished)).reimbursements)
        else none :=
  ⟨by decide +kernel, (contract_totals_current (by decide +kernel)).1⟩

/-- The other half is bought after the link. -/
def boundPurchaseRun : List Op :=
  [.directory sampleDirectory,
    .create sampleLimits 1 1 [⟨34, "Tritanium", 10, 1⟩] 1 [1],
    .recordFulfillment 3 1 1 (samplePurchase 5 1) ⟨1, 1, 0⟩,
    .upsertContract (sampleContract .outstanding) 1,
    .doManualLink 3 1 1 1 1,
    .recordFulfillment 3 1 1 (samplePurchase 5 1) ⟨2, 1, 1⟩]

/-- The total still counts the first half only, and a settle then writes a delta of 5 ISK too much;
a settled contract that is reversed loses its total while its reimbursement stays bound. -/
theorem totals_go_stale :
    (∃ c ∈ (reached boundPurchaseRun).contracts, c.expectedTotalIsk = some 500 ∧
      sumWhere (boundTo c.id) (fun r => r.subtotalIsk + r.tipIsk)
        (reached boundPurchaseRun).reimbursements = 1000) ∧
    (∃ c ∈ (reached (boundPurchaseRun ++ [.settleViaContract 1 2])).contracts,
      c.settlementDeltaIsk = some 500 ∧
      c.priceIsk - sumWhere (boundTo c.id) Reimbursement.totalIsk
        (reached (boundPurchaseRun ++ [.settleViaContract 1 2])).reimbursements = 0) ∧
    ∃ c ∈ (reached (linkedRun .finished ++ [.unbindContract 1])).contracts,
      c.expectedTotalIsk = none ∧
      (reached (linkedRun .finished ++ [.unbindContract 1])).reimbursements.any (boundTo c.id) := by
  decide +kernel

end JitaCart.Contracts
