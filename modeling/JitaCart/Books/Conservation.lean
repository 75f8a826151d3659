/- module: JitaCart/Books/Conservation
   source: backend/crates/api/src/fulfillment/fulfillments.rs,
     backend/crates/api/src/fulfillment/reimbursements.rs, backend/crates/api/src/corps.rs
   digest: Every request is a step of the ledger, so every run keeps the books balanced. -/

import JitaCart.Books.Projection

set_option autoImplicit false
set_option relaxedAutoImplicit false

namespace JitaCart.Books

open Schema Base.Table Base.Request Base.Balance Directory Settlement Operations
open Api.Extract Api.ItemStatus Api.Claims Api.Fulfillments Api.Reimbursements Api.Lists
open Api.Contracts Worker.Match Worker.Terminal

section Upsert
variable {s : Db} {l : ListRow} {requester rp hauler hp newId : Uuid}

theorem keyed_cycle (ok : (ledger s).Ok) : Keyed cycle s.reimbursements := by
  have h := ok.balanced.keyed
  unfold Keyed at h ⊢
  simp only [ledger, List.map_map] at h
  apply List.Nodup.of_map some
  rw [List.map_map]
  exact h

/-- The proposed row has the parties that the list's payer prescribes. -/
theorem dueOk_proposed (hl : s.list? l.id = some l)
    (hrp : s.directory.requesterPrincipal l.payer requester = some rp)
    (hhp : s.directory.userPrincipal hauler = some hp) :
    (ledger s).DueOk (dueOf (proposed s l requester rp hauler hp newId)) := by
  refine ⟨l.payer, requester, ?_, rfl, rfl, hrp, hhp, rfl⟩
  rw [payer?_ledger]
  simp [dueOf, proposed, hl]

theorem subtotal_proposed :
    (proposed s l requester rp hauler hp newId).subtotalIsk =
      (ledger s).coveredCost (dueOf (proposed s l requester rp hauler hp newId)) := by
  unfold Ledger.coveredCost
  apply sumWhere_congr
  · intro f _
    rw [covers_ledger]
    unfold covers
    cases s.item? f.listItemId with
    | none => simp
    | some li =>
      rw [Bool.eq_iff_iff]
      simp only [Option.any_some, Bool.and_eq_true, Bool.or_eq_true, decide_eq_true_eq]
      simp only [proposed]
      by_cases corp : l.payer.isSome = true
      · simp only [corp, true_or, and_true]
        tauto
      · simp only [corp, false_or, Bool.false_eq_true, if_false, Option.some.injEq]
        constructor
        · rintro ⟨⟨hl, hh⟩, hlist, rfl⟩
          exact ⟨hl, ⟨hlist, hh⟩, rfl⟩
        · rintro ⟨hl, ⟨hlist, hh⟩, rfl⟩
          exact ⟨⟨hl, hh⟩, hlist, rfl⟩
  · intro f _
    rfl

/-- While the cycle's row is pending, the upsert charges it with what it covers. -/
private theorem ledger_upsert {s' : Db} {listId : Uuid}
    (live : ∀ r ∈ s.reimbursements, r.status ≠ .cancelled) (hl : s.list? listId = some l)
    (hrp : s.directory.requesterPrincipal l.payer requester = some rp)
    (hhp : s.directory.userPrincipal hauler = some hp)
    (pending : ∀ r ∈ s.reimbursements, cycle r = (l.id, rp, hp) → r.status = .pending)
    (h : upsertReimbursement s listId requester hauler newId = .ok s') :
    ledger s' = { ledger s with
        dues := Ledger.charge (dueOf (proposed s l requester rp hauler hp newId)) (ledger s).dues } ∧
      ((∀ d ∈ (ledger s).dues,
          d.cycle ≠ (dueOf (proposed s l requester rp hauler hp newId)).cycle) →
        ∀ d ∈ (ledger s).dues, d.id ≠ newId) := by
  set new := proposed s l requester rp hauler hp newId with hnew
  have cycles : ∀ r, (dueOf r).cycle = cycle r := fun _ => rfl
  rcases upsertReimbursement_ok h with ⟨missing, -⟩ | ⟨l', rp', hp', hl', hrp', hhp', -, -, cases⟩
  · simp [hl, hrp, hhp] at missing
  · obtain rfl : l' = l := Option.some.inj (hl'.symm.trans hl)
    obtain rfl : rp' = rp := Option.some.inj (hrp'.symm.trans hrp)
    obtain rfl : hp' = hp := Option.some.inj (hhp'.symm.trans hhp)
    rw [← hnew] at cases
    rcases cases with ⟨⟨r, hr, hk, -⟩, rfl⟩ | ⟨free, fresh, rfl⟩
    · have known : ((ledger s).dues.any fun d => decide (d.cycle = (dueOf new).cycle)) = true := by
        rw [List.any_eq_true]
        exact ⟨dueOf r, List.mem_map_of_mem hr, by simp [cycles, hk, hnew]⟩
      refine ⟨?_, fun apart => absurd (by simp [cycles, hk, hnew]) (apart _ (List.mem_map_of_mem hr))⟩
      unfold Ledger.charge
      rw [if_pos known]
      simp only [ledger, Ledger.mk.injEq, true_and, updateWhere, List.map_map]
      apply List.map_congr_left
      intro x hx
      have key : (dueOf x).cycle = (dueOf new).cycle ↔ cycle x = (l'.id, rp', hp') := by
        rw [cycles, cycles, hnew, cycle_proposed]
      simp only [Function.comp_apply, key]
      by_cases hc : cycle x = (l'.id, rp', hp')
      · have hp := pending x hx hc
        simp [hc, hp, takeAmounts, dueOf]
      · simp [hc]
    · have unknown : ((ledger s).dues.any fun d => decide (d.cycle = (dueOf new).cycle)) = false := by
        rw [List.any_eq_false]
        intro d hd
        obtain ⟨r, hr, rfl⟩ := List.mem_map.mp hd
        simp only [cycles, hnew, cycle_proposed, decide_eq_true_eq]
        exact fun hk => live r hr (free r hr hk)
      constructor
      · unfold Ledger.charge
        rw [unknown]
        simp [ledger]
      · intro _ d hd
        obtain ⟨r, hr, rfl⟩ := List.mem_map.mp hd
        exact lookup_eq_none.mp fresh r hr

end Upsert

private theorem cycle_pending {s : Db} (ok : (ledger s).Ok) {listId requester hauler rp hp : Uuid}
    {l : ListRow} (hl : s.list? listId = some l)
    (hrp : s.directory.requesterPrincipal l.payer requester = some rp)
    (hhp : s.directory.userPrincipal hauler = some hp)
    (status : ∀ rs ∈ reimbursementStatus s listId requester hauler, rs = .pending) :
    ∀ r ∈ s.reimbursements, cycle r = (listId, rp, hp) → r.status = .pending := by
  intro r hr hk
  apply status
  have found : lookup cycle (listId, rp, hp) s.reimbursements = some r :=
    (lookup_eq_some (keyed_cycle ok)).mpr ⟨hr, hk⟩
  simp [reimbursementStatus, hl, hrp, hhp, found]

private theorem requesterPrincipal_some {s : Db} (ok : (ledger s).Ok) {listId : Uuid} {l : ListRow}
    {li : ListItem} (hl : s.list? listId = some l) (hli : li ∈ s.listItems) :
    ∃ rp, s.directory.requesterPrincipal l.payer li.requestedByUserId = some rp := by
  have user := ok.lineRequester (lineOf li) (List.mem_map_of_mem hli)
  cases hpay : l.payer with
  | none => exact Option.ne_none_iff_exists'.mp user
  | some p =>
    have corp := ok.payerCorp (accountOf l) (List.mem_map_of_mem (lookup_mem hl).1) p hpay
    exact Option.ne_none_iff_exists'.mp corp

theorem roleOf_userPrincipal {d : Schema.Directory} (ok : DirectoryOk d) {userId groupId : Uuid}
    {role : GroupRole} (h : d.roleOf userId groupId = some role) :
    ∃ p, d.userPrincipal userId = some p := by
  obtain ⟨m, hm, -⟩ := Option.map_eq_some_iff.mp h
  have hu : m.userId = userId := by
    have := List.find?_some hm
    simp only [decide_eq_true_eq] at this
    exact this.1
  exact hu ▸ Option.ne_none_iff_exists'.mp (ok.members m (List.mem_of_find?_eq_some hm))

/-- An upsert after purchases changed: the ledger with these purchases, charged under a due of
the given parties. -/
private theorem upsert_charges {s m s' : Db} {ps : List Fulfillment}
    {listId requester hauler newId : Uuid}
    {l : ListRow} {rp hp : Uuid} (ok : (ledger s).Ok) (lists : m.lists = s.lists)
    (directory : m.directory = s.directory) (reimbursements : m.reimbursements = s.reimbursements)
    (mid : ledger m = { ledger s with purchases := ps }) (hl : s.list? listId = some l)
    (hrp : s.directory.requesterPrincipal l.payer requester = some rp)
    (hhp : s.directory.userPrincipal hauler = some hp)
    (status : ∀ rs ∈ reimbursementStatus s listId requester hauler, rs = .pending)
    (hup : upsertReimbursement m listId requester hauler newId = .ok s') :
    ∃ new : Due,
      ledger s' = { ledger s with purchases := ps, dues := Ledger.charge new (ledger s).dues } ∧
      (ledger s).DueOk new ∧
      ((∀ d ∈ (ledger s).dues, d.cycle ≠ new.cycle) → ∀ d ∈ (ledger s).dues, d.id ≠ new.id) ∧
      new.subtotal = Ledger.coveredCost { ledger s with purchases := ps } new ∧
      new.listId = listId ∧ new.hauler = hauler ∧
      (new.corpFunded = true ∨ new.requester = some requester) := by
  obtain rfl : l.id = listId := (lookup_mem hl).2
  have hl' : m.list? l.id = some l := by
    unfold Db.list?
    rw [lists]
    exact hl
  rw [← directory] at hrp hhp
  have pending : ∀ r ∈ m.reimbursements, cycle r = (l.id, rp, hp) → r.status = .pending := by
    rw [reimbursements]
    exact cycle_pending ok hl (directory ▸ hrp) (directory ▸ hhp) status
  have live : ∀ r ∈ m.reimbursements, r.status ≠ .cancelled := by
    rw [reimbursements]
    exact noCancelled ok
  obtain ⟨after, fresh⟩ := ledger_upsert live hl' hrp hhp pending hup
  have hnew : (ledger m).DueOk (dueOf (proposed m l requester rp hauler hp newId)) :=
    dueOk_proposed hl' hrp hhp
  have amount : (proposed m l requester rp hauler hp newId).subtotalIsk =
      (ledger m).coveredCost (dueOf (proposed m l requester rp hauler hp newId)) :=
    subtotal_proposed
  rw [mid] at after fresh hnew amount
  refine ⟨_, after, hnew, fresh, amount, rfl, rfl, ?_⟩
  cases hpay : l.payer with
  | none => exact .inr (by simp [dueOf, proposed, hpay])
  | some p => exact .inl (by simp [dueOf, proposed, hpay])

/-- A purchase recorded by a member whose cycle is not settled is a `buy` of the ledger. -/
theorem ledgerOk_record {s s' : Db} {userId listId itemId : Uuid} {body : RecordFulfillmentBody}
    {gen : Generated} (ok : (ledger s).Ok)
    (h : recordFulfillment s userId listId itemId body gen = .ok s') : (ledger s').Ok := by
  obtain ⟨l, role, li, f, s₁, status, s₂, active, hl, hrole, -, hli, hlist, -, -, -, -, hstatus,
    hf, hfresh, rfl, hrec, hup⟩ := recordFulfillment_ok h
  obtain ⟨rp, hrp⟩ := requesterPrincipal_some ok hl (lookup_mem hli).1
  obtain ⟨hp, hhp⟩ := roleOf_userPrincipal ok.directory hrole
  obtain ⟨items, hs₂⟩ := recompute_shape hrec
  obtain ⟨claims, claimItems, hs₃⟩ := completeClaim_shape s₂ active status
  have mid : ledger (completeClaim s₂ active status) =
      { ledger s with purchases := s.fulfillments ++ [f] } := by
    rw [hs₃]
    exact ledger_recompute hrec
  obtain ⟨new, after, hnew, fresh, amount, hnl, hnh, hwho⟩ := upsert_charges ok
    (by rw [hs₃, hs₂]) (by rw [hs₃, hs₂]) (by rw [hs₃, hs₂]) mid hl hrp hhp hstatus hup
  rw [after]
  refine ok.buy hnew fresh (lookup_eq_none.mp hfresh) ?_ amount
  refine Ledger.covers_eq_true.mpr ⟨lineOf li, ?_, hlist.trans hnl.symm, ?_, hwho⟩
  · rw [line?_ledger, hf]
    exact congrArg (Option.map lineOf) hli
  · rw [hnh, hf]
    rfl

theorem ledgerOk_reverse {s s' : Db} {userId fulfillmentId newId : Uuid} {now : Timestamp}
    (ok : (ledger s).Ok)
    (h : reverseFulfillment s userId fulfillmentId newId now = .ok s') : (ledger s').Ok := by
  obtain ⟨f, li, l, role, status, s₂, hf, hli, hl, hrole, live, hstatus, hrec, hup⟩ :=
    reverseFulfillment_ok h
  obtain ⟨hfmem, rfl⟩ := lookup_mem hf
  obtain ⟨rp, hrp⟩ := requesterPrincipal_some ok hl (lookup_mem hli).1
  obtain ⟨hp, hhp⟩ := Option.ne_none_iff_exists'.mp (ok.purchaseHauler f hfmem)
  obtain ⟨items, hs₂⟩ := recompute_shape hrec
  have mid : ledger s₂ = { ledger s with
      purchases := updateWhere (fun g => decide (g.id = f.id) && g.live)
        (fun g => { g with reversedAt := some now }) s.fulfillments } :=
    ledger_recompute hrec
  obtain ⟨new, after, hnew, fresh, amount, hnl, hnh, hwho⟩ := upsert_charges ok
    (by rw [hs₂]; rfl) (by rw [hs₂]; rfl) (by rw [hs₂]; rfl) mid hl hrp hhp hstatus hup
  rw [after]
  refine ok.reverse hnew fresh hfmem ?_ amount
  refine Ledger.covers_eq_true.mpr ⟨lineOf li, ?_, hnl.symm, hnh.symm, hwho⟩
  rw [line?_ledger]
  exact congrArg (Option.map lineOf) hli

private theorem ledgerOk_insertItems {s s' : Db} {listId userId : Uuid} {lines : List NewLine}
    {ids : List Uuid} (ok : (ledger s).Ok) (hlist : s.list? listId ≠ none)
    (huser : s.directory.userPrincipal userId ≠ none)
    (h : insertItems s listId userId lines ids = .ok s') : (ledger s').Ok := by
  obtain ⟨len, nodup, fresh, rfl⟩ := insertItems_ok h
  have after : ledger { s with listItems := s.listItems ++ newItems listId userId lines ids } =
      (ledger s).addLines ((newItems listId userId lines ids).map lineOf) := by
    simp [ledger, Ledger.addLines]
  rw [after]
  have rows : ∀ line ∈ (newItems listId userId lines ids).map lineOf,
      line.id ∈ ids ∧ line.listId = listId ∧ line.requester = userId := by
    intro line hline
    obtain ⟨li, hli, rfl⟩ := List.mem_map.mp hline
    obtain ⟨id, hid, n, -, rfl⟩ := mem_newItems hli
    exact ⟨hid, rfl, rfl⟩
  refine ok.addLines ?_ ?_ ?_
  · have keyed : Keyed ListItem.id (newItems listId userId lines ids) := by
      unfold Keyed
      rw [map_id_newItems len]
      exact nodup
    exact keyed.map fun _ => rfl
  · intro line hline
    rw [line?_ledger, fresh _ (rows line hline).1]
    rfl
  · intro line hline
    obtain ⟨-, hl, hu⟩ := rows line hline
    rw [payer?_ledger, hl, hu]
    exact ⟨by simpa using hlist, huser⟩

theorem ledgerOk_newList {s : Db} {l : ListRow} (ok : (ledger s).Ok) (fresh : s.list? l.id = none)
    (personal : l.payer = none) : (ledger { s with lists := s.lists ++ [l] }).Ok := by
  have added : ledger { s with lists := s.lists ++ [l] } = (ledger s).addAccount l.id := by
    simp [ledger, Ledger.addAccount, accountOf, personal]
  rw [added]
  apply ok.addAccount
  rw [payer?_ledger, fresh]
  rfl

private theorem ledgerOk_create {s s' : Db} {limits : Limits} {userId groupId : Uuid}
    {lines : List NewLine} {listId : Uuid} {itemIds : List Uuid} (ok : (ledger s).Ok)
    (h : create s limits userId groupId lines listId itemIds = .ok s') : (ledger s').Ok := by
  obtain ⟨role, g, hrole, -, -, fresh, h⟩ := create_ok h
  obtain ⟨p, hp⟩ := roleOf_userPrincipal ok.directory hrole
  refine ledgerOk_insertItems (ledgerOk_newList ok fresh rfl) ?_ ?_ h
  · intro missing
    exact lookup_eq_none.mp missing _ (List.mem_append_right s.lists List.mem_cons_self) rfl
  · exact Option.ne_none_iff_exists'.mpr ⟨p, hp⟩

private theorem ledgerOk_addItems {s s' : Db} {limits : Limits} {userId listId : Uuid}
    {lines : List NewLine} {itemIds : List Uuid} (ok : (ledger s).Ok)
    (h : addItems s limits userId listId lines itemIds = .ok s') : (ledger s').Ok := by
  obtain ⟨l, role, hl, hrole, -, h⟩ := addItems_ok h
  obtain ⟨p, hp⟩ := roleOf_userPrincipal ok.directory hrole
  exact ledgerOk_insertItems ok (by simp [hl]) (Option.ne_none_iff_exists'.mpr ⟨p, hp⟩) h

private theorem ledgerOk_patchListPayer {s s' : Db} {userId listId : Uuid}
    {body : PatchListPayerBody}
    (ok : (ledger s).Ok) (h : patchListPayer s userId listId body = .ok s') : (ledger s').Ok := by
  obtain ⟨payer, l, -, unused, linked, rfl⟩ := patchListPayer_ok h
  have after : ledger (setPayer s listId payer) = (ledger s).setPayer listId payer := by
    simp only [ledger, setPayer, Ledger.setPayer, Ledger.mk.injEq, true_and, and_true, updateWhere,
      List.map_map]
    apply List.map_congr_left
    intro x _
    by_cases hx : x.id = listId <;> simp [accountOf, hx]
  rw [after]
  refine ok.setPayer ?_ ?_
  · intro d hd
    obtain ⟨r, hr, rfl⟩ := List.mem_map.mp hd
    exact unused r hr
  · intro p hp
    obtain ⟨gc, hgc, hcorp⟩ := linked p hp
    exact hcorp ▸ ok.directory.corps gc hgc

/-- Every accepted request is a step of the ledger, most of them the empty one. -/
theorem ledgerOk_step (s : Db) (o : Op) (s' : Db) (ok : (ledger s).Ok) (h : apply o s = .ok s') :
    (ledger s').Ok := by
  have live := noCancelled ok
  have quiet : ledger s' = ledger s → (ledger s').Ok := fun same => same ▸ ok
  cases clerical : isPaperwork o with
  | true => exact quiet (paperwork_of_ok clerical h).ledger_eq
  | false =>
    cases o <;> simp only [apply, mapError_eq_ok, map_eq_ok, Prod.exists, exists_eq_right] at h
    case directory d =>
      simp only [changeDirectory, bind_eq_ok, require_eq_ok] at h
      obtain ⟨-, ⟨ok', ext⟩, h⟩ := h
      obtain rfl := (Except.ok.inj h).symm
      exact ok.directory_extends ok' ext
    case create => exact ledgerOk_create ok h
    case addItems => exact ledgerOk_addItems ok h
    case patchListStatus =>
      obtain ⟨p, rfl⟩ := patchListStatus_ok h
      exact quiet (ledger_lists s _ _ fun _ => rfl)
    case createClaim =>
      obtain ⟨-, -, h⟩ := createClaim_ok h
      exact quiet ((ledger_recomputeBulk (insertClaimItems_ok h)).trans rfl)
    case addClaimItems =>
      obtain ⟨c, -, -, -, h⟩ := addClaimItems_ok h
      exact quiet ((ledger_recomputeBulk (insertClaimItems_ok h)).trans rfl)
    case removeClaimItem =>
      obtain ⟨status, h⟩ := removeClaimItem_ok h
      exact quiet ((ledger_recompute h).trans rfl)
    case releaseClaim =>
      obtain ⟨c, -, -, h⟩ := releaseClaim_ok h
      exact quiet ((ledger_recomputeBulk h).trans (ledger_updateClaimStatus s _ _ _))
    case recordFulfillment => exact ledgerOk_record ok h
    case reverseFulfillment => exact ledgerOk_reverse ok h
    case markDelivered =>
      obtain ⟨li, -, -, -, rfl⟩ := markDelivered_ok h
      exact quiet (ledger_items s _ _ fun _ => rfl)
    case setListTip =>
      obtain ⟨-, -, rfl⟩ := setListTip_ok h
      refine quiet (ledger_congr rfl ?_ rfl rfl ?_)
      · exact map_updateWhere accountOf _ fun _ _ _ => rfl
      · exact map_updateWhere dueOf _ fun _ _ _ => rfl
    case patchListPayer => exact ledgerOk_patchListPayer ok h
    case doConfirm =>
      obtain ⟨g, c, r, -, -, -, -, -, -, h⟩ := doConfirm_ok h
      exact quiet ((ledger_finalizeLink h live).trans rfl)
    case doManualLink =>
      obtain ⟨c, r, s₁, -, -, -, -, hup, h⟩ := doManualLink_ok h
      obtain ⟨-, ⟨-, rfl⟩ | ⟨-, -, rfl⟩⟩ := upsertConfirmed_ok hup
      · exact quiet ((ledger_finalizeLink h live).trans rfl)
      · exact quiet ((ledger_finalizeLink h live).trans rfl)
    case settleReimbursement =>
      obtain ⟨r, -, -, h⟩ := settleReimbursement_ok h
      exact quiet (ledger_settleManual live h)
    case settleManual => exact quiet (ledger_settleManual live h)
    case settleViaContract =>
      obtain ⟨infos, h⟩ := h
      exact quiet (ledger_settleViaContract live h)
    case handleContractTerminal =>
      rcases handleContractTerminal_ok h with ⟨-, infos, h⟩ | ⟨-, rfl⟩ | ⟨-, -, rfl⟩
      · exact quiet (ledger_settleViaContract live h)
      · exact quiet (ledger_unbindContract s _)
      · exact ok
    all_goals cases clerical

theorem ledgerOk_empty : (ledger empty).Ok where
  directory := by decide
  accounts := List.nodup_nil
  lines := List.nodup_nil
  purchases := List.nodup_nil
  dues := List.nodup_nil
  lineAccount := by simp [ledger, empty]
  lineRequester := by simp [ledger, empty]
  payerCorp := by simp [ledger, empty]
  purchaseLine := by simp [ledger, empty]
  purchaseHauler := by simp [ledger, empty]
  due := by simp [ledger, empty]
  balanced := balanced_nil

theorem ledgerOk_reached (ops : List Op) : (ledger (reached ops)).Ok :=
  run_invariant (I := fun s => (ledger s).Ok) ledgerOk_step ledgerOk_empty ops

private theorem covers_iff_cycle {s : Db} (ok : (ledger s).Ok) {r : Reimbursement}
    (hr : r ∈ s.reimbursements) {f : Fulfillment} :
    covers s r f = true ↔ (ledger s).cycleOf f = some (cycle r) := by
  rw [← covers_ledger]
  exact Ledger.covers_iff_cycleOf ok.directory (ok.due _ (List.mem_map_of_mem hr))

theorem covering_unique {s : Db} (ok : (ledger s).Ok) {f : Fulfillment} (hf : f ∈ s.fulfillments)
    (live : f.live = true) : ∃ r, s.reimbursements.filter (covers s · f) = [r] := by
  obtain ⟨d, hd, hk⟩ := ok.balanced.covered f hf live
  obtain ⟨r, hr, rfl⟩ := List.mem_map.mp hd
  refine ⟨r, (keyed_cycle ok).filter_eq_singleton hr fun x hx => ?_⟩
  rw [covers_iff_cycle ok hx, ← hk]
  exact ⟨fun h => (Option.some.inj h).symm, fun h => congrArg some h.symm⟩

theorem subtotal_eq_coveredCost {s : Db} (ok : (ledger s).Ok) {r : Reimbursement}
    (hr : r ∈ s.reimbursements) :
    r.subtotalIsk =
      sumWhere (fun f => f.live && covers s r f) Fulfillment.cost s.fulfillments := by
  have h := ok.subtotal_eq (List.mem_map_of_mem hr)
  simp only [Ledger.coveredCost, covers_ledger] at h
  exact h

/-- On each list the subtotals add up to the cost of its live purchases. -/
theorem subtotals_eq_cost {s : Db} (ok : (ledger s).Ok) (listId : Uuid) :
    sumWhere (fun r => decide (r.listId = listId)) Reimbursement.subtotalIsk s.reimbursements =
      sumWhere (fun f => f.live && (s.item? f.listItemId).any fun li => decide (li.listId = listId))
        Fulfillment.cost s.fulfillments := by
  have total := ok.balanced.total fun k => k.any fun c => decide (c.1 = listId)
  have left : sumWhere (fun d => (some (Due.cycle d)).any fun c => decide (c.1 = listId)) Due.subtotal
      (ledger s).dues =
        sumWhere (fun r => decide (r.listId = listId)) Reimbursement.subtotalIsk
          s.reimbursements := by
    unfold sumWhere ledger
    simp only [List.filter_map, List.map_map]
    rfl
  rw [← left, total]
  apply sumWhere_congr
  · intro f hf
    obtain ⟨k, hk⟩ := ok.cycleOf_some hf
    obtain ⟨li, payer, rp, hp, hli, -, -, -, rfl⟩ := Ledger.cycleOf_eq_some.mp hk
    rw [line?_ledger, Option.map_eq_some_iff] at hli
    obtain ⟨item, hitem, rfl⟩ := hli
    rw [hk, hitem]
    rfl
  · intro f _
    rfl

/-- Money conservation: in every reachable state each live fulfillment is covered by exactly one
reimbursement that is not cancelled, each pending or settled subtotal is the cost of exactly the
live fulfillments it covers, and on each list the subtotals add up to the cost of its live
fulfillments. -/
theorem money_conserved (ops : List Op) :
    (∀ f ∈ (reached ops).fulfillments, f.live = true →
      ((reached ops).reimbursements.filter fun r =>
        decide (r.status ≠ .cancelled) && covers (reached ops) r f).length = 1) ∧
    (∀ r ∈ (reached ops).reimbursements, r.status = .pending ∨ r.status = .settled →
      r.subtotalIsk = sumWhere (fun f => f.live && covers (reached ops) r f) Fulfillment.cost
        (reached ops).fulfillments) ∧
    (∀ listId, sumWhere (fun r => decide (r.listId = listId) && decide (r.status ≠ .cancelled))
        Reimbursement.subtotalIsk (reached ops).reimbursements =
      sumWhere (fun f => f.live &&
          ((reached ops).item? f.listItemId).any fun li => decide (li.listId = listId))
        Fulfillment.cost (reached ops).fulfillments) := by
  have ok := ledgerOk_reached ops
  have none_cancelled := noCancelled ok
  refine ⟨fun f hf live => ?_, fun r hr _ => subtotal_eq_coveredCost ok hr, fun listId => ?_⟩
  · obtain ⟨r, hr⟩ := covering_unique ok hf live
    have same : (reached ops).reimbursements.filter (fun r =>
        decide (r.status ≠ .cancelled) && covers (reached ops) r f) = [r] := by
      rw [← hr]
      apply List.filter_congr
      intro x hx
      simp [none_cancelled x hx]
    rw [same]
    rfl
  · rw [← subtotals_eq_cost ok listId]
    apply sumWhere_congr
    · intro r hr
      simp [none_cancelled r hr]
    · intro r _
      rfl

end JitaCart.Books
