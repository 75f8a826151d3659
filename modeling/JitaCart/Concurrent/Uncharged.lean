/- module: JitaCart/Concurrent/Uncharged
   source: backend/crates/api/src/fulfillment.rs, backend/crates/api/src/fulfillment/claims.rs,
     backend/crates/api/src/fulfillment/tips.rs, backend/crates/api/src/contracts.rs,
     backend/crates/settlement/src/lib.rs
   digest: The requests that change no account: claims, tips, links and settlements. -/

import JitaCart.Concurrent.Charges

set_option autoImplicit false
set_option relaxedAutoImplicit false

namespace JitaCart.Concurrent.Postings

open Schema Base.Table Base.Request Base.ReadCommitted Base.ReadCommitted.Guard Books Trade
open Api.ItemStatus (DeliveredDemotion)

variable {plan : Ledger} {q : TradeRequest} {α : Type}

/-- No statement of the program changes an account. -/
abbrev Uncharged (plan : Ledger) (q : TradeRequest) (p : Program α) : Prop :=
  (accounts plan).Calm q p

theorem uncharged_read (query : Shop → α) : Uncharged plan q (read query) := calm_select _

private theorem uncharged_lockOne (find : Shop → Option α) (row : α → Row) :
    Uncharged plan q (lockOne find row) :=
  calm_reads fun _ _ _ _ h => (Prod.mk.inj (Option.some.inj h)).1.symm

private theorem uncharged_lockList (listId : Uuid) : Uncharged plan q (lockList listId) :=
  calm_bind (uncharged_lockOne _ _) fun _ => calm_check _

private theorem uncharged_lockItem (listId itemId : Uuid) :
    Uncharged plan q (lockItem listId itemId) :=
  calm_bind (uncharged_lockOne _ _) fun _ => calm_check _

private theorem uncharged_change {rows : Shop → List α} {row : α → Row} {p fits : Shop → α → Bool}
    {write : Shop → α → Write} (h : ∀ s x, Remote (write s x)) :
    Uncharged plan q (change rows row p fits write) := by
  refine calm_statement fun st s ws a _ _ hact => ?_
  obtain ⟨rfl, -⟩ := change_eq_some hact
  refine silent_remote fun w hw => ?_
  obtain ⟨x, -, rfl⟩ := List.mem_map.mp hw
  exact h _ x

private theorem uncharged_insert {keys : List Row} {free : Shop → Bool} {writes : List Write}
    (h : ∀ w ∈ writes, Remote w) : Uncharged plan q (insert keys free writes) := by
  refine calm_statement fun st s ws a _ _ hact => ?_
  split at hact
  · obtain ⟨rfl, -⟩ := Prod.mk.inj (Option.some.inj hact)
    exact silent_remote h
  · cases hact

private theorem uncharged_changeItems {p : Shop → ListItem → Bool} {fits : Shop → ListItem → Bool}
    (set : Shop → ListItem → ListItem) (keep : ∀ s li, lineOf (set s li) = lineOf li) :
    Uncharged plan q (change (·.listItems) (fun li => Row.item li.id) p fits
      fun s li => .put (.item (set s li))) := by
  refine calm_statement fun st s ws a _ good hact => ?_
  obtain ⟨rfl, -⟩ := change_eq_some hact
  refine silent_items fun li hli => ?_
  have id : (set st.snapshot li).id = li.id := congrArg Line.id (keep st.snapshot li)
  have onList : (set st.snapshot li).listId = li.listId :=
    congrArg Line.listId (keep st.snapshot li)
  have line := Planned.line good li (List.mem_of_mem_filter hli)
  rw [id, onList, keep]
  exact line

private theorem uncharged_updateItems {p : Shop → ListItem → Bool}
    {set : Shop → ListItem → ListItem}
    (keep : ∀ s li, lineOf (set s li) = lineOf li) : Uncharged plan q (updateItems p set) :=
  uncharged_changeItems set keep

private theorem uncharged_flipItems (p : Shop → ListItem → Bool) : Uncharged plan q (flipItems p) :=
  uncharged_changeItems (fun _ li => { li with status := .settled }) fun _ _ => rfl

private theorem uncharged_updateLists {p : Shop → ListRow → Bool} (set : ListRow → ListRow)
    (keep : ∀ l, accountOf (set l) = accountOf l) : Uncharged plan q (updateLists p set) := by
  refine calm_statement fun st s ws a _ good hact => ?_
  obtain ⟨rfl, -⟩ := change_eq_some hact
  refine silent_lists fun l hl => ?_
  have id : (set l).id = l.id := congrArg Account.id (keep l)
  have payer : (set l).payer = l.payer := congrArg Account.payer (keep l)
  rw [id, payer]
  exact Planned.payer good l (List.mem_of_mem_filter hl)

private theorem uncharged_updateReimbursements {p fits : Reimbursement → Bool}
    {set : Reimbursement → Reimbursement}
    (keep : ∀ r, r.status ≠ .cancelled → dueOf (set r) = dueOf r) :
    Uncharged plan q (updateReimbursements p fits set) := by
  refine calm_statement fun st s ws a _ good hact => ?_
  obtain ⟨rfl, -⟩ := change_eq_some hact
  have good : Planned plan s := good
  refine silent_dues good (good.dues.filter _) fun r hr => ?_
  obtain ⟨mem, hr⟩ := List.mem_filter.mp hr
  simp only [Bool.and_eq_true, decide_eq_true_eq] at hr
  have live : r.status ≠ .cancelled := by
    obtain ⟨-, -, -, -, -, -, -, live⟩ := (good.due r mem).1
    exact of_decide_eq_false live
  exact ⟨(lookup_eq_some good.dues).mpr ⟨mem, rfl⟩, keep r live, hr.2⟩

private theorem remote_claim (c : Claim) : Remote (.put (.claim c)) :=
  ⟨fun _ => ⟨rfl, rfl, rfl, rfl, rfl⟩, fun _ _ => trivial, fun _ _ => trivial⟩

private theorem remote_claimItem (ci : ClaimItem) : Remote (.put (.claimItem ci)) :=
  ⟨fun _ => ⟨rfl, rfl, rfl, rfl, rfl⟩, fun _ _ => trivial, fun _ _ => trivial⟩

private theorem remote_dropClaimItem (ci : ClaimItem) : Remote (.drop (.claimItem ci)) :=
  ⟨fun _ => ⟨rfl, rfl, rfl, rfl, rfl⟩, fun _ _ => trivial, fun _ _ => trivial⟩

private theorem remote_contract (c : Contract) : Remote (.put (.contract c)) :=
  ⟨fun _ => ⟨rfl, rfl, rfl, rfl, rfl⟩, fun _ _ => trivial, fun _ _ => trivial⟩

private theorem remote_suggestion (g : Suggestion) : Remote (.put (.suggestion g)) :=
  ⟨fun _ => ⟨rfl, rfl, rfl, rfl, rfl⟩, fun _ _ => trivial, fun _ _ => trivial⟩

private theorem remote_notify (n : Notice) : Remote (.notify n) :=
  ⟨fun _ => ⟨rfl, rfl, rfl, rfl, rfl⟩, fun _ _ => trivial, fun _ _ => trivial⟩

private theorem remote_payout (cid : Uuid) (isk : Cents) : Remote (.payout cid isk) :=
  ⟨fun _ => ⟨rfl, rfl, rfl, rfl, rfl⟩, fun _ _ => trivial, fun _ _ => trivial⟩

private theorem remote_audit (rid : Uuid) (isk : Cents) : Remote (.audit rid isk) :=
  ⟨fun _ => ⟨rfl, rfl, rfl, rfl, rfl⟩, fun _ _ => trivial, fun _ _ => trivial⟩

theorem uncharged_recomputeItemStatus (itemId : Uuid) (demotion : DeliveredDemotion) :
    Uncharged plan q (recomputeItemStatus itemId demotion) := by
  refine calm_bind (calm_select _) fun current => ?_
  split
  · exact calm_pure _
  · refine calm_bind (calm_select _) fun _ => ?_
    exact calm_bind (uncharged_updateItems fun _ _ => rfl) fun _ => calm_pure _

private theorem uncharged_recomputeItemStatusesBulk (itemIds : List Uuid) :
    Uncharged plan q (recomputeItemStatusesBulk itemIds) :=
  uncharged_updateItems fun _ _ => rfl

private theorem uncharged_updateClaimStatus (claimId : Uuid) (guard : Claim → Bool)
    (status : ClaimStatus) : Uncharged plan q (updateClaimStatus claimId guard status) := by
  refine calm_bind (uncharged_change fun _ _ => remote_claim _) fun changed => ?_
  refine calm_forM (fun c => ?_) changed
  split
  · exact calm_bind (uncharged_change fun _ _ => remote_claimItem _) fun _ => calm_pure _
  · exact calm_pure _

theorem uncharged_completeClaim (active : Option Claim) (newStatus : ListItemStatus) :
    Uncharged plan q (completeClaim active newStatus) := by
  unfold completeClaim
  split
  · exact calm_pure _
  · split
    · refine calm_bind (uncharged_read _) fun allDone => ?_
      split
      · exact uncharged_updateClaimStatus _ _ _
      · exact calm_pure _
    · exact calm_pure _

theorem uncharged_markDelivered (userId listId itemId : Uuid) (lastHauler : Option Uuid) :
    Uncharged plan q (markDelivered userId listId itemId lastHauler) := by
  refine calm_bind (calm_select _) fun cur => calm_bind (calm_check _) fun _ =>
    calm_bind (uncharged_lockList _) fun _ => calm_bind ?_ fun status =>
    calm_bind (calm_check _) fun _ => calm_bind (calm_check _) fun _ =>
    calm_bind (uncharged_updateItems fun _ _ => rfl) fun _ => calm_pure _
  refine calm_reads fun st s ws a hact => ?_
  simp only [Option.bind_eq_bind, Option.bind_eq_some_iff, Option.ite_none_right_eq_some,
    Option.some.injEq, Prod.mk.injEq] at hact
  obtain ⟨_, -, -, rfl, -⟩ := hact
  rfl

private theorem uncharged_insertClaimItems (claimId : Uuid) (itemIds : List Uuid) :
    Uncharged plan q (insertClaimItems claimId itemIds) := by
  refine calm_bind (uncharged_insert fun w hw => ?_) fun _ =>
    calm_bind (uncharged_recomputeItemStatusesBulk _) fun _ => calm_pure _
  obtain ⟨_, -, rfl⟩ := List.mem_map.mp hw
  exact remote_claimItem _

theorem uncharged_createClaim (userId listId : Uuid) (itemIds : List Uuid) (claimId : Uuid) :
    Uncharged plan q (createClaim userId listId itemIds claimId) := by
  refine calm_bind (calm_select _) fun cur => calm_bind (calm_check _) fun _ =>
    calm_bind (calm_check _) fun _ => calm_bind (uncharged_lockList _) fun _ =>
    calm_bind (calm_select _) fun _ => calm_bind (uncharged_insert fun w hw => ?_) fun _ =>
    uncharged_insertClaimItems _ _
  obtain rfl := List.mem_singleton.mp hw
  exact remote_claim _

private theorem uncharged_openClaim (userId claimId : Uuid) :
    Uncharged plan q (openClaim userId claimId) :=
  calm_bind (calm_select _) fun _ => calm_bind (calm_check _) fun _ =>
    calm_bind (calm_check _) fun _ => calm_pure _

theorem uncharged_addClaimItems (userId claimId : Uuid) (itemIds : List Uuid) :
    Uncharged plan q (addClaimItems userId claimId itemIds) :=
  calm_bind (uncharged_openClaim _ _) fun _ => calm_bind (calm_check _) fun _ =>
    calm_bind (uncharged_lockList _) fun _ => calm_bind (calm_select _) fun _ =>
    uncharged_insertClaimItems _ _

theorem uncharged_removeClaimItem (userId claimId itemId : Uuid) :
    Uncharged plan q (removeClaimItem userId claimId itemId) :=
  calm_bind (uncharged_openClaim _ _) fun _ => calm_bind (uncharged_lockList _) fun _ =>
    calm_bind (uncharged_change fun _ _ => remote_dropClaimItem _) fun _ =>
    calm_bind (calm_check _) fun _ => calm_bind (uncharged_recomputeItemStatus _ _) fun _ =>
    calm_pure _

theorem uncharged_releaseClaim (userId claimId : Uuid) :
    Uncharged plan q (releaseClaim userId claimId) :=
  calm_bind (uncharged_openClaim _ _) fun _ => calm_bind (uncharged_lockList _) fun _ =>
    calm_bind (uncharged_read _) fun _ => calm_bind (uncharged_updateClaimStatus _ _ _) fun _ =>
    calm_bind (uncharged_recomputeItemStatusesBulk _) fun _ => calm_pure _

private theorem uncharged_lockEditable (listId itemId : Uuid) (action : String) :
    Uncharged plan q (lockEditable listId itemId action) :=
  calm_bind (uncharged_lockList _) fun _ => calm_bind (uncharged_lockItem _ _) fun _ =>
    calm_check _

theorem uncharged_patchItem (userId listId itemId : Uuid) (body : Api.Lists.PatchItemBody) :
    Uncharged plan q (patchItem userId listId itemId body) := by
  refine calm_bind (calm_select _) fun _ => calm_bind (calm_check _) fun _ =>
    calm_bind (calm_check _) fun _ => calm_bind (calm_check _) fun _ =>
    calm_bind (uncharged_lockEditable _ _ _) fun _ => ?_
  have assign (b : Api.Lists.PatchItemBody) : Uncharged plan q
      (updateItems (fun _ => Api.Lists.onItem listId itemId)
        fun _ => Api.Lists.PatchItemBody.assign b) :=
    uncharged_updateItems fun _ li => rfl
  have last {b : Prop} [Decidable b] : Uncharged plan q (if b then (do
      let _ ← updateItems (fun _ => Api.Lists.onItem listId itemId) fun _ =>
        Api.Lists.PatchItemBody.assign { body with qtyRequested := none }
      pure ()) else pure () : Program Unit) := by
    split
    · exact calm_bind (assign _) fun _ => calm_pure _
    · exact calm_pure _
  simp only
  split
  · exact calm_bind (assign _) fun _ => calm_bind (calm_pure _) fun _ => last
  · exact calm_bind (calm_pure _) fun _ => last

theorem uncharged_setListTip (userId listId : Uuid) (tipPct : ℚ) :
    Uncharged plan q (setListTip userId listId tipPct) := by
  refine calm_bind (calm_select _) fun cur => calm_bind (calm_check _) fun _ =>
    calm_bind (calm_check _) fun _ => calm_bind (calm_check _) fun _ =>
    calm_bind (uncharged_lockList _) fun _ => ?_
  have lists : Uncharged plan q (updateLists (fun _ l => decide (l.id = listId))
      fun l => { l with tipPct := Api.Lists.storedTip tipPct }) :=
    uncharged_updateLists _ fun _ => rfl
  have dues : Uncharged plan q (updateReimbursements (Api.Lists.pendingOnList listId)
      (fun r => decide (Base.Numeric.Fits 24 (Api.Lists.retip tipPct r).tipIsk ∧
        Base.Numeric.Fits 24 (Api.Lists.retip tipPct r).totalIsk)) (Api.Lists.retip tipPct)) :=
    uncharged_updateReimbursements fun _ _ => rfl
  simp only
  split
  · exact calm_bind (calm_select _) fun _ => calm_bind lists fun _ => calm_bind dues fun _ =>
      calm_pure _
  · exact calm_bind lists fun _ => calm_bind dues fun _ => calm_pure _

private theorem uncharged_updateContract {cid : Uuid} {fits : Shop → Contract → Bool}
    {set : Shop → Contract → Contract} : Uncharged plan q (updateContract cid fits set) :=
  uncharged_change fun _ _ => remote_contract _

private theorem uncharged_updateSuggestions {p : Shop → Suggestion → Bool}
    {set : Suggestion → Suggestion} :
    Uncharged plan q (change (·.suggestions) (fun g => Row.suggestion g.id) p (fun _ _ => true)
      fun _ g => .put (.suggestion (set g))) :=
  uncharged_change fun _ _ => remote_suggestion _

private theorem uncharged_autoClose (listId : Uuid) :
    Uncharged plan q (autoCloseListIfComplete listId) :=
  calm_bind (uncharged_updateLists (fun l => { l with status := .closed }) fun _ => rfl)
    fun _ => calm_pure _

private theorem due_settled {r : Reimbursement} (live : r.status ≠ .cancelled)
    (settledAt : Timestamp)
    (settledBy : Option Uuid) : dueOf (settled settledAt settledBy r) = dueOf r := by
  simp [dueOf, settled, live]

private theorem uncharged_settleViaContract (cid : Uuid) (now : Timestamp) :
    Uncharged plan q (settleViaContract cid now) := by
  refine calm_bind (uncharged_lockOne _ _) fun locked => calm_bind (calm_check _) fun c =>
    calm_bind (uncharged_updateReimbursements fun _ live => due_settled live _ _) fun rows => ?_
  split
  · exact calm_pure _
  · exact calm_bind (uncharged_flipItems _) fun _ => calm_bind uncharged_updateContract fun _ =>
      calm_bind (uncharged_read _) fun listIds =>
      calm_bind (calm_forM uncharged_autoClose _) fun _ => uncharged_read _

private theorem uncharged_fireAll (infos : List Notice) :
    Uncharged plan q (infos.forM fireWebhook) := by
  refine calm_forM (fun n => calm_statement fun st s ws a _ _ hact => ?_) infos
  obtain ⟨rfl, -⟩ := Prod.mk.inj (Option.some.inj hact)
  refine silent_remote fun w hw => ?_
  obtain rfl := List.mem_singleton.mp hw
  exact remote_notify n

private theorem uncharged_unbindReimbursements (cid : Uuid) :
    Uncharged plan q (unbindReimbursements cid) :=
  uncharged_updateReimbursements fun _ _ => rfl

theorem uncharged_handleContractTerminal (u : Worker.Terminal.UpsertedContract)
    (now : Timestamp) : Uncharged plan q (handleContractTerminal u now) := by
  unfold handleContractTerminal
  split
  · exact calm_bind (uncharged_settleViaContract _ _) fun infos => uncharged_fireAll infos
  · split
    · exact calm_bind (uncharged_unbindReimbursements _) fun _ =>
        calm_bind uncharged_updateSuggestions fun _ => calm_bind uncharged_updateContract fun _ =>
        calm_pure _
    · exact calm_pure _

private theorem uncharged_finalizeLink (x : LinkRows) (now : Timestamp) :
    Uncharged plan q (finalizeLink x now) := by
  refine calm_bind (uncharged_updateReimbursements fun _ _ => rfl) fun _ =>
    calm_bind uncharged_updateContract fun _ => ?_
  split
  · exact uncharged_settleViaContract _ _
  · exact calm_pure _

private theorem uncharged_confirmSuggestion (g : Suggestion) :
    Uncharged plan q (confirmSuggestion g) := by
  refine calm_statement fun st s ws u _ _ hact => ?_
  split at hact
  · split at hact
    · cases hact
    · obtain ⟨rfl, -⟩ := Prod.mk.inj (Option.some.inj hact)
      exact silent_remote (by simp [remote_suggestion])
  · obtain ⟨rfl, -⟩ := Prod.mk.inj (Option.some.inj hact)
    exact silent_nil

private theorem uncharged_upsertConfirmed (cid rid newId : Uuid) :
    Uncharged plan q (upsertConfirmed cid rid newId) := by
  refine calm_statement fun st s ws u _ _ hact => ?_
  split at hact
  · cases hact
  · split at hact <;> split at hact
    · obtain ⟨rfl, -⟩ := Prod.mk.inj (Option.some.inj hact)
      exact silent_remote (by simp [remote_suggestion])
    · cases hact
    · obtain ⟨rfl, -⟩ := Prod.mk.inj (Option.some.inj hact)
      exact silent_remote (by simp [remote_suggestion])
    · cases hact

private theorem uncharged_link (x : LinkRows) (userId : Uuid) (now : Timestamp)
    {confirm : Program Unit} (confirmed : Uncharged plan q confirm) : Uncharged plan q (do
      checkLink x userId
      confirm
      let infos ← finalizeLink x now
      infos.forM fireWebhook) :=
  calm_bind (calm_select _) fun _ => calm_bind confirmed fun _ =>
    calm_bind (uncharged_finalizeLink x now) fun infos => uncharged_fireAll infos

theorem uncharged_doConfirm (userId suggestionId : Uuid) (now : Timestamp) :
    Uncharged plan q (doConfirm userId suggestionId now) := by
  refine calm_bind (calm_reads fun st s ws a hact => ?_) fun x => calm_bind (calm_check _)
    fun _ => uncharged_link x.2 userId now (uncharged_confirmSuggestion x.1)
  simp only [Option.bind_eq_bind, Option.bind_eq_some_iff, Option.ite_none_right_eq_some,
    Option.some.injEq, Prod.mk.injEq] at hact
  obtain ⟨_, -, _, -, -, rfl, -⟩ := hact
  rfl

theorem uncharged_doReject (userId suggestionId : Uuid) :
    Uncharged plan q (doReject userId suggestionId) := by
  refine calm_bind (calm_reads fun st s ws a hact => ?_) fun x => calm_bind (calm_check _)
    fun _ => calm_bind (calm_check _) fun _ => calm_bind (calm_select _) fun _ =>
    calm_bind uncharged_updateSuggestions fun _ => calm_pure _
  simp only [Option.bind_eq_bind, Option.bind_eq_some_iff, Option.ite_none_right_eq_some,
    Option.some.injEq, Prod.mk.injEq] at hact
  obtain ⟨_, -, _, -, -, rfl, -⟩ := hact
  rfl

theorem uncharged_doManualLink (userId contractId reimbursementId newId : Uuid)
    (now : Timestamp) :
    Uncharged plan q (doManualLink userId contractId reimbursementId newId now) := by
  refine calm_bind (calm_reads fun st s ws a hact => ?_) fun x =>
    uncharged_link x userId now (uncharged_upsertConfirmed _ _ newId)
  simp only [Option.bind_eq_bind, Option.bind_eq_some_iff, Option.ite_none_right_eq_some,
    Option.some.injEq, Prod.mk.injEq] at hact
  obtain ⟨_, -, -, rfl, -⟩ := hact
  rfl

theorem uncharged_doUnlink (userId contractId : Uuid) :
    Uncharged plan q (doUnlink userId contractId) :=
  calm_bind (uncharged_lockOne _ _) fun _ => calm_bind (calm_check _) fun _ =>
    calm_bind (calm_select _) fun _ => calm_bind (calm_select _) fun _ =>
    calm_bind (calm_check _) fun _ => calm_bind (uncharged_unbindReimbursements _) fun _ =>
    calm_bind uncharged_updateSuggestions fun _ => calm_bind uncharged_updateContract fun _ =>
    calm_pure _

private theorem uncharged_settleRow (r : Reimbursement) (settledByUserId : Uuid) (now : Timestamp)
    (mine : ListItem → Bool) (rival : Reimbursement → Bool) :
    Uncharged plan q (settleRow r settledByUserId now mine rival) :=
  calm_bind (uncharged_read _) fun _ => calm_bind (calm_check _) fun _ =>
    calm_bind (uncharged_updateReimbursements fun _ live => due_settled live _ _) fun _ =>
    calm_bind (uncharged_flipItems _) fun _ => uncharged_autoClose _

private theorem uncharged_settleManual (rid settledByUserId : Uuid) (now : Timestamp) :
    Uncharged plan q (settleManual rid settledByUserId now) := by
  refine calm_bind (uncharged_lockOne _ _) fun _ => calm_bind (calm_check _) fun r =>
    calm_bind (calm_check _) fun _ => ?_
  split
  · exact uncharged_settleRow _ _ _ _ _
  · exact calm_bind (calm_check _) fun _ => uncharged_settleRow _ _ _ _ _

theorem uncharged_settleReimbursement (userId rid : Uuid) (now : Timestamp) :
    Uncharged plan q (settleReimbursement userId rid now) := by
  refine calm_bind (uncharged_read _) fun _ => calm_bind (calm_check _) fun _ =>
    calm_bind (uncharged_lockList _) fun _ => calm_bind (uncharged_lockOne _ _) fun _ =>
    calm_bind (calm_check _) fun _ => calm_bind (calm_check _) fun _ =>
    calm_bind (calm_check _) fun _ => calm_bind (calm_select _) fun _ =>
    calm_bind (calm_check _) fun _ => calm_bind (uncharged_settleManual _ _ _) fun _ =>
    calm_bind (calm_select _) fun _ => calm_bind (calm_select _) fun _ => ?_
  exact uncharged_fireAll [_]

theorem uncharged_upsertContract (u : Settlement.ContractUpsert) (newId : Uuid) :
    Uncharged plan q (upsertContract u newId) := by
  refine calm_bind (uncharged_lockOne _ _) fun prior => ?_
  cases prior with
  | some c => exact calm_bind uncharged_updateContract fun _ => calm_pure _
  | none =>
    refine uncharged_insert fun w hw => ?_
    obtain rfl := List.mem_singleton.mp hw
    exact remote_contract _

private theorem uncharged_stampReimbursements (payout : Cents) (rows : List Reimbursement) :
    Uncharged plan q (stampReimbursements payout rows) := by
  unfold stampReimbursements
  exact uncharged_change fun _ _ => remote_audit _ _

theorem uncharged_verifyContract (limit1 : List Payer → Option Payer) (cid : Uuid) :
    Uncharged plan q (verifyContractAgainstJournal limit1 cid) := by
  refine calm_bind (uncharged_lockOne _ _) fun locked => ?_
  cases locked with
  | none => exact calm_pure _
  | some c =>
    refine calm_bind (uncharged_read _) fun _ => calm_bind (uncharged_read _) fun _ => ?_
    split
    · exact calm_bind (uncharged_change fun _ _ => remote_payout _ _) fun _ =>
        calm_bind (uncharged_read _) fun _ =>
        calm_bind (uncharged_stampReimbursements _ _) fun _ => calm_pure _
    · exact calm_pure _

end JitaCart.Concurrent.Postings
