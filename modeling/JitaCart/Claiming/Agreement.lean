/- module: JitaCart/Claiming/Agreement
   source: backend/crates/api/src/fulfillment/claims.rs,
     backend/migrations/20260427000000_init.sql (sync_claim_items_active)
   digest: When a request keeps claim rows active exactly with their claim. -/

import JitaCart.Claiming.Rows

set_option autoImplicit false
set_option relaxedAutoImplicit false

namespace JitaCart.Claiming

open Schema Base.Table Base.Request Base.Numeric Settlement Operations
open Api.Extract Api.ItemStatus Api.Fulfillments Api.Reimbursements Api.Lists
open Api.Contracts Worker.Match Worker.Terminal
open Api.Claims (updateClaimStatus)
open Books (Paperwork isPaperwork paperwork_of_ok)

/-- A claim row is active exactly while its claim is. -/
def Agrees (s : Db) : Prop :=
  ∀ ci ∈ s.claimItems, ∀ c ∈ s.claim? ci.claimId, (ci.active = true ↔ c.status = .active)

/-- What a request keeps: the tables, the claims there were, and the agreement. -/
structure Kept (s s' : Db) : Prop where
  rows : Rows s'
  known : ∀ id, (s.claim? id).isSome = true → (s'.claim? id).isSome = true
  agrees : Agrees s → Agrees s'

private theorem Kept.trans {s m s' : Db} (h : Kept s m) (k : Kept m s') : Kept s s' :=
  ⟨k.rows, fun id hid => k.known id (h.known id hid), fun a => k.agrees (h.agrees a)⟩

private theorem Rows.untouched {s s' : Db} (rows : Rows s') (claims : s'.claims = s.claims)
    (claimItems : s'.claimItems = s.claimItems) : Kept s s' := by
  have same : ∀ id, s'.claim? id = s.claim? id := fun id => by
    unfold Db.claim?
    rw [claims]
  refine ⟨rows, fun id hid => by rwa [same], fun agrees ci hci c hc => ?_⟩
  rw [same] at hc
  exact agrees ci (claimItems ▸ hci) c hc

private theorem claimItems_recomputeBulk {m s' : Db} {itemIds : List Uuid}
    (h : recomputeItemStatusesBulk m itemIds = .ok s') :
    s'.claims = m.claims ∧ s'.claimItems = m.claimItems := by
  obtain rfl := recomputeItemStatusesBulk_ok h
  exact ⟨rfl, rfl⟩

theorem claimItems_recompute {m s' : Db} {itemId : Uuid} {demotion : DeliveredDemotion}
    {status : ListItemStatus} (h : recomputeItemStatus m itemId demotion = .ok (status, s')) :
    s'.claims = m.claims ∧ s'.claimItems = m.claimItems := by
  obtain ⟨items, rfl⟩ := Books.recompute_shape h
  exact ⟨rfl, rfl⟩

theorem kept_removeClaimItem {s s' : Db} {cur : CurrentClaim} {itemId : Uuid} (rows : Rows s)
    (h : Api.Handlers.removeClaimItem s cur itemId = .ok s') : Kept s s' := by
  obtain ⟨-, -, -, status, h⟩ := Api.Handlers.removeClaimItem_ok h
  obtain ⟨claims, claimItems⟩ := claimItems_recompute h
  have same : ∀ id, s'.claim? id = s.claim? id := fun id => by
    unfold Db.claim?
    rw [claims]
    rfl
  refine ⟨rows.withoutClaimRow h, fun id hid => by rwa [same], fun agrees ci hci c hc => ?_⟩
  rw [claimItems] at hci
  exact agrees ci (List.mem_filter.mp hci).1 c (same _ ▸ hc)

/-- The trigger clears the rows of an active claim; those of any other claim are clear already. -/
private theorem agrees_updateClaimStatus {s : Db} {claimId : Uuid} {guard : Claim → Bool}
    {status : ClaimStatus} (inactive : status ≠ .active) (agrees : Agrees s) :
    Agrees (updateClaimStatus s claimId guard status) := by
  rcases updateClaimStatus_cases s claimId guard inactive with same | ⟨c, hc, -, moved⟩
  · rw [same]
    exact agrees
  · rw [moved]
    intro ci' hci' x' hx'
    obtain ⟨ci, hci, rfl⟩ := mem_updateWhere.mp hci'
    have hx' : (s.claim? ci.claimId).map (fun x => if decide (x.id = claimId)
        then { x with status := status } else x) = some x' := by
      rw [← hx']
      unfold Db.claim?
      rw [lookup_updateWhere (by exact fun _ => rfl)]
      congr 2
      split <;> rfl
    obtain ⟨x, hx, rfl⟩ := Option.map_eq_some_iff.mp hx'
    have old := agrees ci hci x hx
    by_cases hid : ci.claimId = claimId
    · obtain rfl : x = c := Option.some.inj (hx.symm.trans (hid ▸ hc))
      have hxid : x.id = claimId := (lookup_mem hc).2
      by_cases active : x.status = .active
      · simp [hid, hxid, active, inactive]
      · have cleared : ci.active = false := by
          simpa [active] using old
        simp [hid, hxid, active, inactive, cleared]
    · have hxid : x.id ≠ claimId := fun h => hid ((lookup_mem hx).2.symm.trans h)
      simpa [hid, hxid] using old

private theorem known_updateClaimStatus {s : Db} {claimId : Uuid} {guard : Claim → Bool}
    {status : ClaimStatus} (inactive : status ≠ .active) (id : Uuid) :
    ((updateClaimStatus s claimId guard status).claim? id).isSome = (s.claim? id).isSome := by
  rcases updateClaimStatus_cases s claimId guard inactive with same | ⟨c, -, -, moved⟩
  · rw [same]
  · rw [moved]
    unfold Db.claim?
    rw [lookup_updateWhere (by exact fun _ => rfl), Option.isSome_map]

theorem kept_releaseClaim {s s' : Db} {cur : CurrentClaim} (rows : Rows s)
    (h : Api.Handlers.releaseClaim s cur = .ok s') : Kept s s' := by
  obtain ⟨-, -, h⟩ := Api.Handlers.releaseClaim_ok h
  obtain ⟨claims, claimItems⟩ := claimItems_recomputeBulk h
  refine ⟨rows.releaseClaim h, fun id hid => ?_, fun agrees => ?_⟩
  · unfold Db.claim? at hid ⊢
    rw [claims]
    exact (known_updateClaimStatus (by decide) id).trans hid
  · have agrees' : Agrees (updateClaimStatus s cur.claimId (fun _ => true) .released) :=
      agrees_updateClaimStatus (by decide) agrees
    intro ci hci c hc
    unfold Db.claim? at hc
    rw [claims] at hc
    exact agrees' ci (claimItems ▸ hci) c hc

theorem completeClaim_cases (s : Db) (active : Option Claim) (status : ListItemStatus) :
    completeClaim s active status = s ∨ ∃ c ∈ active, completeClaim s active status =
      updateClaimStatus s c.id (fun x => decide (x.status = .active)) .completed := by
  unfold completeClaim
  split
  · exact .inl rfl
  · split
    · exact .inr ⟨_, rfl, rfl⟩
    · exact .inl rfl

private theorem kept_completeClaim {s : Db} {active : Option Claim} {status : ListItemStatus}
    (rows : Rows s) : Kept s (completeClaim s active status) := by
  have rows' : Rows (completeClaim s active status) := rows.completeClaim
  rcases completeClaim_cases s active status with same | ⟨c, -, moved⟩
  · rw [same]
    exact rows.untouched rfl rfl
  · rw [moved] at rows' ⊢
    exact ⟨rows', fun id hid => (known_updateClaimStatus (by decide) id).trans hid,
      agrees_updateClaimStatus (by decide)⟩

theorem kept_recordFulfillment {s s' : Db} {cur : CurrentList} {itemId : Uuid}
    {body : RecordFulfillmentBody} {gen : Generated} (rows : Rows s)
    (h : Api.Handlers.recordFulfillment s cur itemId body gen = .ok s') : Kept s s' := by
  obtain ⟨-, -, li, f, s₁, status, s₂, hli, -, hf, fresh, rfl, hrec, hup⟩ :=
    Api.Handlers.recordFulfillment_ok h
  obtain rfl : f.listItemId = itemId := by rw [hf]; rfl
  obtain ⟨claims, claimItems⟩ := claimItems_recompute hrec
  have rows₂ : Rows s₂ := rows.purchased hli fresh (by rw [hf]; rfl) hrec
  have bought : Kept s s₂ := rows₂.untouched claims claimItems
  have completed : Kept s₂ (completeClaim s₂ (activeClaim s f.listItemId) status) :=
    kept_completeClaim rows₂
  have rows' := completed.rows.upsertReimbursement hup
  obtain ⟨reimbursements, rfl⟩ := upsertReimbursement_shape hup
  exact bought.trans (completed.trans (rows'.untouched rfl rfl))

private theorem kept_of_frame {s s' : Db} (rows : Rows s) (claims : s'.claims = s.claims)
    (claimItems : s'.claimItems = s.claimItems) (items : s'.listItems = s.listItems)
    (fulfillments : s'.fulfillments = s.fulfillments)
    (lists : ∀ id, (s'.list? id).isSome = (s.list? id).isSome) : Kept s s' :=
  (rows.frame claims claimItems items fulfillments fun id hid =>
    (lists id).trans hid).untouched claims claimItems

private theorem kept_paperwork {s s' : Db} (rows : Rows s) (same : Paperwork s s') : Kept s s' :=
  kept_of_frame rows same.claims same.claimItems same.items same.purchases fun id => by
    unfold Db.list?
    rw [same.lists]

private theorem kept_settleViaContract {s s' : Db} {cid : Uuid} {now : Timestamp}
    {infos : List ContractSettledReimbursement} (rows : Rows s)
    (h : settleViaContract s cid now = .ok (infos, s')) : Kept s s' := by
  have rows' := rows.settleViaContract h
  obtain ⟨c, -, ⟨-, rfl⟩ | ⟨-, at_, m, closed, rfl, rfl⟩⟩ := settleViaContract_ok h
  · exact rows'.untouched rfl rfl
  · exact rows'.untouched rfl rfl

private theorem kept_settleManual {s s' : Db} {rid settledBy : Uuid} {now : Timestamp}
    (rows : Rows s) (h : settleManual s rid settledBy now = .ok s') : Kept s s' := by
  have rows' := rows.settleManual h
  obtain ⟨r, mine, rival, closed, -, -, -, -, rfl⟩ := settleManual_ok h
  exact rows'.untouched rfl rfl

private theorem kept_finalizeLink {s m s' : Db} {c : Contract} {rid : Uuid} {now : Timestamp}
    (rows : Rows s) (suggested : ∃ suggestions, m = { s with suggestions := suggestions })
    (h : finalizeLink m c rid now = .ok s') : Kept s s' := by
  obtain ⟨suggestions, rfl⟩ := suggested
  set s₁ := bindReimbursement { s with suggestions := suggestions } c.id rid with hs₁
  have bound : Kept s (setExpectedTotal s₁ c.id (boundTotal s₁ c.id)) :=
    kept_of_frame rows rfl rfl rfl rfl fun _ => rfl
  rcases finalizeLink_ok h with ⟨-, infos, hsettle⟩ | ⟨-, rfl⟩
  · exact bound.trans (kept_settleViaContract bound.rows hsettle)
  · exact bound

private theorem kept_insertItems {s s' : Db} {listId userId : Uuid} {lines : List NewLine}
    {ids : List Uuid} (rows : Rows s) (h : insertItems s listId userId lines ids = .ok s') :
    Kept s s' := by
  have rows' := rows.insertItems h
  obtain ⟨-, -, -, rfl⟩ := insertItems_ok h
  exact rows'.untouched rfl rfl

private theorem kept_newList {s : Db} (rows : Rows s) (l : ListRow) :
    Kept s { s with lists := s.lists ++ [l] } := by
  have rows' : Rows { s with lists := s.lists ++ [l] } :=
    rows.frame rfl rfl rfl rfl fun id hid => ?_
  · exact rows'.untouched rfl rfl
  obtain ⟨x, hx⟩ := Option.isSome_iff_exists.mp hid
  unfold Db.list? at hx ⊢
  rw [lookup_append_of_some hx]
  rfl

theorem kept_of_ok {s s' : Db} {o : Op} (rows : Rows s) (h : apply o s = .ok s') : Kept s s' := by
  cases clerical : isPaperwork o with
  | true => exact kept_paperwork rows (paperwork_of_ok clerical h)
  | false =>
    cases o <;> simp only [apply, mapError_eq_ok, map_eq_ok, Prod.exists, exists_eq_right] at h
    case directory d =>
      simp only [changeDirectory, bind_eq_ok, require_eq_ok] at h
      obtain ⟨-, -, h⟩ := h
      obtain rfl := (Except.ok.inj h).symm
      exact kept_of_frame rows rfl rfl rfl rfl fun _ => rfl
    case create limits userId groupId lines listId itemIds =>
      obtain ⟨role, g, -, -, -, -, h⟩ := create_ok h
      have listed := kept_newList rows ⟨listId, groupId, userId, .open, g.defaultTipPct, none⟩
      exact listed.trans (kept_insertItems listed.rows h)
    case addItems =>
      obtain ⟨l, role, -, -, -, h⟩ := addItems_ok h
      exact kept_insertItems rows h
    case patchListStatus =>
      obtain ⟨p, rfl⟩ := patchListStatus_ok h
      exact kept_of_frame rows rfl rfl rfl rfl (list?_updateWhere fun _ => rfl)
    case createClaim =>
      obtain ⟨cur, -, h⟩ := Api.Handlers.createClaim_iff.mp h
      exact absurd h Api.Handlers.createClaim_ne_ok
    case addClaimItems =>
      obtain ⟨cur, -, h⟩ := Api.Handlers.addClaimItems_iff.mp h
      exact absurd h Api.Handlers.addClaimItems_ne_ok
    case removeClaimItem =>
      obtain ⟨cur, -, h⟩ := Api.Handlers.removeClaimItem_iff.mp h
      exact kept_removeClaimItem rows h
    case releaseClaim =>
      obtain ⟨cur, -, h⟩ := Api.Handlers.releaseClaim_iff.mp h
      exact kept_releaseClaim rows h
    case recordFulfillment =>
      obtain ⟨cur, -, h⟩ := Api.Handlers.recordFulfillment_iff.mp h
      exact kept_recordFulfillment rows h
    case reverseFulfillment =>
      have rows' := rows.reverseFulfillment h
      obtain ⟨f, li, l, role, status, s₂, -, -, -, -, -, -, hrec, hup⟩ := reverseFulfillment_ok h
      obtain ⟨claims, claimItems⟩ := claimItems_recompute hrec
      obtain ⟨reimbursements, rfl⟩ := upsertReimbursement_shape hup
      exact rows'.untouched claims claimItems
    case markDelivered =>
      obtain ⟨li, -, -, -, rfl⟩ := markDelivered_ok h
      exact (rows.restatus (.inl rfl)).untouched rfl rfl
    case setListTip =>
      obtain ⟨-, -, rfl⟩ := setListTip_ok h
      exact kept_of_frame rows rfl rfl rfl rfl (list?_updateWhere (s := s) fun _ => rfl)
    case patchListPayer =>
      obtain ⟨payer, l, -, -, -, rfl⟩ := patchListPayer_ok h
      exact kept_of_frame rows rfl rfl rfl rfl (list?_updateWhere fun _ => rfl)
    case doConfirm =>
      obtain ⟨g, c, r, -, -, -, -, -, -, h⟩ := doConfirm_ok h
      exact kept_finalizeLink rows ⟨_, rfl⟩ h
    case doManualLink =>
      obtain ⟨c, r, s₁, -, -, -, -, hup, h⟩ := doManualLink_ok h
      obtain ⟨-, ⟨-, rfl⟩ | ⟨-, -, rfl⟩⟩ := upsertConfirmed_ok hup
      · exact kept_finalizeLink rows ⟨_, rfl⟩ h
      · exact kept_finalizeLink rows ⟨_, rfl⟩ h
    case settleReimbursement =>
      obtain ⟨r, -, -, h⟩ := settleReimbursement_ok h
      exact kept_settleManual rows h
    case settleManual => exact kept_settleManual rows h
    case settleViaContract =>
      obtain ⟨infos, h⟩ := h
      exact kept_settleViaContract rows h
    case handleContractTerminal =>
      rcases handleContractTerminal_ok h with ⟨-, infos, h⟩ | ⟨-, rfl⟩ | ⟨-, -, rfl⟩
      · exact kept_settleViaContract rows h
      · exact kept_of_frame rows rfl rfl rfl rfl fun _ => rfl
      · exact rows.untouched rfl rfl
    all_goals cases clerical

theorem rows_empty : Rows empty where
  claims := by decide
  listed := by simp [empty]
  owned := by simp [empty]
  single := by simp [empty]
  items := by decide
  fulfillments := by decide
  bought := by simp [empty]
  item := by simp [empty]

end JitaCart.Claiming
