/- module: JitaCart/Items/Effect
   source: backend/crates/api/src/fulfillment.rs, backend/crates/api/src/contracts.rs,
     backend/crates/settlement/src/lib.rs
   digest: What an accepted request does to items, purchases and reimbursement statuses. -/

import JitaCart.Items.Settled

set_option autoImplicit false
set_option relaxedAutoImplicit false

namespace JitaCart.Items

open Schema Base.Table Base.Request Directory Settlement Operations Books
open Api.Extract Api.ItemStatus Api.Claims Api.Fulfillments Api.Reimbursements Api.Lists
open Api.Contracts Worker.Match Worker.Terminal

/-- Identity, parties and status of a reimbursement. -/
def face (r : Reimbursement) : Uuid × (Uuid × Uuid × Option Uuid × Bool) × ReimbursementStatus :=
  (r.id, parties r, r.status)

/-- Nothing moved that item statuses and coverage depend on. -/
structure Quiet (s s' : Db) : Prop where
  items : s'.listItems = s.listItems
  fulfillments : s'.fulfillments = s.fulfillments
  claimItems : s'.claimItems = s.claimItems
  faces : s'.reimbursements.map face = s.reimbursements.map face

/-- Bound to the contract once `rid` is linked to it. -/
def boundOrLinked (cid rid : Uuid) (r : Reimbursement) : Bool :=
  boundTo cid r || decide (r.id = rid)

/-- When a request settles a contract: the reimbursements bound to it then. A link settles only on
a finished contract. -/
def settles (s : Db) : Op → Option (Reimbursement → Bool)
  | .settleViaContract cid _ => some (boundTo cid)
  | .handleContractTerminal u _ =>
    if u.status.isTerminalSuccess then some (boundTo u.contractId) else none
  | .doConfirm _ gid _ => (s.suggestion? gid).bind fun g =>
    ((s.contract? g.contractId).filter (·.status.isTerminalSuccess)).map fun c =>
      boundOrLinked c.id g.reimbursementId
  | .doManualLink _ cid rid _ _ =>
    ((s.contract? cid).filter (·.status.isTerminalSuccess)).map fun c => boundOrLinked c.id rid
  | _ => none

/-- What an accepted request does. Claims are moved by a bulk recompute of the items they touch;
a contract is settled after the request's own link. -/
inductive Effect (s : Db) : Op → Db → Prop
  | quiet {o : Op} {s' : Db} (same : Quiet s s') : Effect s o s'
  | added {o : Op} {m s' : Db} {listId userId : Uuid} {lines : List NewLine} {ids : List Uuid}
      (h : insertItems m listId userId lines ids = .ok s') (same : Quiet s m)
      (books : (ledger m).Ok)
      (positive : ∀ n ∈ lines, 0 < n.qty) : Effect s o s'
  | claims {o : Op} {m s' : Db} {sel : ListItem → Bool} (stock : Stock s')
      (h : s' = { m with listItems := updateWhere sel (recomputedRow m) m.listItems })
      (items : m.listItems = s.listItems) (fulfillments : m.fulfillments = s.fulfillments)
      (reimbursements : m.reimbursements = s.reimbursements) : Effect s o s'
  | bought {s' : Db} {userId listId itemId : Uuid} {body : RecordFulfillmentBody}
      {gen : Generated} (h : recordFulfillment s userId listId itemId body gen = .ok s') :
      Effect s (.recordFulfillment userId listId itemId body gen) s'
  | reversed {o : Op} {s' : Db} {userId fulfillmentId newId : Uuid} {now : Timestamp}
      (h : reverseFulfillment s userId fulfillmentId newId now = .ok s') : Effect s o s'
  | delivered {o : Op} {s' : Db} {userId listId itemId : Uuid} {lastHauler : Option Uuid}
      (h : markDelivered s userId listId itemId lastHauler = .ok s') : Effect s o s'
  | settledByHand {o : Op} {s' : Db} {rid settledBy : Uuid} {now : Timestamp}
      (h : settleManual s rid settledBy now = .ok s') : Effect s o s'
  | settledByContract {o : Op} {m s' : Db} {cid : Uuid} {now : Timestamp}
      {infos : List ContractSettledReimbursement} {bound : Reimbursement → Bool}
      (h : settleViaContract m cid now = .ok (infos, s')) (same : Quiet s m)
      (books : (ledger m).Ok) (call : settles s o = some bound)
      (rows : m.reimbursements.map (fun r => (face r, boundTo cid r)) =
        s.reimbursements.map fun r => (face r, bound r)) : Effect s o s'

private theorem Quiet.refl (s : Db) : Quiet s s := ⟨rfl, rfl, rfl, rfl⟩

private theorem Quiet.paperwork {s s' : Db} (same : Paperwork s s') : Quiet s s' :=
  ⟨same.items, same.purchases, same.claimItems, same.map_reimbursements face fun _ => rfl⟩

private theorem effect_finalizeLink {s m s' : Db} {o : Op} {c : Contract} {rid : Uuid}
    {now : Timestamp} (h : finalizeLink m c rid now = .ok s') (books : (ledger m).Ok)
    (items : m.listItems = s.listItems) (fulfillments : m.fulfillments = s.fulfillments)
    (claimItems : m.claimItems = s.claimItems)
    (reimbursements : m.reimbursements = s.reimbursements)
    (call : c.status.isTerminalSuccess = true → settles s o = some (boundOrLinked c.id rid)) :
    Effect s o s' := by
  set s₁ := setExpectedTotal (bindReimbursement m c.id rid) c.id
    (boundTotal (bindReimbursement m c.id rid) c.id) with hs₁
  have rows : s₁.reimbursements = updateWhere (fun r => decide (r.id = rid))
      (fun r => { r with contractId := some c.id }) s.reimbursements := by
    rw [← reimbursements]
    rfl
  have same : Quiet s s₁ := by
    refine ⟨items, fulfillments, claimItems, ?_⟩
    rw [rows]
    exact map_updateWhere face _ fun _ _ _ => rfl
  rcases finalizeLink_ok h with ⟨finished, infos, hsettle⟩ | ⟨-, rfl⟩
  · refine .settledByContract hsettle same (ledger_bindReimbursement m c.id rid ▸ books)
      (call finished) ?_
    rw [rows, updateWhere, List.map_map]
    apply List.map_congr_left
    intro r _
    by_cases hid : r.id = rid
    · simp [hid, face, parties, boundTo, boundOrLinked]
    · simp [hid, boundOrLinked]
  · exact .quiet same

private theorem effect_removeClaimItem {s s' : Db} {o : Op} {userId claimId itemId : Uuid}
    (st : Stock s) (keyed : Keyed ListItem.id s.listItems)
    (h : removeClaimItem s userId claimId itemId = .ok s') : Effect s o s' := by
  have stock := st.removeClaimItem keyed h
  obtain ⟨status, h⟩ := removeClaimItem_ok h
  have keyed' : Keyed ListItem.id (withoutClaimRow s claimId itemId).listItems := keyed
  obtain ⟨li, -, ⟨-, rfl, -⟩ | ⟨-, -, -, hs'⟩⟩ := recompute_forbid keyed' h
  · have none_moved := updateWhere_eq_self (p := fun _ => false)
      (f := recomputedRow (withoutClaimRow s claimId itemId)) (t := s.listItems) fun _ _ => rfl
    have hs' : withoutClaimRow s claimId itemId = { withoutClaimRow s claimId itemId with
        listItems := updateWhere (fun _ => false)
          (recomputedRow (withoutClaimRow s claimId itemId)) s.listItems } := by
      rw [none_moved]
      rfl
    exact .claims stock hs' rfl rfl rfl
  · exact .claims stock hs' rfl rfl rfl

theorem effect_of_ok {s s' : Db} {o : Op} (ok : (ledger s).Ok) (st : Stock s)
    (h : apply o s = .ok s') : Effect s o s' := by
  have keyed := keyed_items ok
  cases clerical : isPaperwork o with
  | true => exact .quiet (.paperwork (paperwork_of_ok clerical h))
  | false =>
    cases o <;> simp only [apply, mapError_eq_ok, map_eq_ok, Prod.exists, exists_eq_right] at h
    case directory d =>
      simp only [changeDirectory, bind_eq_ok, require_eq_ok] at h
      obtain ⟨-, -, h⟩ := h
      obtain rfl := (Except.ok.inj h).symm
      exact .quiet ⟨rfl, rfl, rfl, rfl⟩
    case create =>
      obtain ⟨role, g, -, -, positive, fresh, h⟩ := create_ok h
      exact .added h ⟨rfl, rfl, rfl, rfl⟩ (ledgerOk_newList ok fresh rfl) positive
    case addItems =>
      obtain ⟨l, role, -, -, positive, h⟩ := addItems_ok h
      exact .added h (.refl s) ok positive
    case patchListStatus =>
      obtain ⟨p, rfl⟩ := patchListStatus_ok h
      exact .quiet ⟨rfl, rfl, rfl, rfl⟩
    case createClaim =>
      have stock := st.createClaim h
      obtain ⟨-, -, h⟩ := createClaim_ok h
      exact .claims stock (recomputeItemStatusesBulk_ok (insertClaimItems_ok h)) rfl rfl rfl
    case addClaimItems =>
      have stock := st.addClaimItems h
      obtain ⟨c, -, -, -, h⟩ := addClaimItems_ok h
      exact .claims stock (recomputeItemStatusesBulk_ok (insertClaimItems_ok h)) rfl rfl rfl
    case removeClaimItem => exact effect_removeClaimItem st keyed h
    case releaseClaim userId claimId =>
      have stock := st.releaseClaim h
      obtain ⟨c, -, -, h⟩ := releaseClaim_ok h
      obtain ⟨claims, claimItems, shape⟩ :=
        updateClaimStatus_shape s claimId (fun _ => true) .released
      refine .claims stock (recomputeItemStatusesBulk_ok h) ?_ ?_ ?_ <;> rw [shape]
    case recordFulfillment => exact .bought h
    case reverseFulfillment => exact .reversed h
    case markDelivered => exact .delivered h
    case setListTip =>
      obtain ⟨-, -, rfl⟩ := setListTip_ok h
      exact .quiet ⟨rfl, rfl, rfl, map_updateWhere face _ fun _ _ _ => rfl⟩
    case patchListPayer =>
      obtain ⟨payer, l, -, -, -, rfl⟩ := patchListPayer_ok h
      exact .quiet ⟨rfl, rfl, rfl, rfl⟩
    case doConfirm =>
      obtain ⟨g, c, r, hg, hc, hr, -, -, -, h⟩ := doConfirm_ok h
      refine effect_finalizeLink h ok rfl rfl rfl rfl fun finished => ?_
      simp [settles, hg, hc, finished, (lookup_mem hr).2]
    case doManualLink userId cid rid newId now =>
      obtain ⟨c, r, s₁, hc, hr, -, -, hup, h⟩ := doManualLink_ok h
      have call : c.status.isTerminalSuccess = true →
          settles s (.doManualLink userId cid rid newId now) =
            some (boundOrLinked c.id r.id) := fun finished => by
        simp [settles, hc, finished, (lookup_mem hr).2]
      obtain ⟨-, ⟨-, rfl⟩ | ⟨-, -, rfl⟩⟩ := upsertConfirmed_ok hup
      · exact effect_finalizeLink h ok rfl rfl rfl rfl call
      · exact effect_finalizeLink h ok rfl rfl rfl rfl call
    case settleReimbursement =>
      obtain ⟨r, -, -, h⟩ := settleReimbursement_ok h
      exact .settledByHand h
    case settleManual => exact .settledByHand h
    case settleViaContract =>
      obtain ⟨infos, h⟩ := h
      exact .settledByContract h (.refl s) ok rfl rfl
    case handleContractTerminal =>
      rcases handleContractTerminal_ok h with ⟨success, infos, h⟩ | ⟨-, rfl⟩ | ⟨-, -, rfl⟩
      · exact .settledByContract h (.refl s) ok (if_pos success) rfl
      · exact .quiet ⟨rfl, rfl, rfl, map_updateWhere face _ fun _ _ _ => rfl⟩
      · exact .quiet (.refl _)
    all_goals cases clerical

end JitaCart.Items
