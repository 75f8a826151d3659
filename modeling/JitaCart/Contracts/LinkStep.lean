/- module: JitaCart/Contracts/LinkStep
   source: backend/crates/api/src/contracts.rs, backend/crates/settlement/src/lib.rs,
     backend/crates/worker/src/jobs/contracts/match.rs
   digest: What an accepted request does to bindings, suggestions and contract statuses. -/

import JitaCart.Books.Conservation

set_option autoImplicit false
set_option relaxedAutoImplicit false

namespace JitaCart.Contracts

open Schema Base.Table Base.Request Directory Settlement Operations Books
open Api.Extract Api.ItemStatus Api.Claims Api.Fulfillments Api.Reimbursements Api.Lists
open Api.Contracts Worker.Match Worker.Terminal

def standing (c : Contract) : Uuid × ContractStatus := (c.id, c.status)

/-- A reimbursement row before and after: same identity and binding, pending only if it was. -/
def Aged (r r' : Reimbursement) : Prop :=
  r'.id = r.id ∧ r'.contractId = r.contractId ∧ (r'.status = .pending → r.status = .pending)

/-- Suggestions, contract statuses and bindings stay; rows may settle, and new rows are unbound. -/
structure Kept (s s' : Db) : Prop where
  suggestions : s'.suggestions = s.suggestions
  standings : s'.contracts.map standing = s.contracts.map standing
  image : ∀ r ∈ s.reimbursements, ∃ r' ∈ s'.reimbursements, Aged r r'
  origin : ∀ r' ∈ s'.reimbursements, (∃ r ∈ s.reimbursements, Aged r r') ∨
    (r'.contractId = none ∧ s.reimbursement? r'.id = none)

/-- The contract that an accepted request unbinds. -/
def unbinds : Op → Option Uuid
  | .unbindContract cid => some cid
  | .handleContractTerminal u _ =>
    if u.status.isTerminalFailure then some u.contractId else none
  | _ => none

def links (s : Db) : Op → Option Uuid
  | .doConfirm _ gid _ => (s.suggestion? gid).map (·.contractId)
  | .doManualLink _ cid _ _ _ => some cid
  | _ => none

/-- What an accepted request does to bindings and suggestions. A link confirms rows of its own pair
and may be followed by a settle. -/
inductive LinkStep (s : Db) : Op → Db → Prop
  | kept {o : Op} {s' : Db} (h : Kept s s') : LinkStep s o s'
  | upserted {u : ContractUpsert} {newId : Uuid} {out : ContractUpsertOutcome} {s' : Db}
      (h : upsertContract s u newId = .ok (out, s')) : LinkStep s (.upsertContract u newId) s'
  | rejected {o : Op} {gid : Uuid} {s' : Db}
      (h : s' = { s with
        suggestions := updateWhere (fun x => decide (x.id = gid))
          (fun x => { x with state := .rejected }) s.suggestions }) : LinkStep s o s'
  | confirmed {userId gid : Uuid} {now : Timestamp} {g : Suggestion} {r : Reimbursement} {s' : Db}
      (hg : s.suggestion? gid = some g) (pending : g.state = .pending)
      (hr : s.reimbursement? g.reimbursementId = some r) (eligible : r.status = .pending)
      (unbound : r.contractId = none)
      (h : Kept (bindReimbursement (confirmWhere s fun x => decide (x.id = gid)) g.contractId r.id)
        s') : LinkStep s (.doConfirm userId gid now) s'
  | linked {userId cid rid newId : Uuid} {now : Timestamp} {r : Reimbursement} {m s' : Db}
      (hr : s.reimbursement? rid = some r) (eligible : r.status = .pending)
      (unbound : r.contractId = none) (hup : upsertConfirmed s cid r.id newId = .ok m)
      (h : Kept (bindReimbursement m cid r.id) s') :
      LinkStep s (.doManualLink userId cid rid newId now) s'
  | unlinked {userId cid : Uuid} {s' : Db}
      (h : Kept (supersede (unbindReimbursements s cid) cid .confirmed) s') :
      LinkStep s (.doUnlink userId cid) s'
  | unbound {o : Op} {cid : Uuid} {s' : Db} (call : unbinds o = some cid)
      (h : Kept (supersede (unbindReimbursements s cid) cid .pending) s') : LinkStep s o s'
  | matched {cid issuer assignee : Uuid} {newId : Uuid → Uuid} {s' : Db}
      (parties : matchParties s cid = some (issuer, assignee))
      (nodup : ((newSuggestions s cid (suggestionsFor s cid issuer assignee) newId).map
        (·.id)).Nodup)
      (fresh : ∀ g ∈ newSuggestions s cid (suggestionsFor s cid issuer assignee) newId,
        s.suggestion? g.id = none)
      (h : s' = { s with
        suggestions :=
          s.suggestions.map (refreshSuggestion cid (suggestionsFor s cid issuer assignee)) ++
            newSuggestions s cid (suggestionsFor s cid issuer assignee) newId }) :
      LinkStep s (.runOne cid newId) s'

section Kept
variable {s s' : Db}

private theorem Aged.refl (r : Reimbursement) : Aged r r := ⟨rfl, rfl, id⟩

private theorem Kept.update {p : Reimbursement → Bool} {f : Reimbursement → Reimbursement}
    (suggestions : s'.suggestions = s.suggestions)
    (standings : s'.contracts.map standing = s.contracts.map standing)
    (rows : s'.reimbursements = updateWhere p f s.reimbursements)
    (aged : ∀ r ∈ s.reimbursements, p r = true → Aged r (f r)) : Kept s s' := by
  have each : ∀ r ∈ s.reimbursements, Aged r (if p r then f r else r) := by
    intro r hr
    split
    · exact aged r hr ‹_›
    · exact .refl r
  refine ⟨suggestions, standings, ?_, ?_⟩
  · intro r hr
    rw [rows]
    exact ⟨_, mem_updateWhere_of_mem hr, each r hr⟩
  · intro r' hr'
    rw [rows] at hr'
    obtain ⟨r, hr, rfl⟩ := mem_updateWhere.mp hr'
    exact .inl ⟨r, hr, each r hr⟩

private theorem Kept.same (suggestions : s'.suggestions = s.suggestions)
    (standings : s'.contracts.map standing = s.contracts.map standing)
    (rows : s'.reimbursements = s.reimbursements) : Kept s s' := by
  refine ⟨suggestions, standings, ?_, ?_⟩ <;> rw [rows]
  · exact fun r hr => ⟨r, hr, .refl r⟩
  · exact fun r hr => .inl ⟨r, hr, .refl r⟩

private theorem Kept.upsert {m : Db} {listId requester hauler newId : Uuid}
    (h : upsertReimbursement m listId requester hauler newId = .ok s')
    (suggestions : m.suggestions = s.suggestions) (contracts : m.contracts = s.contracts)
    (rows : m.reimbursements = s.reimbursements) : Kept s s' := by
  rcases upsertReimbursement_ok h with ⟨-, rfl⟩ | ⟨l, rp, hp, -, -, -, -, -, ⟨-, rfl⟩ | ⟨-, fresh, rfl⟩⟩
  · exact .same suggestions (by rw [contracts]) rows
  · refine .update suggestions (by rw [contracts]) (by rw [rows]) ?_
    exact fun r _ _ => ⟨rfl, rfl, id⟩
  · refine ⟨suggestions, by rw [contracts], ?_, ?_⟩
    · intro r hr
      exact ⟨r, List.mem_append_left _ (rows ▸ hr), .refl r⟩
    · intro r' hr'
      rcases List.mem_append.mp hr' with hr' | hr'
      · exact .inl ⟨r', rows ▸ hr', .refl r'⟩
      · rw [List.mem_singleton.mp hr']
        refine .inr ⟨rfl, ?_⟩
        unfold Db.reimbursement? at fresh ⊢
        rw [← rows]
        exact fresh

private theorem Kept.settleManual {rid settledBy : Uuid} {now : Timestamp}
    (h : settleManual s rid settledBy now = .ok s') : Kept s s' := by
  obtain ⟨r, mine, rival, lists, -, -, -, -, rfl⟩ := settleManual_ok h
  exact .update rfl rfl rfl fun _ _ _ => ⟨rfl, rfl, fun hp => by cases hp⟩

private theorem Kept.settleViaContract {m : Db} {cid : Uuid} {now : Timestamp}
    {infos : List ContractSettledReimbursement}
    (h : settleViaContract m cid now = .ok (infos, s'))
    (suggestions : m.suggestions = s.suggestions)
    (standings : m.contracts.map standing = s.contracts.map standing)
    (rows : m.reimbursements = s.reimbursements) : Kept s s' := by
  obtain ⟨c, -, ⟨-, rfl⟩ | ⟨-, at_, m', lists, rfl, rfl⟩⟩ := settleViaContract_ok h
  · exact .same suggestions standings rows
  · refine .update suggestions ?_ (by rw [← rows]; rfl) ?_
    · rw [← standings]
      exact map_updateWhere standing _ fun _ _ _ => rfl
    · exact fun _ _ _ => ⟨rfl, rfl, fun hp => by cases hp⟩

private theorem Kept.finalizeLink {c : Contract} {rid : Uuid} {now : Timestamp}
    (h : finalizeLink s c rid now = .ok s') : Kept (bindReimbursement s c.id rid) s' := by
  have standings : (setExpectedTotal (bindReimbursement s c.id rid) c.id
      (boundTotal (bindReimbursement s c.id rid) c.id)).contracts.map standing =
        (bindReimbursement s c.id rid).contracts.map standing :=
    map_updateWhere standing _ fun _ _ _ => rfl
  rcases finalizeLink_ok h with ⟨-, infos, hsettle⟩ | ⟨-, rfl⟩
  · exact .settleViaContract hsettle rfl standings rfl
  · exact .same rfl standings rfl

end Kept

private theorem Kept.aside {s s' : Db} (h : Aside s s') : Kept s s' :=
  .same h.suggestions (by rw [h.contracts]) h.reimbursements

theorem linkStep_of_ok {s s' : Db} {o : Op} (h : apply o s = .ok s') : LinkStep s o s' := by
  cases plain : isAside o with
  | true => exact .kept (.aside (aside_of_ok plain h))
  | false =>
    cases o <;> simp only [apply, mapError_eq_ok, map_eq_ok, Prod.exists, exists_eq_right] at h
    case create =>
      obtain ⟨role, g, -, -, -, -, h⟩ := create_ok h
      obtain ⟨-, -, -, rfl⟩ := insertItems_ok h
      exact .kept (.same rfl rfl rfl)
    case patchListStatus =>
      obtain ⟨p, rfl⟩ := patchListStatus_ok h
      exact .kept (.same rfl rfl rfl)
    case recordFulfillment =>
      obtain ⟨items, claims, claimItems, purchases, li, -, hup⟩ := recordFulfillment_upserts h
      exact .kept (.upsert hup rfl rfl rfl)
    case reverseFulfillment =>
      obtain ⟨items, purchases, f, li, -, -, hup⟩ := reverseFulfillment_upserts h
      exact .kept (.upsert hup rfl rfl rfl)
    case setListTip =>
      obtain ⟨-, -, rfl⟩ := setListTip_ok h
      exact .kept (.update rfl rfl rfl fun _ _ _ => ⟨rfl, rfl, id⟩)
    case patchListPayer =>
      obtain ⟨payer, l, -, -, -, rfl⟩ := patchListPayer_ok h
      exact .kept (.same rfl rfl rfl)
    case doConfirm =>
      obtain ⟨g, c, r, hg, hc, hr, pending, eligible, unbound, h⟩ := doConfirm_ok h
      have hid : c.id = g.contractId := (lookup_mem hc).2
      exact .confirmed hg pending hr eligible unbound (hid ▸ .finalizeLink h)
    case doReject =>
      obtain ⟨g, -, -, h⟩ := doReject_ok h
      exact .rejected h
    case doManualLink userId cid rid newId now =>
      obtain ⟨c, r, m, hc, hr, eligible, unbound, hup, hlink⟩ := doManualLink_ok h
      obtain rfl : c.id = cid := (lookup_mem hc).2
      exact .linked hr eligible unbound hup (.finalizeLink hlink)
    case doUnlink =>
      obtain ⟨c, -, -, rfl⟩ := doUnlink_ok h
      exact .unlinked (.same rfl (map_updateWhere standing _ fun _ _ _ => rfl) rfl)
    case settleReimbursement =>
      obtain ⟨r, -, -, h⟩ := settleReimbursement_ok h
      exact .kept (.settleManual h)
    case settleManual => exact .kept (.settleManual h)
    case settleViaContract =>
      obtain ⟨infos, h⟩ := h
      exact .kept (.settleViaContract h rfl rfl rfl)
    case unbindContract =>
      obtain rfl := (Except.ok.inj h).symm
      exact .unbound rfl (.same rfl (map_updateWhere standing _ fun _ _ _ => rfl) rfl)
    case handleContractTerminal =>
      rcases handleContractTerminal_ok h with ⟨-, infos, h⟩ | ⟨failure, rfl⟩ | ⟨-, -, rfl⟩
      · exact .kept (.settleViaContract h rfl rfl rfl)
      · exact .unbound (if_pos failure)
          (.same rfl (map_updateWhere standing _ fun _ _ _ => rfl) rfl)
      · exact .kept (.same rfl rfl rfl)
    case upsertContract =>
      obtain ⟨out, h⟩ := h
      exact .upserted h
    case syncItemsFor =>
      obtain ⟨rows, rfl⟩ := syncItemsFor_ok h
      exact .kept (.same rfl (map_updateWhere standing _ fun _ _ _ => rfl) rfl)
    case runOne =>
      rcases runOne_ok h with rfl | ⟨issuer, assignee, parties, nodup, fresh, h⟩
      · exact .kept (.same rfl rfl rfl)
      · exact .matched parties nodup fresh h
    all_goals cases plain

end JitaCart.Contracts
