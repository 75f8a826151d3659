/- module: JitaCart/Books/Projection
   source: backend/crates/api/src/fulfillment/reimbursements.rs,
     backend/crates/settlement/src/lib.rs
   digest: The ledger of a database, and the statements that do not change it. -/

import JitaCart.Books.Ledger
import JitaCart.Operations

set_option autoImplicit false
set_option relaxedAutoImplicit false

namespace JitaCart.Books

open Schema Base.Table Base.Request Directory Settlement
open Api.ItemStatus Api.Claims Api.Fulfillments Api.Reimbursements Api.Contracts

def accountOf (l : ListRow) : Account := ⟨l.id, l.payer⟩

def lineOf (li : ListItem) : Line := ⟨li.id, li.listId, li.requestedByUserId⟩

def dueOf (r : Reimbursement) : Due where
  id := r.id
  listId := r.listId
  requester := r.requesterUserId
  requesterPrincipal := r.requesterPrincipalId
  hauler := r.haulerUserId
  haulerPrincipal := r.haulerPrincipalId
  subtotal := r.subtotalIsk
  corpFunded := r.isCorpFunded
  cancelled := decide (r.status = .cancelled)

def ledger (s : Db) : Ledger where
  directory := s.directory
  accounts := s.lists.map accountOf
  lines := s.listItems.map lineOf
  purchases := s.fulfillments
  dues := s.reimbursements.map dueOf

/-- The reimbursement covers the fulfillment: same list, its hauler recorded it, and corp money
or the requester's own item. -/
def covers (s : Db) (r : Reimbursement) (f : Fulfillment) : Bool :=
  (s.item? f.listItemId).any fun li =>
    decide (li.listId = r.listId) && decide (f.haulerUserId = r.haulerUserId) &&
      (r.isCorpFunded || decide (r.requesterUserId = some li.requestedByUserId))

theorem payer?_ledger (s : Db) (id : Uuid) :
    (ledger s).payer? id = (s.list? id).map (·.payer) := by
  have rows : lookup Account.id id (s.lists.map accountOf) = (s.list? id).map accountOf :=
    lookup_map fun _ => rfl
  unfold Ledger.payer? ledger
  simp only [rows, Option.map_map]
  rfl

theorem line?_ledger (s : Db) (id : Uuid) : (ledger s).line? id = (s.item? id).map lineOf := by
  unfold Ledger.line? ledger Db.item?
  exact lookup_map fun _ => rfl

theorem covers_ledger (s : Db) (r : Reimbursement) (f : Fulfillment) :
    (ledger s).covers (dueOf r) f = covers s r f := by
  unfold Ledger.covers covers
  rw [line?_ledger]
  cases s.item? f.listItemId <;> rfl

theorem noCancelled {s : Db} (ok : (ledger s).Ok) :
    ∀ r ∈ s.reimbursements, r.status ≠ .cancelled := by
  intro r hr
  obtain ⟨-, -, -, -, -, -, -, hc⟩ := ok.due (dueOf r) (List.mem_map_of_mem hr)
  simpa [dueOf] using hc

theorem ledger_congr {s s' : Db} (directory : s'.directory = s.directory)
    (lists : s'.lists.map accountOf = s.lists.map accountOf)
    (items : s'.listItems.map lineOf = s.listItems.map lineOf)
    (fulfillments : s'.fulfillments = s.fulfillments)
    (reimbursements : s'.reimbursements.map dueOf = s.reimbursements.map dueOf) :
    ledger s' = ledger s := by
  unfold ledger
  rw [directory, lists, items, fulfillments, reimbursements]

theorem ledger_items (s : Db) (p : ListItem → Bool) (g : ListItem → ListItem)
    (keep : ∀ li, lineOf (g li) = lineOf li) :
    ledger { s with listItems := updateWhere p g s.listItems } = ledger s :=
  ledger_congr rfl rfl (map_updateWhere lineOf _ fun li _ _ => keep li) rfl rfl

theorem ledger_lists (s : Db) (p : ListRow → Bool) (g : ListRow → ListRow)
    (keep : ∀ l, accountOf (g l) = accountOf l) :
    ledger { s with lists := updateWhere p g s.lists } = ledger s :=
  ledger_congr rfl (map_updateWhere accountOf _ fun l _ _ => keep l) rfl rfl rfl

private theorem ledger_reimbursements (s : Db) (p : Reimbursement → Bool)
    (g : Reimbursement → Reimbursement)
    (keep : ∀ r ∈ s.reimbursements, p r = true → dueOf (g r) = dueOf r) :
    ledger { s with reimbursements := updateWhere p g s.reimbursements } = ledger s :=
  ledger_congr rfl rfl rfl rfl (map_updateWhere dueOf _ keep)

theorem recompute_shape {s s' : Db} {itemId : Uuid} {demotion : DeliveredDemotion}
    {status : ListItemStatus} (h : recomputeItemStatus s itemId demotion = .ok (status, s')) :
    ∃ items, s' = { s with listItems := items } := by
  obtain ⟨li, -, ⟨-, -, rfl⟩ | ⟨-, -, -, -, rfl⟩⟩ := recomputeItemStatus_ok h
  · exact ⟨s'.listItems, rfl⟩
  · exact ⟨_, rfl⟩

theorem updateClaimStatus_shape (s : Db) (claimId : Uuid) (guard : Claim → Bool)
    (status : ClaimStatus) : ∃ claims claimItems, updateClaimStatus s claimId guard status =
      { s with claims := claims, claimItems := claimItems } := by
  unfold updateClaimStatus
  split
  · exact ⟨s.claims, s.claimItems, rfl⟩
  · split
    · exact ⟨_, _, rfl⟩
    · exact ⟨s.claims, s.claimItems, rfl⟩

theorem completeClaim_shape (s : Db) (active : Option Claim) (status : ListItemStatus) :
    ∃ claims claimItems, completeClaim s active status =
      { s with claims := claims, claimItems := claimItems } := by
  unfold completeClaim
  split
  · exact ⟨s.claims, s.claimItems, rfl⟩
  · split
    · exact updateClaimStatus_shape s _ _ _
    · exact ⟨s.claims, s.claimItems, rfl⟩

theorem ledger_recompute {s s' : Db} {itemId : Uuid} {demotion : DeliveredDemotion}
    {status : ListItemStatus} (h : recomputeItemStatus s itemId demotion = .ok (status, s')) :
    ledger s' = ledger s := by
  obtain ⟨li, -, ⟨-, -, rfl⟩ | ⟨-, -, -, -, rfl⟩⟩ := recomputeItemStatus_ok h
  · rfl
  · exact ledger_items s _ _ fun _ => rfl

theorem ledger_recomputeBulk {s s' : Db} {itemIds : List Uuid}
    (h : recomputeItemStatusesBulk s itemIds = .ok s') : ledger s' = ledger s := by
  obtain rfl := recomputeItemStatusesBulk_ok h
  exact ledger_items s _ _ fun _ => rfl

theorem ledger_updateClaimStatus (s : Db) (claimId : Uuid) (guard : Claim → Bool)
    (status : ClaimStatus) : ledger (updateClaimStatus s claimId guard status) = ledger s := by
  obtain ⟨claims, claimItems, h⟩ := updateClaimStatus_shape s claimId guard status
  rw [h]
  rfl

private theorem ledger_autoClose (s : Db) (listId : Uuid) :
    ledger (autoCloseListIfComplete s listId) = ledger s := by
  unfold autoCloseListIfComplete
  split
  · exact ledger_lists s _ _ fun _ => rfl
  · rfl

private theorem ledger_autoCloseAll (listIds : List Uuid) (s : Db) :
    ledger (listIds.foldl autoCloseListIfComplete s) = ledger s := by
  induction listIds generalizing s with
  | nil => rfl
  | cons listId listIds ih => exact (ih _).trans (ledger_autoClose s listId)

private theorem ledger_flipItems (s : Db) (p : ListItem → Bool) :
    ledger (flipItems s p) = ledger s :=
  ledger_items s _ _ fun _ => rfl

theorem ledger_settleReimbursements {s : Db} {p : Reimbursement → Bool} {settledAt : Timestamp}
    {settledBy : Option Uuid} (live : ∀ r ∈ s.reimbursements, r.status ≠ .cancelled) :
    ledger (settleReimbursements s p settledAt settledBy) = ledger s := by
  apply ledger_reimbursements
  intro r hr _
  simp [dueOf, live r hr]

theorem ledger_settleViaContract {s s' : Db} {cid : Uuid} {now : Timestamp}
    {infos : List ContractSettledReimbursement}
    (live : ∀ r ∈ s.reimbursements, r.status ≠ .cancelled)
    (h : settleViaContract s cid now = .ok (infos, s')) : ledger s' = ledger s := by
  simp only [settleViaContract, writeSettlementDelta, bind_eq_ok, fetch_eq_ok] at h
  obtain ⟨c, -, h⟩ := h
  split at h
  · simp only [Except.ok.injEq, Prod.mk.injEq] at h
    rw [h.2]
  · simp only [bind_eq_ok, require_eq_ok, Except.ok.injEq, Prod.mk.injEq] at h
    obtain ⟨s₃, ⟨-, -, rfl⟩, -, rfl⟩ := h
    rw [ledger_autoCloseAll]
    exact (ledger_flipItems _ _).trans (ledger_settleReimbursements live)

theorem ledger_settleManual {s s' : Db} {rid settledBy : Uuid} {now : Timestamp}
    (live : ∀ r ∈ s.reimbursements, r.status ≠ .cancelled)
    (h : settleManual s rid settledBy now = .ok s') : ledger s' = ledger s := by
  simp only [settleManual, bind_eq_ok, fetch_eq_ok, require_eq_ok] at h
  obtain ⟨r, -, -, -, h⟩ := h
  split at h
  · simp only [bind_eq_ok, require_eq_ok, Except.ok.injEq] at h
    obtain ⟨-, -, rfl⟩ := h
    rw [ledger_autoClose]
    exact (ledger_flipItems _ _).trans (ledger_settleReimbursements live)
  · simp only [bind_eq_ok, fetch_eq_ok, require_eq_ok, Except.ok.injEq] at h
    obtain ⟨requester, -, -, -, rfl⟩ := h
    rw [ledger_autoClose]
    exact (ledger_flipItems _ _).trans (ledger_settleReimbursements live)

theorem ledger_bindReimbursement (s : Db) (cid rid : Uuid) :
    ledger (bindReimbursement s cid rid) = ledger s :=
  ledger_reimbursements s _ _ fun _ _ _ => rfl

theorem ledger_unbindReimbursements (s : Db) (cid : Uuid) :
    ledger (unbindReimbursements s cid) = ledger s :=
  ledger_reimbursements s _ _ fun _ _ _ => rfl

theorem ledger_unbindContract (s : Db) (cid : Uuid) :
    ledger (unbindContract s cid).2 = ledger s :=
  ledger_unbindReimbursements s cid

theorem ledger_finalizeLink {s s' : Db} {c : Contract} {rid : Uuid} {now : Timestamp}
    (h : finalizeLink s c rid now = .ok s')
    (live : ∀ r ∈ s.reimbursements, r.status ≠ .cancelled) : ledger s' = ledger s := by
  have bound := ledger_bindReimbursement s c.id rid
  rcases finalizeLink_ok h with ⟨-, infos, hsettle⟩ | ⟨-, rfl⟩
  · refine (ledger_settleViaContract ?_ hsettle).trans bound
    intro r hr
    obtain ⟨x, hx, rfl⟩ := mem_updateWhere.mp hr
    have := live x hx
    split <;> exact this
  · exact bound

section Aside
open Operations Api.Lists Worker.Match
variable {s s' : Db}

structure Aside (s s' : Db) : Prop where
  lists : s'.lists = s.lists
  reimbursements : s'.reimbursements = s.reimbursements
  contracts : s'.contracts = s.contracts
  suggestions : s'.suggestions = s.suggestions

/-- Requests about users and groups, items and claims. -/
def isAside : Op → Bool
  | .directory _ | .addItems .. | .createClaim .. | .addClaimItems .. | .removeClaimItem ..
  | .releaseClaim .. | .markDelivered .. => true
  | _ => false

theorem aside_of_ok {o : Op} (plain : isAside o = true) (h : apply o s = .ok s') : Aside s s' := by
  cases o <;> simp only [apply, mapError_eq_ok, map_eq_ok, Prod.exists, exists_eq_right] at h
  case directory =>
    simp only [changeDirectory, bind_eq_ok, require_eq_ok] at h
    obtain ⟨-, -, h⟩ := h
    obtain rfl := (Except.ok.inj h).symm
    exact ⟨rfl, rfl, rfl, rfl⟩
  case addItems =>
    obtain ⟨l, role, -, -, -, h⟩ := addItems_ok h
    obtain ⟨-, -, -, rfl⟩ := insertItems_ok h
    exact ⟨rfl, rfl, rfl, rfl⟩
  case createClaim =>
    obtain ⟨-, -, h⟩ := createClaim_ok h
    obtain rfl := recomputeItemStatusesBulk_ok (insertClaimItems_ok h)
    exact ⟨rfl, rfl, rfl, rfl⟩
  case addClaimItems =>
    obtain ⟨c, -, -, -, h⟩ := addClaimItems_ok h
    obtain rfl := recomputeItemStatusesBulk_ok (insertClaimItems_ok h)
    exact ⟨rfl, rfl, rfl, rfl⟩
  case removeClaimItem =>
    obtain ⟨status, h⟩ := removeClaimItem_ok h
    obtain ⟨items, rfl⟩ := recompute_shape h
    exact ⟨rfl, rfl, rfl, rfl⟩
  case releaseClaim userId claimId =>
    obtain ⟨c, -, -, h⟩ := releaseClaim_ok h
    obtain ⟨claims, claimItems, shape⟩ :=
      updateClaimStatus_shape s claimId (fun _ => true) .released
    rw [shape] at h
    obtain rfl := recomputeItemStatusesBulk_ok h
    exact ⟨rfl, rfl, rfl, rfl⟩
  case markDelivered =>
    obtain ⟨li, -, -, -, rfl⟩ := markDelivered_ok h
    exact ⟨rfl, rfl, rfl, rfl⟩
  all_goals cases plain

/-- Requests about contracts and suggestions that settle nothing. -/
def isPaperwork : Op → Bool
  | .doReject .. | .doUnlink .. | .unbindContract _ | .upsertContract .. | .syncItemsFor ..
  | .runOne .. => true
  | _ => false

structure Paperwork (s s' : Db) : Prop where
  directory : s'.directory = s.directory
  lists : s'.lists = s.lists
  items : s'.listItems = s.listItems
  claims : s'.claims = s.claims
  claimItems : s'.claimItems = s.claimItems
  purchases : s'.fulfillments = s.fulfillments
  unbound : s'.reimbursements = s.reimbursements ∨
    ∃ cid, s'.reimbursements = (unbindReimbursements s cid).reimbursements

theorem paperwork_of_ok {o : Op} (clerical : isPaperwork o = true) (h : apply o s = .ok s') :
    Paperwork s s' := by
  cases o <;> simp only [apply, mapError_eq_ok, map_eq_ok, Prod.exists, exists_eq_right] at h
  case doReject =>
    obtain ⟨g, -, -, rfl⟩ := doReject_ok h
    exact ⟨rfl, rfl, rfl, rfl, rfl, rfl, .inl rfl⟩
  case doUnlink =>
    obtain ⟨c, -, -, rfl⟩ := doUnlink_ok h
    exact ⟨rfl, rfl, rfl, rfl, rfl, rfl, .inr ⟨_, rfl⟩⟩
  case unbindContract =>
    obtain rfl := (Except.ok.inj h).symm
    exact ⟨rfl, rfl, rfl, rfl, rfl, rfl, .inr ⟨_, rfl⟩⟩
  case upsertContract =>
    obtain ⟨out, h⟩ := h
    obtain ⟨contracts, rfl⟩ := upsertContract_shape h
    exact ⟨rfl, rfl, rfl, rfl, rfl, rfl, .inl rfl⟩
  case syncItemsFor =>
    obtain ⟨rows, rfl⟩ := syncItemsFor_ok h
    exact ⟨rfl, rfl, rfl, rfl, rfl, rfl, .inl rfl⟩
  case runOne =>
    rcases runOne_ok h with rfl | ⟨issuer, assignee, -, -, -, rfl⟩
    · exact ⟨rfl, rfl, rfl, rfl, rfl, rfl, .inl rfl⟩
    · exact ⟨rfl, rfl, rfl, rfl, rfl, rfl, .inl rfl⟩
  all_goals cases clerical

/-- Unbinding rewrites the contract of a reimbursement and nothing else of it. -/
theorem Paperwork.map_reimbursements {β : Type} (same : Paperwork s s') (f : Reimbursement → β)
    (blind : ∀ r : Reimbursement, f { r with contractId := none } = f r) :
    s'.reimbursements.map f = s.reimbursements.map f := by
  obtain h | ⟨cid, h⟩ := same.unbound
  · rw [h]
  · rw [h]
    exact map_updateWhere f _ fun r _ _ => blind r

theorem Paperwork.ledger_eq (same : Paperwork s s') : ledger s' = ledger s := by
  have dues := same.map_reimbursements dueOf fun _ => rfl
  simp only [ledger, same.directory, same.lists, same.items, same.purchases, dues]

/-- Items, claims and purchases rewritten. -/
def withItems (s : Db) (items : List ListItem) (claims : List Claim) (claimItems : List ClaimItem)
    (purchases : List Fulfillment) : Db :=
  { s with
    listItems := items
    claims := claims
    claimItems := claimItems
    fulfillments := purchases }

theorem aside_withItems (s : Db) (items : List ListItem) (claims : List Claim)
    (claimItems : List ClaimItem) (purchases : List Fulfillment) :
    Aside s (withItems s items claims claimItems purchases) := ⟨rfl, rfl, rfl, rfl⟩

theorem recordFulfillment_upserts {userId listId itemId : Uuid} {body : RecordFulfillmentBody}
    {gen : Generated} (h : recordFulfillment s userId listId itemId body gen = .ok s') :
    ∃ items claims claimItems purchases li, s.item? itemId = some li ∧
      upsertReimbursement (withItems s items claims claimItems purchases) listId
        li.requestedByUserId userId gen.reimbursementId = .ok s' := by
  obtain ⟨l, role, li, f, s₁, status, s₂, active, -, -, -, hli, -, -, -, -, -, -, -, -, rfl, hrec,
    hup⟩ := recordFulfillment_ok h
  obtain ⟨items, hs₂⟩ := recompute_shape hrec
  obtain ⟨claims, claimItems, hs₃⟩ := completeClaim_shape s₂ active status
  rw [hs₃, hs₂] at hup
  exact ⟨items, claims, claimItems, _, li, hli, hup⟩

theorem reverseFulfillment_upserts {userId fulfillmentId newId : Uuid} {now : Timestamp}
    (h : reverseFulfillment s userId fulfillmentId newId now = .ok s') :
    ∃ items purchases f li, s.fulfillment? fulfillmentId = some f ∧
      s.item? f.listItemId = some li ∧
      upsertReimbursement (withItems s items s.claims s.claimItems purchases) li.listId
        li.requestedByUserId f.haulerUserId newId = .ok s' := by
  obtain ⟨f, li, l, role, status, s₂, hf, hli, -, -, -, -, hrec, hup⟩ := reverseFulfillment_ok h
  obtain ⟨items, hs₂⟩ := recompute_shape hrec
  rw [hs₂] at hup
  exact ⟨items, _, f, li, hf, hli, hup⟩

theorem upsertConfirmed_shape {cid rid newId : Uuid}
    (h : upsertConfirmed s cid rid newId = .ok s') :
    ∃ suggestions, s' = { s with suggestions := suggestions } := by
  obtain ⟨-, ⟨-, rfl⟩ | ⟨-, -, rfl⟩⟩ := upsertConfirmed_ok h
  · exact ⟨_, rfl⟩
  · exact ⟨_, rfl⟩

end Aside

end JitaCart.Books
