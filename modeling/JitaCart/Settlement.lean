/- module: JitaCart/Settlement
   source: backend/crates/settlement/src/lib.rs
   digest: Contract upserts, expected totals, both flavours of settle, and unbinding. -/

import JitaCart.Schema
import JitaCart.Base.Request

/-!
All functions act inside the caller's transaction. Wallet verification only
writes audit columns that nothing here reads, so it is left out, as are the
names that a settlement notification carries.
-/

set_option autoImplicit false
set_option relaxedAutoImplicit false

namespace JitaCart.Settlement

open Schema Base.Table Base.Request Base.Numeric

inductive SettlementError
  | notFound
  | notPending (status : ReimbursementStatus)
  | notDelivered (count : Nat)
  | db (cause : DbError)
  deriving DecidableEq

structure ContractUpsert where
  esiContractId : Int
  issuerUserId : Option Uuid
  assigneeUserId : Option Uuid
  issuerPrincipalId : Option Uuid
  assigneePrincipalId : Option Uuid
  contractType : ContractType
  status : ContractStatus
  priceIsk : ℚ
  dateCompleted : Option Timestamp
  sourceCorpId : Option Uuid
  deriving DecidableEq

structure ContractUpsertOutcome where
  contractId : Uuid
  priorStatus : Option ContractStatus
  currentStatus : ContractStatus
  needsItems : Bool
  deriving DecidableEq

def ContractUpsertOutcome.statusChanged (o : ContractUpsertOutcome) : Bool :=
  decide (o.priorStatus ≠ some o.currentStatus)

/-- The assignment of the `UPDATE`; principals and source corp are only ever filled in. -/
def ContractUpsert.assign (u : ContractUpsert) (c : Contract) : Contract :=
  { c with
    issuerUserId := u.issuerUserId
    assigneeUserId := u.assigneeUserId
    contractType := u.contractType
    status := u.status
    priceIsk := toScale 2 u.priceIsk
    dateCompleted := u.dateCompleted
    issuerPrincipalId := u.issuerPrincipalId.or c.issuerPrincipalId
    assigneePrincipalId := u.assigneePrincipalId.or c.assigneePrincipalId
    sourceCorpId := u.sourceCorpId.or c.sourceCorpId }

def ContractUpsert.row (u : ContractUpsert) (id : Uuid) : Contract where
  id := id
  esiContractId := u.esiContractId
  issuerUserId := u.issuerUserId
  issuerPrincipalId := u.issuerPrincipalId
  assigneeUserId := u.assigneeUserId
  assigneePrincipalId := u.assigneePrincipalId
  contractType := u.contractType
  status := u.status
  priceIsk := toScale 2 u.priceIsk
  expectedTotalIsk := none
  settlementDeltaIsk := none
  dateCompleted := u.dateCompleted
  itemsSyncedAt := none
  sourceCorpId := u.sourceCorpId

def upsertContract (s : Db) (u : ContractUpsert) (newId : Uuid) :
    Except SettlementError (ContractUpsertOutcome × Db) := do
  require (Fits 20 (toScale 2 u.priceIsk)) (.db .numericOverflow)
  match lookup Contract.esiContractId u.esiContractId s.contracts with
  | some c =>
    .ok (⟨c.id, some c.status, u.status, c.itemsSyncedAt.isNone⟩,
      { s with contracts := updateWhere (fun x => decide (x.id = c.id)) u.assign s.contracts })
  | none => do
    require (s.contract? newId = none) (.db .duplicateKey)
    .ok (⟨newId, none, u.status, true⟩, { s with contracts := s.contracts ++ [u.row newId] })

def boundTo (cid : Uuid) (r : Reimbursement) : Bool := decide (r.contractId = some cid)

/-- `SELECT SUM(subtotal_isk + tip_isk) ... WHERE contract_id = $1`, NULL over no rows. -/
def boundTotal (s : Db) (cid : Uuid) : Option Cents :=
  if s.reimbursements.any (boundTo cid) then
    some (sumWhere (boundTo cid) (fun r => r.subtotalIsk + r.tipIsk) s.reimbursements)
  else none

def setExpectedTotal (s : Db) (cid : Uuid) (total : Option Cents) : Db :=
  { s with
    contracts := updateWhere (fun c => decide (c.id = cid))
      (fun c => { c with expectedTotalIsk := total }) s.contracts }

def recomputeContractExpectedTotal (s : Db) (cid : Uuid) : Except SettlementError Db := do
  require (∀ c ∈ s.contracts, c.id = cid → ∀ t ∈ boundTotal s cid, Fits 20 t)
    (.db .numericOverflow)
  .ok (setExpectedTotal s cid (boundTotal s cid))

/-- Close an open list none of whose items is short of settled. -/
def autoCloseListIfComplete (s : Db) (listId : Uuid) : Db :=
  if ∀ li ∈ s.listItems, li.listId = listId → li.status = .settled then
    { s with
      lists := updateWhere (fun l => decide (l.id = listId) && decide (l.status = .open))
        (fun l => { l with status := .closed }) s.lists }
  else s

/-- `EXISTS` a live fulfillment of the item by this user. -/
def supplied (s : Db) (itemId userId : Uuid) : Bool :=
  s.fulfillments.any fun f =>
    decide (f.listItemId = itemId) && decide (f.haulerUserId = userId) && f.live

/-- The same through the join with the hauler's `user` principal. -/
def suppliedByPrincipal (s : Db) (itemId principalId : Uuid) : Bool :=
  (s.directory.principalUser principalId).any (supplied s itemId)

/-- The `NOT EXISTS` subquery of the bulk flip: another hauler on the list is still pending. -/
def blockedOnContract (s : Db) (r : Reimbursement) (itemId : Uuid) : Bool :=
  s.reimbursements.any fun r2 =>
    decide (r2.listId = r.listId) && decide (r2.haulerPrincipalId ≠ r.haulerPrincipalId) &&
      decide (r2.status = .pending) && suppliedByPrincipal s itemId r2.haulerPrincipalId

/-- The item predicate of the bulk flip. -/
def flipsOnContract (s : Db) (cid : Uuid) (li : ListItem) : Bool :=
  s.reimbursements.any fun r =>
    boundTo cid r && decide (li.listId = r.listId) &&
      (r.isCorpFunded ||
        decide (s.directory.principalUser r.requesterPrincipalId = some li.requestedByUserId)) &&
      (decide (li.status = .bought) || decide (li.status = .delivered)) &&
      suppliedByPrincipal s li.id r.haulerPrincipalId && !blockedOnContract s r li.id

def flipItems (s : Db) (p : ListItem → Bool) : Db :=
  { s with listItems := updateWhere p (fun li => { li with status := .settled }) s.listItems }

/-- Status, time and actor of every row that `p` selects. -/
def settleReimbursements (s : Db) (p : Reimbursement → Bool) (settledAt : Timestamp)
    (settledBy : Option Uuid) : Db :=
  { s with
    reimbursements := updateWhere p
      (fun r => { r with
        status := .settled
        settledAt := some settledAt
        settledByUserId := settledBy }) s.reimbursements }

/-- `price_isk - expected_total_isk`, NULL when nothing was expected. -/
def settlementDelta (c : Contract) : Option Cents := c.expectedTotalIsk.map (c.priceIsk - ·)

def writeSettlementDelta (s : Db) (cid : Uuid) : Except SettlementError Db := do
  require (∀ c ∈ s.contracts, c.id = cid → ∀ d ∈ settlementDelta c, Fits 20 d)
    (.db .numericOverflow)
  .ok { s with
    contracts := updateWhere (fun c => decide (c.id = cid))
      (fun c => { c with settlementDeltaIsk := settlementDelta c }) s.contracts }

structure ContractSettledReimbursement where
  groupId : Uuid
  totalIsk : Cents
  deriving DecidableEq

/-- Notification rows for the reimbursements that were just settled. -/
def webhookInfo (s : Db) (settled : List Reimbursement) : List ContractSettledReimbursement :=
  settled.filterMap fun r => (s.list? r.listId).map fun l => ⟨l.groupId, r.totalIsk⟩

def pendingOn (cid : Uuid) (r : Reimbursement) : Bool :=
  boundTo cid r && decide (r.status = .pending)

/-- `SELECT DISTINCT list_id FROM reimbursements WHERE contract_id = $1`. -/
def boundLists (s : Db) (cid : Uuid) : List Uuid :=
  ((s.reimbursements.filter (boundTo cid)).map (·.listId)).dedup

def settleViaContract (s : Db) (cid : Uuid) (now : Timestamp) :
    Except SettlementError (List ContractSettledReimbursement × Db) := do
  let c ← fetch .notFound (s.contract? cid)
  let settledRows := s.reimbursements.filter (pendingOn cid)
  if settledRows = [] then
    .ok ([], s)
  else do
    let s₁ := settleReimbursements s (pendingOn cid) (c.dateCompleted.getD now) none
    let s₂ := flipItems s₁ (flipsOnContract s₁ cid)
    let s₃ ← writeSettlementDelta s₂ cid
    let s₄ := (boundLists s₃ cid).foldl autoCloseListIfComplete s₃
    .ok (webhookInfo s₄ settledRows, s₄)

/-- The status clause of the flips: `= 'delivered'` or `IN ('bought', 'delivered')`. -/
def flippable (acceptBought : Bool) (status : ListItemStatus) : Bool :=
  decide (status = .delivered) || (acceptBought && decide (status = .bought))

/-- The common text of both flip statements: the hauler's items on the list that are `mine`, unless
a `rival` reimbursement of another hauler is pending and supplied the item too. -/
def flipHaulerItems (s : Db) (listId haulerUserId : Uuid) (acceptBought : Bool)
    (mine : ListItem → Bool) (rival : Reimbursement → Bool) : Db :=
  flipItems s fun li =>
    decide (li.listId = listId) && mine li && flippable acceptBought li.status &&
      supplied s li.id haulerUserId &&
      !(s.reimbursements.any fun r =>
        decide (r.listId = listId) && rival r && decide (r.haulerUserId ≠ haulerUserId) &&
          decide (r.status = .pending) && supplied s li.id r.haulerUserId)

def requestedBy (requesterUserId : Uuid) (li : ListItem) : Bool :=
  decide (li.requestedByUserId = requesterUserId)

def owedBy (requesterUserId : Uuid) (r : Reimbursement) : Bool :=
  decide (r.requesterUserId = some requesterUserId)

/-- `sql_flip_personal!`. -/
def flipItemsToSettled (s : Db) (listId requesterUserId haulerUserId : Uuid)
    (acceptBought : Bool) : Db :=
  flipHaulerItems s listId haulerUserId acceptBought (requestedBy requesterUserId)
    (owedBy requesterUserId)

/-- `sql_flip_corp!`: one hauler covers everyone on the list, so no requester predicate. -/
def flipItemsToSettledCorp (s : Db) (listId haulerUserId : Uuid) (acceptBought : Bool) : Db :=
  flipHaulerItems s listId haulerUserId acceptBought (fun _ => true) fun _ => true

/-- `COUNT` of the hauler's items on the list that are neither delivered nor settled. -/
def notDelivered (s : Db) (listId haulerUserId : Uuid) (requested : ListItem → Bool) : Nat :=
  (s.listItems.filter fun li =>
    decide (li.listId = listId) && requested li && decide (li.status ≠ .delivered) &&
      decide (li.status ≠ .settled) && supplied s li.id haulerUserId).length

def settleManual (s : Db) (reimbursementId settledByUserId : Uuid) (now : Timestamp) :
    Except SettlementError Db := do
  let r ← fetch .notFound (s.reimbursement? reimbursementId)
  require (r.status = .pending) (.notPending r.status)
  if r.isCorpFunded then do
    let owed := notDelivered s r.listId r.haulerUserId fun _ => true
    require (owed = 0) (.notDelivered owed)
    let s₁ := settleReimbursements s (fun x => decide (x.id = r.id)) now (some settledByUserId)
    .ok (autoCloseListIfComplete (flipItemsToSettledCorp s₁ r.listId r.haulerUserId false)
      r.listId)
  else do
    let requester ← fetch .notFound r.requesterUserId
    let owed := notDelivered s r.listId r.haulerUserId (requestedBy requester)
    require (owed = 0) (.notDelivered owed)
    let s₁ := settleReimbursements s (fun x => decide (x.id = r.id)) now (some settledByUserId)
    .ok (autoCloseListIfComplete
      (flipItemsToSettled s₁ r.listId requester r.haulerUserId false) r.listId)

def unbindReimbursements (s : Db) (cid : Uuid) : Db :=
  { s with
    reimbursements := updateWhere (pendingOn cid) (fun r => { r with contractId := none })
      s.reimbursements }

/-- `UPDATE contract_match_suggestions SET state = 'superseded' WHERE contract_id = $1 AND state = $2`. -/
def supersede (s : Db) (cid : Uuid) (state : ContractMatchState) : Db :=
  { s with
    suggestions := updateWhere
      (fun g => decide (g.contractId = cid) && decide (g.state = state))
      (fun g => { g with state := .superseded }) s.suggestions }

/-- Detach the pending reimbursements and retire the pending suggestions of a dead contract. -/
def unbindContract (s : Db) (cid : Uuid) : Nat × Db :=
  ((s.reimbursements.filter (pendingOn cid)).length,
    setExpectedTotal (supersede (unbindReimbursements s cid) cid .pending) cid none)

theorem autoClose_shape (s : Db) (listId : Uuid) :
    ∃ lists, autoCloseListIfComplete s listId = { s with lists := lists } := by
  unfold autoCloseListIfComplete
  split
  · exact ⟨_, rfl⟩
  · exact ⟨s.lists, rfl⟩

theorem autoCloseAll_shape (listIds : List Uuid) (s : Db) :
    ∃ lists, listIds.foldl autoCloseListIfComplete s = { s with lists := lists } := by
  induction listIds generalizing s with
  | nil => exact ⟨s.lists, rfl⟩
  | cons listId listIds ih =>
    obtain ⟨ls, h⟩ := autoClose_shape s listId
    obtain ⟨ls', h'⟩ := ih (autoCloseListIfComplete s listId)
    rw [List.foldl_cons, h', h]
    exact ⟨ls', rfl⟩

/-- The rows that a settle writes: its own reimbursements, the flipped items, and the delta. -/
theorem settleViaContract_ok {s s' : Db} {cid : Uuid} {now : Timestamp}
    {infos : List ContractSettledReimbursement}
    (h : settleViaContract s cid now = .ok (infos, s')) :
    ∃ c, s.contract? cid = some c ∧
      (((∀ r ∈ s.reimbursements, pendingOn cid r = false) ∧ s' = s) ∨
        ((∃ r ∈ s.reimbursements, pendingOn cid r = true) ∧ ∃ at_ s₁ lists,
          s₁ = settleReimbursements s (pendingOn cid) at_ none ∧
          s' = { flipItems s₁ (flipsOnContract s₁ cid) with
            lists := lists
            contracts := updateWhere (fun x => decide (x.id = cid))
              (fun x => { x with settlementDeltaIsk := settlementDelta x }) s.contracts })) := by
  simp only [settleViaContract, bind_eq_ok, fetch_eq_ok] at h
  obtain ⟨c, hc, h⟩ := h
  refine ⟨c, hc, ?_⟩
  split at h
  · rename_i none_pending
    simp only [Except.ok.injEq, Prod.mk.injEq] at h
    refine .inl ⟨fun r hr => ?_, h.2.symm⟩
    simpa using List.filter_eq_nil_iff.mp none_pending r hr
  · rename_i some_pending
    simp only [writeSettlementDelta, bind_eq_ok, require_eq_ok, Except.ok.injEq,
      Prod.mk.injEq] at h
    obtain ⟨s₃, ⟨-, -, rfl⟩, -, rfl⟩ := h
    obtain ⟨r, hr⟩ := List.exists_mem_of_ne_nil _ some_pending
    obtain ⟨hmem, hp⟩ := List.mem_filter.mp hr
    obtain ⟨lists, hlists⟩ := autoCloseAll_shape (boundLists _ cid) _
    exact .inr ⟨⟨r, hmem, hp⟩, _, _, lists, rfl, hlists⟩

/-- Which items and which rival reimbursements a manual settle looks at. -/
def Mode (r : Reimbursement) (mine : ListItem → Bool) (rival : Reimbursement → Bool) : Prop :=
  (r.isCorpFunded = true ∧ mine = (fun _ => true) ∧ rival = fun _ => true) ∨
    ∃ requester, r.isCorpFunded = false ∧ r.requesterUserId = some requester ∧
      mine = requestedBy requester ∧ rival = owedBy requester

theorem settleManual_ok {s s' : Db} {rid settledBy : Uuid} {now : Timestamp}
    (h : settleManual s rid settledBy now = .ok s') :
    ∃ r mine rival lists, s.reimbursement? rid = some r ∧ r.status = .pending ∧
      Mode r mine rival ∧ notDelivered s r.listId r.haulerUserId mine = 0 ∧
      s' = { flipHaulerItems
          (settleReimbursements s (fun x => decide (x.id = r.id)) now (some settledBy))
          r.listId r.haulerUserId false mine rival with lists := lists } := by
  simp only [settleManual, bind_eq_ok, fetch_eq_ok, require_eq_ok] at h
  obtain ⟨r, hr, -, pending, h⟩ := h
  split at h
  · rename_i corp
    simp only [bind_eq_ok, require_eq_ok, Except.ok.injEq] at h
    obtain ⟨-, owed, rfl⟩ := h
    obtain ⟨lists, hlists⟩ := autoClose_shape _ r.listId
    exact ⟨r, _, _, lists, hr, pending, .inl ⟨corp, rfl, rfl⟩, owed, hlists⟩
  · rename_i personal
    simp only [bind_eq_ok, fetch_eq_ok, require_eq_ok, Except.ok.injEq] at h
    obtain ⟨requester, hreq, -, owed, rfl⟩ := h
    obtain ⟨lists, hlists⟩ := autoClose_shape _ r.listId
    exact ⟨r, _, _, lists, hr, pending,
      .inr ⟨requester, by simpa using personal, hreq, rfl, rfl⟩, owed, hlists⟩

/-- Some open lists among `ids` were closed. -/
def ClosedOn (ids : List Uuid) (before after : List ListRow) : Prop :=
  ∃ p : ListRow → Bool, (∀ l, p l = true → l.id ∈ ids ∧ l.status = .open) ∧
    after = updateWhere p (fun l => { l with status := .closed }) before

private theorem ClosedOn.refl (ids : List Uuid) (t : List ListRow) : ClosedOn ids t t :=
  ⟨fun _ => false, fun _ h => by simp at h, (updateWhere_eq_self fun _ _ => rfl).symm⟩

private theorem ClosedOn.trans {ids : List Uuid} {t u v : List ListRow} (h : ClosedOn ids t u)
    (k : ClosedOn ids u v) : ClosedOn ids t v := by
  obtain ⟨p, hp, rfl⟩ := h
  obtain ⟨q, hq, rfl⟩ := k
  refine ⟨fun l => p l || q l, fun l hl => ?_, ?_⟩
  · rcases Bool.or_eq_true_iff.mp hl with h | h
    · exact hp l h
    · exact hq l h
  · unfold updateWhere
    rw [List.map_map]
    apply List.map_congr_left
    intro l _
    -- A list closed by the first update is not open for the second.
    by_cases h : p l = true
    · have reopened : q { l with status := .closed } ≠ true := fun hl => by
        simpa using (hq _ hl).2
      simp [h, reopened]
    · simp [h]

private theorem ClosedOn.mono {ids more : List Uuid} {t u : List ListRow} (h : ClosedOn ids t u)
    (sub : ∀ id ∈ ids, id ∈ more) : ClosedOn more t u := by
  obtain ⟨p, hp, rfl⟩ := h
  exact ⟨p, fun l hl => ⟨sub _ (hp l hl).1, (hp l hl).2⟩, rfl⟩

private theorem autoClose_lists (s : Db) (listId : Uuid) :
    ClosedOn [listId] s.lists (autoCloseListIfComplete s listId).lists := by
  unfold autoCloseListIfComplete
  split
  · refine ⟨_, fun l hl => ?_, rfl⟩
    simpa using hl
  · exact .refl _ _

private theorem autoCloseAll_lists (listIds : List Uuid) (s : Db) :
    ClosedOn listIds s.lists (listIds.foldl autoCloseListIfComplete s).lists := by
  induction listIds generalizing s with
  | nil => exact .refl _ _
  | cons listId listIds ih =>
    have first : ClosedOn (listId :: listIds) s.lists (autoCloseListIfComplete s listId).lists :=
      (autoClose_lists s listId).mono (by simp)
    exact first.trans ((ih (autoCloseListIfComplete s listId)).mono (by simp +contextual))

theorem settleViaContract_lists {s s' : Db} {cid : Uuid} {now : Timestamp}
    {infos : List ContractSettledReimbursement}
    (h : settleViaContract s cid now = .ok (infos, s')) :
    ClosedOn (boundLists s cid) s.lists s'.lists := by
  simp only [settleViaContract, bind_eq_ok, fetch_eq_ok] at h
  obtain ⟨c, -, h⟩ := h
  split at h
  · simp only [Except.ok.injEq, Prod.mk.injEq] at h
    rw [← h.2]
    exact .refl _ _
  · simp only [writeSettlementDelta, bind_eq_ok, require_eq_ok, Except.ok.injEq,
      Prod.mk.injEq] at h
    obtain ⟨s₃, ⟨-, -, rfl⟩, -, rfl⟩ := h
    refine (autoCloseAll_lists _ _).mono fun id hid => ?_
    unfold boundLists at hid ⊢
    rw [List.mem_dedup] at hid ⊢
    have rows := map_filter_updateWhere (p := pendingOn cid) (q := boundTo cid)
      (f := fun r : Reimbursement => { r with
        status := .settled
        settledAt := some (c.dateCompleted.getD now)
        settledByUserId := none }) (·.listId) s.reimbursements fun _ _ _ => ⟨rfl, rfl⟩
    rw [← rows]
    exact hid

theorem settleManual_lists {s s' : Db} {rid settledBy : Uuid} {now : Timestamp}
    {r : Reimbursement} (hr : s.reimbursement? rid = some r)
    (h : settleManual s rid settledBy now = .ok s') : ClosedOn [r.listId] s.lists s'.lists := by
  simp only [settleManual, bind_eq_ok, fetch_eq_ok, require_eq_ok] at h
  obtain ⟨x, hx, -, -, h⟩ := h
  obtain rfl : x = r := Option.some.inj (hx.symm.trans hr)
  split at h
  · simp only [bind_eq_ok, require_eq_ok, Except.ok.injEq] at h
    obtain ⟨-, -, rfl⟩ := h
    exact autoClose_lists _ _
  · simp only [bind_eq_ok, fetch_eq_ok, require_eq_ok, Except.ok.injEq] at h
    obtain ⟨requester, -, -, -, rfl⟩ := h
    exact autoClose_lists _ _

theorem upsertContract_ok {s s' : Db} {u : ContractUpsert} {newId : Uuid}
    {o : ContractUpsertOutcome} (h : upsertContract s u newId = .ok (o, s')) :
    (∃ c, lookup Contract.esiContractId u.esiContractId s.contracts = some c ∧
      o = ⟨c.id, some c.status, u.status, c.itemsSyncedAt.isNone⟩ ∧
      s' = { s with contracts := updateWhere (fun x => decide (x.id = c.id)) u.assign s.contracts }) ∨
    (s.contract? newId = none ∧ o = ⟨newId, none, u.status, true⟩ ∧
      s' = { s with contracts := s.contracts ++ [u.row newId] }) := by
  simp only [upsertContract, bind_eq_ok, require_eq_ok] at h
  obtain ⟨-, -, h⟩ := h
  split at h
  · rename_i c hc
    simp only [Except.ok.injEq, Prod.mk.injEq] at h
    exact .inl ⟨c, hc, h.1.symm, h.2.symm⟩
  · simp only [bind_eq_ok, require_eq_ok, Except.ok.injEq, Prod.mk.injEq] at h
    obtain ⟨-, fresh, ho, hs⟩ := h
    exact .inr ⟨fresh, ho.symm, hs.symm⟩

theorem keyed_upsertContract {s s' : Db} {u : ContractUpsert} {newId : Uuid}
    {o : ContractUpsertOutcome} (keyed : Keyed Contract.id s.contracts)
    (h : upsertContract s u newId = .ok (o, s')) : Keyed Contract.id s'.contracts := by
  rcases upsertContract_ok h with ⟨c, -, -, rfl⟩ | ⟨fresh, -, rfl⟩
  · exact keyed.updateWhere fun _ => rfl
  · exact keyed.append (lookup_eq_none.mp fresh)

theorem upsertContract_shape {s s' : Db} {u : ContractUpsert} {newId : Uuid}
    {o : ContractUpsertOutcome} (h : upsertContract s u newId = .ok (o, s')) :
    ∃ contracts, s' = { s with contracts := contracts } := by
  rcases upsertContract_ok h with ⟨c, -, -, rfl⟩ | ⟨-, -, rfl⟩
  · exact ⟨_, rfl⟩
  · exact ⟨_, rfl⟩

end JitaCart.Settlement
