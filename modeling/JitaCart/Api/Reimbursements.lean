/- module: JitaCart/Api/Reimbursements
   source: backend/crates/api/src/fulfillment/reimbursements.rs
   digest: The reimbursement upsert of a (list, requester, hauler) cycle and the manual settle. -/

import JitaCart.Api.ItemStatus
import JitaCart.Settlement

set_option autoImplicit false
set_option relaxedAutoImplicit false

namespace JitaCart.Api.Reimbursements

open Schema Base.Table Base.Request Base.Numeric ItemStatus Settlement

/-- The `subtotal` common table expression of the upsert. -/
def subtotal (s : Db) (listId : Uuid) (corpFunded : Bool) (requesterUserId haulerUserId : Uuid) :
    Cents :=
  sumWhere
    (fun f => f.live && decide (f.haulerUserId = haulerUserId) &&
      (s.item? f.listItemId).any fun li => decide (li.listId = listId) &&
        (corpFunded || decide (li.requestedByUserId = requesterUserId)))
    Fulfillment.cost s.fulfillments

/-- The columns of `reimbursements_principal_unique`. -/
def cycle (r : Reimbursement) : Uuid × Uuid × Uuid :=
  (r.listId, r.requesterPrincipalId, r.haulerPrincipalId)

/-- The row that the upsert proposes. -/
def proposed (s : Db) (l : ListRow) (requesterUserId requesterPrincipalId haulerUserId
    haulerPrincipalId newId : Uuid) : Reimbursement :=
  let corpFunded := l.payer.isSome
  let amount := subtotal s l.id corpFunded requesterUserId haulerUserId
  { id := newId
    listId := l.id
    requesterUserId := if corpFunded then none else some requesterUserId
    requesterPrincipalId := requesterPrincipalId
    haulerUserId := haulerUserId
    haulerPrincipalId := haulerPrincipalId
    subtotalIsk := amount
    tipIsk := roundHalfAway (amount * l.tipPct)
    totalIsk := roundHalfAway (amount * (1 + l.tipPct))
    status := .pending
    settledAt := none
    settledByUserId := none
    contractId := none
    isCorpFunded := corpFunded }

@[simp] theorem cycle_proposed (s : Db) (l : ListRow) (requesterUserId rp haulerUserId hp
    newId : Uuid) :
    cycle (proposed s l requesterUserId rp haulerUserId hp newId) = (l.id, rp, hp) := rfl

/-- `SET subtotal_isk = EXCLUDED.subtotal_isk, ...`. -/
def takeAmounts (new r : Reimbursement) : Reimbursement :=
  { r with subtotalIsk := new.subtotalIsk, tipIsk := new.tipIsk, totalIsk := new.totalIsk }

def moneyFits (r : Reimbursement) : Prop :=
  Fits 24 r.subtotalIsk ∧ Fits 24 r.tipIsk ∧ Fits 24 r.totalIsk

instance (r : Reimbursement) : Decidable (moneyFits r) := by
  unfold moneyFits
  infer_instance

def moneyNonneg (r : Reimbursement) : Prop :=
  0 ≤ r.subtotalIsk ∧ 0 ≤ r.tipIsk ∧ 0 ≤ r.totalIsk

instance (r : Reimbursement) : Decidable (moneyNonneg r) := by
  unfold moneyNonneg
  infer_instance

/-- Insert, or refresh the amounts of the cycle's row while it is pending. A missing list or
principal proposes no row, and the statement then does nothing. -/
def upsertReimbursement (s : Db) (listId requesterUserId haulerUserId newId : Uuid) :
    Except ApiError Db :=
  match s.list? listId with
  | none => .ok s
  | some l =>
    match s.directory.requesterPrincipal l.payer requesterUserId,
        s.directory.userPrincipal haulerUserId with
    | some rp, some hp => do
      let new := proposed s l requesterUserId rp haulerUserId hp newId
      -- The proposed row is cast and checked before the conflict is looked up.
      require (moneyFits new) DbError.numericOverflow.toApi
      require (moneyNonneg new) DbError.checkViolation.toApi
      let taken := fun r : Reimbursement =>
        decide (cycle r = cycle new) && decide (r.status ≠ .cancelled)
      if s.reimbursements.any taken then
        .ok { s with
          reimbursements := updateWhere (fun r => taken r && decide (r.status = .pending))
            (takeAmounts new) s.reimbursements }
      else do
        require (s.reimbursement? newId = none) DbError.duplicateKey.toApi
        .ok { s with reimbursements := s.reimbursements ++ [new] }
    | _, _ => .ok s

/-- The unlocked status read of `record_fulfillment` and `reverse_fulfillment`: the cycle's row
under the principals that the list's payer gives. -/
def reimbursementStatus (s : Db) (listId requesterUserId haulerUserId : Uuid) :
    Option ReimbursementStatus := do
  let l ← s.list? listId
  let rp ← s.directory.requesterPrincipal l.payer requesterUserId
  let hp ← s.directory.userPrincipal haulerUserId
  let r ← lookup cycle (listId, rp, hp) s.reimbursements
  return r.status

/-- How the handler reports a failed `settle_manual`. -/
def settleErrorToApi : SettlementError → ApiError
  | .notFound => .missing
  | .notPending status => .conflict s!"reimbursement is already {status}"
  | .notDelivered count =>
    .conflict s!"{count} item(s) must be fully bought and delivered before settling"
  | .db cause => cause.toApi

def settleReimbursement (s : Db) (userId reimbId : Uuid) (now : Timestamp) :
    Except ApiError Db := do
  let r ← fetch .missing (s.reimbursement? reimbId)
  lockList s r.listId
  require (r.status = .pending) (.conflict s!"reimbursement is already {r.status}")
  require (r.contractId = none)
    (.conflict "this reimbursement is bound to a contract; unlink it before settling manually")
  let l ← fetch .missing (s.list? r.listId)
  let role ← fetch .noAccess (s.directory.roleOf userId l.groupId)
  require (r.requesterUserId = some userId ∨ role = .owner) .noAccess
  (settleManual s reimbId userId now).mapError settleErrorToApi

/-- The upsert does nothing, refreshes the pending row of the cycle, or inserts it. -/
theorem upsertReimbursement_ok {s s' : Db} {listId requesterUserId haulerUserId newId : Uuid}
    (h : upsertReimbursement s listId requesterUserId haulerUserId newId = .ok s') :
    ((s.list? listId = none ∨ (∃ l, s.list? listId = some l ∧
        (s.directory.requesterPrincipal l.payer requesterUserId = none ∨
          s.directory.userPrincipal haulerUserId = none))) ∧ s' = s) ∨
    ∃ l rp hp, s.list? listId = some l ∧
      s.directory.requesterPrincipal l.payer requesterUserId = some rp ∧
      s.directory.userPrincipal haulerUserId = some hp ∧
      moneyFits (proposed s l requesterUserId rp haulerUserId hp newId) ∧
      moneyNonneg (proposed s l requesterUserId rp haulerUserId hp newId) ∧
      (((∃ r ∈ s.reimbursements, cycle r = (l.id, rp, hp) ∧ r.status ≠ .cancelled) ∧
          s' = { s with
            reimbursements := updateWhere
              (fun r => decide (cycle r = (l.id, rp, hp)) && decide (r.status ≠ .cancelled) &&
                decide (r.status = .pending))
              (takeAmounts (proposed s l requesterUserId rp haulerUserId hp newId))
              s.reimbursements }) ∨
        ((∀ r ∈ s.reimbursements, cycle r = (l.id, rp, hp) → r.status = .cancelled) ∧
          s.reimbursement? newId = none ∧
          s' = { s with
            reimbursements := s.reimbursements ++
              [proposed s l requesterUserId rp haulerUserId hp newId] })) := by
  unfold upsertReimbursement at h
  split at h
  · rename_i hl
    exact .inl ⟨.inl hl, (Except.ok.inj h).symm⟩
  · rename_i l hl
    split at h
    · rename_i rp hp hrp hhp
      simp only [bind_eq_ok, require_eq_ok] at h
      obtain ⟨-, fits, -, nonneg, h⟩ := h
      refine .inr ⟨l, rp, hp, hl, hrp, hhp, fits, nonneg, ?_⟩
      split at h
      · rename_i taken
        rw [List.any_eq_true] at taken
        obtain ⟨r, hr, htaken⟩ := taken
        simp only [Bool.and_eq_true, decide_eq_true_eq] at htaken
        exact .inl ⟨⟨r, hr, htaken.1, htaken.2⟩, (Except.ok.inj h).symm⟩
      · rename_i free
        simp only [bind_eq_ok, require_eq_ok] at h
        obtain ⟨-, fresh, h⟩ := h
        refine .inr ⟨fun r hr hc => ?_, fresh, (Except.ok.inj h).symm⟩
        by_contra hs
        exact free (List.any_eq_true.mpr ⟨r, hr, by simp [hs, hc]⟩)
    · rename_i missing
      refine .inl ⟨.inr ⟨l, hl, ?_⟩, (Except.ok.inj h).symm⟩
      cases hrp : s.directory.requesterPrincipal l.payer requesterUserId with
      | none => exact .inl rfl
      | some rp =>
        cases hhp : s.directory.userPrincipal haulerUserId with
        | none => exact .inr rfl
        | some hp => exact absurd hhp (missing rp hp hrp)

theorem settleReimbursement_ok {s s' : Db} {userId reimbId : Uuid} {now : Timestamp}
    (h : settleReimbursement s userId reimbId now = .ok s') :
    ∃ r, s.reimbursement? reimbId = some r ∧ r.contractId = none ∧
      settleManual s reimbId userId now = .ok s' := by
  simp only [settleReimbursement, bind_eq_ok, fetch_eq_ok, require_eq_ok, mapError_eq_ok] at h
  obtain ⟨r, hr, -, -, -, -, -, unbound, -, -, -, -, -, -, hsettle⟩ := h
  exact ⟨r, hr, unbound, hsettle⟩

end JitaCart.Api.Reimbursements
