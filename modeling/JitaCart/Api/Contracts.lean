/- module: JitaCart/Api/Contracts
   source: backend/crates/api/src/contracts.rs,
     backend/migrations/20260427000000_init.sql (contract_match_suggestions)
   digest: Confirming, rejecting, linking and unlinking a contract. -/

import JitaCart.Settlement

set_option autoImplicit false
set_option relaxedAutoImplicit false

namespace JitaCart.Api.Contracts

open Schema Base.Table Base.Request Settlement

/-- How the link handlers report a settlement failure. -/
def linkErrorToApi : SettlementError → ApiError
  | .notFound => .internal "settle_via_contract: settlement target not found"
  | .notPending status => .internal s!"settle_via_contract: not in pending state: {status}"
  | .notDelivered count => .internal s!"settle_via_contract: items still owe delivery: {count}"
  | .db cause => cause.toApi

def isMember (s : Db) (groupId userId : Uuid) : Prop := s.directory.roleOf userId groupId ≠ none

instance (s : Db) (groupId userId : Uuid) : Decidable (isMember s groupId userId) := by
  unfold isMember
  infer_instance

/-- `validate_link` on the locked contract and reimbursement. -/
def validateLink (s : Db) (c : Contract) (r : Reimbursement) (groupId userId : Uuid) :
    Except ApiError Unit := do
  require (c.contractType = .itemExchange) (.conflict "contract is not item_exchange")
  require (r.status = .pending ∧ r.contractId = none)
    (.conflict "reimbursement is no longer eligible")
  require (r.haulerUserId = userId) .noAccess
  require (c.issuerUserId = none ∨ c.issuerUserId = some userId) .noAccess
  require (c.issuerPrincipalId = some r.haulerPrincipalId)
    (.conflict "contract issuer does not match the reimbursement's hauler")
  require (∀ a ∈ c.assigneePrincipalId, a = r.requesterPrincipalId)
    (.conflict "contract assignee does not match the reimbursement's requester")
  require (isMember s groupId userId) .noAccess

def bindReimbursement (s : Db) (cid rid : Uuid) : Db :=
  { s with
    reimbursements := updateWhere (fun r => decide (r.id = rid))
      (fun r => { r with contractId := some cid }) s.reimbursements }

/-- Bind, refresh the expected total, and settle when the contract is already finished. -/
def finalizeLink (s : Db) (c : Contract) (rid : Uuid) (now : Timestamp) : Except ApiError Db := do
  let s₁ ← (recomputeContractExpectedTotal (bindReimbursement s c.id rid) c.id).mapError
    linkErrorToApi
  if c.status.isTerminalSuccess then do
    let (_, s₂) ← (settleViaContract s₁ c.id now).mapError linkErrorToApi
    return s₂
  else
    return s₁

/-- `one_confirmed_suggestion_per_reimbursement`, for a row about to become confirmed. -/
def confirmedElsewhere (s : Db) (rid : Uuid) (self : Suggestion → Bool) : Prop :=
  ∃ g ∈ s.suggestions, g.reimbursementId = rid ∧ g.state = .confirmed ∧ self g = false

instance (s : Db) (rid : Uuid) (self : Suggestion → Bool) :
    Decidable (confirmedElsewhere s rid self) := by
  unfold confirmedElsewhere
  infer_instance

/-- `map_confirmed_dup`. -/
def confirmedDup : ApiError :=
  .conflict "reimbursement already confirmed against another contract"

def confirmWhere (s : Db) (self : Suggestion → Bool) : Db :=
  { s with
    suggestions := updateWhere self (fun g => { g with state := .confirmed }) s.suggestions }

def doConfirm (s : Db) (userId suggestionId : Uuid) (now : Timestamp) : Except ApiError Db := do
  let g ← fetch .missing (s.suggestion? suggestionId)
  let c ← fetch .missing (s.contract? g.contractId)
  let r ← fetch .missing (s.reimbursement? g.reimbursementId)
  let l ← fetch .missing (s.list? r.listId)
  require (g.state = .pending) (.conflict s!"suggestion is already {g.state}")
  validateLink s c r l.groupId userId
  let self := fun x : Suggestion => decide (x.id = suggestionId)
  require (¬ confirmedElsewhere s r.id self) confirmedDup
  finalizeLink (confirmWhere s self) c r.id now

/-- A personal contract is rejected by its issuer, a corp one by the hauler. -/
def doReject (s : Db) (userId suggestionId : Uuid) : Except ApiError Db := do
  let g ← fetch .missing (s.suggestion? suggestionId)
  let c ← fetch .missing (s.contract? g.contractId)
  let r ← fetch .missing (s.reimbursement? g.reimbursementId)
  let l ← fetch .missing (s.list? r.listId)
  require (g.state = .pending) (.conflict s!"suggestion is already {g.state}")
  require (c.issuerUserId.getD r.haulerUserId = userId) .noAccess
  require (isMember s l.groupId userId) .noAccess
  .ok { s with
    suggestions := updateWhere (fun x => decide (x.id = suggestionId))
      (fun x => { x with state := .rejected }) s.suggestions }

def pairOf (cid rid : Uuid) (g : Suggestion) : Bool :=
  decide (g.contractId = cid) && decide (g.reimbursementId = rid)

/-- `INSERT ... VALUES (..., 1.0000, FALSE, 'confirmed', ...) ON CONFLICT DO UPDATE`. -/
def upsertConfirmed (s : Db) (cid rid newId : Uuid) : Except ApiError Db := do
  require (¬ confirmedElsewhere s rid (pairOf cid rid)) confirmedDup
  if s.suggestions.any (pairOf cid rid) then
    .ok (confirmWhere s (pairOf cid rid))
  else do
    require (s.suggestion? newId = none) DbError.duplicateKey.toApi
    .ok { s with suggestions := s.suggestions ++ [⟨newId, cid, rid, 1, false, .confirmed⟩] }

def doManualLink (s : Db) (userId contractId reimbursementId newId : Uuid) (now : Timestamp) :
    Except ApiError Db := do
  let c ← fetch .missing (s.contract? contractId)
  let r ← fetch .missing (s.reimbursement? reimbursementId)
  let l ← fetch .missing (s.list? r.listId)
  validateLink s c r l.groupId userId
  let s₁ ← upsertConfirmed s c.id r.id newId
  finalizeLink s₁ c r.id now

/-- Issuer of a personal contract; assignee or a source-corp ambassador of a corp one. -/
def mayUnlink (s : Db) (c : Contract) (userId : Uuid) : Prop :=
  match c.issuerUserId with
  | some issuer => issuer = userId
  | none => c.assigneeUserId = some userId ∨ ∃ corp ∈ c.sourceCorpId,
      ∃ ca ∈ s.directory.corpAmbassadors, ca.corpId = corp ∧ ca.disabledAt = none ∧
        ∃ ch ∈ s.directory.characters, ch.id = ca.characterId ∧ ch.userId = userId

instance (s : Db) (c : Contract) (userId : Uuid) : Decidable (mayUnlink s c userId) := by
  unfold mayUnlink
  split <;> infer_instance

def doUnlink (s : Db) (userId contractId : Uuid) : Except ApiError Db := do
  let c ← fetch .missing (s.contract? contractId)
  require (mayUnlink s c userId) .noAccess
  require (∀ r ∈ s.reimbursements, boundTo contractId r = true → ∀ l ∈ s.list? r.listId,
    isMember s l.groupId userId) .noAccess
  require (c.status.isTerminalSuccess = false)
    (.conflict "cannot unlink a finished contract; that would unwind a settlement")
  (recomputeContractExpectedTotal
    (supersede (unbindReimbursements s contractId) contractId .confirmed) contractId).mapError
      linkErrorToApi

private theorem recomputeContractExpectedTotal_ok {s s' : Db} {cid : Uuid}
    (h : recomputeContractExpectedTotal s cid = .ok s') :
    s' = setExpectedTotal s cid (boundTotal s cid) := by
  simp only [recomputeContractExpectedTotal, bind_eq_ok, require_eq_ok] at h
  obtain ⟨-, -, h⟩ := h
  exact (Except.ok.inj h).symm

theorem finalizeLink_ok {s s' : Db} {c : Contract} {rid : Uuid} {now : Timestamp}
    (h : finalizeLink s c rid now = .ok s') :
    let s₁ := setExpectedTotal (bindReimbursement s c.id rid) c.id
      (boundTotal (bindReimbursement s c.id rid) c.id)
    (c.status.isTerminalSuccess = true ∧ ∃ infos, settleViaContract s₁ c.id now = .ok (infos, s')) ∨
      (c.status.isTerminalSuccess = false ∧ s' = s₁) := by
  simp only [finalizeLink, bind_eq_ok, mapError_eq_ok] at h
  obtain ⟨s₁, hs₁, h⟩ := h
  obtain rfl := recomputeContractExpectedTotal_ok hs₁
  split at h
  · rename_i finished
    simp only [bind_eq_ok, mapError_eq_ok, pure_eq_ok] at h
    obtain ⟨⟨infos, s₂⟩, hsettle, rfl⟩ := h
    exact .inl ⟨finished, infos, hsettle⟩
  · rename_i unfinished
    exact .inr ⟨by simpa using unfinished, (pure_eq_ok.mp h).symm⟩

theorem validateLink_ok {s : Db} {c : Contract} {r : Reimbursement} {groupId userId : Uuid}
    {u : Unit} (h : validateLink s c r groupId userId = .ok u) :
    r.status = .pending ∧ r.contractId = none ∧ c.issuerPrincipalId = some r.haulerPrincipalId := by
  simp only [validateLink, bind_eq_ok, require_eq_ok] at h
  obtain ⟨-, -, -, ⟨pending, unbound⟩, -, -, -, -, -, issuer, -⟩ := h
  exact ⟨pending, unbound, issuer⟩

theorem doConfirm_ok {s s' : Db} {userId suggestionId : Uuid} {now : Timestamp}
    (h : doConfirm s userId suggestionId now = .ok s') :
    ∃ g c r, s.suggestion? suggestionId = some g ∧ s.contract? g.contractId = some c ∧
      s.reimbursement? g.reimbursementId = some r ∧ g.state = .pending ∧
      r.status = .pending ∧ r.contractId = none ∧
      finalizeLink (confirmWhere s fun x => decide (x.id = suggestionId)) c r.id now = .ok s' := by
  simp only [doConfirm, bind_eq_ok, fetch_eq_ok, require_eq_ok] at h
  obtain ⟨g, hg, c, hc, r, hr, l, -, -, pending, _, valid, -, -, h⟩ := h
  obtain ⟨rpending, unbound, -⟩ := validateLink_ok valid
  exact ⟨g, c, r, hg, hc, hr, pending, rpending, unbound, h⟩

theorem doReject_ok {s s' : Db} {userId suggestionId : Uuid}
    (h : doReject s userId suggestionId = .ok s') :
    ∃ g, s.suggestion? suggestionId = some g ∧ g.state = .pending ∧
      s' = { s with
        suggestions := updateWhere (fun x => decide (x.id = suggestionId))
          (fun x => { x with state := .rejected }) s.suggestions } := by
  simp only [doReject, bind_eq_ok, fetch_eq_ok, require_eq_ok] at h
  obtain ⟨g, hg, -, -, -, -, -, -, -, pending, -, -, -, -, h⟩ := h
  exact ⟨g, hg, pending, (Except.ok.inj h).symm⟩

theorem upsertConfirmed_ok {s s' : Db} {cid rid newId : Uuid}
    (h : upsertConfirmed s cid rid newId = .ok s') :
    ¬ confirmedElsewhere s rid (pairOf cid rid) ∧
      (((∃ g ∈ s.suggestions, pairOf cid rid g = true) ∧ s' = confirmWhere s (pairOf cid rid)) ∨
        ((∀ g ∈ s.suggestions, pairOf cid rid g = false) ∧ s.suggestion? newId = none ∧
          s' = { s with
            suggestions := s.suggestions ++ [⟨newId, cid, rid, 1, false, .confirmed⟩] })) := by
  simp only [upsertConfirmed, bind_eq_ok, require_eq_ok] at h
  obtain ⟨-, single, h⟩ := h
  refine ⟨single, ?_⟩
  split at h
  · rename_i known
    exact .inl ⟨List.any_eq_true.mp known, (Except.ok.inj h).symm⟩
  · rename_i unknown
    simp only [bind_eq_ok, require_eq_ok] at h
    obtain ⟨-, fresh, h⟩ := h
    refine .inr ⟨fun g hg => ?_, fresh, (Except.ok.inj h).symm⟩
    by_contra hp
    exact unknown (List.any_eq_true.mpr ⟨g, hg, by simpa using hp⟩)

theorem doManualLink_ok {s s' : Db} {userId contractId reimbursementId newId : Uuid}
    {now : Timestamp} (h : doManualLink s userId contractId reimbursementId newId now = .ok s') :
    ∃ c r s₁, s.contract? contractId = some c ∧ s.reimbursement? reimbursementId = some r ∧
      r.status = .pending ∧ r.contractId = none ∧
      upsertConfirmed s c.id r.id newId = .ok s₁ ∧ finalizeLink s₁ c r.id now = .ok s' := by
  simp only [doManualLink, bind_eq_ok, fetch_eq_ok] at h
  obtain ⟨c, hc, r, hr, l, -, _, valid, s₁, hup, h⟩ := h
  obtain ⟨pending, unbound, -⟩ := validateLink_ok valid
  exact ⟨c, r, s₁, hc, hr, pending, unbound, hup, h⟩

theorem doUnlink_ok {s s' : Db} {userId contractId : Uuid}
    (h : doUnlink s userId contractId = .ok s') :
    ∃ c, s.contract? contractId = some c ∧ c.status.isTerminalSuccess = false ∧
      s' = setExpectedTotal (supersede (unbindReimbursements s contractId) contractId .confirmed)
        contractId (boundTotal (unbindReimbursements s contractId) contractId) := by
  simp only [doUnlink, bind_eq_ok, fetch_eq_ok, require_eq_ok, mapError_eq_ok] at h
  obtain ⟨c, hc, -, -, -, -, -, unfinished, h⟩ := h
  exact ⟨c, hc, unfinished, recomputeContractExpectedTotal_ok h⟩

end JitaCart.Api.Contracts
