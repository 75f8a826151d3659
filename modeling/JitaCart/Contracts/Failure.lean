/- module: JitaCart/Contracts/Failure
   source: backend/crates/worker/src/jobs/contracts/match.rs (run_one),
     backend/crates/api/src/contracts.rs (validate_link, do_confirm, do_manual_link),
     backend/crates/settlement/src/lib.rs (unbind_contract)
   digest: When a contract that was unbound for a terminal failure stays without suggestions
     and bindings. -/

import JitaCart.Contracts.LinkStep

/-!
`unbind_contract` clears a dead contract once. `validate_link` does not look at the contract's
status afterwards, so what keeps it clear is that no valid manual link names it. `run_one` does
not look either, but fails before it writes a suggestion.
-/

set_option autoImplicit false
set_option relaxedAutoImplicit false

namespace JitaCart.Contracts

open Schema Base.Table Base.Request Settlement Operations
open Api.Reimbursements Api.Contracts Worker.Match Worker.Terminal

/-- Nothing waits on the contract: no pending suggestion, and no pending reimbursement bound. -/
structure Dead (cid : Uuid) (s : Db) : Prop where
  suggestions : ∀ g ∈ s.suggestions, g.contractId = cid → g.state ≠ .pending
  bindings : ∀ r ∈ s.reimbursements, r.contractId = some cid → r.status ≠ .pending

/-- The request does not put the contract back to use: a manual link to it fails validation. -/
def LeavesDead (cid : Uuid) (s : Db) : Op → Prop
  | .doManualLink userId contractId reimbursementId _ _ => contractId = cid →
      ∀ c ∈ s.contract? contractId, ∀ r ∈ s.reimbursement? reimbursementId,
        ∀ l ∈ s.list? r.listId, validateLink s c r l.groupId userId ≠ .ok ()
  | _ => True

instance (cid : Uuid) (s : Db) (o : Op) : Decidable (LeavesDead cid s o) := by
  unfold LeavesDead
  split <;> infer_instance

section Steps
variable {s s' : Db} {cid : Uuid}

private theorem Dead.kept (dead : Dead cid s) (h : Kept s s') : Dead cid s' := by
  refine ⟨?_, ?_⟩
  · rw [h.suggestions]
    exact dead.suggestions
  · intro r' hr' bound pending
    rcases h.origin r' hr' with ⟨r, hr, aged⟩ | ⟨unbound, -⟩
    · have was : r.contractId = some cid := aged.2.1.symm.trans bound
      exact dead.bindings r hr was (aged.2.2 pending)
    · rw [unbound] at bound
      cases bound

private theorem Dead.restate (dead : Dead cid s) {p : Suggestion → Bool}
    {state : ContractMatchState} (left : state ≠ .pending) :
    Dead cid { s with
      suggestions := updateWhere p (fun g => { g with state := state }) s.suggestions } := by
  refine ⟨?_, dead.bindings⟩
  intro g' hg' own
  obtain ⟨g, hg, rfl⟩ := mem_updateWhere.mp hg'
  split
  · exact left
  · rename_i off
    rw [if_neg off] at own
    exact dead.suggestions g hg own

private theorem Dead.unbindReimbursements (dead : Dead cid s) (other : Uuid) :
    Dead cid (unbindReimbursements s other) := by
  refine ⟨dead.suggestions, ?_⟩
  intro r' hr' bound
  obtain ⟨r, hr, rfl⟩ := mem_updateWhere.mp hr'
  split at bound
  · cases bound
  · rename_i off
    rw [if_neg off]
    exact dead.bindings r hr bound

private theorem Dead.bindReimbursement (dead : Dead cid s) {other rid : Uuid}
    (apart : other ≠ cid) :
    Dead cid (bindReimbursement s other rid) := by
  refine ⟨dead.suggestions, ?_⟩
  intro r' hr' bound
  obtain ⟨r, hr, rfl⟩ := mem_updateWhere.mp hr'
  split at bound
  · exact absurd (Option.some.inj bound) apart
  · rename_i off
    rw [if_neg off]
    exact dead.bindings r hr bound

private theorem Dead.upsertConfirmed (dead : Dead cid s) {other rid newId : Uuid}
    (h : upsertConfirmed s other rid newId = .ok s') : Dead cid s' := by
  obtain ⟨-, ⟨-, rfl⟩ | ⟨-, -, rfl⟩⟩ := upsertConfirmed_ok h
  · exact dead.restate (by simp)
  · refine ⟨?_, dead.bindings⟩
    intro g hg own
    rcases List.mem_append.mp hg with hg | hg
    · exact dead.suggestions g hg own
    · rw [List.mem_singleton.mp hg]
      simp

end Steps

private theorem doManualLink_valid {s s' : Db} {userId cid rid newId : Uuid} {now : Timestamp}
    (h : doManualLink s userId cid rid newId now = .ok s') :
    ∃ c r l, s.contract? cid = some c ∧ s.reimbursement? rid = some r ∧
      s.list? r.listId = some l ∧ validateLink s c r l.groupId userId = .ok () := by
  simp only [doManualLink, bind_eq_ok, fetch_eq_ok] at h
  obtain ⟨c, hc, r, hr, l, hl, _, valid, -⟩ := h
  exact ⟨c, r, l, hc, hr, hl, valid⟩

private theorem dead_step {cid : Uuid} (s : Db) (o : Op) (s' : Db) (dead : Dead cid s)
    (leaves : LeavesDead cid s o) (h : apply o s = .ok s') : Dead cid s' := by
  cases linkStep_of_ok h with
  | kept h => exact dead.kept h
  | upserted h =>
    obtain ⟨contracts, rfl⟩ := upsertContract_shape h
    exact ⟨dead.suggestions, dead.bindings⟩
  | rejected h =>
    subst h
    exact dead.restate (by simp)
  | confirmed hg pending _ _ _ h =>
    -- The suggestion was pending, so it is one of another contract.
    have apart := fun own => dead.suggestions _ (lookup_mem hg).1 own pending
    exact ((dead.restate (by simp)).bindReimbursement apart).kept h
  | linked _ _ _ hup hk =>
    obtain ⟨c, r, l, hc, hr, hl, valid⟩ := doManualLink_valid (mapError_eq_ok.mp h)
    have apart := fun own => leaves own c hc r hr l hl valid
    exact ((dead.upsertConfirmed hup).bindReimbursement apart).kept hk
  | unlinked h => exact ((dead.unbindReimbursements _).restate (by simp)).kept h
  | unbound _ h => exact ((dead.unbindReimbursements _).restate (by simp)).kept h
  | matched =>
    rw [runOne_unchanged (mapError_eq_ok.mp h)]
    exact dead

/-- The handler of a terminal failure leaves nothing waiting on the contract. -/
theorem dead_unbindContract (s : Db) (cid : Uuid) : Dead cid (unbindContract s cid).2 := by
  refine ⟨?_, ?_⟩
  · intro g' hg' own pending
    obtain ⟨g, -, rfl⟩ := mem_updateWhere.mp hg'
    split at pending
    · cases pending
    · rename_i stays
      rw [if_neg stays] at own
      exact stays (by simp [own, pending])
  · intro r' hr' bound pending
    obtain ⟨r, -, rfl⟩ := mem_updateWhere.mp hr'
    split at bound
    · cases bound
    · rename_i stays
      rw [if_neg stays] at pending
      exact stays (by simp [pendingOn, boundTo, bound, pending])

/-- A failed contract stays dead: after its terminal handler, along every later run that leaves it
alone, it has no pending suggestion and no pending reimbursement bound to it. -/
theorem failed_contract_stays_dead {before later : List Op} {u : UpsertedContract}
    {now : Timestamp} (failure : u.status.isTerminalFailure = true)
    (leaves : Meets apply (LeavesDead u.contractId)
      (reached (before ++ [.handleContractTerminal u now])) later) :
    (∀ g ∈ (reached (before ++ [.handleContractTerminal u now] ++ later)).suggestions,
      g.contractId = u.contractId → g.state ≠ .pending) ∧
    ∀ r ∈ (reached (before ++ [.handleContractTerminal u now] ++ later)).reimbursements,
      r.contractId = some u.contractId → r.status ≠ .pending := by
  have unsuccessful : u.status.isTerminalSuccess = false := by
    cases hu : u.status <;> simp_all [ContractStatus.isTerminalSuccess,
      ContractStatus.isTerminalFailure]
  have handled : apply (.handleContractTerminal u now) (reached before) =
      .ok (unbindContract (reached before) u.contractId).2 := by
    simp [apply, handleContractTerminal, unsuccessful, failure, Except.mapError]
  have start : Dead u.contractId (reached (before ++ [.handleContractTerminal u now])) := by
    rw [reached_append, run_cons, run_nil, exec_of_ok handled]
    exact dead_unbindContract _ _
  have done : Dead u.contractId (reached (before ++ [.handleContractTerminal u now] ++ later)) := by
    rw [reached_append]
    exact meets_invariant dead_step start leaves
  exact ⟨done.suggestions, done.bindings⟩

/-- A linked purchase whose contract, with its items synced, is cancelled. -/
def brokenDeal : List Op :=
  [.directory sampleDirectory,
    .create sampleLimits 1 1 [⟨34, "Tritanium", 10, 1⟩] 1 [1],
    .recordFulfillment 3 1 1 (samplePurchase 5 1) ⟨1, 1, 0⟩,
    .upsertContract (sampleContract .outstanding) 1,
    .syncItemsFor 1 [⟨1, 1, 34, 5, true⟩] 1,
    .doManualLink 3 1 1 1 1,
    .upsertContract (sampleContract .cancelled) 1]

/-- The next tick polls the contract again and runs the matcher on it. -/
def nextTick : List Op := [.upsertContract (sampleContract .cancelled) 1, .runOne 1 id]

theorem failed_contract_stays_dead_brokenDeal :
    Meets apply (LeavesDead 1)
        (reached (brokenDeal ++ [.handleContractTerminal ⟨1, .cancelled, true⟩ 2])) nextTick ∧
      ∀ r ∈ (reached (brokenDeal ++ [.handleContractTerminal ⟨1, .cancelled, true⟩ 2] ++
        nextTick)).reimbursements, r.contractId = some 1 → r.status ≠ .pending := by
  have leaves : Meets apply (LeavesDead 1)
      (reached (brokenDeal ++ [.handleContractTerminal ⟨1, .cancelled, true⟩ 2])) nextTick := by
    decide +kernel
  exact ⟨leaves, (failed_contract_stays_dead (u := ⟨1, .cancelled, true⟩) rfl leaves).2⟩

/-- A purchase and a contract that is cancelled before anything is linked to it. -/
def unlinkedDeal : List Op :=
  [.directory sampleDirectory,
    .create sampleLimits 1 1 [⟨34, "Tritanium", 10, 1⟩] 1 [1],
    .recordFulfillment 3 1 1 (samplePurchase 10 1) ⟨1, 1, 0⟩,
    .markDelivered 3 1 1 (some 3),
    .upsertContract (sampleContract .outstanding) 1,
    .upsertContract (sampleContract .cancelled) 1,
    .handleContractTerminal ⟨1, .cancelled, true⟩ 2]

/-- The hauler's manual link to the cancelled contract is accepted, the contract keeps its status,
and the requester can no longer settle by hand. -/
theorem dead_contract_takes_link :
    (settleReimbursement (reached unlinkedDeal) 1 1 3).isOk = true ∧
    (∃ c ∈ (reached (unlinkedDeal ++ [.doManualLink 3 1 1 1 3])).contracts,
      c.id = 1 ∧ c.status = .cancelled) ∧
    (∃ r ∈ (reached (unlinkedDeal ++ [.doManualLink 3 1 1 1 3])).reimbursements,
      r.contractId = some 1 ∧ r.status = .pending) ∧
    settleReimbursement (reached (unlinkedDeal ++ [.doManualLink 3 1 1 1 3])) 1 1 4 =
      .error (.conflict
        "this reimbursement is bound to a contract; unlink it before settling manually") := by
  decide +kernel

end JitaCart.Contracts
