/- module: JitaCart/Worker/Terminal
   source: backend/crates/worker/src/jobs/contracts_common.rs (handle_contract_terminal)
   digest: What the pollers do with a contract whose status just changed. -/

import JitaCart.Settlement

set_option autoImplicit false
set_option relaxedAutoImplicit false

namespace JitaCart.Worker.Terminal

open Schema Base.Request Settlement

structure UpsertedContract where
  contractId : Uuid
  status : ContractStatus
  statusChanged : Bool
  deriving DecidableEq

/-- The row that a poller keeps of an upsert's outcome. -/
def UpsertedContract.ofOutcome (o : ContractUpsertOutcome) : UpsertedContract :=
  ⟨o.contractId, o.currentStatus, o.statusChanged⟩

/-- Settle on a terminal success, unbind on a terminal failure, each in one transaction. -/
def handleContractTerminal (s : Db) (u : UpsertedContract) (now : Timestamp) :
    Except SettlementError Db :=
  if u.status.isTerminalSuccess then do
    let (_, s') ← settleViaContract s u.contractId now
    return s'
  else if u.status.isTerminalFailure then .ok (unbindContract s u.contractId).2
  else .ok s

theorem handleContractTerminal_ok {s s' : Db} {u : UpsertedContract} {now : Timestamp}
    (h : handleContractTerminal s u now = .ok s') :
    (u.status.isTerminalSuccess = true ∧
        ∃ infos, settleViaContract s u.contractId now = .ok (infos, s')) ∨
      (u.status.isTerminalFailure = true ∧ s' = (unbindContract s u.contractId).2) ∨
      (u.status.isTerminalSuccess = false ∧ u.status.isTerminalFailure = false ∧ s' = s) := by
  unfold handleContractTerminal at h
  split at h
  · rename_i success
    simp only [bind_eq_ok, pure_eq_ok] at h
    obtain ⟨⟨infos, s₁⟩, hsettle, rfl⟩ := h
    exact .inl ⟨success, infos, hsettle⟩
  · rename_i unsuccessful
    split at h
    · rename_i failure
      exact .inr (.inl ⟨failure, (Except.ok.inj h).symm⟩)
    · rename_i running
      exact .inr (.inr ⟨by simpa using unsuccessful, by simpa using running,
        (Except.ok.inj h).symm⟩)

end JitaCart.Worker.Terminal
