/- module: JitaCart/Contracts/Transitions
   source: backend/crates/worker/src/jobs/contracts.rs (run), backend/crates/worker/src/jobs/corp_contracts.rs
     (run), backend/crates/worker/src/jobs/contracts_common.rs (handle_contract_terminal)
   digest: Terminal transitions of a contract under crashes, failures and interleaved pollers. -/

import JitaCart.Contracts.Failure
import JitaCart.Worker.Tick

/-!
The status difference that triggers a terminal handler is erased by the commit that observes
it. Until the handler has run, the transition lives only in the memory of the poller that
committed it, and what makes it survive is that this poller gets there.
-/

set_option autoImplicit false
set_option relaxedAutoImplicit false

namespace JitaCart.Contracts

open Schema Base.Table Base.Request Settlement Operations
open Api.Contracts Worker.Match Worker.Terminal Worker.Tick

def terminal (status : ContractStatus) : Bool :=
  status.isTerminalSuccess || status.isTerminalFailure

/-- An upsert that brought the contract to a terminal status. -/
def transition (cid : Uuid) (u : UpsertedContract) : Bool :=
  decide (u.contractId = cid) && u.statusChanged && terminal u.status

/-- The event loses no terminal transition of the contract: no crash, early return or lost report
of a poller that holds one, and its handler succeeds. -/
def Prompt (cid : Uuid) (w : World) : Event → Prop
  | .pollLost _ batch => ∀ out ∈ (upsertBatch w.db batch).toOption, ∀ u ∈ out.1,
      transition cid u = false
  | .handle p now => ∀ u ∈ (w.phase p).current?, transition cid u = true →
      (handleContractTerminal w.db u now).isOk = true
  | .handleFails p => ∀ u ∈ (w.phase p).current?, transition cid u = false
  | .crash p => ∀ u ∈ (w.phase p).upserts, transition cid u = false
  | _ => True

instance (cid : Uuid) (w : World) (e : Event) : Decidable (Prompt cid w e) := by
  unfold Prompt
  split <;> infer_instance

-- What an event does to contract statuses and to the upserts that await their handler.
inductive Turn (w : World) : Event → World → Prop
  | quiet {e : Event} {w' : World}
      (standings : w'.db.contracts.map standing = w.db.contracts.map standing)
      (queues : ∀ q, (w'.phase q).upserts = (w.phase q).upserts) : Turn w e w'
  | polled {p : Poller} {batch : List (ContractUpsert × Uuid)} {us : List UpsertedContract}
      {w' : World} (h : upsertBatch w.db batch = .ok (us, w'.db))
      (queues : ∀ q, (w'.phase q).upserts = (w.phase q).upserts ++ if q = p then us else []) :
      Turn w (.poll p batch) w'
  | lost {p : Poller} {batch : List (ContractUpsert × Uuid)} {us : List UpsertedContract}
      {w' : World} (h : upsertBatch w.db batch = .ok (us, w'.db))
      (queues : ∀ q, (w'.phase q).upserts = (w.phase q).upserts) : Turn w (.pollLost p batch) w'
  | handled {p : Poller} {now : Timestamp} {u : UpsertedContract} {w' : World}
      (at_ : (w.phase p).current? = some u)
      (standings : w'.db.contracts.map standing = w.db.contracts.map standing)
      (queues : ∀ q, (w.phase q).upserts = (if q = p then [u] else []) ++ (w'.phase q).upserts)
      (done : ∀ s, u.statusChanged = true → handleContractTerminal w.db u now = .ok s → w'.db = s) :
      Turn w (.handle p now) w'
  | failed {p : Poller} {u : UpsertedContract} {w' : World} (at_ : (w.phase p).current? = some u)
      (db : w'.db = w.db)
      (queues : ∀ q, (w.phase q).upserts = (if q = p then [u] else []) ++ (w'.phase q).upserts) :
      Turn w (.handleFails p) w'
  | crashed {p : Poller} {w' : World} (db : w'.db = w.db)
      (queues : ∀ q, q ≠ p → (w'.phase q).upserts = (w.phase q).upserts) : Turn w (.crash p) w'

section Turns
variable {s s' : Db}

private theorem standings_of_ok {o : Op} (h : apply o s = .ok s') :
    s'.contracts.map standing = s.contracts.map standing ∨ ∃ u newId, o = .upsertContract u newId := by
  cases linkStep_of_ok h with
  | kept h => exact .inl h.standings
  | upserted h => exact .inr ⟨_, _, rfl⟩
  | rejected h => exact .inl (by rw [h])
  | confirmed _ _ _ _ _ h => exact .inl h.standings
  | linked _ _ _ hup h =>
    obtain ⟨-, ⟨-, rfl⟩ | ⟨-, -, rfl⟩⟩ := upsertConfirmed_ok hup
    · exact .inl h.standings
    · exact .inl h.standings
  | unlinked h => exact .inl h.standings
  | unbound _ h => exact .inl h.standings
  | matched _ _ _ h => exact .inl (by rw [h])

private theorem standings_orKeep {o : Op} {ε : Type} {x : Except ε Db}
    (h : ∀ s', x = .ok s' → apply o s = .ok s') (other : ∀ u newId, o ≠ .upsertContract u newId) :
    (orKeep s x).contracts.map standing = s.contracts.map standing := by
  cases x with
  | error e => rfl
  | ok s' =>
    rcases standings_of_ok (h s' rfl) with same | ⟨u, newId, ho⟩
    · exact same
    · exact absurd ho (other u newId)

end Turns

private theorem queues_move {w : World} {p : Poller} {phase : Phase} {db : Db}
    (same : phase.upserts = (w.phase p).upserts) (q : Poller) :
    ((w.move p phase db).phase q).upserts = (w.phase q).upserts := by
  simp only [World.move]
  split
  · rename_i own
    rw [own, same]
  · rfl

private theorem queues_handled {w : World} {p : Poller} {u : UpsertedContract}
    {us : List UpsertedContract} {db : Db} (hp : w.phase p = .handling (u :: us)) (q : Poller) :
    (w.phase q).upserts =
      (if q = p then [u] else []) ++ ((w.move p (.handling us) db).phase q).upserts := by
  simp only [World.move]
  split
  · rename_i own
    rw [own, hp]
    rfl
  · rfl

section Events
variable {w w' : World}

private theorem turn_request {o : Op} (h : step (.request o) w = .ok w') :
    Turn w (.request o) w' := by
  simp only [step] at h
  split at h
  · rename_i request
    simp only [bind_eq_ok, mapError_eq_ok, Except.ok.injEq] at h
    obtain ⟨s, hs, rfl⟩ := h
    rcases standings_of_ok hs with same | ⟨u, newId, rfl⟩
    · exact .quiet same fun _ => rfl
    · cases request
  · cases h

private theorem turn_poll {p : Poller} {batch : List (ContractUpsert × Uuid)}
    (h : step (.poll p batch) w = .ok w') : Turn w (.poll p batch) w' := by
  simp only [step] at h
  split at h
  · rename_i us synced hp
    simp only [bind_eq_ok, mapError_eq_ok, Prod.exists, Except.ok.injEq] at h
    obtain ⟨new, s, hs, rfl⟩ := h
    refine .polled hs fun q => ?_
    simp only [World.move]
    split
    · rename_i own
      rw [own, hp]
      rfl
    · simp
  · cases h

private theorem turn_pollLost {p : Poller} {batch : List (ContractUpsert × Uuid)}
    (h : step (.pollLost p batch) w = .ok w') : Turn w (.pollLost p batch) w' := by
  simp only [step] at h
  split at h
  · rename_i us synced hp
    simp only [bind_eq_ok, mapError_eq_ok, Prod.exists, Except.ok.injEq] at h
    obtain ⟨new, s, hs, rfl⟩ := h
    exact .lost hs (queues_move (by rw [hp]))
  · cases h

private theorem turn_syncItems {cid : Uuid} {items : List ContractItem} {now : Timestamp}
    (h : step (.syncItems cid items now) w = .ok w') : Turn w (.syncItems cid items now) w' := by
  simp only [step] at h
  split at h
  · rename_i us synced hp
    simp only [bind_eq_ok, mapError_eq_ok, Except.ok.injEq] at h
    obtain ⟨s, hs, rfl⟩ := h
    obtain ⟨rows, rfl⟩ := syncItemsFor_ok hs
    exact .quiet (map_updateWhere standing _ fun _ _ _ => rfl) (queues_move (by rw [hp]; rfl))
  · cases h

private theorem turn_advance {p : Poller} (h : step (.advance p) w = .ok w') :
    Turn w (.advance p) w' := by
  simp only [step] at h
  split at h
  all_goals first
    | rename_i hp
      obtain rfl := (Except.ok.inj h).symm
      exact .quiet rfl (queues_move (by rw [hp]; rfl))
    | cases h

private theorem turn_matchOne {p : Poller} {cid : Uuid} {newId : Uuid → Uuid}
    (h : step (.matchOne p cid newId) w = .ok w') : Turn w (.matchOne p cid newId) w' := by
  simp only [step] at h
  split at h
  · rename_i ids us hp
    split at h
    · obtain rfl := (Except.ok.inj h).symm
      have same : (orKeep w.db (runOne w.db cid newId)).contracts.map standing =
          w.db.contracts.map standing :=
        standings_orKeep (o := .runOne cid newId) (fun _ ok => mapError_eq_ok.mpr ok) (by simp)
      exact .quiet same (queues_move (by rw [hp]; rfl))
    · cases h
  · cases h

private theorem turn_matchFails {p : Poller} {cid : Uuid}
    (h : step (.matchFails p cid) w = .ok w') :
    Turn w (.matchFails p cid) w' := by
  simp only [step] at h
  split at h
  · rename_i ids us hp
    obtain rfl := (Except.ok.inj h).symm
    exact .quiet rfl (queues_move (by rw [hp]; rfl))
  · cases h

private theorem turn_handle {p : Poller} {now : Timestamp} (h : step (.handle p now) w = .ok w') :
    Turn w (.handle p now) w' := by
  simp only [step] at h
  split at h
  · rename_i u us hp
    split at h
    · obtain rfl := (Except.ok.inj h).symm
      have same : (orKeep w.db (handleContractTerminal w.db u now)).contracts.map standing =
          w.db.contracts.map standing :=
        standings_orKeep (o := .handleContractTerminal u now)
          (fun _ ok => mapError_eq_ok.mpr ok) (by simp)
      refine .handled (by rw [hp]; rfl) same (queues_handled hp) fun s _ hs => ?_
      change orKeep w.db (handleContractTerminal w.db u now) = s
      rw [hs]
      rfl
    · rename_i unchanged
      obtain rfl := (Except.ok.inj h).symm
      exact .handled (by rw [hp]; rfl) rfl (queues_handled hp)
        fun s changed _ => absurd changed unchanged
  · cases h

private theorem turn_handleFails {p : Poller} (h : step (.handleFails p) w = .ok w') :
    Turn w (.handleFails p) w' := by
  simp only [step] at h
  split at h
  · rename_i u us hp
    obtain rfl := (Except.ok.inj h).symm
    exact .failed (u := u) (by rw [hp]; rfl) rfl (queues_handled hp)
  · cases h

private theorem turn_crash {p : Poller} (h : step (.crash p) w = .ok w') :
    Turn w (.crash p) w' := by
  obtain rfl := (Except.ok.inj h).symm
  refine .crashed rfl fun q other => ?_
  simp only [World.move, if_neg other]

private theorem turn_of_ok {e : Event} (h : step e w = .ok w') : Turn w e w' := by
  cases e with
  | request o => exact turn_request h
  | poll p batch => exact turn_poll h
  | pollLost p batch => exact turn_pollLost h
  | syncItems cid items now => exact turn_syncItems h
  | advance p => exact turn_advance h
  | matchOne p cid newId => exact turn_matchOne h
  | matchFails p cid => exact turn_matchFails h
  | handle p now => exact turn_handle h
  | handleFails p => exact turn_handleFails h
  | crash p => exact turn_crash h

end Events

section Batches
variable {s s' : Db} {cid : Uuid}

private theorem contract?_standing (h : s'.contracts.map standing = s.contracts.map standing)
    {c : Contract}
    (hc : s.contract? cid = some c) : ∃ c', s'.contract? cid = some c' ∧ c'.status = c.status := by
  have found : ∀ t : Db, (t.contract? cid).map standing =
      lookup Prod.fst cid (t.contracts.map standing) := by
    intro t
    exact (lookup_map fun x : Contract => show (standing x).1 = x.id from rfl).symm
  have same := found s'
  rw [h, ← found s, hc, Option.map_some, Option.map_eq_some_iff] at same
  obtain ⟨c', hc', hst⟩ := same
  exact ⟨c', hc', (Prod.mk.inj hst).2⟩

private theorem keyed_standing (h : s'.contracts.map standing = s.contracts.map standing)
    (keyed : Keyed Contract.id s.contracts) : Keyed Contract.id s'.contracts := by
  have ids := congrArg (List.map Prod.fst) h
  rw [List.map_map, List.map_map] at ids
  exact keyed.of_map_eq ids

/-- An upsert leaves the contract's terminality as it was, or reports the transition. -/
private theorem upsertContract_reports {u : ContractUpsert} {newId : Uuid}
    {o : ContractUpsertOutcome}
    (keyed : Keyed Contract.id s.contracts) {c : Contract} (hc : s.contract? cid = some c)
    (h : upsertContract s u newId = .ok (o, s')) :
    ∃ c', s'.contract? cid = some c' ∧ (terminal c'.status = true →
      terminal c.status = true ∨ transition cid (.ofOutcome o) = true) := by
  rcases upsertContract_ok h with ⟨x, hx, rfl, rfl⟩ | ⟨-, -, rfl⟩
  · have found : lookup Contract.id cid (updateWhere (fun y => decide (y.id = x.id)) u.assign
        s.contracts) = some (if x.id = cid then u.assign c else c) := by
      rw [lookup_updateWhere]
      · have hid : c.id = cid := (lookup_mem hc).2
        unfold Db.contract? at hc
        rw [hc, Option.map_some, hid]
        simp [eq_comm]
      · exact fun _ => rfl
    refine ⟨_, found, ?_⟩
    split
    · rename_i own
      have same : x = c :=
        keyed.eq_of_key (lookup_mem hx).1 (lookup_mem hc).1 (own.trans (lookup_mem hc).2.symm)
      subst same
      intro reached
      have after : terminal u.status = true := reached
      by_cases moved : x.status = u.status
      · exact .inl (moved ▸ after)
      · exact .inr (by simp [transition, UpsertedContract.ofOutcome,
          ContractUpsertOutcome.statusChanged, own, moved, after])
    · exact .inl
  · exact ⟨c, lookup_append_of_some hc, .inl⟩

private theorem keyed_upsertBatch {batch : List (ContractUpsert × Uuid)}
    {us : List UpsertedContract}
    (keyed : Keyed Contract.id s.contracts) (h : upsertBatch s batch = .ok (us, s')) :
    Keyed Contract.id s'.contracts := by
  induction batch generalizing s us with
  | nil =>
    obtain ⟨-, rfl⟩ := Prod.mk.inj (Except.ok.inj h)
    exact keyed
  | cons entry batch ih =>
    simp only [upsertBatch, bind_eq_ok, Prod.exists, Except.ok.injEq, Prod.mk.injEq] at h
    obtain ⟨o, s₁, first, us', s₂, rest, -, rfl⟩ := h
    exact ih (keyed_upsertContract keyed first) rest

private theorem upsertBatch_reports {batch : List (ContractUpsert × Uuid)}
    {us : List UpsertedContract}
    (keyed : Keyed Contract.id s.contracts) {c : Contract} (hc : s.contract? cid = some c)
    (h : upsertBatch s batch = .ok (us, s')) :
    ∃ c', s'.contract? cid = some c' ∧ (terminal c'.status = true →
      terminal c.status = true ∨ ∃ u ∈ us, transition cid u = true) := by
  induction batch generalizing s us c with
  | nil =>
    obtain ⟨-, rfl⟩ := Prod.mk.inj (Except.ok.inj h)
    exact ⟨c, hc, .inl⟩
  | cons entry batch ih =>
    simp only [upsertBatch, bind_eq_ok, Prod.exists, Except.ok.injEq, Prod.mk.injEq] at h
    obtain ⟨o, s₁, first, us', s₂, rest, rfl, rfl⟩ := h
    obtain ⟨c₁, hc₁, report₁⟩ := upsertContract_reports keyed hc first
    obtain ⟨c₂, hc₂, report₂⟩ := ih (keyed_upsertContract keyed first) hc₁ rest
    refine ⟨c₂, hc₂, fun reached => ?_⟩
    rcases report₂ reached with before | ⟨u, hu, moved⟩
    · rcases report₁ before with before | moved
      · exact .inl before
      · exact .inr ⟨_, List.mem_cons_self, moved⟩
    · exact .inr ⟨u, List.mem_cons_of_mem _ hu, moved⟩

end Batches

/-- No pending reimbursement is bound to the contract. -/
def Clear (cid : Uuid) (s : Db) : Prop := ∀ r ∈ s.reimbursements, pendingOn cid r = false

section Clear
variable {s s' : Db} {cid : Uuid}

private theorem Clear.kept (clear : Clear cid s) (h : Kept s s') : Clear cid s' := by
  intro r' hr'
  rcases h.origin r' hr' with ⟨r, hr, aged⟩ | ⟨unbound, -⟩
  · have was := clear r hr
    simp only [pendingOn, boundTo, Bool.and_eq_false_iff, decide_eq_false_iff_not] at was ⊢
    rw [aged.2.1]
    exact was.imp_right fun other pending => other (aged.2.2 pending)
  · simp [pendingOn, boundTo, unbound]

private theorem Clear.updateRows (clear : Clear cid s) {p : Reimbursement → Bool}
    {f : Reimbursement → Reimbursement} (off : ∀ r, pendingOn cid (f r) = true → pendingOn cid r = true)
    (rows : s'.reimbursements = updateWhere p f s.reimbursements) : Clear cid s' := by
  intro r' hr'
  rw [rows] at hr'
  obtain ⟨r, hr, rfl⟩ := mem_updateWhere.mp hr'
  split
  · by_contra waiting
    have was := off r (by simpa using waiting)
    rw [clear r hr] at was
    cases was
  · exact clear r hr

private theorem clear_settleViaContract {now : Timestamp}
    {infos : List ContractSettledReimbursement}
    (h : settleViaContract s cid now = .ok (infos, s')) : Clear cid s' := by
  obtain ⟨c, -, ⟨none_pending, rfl⟩ | ⟨-, at_, m, lists, rfl, rfl⟩⟩ := settleViaContract_ok h
  · exact none_pending
  · intro r' hr'
    obtain ⟨r, -, rfl⟩ := mem_updateWhere.mp hr'
    by_cases hp : pendingOn cid r = true
    · rw [if_pos hp]
      simp [pendingOn]
    · rw [if_neg hp]
      simpa using hp

private theorem clear_finalizeLink {c : Contract} {rid : Uuid} {now : Timestamp}
    (success : c.status.isTerminalSuccess = true) (h : finalizeLink s c rid now = .ok s') :
    Clear c.id s' := by
  rcases finalizeLink_ok h with ⟨-, infos, h⟩ | ⟨unfinished, -⟩
  · exact clear_settleViaContract h
  · rw [success] at unfinished
    cases unfinished

/-- A terminal handler that succeeds leaves nothing waiting on its contract. -/
private theorem clear_handled {u : UpsertedContract} {now : Timestamp}
    (moved : transition cid u = true)
    (h : handleContractTerminal s u now = .ok s') : Clear cid s' := by
  simp only [transition, terminal, Bool.and_eq_true, Bool.or_eq_true, decide_eq_true_eq] at moved
  obtain ⟨⟨rfl, -⟩, reached⟩ := moved
  rcases handleContractTerminal_ok h with ⟨-, infos, h⟩ | ⟨-, rfl⟩ | ⟨running, unfailed, -⟩
  · exact clear_settleViaContract h
  · intro r hr
    have dead := (dead_unbindContract s u.contractId).bindings r hr
    simp only [pendingOn, boundTo, Bool.and_eq_false_iff, decide_eq_false_iff_not]
    exact imp_iff_not_or.mp dead
  · simp [running, unfailed] at reached

/-- Requests keep a contract clear, unless they link to it before it is finished. -/
private theorem clear_step (s : Db) (o : Op) (s' : Db) (clear : Clear cid s)
    (finished : links s o = some cid → ∀ c ∈ s.contract? cid, c.status.isTerminalSuccess = true)
    (h : apply o s = .ok s') : Clear cid s' := by
  have bind : ∀ {m : Db} {other rid : Uuid}, Clear cid m → other ≠ cid →
      Clear cid (bindReimbursement m other rid) := by
    intro m other rid hm apart
    refine hm.updateRows (fun r waiting => ?_) rfl
    simp [pendingOn, boundTo, apart] at waiting
  have unbind : ∀ other state, Clear cid (supersede (unbindReimbursements s other) other state) := by
    intro other state
    refine clear.updateRows (fun r waiting => ?_) rfl
    simp [pendingOn, boundTo] at waiting
  cases linkStep_of_ok h with
  | kept h => exact clear.kept h
  | upserted h =>
    obtain ⟨contracts, rfl⟩ := upsertContract_shape h
    exact clear
  | rejected h =>
    subst h
    exact clear
  | @confirmed _ _ _ g _ _ hg _ _ _ _ hk =>
    by_cases own : g.contractId = cid
    · obtain ⟨g', c, r, hg', hc, -, -, -, -, hlink⟩ := doConfirm_ok (mapError_eq_ok.mp h)
      obtain rfl : g' = g := Option.some.inj (hg'.symm.trans hg)
      have success := finished (by simp [links, hg, own]) c (own ▸ hc)
      have hid : c.id = cid := (lookup_mem hc).2.trans own
      exact hid ▸ clear_finalizeLink success hlink
    · exact (bind (m := confirmWhere s _) clear own).kept hk
  | @linked _ other _ _ _ _ m _ _ _ _ hup hk =>
    by_cases own : other = cid
    · obtain ⟨c, r, m, hc, -, -, -, -, hlink⟩ := doManualLink_ok (mapError_eq_ok.mp h)
      have success := finished (by simp [links, own]) c (own ▸ hc)
      have hid : c.id = cid := (lookup_mem hc).2.trans own
      exact hid ▸ clear_finalizeLink success hlink
    · have rows : Clear cid m := by
        obtain ⟨-, ⟨-, rfl⟩ | ⟨-, -, rfl⟩⟩ := upsertConfirmed_ok hup
        · exact clear
        · exact clear
      exact (bind rows own).kept hk
  | unlinked h => exact Clear.kept (unbind _ _) h
  | unbound _ h => exact Clear.kept (unbind _ _) h
  | matched _ _ _ h =>
    subst h
    exact clear

end Clear

private theorem ops_upsertBatch {s s' : Db} {batch : List (ContractUpsert × Uuid)}
    {us : List UpsertedContract} (h : upsertBatch s batch = .ok (us, s')) :
    ∃ os, s' = run apply s os ∧ ∀ o ∈ os, isRequest o = false := by
  induction batch generalizing s us with
  | nil =>
    obtain ⟨-, rfl⟩ := Prod.mk.inj (Except.ok.inj h)
    exact ⟨[], rfl, by simp⟩
  | cons entry batch ih =>
    simp only [upsertBatch, bind_eq_ok, Prod.exists, Except.ok.injEq, Prod.mk.injEq] at h
    obtain ⟨o, s₁, first, us', s₂, rest, -, rfl⟩ := h
    obtain ⟨os, rfl, worker⟩ := ih rest
    have upserted : apply (.upsertContract entry.1 entry.2) s = .ok s₁ :=
      mapError_eq_ok.mpr (map_eq_ok.mpr ⟨_, first, rfl⟩)
    refine ⟨.upsertContract entry.1 entry.2 :: os, by rw [run_cons, exec_of_ok upserted], ?_⟩
    simpa using ⟨rfl, worker⟩

private theorem ops_orKeep {ε : Type} {s : Db} {o : Op} {x : Except ε Db}
    (worker : isRequest o = false) (h : ∀ s', x = .ok s' → apply o s = .ok s') :
    ∃ os, orKeep s x = run apply s os ∧ ∀ p ∈ os, isRequest p = false := by
  cases x with
  | error e => exact ⟨[], rfl, by simp⟩
  | ok s' =>
    refine ⟨[o], ?_, by simpa using worker⟩
    rw [run_cons, run_nil, exec_of_ok (h s' rfl)]
    rfl

private theorem ops_of_ok {w w' : World} {e : Event} (h : step e w = .ok w') :
    (∃ o, e = .request o ∧ apply o w.db = .ok w'.db) ∨
      ∃ os, w'.db = run apply w.db os ∧ ∀ o ∈ os, isRequest o = false := by
  have still : ∃ os, w.db = run apply w.db os ∧ ∀ o ∈ os, isRequest o = false :=
    ⟨[], rfl, by simp⟩
  cases e <;> simp only [step] at h
  case request o =>
    split at h
    · simp only [bind_eq_ok, mapError_eq_ok, Except.ok.injEq] at h
      obtain ⟨s, hs, rfl⟩ := h
      exact .inl ⟨o, rfl, hs⟩
    · cases h
  case poll | pollLost =>
    split at h
    · simp only [bind_eq_ok, mapError_eq_ok, Prod.exists, Except.ok.injEq] at h
      obtain ⟨new, s, hs, rfl⟩ := h
      exact .inr (ops_upsertBatch hs)
    · cases h
  case syncItems cid items now =>
    split at h
    · simp only [bind_eq_ok, mapError_eq_ok, Except.ok.injEq] at h
      obtain ⟨s, hs, rfl⟩ := h
      exact .inr (ops_orKeep (o := .syncItemsFor cid items now) (x := .ok s) (ε := Unit) rfl
        fun _ hs' => by cases hs'; exact mapError_eq_ok.mpr hs)
    · cases h
  case advance =>
    split at h
    all_goals first
      | obtain rfl := (Except.ok.inj h).symm
        exact .inr still
      | cases h
  case matchOne p cid newId =>
    split at h
    · split at h
      · obtain rfl := (Except.ok.inj h).symm
        exact .inr (ops_orKeep (o := .runOne cid newId) rfl fun _ ok => mapError_eq_ok.mpr ok)
      · cases h
    · cases h
  case matchFails =>
    split at h
    · obtain rfl := (Except.ok.inj h).symm
      exact .inr still
    · cases h
  case handle p now =>
    split at h
    · rename_i u us hp
      split at h
      · obtain rfl := (Except.ok.inj h).symm
        exact .inr (ops_orKeep (o := .handleContractTerminal u now) rfl
          fun _ ok => mapError_eq_ok.mpr ok)
      · obtain rfl := (Except.ok.inj h).symm
        exact .inr still
    · cases h
  case handleFails =>
    split at h
    · obtain rfl := (Except.ok.inj h).symm
      exact .inr still
    · cases h
  case crash =>
    obtain rfl := (Except.ok.inj h).symm
    exact .inr still

/-- Whatever holds after every run of operations holds in the system's database. -/
private theorem system_reached (events : List Event) : ∃ os, (system events).db = reached os := by
  refine run_invariant (I := fun w : World => ∃ os, w.db = reached os) ?_ ⟨[], rfl⟩ events
  rintro w e w' ⟨os, hos⟩ h
  rcases ops_of_ok h with ⟨o, -, ho⟩ | ⟨more, hmore, -⟩
  · refine ⟨os ++ [o], ?_⟩
    rw [reached_append, ← hos, run_cons, run_nil, exec_of_ok ho]
  · exact ⟨os ++ more, by rw [hmore, hos, reached_append]⟩

/-- A contract in a terminal status is done with, or its transition is in some poller's memory. -/
structure Remembered (cid : Uuid) (done : Db → Prop) (w : World) : Prop where
  keyed : Keyed Contract.id w.db.contracts
  held : ∃ c, w.db.contract? cid = some c ∧ (terminal c.status = true →
    done w.db ∨ ∃ p, ∃ u ∈ (w.phase p).upserts, transition cid u = true)

private theorem keyed_turn (w : World) (e : Event) (w' : World)
    (keyed : Keyed Contract.id w.db.contracts)
    (h : step e w = .ok w') : Keyed Contract.id w'.db.contracts := by
  cases turn_of_ok h with
  | quiet standings _ => exact keyed_standing standings keyed
  | polled h _ => exact keyed_upsertBatch keyed h
  | lost h _ => exact keyed_upsertBatch keyed h
  | handled _ standings _ _ => exact keyed_standing standings keyed
  | failed _ db _ => exact db ▸ keyed
  | crashed db _ => exact db ▸ keyed

/-- A prompt event keeps a transition in memory until its handler has succeeded. -/
private theorem remembered_turn {cid : Uuid} {done : Db → Prop} {w w' : World} {e : Event}
    (inv : Remembered cid done w) (prompt : Prompt cid w e) (h : step e w = .ok w')
    (kept : ∀ c, w.db.contract? cid = some c → terminal c.status = true → done w.db → done w'.db)
    (handled : ∀ u now, transition cid u = true → handleContractTerminal w.db u now = .ok w'.db →
      done w'.db) : Remembered cid done w' := by
  have keyed := keyed_turn w e w' inv.keyed h
  obtain ⟨c, hc, held⟩ := inv.held
  -- What was remembered before the event still is, up to the upserts it takes from memory.
  have carry : terminal c.status = true →
      (∀ q, ∀ u ∈ (w.phase q).upserts, transition cid u = true →
        done w'.db ∨ u ∈ (w'.phase q).upserts) →
      done w'.db ∨ ∃ p, ∃ u ∈ (w'.phase p).upserts, transition cid u = true := by
    intro before stays
    rcases held before with hdone | ⟨q, u, hu, moved⟩
    · exact .inl (kept c hc before hdone)
    · exact (stays q u hu moved).imp_right fun hu => ⟨q, u, hu, moved⟩
  refine ⟨keyed, ?_⟩
  cases turn_of_ok h with
  | quiet standings queues =>
    obtain ⟨c', hc', same⟩ := contract?_standing standings hc
    refine ⟨c', hc', fun reached => carry (same ▸ reached) fun q u hu _ => .inr ?_⟩
    rw [queues]
    exact hu
  | @polled p _ us _ h queues =>
    obtain ⟨c', hc', report⟩ := upsertBatch_reports inv.keyed hc h
    refine ⟨c', hc', fun reached => ?_⟩
    rcases report reached with before | ⟨u, hu, moved⟩
    · refine carry before fun q u hu _ => .inr ?_
      rw [queues]
      exact List.mem_append_left _ hu
    · refine .inr ⟨p, u, ?_, moved⟩
      rw [queues, if_pos rfl]
      exact List.mem_append_right _ hu
  | lost h queues =>
    obtain ⟨c', hc', report⟩ := upsertBatch_reports inv.keyed hc h
    refine ⟨c', hc', fun reached => ?_⟩
    rcases report reached with before | ⟨u, hu, moved⟩
    · refine carry before fun q u hu _ => .inr ?_
      rw [queues]
      exact hu
    · rw [prompt (_, _) (by rw [h]; rfl) u hu] at moved
      cases moved
  | @handled p now u _ at_ standings queues effect =>
    obtain ⟨c', hc', same⟩ := contract?_standing standings hc
    refine ⟨c', hc', fun reached => carry (same ▸ reached) fun q x hx moved => ?_⟩
    rw [queues q] at hx
    refine (List.mem_append.mp hx).imp_left fun hx => ?_
    have head : x = u := by
      split at hx
      · exact List.mem_singleton.mp hx
      · cases hx
    subst head
    have accepted := prompt x at_ moved
    cases hs : handleContractTerminal w.db x now with
    | error e =>
      rw [hs] at accepted
      cases accepted
    | ok s =>
      have changed : x.statusChanged = true := by
        simp only [transition, Bool.and_eq_true] at moved
        exact moved.1.2
      exact handled x now moved (by rw [effect s changed hs, hs])
  | failed at_ db queues =>
    refine ⟨c, db ▸ hc, fun reached => carry reached fun q x hx moved => ?_⟩
    rw [queues q] at hx
    refine (List.mem_append.mp hx).imp_left fun hx => ?_
    split at hx
    · rw [List.mem_singleton.mp hx, prompt _ at_] at moved
      cases moved
    · cases hx
  | @crashed p _ db queues =>
    refine ⟨c, db ▸ hc, fun reached => carry reached fun q u hu moved => ?_⟩
    by_cases own : q = p
    · subst own
      rw [prompt u hu] at moved
      cases moved
    · rw [queues q own]
      exact .inr hu

/-- The reimbursement waits on the contract: pending, and bound to it. -/
def Waits (cid rid : Uuid) (s : Db) : Prop :=
  ∃ r ∈ s.reimbursements, r.id = rid ∧ pendingOn cid r = true

private theorem remembered_waiting {cid rid : Uuid} (w : World) (e : Event) (w' : World)
    (inv : Remembered cid (fun _ => False) w)
    (cond : Prompt cid w e ∧ Waits cid rid (exec step w e).db) (h : step e w = .ok w') :
    Remembered cid (fun _ => False) w' := by
  obtain ⟨prompt, waits⟩ := cond
  rw [exec_of_ok h] at waits
  refine remembered_turn inv prompt h (fun _ _ _ never => never) fun u now moved hs => ?_
  obtain ⟨r, hr, -, waiting⟩ := waits
  rw [clear_handled moved hs r hr] at waiting
  cases waiting

/-- The event does not link to the contract while it is in a terminal failure. -/
def Unrevived (cid : Uuid) (w : World) : Event → Prop
  | .request o => links w.db o = some cid →
      ∀ c ∈ w.db.contract? cid, c.status.isTerminalFailure = false
  | _ => True

instance (cid : Uuid) (w : World) (e : Event) : Decidable (Unrevived cid w e) := by
  unfold Unrevived
  split <;> infer_instance

private theorem remembered_clear {cid : Uuid} (w : World) (e : Event) (w' : World)
    (inv : Remembered cid (Clear cid) w) (cond : Prompt cid w e ∧ Unrevived cid w e)
    (h : step e w = .ok w') : Remembered cid (Clear cid) w' := by
  refine remembered_turn inv cond.1 h ?_ fun u now moved hs => clear_handled moved hs
  intro c hc reached clear
  rcases ops_of_ok h with ⟨o, rfl, ho⟩ | ⟨os, hos, worker⟩
  · refine clear_step w.db o w'.db clear (fun own x hx => ?_) ho
    obtain rfl : c = x := Option.some.inj (hc.symm.trans hx)
    have unfailed := cond.2 own c hc
    simpa [terminal, unfailed] using reached
  · rw [hos]
    refine meets_invariant (C := fun _ o => isRequest o = false) (fun s o s' clear off ho => ?_) clear
      (meets_of_forall fun before o after h => worker o (by simp [h]))
    refine clear_step s o s' clear (fun own => ?_) ho
    cases o <;> simp [links, isRequest] at own off

private theorem keyed_system (events : List Event) :
    Keyed Contract.id (system events).db.contracts := by
  have start : Keyed Contract.id ({} : World).db.contracts := List.nodup_nil
  exact run_invariant (I := fun w : World => Keyed Contract.id w.db.contracts) keyed_turn start
    events

/-- Terminal transitions survive: in a run that loses none of the contract's, once no poller has
one left to handle, a reimbursement that waited on the contract before its status became terminal
has been settled or unbound on the way; and nothing waits on the contract at all, unless it was
linked again in a terminal failure. -/
theorem terminal_transition_handled {before later : List Event} {cid rid : Uuid} {c c' : Contract}
    (hc : (system before).db.contract? cid = some c) (running : terminal c.status = false)
    (prompt : Meets step (Prompt cid) (system before) later)
    (hc' : (system (before ++ later)).db.contract? cid = some c')
    (reached : terminal c'.status = true)
    (completed : ∀ p, ∀ u ∈ ((system (before ++ later)).phase p).upserts,
      transition cid u = false) :
    (∃ mid rest, later = mid ++ rest ∧
      ∀ r ∈ (system (before ++ mid)).db.reimbursements, r.id = rid →
        ¬ (r.status = .pending ∧ r.contractId = some cid)) ∧
    (Meets step (Unrevived cid) (system before) later →
      ∀ r ∈ (system (before ++ later)).db.reimbursements,
        ¬ (r.status = .pending ∧ r.contractId = some cid)) := by
  have start : ∀ done, Remembered cid done (system before) := by
    refine fun done => ⟨keyed_system before, c, hc, fun reached => ?_⟩
    rw [running] at reached
    cases reached
  -- At the end nothing is in memory, so the contract is done with.
  have finish : ∀ done, Remembered cid done (run step (system before) later) →
      done (system (before ++ later)).db := by
    intro done final
    rw [system, ← run_append] at final
    obtain ⟨x, hx, held⟩ := final.held
    obtain rfl : x = c' := Option.some.inj (hx.symm.trans hc')
    refine (held reached).resolve_right ?_
    rintro ⟨p, u, hu, moved⟩
    rw [completed p u hu] at moved
    cases moved
  refine ⟨?_, ?_⟩
  · by_contra never
    push Not at never
    have waits : Meets step (fun w e => Waits cid rid (exec step w e).db) (system before) later := by
      refine meets_of_forall fun mid e rest hlater => ?_
      obtain ⟨r, hr, hid, pending, bound⟩ := never (mid ++ [e]) rest (by simp [hlater])
      rw [system, run_append, run_append, run_cons, run_nil] at hr
      exact ⟨r, hr, hid, by simp [pendingOn, boundTo, pending, bound]⟩
    exact finish _ (meets_invariant remembered_waiting (start _) (prompt.and waits))
  · intro unrevived r hr
    have clear := finish _ (meets_invariant remembered_clear (start _) (prompt.and unrevived)) r hr
    rintro ⟨pending, bound⟩
    simp [pendingOn, boundTo, pending, bound] at clear

def wholeTick (p : Poller) (status : ContractStatus) (now : Timestamp) : List Event :=
  [.poll p [(sampleContract status, 1)], .advance p, .matchOne p 1 id, .advance p, .handle p now,
    .advance p]

/-- A purchase linked to an outstanding contract that a tick has found. -/
def outstandingDeal : List Event :=
  [.request (.directory sampleDirectory),
    .request (.create sampleLimits 1 1 [⟨34, "Tritanium", 10, 1⟩] 1 [1]),
    .request (.recordFulfillment 3 1 1 (samplePurchase 5 1) ⟨1, 1, 0⟩)] ++
  wholeTick .character .outstanding 1 ++ [.request (.doManualLink 3 1 1 1 1)]

/-- Both pollers complete a tick that finds the contract finished. -/
def finishedTicks : List Event := wholeTick .character .finished 2 ++ wholeTick .corp .finished 3

theorem terminal_transition_handled_finishedTicks :
    (∃ mid rest, finishedTicks = mid ++ rest ∧
      ∀ r ∈ (system (outstandingDeal ++ mid)).db.reimbursements, r.id = 1 →
        ¬ (r.status = .pending ∧ r.contractId = some 1)) ∧
    ∀ r ∈ (system (outstandingDeal ++ finishedTicks)).db.reimbursements,
      ¬ (r.status = .pending ∧ r.contractId = some 1) := by
  obtain ⟨c, -, hc, running⟩ : ∃ c ∈ (system outstandingDeal).db.contracts,
      (system outstandingDeal).db.contract? 1 = some c ∧ terminal c.status = false := by
    decide +kernel
  obtain ⟨c', -, hc', reached⟩ : ∃ c' ∈ (system (outstandingDeal ++ finishedTicks)).db.contracts,
      (system (outstandingDeal ++ finishedTicks)).db.contract? 1 = some c' ∧
        terminal c'.status = true := by
    decide +kernel
  have completed : ∀ p, ∀ u ∈ ((system (outstandingDeal ++ finishedTicks)).phase p).upserts,
      transition 1 u = false := by
    intro p
    cases p <;> decide +kernel
  obtain ⟨released, clear⟩ := @terminal_transition_handled outstandingDeal finishedTicks 1 1
    c c' hc running (by decide +kernel) hc' reached completed
  exact ⟨released, clear (by decide +kernel)⟩

/-- The poller dies between the commit that finishes the contract and its handler; then both
pollers complete a tick that polls the contract again. -/
def crashedTick : List Event :=
  [.poll .character [(sampleContract .finished, 1)], .crash .character] ++
    wholeTick .character .finished 3 ++ wholeTick .corp .finished 4

/-- The contract is finished and both pollers are idle, and at no time has the reimbursement
stopped waiting on the contract. -/
theorem crash_strands_reimbursement :
    (∃ c ∈ (system outstandingDeal).db.contracts, c.id = 1 ∧ c.status = .outstanding) ∧
    (∃ c ∈ (system (outstandingDeal ++ crashedTick)).db.contracts,
      c.id = 1 ∧ c.status = .finished) ∧
    (∀ p, (system (outstandingDeal ++ crashedTick)).phase p = .idle) ∧
    ∀ mid ∈ crashedTick.inits, ∃ r ∈ (system (outstandingDeal ++ mid)).db.reimbursements,
      r.id = 1 ∧ r.status = .pending ∧ r.contractId = some 1 := by
  refine ⟨by decide +kernel, by decide +kernel, ?_, by decide +kernel⟩
  intro p
  cases p <;> decide +kernel

end JitaCart.Contracts
