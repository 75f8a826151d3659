/- module: JitaCart/Concurrent/Notices
   source: backend/crates/settlement/src/lib.rs, backend/crates/api/src/webhooks.rs,
     backend/crates/api/src/fulfillment/reimbursements.rs (settle_reimbursement),
     backend/crates/worker/src/jobs/contracts_common.rs (handle_contract_terminal)
   digest: Over any run, as many settlements are told of as were committed, and at most one each. -/

import JitaCart.Concurrent.SettledRows

set_option autoImplicit false
set_option relaxedAutoImplicit false

namespace JitaCart.Concurrent.Trade

open Schema Base.Table Base.Request Base.ReadCommitted

def Shop.pendingAt (s : Shop) (rid : Uuid) : Bool :=
  (s.reimbursement? rid).any fun r => decide (r.status = .pending)

def Shop.settledAt (s : Shop) (rid : Uuid) : Bool :=
  (s.reimbursement? rid).any fun r => decide (r.status = .settled)

/-- The rows of `pending_webhooks` that tell of the reimbursement. -/
def Shop.notices (s : Shop) (rid : Uuid) : Nat :=
  (s.pendingWebhooks.map (·.reimbursementId)).count rid

/-- The transition from pending to settled, between two committed states. -/
def settles (rid : Uuid) (s s' : Shop) : Bool := s.pendingAt rid && s'.settledAt rid

def settlements (rid : Uuid) :
    Store Shop Write Row TradeRequest → List (Action Row TradeRequest) → Nat
  | _, [] => 0
  | w, a :: as =>
    (if settles rid w.committed (exec (step engine) w a).committed then 1 else 0) +
      settlements rid (exec (step engine) w a) as

section Log
variable {s : Shop} {log : List Write} {rid : Uuid}

private theorem notices_view (log : List Write) (s : Shop) (rid : Uuid) :
    (engine.view s log).notices rid = s.notices rid + (log.filterMap toldIn).count rid := by
  induction log generalizing s with
  | nil => rfl
  | cons w log ih =>
    have first : (redo w s).notices rid = s.notices rid + ([w].filterMap toldIn).count rid := by
      unfold Shop.notices
      cases w with
      | notify n => simp [redo, toldIn]
      | _ => rfl
    have rest := ih (redo w s)
    have split : (w :: log).filterMap toldIn = [w].filterMap toldIn ++ log.filterMap toldIn := by
      rw [← List.filterMap_append, List.singleton_append]
    rw [split, List.count_append, ← Nat.add_assoc, ← first]
    exact rest

private theorem settledAt_redo_other {w : Write} (other : ∀ x ∈ w.due, x.1 ≠ rid) :
    (redo w s).settledAt rid = s.settledAt rid := by
  unfold Shop.settledAt
  rw [reimbursement?_redo]
  cases due : w.due with
  | none => rfl
  | some x => simp [Option.filter, other x due]

private theorem pendingAt_redo_other {w : Write} (other : ∀ x ∈ w.due, x.1 ≠ rid) :
    (redo w s).pendingAt rid = s.pendingAt rid := by
  unfold Shop.pendingAt
  rw [reimbursement?_redo]
  cases due : w.due with
  | none => rfl
  | some x => simp [Option.filter, other x due]

private theorem settledAt_redo_put (before : Option Reimbursement) (r : Reimbursement) :
    (redo (.putReimbursement before r) s).settledAt r.id = decide (r.status = .settled) := by
  unfold Shop.settledAt
  rw [reimbursement?_redo]
  simp [Write.due, Option.filter]

private theorem unsettled_of_lands {before : Option Reimbursement} {r : Reimbursement}
    (h : Lands True (.putReimbursement before r) s) :
    s.settledAt r.id = false ∧ (before ≠ none → s.pendingAt r.id = true) := by
  unfold Shop.settledAt Shop.pendingAt
  cases before with
  | none =>
    have free : s.reimbursement? r.id = none := h.1
    simp [free]
  | some b =>
    obtain ⟨current, pending, same⟩ := h
    rw [← frozen_id same] at current
    simp [current, pending]

private theorem put_or_other {w : Write} (h : Lands True w s) (rid : Uuid) :
    (∃ before r, w = .putReimbursement before r ∧ r.id = rid) ∨ ∀ x ∈ w.due, x.1 ≠ rid := by
  cases w with
  | putReimbursement before r =>
    by_cases same : r.id = rid
    · exact .inl ⟨before, r, rfl, same⟩
    · exact .inr (by simpa [Write.due] using same)
  | dropReimbursement r => exact absurd trivial h.2
  | _ => exact .inr (by simp [Write.due])

private theorem settledAt_view (good : Sorted True s) (replays : (debts True).Replays log s)
    (settled : s.settledAt rid = true) : (engine.view s log).settledAt rid = true := by
  induction log generalizing s with
  | nil => exact settled
  | cons w log ih =>
    refine ih (sorted_redo good replays.1) replays.2 ?_
    rcases put_or_other replays.1 rid with ⟨before, r, rfl, rfl⟩ | other
    · rw [(unsettled_of_lands replays.1).1] at settled
      cases settled
    · exact (settledAt_redo_other other).trans settled

private theorem settledIn_other {w : Write} (other : ∀ x ∈ w.due, x.1 ≠ rid) :
    settledIn w ≠ some rid := by
  cases w with
  | putReimbursement before r =>
    have differs : r.id ≠ rid := other (r.id, some r) rfl
    simp only [settledIn]
    split <;> simp [differs]
  | _ => simp [settledIn]

private theorem count_settledIn (good : Sorted True s) (replays : (debts True).Replays log s) :
    (log.filterMap settledIn).count rid =
      if s.settledAt rid = false ∧ (engine.view s log).settledAt rid = true then 1 else 0 := by
  induction log generalizing s with
  | nil => simp [Engine.view]
  | cons w log ih =>
    have rest := ih (sorted_redo good replays.1) replays.2
    rcases put_or_other replays.1 rid with ⟨before, r, rfl, rfl⟩ | other
    · have unsettled := (unsettled_of_lands replays.1).1
      have after : (redo (.putReimbursement before r) s).settledAt r.id = _ :=
        settledAt_redo_put before r
      by_cases settled : r.status = .settled
      · have kept : (engine.view (redo (.putReimbursement before r) s) log).settledAt r.id = true :=
          settledAt_view (sorted_redo good replays.1) replays.2 (by simp [after, settled])
        have now : (engine.view s (.putReimbursement before r :: log)).settledAt r.id = true := kept
        rw [if_neg (by simp [after, settled])] at rest
        rw [if_pos ⟨unsettled, now⟩,
          List.filterMap_cons_some (b := r.id) (by simp [settledIn, settled]),
          List.count_cons_self, rest]
      · rw [List.filterMap_cons_none (by simp [settledIn, settled]), rest]
        simp only [after, settled, decide_false, unsettled, true_and]
        rfl
    · have same : (redo w s).settledAt rid = s.settledAt rid := settledAt_redo_other other
      rw [same] at rest
      have skipped : ((w :: log).filterMap settledIn).count rid =
          (log.filterMap settledIn).count rid := by
        have differs := settledIn_other other
        cases h : settledIn w with
        | none => rw [List.filterMap_cons_none h]
        | some x =>
          rw [List.filterMap_cons_some h]
          exact List.count_cons_of_ne fun eq => differs (h.trans (congrArg some eq))
      rw [skipped, rest]
      rfl

private theorem pendingAt_of_settles (good : Sorted True s) (replays : (debts True).Replays log s)
    (old : ∀ r, .putReimbursement none r ∉ log) (unsettled : s.settledAt rid = false)
    (settled : (engine.view s log).settledAt rid = true) : s.pendingAt rid = true := by
  induction log generalizing s with
  | nil =>
    rw [show engine.view s [] = s from rfl, unsettled] at settled
    cases settled
  | cons w log ih =>
    rcases put_or_other replays.1 rid with ⟨before, r, rfl, rfl⟩ | other
    · refine (unsettled_of_lands replays.1).2 fun same => ?_
      subst same
      exact old r List.mem_cons_self
    · have rest := ih (sorted_redo good replays.1) replays.2
        (fun r hr => old r (List.mem_cons_of_mem w hr))
        ((settledAt_redo_other other).trans unsettled) settled
      exact (pendingAt_redo_other other).symm.trans rest

private theorem unsettled_of_pending (h : s.pendingAt rid = true) : s.settledAt rid = false := by
  unfold Shop.pendingAt at h
  unfold Shop.settledAt
  cases hr : s.reimbursement? rid with
  | none => rfl
  | some r =>
    rw [hr] at h
    have pending : r.status = .pending := by simpa using h
    simp [pending]

private theorem settledIn_buying {q : TradeRequest} {locks : List Row} (buys : q.buys = true)
    (own : ∀ w ∈ log, Owned q locks w) : log.filterMap settledIn = [] := by
  refine List.filterMap_eq_nil_iff.mpr fun w hw => ?_
  cases w with
  | putReimbursement before r =>
    refine if_neg fun settled => ?_
    cases buys.symm.trans ((own _ hw).settles before r rfl settled)
  | _ => rfl

private theorem notices_commit {q : TradeRequest} {locks : List Row}
    (done : (debts True).With q ((settling True).done q) s log locks) (rid : Uuid) :
    (engine.view s log).notices rid =
      s.notices rid + if settles rid s (engine.view s log) then 1 else 0 := by
  have right : (debts True).Right q s log locks := done.1
  have good : Sorted True s := right.good
  have paid : (log.filterMap settledIn).Perm (log.filterMap toldIn ++ []) := done.2.1 trivial
  have told : (log.filterMap toldIn).count rid = (log.filterMap settledIn).count rid := by
    rw [paid.count_eq, List.append_nil]
  have transition : (s.settledAt rid = false ∧ (engine.view s log).settledAt rid = true) ↔
      settles rid s (engine.view s log) = true := by
    unfold settles
    rw [Bool.and_eq_true]
    refine ⟨fun ⟨unsettled, settled⟩ => ⟨?_, settled⟩, fun ⟨pending, settled⟩ =>
      ⟨unsettled_of_pending pending, settled⟩⟩
    cases buys : q.buys with
    | true =>
      have once : (log.filterMap settledIn).count rid = _ := count_settledIn good right.replays
      rw [settledIn_buying buys right.own, if_pos ⟨unsettled, settled⟩] at once
      cases once
    | false =>
      refine pendingAt_of_settles good right.replays (fun r hr => ?_) unsettled settled
      have own : Owned q locks _ := right.own _ hr
      cases buys.symm.trans (own.new r rfl).2
  rw [notices_view, told, count_settledIn good right.replays]
  simp only [transition]

end Log

section Runs
variable {w : Store Shop Write Row TradeRequest} {a : Action Row TradeRequest}
  {as : List (Action Row TradeRequest)}

/-- What is known of a store that requests have reached without deleting a list. -/
abbrev Reached (w : Store Shop Write Row TradeRequest) : Prop :=
  Ok engine (settling True).terms (fun q => True → q.deletes = false) w

private theorem settles_self (rid : Uuid) (s : Shop) : settles rid s s = false := by
  unfold settles
  cases h : s.pendingAt rid with
  | false => rfl
  | true => rw [unsettled_of_pending h, Bool.and_false]

private theorem reached_step (ok : Reached w) (known : ∀ id q, a = .begin id q → q.deletes = false)
    (rid : Uuid) : Reached (exec (step engine) w a) ∧
      (exec (step engine) w a).committed.notices rid = w.committed.notices rid +
        (if settles rid w.committed (exec (step engine) w a).committed then 1 else 0) ∧
      (w.committed.settledAt rid = true →
        (exec (step engine) w a).committed.settledAt rid = true) := by
  cases h : step engine a w with
  | error _ =>
    rw [exec_of_error h, settles_self]
    exact ⟨ok, rfl, fun settled => settled⟩
  | ok w' =>
    rw [exec_of_ok h]
    have allowed : Allowed (settling True).terms (fun q => True → q.deletes = false) w a := by
      cases a with
      | begin id q => exact fun _ => known id q rfl
      | exec id => exact fun _ _ _ _ _ _ => trivial
      | commit id => exact fun _ _ _ _ => ⟨trivial, fun _ _ _ => trivial⟩
      | _ => trivial
    refine ⟨ok_step (sound_settling True) ok allowed h, ?_⟩
    rcases committed_step ok h with ⟨-, same⟩ | ⟨t, ht, -, done, committed⟩
    · rw [same, settles_self]
      exact ⟨rfl, fun settled => settled⟩
    · rw [committed]
      exact ⟨notices_commit done rid, settledAt_view done.1.good done.1.replays⟩

private theorem settledAt_run (ok : Reached w)
    (known : ∀ id q, .begin id q ∈ as → q.deletes = false)
    {rid : Uuid} (settled : w.committed.settledAt rid = true) :
    (run (step engine) w as).committed.settledAt rid = true ∧ settlements rid w as = 0 := by
  induction as generalizing w with
  | nil => exact ⟨settled, rfl⟩
  | cons a as ih =>
    obtain ⟨next, -, kept⟩ := reached_step ok
      (fun id q h => known id q (h ▸ List.mem_cons_self)) rid
    obtain ⟨last, rest⟩ := ih next (fun id q h => known id q (List.mem_cons_of_mem a h))
      (kept settled)
    have here : settles rid w.committed (exec (step engine) w a).committed = false := by
      unfold settles
      cases h : w.committed.pendingAt rid with
      | false => rfl
      | true => cases settled.symm.trans (unsettled_of_pending h)
    refine ⟨last, ?_⟩
    simp only [settlements, here, rest, Bool.false_eq_true, if_false]

private theorem told_run (ok : Reached w) (known : ∀ id q, .begin id q ∈ as → q.deletes = false)
    (rid : Uuid) : (run (step engine) w as).committed.notices rid =
      w.committed.notices rid + settlements rid w as ∧ settlements rid w as ≤ 1 := by
  induction as generalizing w with
  | nil => exact ⟨rfl, Nat.zero_le 1⟩
  | cons a as ih =>
    obtain ⟨next, told, -⟩ := reached_step ok
      (fun id q h => known id q (h ▸ List.mem_cons_self)) rid
    have later : ∀ id q, .begin id q ∈ as → q.deletes = false :=
      fun id q h => known id q (List.mem_cons_of_mem a h)
    obtain ⟨count, once⟩ := ih next later
    rw [run_cons, count, told]
    simp only [settlements]
    by_cases here : settles rid w.committed (exec (step engine) w a).committed = true
    · have settled : (exec (step engine) w a).committed.settledAt rid = true := by
        unfold settles at here
        rw [Bool.and_eq_true] at here
        exact here.2
      have once := (settledAt_run next later settled).2
      rw [if_pos here, once]
      exact ⟨rfl, Nat.le_refl 1⟩
    · rw [if_neg here]
      omega

end Runs

/-- Over every run of interleaved requests that delete no list, a reimbursement has as many
notices more as its transition to settled was committed, which is at most once, and it never goes
back. -/
theorem settled_and_told_once {s : Shop} (good : Sorted True s)
    {as : List (Action Row TradeRequest)}
    (known : ∀ id q, .begin id q ∈ as → q.deletes = false) (rid : Uuid) :
    (run (step engine) ⟨s, []⟩ as).committed.notices rid =
        s.notices rid + settlements rid ⟨s, []⟩ as ∧
      settlements rid ⟨s, []⟩ as ≤ 1 ∧
      ∀ before after, as = before ++ after →
        (run (step engine) ⟨s, []⟩ before).committed.settledAt rid = true →
        (run (step engine) ⟨s, []⟩ as).committed.settledAt rid = true := by
  obtain ⟨told, once⟩ := told_run (ok_idle ⟨good, trivial⟩) known rid
  refine ⟨told, once, fun before after split settled => ?_⟩
  subst split
  have ok : Reached (run (step engine) ⟨s, []⟩ before) :=
    ok_settling good fun id q h _ => known id q (List.mem_append_left after h)
  rw [run_append]
  exact (settledAt_run ok (fun id q h => known id q (List.mem_append_right before h)) settled).1

/-- A finished contract that covers a debt. -/
def finishedDeal : Shop where
  directory := fairGroup
  lists := [fairList]
  contracts := [⟨1, 900, some 3, some 3, some 1, some 1, .itemExchange, .finished, 500, some 500,
    none, some 5, none, none⟩]
  reimbursements := [fairDue 1 .pending (some 1)]

/-- Two workers settle the contract; the second one waits for the first and finds nothing. -/
def twoWorkers : List (Action Row TradeRequest) :=
  List.flatten [[.begin 1 (.handleContractTerminal ⟨1, .finished, true⟩ 9),
      .begin 2 (.handleContractTerminal ⟨1, .finished, true⟩ 9)],
    Action.turn 1 [.contract 1], [.start 2, .acquire 2 (.contract 1)],
    Action.turn 1 [.reimbursement 1], Action.turn 1 [], Action.turn 1 [.contract 1],
    Action.turn 1 [], Action.turn 1 [.list 1], Action.turn 1 [], Action.turn 1 [], [.commit 1],
    [.acquire 2 (.contract 1), .exec 2], Action.turn 2 [], [.commit 2]]

theorem settled_and_told_once_two_workers :
    settlements 1 ⟨finishedDeal, []⟩ twoWorkers = 1 ∧
      (run (step engine) ⟨finishedDeal, []⟩ twoWorkers).active.length = 0 ∧
      (run (step engine) ⟨finishedDeal, []⟩ twoWorkers).committed.notices 1 =
        finishedDeal.notices 1 + settlements 1 ⟨finishedDeal, []⟩ twoWorkers := by
  have good : Sorted True finishedDeal := by
    refine ⟨by decide, by decide, fun _ r hr => ?_⟩
    obtain rfl := List.mem_singleton.mp hr
    decide
  have known : ∀ id q, .begin id q ∈ twoWorkers → q.deletes = false := by
    intro id q h
    simp only [twoWorkers, Action.turn, List.flatten_cons, List.flatten_nil, List.map_nil,
      List.map_cons, List.nil_append, List.cons_append, List.mem_cons, Action.begin.injEq,
      reduceCtorEq, List.not_mem_nil, or_false] at h
    rcases h with ⟨-, rfl⟩ | ⟨-, rfl⟩ <;> rfl
  exact ⟨by decide +kernel, by decide +kernel, (settled_and_told_once good known 1).1⟩

end JitaCart.Concurrent.Trade
