/- module: JitaCart/Base/Leases
   source: none (library)
   digest: A queue whose jobs are taken for a while, retried when they fail, and given up at last. -/

import JitaCart.Base.Request
import JitaCart.Base.Table

/-!
A worker takes copies of due jobs, and the jobs are not due again before its lease
ends. It judges each job, and then writes what came of it. It may be gone at any
time, and then nobody writes anything. What is in the queue is never only in the
hands of a worker.
-/

set_option autoImplicit false
set_option relaxedAutoImplicit false

namespace JitaCart.Base.Leases

open Request Table

inductive Verdict
  | handled
  | failed
  | unreadable
  deriving DecidableEq

/-- `due` is the time from which on the job may be taken. -/
structure Job (I : Type) where
  id : I
  tries : Nat
  due : Nat
  deriving DecidableEq

/-- A job in the hands of a worker, with the tries it had when it was taken. -/
structure Hold (I : Type) where
  worker : Nat
  id : I
  tries : Nat
  expires : Nat
  verdict : Option Verdict
  deriving DecidableEq

/-- `delay` is how long a job rests after so many tries. -/
structure Policy where
  lease : Nat
  limit : Nat
  delay : Nat → Nat
  limit_pos : 0 < limit
  delay_le : ∀ n, n < limit → delay n ≤ lease

structure Queue (I : Type) where
  jobs : List (Job I)
  holds : List (Hold I)
  now : Nat
  ever : List I
  history : List (I × Verdict)
  withdrawn : List I

inductive Action (I : Type)
  | enqueue (id : I) (start : Nat)
  | wait (d : Nat)
  | take (worker start : Nat) (picked : List (Job I))
  | judge (h : Hold I) (v : Verdict)
  | settle (h : Hold I) (v : Verdict) (start : Nat)
  | release (h : Hold I)
  | quit (worker : Nat)
  | withdraw (ids : List I)

section Step
variable {I : Type} [DecidableEq I]

def Queue.drop (q : Queue I) (h : Hold I) : List (Hold I) :=
  q.holds.filter fun x => decide (x ≠ h)

def Policy.hold (P : Policy) (worker start : Nat) (j : Job I) : Hold I :=
  ⟨worker, j.id, j.tries, start + P.lease, none⟩

def rested (P : Policy) (h : Hold I) (start : Nat) : Verdict → List (Job I) → List (Job I)
  | .failed, jobs =>
    if P.limit ≤ h.tries + 1 then jobs.filter fun j => decide (j.id ≠ h.id)
    else updateWhere (fun j => decide (j.id = h.id))
      (fun j => { j with tries := h.tries + 1, due := start + P.delay (h.tries + 1) }) jobs
  | _, jobs => jobs.filter fun j => decide (j.id ≠ h.id)

def Queue.enqueue (q : Queue I) (id : I) (start : Nat) : Queue I :=
  { q with jobs := q.jobs ++ [⟨id, 0, start⟩], ever := id :: q.ever }

def Queue.take (P : Policy) (q : Queue I) (worker start : Nat) (picked : List (Job I)) : Queue I :=
  { q with
    jobs := updateWhere (fun j => decide (j.id ∈ picked.map Job.id))
      (fun j => { j with due := start + P.lease }) q.jobs
    holds := q.holds ++ picked.map (P.hold worker start) }

def Queue.judge (q : Queue I) (h : Hold I) (v : Verdict) : Queue I :=
  { q with
    holds := q.drop h ++ [{ h with verdict := some v }]
    history := (h.id, v) :: q.history }

def Queue.settle (P : Policy) (q : Queue I) (h : Hold I) (v : Verdict) (start : Nat) : Queue I :=
  { q with jobs := rested P h start v q.jobs, holds := q.drop h }

def Queue.withdraw (q : Queue I) (ids : List I) : Queue I :=
  { q with
    jobs := q.jobs.filter fun j => decide (j.id ∉ ids)
    withdrawn := ids ++ q.withdrawn }

/-- The clock of a worker's transaction is the time when that started. -/
def step (P : Policy) : Action I → Queue I → Except Unit (Queue I)
  | .enqueue id start, q => do
    require (id ∉ q.ever ∧ start ≤ q.now) ()
    .ok (q.enqueue id start)
  | .wait d, q => .ok { q with now := q.now + d }
  | .take worker start picked, q => do
    require (start ≤ q.now ∧ Keyed Job.id picked ∧ ∀ j ∈ picked, j ∈ q.jobs ∧ j.due ≤ start) ()
    .ok (q.take P worker start picked)
  | .judge h v, q => do
    require (h ∈ q.holds ∧ h.verdict = none) ()
    .ok (q.judge h v)
  | .settle h v start, q => do
    require (h ∈ q.holds ∧ h.verdict = some v ∧ start ≤ q.now) ()
    .ok (q.settle P h v start)
  | .release h, q => .ok { q with holds := q.drop h }
  | .quit worker, q =>
    .ok { q with holds := q.holds.filter fun h => decide (h.worker ≠ worker) }
  | .withdraw ids, q => .ok (q.withdraw ids)

def empty (now : Nat) : Queue I := ⟨[], [], now, [], [], []⟩

def Queue.failures (q : Queue I) (id : I) : Nat := q.history.count (id, .failed)

inductive Queue.Accounted (P : Policy) (q : Queue I) (id : I) : Prop
  | queued (j : Job I) (mem : j ∈ q.jobs) (same : j.id = id) (tries : j.tries < P.limit)
      (due : j.due ≤ q.now + P.lease)
  | handled (h : (id, .handled) ∈ q.history)
  | unreadable (h : (id, .unreadable) ∈ q.history)
  | withdrawn (h : id ∈ q.withdrawn)
  | givenUp (h : P.limit ≤ q.failures id)

variable {P : Policy} {q q' : Queue I}

theorem mem_drop {h x : Hold I} : x ∈ q.drop h ↔ x ∈ q.holds ∧ x ≠ h := by
  simp [Queue.drop]

private theorem step_ok {a : Action I} (h : step P a q = .ok q') :
    (∃ id start, a = .enqueue id start ∧ id ∉ q.ever ∧ start ≤ q.now ∧
      q' = q.enqueue id start) ∨
    (∃ d, a = .wait d ∧ q' = { q with now := q.now + d }) ∨
    (∃ worker start picked, a = .take worker start picked ∧ start ≤ q.now ∧
      Keyed Job.id picked ∧ (∀ j ∈ picked, j ∈ q.jobs ∧ j.due ≤ start) ∧
      q' = q.take P worker start picked) ∨
    (∃ x ∈ q.holds, ∃ v, a = .judge x v ∧ x.verdict = none ∧ q' = q.judge x v) ∨
    (∃ x ∈ q.holds, ∃ v start, a = .settle x v start ∧ x.verdict = some v ∧ start ≤ q.now ∧
      q' = q.settle P x v start) ∨
    (∃ x, a = .release x ∧ q' = { q with holds := q.drop x }) ∨
    (∃ worker, a = .quit worker ∧
      q' = { q with holds := q.holds.filter fun h => decide (h.worker ≠ worker) }) ∨
    (∃ ids, a = .withdraw ids ∧ q' = q.withdraw ids) := by
  cases a with
  | enqueue id start =>
    simp only [step, bind_eq_ok, require_eq_ok, Except.ok.injEq] at h
    obtain ⟨-, ⟨fresh, past⟩, rfl⟩ := h
    exact .inl ⟨id, start, rfl, fresh, past, rfl⟩
  | wait d => exact .inr (.inl ⟨d, rfl, (Except.ok.inj h).symm⟩)
  | take worker start picked =>
    simp only [step, bind_eq_ok, require_eq_ok, Except.ok.injEq] at h
    obtain ⟨-, ⟨past, keyed, due⟩, rfl⟩ := h
    exact .inr (.inr (.inl ⟨worker, start, picked, rfl, past, keyed, due, rfl⟩))
  | judge x v =>
    simp only [step, bind_eq_ok, require_eq_ok, Except.ok.injEq] at h
    obtain ⟨-, ⟨mem, unjudged⟩, rfl⟩ := h
    exact .inr (.inr (.inr (.inl ⟨x, mem, v, rfl, unjudged, rfl⟩)))
  | settle x v start =>
    simp only [step, bind_eq_ok, require_eq_ok, Except.ok.injEq] at h
    obtain ⟨-, ⟨mem, judged, past⟩, rfl⟩ := h
    exact .inr (.inr (.inr (.inr (.inl ⟨x, mem, v, start, rfl, judged, past, rfl⟩))))
  | release x =>
    exact .inr (.inr (.inr (.inr (.inr (.inl ⟨x, rfl, (Except.ok.inj h).symm⟩)))))
  | quit worker =>
    exact .inr (.inr (.inr (.inr (.inr (.inr (.inl ⟨worker, rfl, (Except.ok.inj h).symm⟩))))))
  | withdraw ids =>
    exact .inr (.inr (.inr (.inr (.inr (.inr (.inr ⟨ids, rfl, (Except.ok.inj h).symm⟩))))))

/-- A job after a verdict is as before, or it waits for its next try. -/
private theorem mem_rested {h : Hold I} {start : Nat} {v : Verdict} {j : Job I}
    (hj : j ∈ rested P h start v q.jobs) : (j ∈ q.jobs ∧ j.id ≠ h.id) ∨
      v = .failed ∧ j.id = h.id ∧ h.tries + 1 < P.limit ∧ (∃ k ∈ q.jobs, k.id = j.id) ∧
        j.tries = h.tries + 1 ∧ j.due = start + P.delay (h.tries + 1) := by
  have kept (hj : j ∈ q.jobs.filter fun j => decide (j.id ≠ h.id)) : j ∈ q.jobs ∧ j.id ≠ h.id :=
    ⟨List.mem_of_mem_filter hj, of_decide_eq_true (List.mem_filter.mp hj).2⟩
  cases v with
  | handled => exact .inl (kept hj)
  | unreadable => exact .inl (kept hj)
  | failed =>
    simp only [rested] at hj
    split at hj
    · exact .inl (kept hj)
    · obtain ⟨k, hk, rfl⟩ := mem_updateWhere.mp hj
      by_cases same : k.id = h.id
      · rw [if_pos (decide_eq_true same)]
        exact .inr ⟨rfl, same, by omega, ⟨k, hk, rfl⟩, rfl, rfl⟩
      · rw [if_neg (by simpa using same)]
        exact .inl ⟨hk, same⟩

private theorem exists_rested {h : Hold I} {start : Nat} {v : Verdict} {j : Job I} (hj : j ∈ q.jobs)
    (stays : j.id = h.id → v = .failed ∧ h.tries + 1 < P.limit) :
    ∃ k ∈ rested P h start v q.jobs, k.id = j.id := by
  by_cases same : j.id = h.id
  · obtain ⟨rfl, few⟩ := stays same
    simp only [rested, if_neg (Nat.not_le.mpr few)]
    refine ⟨_, mem_updateWhere_of_mem hj, ?_⟩
    split <;> rfl
  · have other : j ∈ q.jobs.filter fun j => decide (j.id ≠ h.id) :=
      List.mem_filter.mpr ⟨hj, decide_eq_true same⟩
    cases v with
    | handled => exact ⟨j, other, rfl⟩
    | unreadable => exact ⟨j, other, rfl⟩
    | failed =>
      simp only [rested]
      split
      · exact ⟨j, other, rfl⟩
      · exact ⟨j, mem_updateWhere.mpr ⟨j, hj, if_neg (by simpa using same)⟩, rfl⟩

private theorem keyed_rested {h : Hold I} {start : Nat} {v : Verdict} {jobs : List (Job I)}
    (keyed : Keyed Job.id jobs) : Keyed Job.id (rested P h start v jobs) := by
  cases v with
  | handled => exact keyed.filter _
  | unreadable => exact keyed.filter _
  | failed =>
    simp only [rested]
    split
    · exact keyed.filter _
    · exact keyed.updateWhere fun _ => rfl

private theorem failures_judge (x : Hold I) (v : Verdict) (id : I) :
    (q.judge x v).failures id = q.failures id + if x.id = id ∧ v = .failed then 1 else 0 := by
  unfold Queue.failures Queue.judge
  rw [List.count_cons]
  congr 1
  by_cases same : x.id = id ∧ v = .failed
  · simp [same]
  · simp [same]

structure Ok (P : Policy) (q : Queue I) : Prop where
  keyed : Keyed Job.id q.jobs
  known : ∀ j ∈ q.jobs, j.id ∈ q.ever
  judgedKnown : ∀ e ∈ q.history, e.1 ∈ q.ever
  heldKnown : ∀ h ∈ q.holds, h.id ∈ q.ever
  tries : ∀ j ∈ q.jobs, j.tries < P.limit ∧ j.tries ≤ q.failures j.id
  due : ∀ j ∈ q.jobs, j.due ≤ q.now + P.lease
  held : ∀ h ∈ q.holds, h.tries ≤ q.failures h.id
  judged : ∀ h ∈ q.holds, ∀ v ∈ h.verdict, (h.id, v) ∈ q.history ∧
    (v = .failed → h.tries + 1 ≤ q.failures h.id)
  kept : ∀ id ∈ q.ever, (∃ j ∈ q.jobs, j.id = id) ∨ (id, .handled) ∈ q.history ∨
    (id, .unreadable) ∈ q.history ∨ id ∈ q.withdrawn ∨ P.limit ≤ q.failures id

theorem ok_empty (now : Nat) : Ok P (empty now : Queue I) := by
  constructor <;> simp [empty, Keyed]

private theorem Ok.accounted (ok : Ok P q) {id : I} (h : id ∈ q.ever) : q.Accounted P id := by
  obtain ⟨j, hj, same⟩ | handled | unreadable | withdrawn | givenUp := ok.kept id h
  · exact .queued j hj same (ok.tries j hj).1 (ok.due j hj)
  · exact .handled handled
  · exact .unreadable unreadable
  · exact .withdrawn withdrawn
  · exact .givenUp givenUp

private theorem Ok.forget (ok : Ok P q) {holds : List (Hold I)} (fewer : ∀ h ∈ holds, h ∈ q.holds) :
    Ok P { q with holds } :=
  { ok with
    heldKnown := fun h hh => ok.heldKnown h (fewer h hh)
    held := fun h hh => ok.held h (fewer h hh)
    judged := fun h hh => ok.judged h (fewer h hh) }

private theorem Ok.enqueue (ok : Ok P q) {id : I} {start : Nat} (fresh : id ∉ q.ever)
    (past : start ≤ q.now) : Ok P (q.enqueue id start) := by
  have apart (j : Job I) (hj : j ∈ q.jobs) : j.id ≠ id := fun same => fresh (same ▸ ok.known j hj)
  refine ⟨ok.keyed.append apart, fun j hj => ?_,
    fun e he => List.mem_cons_of_mem _ (ok.judgedKnown e he),
    fun h hh => List.mem_cons_of_mem _ (ok.heldKnown h hh), fun j hj => ?_, fun j hj => ?_,
    ok.held, ok.judged, fun i hi => ?_⟩
  · rcases List.mem_append.mp hj with old | new
    · exact List.mem_cons_of_mem _ (ok.known j old)
    · obtain rfl := List.mem_singleton.mp new
      exact List.mem_cons_self
  · rcases List.mem_append.mp hj with old | new
    · exact ok.tries j old
    · obtain rfl := List.mem_singleton.mp new
      exact ⟨P.limit_pos, Nat.zero_le _⟩
  · rcases List.mem_append.mp hj with old | new
    · exact ok.due j old
    · obtain rfl := List.mem_singleton.mp new
      exact Nat.le_add_right_of_le past
  · rcases List.mem_cons.mp hi with rfl | old
    · exact .inl ⟨_, List.mem_append_right _ List.mem_cons_self, rfl⟩
    · exact (ok.kept i old).imp_left fun ⟨j, hj, same⟩ => ⟨j, List.mem_append_left _ hj, same⟩

private theorem Ok.take (ok : Ok P q) {worker start : Nat} {picked : List (Job I)}
    (past : start ≤ q.now) (due : ∀ j ∈ picked, j ∈ q.jobs ∧ j.due ≤ start) :
    Ok P (q.take P worker start picked) := by
  have old {j : Job I} (hj : j ∈ (q.take P worker start picked).jobs) :
      ∃ k ∈ q.jobs, k.id = j.id ∧ k.tries = j.tries ∧ (j.due = k.due ∨ j.due = start + P.lease) := by
    obtain ⟨k, hk, rfl⟩ := mem_updateWhere.mp hj
    refine ⟨k, hk, ?_⟩
    split <;> simp
  have taken {h : Hold I} (hh : h ∈ picked.map (P.hold worker start)) :
      ∃ j ∈ q.jobs, h = P.hold worker start j := by
    obtain ⟨j, hj, rfl⟩ := List.mem_map.mp hh
    exact ⟨j, (due j hj).1, rfl⟩
  refine ⟨ok.keyed.updateWhere fun _ => rfl, fun j hj => ?_, ok.judgedKnown, fun h hh => ?_,
    fun j hj => ?_, fun j hj => ?_, fun h hh => ?_, fun h hh => ?_, fun id hid => ?_⟩
  · obtain ⟨k, hk, id, -⟩ := old hj
    exact id ▸ ok.known k hk
  · rcases List.mem_append.mp hh with held | new
    · exact ok.heldKnown h held
    · obtain ⟨j, hj, rfl⟩ := taken new
      exact ok.known j hj
  · obtain ⟨k, hk, id, tries, -⟩ := old hj
    rw [← id, ← tries]
    exact ok.tries k hk
  · obtain ⟨k, hk, -, -, same | leased⟩ := old hj
    · exact same ▸ ok.due k hk
    · show j.due ≤ q.now + P.lease
      omega
  · rcases List.mem_append.mp hh with held | new
    · exact ok.held h held
    · obtain ⟨j, hj, rfl⟩ := taken new
      exact (ok.tries j hj).2
  · rcases List.mem_append.mp hh with held | new
    · exact ok.judged h held
    · obtain ⟨j, hj, rfl⟩ := taken new
      simp [Policy.hold]
  · refine (ok.kept id hid).imp_left fun ⟨j, hj, same⟩ => ⟨_, mem_updateWhere_of_mem hj, ?_⟩
    split <;> exact same

private theorem Ok.judge (ok : Ok P q) {x : Hold I} (mem : x ∈ q.holds) (v : Verdict) :
    Ok P (q.judge x v) := by
  have more (id : I) : q.failures id ≤ (q.judge x v).failures id :=
    (failures_judge x v id).symm ▸ Nat.le_add_right _ _
  have before {h : Hold I} (hh : h ∈ (q.judge x v).holds) :
      h ∈ q.holds ∨ h = { x with verdict := some v } :=
    (List.mem_append.mp hh).imp (fun h => (mem_drop.mp h).1) List.mem_singleton.mp
  refine ⟨ok.keyed, ok.known, fun e he => ?_, fun h hh => ?_,
    fun j hj => ⟨(ok.tries j hj).1, (ok.tries j hj).2.trans (more _)⟩, ok.due, fun h hh => ?_,
    fun h hh => ?_, fun id hid => ?_⟩
  · rcases List.mem_cons.mp he with rfl | old
    · exact ok.heldKnown x mem
    · exact ok.judgedKnown e old
  · rcases before hh with old | rfl
    · exact ok.heldKnown h old
    · exact ok.heldKnown x mem
  · rcases before hh with old | rfl
    · exact (ok.held h old).trans (more _)
    · exact (ok.held x mem).trans (more x.id)
  · rcases before hh with old | rfl
    · intro w hw
      obtain ⟨told, counted⟩ := ok.judged h old w hw
      exact ⟨List.mem_cons_of_mem _ told, fun failed => (counted failed).trans (more _)⟩
    · intro w hw
      obtain rfl := Option.some.inj hw
      refine ⟨List.mem_cons_self, fun failed => ?_⟩
      have tries := ok.held x mem
      show x.tries + 1 ≤ (q.judge x v).failures x.id
      rw [failures_judge, if_pos ⟨rfl, failed⟩]
      omega
  · rcases ok.kept id hid with queued | handled | unreadable | withdrawn | givenUp
    · exact .inl queued
    · exact .inr (.inl (List.mem_cons_of_mem _ handled))
    · exact .inr (.inr (.inl (List.mem_cons_of_mem _ unreadable)))
    · exact .inr (.inr (.inr (.inl withdrawn)))
    · exact .inr (.inr (.inr (.inr (givenUp.trans (more id)))))

private theorem Ok.settle (ok : Ok P q) {x : Hold I} {v : Verdict} {start : Nat} (mem : x ∈ q.holds)
    (told : x.verdict = some v) (past : start ≤ q.now) : Ok P (q.settle P x v start) := by
  obtain ⟨recorded, counted⟩ := ok.judged x mem v told
  have less : Ok P { q with holds := q.drop x } := ok.forget fun h hh => (mem_drop.mp hh).1
  refine { less with
    keyed := keyed_rested ok.keyed
    known := fun j hj => ?_
    tries := fun j hj => ?_
    due := fun j hj => ?_
    kept := fun id hid => ?_ }
  · rcases mem_rested hj with ⟨old, -⟩ | ⟨-, -, -, ⟨k, hk, same⟩, -⟩
    · exact ok.known j old
    · exact same ▸ ok.known k hk
  · rcases mem_rested hj with ⟨old, -⟩ | ⟨failed, same, few, -, tries, -⟩
    · exact ok.tries j old
    · rw [tries, same]
      exact ⟨few, counted failed⟩
  · rcases mem_rested hj with ⟨old, -⟩ | ⟨-, -, few, -, -, due⟩
    · exact ok.due j old
    · have short := P.delay_le _ few
      show j.due ≤ q.now + P.lease
      omega
  · rcases ok.kept id hid with ⟨j, hj, rfl⟩ | gone
    · by_cases stays : j.id = x.id → v = .failed ∧ x.tries + 1 < P.limit
      · exact .inl (exists_rested hj stays)
      · simp only [Classical.not_imp, not_and, Nat.not_lt] at stays
        obtain ⟨same, last⟩ := stays
        refine .inr ?_
        rw [same]
        cases v with
        | handled => exact .inl recorded
        | unreadable => exact .inr (.inl recorded)
        | failed => exact .inr (.inr (.inr ((last rfl).trans (counted rfl))))
    · exact .inr gone

private theorem Ok.withdraw (ok : Ok P q) (ids : List I) : Ok P (q.withdraw ids) := by
  have old {j : Job I} (hj : j ∈ q.jobs.filter fun j => decide (j.id ∉ ids)) : j ∈ q.jobs :=
    List.mem_of_mem_filter hj
  refine ⟨ok.keyed.filter _, fun j hj => ok.known j (old hj), ok.judgedKnown, ok.heldKnown,
    fun j hj => ok.tries j (old hj), fun j hj => ok.due j (old hj), ok.held, ok.judged,
    fun id hid => ?_⟩
  rcases ok.kept id hid with ⟨j, hj, rfl⟩ | handled | unreadable | withdrawn | givenUp
  · by_cases out : j.id ∈ ids
    · exact .inr (.inr (.inr (.inl (List.mem_append_left _ out))))
    · exact .inl ⟨j, List.mem_filter.mpr ⟨hj, decide_eq_true out⟩, rfl⟩
  · exact .inr (.inl handled)
  · exact .inr (.inr (.inl unreadable))
  · exact .inr (.inr (.inr (.inl (List.mem_append_right _ withdrawn))))
  · exact .inr (.inr (.inr (.inr givenUp)))

private theorem ok_step {a : Action I} (ok : Ok P q) (h : step P a q = .ok q') : Ok P q' := by
  obtain ⟨id, start, -, fresh, past, rfl⟩ | ⟨d, -, rfl⟩ | ⟨worker, start, picked, -, past, -, due, rfl⟩ |
    ⟨x, mem, v, -, -, rfl⟩ | ⟨x, mem, v, start, -, told, past, rfl⟩ | ⟨x, -, rfl⟩ | ⟨worker, -, rfl⟩ |
    ⟨ids, -, rfl⟩ := step_ok h
  · exact ok.enqueue fresh past
  · exact { ok with due := fun j hj => (ok.due j hj).trans (by simp) }
  · exact ok.take past due
  · exact ok.judge mem v
  · exact ok.settle mem told past
  · exact ok.forget fun h hh => (mem_drop.mp hh).1
  · exact ok.forget fun h hh => List.mem_of_mem_filter hh
  · exact ok.withdraw ids

theorem accounted_run (ok : Ok P q) (as : List (Action I)) {id : I}
    (h : id ∈ (run (step P) q as).ever) : (run (step P) q as).Accounted P id :=
  Ok.accounted (run_invariant (fun _ _ _ ok h => ok_step ok h) ok as) h

/-- No lease ends while its job is in the hands of a worker. -/
def Timely (P : Policy) (q : Queue I) : Action I → Prop
  | .wait d => ∀ h ∈ q.holds, q.now + d < h.expires
  | .take _ start _ => q.now < start + P.lease
  | _ => True

/-- No worker forgets a job that it has handled. -/
def Careful (q : Queue I) : Action I → Prop
  | .release h => h.verdict ≠ some .handled
  | .quit worker => ∀ h ∈ q.holds, h.worker = worker → h.verdict ≠ some .handled
  | _ => True

structure Exclusive (q : Queue I) : Prop where
  single : Keyed Hold.id q.holds
  current : ∀ h ∈ q.holds, q.now < h.expires
  leased : ∀ h ∈ q.holds, ∀ j ∈ q.jobs, j.id = h.id → h.expires ≤ j.due
  unhandled : ∀ h ∈ q.holds, h.verdict ≠ some .handled → (h.id, .handled) ∉ q.history
  leaving : ∀ j ∈ q.jobs, (j.id, .handled) ∈ q.history →
    ∃ h ∈ q.holds, h.id = j.id ∧ h.verdict = some .handled
  once : ∀ id, q.history.count (id, .handled) ≤ 1

theorem exclusive_empty (now : Nat) : Exclusive (empty now : Queue I) := by
  constructor <;> simp [empty, Keyed]

private theorem Exclusive.apart (ex : Exclusive q) {h : Hold I} {j : Job I} {start : Nat}
    (hh : h ∈ q.holds) (hj : j ∈ q.jobs) (due : j.due ≤ start) (past : start ≤ q.now) :
    h.id ≠ j.id := by
  intro same
  have leased := ex.leased h hh j hj same.symm
  have current := ex.current h hh
  omega

private theorem Exclusive.enqueue (ex : Exclusive q) (ok : Ok P q) {id : I} {start : Nat}
    (fresh : id ∉ q.ever) : Exclusive (q.enqueue id start) := by
  refine { ex with leased := fun h hh j hj same => ?_, leaving := fun j hj told => ?_ }
  · rcases List.mem_append.mp hj with old | new
    · exact ex.leased h hh j old same
    · obtain rfl := List.mem_singleton.mp new
      have known := ok.heldKnown h hh
      rw [← same] at known
      exact absurd known fresh
  · rcases List.mem_append.mp hj with old | new
    · exact ex.leaving j old told
    · obtain rfl := List.mem_singleton.mp new
      exact absurd (ok.judgedKnown _ told) fresh

private theorem Exclusive.take (ex : Exclusive q) {worker start : Nat}
    {picked : List (Job I)} (past : start ≤ q.now) (keyed : Keyed Job.id picked)
    (due : ∀ j ∈ picked, j ∈ q.jobs ∧ j.due ≤ start) (timely : q.now < start + P.lease) :
    Exclusive (q.take P worker start picked) := by
  have new {h : Hold I} (hh : h ∈ picked.map (P.hold worker start)) :
      ∃ j ∈ q.jobs, h = P.hold worker start j ∧ j.due ≤ start := by
    obtain ⟨j, hj, rfl⟩ := List.mem_map.mp hh
    exact ⟨j, (due j hj).1, rfl, (due j hj).2⟩
  have unheld {h : Hold I} {j : Job I} (hh : h ∈ q.holds) (hj : j ∈ picked) : h.id ≠ j.id :=
    ex.apart hh (due j hj).1 (due j hj).2 past
  refine ⟨?_, fun h hh => ?_, fun h hh j hj same => ?_, fun h hh unjudged told => ?_,
    fun j hj told => ?_, ex.once⟩
  · refine ex.single.append_list (Keyed.map (fun _ => rfl) keyed) fun h hh k hk => ?_
    obtain ⟨j, hj, rfl⟩ := List.mem_map.mp hk
    exact unheld hh hj
  · rcases List.mem_append.mp hh with held | taken
    · exact ex.current h held
    · obtain ⟨j, -, rfl, -⟩ := new taken
      exact timely
  · obtain ⟨k, hk, rfl⟩ := mem_updateWhere.mp hj
    by_cases inside : k.id ∈ picked.map Job.id
    · rw [if_pos (decide_eq_true inside)] at same ⊢
      obtain ⟨p, hp, id⟩ := List.mem_map.mp inside
      rcases List.mem_append.mp hh with held | taken
      · exact absurd (same.symm.trans id.symm) (unheld held hp)
      · obtain ⟨j, -, rfl, -⟩ := new taken
        exact Nat.le_refl _
    · rw [if_neg (by simpa using inside)] at same ⊢
      rcases List.mem_append.mp hh with held | taken
      · exact ex.leased h held k hk same
      · obtain ⟨p, hp, rfl⟩ := List.mem_map.mp taken
        exact absurd (same ▸ List.mem_map_of_mem hp) inside
  · rcases List.mem_append.mp hh with held | taken
    · exact ex.unhandled h held unjudged told
    · obtain ⟨j, hj, rfl, early⟩ := new taken
      obtain ⟨x, hx, same, -⟩ := ex.leaving j hj told
      exact ex.apart hx hj early past same
  · obtain ⟨k, hk, rfl⟩ := mem_updateWhere.mp hj
    have same : (if decide (k.id ∈ picked.map Job.id) then { k with due := start + P.lease }
        else k).id = k.id := by split <;> rfl
    rw [same] at told ⊢
    obtain ⟨h, hh, rest⟩ := ex.leaving k hk told
    exact ⟨h, List.mem_append_left _ hh, rest⟩

private theorem Exclusive.judge (ex : Exclusive q) {x : Hold I} (mem : x ∈ q.holds)
    (unjudged : x.verdict = none) (v : Verdict) : Exclusive (q.judge x v) := by
  have other {h : Hold I} (hh : h ∈ q.drop x) : h ∈ q.holds ∧ h.id ≠ x.id := by
    obtain ⟨held, ne⟩ := mem_drop.mp hh
    exact ⟨held, fun same => ne (ex.single.eq_of_key held mem same)⟩
  have unseen : (x.id, .handled) ∉ q.history := ex.unhandled x mem (by simp [unjudged])
  refine ⟨?_, fun h hh => ?_, fun h hh => ?_, fun h hh still told => ?_, fun j hj told => ?_,
    fun id => ?_⟩
  · exact (ex.single.filter _).append fun h hh => (other hh).2
  · rcases List.mem_append.mp hh with held | new
    · exact ex.current h (other held).1
    · obtain rfl := List.mem_singleton.mp new
      exact ex.current x mem
  · rcases List.mem_append.mp hh with held | new
    · exact ex.leased h (other held).1
    · obtain rfl := List.mem_singleton.mp new
      exact ex.leased x mem
  · rcases List.mem_append.mp hh with held | new
    · rcases List.mem_cons.mp told with here | old
      · exact (other held).2 (congrArg Prod.fst here)
      · exact ex.unhandled h (other held).1 still old
    · obtain rfl := List.mem_singleton.mp new
      rcases List.mem_cons.mp told with here | old
      · exact still (congrArg some (congrArg Prod.snd here).symm)
      · exact unseen old
  · rcases List.mem_cons.mp told with here | old
    · refine ⟨_, List.mem_append_right _ List.mem_cons_self, (congrArg Prod.fst here).symm, ?_⟩
      exact congrArg some (congrArg Prod.snd here).symm
    · obtain ⟨h, hh, same, handled⟩ := ex.leaving j hj old
      refine ⟨h, List.mem_append_left _ (mem_drop.mpr ⟨hh, ?_⟩), same, handled⟩
      rintro rfl
      rw [unjudged] at handled
      cases handled
  · show ((x.id, v) :: q.history).count (id, .handled) ≤ 1
    rw [List.count_cons]
    split
    · obtain ⟨rfl, rfl⟩ := Prod.mk.inj (eq_of_beq ‹_›)
      rw [List.count_eq_zero_of_not_mem unseen]
    · exact ex.once id

private theorem Exclusive.forget (ex : Exclusive q) {p : Hold I → Bool}
    (unhandled : ∀ h ∈ q.holds, p h = false → h.verdict ≠ some .handled) :
    Exclusive { q with holds := q.holds.filter p } := by
  have fewer {h : Hold I} (hh : h ∈ q.holds.filter p) : h ∈ q.holds := List.mem_of_mem_filter hh
  refine ⟨ex.single.filter p, fun h hh => ex.current h (fewer hh),
    fun h hh => ex.leased h (fewer hh), fun h hh => ex.unhandled h (fewer hh),
    fun j hj told => ?_, ex.once⟩
  obtain ⟨h, hh, same, handled⟩ := ex.leaving j hj told
  refine ⟨h, List.mem_filter.mpr ⟨hh, ?_⟩, same, handled⟩
  by_contra hp
  exact unhandled h hh (by simpa using hp) handled

private theorem Exclusive.settle (ex : Exclusive q) {x : Hold I} {v : Verdict} {start : Nat}
    (mem : x ∈ q.holds) (told : x.verdict = some v) : Exclusive (q.settle P x v start) := by
  have other {h : Hold I} (hh : h ∈ q.drop x) : h ∈ q.holds ∧ h.id ≠ x.id := by
    obtain ⟨held, ne⟩ := mem_drop.mp hh
    exact ⟨held, fun same => ne (ex.single.eq_of_key held mem same)⟩
  refine ⟨ex.single.filter _, fun h hh => ex.current h (other hh).1, fun h hh j hj same => ?_,
    fun h hh => ex.unhandled h (other hh).1, fun j hj done => ?_, ex.once⟩
  · rcases mem_rested hj with ⟨old, -⟩ | ⟨-, own, -⟩
    · exact ex.leased h (other hh).1 j old same
    · exact absurd (same.symm.trans own) (other hh).2
  · rcases mem_rested hj with ⟨old, apart⟩ | ⟨rfl, own, -, ⟨k, hk, id⟩, -⟩
    · obtain ⟨h, hh, same, handled⟩ := ex.leaving j old done
      refine ⟨h, mem_drop.mpr ⟨hh, ?_⟩, same, handled⟩
      rintro rfl
      exact apart same.symm
    · rw [← id] at done
      obtain ⟨h, hh, same, handled⟩ := ex.leaving k hk done
      obtain rfl := ex.single.eq_of_key hh mem (same.trans (id.trans own))
      rw [told] at handled
      cases handled

private theorem exclusive_step {a : Action I} (ex : Exclusive q) (ok : Ok P q)
    (timely : Timely P q a) (careful : Careful q a) (h : step P a q = .ok q') : Exclusive q' := by
  obtain ⟨id, start, -, fresh, -, rfl⟩ | ⟨d, rfl, rfl⟩ |
    ⟨worker, start, picked, rfl, past, keyed, due, rfl⟩ | ⟨x, mem, v, -, unjudged, rfl⟩ |
    ⟨x, mem, v, start, -, told, -, rfl⟩ | ⟨x, rfl, rfl⟩ | ⟨worker, rfl, rfl⟩ |
    ⟨ids, -, rfl⟩ := step_ok h
  · exact ex.enqueue ok fresh
  · exact { ex with current := timely }
  · exact ex.take past keyed due timely
  · exact ex.judge mem unjudged v
  · exact ex.settle mem told
  · refine ex.forget fun h _ own => ?_
    obtain rfl : h = x := by simpa using own
    exact careful
  · exact ex.forget fun h hh own => careful h hh (by simpa using own)
  · refine { ex with
      leased := fun h hh j hj => ex.leased h hh j (List.mem_of_mem_filter hj)
      leaving := fun j hj => ex.leaving j (List.mem_of_mem_filter hj) }

theorem once_run (ok : Ok P q) (ex : Exclusive q) {as : List (Action I)}
    (h : Meets (step P) (fun q a => Timely P q a ∧ Careful q a) q as) (id : I) :
    (run (step P) q as).history.count (id, .handled) ≤ 1 := by
  have both : Ok P (run (step P) q as) ∧ Exclusive (run (step P) q as) := by
    refine meets_invariant (I := fun q => Ok P q ∧ Exclusive q) ?_ ⟨ok, ex⟩ h
    exact fun q a q' both cond hs =>
      ⟨ok_step both.1 hs, exclusive_step both.2 both.1 cond.1 cond.2 hs⟩
  exact both.2.once id

end Step

end JitaCart.Base.Leases
