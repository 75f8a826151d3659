/- module: JitaCart/Webhooks/Leasing
   source: backend/crates/worker/src/jobs/pending_webhooks.rs
   digest: The pending webhooks are a queue with leases: nothing is lost, and nothing told twice. -/

import JitaCart.Webhooks.Delivery

set_option autoImplicit false
set_option relaxedAutoImplicit false

namespace JitaCart.Webhooks.Outbox

open Base.Table Base.Request Base.Leases Schema

variable {db : Database} {s s' : Outbox}

def policy : Policy where
  lease := LEASE_SECS
  limit := MAX_ATTEMPTS
  delay := backoff
  limit_pos := by decide
  delay_le := by decide

/-- The queue that the table is. -/
def jobOf (p : PendingWebhook) : Job Uuid := ⟨p.id, p.attempts, p.nextAttemptAt⟩

def holdOf (d : Drain) (verdict : Option Verdict) (row : Row) : Hold Uuid :=
  ⟨d.worker, row.id, row.attempts, d.leasedUntil, verdict⟩

/-- The jobs in the hands of a worker; only the current one is judged. -/
inductive Holds (d : Drain) : Hold Uuid → Prop
  | current (row : Row) (rest : List Row) (h : d.rows = row :: rest) :
      Holds d (holdOf d d.verdict row)
  | waiting (row other : Row) (rest : List Row) (h : d.rows = row :: rest) (mem : other ∈ rest) :
      Holds d (holdOf d none other)

structure Mirrors (s : Outbox) (q : Queue Uuid) : Prop where
  jobs : q.jobs = s.pending.map jobOf
  now : q.now = s.clock
  ever : q.ever = s.fired.map Fired.id
  history : q.history = s.outcomes
  holds : ∀ h, h ∈ q.holds ↔ ∃ d ∈ s.drains, Holds d h
  withdrawn : ∀ id ∈ q.withdrawn, ∃ f ∈ s.fired, f.id = id ∧ f.groupId ∈ s.deleted

private theorem mirrors_empty (clock : Nat) : Mirrors (empty clock) (Base.Leases.empty clock) := by
  constructor <;> simp [empty, Base.Leases.empty]

private theorem Holds.worker {d : Drain} {h : Hold Uuid} (held : Holds d h) :
    h.worker = d.worker := by
  cases held <;> rfl

private theorem holds_turn {worker leasedUntil since : Nat} {rows : List Row} {h : Hold Uuid} :
    (∃ d, Drain.turn worker rows leasedUntil since = some d ∧ Holds d h) ↔
      ∃ row ∈ rows, h = ⟨worker, row.id, row.attempts, leasedUntil, none⟩ := by
  constructor
  · rintro ⟨d, turned, held⟩
    obtain ⟨-, rfl⟩ := turn_eq_some.mp turned
    cases held with
    | current row rest same =>
      obtain rfl : rows = row :: rest := same
      exact ⟨row, List.mem_cons_self, rfl⟩
    | waiting row other rest same mem =>
      obtain rfl : rows = row :: rest := same
      exact ⟨other, List.mem_cons_of_mem _ mem, rfl⟩
  · rintro ⟨row, mem, rfl⟩
    refine ⟨_, turn_eq_some.mpr ⟨List.ne_nil_of_mem mem, rfl⟩, ?_⟩
    obtain ⟨first, rest, rfl⟩ := List.exists_cons_of_ne_nil (List.ne_nil_of_mem mem)
    rcases List.mem_cons.mp mem with rfl | later
    · exact .current row rest rfl
    · exact .waiting first row rest rfl later

private theorem holds_setDrain {worker : Nat} {d : Option Drain} {h : Hold Uuid} :
    (∃ x ∈ s.setDrain worker d, Holds x h) ↔
      ((∃ x ∈ s.drains, Holds x h) ∧ h.worker ≠ worker) ∨ ∃ x, d = some x ∧ Holds x h := by
  constructor
  · rintro ⟨x, hx, held⟩
    rcases mem_setDrain.mp hx with ⟨old, other⟩ | new
    · exact .inl ⟨⟨x, old, held⟩, held.worker ▸ other⟩
    · exact .inr ⟨x, new, held⟩
  · rintro (⟨⟨x, old, held⟩, other⟩ | ⟨x, new, held⟩)
    · exact ⟨x, mem_setDrain.mpr (.inl ⟨old, held.worker ▸ other⟩), held⟩
    · exact ⟨x, mem_setDrain.mpr (.inr new), held⟩

private theorem holds_other (ok : Sound s) {d : Drain} (hd : d ∈ s.drains) {row : Row}
    {rest : List Row} (rows : d.rows = row :: rest) {h : Hold Uuid} :
    ((∃ x ∈ s.drains, Holds x h) ∧ h ≠ holdOf d d.verdict row) ↔
      ((∃ x ∈ s.drains, Holds x h) ∧ h.worker ≠ d.worker) ∨ ∃ r ∈ rest, h = holdOf d none r := by
  have apart (r : Row) (hr : r ∈ rest) : r.id ≠ row.id := fun same => by
    have keyed := ok.rows d hd
    rw [rows] at keyed
    exact (List.nodup_cons.mp keyed).1 (same ▸ List.mem_map_of_mem hr)
  constructor
  · rintro ⟨⟨x, hx, held⟩, other⟩
    by_cases own : h.worker = d.worker
    · obtain rfl := ok.workers.eq_of_key hx hd (held.worker.symm.trans own)
      cases held with
      | current r rest' same =>
        obtain ⟨rfl, -⟩ := List.cons.inj (same.symm.trans rows)
        exact absurd rfl other
      | waiting r r' rest' same mem =>
        obtain ⟨-, rfl⟩ := List.cons.inj (same.symm.trans rows)
        exact .inr ⟨r', mem, rfl⟩
    · exact .inl ⟨⟨x, hx, held⟩, own⟩
  · rintro (⟨held, other⟩ | ⟨r, hr, rfl⟩)
    · exact ⟨held, fun same => other (congrArg Hold.worker same)⟩
    · exact ⟨⟨d, hd, .waiting row r rest rows hr⟩, fun same => apart r hr (congrArg Hold.id same)⟩

private theorem jobs_written (row : Row) (d : Drain) (v : Option Verdict) (began : Nat)
    (verdict : Verdict) :
    (s.written row began verdict).map jobOf =
      rested policy (holdOf d v row) began verdict (s.pending.map jobOf) := by
  have dropped : (s.pending.filter fun p => decide (p.id ≠ row.id)).map jobOf =
      (s.pending.map jobOf).filter fun j => decide (j.id ≠ row.id) := by
    rw [List.filter_map]
    rfl
  cases verdict with
  | handled => exact dropped
  | unreadable => exact dropped
  | failed =>
    by_cases last : policy.limit ≤ (holdOf d v row).tries + 1
    · have last' : MAX_ATTEMPTS ≤ row.attempts + 1 := last
      simp only [written, rested, if_pos last, if_pos last']
      exact dropped
    · have last' : ¬MAX_ATTEMPTS ≤ row.attempts + 1 := last
      simp only [written, rested, if_neg last, if_neg last']
      exact map_updateWhere_comm jobOf s.pending (fun _ => rfl) fun _ => rfl

variable {q : Queue Uuid}

private theorem mirrors_fire (m : Mirrors s q) {id groupId : Uuid} {event : WebhookEvent}
    {began : Nat} (h : s.fire db id groupId event began = .ok s') :
    Base.Leases.step policy (.enqueue id began) q = .ok (q.enqueue id began) ∧
      Mirrors s' (q.enqueue id began) := by
  obtain ⟨-, fresh, past, rfl⟩ := fire_ok h
  have guard : id ∉ q.ever ∧ began ≤ q.now := by
    rw [m.ever, m.now]
    exact ⟨fresh, past⟩
  refine ⟨?_, ?_⟩
  · simp only [Base.Leases.step, require, if_pos guard]
    rfl
  refine ⟨?_, m.now, ?_, m.history, m.holds, fun i hi => ?_⟩
  · simp [Queue.enqueue, m.jobs, jobOf]
  · simp [Queue.enqueue, m.ever]
  · obtain ⟨f, hf, rest⟩ := m.withdrawn i hi
    exact ⟨f, List.mem_cons_of_mem _ hf, rest⟩

private theorem mirrors_claim (m : Mirrors s q) (ok : Sound s) {worker began : Nat}
    {skipped : List Uuid} (h : s.claim db worker began skipped = .ok s') :
    ∃ picked, Base.Leases.step policy (.take worker began picked) q =
        .ok (q.take policy worker began picked) ∧ Mirrors s' (q.take policy worker began picked) := by
  obtain ⟨rows, idle, past, -, nodup, due, rfl⟩ := claim_ok h
  have keyed : Keyed PendingWebhook.id rows :=
    (List.nodup_map_iff_inj_on (nodup ok.pending.nodup)).mpr fun x hx y hy same =>
      ok.pending.eq_of_key (due x hx).1 (due y hy).1 same
  refine ⟨rows.map jobOf, ?_, ?_⟩
  · have guard : began ≤ q.now ∧ Keyed Job.id (rows.map jobOf) ∧
        ∀ j ∈ rows.map jobOf, j ∈ q.jobs ∧ j.due ≤ began := by
      refine ⟨m.now ▸ past, keyed.map fun _ => rfl, fun j hj => ?_⟩
      obtain ⟨p, hp, rfl⟩ := List.mem_map.mp hj
      exact ⟨m.jobs ▸ List.mem_map_of_mem (due p hp).1, (due p hp).2⟩
    simp only [Base.Leases.step, require, if_pos guard]
    rfl
  · refine ⟨?_, m.now, m.ever, m.history, fun x => ?_, m.withdrawn⟩
    · simp only [Queue.take, m.jobs]
      refine (map_updateWhere_comm jobOf s.pending (fun p => ?_) fun _ => rfl).symm
      rw [List.map_map]
      rfl
    · have none_before : ∀ d ∈ s.drains, d.worker ≠ worker := lookup_eq_none.mp idle
      have others : (∃ d ∈ s.drains, Holds d x) ↔
          (∃ d ∈ s.drains, Holds d x) ∧ x.worker ≠ worker := by
        refine ⟨?_, And.left⟩
        rintro ⟨d, hd, held⟩
        exact ⟨⟨d, hd, held⟩, held.worker ▸ none_before d hd⟩
      rw [holds_setDrain, holds_turn, ← others, ← m.holds]
      simp only [Queue.take, List.mem_append, List.map_map, List.mem_map, Function.comp_apply]
      refine or_congr_right ?_
      constructor
      · rintro ⟨p, hp, rfl⟩
        exact ⟨p.row, ⟨p, hp, rfl⟩, rfl⟩
      · rintro ⟨row, ⟨p, hp, rfl⟩, rfl⟩
        exact ⟨p, hp, rfl⟩

private theorem mirrors_dispatch (m : Mirrors s q) (ok : Sound s) {worker : Nat}
    {connected success : Bool} (h : s.dispatch worker connected success = .ok s') :
    ∃ x v, Base.Leases.step policy (.judge x v) q = .ok (q.judge x v) ∧ Mirrors s' (q.judge x v) := by
  obtain ⟨d, row, rest, hd, rfl, rows, waiting, rfl⟩ := dispatch_ok h
  have held : holdOf d d.verdict row ∈ q.holds := (m.holds _).mpr ⟨d, hd, .current row rest rows⟩
  refine ⟨holdOf d d.verdict row, (s.handle row connected success).1, ?_, ?_⟩
  · have guard : holdOf d d.verdict row ∈ q.holds ∧ (holdOf d d.verdict row).verdict = none :=
      ⟨held, waiting⟩
    simp only [Base.Leases.step, require, if_pos guard]
    rfl
  · refine ⟨m.jobs, m.now, m.ever, congrArg _ m.history, fun x => ?_, m.withdrawn⟩
    have told : (∃ y, some { d with verdict := some (s.handle row connected success).1 } = some y ∧
        Holds y x) ↔ x = holdOf d (some (s.handle row connected success).1) row ∨
          ∃ r ∈ rest, x = holdOf d none r := by
      constructor
      · rintro ⟨y, same, h⟩
        obtain rfl := Option.some.inj same
        cases h with
        | current r rest' eq =>
          obtain ⟨rfl, -⟩ := List.cons.inj (eq.symm.trans rows)
          exact .inl rfl
        | waiting r r' rest' eq mem =>
          obtain ⟨-, rfl⟩ := List.cons.inj (eq.symm.trans rows)
          exact .inr ⟨r', mem, rfl⟩
      · rintro (rfl | ⟨r, hr, rfl⟩)
        · exact ⟨_, rfl, .current row rest rows⟩
        · exact ⟨_, rfl, .waiting row r rest rows hr⟩
    rw [holds_setDrain, told, ← or_assoc, or_right_comm, ← holds_other ok hd rows, ← m.holds]
    simp only [Queue.judge, List.mem_append, mem_drop, List.mem_singleton]
    rfl

private theorem mirrors_record (m : Mirrors s q) (ok : Sound s) {worker began : Nat}
    {connected : Bool} (h : s.record worker began connected = .ok s') :
    ∃ d ∈ s.drains, ∃ row rest v, d.worker = worker ∧ d.rows = row :: rest ∧ d.verdict = some v ∧
      ∃ a q', Base.Leases.step policy a q = .ok q' ∧ Mirrors s' q' ∧
        ((connected = true ∧ a = .settle (holdOf d d.verdict row) v began) ∨
          (connected = false ∧ v = .unreadable ∧ a = .release (holdOf d d.verdict row)) ∨
          connected = false ∧ a = .quit worker) := by
  obtain ⟨d, row, rest, v, hd, rfl, rows, told, past, done⟩ := record_ok h
  have held : holdOf d d.verdict row ∈ q.holds := (m.holds _).mpr ⟨d, hd, .current row rest rows⟩
  have left (x : Hold Uuid) : (x ∈ q.drop (holdOf d d.verdict row)) ↔
      ∃ y ∈ s.setDrain d.worker (Drain.turn d.worker rest d.leasedUntil s.clock), Holds y x := by
    rw [mem_drop, m.holds, holds_other ok hd rows, holds_setDrain, holds_turn]
    rfl
  refine ⟨d, hd, row, rest, v, rfl, rows, told, ?_⟩
  rcases done with ⟨on, rfl⟩ | ⟨off, unread, rfl⟩ | ⟨off, -, rfl⟩
  · refine ⟨_, q.settle policy (holdOf d d.verdict row) v began, ?_, ?_, .inl ⟨on, rfl⟩⟩
    · have guard : holdOf d d.verdict row ∈ q.holds ∧
          (holdOf d d.verdict row).verdict = some v ∧ began ≤ q.now := ⟨held, told, m.now ▸ past⟩
      simp only [Base.Leases.step, require, if_pos guard]
      rfl
    · refine ⟨?_, m.now, m.ever, m.history, left, m.withdrawn⟩
      simp only [Queue.settle, m.jobs]
      exact (jobs_written row d d.verdict began v).symm
  · exact ⟨_, { q with holds := q.drop (holdOf d d.verdict row) }, rfl,
      ⟨m.jobs, m.now, m.ever, m.history, left, m.withdrawn⟩, .inr (.inl ⟨off, unread, rfl⟩)⟩
  · refine ⟨_, { q with holds := q.holds.filter fun h => decide (h.worker ≠ d.worker) }, rfl,
      ⟨m.jobs, m.now, m.ever, m.history, fun x => ?_, m.withdrawn⟩, .inr (.inr ⟨off, rfl⟩)⟩
    rw [holds_setDrain, ← m.holds]
    simp

private theorem mirrors_crash (m : Mirrors s q) (worker : Nat) :
    Mirrors { s with drains := s.setDrain worker none }
      { q with holds := q.holds.filter fun h => decide (h.worker ≠ worker) } := by
  refine ⟨m.jobs, m.now, m.ever, m.history, fun x => ?_, m.withdrawn⟩
  rw [holds_setDrain, ← m.holds]
  simp

private theorem mirrors_deleteGroup (m : Mirrors s q) (ok : Sound s) (groupId : Uuid) :
    Mirrors (s.deleteGroup groupId) (q.withdraw
      ((s.pending.filter fun p => decide (p.groupId = groupId)).map PendingWebhook.id)) := by
  refine ⟨?_, m.now, m.ever, m.history, m.holds, fun id hid => ?_⟩
  · simp only [Queue.withdraw, deleteGroup, m.jobs, List.filter_map]
    congr 1
    apply List.filter_congr
    intro p hp
    refine decide_eq_decide.mpr (not_congr ?_)
    show p.id ∈ _ ↔ _
    constructor
    · intro out
      obtain ⟨x, hx, same⟩ := List.mem_map.mp out
      obtain ⟨mem, group⟩ := List.mem_filter.mp hx
      obtain rfl := ok.pending.eq_of_key mem hp same
      exact of_decide_eq_true group
    · intro group
      exact List.mem_map_of_mem (List.mem_filter.mpr ⟨hp, decide_eq_true group⟩)
  · rcases List.mem_append.mp hid with new | old
    · obtain ⟨p, hp, rfl⟩ := List.mem_map.mp new
      obtain ⟨mem, group⟩ := List.mem_filter.mp hp
      obtain ⟨f, hf, id, its, -⟩ := ok.stored p mem
      refine ⟨f, hf, id, ?_⟩
      rw [its]
      exact List.mem_cons.mpr (.inl (of_decide_eq_true group))
    · obtain ⟨f, hf, same, gone⟩ := m.withdrawn id old
      exact ⟨f, hf, same, List.mem_cons_of_mem _ gone⟩

/-- The share of the lease that each row of a full batch has. -/
def rowSecs : Nat := LEASE_SECS / BATCH

/-- Claiming takes a worker less than a row's share, and so does each row. -/
def Brisk (s : Outbox) : Action → Prop
  | .pass seconds => ∀ d ∈ s.drains, s.clock + seconds < d.since + rowSecs
  | .claim _ began _ => s.clock < began + rowSecs
  | _ => True

/-- A worker whose dispatch succeeded also deletes the row. -/
def Steady (s : Outbox) : Action → Prop
  | .record worker _ connected =>
    ∀ d ∈ s.drains, d.worker = worker → d.verdict = some .handled → connected = true
  | .crash worker => ∀ d ∈ s.drains, d.worker = worker → d.verdict ≠ some .handled
  | _ => True

instance decidableBrisk (s : Outbox) : ∀ a, Decidable (Brisk s a)
  | .pass seconds =>
    inferInstanceAs (Decidable (∀ d ∈ s.drains, s.clock + seconds < d.since + rowSecs))
  | .claim _ began _ => inferInstanceAs (Decidable (s.clock < began + rowSecs))
  | .createGroup _ | .deleteGroup _ | .upsertWebhook _ _ _ | .deleteWebhook _ _ | .fire _ _ _ _
  | .dispatch _ _ _ | .record _ _ _ | .crash _ => inferInstanceAs (Decidable True)

instance decidableSteady (s : Outbox) : ∀ a, Decidable (Steady s a)
  | .record worker _ connected => inferInstanceAs (Decidable
      (∀ d ∈ s.drains, d.worker = worker → d.verdict = some .handled → connected = true))
  | .crash worker => inferInstanceAs (Decidable
      (∀ d ∈ s.drains, d.worker = worker → d.verdict ≠ some .handled))
  | .createGroup _ | .deleteGroup _ | .upsertWebhook _ _ _ | .deleteWebhook _ _ | .fire _ _ _ _
  | .pass _ | .claim _ _ _ | .dispatch _ _ _ => inferInstanceAs (Decidable True)

/-- Every worker still has its share of the lease for each row in its hands. -/
def Paced (s : Outbox) : Prop :=
  ∀ d ∈ s.drains, d.rows ≠ [] ∧ s.clock < d.since + rowSecs ∧
    d.since + rowSecs * d.rows.length ≤ d.leasedUntil

private theorem paced_setDrain (paced : Paced s) (worker : Nat) {d : Option Drain}
    (new : ∀ x ∈ d, x.rows ≠ [] ∧ s.clock < x.since + rowSecs ∧
      x.since + rowSecs * x.rows.length ≤ x.leasedUntil) :
    ∀ x ∈ s.setDrain worker d, x.rows ≠ [] ∧ s.clock < x.since + rowSecs ∧
      x.since + rowSecs * x.rows.length ≤ x.leasedUntil := by
  intro x hx
  rcases mem_setDrain.mp hx with ⟨old, -⟩ | own
  · exact paced x old
  · exact new x own

private theorem paced_step {a : Action} (paced : Paced s) (brisk : Brisk s a)
    (h : step db a s = .ok s') : Paced s' := by
  cases a with
  | createGroup groupId =>
    obtain rfl := Except.ok.inj h
    exact paced
  | deleteGroup groupId =>
    obtain rfl := Except.ok.inj h
    exact paced
  | upsertWebhook groupId role body =>
    obtain ⟨webhooks, -, rfl⟩ := upsertWebhook_ok h
    exact paced
  | deleteWebhook groupId role =>
    obtain ⟨webhooks, -, rfl⟩ := deleteWebhook_ok h
    exact paced
  | fire id groupId event began =>
    obtain ⟨-, -, -, rfl⟩ := fire_ok h
    exact paced
  | pass seconds =>
    obtain rfl := Except.ok.inj h
    exact fun d hd => ⟨(paced d hd).1, brisk d hd, (paced d hd).2.2⟩
  | claim worker began skipped =>
    obtain ⟨rows, -, -, few, -, -, rfl⟩ := claim_ok h
    refine paced_setDrain paced worker fun x hx => ?_
    obtain ⟨nonempty, rfl⟩ := turn_eq_some.mp hx
    have share : rowSecs * (rows.map PendingWebhook.row).length ≤ rowSecs * BATCH :=
      Nat.mul_le_mul_left _ (by simpa using few)
    have whole : rowSecs * BATCH = LEASE_SECS := rfl
    refine ⟨nonempty, brisk, ?_⟩
    show began + rowSecs * (rows.map PendingWebhook.row).length ≤ began + LEASE_SECS
    omega
  | dispatch worker connected success =>
    obtain ⟨d, row, rest, hd, -, -, -, rfl⟩ := dispatch_ok h
    refine paced_setDrain paced worker fun x hx => ?_
    obtain rfl := Option.some.inj hx
    exact paced d hd
  | record worker began connected =>
    obtain ⟨d, row, rest, v, hd, -, rows, -, -, done⟩ := record_ok h
    obtain ⟨-, soon, share⟩ := paced d hd
    rw [rows, List.length_cons, Nat.mul_succ] at share
    have turned := paced_setDrain paced worker
      (d := Drain.turn worker rest d.leasedUntil s.clock) fun x hx => by
        obtain ⟨nonempty, rfl⟩ := turn_eq_some.mp hx
        have positive : 0 < rowSecs := by decide
        refine ⟨nonempty, ?_, ?_⟩
        · show s.clock < s.clock + rowSecs
          omega
        · show s.clock + rowSecs * rest.length ≤ d.leasedUntil
          omega
    rcases done with ⟨-, rfl⟩ | ⟨-, -, rfl⟩ | ⟨-, -, rfl⟩
    · exact turned
    · exact turned
    · exact paced_setDrain paced worker (by simp)
  | crash worker =>
    obtain rfl := Except.ok.inj h
    exact paced_setDrain paced worker (by simp)

private theorem Holds.expires {d : Drain} {h : Hold Uuid} (held : Holds d h) :
    h.expires = d.leasedUntil := by
  cases held <;> rfl

private theorem Holds.verdict {d : Drain} {h : Hold Uuid} (held : Holds d h) :
    h.verdict = d.verdict ∨ h.verdict = none := by
  cases held with
  | current => exact .inl rfl
  | waiting => exact .inr rfl

private theorem careful_quit (m : Mirrors s q) {worker : Nat}
    (idle : ∀ d ∈ s.drains, d.worker = worker → d.verdict ≠ some .handled) :
    Careful q (.quit worker) := by
  intro h hh own
  obtain ⟨d, hd, held⟩ := (m.holds h).mp hh
  rcases held.verdict with same | none
  · rw [same]
    exact idle d hd (held.worker.symm.trans own)
  · simp [none]

/-- The queue never does more than the table, and keeps to its leases when the workers do. -/
private theorem mirrors_step {a : Action} (m : Mirrors s q) (ok : Sound s)
    (h : step db a s = .ok s') : ∃ qs, Mirrors s' (run (Base.Leases.step policy) q qs) ∧
      (Paced s → Brisk s a → Steady s a →
        Meets (Base.Leases.step policy) (fun q a => Timely policy q a ∧ Careful q a) q qs) := by
  have one (b : Base.Leases.Action Uuid) {q' : Queue Uuid}
      (hb : Base.Leases.step policy b q = .ok q') (m' : Mirrors s' q')
      (keeps : Paced s → Brisk s a → Steady s a → Timely policy q b ∧ Careful q b) :
      ∃ qs, Mirrors s' (run (Base.Leases.step policy) q qs) ∧
        (Paced s → Brisk s a → Steady s a →
          Meets (Base.Leases.step policy) (fun q a => Timely policy q a ∧ Careful q a) q qs) := by
    refine ⟨[b], ?_, fun paced brisk steady => ⟨keeps paced brisk steady, trivial⟩⟩
    rw [run_cons, run_nil, exec_of_ok hb]
    exact m'
  have nothing (m' : Mirrors s' q) : ∃ qs, Mirrors s' (run (Base.Leases.step policy) q qs) ∧
      (Paced s → Brisk s a → Steady s a →
        Meets (Base.Leases.step policy) (fun q a => Timely policy q a ∧ Careful q a) q qs) :=
    ⟨[], m', fun _ _ _ => trivial⟩
  cases a with
  | createGroup groupId =>
    obtain rfl := Except.ok.inj h
    exact nothing { m with }
  | deleteGroup groupId =>
    obtain rfl := Except.ok.inj h
    exact one (.withdraw _) rfl (mirrors_deleteGroup m ok groupId) fun _ _ _ => ⟨trivial, trivial⟩
  | upsertWebhook groupId role body =>
    obtain ⟨webhooks, -, rfl⟩ := upsertWebhook_ok h
    exact nothing { m with }
  | deleteWebhook groupId role =>
    obtain ⟨webhooks, -, rfl⟩ := deleteWebhook_ok h
    exact nothing { m with }
  | fire id groupId event began =>
    obtain ⟨hb, m'⟩ := mirrors_fire m h
    exact one _ hb m' fun _ _ _ => ⟨trivial, trivial⟩
  | pass seconds =>
    obtain rfl := Except.ok.inj h
    have later : Mirrors { s with clock := s.clock + seconds } { q with now := q.now + seconds } :=
      ⟨m.jobs, congrArg (· + seconds) m.now, m.ever, m.history, m.holds, m.withdrawn⟩
    refine one (.wait seconds) rfl later
      fun paced brisk _ => ⟨fun x hx => ?_, trivial⟩
    obtain ⟨d, hd, held⟩ := (m.holds x).mp hx
    obtain ⟨rows, -, share⟩ := paced d hd
    have first : rowSecs * 1 ≤ rowSecs * d.rows.length :=
      Nat.mul_le_mul_left _ (List.length_pos_iff.mpr rows)
    have soon := brisk d hd
    rw [held.expires, m.now]
    omega
  | claim worker began skipped =>
    obtain ⟨picked, hb, m'⟩ := mirrors_claim m ok h
    refine one _ hb m' fun _ brisk _ => ⟨?_, trivial⟩
    have share : rowSecs ≤ LEASE_SECS := by decide
    have soon : s.clock < began + rowSecs := brisk
    show q.now < began + LEASE_SECS
    rw [m.now]
    omega
  | dispatch worker connected success =>
    obtain ⟨x, v, hb, m'⟩ := mirrors_dispatch m ok h
    exact one _ hb m' fun _ _ _ => ⟨trivial, trivial⟩
  | record worker began connected =>
    obtain ⟨d, hd, row, rest, v, own, rows, told, b, q', hb, m', which⟩ := mirrors_record m ok h
    refine one _ hb m' fun _ _ steady => ?_
    rcases which with ⟨-, rfl⟩ | ⟨-, unread, rfl⟩ | ⟨off, rfl⟩
    · exact ⟨trivial, trivial⟩
    · refine ⟨trivial, ?_⟩
      show d.verdict ≠ some .handled
      simp [told, unread]
    · refine ⟨trivial, careful_quit m fun x hx hw handled => ?_⟩
      have on := steady x hx hw handled
      rw [off] at on
      cases on
  | crash worker =>
    obtain rfl := Except.ok.inj h
    exact one (.quit worker) rfl (mirrors_crash m worker) fun _ _ steady => ⟨trivial, careful_quit m steady⟩

/-- The event is still in the table, and will be due. -/
def Waiting (s : Outbox) (f : Fired) : Prop :=
  ∃ p ∈ s.pending, p.id = f.id ∧ p.groupId = f.groupId ∧
    WebhookEvent.fromValue p.payload = some f.event ∧ p.attempts < MAX_ATTEMPTS ∧
    p.nextAttemptAt ≤ s.clock + LEASE_SECS

/-- A fired event waits in the table, due before the longest lease is over, or it has been
dispatched, its group has been deleted, or its dispatch has failed as often as it may. -/
theorem nothing_lost (db : Database) (clock : Nat) (as : List Action) :
    ∀ f ∈ (run (step db) (empty clock) as).fired,
      Waiting (run (step db) (empty clock) as) f ∨
      (f.id, .handled) ∈ (run (step db) (empty clock) as).outcomes ∨
      f.groupId ∈ (run (step db) (empty clock) as).deleted ∨
      MAX_ATTEMPTS ≤ (run (step db) (empty clock) as).outcomes.count (f.id, .failed) := by
  intro f hf
  obtain ⟨qs, -, m, ok⟩ := run_simulates (D := fun _ _ => True)
    (R := fun s q => Mirrors s q ∧ Sound s) (C := fun _ _ => True) (fun s q a s' both _ h => by
      obtain ⟨qs, m', -⟩ := mirrors_step both.1 both.2 h
      exact ⟨qs, meets_of_always (fun _ _ => trivial) _ _, m', sound_step both.2 h⟩)
    ⟨mirrors_empty clock, sound_empty clock⟩ (meets_of_always (fun _ _ => trivial) _ as)
  have known : f.id ∈ (run (Base.Leases.step policy) (Base.Leases.empty clock) qs).ever := by
    rw [m.ever]
    exact List.mem_map_of_mem hf
  cases accounted_run (ok_empty clock) qs known with
  | queued j mem same tries due =>
    rw [m.jobs] at mem
    obtain ⟨p, hp, rfl⟩ := List.mem_map.mp mem
    obtain ⟨g, hg, id, group, read⟩ := ok.stored p hp
    obtain rfl := ok.fired.eq_of_key hg hf (id.trans same)
    rw [m.now] at due
    exact .inl ⟨p, hp, same, group.symm, read, tries, due⟩
  | handled told => exact .inr (.inl (m.history ▸ told))
  | unreadable told =>
    rw [m.history] at told
    exact absurd rfl (ok.readable _ told)
  | withdrawn gone =>
    obtain ⟨g, hg, id, deleted⟩ := m.withdrawn f.id gone
    obtain rfl := ok.fired.eq_of_key hg hf id
    exact .inr (.inr (.inl deleted))
  | givenUp often =>
    unfold Queue.failures at often
    rw [m.history] at often
    exact .inr (.inr (.inr often))

private theorem successes_handle (s : Outbox) (row : Row) (connected success : Bool) (id : Uuid) :
    (s.handle row connected success).2.countP (fun p => decide (p.id = id) && p.success) ≤
      if (row.id, (s.handle row connected success).1) = (id, .handled) then 1 else 0 := by
  unfold handle
  cases WebhookEvent.fromValue row.payload with
  | none => simp
  | some event =>
    simp only [dispatchWebhook]
    split
    · cases fetchRow s.webhooks row.groupId with
      | none => simp
      | some config =>
        simp only
        split
        · cases success <;> simp [List.countP_cons]
        · simp
    · simp

/-- The requests for this event for which `send` has returned a success. -/
def successes (s : Outbox) (id : Uuid) : Nat :=
  s.posts.countP fun p => decide (p.id = id) && p.success

private theorem successes_step {a : Action} {id : Uuid} (h : step db a s = .ok s')
    (less : s.successes id ≤ s.outcomes.count (id, .handled)) :
    s'.successes id ≤ s'.outcomes.count (id, .handled) := by
  cases a with
  | createGroup groupId =>
    obtain rfl := Except.ok.inj h
    exact less
  | deleteGroup groupId =>
    obtain rfl := Except.ok.inj h
    exact less
  | upsertWebhook groupId role body =>
    obtain ⟨webhooks, -, rfl⟩ := upsertWebhook_ok h
    exact less
  | deleteWebhook groupId role =>
    obtain ⟨webhooks, -, rfl⟩ := deleteWebhook_ok h
    exact less
  | fire i groupId event began =>
    obtain ⟨-, -, -, rfl⟩ := fire_ok h
    exact less
  | pass seconds =>
    obtain rfl := Except.ok.inj h
    exact less
  | claim worker began skipped =>
    obtain ⟨rows, -, -, -, -, -, rfl⟩ := claim_ok h
    exact less
  | dispatch worker connected success =>
    obtain ⟨d, row, rest, -, -, -, -, rfl⟩ := dispatch_ok h
    have new := successes_handle s row connected success id
    unfold successes at less ⊢
    rw [List.countP_append, List.count_cons]
    simp only [beq_iff_eq]
    omega
  | record worker began connected =>
    obtain ⟨d, row, rest, v, -, -, -, -, -, done⟩ := record_ok h
    rcases done with ⟨-, rfl⟩ | ⟨-, -, rfl⟩ | ⟨-, -, rfl⟩
    · exact less
    · exact less
    · exact less
  | crash worker =>
    obtain rfl := Except.ok.inj h
    exact less

/-- Workers that keep to their share of the lease, and delete what was sent, never see one event
succeed twice, however many of them drain the table. Discord may have it twice where its answer was
lost. -/
theorem posted_once (db : Database) (clock : Nat) (as : List Action)
    (h : Meets (step db) (fun s a => Brisk s a ∧ Steady s a) (empty clock) as) (id : Uuid) :
    (run (step db) (empty clock) as).successes id ≤ 1 := by
  obtain ⟨qs, met, m, -⟩ := run_simulates (D := fun q a => Timely policy q a ∧ Careful q a)
    (R := fun s q => Mirrors s q ∧ Sound s ∧ Paced s) (fun s q a s' all cond h => by
      obtain ⟨m, ok, paced⟩ := all
      obtain ⟨qs, m', keeps⟩ := mirrors_step m ok h
      exact ⟨qs, keeps paced cond.1 cond.2, m', sound_step ok h, paced_step paced cond.1 h⟩)
    ⟨mirrors_empty clock, sound_empty clock, by simp [Paced, empty]⟩ h
  have once := once_run (ok_empty clock) (exclusive_empty clock) met id
  rw [m.history] at once
  refine Nat.le_trans ?_ once
  have none_yet : (empty clock).successes id ≤ (empty clock).outcomes.count (id, .handled) :=
    Nat.le_refl 0
  exact run_invariant (fun _ _ _ less h => successes_step h less) none_yet as

-- A delivery that succeeds at the second try, with two other workers about.
def insertionDb : Database where
  fields := .stored _
  due := .insertion _
  returning := .stored _

def retried : List Action := [
  .createGroup 1,
  .upsertWebhook 1 .owner ⟨"https://discord.com/api/webhooks/1/a", true, true, true, true⟩,
  .fire 7 1 (.listDelivered "Jita" "Ann") 0,
  .pass 30, .claim 1 30 [], .pass 10, .dispatch 1 true false, .record 1 40 true,
  .pass 30, .claim 2 70 [], .claim 3 70 [], .dispatch 2 true true, .record 2 70 true]

theorem posted_once_retried : (run (step insertionDb) (empty 0) retried).successes 7 = 1 :=
  Nat.le_antisymm (posted_once insertionDb 0 retried (by decide +kernel) 7) (by decide +kernel)

/-- The first worker dies after its request has succeeded, and before it deletes the row. -/
def forgotten : List Action := [
  .createGroup 1,
  .upsertWebhook 1 .owner ⟨"https://discord.com/api/webhooks/1/a", true, true, true, true⟩,
  .fire 7 1 (.listDelivered "Jita" "Ann") 0,
  .claim 1 0 [], .dispatch 1 true true, .crash 1, .pass 600, .claim 2 600 [],
  .dispatch 2 true true, .record 2 600 true]

example : (run (step insertionDb) (empty 0) forgotten).successes 7 = 2 := by decide +kernel

theorem nothing_lost_retried : (7, .handled) ∈ (run (step insertionDb) (empty 0) retried).outcomes ∧
    ¬Waiting (run (step insertionDb) (empty 0) retried) ⟨7, 1, .listDelivered "Jita" "Ann"⟩ := by
  have gone : (run (step insertionDb) (empty 0) retried).pending.map PendingWebhook.id = [] := by
    decide +kernel
  have lost : ¬Waiting (run (step insertionDb) (empty 0) retried)
      ⟨7, 1, .listDelivered "Jita" "Ann"⟩ := by
    rintro ⟨p, hp, -⟩
    rw [List.map_eq_nil_iff.mp gone] at hp
    cases hp
  have fired : ⟨7, 1, .listDelivered "Jita" "Ann"⟩ ∈
      (run (step insertionDb) (empty 0) retried).fired := by decide +kernel
  have whole : (run (step insertionDb) (empty 0) retried).deleted = [] ∧
      (run (step insertionDb) (empty 0) retried).outcomes.count (7, .failed) < MAX_ATTEMPTS := by
    decide +kernel
  rcases nothing_lost insertionDb 0 retried _ fired with waiting | handled | deleted | often
  · exact absurd waiting lost
  · exact ⟨handled, lost⟩
  · simp [whole.1] at deleted
  · exact absurd often (Nat.not_le.mpr whole.2)

end JitaCart.Webhooks.Outbox
