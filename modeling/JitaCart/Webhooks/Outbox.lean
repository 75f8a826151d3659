/- module: JitaCart/Webhooks/Outbox
   source: backend/crates/worker/src/jobs/pending_webhooks.rs, backend/crates/worker/src/main.rs,
     backend/crates/webhook-dispatch/src/lib.rs, backend/crates/api/src/webhooks.rs,
     backend/crates/worker/src/jobs/contracts_common.rs,
     backend/migrations/20260427000000_init.sql
   digest: The table of pending webhooks, the requests that fill it and the workers that drain it. -/

import JitaCart.Base.Leases
import JitaCart.Base.Select
import JitaCart.Webhooks.Events

/-!
Any number of worker processes drain the table, and each of them one batch at a time.
A worker may be gone after any statement. What Discord and the connection do is told
with the step. Times are in seconds, and `now()` is the time when a transaction began.
-/

set_option autoImplicit false
set_option relaxedAutoImplicit false

namespace JitaCart.Webhooks

open Base.Table Base.Request Base.Json Base.Select Schema
open Base.Leases (Verdict)

def BATCH : Nat := 50
def LEASE_SECS : Nat := 600
def MAX_ATTEMPTS : Nat := 8

def backoff (attempts : Nat) : Nat := min (2 ^ attempts) 3600

structure PendingWebhook where
  id : Uuid
  groupId : Uuid
  payload : Value
  attempts : Nat
  nextAttemptAt : Nat

structure Row where
  id : Uuid
  groupId : Uuid
  payload : Value
  attempts : Nat

def PendingWebhook.row (p : PendingWebhook) : Row := ⟨p.id, p.groupId, p.payload, p.attempts⟩

/-- A batch in the hands of a worker. The first row is the current one, and `verdict` is what came
of its dispatch. `since` is when the worker turned to it. -/
structure Drain where
  worker : Nat
  rows : List Row
  verdict : Option Verdict
  leasedUntil : Nat
  since : Nat

/-- The worker turns to the first of these rows, or has nothing left to do. -/
def Drain.turn (worker : Nat) (rows : List Row) (leasedUntil since : Nat) : Option Drain :=
  match rows with
  | [] => none
  | _ => some ⟨worker, rows, none, leasedUntil, since⟩

/-- An event that a request has put into the table. -/
structure Fired where
  id : Uuid
  groupId : Uuid
  event : WebhookEvent
  deriving DecidableEq

/-- A request to Discord, and whether `send` returned a success. A 2xx that is lost on the way back
is none, so its event is tried again. -/
structure Post where
  id : Uuid
  groupId : Uuid
  url : String
  payload : Value
  success : Bool

/-- `deleted`, `fired`, `posts` and `outcomes` are the history. -/
structure Outbox where
  groups : List Uuid
  webhooks : List WebhookRow
  pending : List PendingWebhook
  drains : List Drain
  clock : Nat
  deleted : List Uuid
  fired : List Fired
  posts : List Post
  outcomes : List (Uuid × Verdict)

def Outbox.empty (clock : Nat) : Outbox := ⟨[], [], [], [], clock, [], [], [], []⟩

inductive Action
  | createGroup (groupId : Uuid)
  | deleteGroup (groupId : Uuid)
  | upsertWebhook (groupId : Uuid) (role : GroupRole) (body : WebhookConfig)
  | deleteWebhook (groupId : Uuid) (role : GroupRole)
  | fire (id groupId : Uuid) (event : WebhookEvent) (began : Nat)
  | pass (seconds : Nat)
  | claim (worker began : Nat) (skipped : List Uuid)
  | dispatch (worker : Nat) (connected success : Bool)
  | record (worker began : Nat) (connected : Bool)
  | crash (worker : Nat)

/-- How `jsonb` keeps the fields of an object, and in which order an update returns its rows. -/
structure Database where
  fields : OrderBy fun (_ _ : String × Value) => True
  due : OrderBy fun (a b : PendingWebhook) => a.nextAttemptAt ≤ b.nextAttemptAt
  returning : OrderBy fun (_ _ : PendingWebhook) => True

namespace Outbox

def drain? (s : Outbox) (worker : Nat) : Option Drain := lookup Drain.worker worker s.drains

def setDrain (s : Outbox) (worker : Nat) (d : Option Drain) : List Drain :=
  replace Drain.worker worker d s.drains

variable (db : Database)

/-- `fire_webhook`, and the insert of `handle_contract_terminal`. The request commits later than it
began, and the group is still there. -/
def fire (s : Outbox) (id groupId : Uuid) (event : WebhookEvent) (began : Nat) :
    Except Unit Outbox := do
  require (groupId ∈ s.groups ∧ id ∉ s.fired.map Fired.id ∧ began ≤ s.clock) ()
  .ok { s with
    pending := s.pending ++ [⟨id, groupId, .object (db.fields.sort event.toObject), 0, began⟩]
    fired := ⟨id, groupId, event⟩ :: s.fired }

/-- The rows that are due and that no other transaction has locked. -/
def ready (s : Outbox) (began : Nat) (skipped : List Uuid) : List PendingWebhook :=
  s.pending.filter fun p => decide (p.nextAttemptAt ≤ began) && decide (p.id ∉ skipped)

/-- `FOR UPDATE SKIP LOCKED`, and the lease. -/
def claim (s : Outbox) (worker began : Nat) (skipped : List Uuid) : Except Unit Outbox := do
  require (s.drain? worker = none ∧ began ≤ s.clock) ()
  let rows := db.returning.sort (db.due.limit BATCH (s.ready began skipped))
  .ok { s with
    pending := updateWhere (fun p => decide (p.id ∈ rows.map PendingWebhook.id))
      (fun p => { p with nextAttemptAt := began + LEASE_SECS }) s.pending
    drains := s.setDrain worker
      (Drain.turn worker (rows.map PendingWebhook.row) (began + LEASE_SECS) began) }

/-- `dispatch_webhook`: `connected` tells whether the configuration could be read, and `success`
what became of the request to Discord. -/
def dispatchWebhook (s : Outbox) (row : Row) (event : WebhookEvent) (connected success : Bool) :
    Verdict × List Post :=
  if connected then
    match fetchRow s.webhooks row.groupId with
    | none => (.handled, [])
    | some config =>
      if event.isEnabled config then
        (if success then .handled else .failed,
          [⟨row.id, row.groupId, config.webhookUrl, buildPayload event, success⟩])
      else (.handled, [])
  else (.failed, [])

/-- The payload is parsed, and dispatched when it is an event. -/
def handle (s : Outbox) (row : Row) (connected success : Bool) : Verdict × List Post :=
  match WebhookEvent.fromValue row.payload with
  | none => (.unreadable, [])
  | some event => s.dispatchWebhook row event connected success

def dispatch (s : Outbox) (worker : Nat) (connected success : Bool) : Except Unit Outbox := do
  let d ← fetch () (s.drain? worker)
  let row ← fetch () d.rows.head?
  require (d.verdict = none) ()
  let (verdict, posts) := s.handle row connected success
  .ok { s with
    drains := s.setDrain worker (some { d with verdict := some verdict })
    posts := posts ++ s.posts
    outcomes := (row.id, verdict) :: s.outcomes }

def written (s : Outbox) (row : Row) (began : Nat) : Verdict → List PendingWebhook
  | .failed =>
    if MAX_ATTEMPTS ≤ row.attempts + 1 then s.pending.filter fun p => decide (p.id ≠ row.id)
    else updateWhere (fun p => decide (p.id = row.id))
      (fun p => { p with
        attempts := row.attempts + 1
        nextAttemptAt := began + backoff (row.attempts + 1) }) s.pending
  | _ => s.pending.filter fun p => decide (p.id ≠ row.id)

/-- A statement that fails ends the batch, unless it was to drop a malformed row. -/
def record (s : Outbox) (worker began : Nat) (connected : Bool) : Except Unit Outbox := do
  let d ← fetch () (s.drain? worker)
  let row ← fetch () d.rows.head?
  let verdict ← fetch () d.verdict
  require (began ≤ s.clock) ()
  if connected then
    .ok { s with
      pending := s.written row began verdict
      drains := s.setDrain worker (Drain.turn worker d.rows.tail d.leasedUntil s.clock) }
  else if verdict = .unreadable then
    .ok { s with
      drains := s.setDrain worker (Drain.turn worker d.rows.tail d.leasedUntil s.clock) }
  else .ok { s with drains := s.setDrain worker none }

/-- The group goes with its configuration and its pending webhooks. -/
def deleteGroup (s : Outbox) (groupId : Uuid) : Outbox :=
  { s with
    groups := s.groups.filter fun g => decide (g ≠ groupId)
    webhooks := replace WebhookRow.groupId groupId none s.webhooks
    pending := s.pending.filter fun p => decide (p.groupId ≠ groupId)
    deleted := groupId :: s.deleted }

def upsertWebhook (s : Outbox) (groupId : Uuid) (role : GroupRole) (body : WebhookConfig) :
    Except Unit Outbox := do
  require (groupId ∈ s.groups) ()
  let webhooks ← (doUpsertWebhook s.webhooks groupId role body).mapError fun _ => ()
  .ok { s with webhooks }

def deleteWebhook (s : Outbox) (groupId : Uuid) (role : GroupRole) : Except Unit Outbox := do
  let webhooks ← (doDeleteWebhook s.webhooks groupId role).mapError fun _ => ()
  .ok { s with webhooks }

def step : Action → Outbox → Except Unit Outbox
  | .createGroup groupId, s => .ok { s with groups := groupId :: s.groups }
  | .deleteGroup groupId, s => .ok (s.deleteGroup groupId)
  | .upsertWebhook groupId role body, s => s.upsertWebhook groupId role body
  | .deleteWebhook groupId role, s => s.deleteWebhook groupId role
  | .fire id groupId event began, s => s.fire db id groupId event began
  | .pass seconds, s => .ok { s with clock := s.clock + seconds }
  | .claim worker began skipped, s => s.claim db worker began skipped
  | .dispatch worker connected success, s => s.dispatch worker connected success
  | .record worker began connected, s => s.record worker began connected
  | .crash worker, s => .ok { s with drains := s.setDrain worker none }

variable {db : Database} {s s' : Outbox}

theorem mem_setDrain {worker : Nat} {d : Option Drain} {x : Drain} :
    x ∈ s.setDrain worker d ↔ (x ∈ s.drains ∧ x.worker ≠ worker) ∨ d = some x :=
  mem_replace

theorem turn_eq_some {worker leasedUntil since : Nat} {rows : List Row} {d : Drain} :
    Drain.turn worker rows leasedUntil since = some d ↔
      rows ≠ [] ∧ ⟨worker, rows, none, leasedUntil, since⟩ = d := by
  cases rows <;> simp [Drain.turn]

theorem fire_ok {id groupId : Uuid} {event : WebhookEvent} {began : Nat}
    (h : s.fire db id groupId event began = .ok s') :
    groupId ∈ s.groups ∧ id ∉ s.fired.map Fired.id ∧ began ≤ s.clock ∧
      s' = { s with
        pending := s.pending ++ [⟨id, groupId, .object (db.fields.sort event.toObject), 0, began⟩]
        fired := ⟨id, groupId, event⟩ :: s.fired } := by
  simp only [fire, bind_eq_ok, require_eq_ok, Except.ok.injEq] at h
  obtain ⟨-, ⟨there, fresh, past⟩, rfl⟩ := h
  exact ⟨there, fresh, past, rfl⟩

/-- The rows of a claim are due rows of the table, at most a batch of them. -/
theorem claim_ok {worker began : Nat} {skipped : List Uuid}
    (h : s.claim db worker began skipped = .ok s') :
    ∃ rows : List PendingWebhook, s.drain? worker = none ∧ began ≤ s.clock ∧
      rows.length ≤ BATCH ∧ (s.pending.Nodup → rows.Nodup) ∧
      (∀ p ∈ rows, p ∈ s.pending ∧ p.nextAttemptAt ≤ began) ∧
      s' = { s with
        pending := updateWhere (fun p => decide (p.id ∈ rows.map PendingWebhook.id))
          (fun p => { p with nextAttemptAt := began + LEASE_SECS }) s.pending
        drains := s.setDrain worker
          (Drain.turn worker (rows.map PendingWebhook.row) (began + LEASE_SECS) began) } := by
  simp only [claim, bind_eq_ok, require_eq_ok, Except.ok.injEq] at h
  obtain ⟨-, ⟨idle, past⟩, rfl⟩ := h
  have same := db.returning.perm (db.due.limit BATCH (s.ready began skipped))
  refine ⟨_, idle, past, ?_, fun nodup => ?_, fun p hp => ?_, rfl⟩
  · rw [same.length_eq, length_limit]
    exact Nat.min_le_left _ _
  · exact same.nodup_iff.mpr (nodup_limit _ (nodup.filter _))
  · obtain ⟨mem, due⟩ := List.mem_filter.mp (mem_of_mem_limit _ (same.mem_iff.mp hp))
    simp only [Bool.and_eq_true, decide_eq_true_eq] at due
    exact ⟨mem, due.1⟩

theorem dispatch_ok {worker : Nat} {connected success : Bool}
    (h : s.dispatch worker connected success = .ok s') :
    ∃ d row rest, d ∈ s.drains ∧ d.worker = worker ∧ d.rows = row :: rest ∧ d.verdict = none ∧
      s' = { s with
        drains := s.setDrain worker
          (some { d with verdict := some (s.handle row connected success).1 })
        posts := (s.handle row connected success).2 ++ s.posts
        outcomes := (row.id, (s.handle row connected success).1) :: s.outcomes } := by
  simp only [dispatch, bind_eq_ok, fetch_eq_ok, require_eq_ok, Except.ok.injEq] at h
  obtain ⟨d, found, row, head, -, waiting, rfl⟩ := h
  obtain ⟨mem, own⟩ := lookup_mem found
  obtain ⟨rest, rows⟩ := List.head?_eq_some_iff.mp head
  exact ⟨d, row, rest, mem, own, rows, waiting, rfl⟩

theorem record_ok {worker began : Nat} {connected : Bool}
    (h : s.record worker began connected = .ok s') :
    ∃ d row rest verdict, d ∈ s.drains ∧ d.worker = worker ∧ d.rows = row :: rest ∧
      d.verdict = some verdict ∧ began ≤ s.clock ∧
      ((connected = true ∧ s' = { s with
          pending := s.written row began verdict
          drains := s.setDrain worker (Drain.turn worker rest d.leasedUntil s.clock) }) ∨
        (connected = false ∧ verdict = .unreadable ∧ s' = { s with
          drains := s.setDrain worker (Drain.turn worker rest d.leasedUntil s.clock) }) ∨
        (connected = false ∧ verdict ≠ .unreadable ∧
          s' = { s with drains := s.setDrain worker none })) := by
  simp only [record, bind_eq_ok, fetch_eq_ok, require_eq_ok] at h
  obtain ⟨d, found, row, head, verdict, told, -, past, h⟩ := h
  obtain ⟨mem, own⟩ := lookup_mem found
  obtain ⟨rest, rows⟩ := List.head?_eq_some_iff.mp head
  refine ⟨d, row, rest, verdict, mem, own, rows, told, past, ?_⟩
  have tail : d.rows.tail = rest := by rw [rows, List.tail_cons]
  rw [tail] at h
  split at h
  · exact .inl ⟨‹_›, (Except.ok.inj h).symm⟩
  · split at h
    · exact .inr (.inl ⟨by simpa using ‹¬connected = true›, ‹_›, (Except.ok.inj h).symm⟩)
    · exact .inr (.inr ⟨by simpa using ‹¬connected = true›, ‹_›, (Except.ok.inj h).symm⟩)

theorem upsertWebhook_ok {groupId : Uuid} {role : GroupRole} {body : WebhookConfig}
    (h : s.upsertWebhook groupId role body = .ok s') :
    ∃ webhooks, doUpsertWebhook s.webhooks groupId role body = .ok webhooks ∧
      s' = { s with webhooks } := by
  simp only [upsertWebhook, bind_eq_ok, require_eq_ok, mapError_eq_ok, Except.ok.injEq] at h
  obtain ⟨-, -, webhooks, new, rfl⟩ := h
  exact ⟨webhooks, new, rfl⟩

theorem deleteWebhook_ok {groupId : Uuid} {role : GroupRole}
    (h : s.deleteWebhook groupId role = .ok s') :
    ∃ webhooks, doDeleteWebhook s.webhooks groupId role = .ok webhooks ∧
      s' = { s with webhooks } := by
  simp only [deleteWebhook, bind_eq_ok, mapError_eq_ok, Except.ok.injEq] at h
  obtain ⟨webhooks, new, rfl⟩ := h
  exact ⟨webhooks, new, rfl⟩

end Outbox

end JitaCart.Webhooks
