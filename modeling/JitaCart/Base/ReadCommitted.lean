/- module: JitaCart/Base/ReadCommitted
   source: none (library)
   digest: Transactions of statements under read committed isolation with row locks. -/

import JitaCart.Base.Request
import JitaCart.Base.Table

/-!
A statement starts on a snapshot of what is committed and of what its own
transaction wrote. The snapshot decides which rows it locks; it takes them one
at a time, waits while another transaction holds one, and then runs on the
current versions. Writes are kept in the transaction's log until it commits.
-/

set_option autoImplicit false
set_option relaxedAutoImplicit false

namespace JitaCart.Base.ReadCommitted

open Request Table

/-- What a statement runs on: the snapshot it started with, and the rows that it locked. -/
structure Statement (S R : Type) where
  snapshot : S
  planned : List R

/-- A transaction: each statement locks rows of its snapshot, writes, and decides how to go on.
One that has failed can only be rolled back. -/
inductive Prog (S W R α : Type)
  | done (a : α)
  | fail
  | stmt (wants : S → List R) (writes : Statement S R → S → List W)
      (next : Statement S R → S → Prog S W R α)

namespace Prog

variable {S W R α β : Type}

def bind : Prog S W R α → (α → Prog S W R β) → Prog S W R β
  | .done a, k => k a
  | .fail, _ => .fail
  | .stmt wants writes next, k => .stmt wants writes fun st s => (next st s).bind k

instance : Monad (Prog S W R) where
  pure := .done
  bind := bind

/-- One statement. `act` sees the statement and the current versions of the rows. -/
def statement (wants : S → List R) (act : Statement S R → S → Option (List W × α)) :
    Prog S W R α :=
  .stmt wants (fun st s => ((act st s).map (·.1)).getD []) fun st s =>
    match act st s with
    | some (_, a) => .done a
    | none => .fail

/-- A query without a locking clause sees its snapshot. -/
def select {ε : Type} (query : S → Except ε α) : Prog S W R α :=
  statement (fun _ => []) fun st _ => (query st.snapshot).toOption.map fun a => ([], a)

/-- Leaves in the log what the transaction relies on from here on; it reads and locks nothing. -/
def note (w : W) : Prog S W R Unit :=
  statement (fun _ => []) fun _ _ => some ([w], ())

/-- What the handler decides between two statements. -/
def check {ε : Type} : Except ε α → Prog S W R α
  | .ok a => .done a
  | .error _ => .fail

/-- The rows that the next statement locks, if there is one. -/
def plan : Prog S W R α → S → Option (List R)
  | .stmt wants _ _, s => some (wants s)
  | _, _ => none

/-- What the next statement writes, and what is left to do then. -/
def go : Prog S W R α → Statement S R → S → Option (List W × Prog S W R α)
  | .stmt _ writes next, st, s => some (writes st s, next st s)
  | _, _, _ => none

def finished : Prog S W R α → Bool
  | .done _ => true
  | _ => false

/-- Every write of the program is one of these. -/
def Emits (P : W → Prop) : Prog S W R α → Prop
  | .stmt _ writes next => ∀ st s, (∀ w ∈ writes st s, P w) ∧ Emits P (next st s)
  | _ => True

variable {P : W → Prop}

theorem emits_bind {p : Prog S W R α} {k : α → Prog S W R β} (first : p.Emits P)
    (rest : ∀ a, (k a).Emits P) : (p >>= k).Emits P := by
  induction p with
  | done a => exact rest a
  | fail => trivial
  | stmt wants writes next ih => exact fun st s => ⟨(first st s).1, ih st s (first st s).2⟩

theorem emits_statement {wants : S → List R}
    {act : Statement S R → S → Option (List W × α)}
    (h : ∀ st s ws a, act st s = some (ws, a) → ∀ w ∈ ws, P w) :
    (statement wants act).Emits P := by
  intro st s
  simp only
  cases hact : act st s with
  | none => exact ⟨by simp, trivial⟩
  | some x => exact ⟨h st s x.1 x.2 hact, trivial⟩

theorem emits_select {ε : Type} (query : S → Except ε α) :
    (select query : Prog S W R α).Emits P := by
  refine emits_statement fun st s ws a h => ?_
  obtain ⟨_, -, h⟩ := Option.map_eq_some_iff.mp h
  obtain ⟨rfl, -⟩ := Prod.mk.inj h
  simp

theorem emits_check {ε : Type} (x : Except ε α) : (check x : Prog S W R α).Emits P := by
  cases x <;> trivial

theorem emits_pure (a : α) : (pure a : Prog S W R α).Emits P := trivial

theorem emits_forM {body : α → Prog S W R PUnit} (h : ∀ a, (body a).Emits P) (xs : List α) :
    (xs.forM body).Emits P := by
  induction xs with
  | nil => trivial
  | cons x xs ih => exact emits_bind (h x) fun _ => ih

theorem Emits.imp {P' : W → Prop} (imp : ∀ w, P w → P' w) {p : Prog S W R α} (h : p.Emits P) :
    p.Emits P' := by
  induction p with
  | done a => trivial
  | fail => trivial
  | stmt wants writes next ih =>
    exact fun st s => ⟨fun w hw => imp w ((h st s).1 w hw), ih st s (h st s).2⟩

end Prog

/-- A statement that has started, and the rows it does not hold yet. -/
structure Waiting (S R : Type) extends Statement S R where
  wanted : List R

structure Tx (S W R Q : Type) where
  id : Nat
  request : Q
  prog : Prog S W R Unit
  log : List W
  locks : List R
  waiting : Option (Waiting S R)

structure Store (S W R Q : Type) where
  committed : S
  active : List (Tx S W R Q)

structure Engine (S W R Q : Type) where
  redo : W → S → S
  program : Q → Prog S W R Unit

inductive Action (R Q : Type)
  | begin (id : Nat) (q : Q)
  | start (id : Nat)
  | acquire (id : Nat) (r : R)
  | exec (id : Nat)
  | commit (id : Nat)
  | abort (id : Nat)

/-- One statement from its start to its end, with the rows it takes on the way. -/
def Action.turn {R Q : Type} (id : Nat) (rows : List R) : List (Action R Q) :=
  .start id :: (rows.map (.acquire id) ++ [.exec id])

section System
variable {S W R Q : Type} (e : Engine S W R Q)

/-- What a transaction with this log sees. -/
def Engine.view (s : S) (log : List W) : S := log.foldl (fun s w => e.redo w s) s

def Store.tx? (w : Store S W R Q) (id : Nat) : Option (Tx S W R Q) := lookup Tx.id id w.active

def Store.put (w : Store S W R Q) (t : Tx S W R Q) : Store S W R Q :=
  { w with active := updateWhere (fun u => decide (u.id = t.id)) (fun _ => t) w.active }

def Store.remove (w : Store S W R Q) (id : Nat) : Store S W R Q :=
  { w with active := w.active.filter fun u => decide (u.id ≠ id) }

/-- The statement in progress takes its snapshot. -/
def Tx.started (t : Tx S W R Q) (snapshot : S) (plan : List R) : Tx S W R Q :=
  { t with waiting := some ⟨⟨snapshot, plan⟩, plan⟩ }

def Tx.advanced (t : Tx S W R Q) (ws : List W) (p : Prog S W R Unit) : Tx S W R Q :=
  { t with prog := p, log := t.log ++ ws, waiting := none }

theorem mem_put {w : Store S W R Q} {t u : Tx S W R Q} (h : u ∈ (w.put t).active) :
    u = t ∨ (u ∈ w.active ∧ u.id ≠ t.id) := by
  obtain ⟨x, hx, rfl⟩ := mem_updateWhere.mp h
  by_cases same : x.id = t.id
  · exact .inl (by simp [same])
  · simp only [same, decide_false, Bool.false_eq_true, if_false]
    exact .inr ⟨hx, same⟩

theorem mem_remove {w : Store S W R Q} {id : Nat} {u : Tx S W R Q} :
    u ∈ (w.remove id).active ↔ u ∈ w.active ∧ u.id ≠ id := by
  simp [Store.remove]

theorem keyed_put {w : Store S W R Q} {t : Tx S W R Q} (h : Keyed Tx.id w.active) :
    Keyed Tx.id (w.put t).active := by
  refine h.of_map_eq (map_updateWhere Tx.id w.active fun r _ hr => ?_)
  exact (of_decide_eq_true hr).symm

theorem keyed_remove {w : Store S W R Q} {id : Nat} (h : Keyed Tx.id w.active) :
    Keyed Tx.id (w.remove id).active :=
  h.filter _

theorem view_append (s : S) (log ws : List W) :
    e.view s (log ++ ws) = e.view (e.view s log) ws :=
  List.foldl_append

variable [DecidableEq R]

/-- No transaction other than `id` holds the row. -/
def Store.free (w : Store S W R Q) (id : Nat) (r : R) : Bool :=
  w.active.all fun u => decide (u.id = id) || decide (r ∉ u.locks)

def Tx.holding (t : Tx S W R Q) (p : Waiting S R) (r : R) : Tx S W R Q :=
  { t with
    locks := r :: t.locks
    waiting := some { p with wanted := p.wanted.erase r } }

def step : Action R Q → Store S W R Q → Except Unit (Store S W R Q)
  | .begin id q, w => do
    require (w.tx? id).isNone ()
    .ok { w with active := ⟨id, q, e.program q, [], [], none⟩ :: w.active }
  | .start id, w => do
    let t ← fetch () (w.tx? id)
    require t.waiting.isNone ()
    let plan ← fetch () (t.prog.plan (e.view w.committed t.log))
    .ok (w.put (t.started (e.view w.committed t.log) plan))
  | .acquire id r, w => do
    let t ← fetch () (w.tx? id)
    let p ← fetch () t.waiting
    require (r ∈ p.wanted ∧ w.free id r = true) ()
    .ok (w.put (t.holding p r))
  | .exec id, w => do
    let t ← fetch () (w.tx? id)
    let p ← fetch () t.waiting
    require (p.wanted = []) ()
    let (ws, prog) ← fetch () (t.prog.go p.toStatement (e.view w.committed t.log))
    .ok (w.put (t.advanced ws prog))
  | .commit id, w => do
    let t ← fetch () (w.tx? id)
    require (t.waiting.isNone ∧ t.prog.finished = true) ()
    .ok { w.remove id with committed := e.view w.committed t.log }
  | .abort id, w => .ok (w.remove id)

/-- The transaction waits for a row that the other one holds. -/
def Waits (t u : Tx S W R Q) : Prop :=
  t.id ≠ u.id ∧ ∃ p ∈ t.waiting, ∃ r ∈ p.wanted, r ∈ u.locks

variable {e}

theorem step_ok {a : Action R Q} {w w' : Store S W R Q} (h : step e a w = .ok w') :
    (∃ id q, a = .begin id q ∧ w.tx? id = none ∧
      w' = { w with active := ⟨id, q, e.program q, [], [], none⟩ :: w.active }) ∨
    (∃ t ∈ w.active, ∃ plan, a = .start t.id ∧ t.waiting = none ∧
      t.prog.plan (e.view w.committed t.log) = some plan ∧
      w' = w.put (t.started (e.view w.committed t.log) plan)) ∨
    (∃ t ∈ w.active, ∃ p r, a = .acquire t.id r ∧ t.waiting = some p ∧ r ∈ p.wanted ∧
      w.free t.id r = true ∧ w' = w.put (t.holding p r)) ∨
    (∃ t ∈ w.active, ∃ p ws prog, a = .exec t.id ∧ t.waiting = some p ∧ p.wanted = [] ∧
      t.prog.go p.toStatement (e.view w.committed t.log) = some (ws, prog) ∧
      w' = w.put (t.advanced ws prog)) ∨
    (∃ t ∈ w.active, a = .commit t.id ∧ t.waiting = none ∧ t.prog.finished = true ∧
      w' = { w.remove t.id with committed := e.view w.committed t.log }) ∨
    ∃ id, a = .abort id ∧ w' = w.remove id := by
  cases a with
  | begin id q =>
    simp only [step, bind_eq_ok, require_eq_ok, Except.ok.injEq] at h
    obtain ⟨-, new, rfl⟩ := h
    exact .inl ⟨id, q, rfl, by simpa using new, rfl⟩
  | start id =>
    simp only [step, bind_eq_ok, fetch_eq_ok, require_eq_ok, Except.ok.injEq] at h
    obtain ⟨t, ht, -, idle, plan, hplan, rfl⟩ := h
    obtain ⟨mem, rfl⟩ := lookup_mem ht
    exact .inr (.inl ⟨t, mem, plan, rfl, by simpa using idle, hplan, rfl⟩)
  | acquire id r =>
    simp only [step, bind_eq_ok, fetch_eq_ok, require_eq_ok, Except.ok.injEq] at h
    obtain ⟨t, ht, p, hp, -, ⟨wanted, free⟩, rfl⟩ := h
    obtain ⟨mem, rfl⟩ := lookup_mem ht
    exact .inr (.inr (.inl ⟨t, mem, p, r, rfl, hp, wanted, free, rfl⟩))
  | exec id =>
    simp only [step, bind_eq_ok, fetch_eq_ok, require_eq_ok] at h
    obtain ⟨t, ht, p, hp, -, ready, ⟨ws, prog⟩, hgo, h⟩ := h
    obtain ⟨mem, rfl⟩ := lookup_mem ht
    exact .inr (.inr (.inr (.inl
      ⟨t, mem, p, ws, prog, rfl, hp, ready, hgo, (Except.ok.inj h).symm⟩)))
  | commit id =>
    simp only [step, bind_eq_ok, fetch_eq_ok, require_eq_ok, Except.ok.injEq] at h
    obtain ⟨t, ht, -, ⟨idle, finished⟩, rfl⟩ := h
    obtain ⟨mem, rfl⟩ := lookup_mem ht
    exact .inr (.inr (.inr (.inr (.inl ⟨t, mem, rfl, by simpa using idle, finished, rfl⟩))))
  | abort id =>
    exact .inr (.inr (.inr (.inr (.inr ⟨id, rfl, (Except.ok.inj h).symm⟩))))

theorem not_held_of_free {w : Store S W R Q} {id : Nat} {r : R} (h : w.free id r = true)
    {u : Tx S W R Q} (hu : u ∈ w.active) (other : u.id ≠ id) : r ∉ u.locks := by
  have := List.all_eq_true.mp h u hu
  simpa [other] using this

end System

end JitaCart.Base.ReadCommitted
