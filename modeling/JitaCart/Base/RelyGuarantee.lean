/- module: JitaCart/Base/RelyGuarantee
   source: none (library)
   digest: Verifying transactions one at a time against what the others may commit. -/

import JitaCart.Base.ReadCommitted

/-!
A transaction is verified alone: between any two of its statements, and while a
statement waits, the committed state may change as `rely` allows for what it has
written and the rows it holds. What it has to give in return is `post`, from which
its commit keeps the rely of every transaction that holds other rows.
-/

set_option autoImplicit false
set_option relaxedAutoImplicit false

namespace JitaCart.Base.ReadCommitted

open Request Table

/-- Of a committed state, a log and the rows held. -/
abbrev Assertion (S W R : Type) := S → List W → List R → Prop

/-- `cond` is known of a statement when it runs, `ready` of a log when it is committed and `clear`
of that log and the log of each other transaction; `shape` has to hold of the rows that a
transaction holds and waits for. -/
structure Terms (S W R Q : Type) where
  good : S → Prop
  rely : List W → List R → S → S → Prop
  cond : Q → S → List W → Statement S R → Prop
  ready : S → List W → Prop
  clear : List W → List W → Prop
  shape : Q → S → List R → List R → Prop
  post : Q → Assertion S W R
  refl : ∀ log locks c, rely log locks c c
  trans : ∀ {log locks c c' c''}, rely log locks c c' → rely log locks c' c'' →
    rely log locks c c''
  mono : ∀ {log few many c c'}, (∀ r ∈ few, r ∈ many) → rely log many c c' → rely log few c c'
  shape_rely : ∀ {q log locks wanted c c'}, shape q c locks wanted → rely log locks c c' →
    shape q c' locks wanted
  shape_acquire : ∀ {q locks c r wanted rest}, shape q c locks wanted → r ∈ wanted →
    (∀ x ∈ rest, x ∈ wanted) → shape q c (r :: locks) rest
  post_rely : ∀ {q log locks c c'}, good c' → post q c log locks → rely log locks c c' →
    post q c' log locks

/-- Terms of a system that asks nothing of its runs and of the order of its locks. -/
def Terms.free {S W R Q : Type} (good : S → Prop) (rely : List R → S → S → Prop)
    (post : Q → Assertion S W R) (refl : ∀ locks c, rely locks c c)
    (trans : ∀ {locks c c' c''}, rely locks c c' → rely locks c' c'' → rely locks c c'')
    (mono : ∀ {few many c c'}, (∀ r ∈ few, r ∈ many) → rely many c c' → rely few c c')
    (post_rely : ∀ {q log locks c c'}, good c' → post q c log locks → rely locks c c' →
      post q c' log locks) : Terms S W R Q where
  good := good
  rely _ := rely
  cond _ _ _ _ := True
  ready _ _ := True
  clear _ _ := True
  shape _ _ _ _ := True
  post := post
  refl _ := refl
  trans := trans
  mono := mono
  shape_rely _ _ := trivial
  shape_acquire _ _ _ := trivial
  post_rely := post_rely

section Logic
variable {S W R Q α β : Type} (e : Engine S W R Q) (T : Terms S W R Q) (q : Q)

/-- A statement starts on `c₁` and runs on `c₂`. -/
structure Moment (wants : S → List R) (c : S) (log : List W) (locks : List R) (c₁ c₂ : S)
    (held : List R) : Prop where
  good₁ : T.good c₁
  good₂ : T.good c₂
  before : T.rely log locks c c₁
  during : T.rely log locks c₁ c₂
  held : ∀ r, r ∈ held ↔ r ∈ locks ∨ r ∈ wants (e.view c₁ log)
  cond : T.cond q c₂ log ⟨e.view c₁ log, wants (e.view c₁ log)⟩

/-- The transaction ends with `post`, whatever the others commit. -/
def Safe (post : α → Assertion S W R) : Prog S W R α → Assertion S W R
  | .done a => post a
  | .fail => fun _ _ _ => True
  | .stmt wants writes next => fun c log locks =>
    (∀ c₁, T.good c₁ → T.rely log locks c c₁ → T.shape q c₁ locks (wants (e.view c₁ log))) ∧
    ∀ c₁ c₂ held, Moment e T q wants c log locks c₁ c₂ held →
      Safe post (next ⟨e.view c₁ log, wants (e.view c₁ log)⟩ (e.view c₂ log)) c₂
        (log ++ writes ⟨e.view c₁ log, wants (e.view c₁ log)⟩ (e.view c₂ log)) held

def Triple (A : Assertion S W R) (p : Prog S W R α) (B : α → Assertion S W R) : Prop :=
  ∀ c log locks, T.good c → A c log locks → Safe e T q B p c log locks

/-- Others cannot make the assertion false. -/
structure Stable (A : Assertion S W R) : Prop where
  rely : ∀ {c c' log locks}, T.good c → T.good c' → A c log locks → T.rely log locks c c' →
    A c' log locks
  same : ∀ {c log locks held}, (∀ r, r ∈ held ↔ r ∈ locks) → A c log locks → A c log held

variable {e T q}

private theorem Safe.imp {B C : α → Assertion S W R} (imp : ∀ a c log locks, T.good c →
    B a c log locks → C a c log locks) {p : Prog S W R α} {c : S} {log : List W} {locks : List R}
    (good : T.good c) (h : Safe e T q B p c log locks) : Safe e T q C p c log locks := by
  induction p generalizing c log locks with
  | done a => exact imp a c log locks good h
  | fail => trivial
  | stmt wants writes next ih =>
    exact ⟨h.1, fun c₁ c₂ held m => ih _ _ m.good₂ (h.2 c₁ c₂ held m)⟩

private theorem Safe.bind {B : α → Assertion S W R} {C : β → Assertion S W R} {p : Prog S W R α}
    {k : α → Prog S W R β} (rest : ∀ a, Triple e T q (B a) (k a) C) {c : S} {log : List W}
    {locks : List R} (good : T.good c) (h : Safe e T q B p c log locks) :
    Safe e T q C (p >>= k) c log locks := by
  induction p generalizing c log locks with
  | done a => exact rest a c log locks good h
  | fail => trivial
  | stmt wants writes next ih =>
    exact ⟨h.1, fun c₁ c₂ held m => ih _ _ m.good₂ (h.2 c₁ c₂ held m)⟩

/-- A commit of another transaction is only one more change that was allowed for. -/
private theorem Safe.rely {p : Prog S W R Unit} {c c' : S} {log : List W} {locks : List R}
    (good : T.good c') (h : Safe e T q (fun _ => T.post q) p c log locks)
    (change : T.rely log locks c c') : Safe e T q (fun _ => T.post q) p c' log locks := by
  cases p with
  | done a => exact T.post_rely good h change
  | fail => trivial
  | stmt wants writes next =>
    refine ⟨fun c₁ good₁ before => h.1 c₁ good₁ (T.trans change before), fun c₁ c₂ held m => ?_⟩
    exact h.2 c₁ c₂ held { m with before := T.trans change m.before }

theorem Triple.bind {A : Assertion S W R} {B : α → Assertion S W R} {C : β → Assertion S W R}
    {p : Prog S W R α} {k : α → Prog S W R β} (first : Triple e T q A p B)
    (rest : ∀ a, Triple e T q (B a) (k a) C) : Triple e T q A (p >>= k) C :=
  fun c log locks good h => (first c log locks good h).bind rest good

theorem Triple.imp {A A' : Assertion S W R} {B B' : α → Assertion S W R} {p : Prog S W R α}
    (h : Triple e T q A p B)
    (before : ∀ c log locks, T.good c → A' c log locks → A c log locks)
    (after : ∀ a c log locks, T.good c → B a c log locks → B' a c log locks) :
    Triple e T q A' p B' :=
  fun c log locks good hA => (h c log locks good (before c log locks good hA)).imp after good

theorem triple_pure {A : Assertion S W R} {B : α → Assertion S W R} {a : α}
    (h : ∀ c log locks, T.good c → A c log locks → B a c log locks) :
    Triple e T q A (pure a) B :=
  fun c log locks good hA => h c log locks good hA

theorem triple_check {ε : Type} {A : Assertion S W R} {B : α → Assertion S W R}
    {x : Except ε α}
    (h : ∀ a, x = .ok a → ∀ c log locks, T.good c → A c log locks → B a c log locks) :
    Triple e T q A (Prog.check x) B := by
  intro c log locks good hA
  cases x with
  | ok a => exact h a rfl c log locks good hA
  | error _ => trivial

/-- The rest of the program runs only where the handler decided to go on. -/
theorem triple_checked {ε : Type} {A : Assertion S W R} {B : β → Assertion S W R} {x : Except ε α}
    {k : α → Prog S W R β} (h : ∀ a, x = .ok a → Triple e T q A (k a) B) :
    Triple e T q A (Prog.check x >>= k) B := by
  cases x with
  | ok a => exact h a rfl
  | error _ => exact fun _ _ _ _ _ => trivial

theorem triple_statement {A : Assertion S W R} {B : α → Assertion S W R} {wants : S → List R}
    {act : Statement S R → S → Option (List W × α)} (stable : Stable T A)
    (shaped : ∀ c log locks, T.good c → A c log locks →
      T.shape q c locks (wants (e.view c log)))
    (acts : ∀ c₁ c₂ log locks held ws a, A c₁ log locks → A c₂ log locks →
      Moment e T q wants c₁ log locks c₁ c₂ held →
      act ⟨e.view c₁ log, wants (e.view c₁ log)⟩ (e.view c₂ log) = some (ws, a) →
      B a c₂ (log ++ ws) held) :
    Triple e T q A (Prog.statement wants act) B := by
  intro c log locks good hA
  refine ⟨fun c₁ good₁ before => shaped c₁ log locks good₁ (stable.rely good good₁ hA before),
    fun c₁ c₂ held m => ?_⟩
  have hA₁ := stable.rely good m.good₁ hA m.before
  have hA₂ := stable.rely m.good₁ m.good₂ hA₁ m.during
  have m' : Moment e T q wants c₁ log locks c₁ c₂ held := { m with before := T.refl _ _ _ }
  simp only
  cases hact : act ⟨e.view c₁ log, wants (e.view c₁ log)⟩ (e.view c₂ log) with
  | none => trivial
  | some x =>
    obtain ⟨ws, a⟩ := x
    exact acts c₁ c₂ log locks held ws a hA₁ hA₂ m' hact

/-- A query without a locking clause adds a fact that others cannot make false. -/
theorem triple_select {ε : Type} {A : Assertion S W R} {F : α → Assertion S W R}
    {query : S → Except ε α} (stable : Stable T A) (fact : ∀ a, Stable T (F a))
    (shaped : ∀ c log locks, T.good c → A c log locks → T.shape q c locks [])
    (reads : ∀ a c log locks, T.good c → A c log locks → query (e.view c log) = .ok a →
      F a c log locks) :
    Triple e T q A (Prog.select query) fun a c log locks => A c log locks ∧ F a c log locks := by
  refine triple_statement stable shaped fun c₁ c₂ log locks held ws a h₁ h₂ m hact => ?_
  cases hq : query (e.view c₁ log) with
  | error _ => simp [hq, Except.toOption] at hact
  | ok b =>
    simp only [hq, Except.toOption, Option.map_some, Option.some.injEq, Prod.mk.injEq] at hact
    obtain ⟨rfl, rfl⟩ := hact
    have same : ∀ r, r ∈ held ↔ r ∈ locks := fun r => by simpa using m.held r
    have read := (fact b).rely m.good₁ m.good₂ (reads b c₁ log locks m.good₁ h₁ hq) m.during
    rw [List.append_nil]
    exact ⟨stable.same same h₂, (fact b).same same read⟩

theorem triple_forM {A : Assertion S W R} {body : α → Prog S W R PUnit}
    (h : ∀ a, Triple e T q A (body a) fun _ => A) (xs : List α) :
    Triple e T q A (xs.forM body) fun _ => A := by
  induction xs with
  | nil => exact triple_pure fun _ _ _ _ hA => hA
  | cons x xs ih =>
    show Triple e T q A (body x >>= fun _ => xs.forM body) fun _ => A
    exact (h x).bind fun _ => ih

end Logic

section Soundness
variable {S W R Q : Type} (e : Engine S W R Q) (T : Terms S W R Q)

/-- While a statement waits, `locks` are the rows held when it started. -/
def Resumes (c : S) (t : Tx S W R Q) (p : Waiting S R) : Prop :=
  ∃ locks, (∀ r ∈ locks, r ∈ t.locks) ∧ (∀ r ∈ t.locks, r ∈ locks ∨ r ∈ p.planned) ∧
    (∀ r ∈ p.planned, r ∈ t.locks ∨ r ∈ p.wanted) ∧ (∀ r ∈ p.wanted, r ∈ p.planned) ∧
    ∀ c₂ held ws prog, T.good c₂ → T.rely t.log locks c c₂ →
      (∀ r, r ∈ held ↔ r ∈ locks ∨ r ∈ p.planned) →
      T.cond t.request c₂ t.log p.toStatement →
      t.prog.go p.toStatement (e.view c₂ t.log) = some (ws, prog) →
      Safe e T t.request (fun _ => T.post t.request) prog c₂ (t.log ++ ws) held

structure Going (c : S) (t : Tx S W R Q) : Prop where
  idle : t.waiting = none → Safe e T t.request (fun _ => T.post t.request) t.prog c t.log t.locks
  mid : ∀ p, t.waiting = some p → T.shape t.request c t.locks p.wanted ∧ Resumes e T c t p

/-- Requests of `K` start safely, and what they end with lets them commit. -/
structure Sound (K : Q → Prop) : Prop where
  begins : ∀ q, K q →
    Triple e T q (fun _ log locks => log = [] ∧ locks = []) (e.program q) fun _ => T.post q
  commits : ∀ q c log locks, K q → T.good c → T.post q c log locks → T.ready c log →
    T.good (e.view c log) ∧ ∀ log' others, T.clear log log' → (∀ r ∈ others, r ∉ locks) →
      T.rely log' others c (e.view c log)

structure Ok (K : Q → Prop) (w : Store S W R Q) : Prop where
  keyed : Keyed Tx.id w.active
  apart : ∀ t ∈ w.active, ∀ u ∈ w.active, t.id ≠ u.id → ∀ r ∈ t.locks, r ∉ u.locks
  good : T.good w.committed
  known : ∀ t ∈ w.active, K t.request
  going : ∀ t ∈ w.active, Going e T w.committed t

/-- Requests are of `K`, statements run where `cond` holds, and a transaction commits where its
log is `ready` and `clear` of the others. -/
def Allowed (K : Q → Prop) (w : Store S W R Q) : Action R Q → Prop
  | .begin _ q => K q
  | .exec id => ∀ t ∈ w.active, t.id = id → ∀ p ∈ t.waiting, p.wanted = [] →
      T.cond t.request w.committed t.log p.toStatement
  | .commit id => ∀ t ∈ w.active, t.id = id → t.prog.finished = true →
      T.ready w.committed t.log ∧ ∀ u ∈ w.active, u.id ≠ id → T.clear t.log u.log
  | _ => True

variable {e T} {K : Q → Prop}

theorem ok_idle {c : S} (good : T.good c) : Ok e T K ⟨c, []⟩ where
  keyed := List.nodup_nil
  apart := by simp
  good := good
  known := by simp
  going := by simp

private theorem Going.rely {c c' : S} {t : Tx S W R Q} (h : Going e T c t) (good : T.good c')
    (change : T.rely t.log t.locks c c') : Going e T c' t where
  idle hw := (h.idle hw).rely good change
  mid p hp := by
    obtain ⟨shape, locks, sub, from_, planned, wanted, resume⟩ := h.mid p hp
    refine ⟨T.shape_rely shape change, locks, sub, from_, planned, wanted, ?_⟩
    intro c₂ held ws prog good₂ later
    exact resume c₂ held ws prog good₂ (T.trans (T.mono sub change) later)

/-- Replacing one transaction by its next stage keeps the rest of the store. -/
private theorem Ok.put {w : Store S W R Q} (ok : Ok e T K w) {t u : Tx S W R Q} (ht : t ∈ w.active)
    (id : u.id = t.id) (request : u.request = t.request) (going : Going e T w.committed u)
    (apart : ∀ x ∈ w.active, x.id ≠ t.id → ∀ r ∈ u.locks, r ∉ x.locks) : Ok e T K (w.put u) where
  keyed := keyed_put ok.keyed
  good := ok.good
  known := by
    intro x hx
    rcases mem_put hx with rfl | ⟨hx, -⟩
    · rw [request]
      exact ok.known t ht
    · exact ok.known x hx
  going := by
    intro x hx
    rcases mem_put hx with rfl | ⟨hx, -⟩
    · exact going
    · exact ok.going x hx
  apart := by
    intro x hx y hy hne r hr
    rcases mem_put hx with rfl | ⟨old, hxu⟩ <;> rcases mem_put hy with rfl | ⟨old', hyu⟩
    · exact absurd rfl hne
    · exact apart y old' (id ▸ hyu) r hr
    · exact fun hyr => apart x old (id ▸ hxu) r hyr hr
    · exact ok.apart x old y old' hne r hr

private theorem Ok.remove {w : Store S W R Q} (ok : Ok e T K w) (id : Nat) :
    Ok e T K (w.remove id) where
  keyed := keyed_remove ok.keyed
  good := ok.good
  known x hx := ok.known x (mem_remove.mp hx).1
  going x hx := ok.going x (mem_remove.mp hx).1
  apart x hx y hy := ok.apart x (mem_remove.mp hx).1 y (mem_remove.mp hy).1

private theorem going_started {w : Store S W R Q} (ok : Ok e T K w) {t : Tx S W R Q}
    (ht : t ∈ w.active) (idle : t.waiting = none) {plan : List R}
    (hplan : t.prog.plan (e.view w.committed t.log) = some plan) :
    Going e T w.committed (t.started (e.view w.committed t.log) plan) := by
  have safe := (ok.going t ht).idle idle
  refine ⟨fun h => by simp [Tx.started] at h, fun p hp => ?_⟩
  obtain rfl := Option.some.inj hp
  cases hprog : t.prog with
  | done a => simp [hprog, Prog.plan] at hplan
  | fail => simp [hprog, Prog.plan] at hplan
  | stmt wants writes next =>
    rw [hprog] at safe hplan
    simp only [Prog.plan, Option.some.injEq] at hplan
    subst hplan
    refine ⟨safe.1 w.committed ok.good (T.refl _ _ _), t.locks, fun r hr => hr, fun r hr => .inl hr,
      fun r hr => .inr hr, fun r hr => hr, ?_⟩
    intro c₂ held ws prog good₂ later hheld cond hgo
    simp only [Tx.started, hprog, Prog.go, Option.some.injEq, Prod.mk.injEq] at hgo
    obtain ⟨rfl, rfl⟩ := hgo
    exact safe.2 w.committed c₂ held ⟨ok.good, good₂, T.refl _ _ _, later, hheld, cond⟩

private theorem going_advanced {w : Store S W R Q} (ok : Ok e T K w) {t : Tx S W R Q}
    (ht : t ∈ w.active) {p : Waiting S R} (hp : t.waiting = some p) (ready : p.wanted = [])
    (cond : T.cond t.request w.committed t.log p.toStatement) {ws : List W}
    {prog : Prog S W R Unit}
    (hgo : t.prog.go p.toStatement (e.view w.committed t.log) = some (ws, prog)) :
    Going e T w.committed (t.advanced ws prog) := by
  obtain ⟨-, locks, sub, from_, planned, -, resume⟩ := (ok.going t ht).mid p hp
  refine ⟨fun _ => ?_, fun p hp => by simp [Tx.advanced] at hp⟩
  refine resume w.committed t.locks ws prog ok.good (T.refl _ _ _) (fun r => ?_) cond hgo
  refine ⟨from_ r, fun hr => hr.elim (sub r) fun hr => ?_⟩
  rcases planned r hr with h | h
  · exact h
  · simp [ready] at h

variable [DecidableEq R]

private theorem going_holding {w : Store S W R Q} (ok : Ok e T K w) {t : Tx S W R Q}
    (ht : t ∈ w.active) {p : Waiting S R} (hp : t.waiting = some p) {r : R} (hr : r ∈ p.wanted) :
    Going e T w.committed (t.holding p r) := by
  obtain ⟨shape, locks, sub, from_, planned, wanted, resume⟩ := (ok.going t ht).mid p hp
  refine ⟨fun h => by simp [Tx.holding] at h, fun p' hp' => ?_⟩
  obtain rfl := Option.some.inj hp'
  refine ⟨T.shape_acquire shape hr fun x hx => List.mem_of_mem_erase hx, locks,
    fun x hx => List.mem_cons_of_mem r (sub x hx), fun x hx => ?_, fun x hx => ?_,
    fun x hx => wanted x (List.mem_of_mem_erase hx), resume⟩
  · rcases List.mem_cons.mp hx with rfl | hx
    · exact .inr (wanted x hr)
    · exact from_ x hx
  · by_cases same : x = r
    · exact .inl (same ▸ List.mem_cons_self)
    · rcases planned x hx with h | h
      · exact .inl (List.mem_cons_of_mem r h)
      · exact .inr ((List.mem_erase_of_ne same).mpr h)

theorem ok_step (sound : Sound e T K) {w w' : Store S W R Q} {a : Action R Q} (ok : Ok e T K w)
    (allowed : Allowed T K w a) (h : step e a w = .ok w') : Ok e T K w' := by
  rcases step_ok h with ⟨id, q, rfl, new, rfl⟩ | ⟨t, ht, plan, rfl, idle, hplan, rfl⟩ |
    ⟨t, ht, p, r, rfl, hp, hr, free, rfl⟩ | ⟨t, ht, p, ws, prog, rfl, hp, ready, hgo, rfl⟩ |
    ⟨t, ht, rfl, idle, finished, rfl⟩ | ⟨id, rfl, rfl⟩
  · have unused : ∀ t ∈ w.active, t.id ≠ id := lookup_eq_none.mp new
    have safe := sound.begins q allowed w.committed [] [] ok.good ⟨rfl, rfl⟩
    refine ⟨?_, ?_, ok.good, ?_, ?_⟩
    · refine List.nodup_cons.mpr ⟨fun hid => ?_, ok.keyed⟩
      obtain ⟨t, ht, same⟩ := List.mem_map.mp hid
      exact unused t ht same
    · intro t ht u hu hne r hr
      rcases List.mem_cons.mp ht with rfl | ht
      · simp at hr
      · rcases List.mem_cons.mp hu with rfl | hu
        · simp
        · exact ok.apart t ht u hu hne r hr
    · intro t ht
      rcases List.mem_cons.mp ht with rfl | ht
      · exact allowed
      · exact ok.known t ht
    · intro t ht
      rcases List.mem_cons.mp ht with rfl | ht
      · exact ⟨fun _ => safe, fun p hp => by simp at hp⟩
      · exact ok.going t ht
  · exact ok.put ht rfl rfl (going_started ok ht idle hplan) fun x hx hne r hr =>
      ok.apart t ht x hx (Ne.symm hne) r hr
  · refine ok.put ht rfl rfl (going_holding ok ht hp hr) fun x hx hne y hy => ?_
    rcases List.mem_cons.mp hy with rfl | hy
    · exact not_held_of_free free hx hne
    · exact ok.apart t ht x hx (Ne.symm hne) y hy
  · exact ok.put ht rfl rfl (going_advanced ok ht hp ready (allowed t ht rfl p hp ready) hgo)
      fun x hx hne r hr => ok.apart t ht x hx (Ne.symm hne) r hr
  · have safe := (ok.going t ht).idle idle
    cases hprog : t.prog with
    | fail => simp [hprog, Prog.finished] at finished
    | stmt _ _ _ => simp [hprog, Prog.finished] at finished
    | done a =>
      rw [hprog] at safe
      obtain ⟨ready, clear⟩ := allowed t ht rfl finished
      obtain ⟨good, others⟩ :=
        sound.commits t.request w.committed t.log t.locks (ok.known t ht) ok.good safe ready
      have rest := ok.remove t.id
      refine ⟨rest.keyed, rest.apart, good, rest.known, fun u hu => ?_⟩
      obtain ⟨hu, hne⟩ := mem_remove.mp hu
      exact (ok.going u hu).rely good
        (others u.log u.locks (clear u hu hne) fun r hr => ok.apart u hu t ht hne r hr)
  · exact ok.remove id

/-- The committed state changes only by a commit that ends with its `post`. -/
theorem committed_step {w w' : Store S W R Q} {a : Action R Q} (ok : Ok e T K w)
    (h : step e a w = .ok w') : (∀ id, a ≠ .commit id) ∧ w'.committed = w.committed ∨
      ∃ t ∈ w.active, a = .commit t.id ∧ T.post t.request w.committed t.log t.locks ∧
        w'.committed = e.view w.committed t.log := by
  rcases step_ok h with ⟨id, q, rfl, new, rfl⟩ | ⟨t, ht, plan, rfl, idle, hplan, rfl⟩ |
    ⟨t, ht, p, r, rfl, hp, hr, free, rfl⟩ | ⟨t, ht, p, ws, prog, rfl, hp, ready, hgo, rfl⟩ |
    ⟨t, ht, rfl, idle, finished, rfl⟩ | ⟨id, rfl, rfl⟩
  · exact .inl ⟨by simp, rfl⟩
  · exact .inl ⟨by simp, rfl⟩
  · exact .inl ⟨by simp, rfl⟩
  · exact .inl ⟨by simp, rfl⟩
  · have safe := (ok.going t ht).idle idle
    cases hprog : t.prog with
    | fail => simp [hprog, Prog.finished] at finished
    | stmt _ _ _ => simp [hprog, Prog.finished] at finished
    | done a =>
      rw [hprog] at safe
      exact .inr ⟨t, ht, rfl, safe, rfl⟩
  · exact .inl ⟨by simp, rfl⟩

theorem ok_run (sound : Sound e T K) {c : S} (good : T.good c) {as : List (Action R Q)}
    (allowed : Meets (step e) (Allowed T K) ⟨c, []⟩ as) :
    Ok e T K (run (step e) ⟨c, []⟩ as) :=
  meets_invariant (fun _ _ _ ok ha h => ok_step sound ok ha h) (ok_idle good) allowed

end Soundness

end JitaCart.Base.ReadCommitted
