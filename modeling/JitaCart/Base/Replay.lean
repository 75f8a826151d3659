/- module: JitaCart/Base/Replay
   source: none (library)
   digest: Transactions whose writes stay right while the rows under their locks stay the same. -/

import JitaCart.Base.RelyGuarantee

/-!
A log is right for a committed state when each of its writes may land on the
state that the writes before it have made. A transaction writes only under its
own locks, so what the others commit does not make its log wrong, and its commit
keeps what they hold.
-/

set_option autoImplicit false
set_option relaxedAutoImplicit false

namespace JitaCart.Base.ReadCommitted

open Request Table

variable {S W R Q : Type}

/-- `same` is what the others leave alone for a transaction that holds these rows, `own` are the
writes that a request may do under its locks, and `ok` are the states that a write may land on. -/
structure Discipline (e : Engine S W R Q) where
  good : S → Prop
  same : List R → S → S → Prop
  own : Q → List R → W → Prop
  ok : W → S → Prop
  refl : ∀ locks s, same locks s s
  trans : ∀ {locks s s' s''}, same locks s s' → same locks s' s'' → same locks s s''
  mono : ∀ {few many s s'}, (∀ r ∈ few, r ∈ many) → same many s s' → same few s s'
  own_mono : ∀ {q few many w}, (∀ r ∈ few, r ∈ many) → own q few w → own q many w
  ok_same : ∀ {q locks w s s'}, good s → good s' → own q locks w → ok w s → same locks s s' →
    ok w s'
  redo_same : ∀ {q locks w s s'}, good s → good s' → own q locks w → ok w s → same locks s s' →
    same locks (e.redo w s) (e.redo w s')
  good_redo : ∀ {w s}, good s → ok w s → good (e.redo w s)
  frame : ∀ {q locks others w s}, good s → own q locks w → ok w s → (∀ r ∈ others, r ∉ locks) →
    same others s (e.redo w s)

namespace Discipline

variable {e : Engine S W R Q} (D : Discipline e)

def Replays : List W → S → Prop
  | [], _ => True
  | w :: ws, s => D.ok w s ∧ Replays ws (e.redo w s)

structure Right (q : Q) (c : S) (log : List W) (locks : List R) : Prop where
  good : D.good c
  replays : D.Replays log c
  own : ∀ w ∈ log, D.own q locks w

variable {D}

private theorem replays_append {log ws : List W} {s : S} :
    D.Replays (log ++ ws) s ↔ D.Replays log s ∧ D.Replays ws (e.view s log) := by
  induction log generalizing s with
  | nil => simp [Replays, Engine.view]
  | cons w log ih =>
    rw [List.cons_append, Replays, Replays, ih, and_assoc]
    rfl

theorem good_view {log : List W} {s : S} (good : D.good s) (replays : D.Replays log s) :
    D.good (e.view s log) := by
  induction log generalizing s with
  | nil => exact good
  | cons w log ih => exact ih (D.good_redo good replays.1) replays.2

/-- A log that is right for one state is right for another that agrees with it on the locked rows,
and leaves them in agreement. -/
private theorem replays_same {q : Q} {log : List W} {locks : List R} {s s' : S} (good : D.good s)
    (good' : D.good s') (replays : D.Replays log s) (own : ∀ w ∈ log, D.own q locks w)
    (same : D.same locks s s') :
    D.Replays log s' ∧ D.same locks (e.view s log) (e.view s' log) := by
  induction log generalizing s s' with
  | nil => exact ⟨trivial, same⟩
  | cons w log ih =>
    have mine := own w List.mem_cons_self
    have ok' := D.ok_same good good' mine replays.1 same
    obtain ⟨rest, agree⟩ := ih (D.good_redo good replays.1) (D.good_redo good' ok') replays.2
      (fun x hx => own x (List.mem_cons_of_mem w hx))
      (D.redo_same good good' mine replays.1 same)
    exact ⟨⟨ok', rest⟩, agree⟩

theorem frame_view {q : Q} {log : List W} {locks others : List R} {s : S} (good : D.good s)
    (replays : D.Replays log s) (own : ∀ w ∈ log, D.own q locks w)
    (apart : ∀ r ∈ others, r ∉ locks) : D.same others s (e.view s log) := by
  induction log generalizing s with
  | nil => exact D.refl others s
  | cons w log ih =>
    have first := D.frame good (own w List.mem_cons_self) replays.1 apart
    have rest := ih (D.good_redo good replays.1) replays.2
      fun x hx => own x (List.mem_cons_of_mem w hx)
    exact D.trans first rest

section Right
variable {q : Q} {c c' : S} {log ws : List W} {locks held others : List R}

theorem Right.nil (good : D.good c) : D.Right q c [] locks where
  good := good
  replays := trivial
  own := by simp

theorem Right.view (h : D.Right q c log locks) : D.good (e.view c log) :=
  good_view h.good h.replays

theorem Right.rely (h : D.Right q c log locks) (good' : D.good c') (same : D.same locks c c') :
    D.Right q c' log locks where
  good := good'
  replays := (replays_same h.good good' h.replays h.own same).1
  own := h.own

/-- What the transaction sees of its locked rows stays the same too. -/
theorem Right.view_same (h : D.Right q c log locks) (good' : D.good c')
    (same : D.same locks c c') : D.same locks (e.view c log) (e.view c' log) :=
  (replays_same h.good good' h.replays h.own same).2

theorem Right.mono (h : D.Right q c log locks) (more : ∀ r ∈ locks, r ∈ held) :
    D.Right q c log held where
  good := h.good
  replays := h.replays
  own w hw := D.own_mono more (h.own w hw)

theorem Right.append (h : D.Right q c log locks) (more : ∀ r ∈ locks, r ∈ held)
    (replays : D.Replays ws (e.view c log)) (own : ∀ w ∈ ws, D.own q held w) :
    D.Right q c (log ++ ws) held where
  good := h.good
  replays := replays_append.mpr ⟨h.replays, replays⟩
  own w hw := (List.mem_append.mp hw).elim (fun hw => D.own_mono more (h.own w hw)) (own w)

end Right

variable (D)

/-- An assertion that comes with the log being right. -/
def With (q : Q) (F : Assertion S W R) : Assertion S W R := fun c log locks =>
  D.Right q c log locks ∧ F c log locks

end Discipline

/-- What a system promises of its committed states beyond the discipline of its writes: `inv`, which
a transaction may break by itself but has restored when it is done. `leaves` is what the others
leave alone for a transaction that has left these notes in its log, and `done` is what a transaction
ends with. The rest is what the runs are asked for. -/
structure Promise {e : Engine S W R Q} (D : Discipline e) where
  inv : S → Prop
  leaves : List W → S → S → Prop
  done : Q → Assertion S W R
  cond : Q → S → List W → Statement S R → Prop
  ready : S → List W → Prop
  clear : List W → List W → Prop
  refl : ∀ log s, leaves log s s
  trans : ∀ {log s s' s''}, leaves log s s' → leaves log s' s'' → leaves log s s''
  done_rely : ∀ {q log locks c c'}, D.Right q c log locks → D.good c' → inv c' →
    D.same locks c c' → leaves log c c' → done q c log locks → done q c' log locks

namespace Promise

variable {e : Engine S W R Q} {D : Discipline e}

def none (D : Discipline e) : Promise D where
  inv _ := True
  leaves _ _ _ := True
  done _ _ _ _ := True
  cond _ _ _ _ := True
  ready _ _ := True
  clear _ _ := True
  refl _ _ := trivial
  trans _ _ := trivial
  done_rely _ _ _ _ _ _ := trivial

variable (P : Promise D)

def terms : Terms S W R Q where
  good c := D.good c ∧ P.inv c
  rely log locks c c' := D.same locks c c' ∧ P.leaves log c c'
  cond := P.cond
  ready := P.ready
  clear := P.clear
  shape _ _ _ _ := True
  post q := D.With q (P.done q)
  refl log locks c := ⟨D.refl locks c, P.refl log c⟩
  trans h h' := ⟨D.trans h.1 h'.1, P.trans h.2 h'.2⟩
  mono sub h := ⟨D.mono sub h.1, h.2⟩
  shape_rely _ _ := trivial
  shape_acquire _ _ _ := trivial
  post_rely good' h change :=
    ⟨h.1.rely good'.1 change.1, P.done_rely h.1 good'.1 good'.2 change.1 change.2 h.2⟩

theorem sound {K : Q → Prop}
    (begins : ∀ q, K q → Triple e P.terms q (fun _ log locks => log = [] ∧ locks = [])
      (e.program q) fun _ => D.With q (P.done q))
    (commits : ∀ q c log locks, P.inv c → D.With q (P.done q) c log locks → P.ready c log →
      P.inv (e.view c log) ∧ ∀ log', P.clear log log' → P.leaves log' c (e.view c log)) :
    Sound e P.terms K where
  begins := begins
  commits q c log locks _ good post ready := by
    obtain ⟨inv, leaves⟩ := commits q c log locks good.2 post ready
    refine ⟨⟨post.1.view, inv⟩, fun log' others clear apart => ⟨?_, leaves log' clear⟩⟩
    exact Discipline.frame_view post.1.good post.1.replays post.1.own apart

section Programs
variable {α : Type} {q : Q} {P}

theorem stable_right : Stable P.terms (D.Right q) where
  rely _ good' h change := h.rely good'.1 change.1
  same same h := h.mono fun r hr => (same r).mpr hr

theorem stable_with {F : Assertion S W R} (h : Stable P.terms F) : Stable P.terms (D.With q F) := by
  have right : Stable P.terms (D.Right q) := stable_right
  exact ⟨fun good good' hA change => ⟨right.rely good good' hA.1 change,
    h.rely good good' hA.2 change⟩, fun same hA => ⟨right.same same hA.1, h.same same hA.2⟩⟩

variable (P) in
/-- From `F` the program goes to `G`, and its log stays right. -/
abbrev Keeps (q : Q) (F : Assertion S W R) (p : Prog S W R α) (G : α → Assertion S W R) : Prop :=
  Triple e P.terms q (D.With q F) p fun a => D.With q (G a)

theorem keeps_write {F : Assertion S W R} {G : α → Assertion S W R} {wants : S → List R}
    {act : Statement S R → S → Option (List W × α)} (stable : Stable P.terms (D.With q F))
    (acts : ∀ c₁ c₂ log locks held ws a, D.With q F c₁ log locks → D.With q F c₂ log locks →
      Moment e P.terms q wants c₁ log locks c₁ c₂ held →
      act ⟨e.view c₁ log, wants (e.view c₁ log)⟩ (e.view c₂ log) = some (ws, a) →
      D.Replays ws (e.view c₂ log) ∧ (∀ w ∈ ws, D.own q held w) ∧ G a c₂ (log ++ ws) held) :
    P.Keeps q F (Prog.statement wants act) G := by
  refine triple_statement stable (fun _ _ _ _ _ => trivial) ?_
  intro c₁ c₂ log locks held ws a h₁ h₂ m hact
  obtain ⟨replays, own, hG⟩ := acts c₁ c₂ log locks held ws a h₁ h₂ m hact
  exact ⟨h₂.1.append (fun r hr => (m.held r).mpr (.inl hr)) replays own, hG⟩

theorem keeps_query {ε : Type} {F : Assertion S W R} {G : α → Assertion S W R}
    {query : S → Except ε α} (stable : Stable P.terms (D.With q F))
    (fact : ∀ a, Stable P.terms (G a))
    (reads : ∀ a c log locks, D.With q F c log locks → query (e.view c log) = .ok a →
      G a c log locks) :
    P.Keeps q F (Prog.select query) fun a c log locks => F c log locks ∧ G a c log locks := by
  have h := triple_select (q := q) stable fact (fun _ _ _ _ _ => trivial)
    fun a c log locks _ hA hq => reads a c log locks hA hq
  exact h.imp (fun _ _ _ _ hA => hA) fun a c log locks _ hA => ⟨hA.1.1, hA.1.2, hA.2⟩

/-- A program whose writes may land anywhere keeps an assertion that they cannot make false. -/
theorem keeps_emits {F : Assertion S W R} {kind : W → Prop}
    (stable : Stable P.terms (D.With q F))
    (lands : ∀ w s held, kind w → D.ok w s ∧ D.own q held w)
    (append : ∀ c log locks held ws, D.With q F c log locks → (∀ r ∈ locks, r ∈ held) →
      (∀ w ∈ ws, kind w) → F c (log ++ ws) held)
    {p : Prog S W R α} (emits : p.Emits kind) : P.Keeps q F p fun _ => F := by
  have replays (ws : List W) (s : S) (hws : ∀ w ∈ ws, kind w) : D.Replays ws s := by
    induction ws generalizing s with
    | nil => trivial
    | cons w ws ih =>
      exact ⟨(lands w s [] (hws w List.mem_cons_self)).1,
        ih _ fun x hx => hws x (List.mem_cons_of_mem w hx)⟩
  induction p with
  | done a => exact fun _ _ _ _ h => h
  | fail => exact fun _ _ _ _ _ => trivial
  | stmt wants writes next ih =>
    intro c log locks good h
    refine ⟨fun _ _ _ => trivial, fun c₁ c₂ held m => ?_⟩
    have h₁ := stable.rely good m.good₁ h m.before
    have h₂ := stable.rely m.good₁ m.good₂ h₁ m.during
    obtain ⟨mine, rest⟩ := emits ⟨e.view c₁ log, wants (e.view c₁ log)⟩ (e.view c₂ log)
    have more : ∀ r ∈ locks, r ∈ held := fun r hr => (m.held r).mpr (.inl hr)
    refine ih _ _ rest c₂ _ held m.good₂ ⟨?_, append c₂ log locks held _ h₂ more mine⟩
    exact h₂.1.append more (replays _ _ mine) fun w hw =>
      (lands w (e.view c₂ log) held (mine w hw)).2

end Programs

variable {P} [DecidableEq R]

/-- Every committed state of a run that is allowed keeps the promise. -/
theorem kept_run {K : Q → Prop} (sound : Sound e P.terms K) {c : S} (good : D.good c)
    (inv : P.inv c) {as : List (Action R Q)}
    (allowed : Meets (step e) (Allowed P.terms K) ⟨c, []⟩ as) :
    Ok e P.terms K (run (step e) ⟨c, []⟩ as) :=
  ok_run sound ⟨good, inv⟩ allowed

theorem allowed_always {K : Q → Prop} (cond : ∀ q c log st, P.cond q c log st)
    (ready : ∀ c log, P.ready c log) (clear : ∀ log log', P.clear log log') {c : S}
    {as : List (Action R Q)} (known : ∀ id q, .begin id q ∈ as → K q) :
    Meets (step e) (Allowed P.terms K) ⟨c, []⟩ as := by
  refine meets_of_forall fun before a after split => ?_
  cases a with
  | begin id q => exact known id q (split ▸ List.mem_append_right _ List.mem_cons_self)
  | start _ => trivial
  | acquire _ _ => trivial
  | exec _ => exact fun _ _ _ _ _ _ => cond _ _ _ _
  | commit _ => exact fun _ _ _ _ => ⟨ready _ _, fun _ _ _ => clear _ _⟩
  | abort _ => trivial

private theorem allowed_none {K : Q → Prop} {c : S} {as : List (Action R Q)}
    (known : ∀ id q, .begin id q ∈ as → K q) :
    Meets (step e) (Allowed (Promise.none D).terms K) ⟨c, []⟩ as :=
  allowed_always (fun _ _ _ _ => trivial) (fun _ _ => trivial) (fun _ _ => trivial) known

end Promise

end JitaCart.Base.ReadCommitted
