/- module: JitaCart/Base/Aggregate
   source: none (library)
   digest: Transactions under the lock of a root run alone on the rows that belong to it. -/

import JitaCart.Base.Replay

/-!
The rows that belong to a root row are its part. When every write is done under the
lock of the root that it belongs to, a transaction that holds a root sees the same
part at every statement, and what it writes acts on that part alone. It is then
verified as a sequential program on the part.
-/

set_option autoImplicit false
set_option relaxedAutoImplicit false

namespace JitaCart.Base.ReadCommitted

open Request Table

variable {S W R Q K A α β : Type}

/-- `act` is what a write does to the part of its root. -/
structure Aggregate {e : Engine S W R Q} (D : Discipline e) (K A : Type) where
  part : K → S → A
  root : W → K
  lock : K → R
  act : W → A → A
  part_same : ∀ {k locks s s'}, lock k ∈ locks → D.same locks s s' → part k s' = part k s
  part_redo : ∀ {w s}, D.good s → D.ok w s → part (root w) (e.redo w s) = act w (part (root w) s)
  part_other : ∀ {w s k}, D.good s → D.ok w s → k ≠ root w → part k (e.redo w s) = part k s

namespace Aggregate

variable {e : Engine S W R Q} {D : Discipline e} (G : Aggregate D K A)

/-- What a log does to the part that it belongs to. -/
def acts (ws : List W) (a : A) : A := ws.foldl (fun a w => G.act w a) a

private theorem acts_append (ws ws' : List W) (a : A) :
    G.acts (ws ++ ws') a = G.acts ws' (G.acts ws a) :=
  List.foldl_append

variable {G}

private theorem part_view {k : K} {ws : List W} {s : S} (good : D.good s) (replays : D.Replays ws s)
    (mine : ∀ w ∈ ws, G.root w = k) : G.part k (e.view s ws) = G.acts ws (G.part k s) := by
  induction ws generalizing s with
  | nil => rfl
  | cons w ws ih =>
    have first := G.part_redo good replays.1
    rw [mine w List.mem_cons_self] at first
    have rest := ih (D.good_redo good replays.1) replays.2 fun x hx =>
      mine x (List.mem_cons_of_mem w hx)
    rw [first] at rest
    exact rest

theorem part_view_other {k j : K} {ws : List W} {s : S} (good : D.good s)
    (replays : D.Replays ws s) (mine : ∀ w ∈ ws, G.root w = k) (other : j ≠ k) :
    G.part j (e.view s ws) = G.part j s := by
  induction ws generalizing s with
  | nil => rfl
  | cons w ws ih =>
    have first := G.part_other (k := j) good replays.1 (by
      rw [mine w List.mem_cons_self]
      exact other)
    rw [← first]
    exact ih (D.good_redo good replays.1) replays.2 fun x hx => mine x (List.mem_cons_of_mem w hx)

variable (G)

/-- The root is locked, everything was written to its part, and that part is now as `F` says. -/
def Holds (k : K) (F : A → Prop) : Assertion S W R := fun c log locks =>
  G.lock k ∈ locks ∧ (∀ w ∈ log, G.root w = k) ∧ F (G.part k (e.view c log))

def Unwritten : Assertion S W R := fun _ log _ => log = []

section Programs
variable {P : Promise D} {q : Q} {k : K} {G}

private theorem stable_holds {F : A → Prop} : Stable P.terms (D.With q (G.Holds k F)) where
  rely _ good' h change := by
    obtain ⟨right, held, mine, hF⟩ := h
    refine ⟨right.rely good'.1 change.1, held, mine, ?_⟩
    rw [G.part_same held (right.view_same good'.1 change.1)]
    exact hF
  same same h := by
    obtain ⟨right, held, mine, hF⟩ := h
    exact ⟨right.mono fun r hr => (same r).mpr hr, (same _).mpr held, mine, hF⟩

private theorem stable_unwritten :
    Stable P.terms (D.With q (Unwritten (S := S) (W := W) (R := R))) where
  rely _ good' h change := ⟨h.1.rely good'.1 change.1, h.2⟩
  same same h := ⟨h.1.mono fun r hr => (same r).mpr hr, h.2⟩

theorem Holds.imp {F F' : A → Prop} (imp : ∀ a, F a → F' a) {c : S} {log : List W} {locks : List R}
    (h : G.Holds k F c log locks) : G.Holds k F' c log locks :=
  ⟨h.1, h.2.1, imp _ h.2.2⟩

theorem keeps_fixed {F : A → Prop} {p : Prog S W R α} {B : α → Assertion S W R}
    (h : ∀ a, F a → P.Keeps q (G.Holds k (· = a)) p B) : P.Keeps q (G.Holds k F) p B := by
  intro c log locks good hA
  obtain ⟨right, held, mine, hF⟩ := hA
  exact h _ hF c log locks good ⟨right, held, mine, rfl⟩

/-- A statement under the lock sees the part as it is, in its snapshot and when it runs. -/
theorem keeps_under {a : A} {F : α → A → Prop} {wants : S → List R}
    {stmt : Statement S R → S → Option (List W × α)}
    (h : ∀ s₁ s ws r, D.good s₁ → D.good s → G.part k s₁ = a → G.part k s = a →
      stmt ⟨s₁, wants s₁⟩ s = some (ws, r) →
      D.Replays ws s ∧ (∀ w ∈ ws, G.root w = k ∧
        ∀ held, G.lock k ∈ held → (∀ x ∈ wants s₁, x ∈ held) → D.own q held w) ∧
      F r (G.acts ws a)) :
    P.Keeps q (G.Holds k (· = a)) (Prog.statement wants stmt) fun r => G.Holds k (F r) := by
  refine Promise.keeps_write stable_holds ?_
  intro c₁ c₂ log locks held ws r h₁ h₂ m hstmt
  obtain ⟨right₁, -, -, part₁⟩ := h₁
  obtain ⟨right₂, locked, mine, part₂⟩ := h₂
  obtain ⟨replays, own, hF⟩ := h _ _ ws r right₁.view right₂.view part₁ part₂ hstmt
  have locked' : G.lock k ∈ held := (m.held _).mpr (.inl locked)
  have wanted : ∀ x ∈ wants (e.view c₁ log), x ∈ held := fun x hx => (m.held x).mpr (.inr hx)
  refine ⟨replays, fun w hw => (own w hw).2 held locked' wanted, locked', ?_, ?_⟩
  · intro w hw
    rcases List.mem_append.mp hw with old | new
    · exact mine w old
    · exact (own w new).1
  · rw [view_append, part_view right₂.view replays fun w hw => (own w hw).1, part₂]
    exact hF

theorem keeps_read {ε : Type} {a : A} {F : α → Prop} {query : S → Except ε α}
    (h : ∀ s r, D.good s → G.part k s = a → query s = .ok r → F r) :
    P.Keeps q (G.Holds k (· = a)) (Prog.select query) fun r => G.Holds k fun x => x = a ∧ F r := by
  refine keeps_under fun s₁ s ws r good₁ good part₁ part hstmt => ?_
  cases hq : query s₁ with
  | error _ => simp [hq, Except.toOption] at hstmt
  | ok b =>
    simp only [hq, Except.toOption, Option.map_some, Option.some.injEq, Prod.mk.injEq] at hstmt
    obtain ⟨rfl, rfl⟩ := hstmt
    exact ⟨trivial, by simp, rfl, h s₁ b good₁ part₁ hq⟩

theorem keeps_enter {F : α → A → Prop} {wants : S → List R}
    {stmt : Statement S R → S → Option (List W × α)}
    (h : ∀ s₁ s ws r, D.good s₁ → D.good s → stmt ⟨s₁, wants s₁⟩ s = some (ws, r) →
      G.lock k ∈ wants s₁ ∧ D.Replays ws s ∧ (∀ w ∈ ws, G.root w = k ∧
        ∀ held, (∀ x ∈ wants s₁, x ∈ held) → D.own q held w) ∧
      F r (G.acts ws (G.part k s))) :
    P.Keeps q Unwritten (Prog.statement wants stmt) fun r => G.Holds k (F r) := by
  refine Promise.keeps_write stable_unwritten ?_
  rintro c₁ c₂ log locks held ws r ⟨right₁, rfl⟩ ⟨right₂, -⟩ m hstmt
  obtain ⟨locked, replays, own, hF⟩ := h _ _ ws r right₁.view right₂.view hstmt
  have wanted : ∀ x ∈ wants (e.view c₁ []), x ∈ held := fun x hx => (m.held x).mpr (.inr hx)
  refine ⟨replays, fun w hw => (own w hw).2 held wanted, wanted _ locked,
    fun w hw => (own w hw).1, ?_⟩
  rw [view_append, part_view right₂.view replays fun w hw => (own w hw).1]
  exact hF

theorem keeps_unwritten {ε : Type} {query : S → Except ε α} :
    P.Keeps q Unwritten (Prog.select query) fun _ => Unwritten := by
  refine Promise.keeps_write stable_unwritten ?_
  rintro c₁ c₂ log locks held ws r ⟨-, rfl⟩ ⟨-, -⟩ m hstmt
  obtain ⟨_, -, hstmt⟩ := Option.map_eq_some_iff.mp hstmt
  obtain ⟨rfl, -⟩ := Prod.mk.inj hstmt
  exact ⟨trivial, by simp, rfl⟩

end Programs

end Aggregate

namespace Discipline

variable {e : Engine S W R Q} {D : Discipline e}

/-- Writes that do not disturb each other may land one after the other. -/
theorem replays_of_pairwise {ws : List W} {s : S} (good : D.good s) (ok : ∀ w ∈ ws, D.ok w s)
    (apart : ws.Pairwise fun w w' => ∀ s, D.good s → D.ok w s → D.ok w' s → D.ok w' (e.redo w s)) :
    D.Replays ws s := by
  induction ws generalizing s with
  | nil => trivial
  | cons w ws ih =>
    obtain ⟨first, rest⟩ := List.pairwise_cons.mp apart
    have own := ok w List.mem_cons_self
    refine ⟨own, ih (D.good_redo good own) (fun x hx => ?_) rest⟩
    exact first x hx s good own (ok x (List.mem_cons_of_mem w hx))

end Discipline

end JitaCart.Base.ReadCommitted
