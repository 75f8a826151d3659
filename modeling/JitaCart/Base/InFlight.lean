/- module: JitaCart/Base/InFlight
   source: none (library)
   digest: Requests that read a snapshot first and run later, with others in between. -/

import JitaCart.Base.Request

set_option autoImplicit false
set_option relaxedAutoImplicit false

namespace JitaCart.Base.InFlight

open Request

/-- The store, and the requests that have read their snapshot but have not run. -/
structure Pool (S P : Type) where
  store : S
  waiting : List (Nat × P) := []

/-- A request reads its snapshot under a tag and runs later under the same tag; other
operations are atomic. -/
inductive Move (Q O : Type)
  | arrive (tag : Nat) (q : Q)
  | finish (tag : Nat)
  | other (o : O)

section Moves
variable {S P Q O E : Type}

def Pool.snapshot? (w : Pool S P) (tag : Nat) : Option P :=
  (w.waiting.find? fun x => decide (x.1 = tag)).map (·.2)

variable (read : Q → S → Except E P) (body : P → S → Except E S) (apply : O → S → Except E S)

/-- A request leaves the pool when it runs, whether its body succeeds or is rolled back. -/
def move : Move Q O → Pool S P → Except E (Pool S P)
  | .arrive tag q, w => (read q w.store).map fun p => { w with waiting := (tag, p) :: w.waiting }
  | .finish tag, w =>
    match w.snapshot? tag with
    | none => .ok w
    | some p => .ok
      { store := exec body w.store p
        waiting := w.waiting.filter fun x => decide (x.1 ≠ tag) }
  | .other o, w => (apply o w.store).map fun s => { w with store := s }

/-- `J` of the store, and of every waiting request what its snapshot still tells. -/
structure Valid (J : S → Prop) (V : P → S → Prop) (w : Pool S P) : Prop where
  store : J w.store
  waiting : ∀ x ∈ w.waiting, V x.2 w.store

/-- A condition on the moves that run a body. -/
def Finishing (C : P → S → Prop) (w : Pool S P) : Move Q O → Prop
  | .finish tag => ∀ p ∈ w.snapshot? tag, C p w.store
  | _ => True

/-- `Finishing` on the one constructor it speaks of, for its decision. -/
def Move.finished? : Move Q O → Option Nat
  | .finish tag => some tag
  | _ => none

private theorem finishing_iff {C : P → S → Prop} {w : Pool S P} {m : Move Q O} :
    Finishing C w m ↔ ∀ p ∈ m.finished?.bind w.snapshot?, C p w.store := by
  cases m <;> simp [Finishing, Move.finished?]

instance {C : P → S → Prop} [∀ p s, Decidable (C p s)] (w : Pool S P) (m : Move Q O) :
    Decidable (Finishing C w m) :=
  decidable_of_iff _ finishing_iff.symm

variable {read body apply}

theorem snapshot?_mem {w : Pool S P} {tag : Nat} {p : P} (h : w.snapshot? tag = some p) :
    (tag, p) ∈ w.waiting := by
  unfold Pool.snapshot? at h
  rw [Option.map_eq_some_iff] at h
  obtain ⟨⟨t, q⟩, hfind, rfl⟩ := h
  have htag : t = tag := by simpa using List.find?_some hfind
  rw [← htag]
  exact List.mem_of_find?_eq_some hfind

section Rule
variable {J : S → Prop} {V : P → S → Prop}
  (reads : ∀ q s p, J s → read q s = .ok p → V p s)
  (bodies : ∀ p s s', J s → V p s → body p s = .ok s' → J s' ∧ ∀ x, V x s → V x s')
  (others : ∀ o s s', J s → apply o s = .ok s' → J s' ∧ ∀ x, V x s → V x s')
include reads bodies others

/-- What every body and every other operation keeps, every move keeps. -/
private theorem valid_move {w w' : Pool S P} {m : Move Q O} (h : Valid J V w)
    (hm : move read body apply m w = .ok w') : Valid J V w' := by
  cases m with
  | arrive tag q =>
    obtain ⟨p, hp, rfl⟩ := map_eq_ok.mp hm
    refine ⟨h.store, fun x hx => ?_⟩
    rcases List.mem_cons.mp hx with rfl | hx
    · exact reads q w.store p h.store hp
    · exact h.waiting x hx
  | finish tag =>
    simp only [move] at hm
    split at hm
    · obtain rfl := Except.ok.inj hm
      exact h
    · rename_i p hp
      obtain rfl := Except.ok.inj hm
      have hV : V p w.store := h.waiting _ (snapshot?_mem hp)
      cases hb : body p w.store with
      | ok s' =>
        obtain ⟨hJ, still⟩ := bodies p w.store s' h.store hV hb
        rw [exec_of_ok hb]
        exact ⟨hJ, fun x hx => still _ (h.waiting x (List.mem_filter.mp hx).1)⟩
      | error e =>
        rw [exec_of_error hb]
        exact ⟨h.store, fun x hx => h.waiting x (List.mem_filter.mp hx).1⟩
  | other o =>
    obtain ⟨s', hs, rfl⟩ := map_eq_ok.mp hm
    obtain ⟨hJ, still⟩ := others o w.store s' h.store hs
    exact ⟨hJ, fun x hx => still _ (h.waiting x hx)⟩

theorem valid_run {w : Pool S P} (h : Valid J V w) (ms : List (Move Q O)) :
    Valid J V (run (move read body apply) w ms) :=
  run_invariant (fun _ _ _ => valid_move reads bodies others) h ms

end Rule

end Moves

end JitaCart.Base.InFlight
