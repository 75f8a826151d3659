/- module: JitaCart/Base/Request
   source: none (library)
   digest: Fallible requests, runs in which a failed request changes nothing, and their invariants. -/

import Mathlib.Data.List.Basic
import Mathlib.Tactic.TypeStar

set_option autoImplicit false
set_option relaxedAutoImplicit false

namespace JitaCart.Base.Request

variable {ε α β : Type}

/-- A guard of a handler: go on when `p` holds, refuse with `e` otherwise. -/
def require (p : Prop) [Decidable p] (e : ε) : Except ε Unit :=
  if p then .ok () else .error e

/-- A row the handler needs: go on with it, refuse with `e` when it is missing. -/
def fetch (e : ε) : Option α → Except ε α
  | some a => .ok a
  | none => .error e

theorem mapM_eq_ok {ε α β : Type} {f : α → Except ε β} {o : Option α} {r : Option β} :
    o.mapM f = .ok r ↔ (o = none ∧ r = none) ∨ ∃ a b, o = some a ∧ f a = .ok b ∧ r = some b := by
  cases o with
  | none =>
    rw [Option.mapM_none]
    simp [pure, Except.pure, eq_comm]
  | some a =>
    rw [Option.mapM_some]
    cases h : f a <;> simp [h, Functor.map, Except.map, eq_comm]

@[simp] theorem require_eq_ok {p : Prop} [Decidable p] {e : ε} {u : Unit} :
    require p e = .ok u ↔ p := by
  unfold require
  split <;> simp_all

@[simp] theorem fetch_eq_ok {e : ε} {o : Option α} {a : α} :
    fetch e o = .ok a ↔ o = some a := by
  cases o <;> simp [fetch]

theorem bind_eq_ok {x : Except ε α} {f : α → Except ε β} {b : β} :
    (x >>= f) = .ok b ↔ ∃ a, x = .ok a ∧ f a = .ok b := by
  cases x with
  | error e => simp [bind, Except.bind]
  | ok a => simp [bind, Except.bind]

@[simp] theorem pure_eq_ok {a b : α} : (pure a : Except ε α) = .ok b ↔ a = b := by
  simp [pure, Except.pure]

@[simp] theorem mapError_eq_ok {ε' : Type} {g : ε → ε'} {x : Except ε α} {a : α} :
    x.mapError g = .ok a ↔ x = .ok a := by
  cases x <;> simp [Except.mapError]

@[simp] theorem map_eq_ok {g : α → β} {x : Except ε α} {b : β} :
    x.map g = .ok b ↔ ∃ a, x = .ok a ∧ g a = b := by
  cases x <;> simp [Except.map]

-- Runs. A request that fails is rolled back, so it leaves the state as it was.
section Runs
variable {S O E : Type} (apply : O → S → Except E S)

/-- One request, committed when it succeeds and rolled back when it fails. -/
def exec (s : S) (o : O) : S :=
  match apply o s with
  | .ok s' => s'
  | .error _ => s

/-- A finite sequence of requests, one after the other. -/
def run (s : S) (os : List O) : S := os.foldl (exec apply) s

/-- Every request of the run meets `C` in the state it is executed in. -/
def Meets (C : S → O → Prop) : S → List O → Prop
  | _, [] => True
  | s, o :: os => C s o ∧ Meets C (exec apply s o) os

instance decidableMeets {C : S → O → Prop} [∀ s o, Decidable (C s o)] :
    ∀ (s : S) (os : List O), Decidable (Meets apply C s os)
  | _, [] => .isTrue trivial
  | s, o :: os =>
    have := decidableMeets (C := C) (exec apply s o) os
    inferInstanceAs (Decidable (C s o ∧ Meets apply C (exec apply s o) os))

variable {apply}

theorem exec_of_ok {s s' : S} {o : O} (h : apply o s = .ok s') : exec apply s o = s' := by
  simp [exec, h]

theorem exec_of_error {s : S} {o : O} {e : E} (h : apply o s = .error e) :
    exec apply s o = s := by
  simp [exec, h]

@[simp] theorem run_nil (s : S) : run apply s [] = s := rfl

@[simp] theorem run_cons (s : S) (o : O) (os : List O) :
    run apply s (o :: os) = run apply (exec apply s o) os := rfl

theorem run_append (s : S) (os ps : List O) :
    run apply s (os ++ ps) = run apply (run apply s os) ps :=
  List.foldl_append

theorem meets_append {C : S → O → Prop} {s : S} {os ps : List O} :
    Meets apply C s (os ++ ps) ↔ Meets apply C s os ∧ Meets apply C (run apply s os) ps := by
  induction os generalizing s with
  | nil => simp [Meets]
  | cons o os ih => simp [Meets, ih, and_assoc]

theorem meets_of_forall {C : S → O → Prop} {s : S} {os : List O}
    (h : ∀ before o after, os = before ++ o :: after → C (run apply s before) o) :
    Meets apply C s os := by
  induction os generalizing s with
  | nil => trivial
  | cons o os ih =>
    refine ⟨h [] o os rfl, ih fun before p after hos => ?_⟩
    exact h (o :: before) p after (by rw [hos]; rfl)

theorem meets_of_always {C : S → O → Prop} (h : ∀ s o, C s o) (s : S) (os : List O) :
    Meets apply C s os :=
  meets_of_forall fun _ _ _ _ => h _ _

theorem Meets.and {C D : S → O → Prop} {s : S} {os : List O} (hc : Meets apply C s os)
    (hd : Meets apply D s os) : Meets apply (fun s o => C s o ∧ D s o) s os := by
  induction os generalizing s with
  | nil => trivial
  | cons o os ih => exact ⟨⟨hc.1, hd.1⟩, ih hc.2 hd.2⟩

theorem Meets.imp {C D : S → O → Prop} (h : ∀ s o, C s o → D s o) {s : S} {os : List O}
    (hc : Meets apply C s os) : Meets apply D s os := by
  induction os generalizing s with
  | nil => trivial
  | cons o os ih => exact ⟨h s o hc.1, ih hc.2⟩

private theorem exec_invariant {I : S → Prop} {C : S → O → Prop}
    (step : ∀ s o s', I s → C s o → apply o s = .ok s' → I s')
    {s : S} {o : O} (h : I s) (hc : C s o) : I (exec apply s o) := by
  cases ho : apply o s with
  | ok s' =>
    rw [exec_of_ok ho]
    exact step s o s' h hc ho
  | error e =>
    rw [exec_of_error ho]
    exact h

/-- What every successful request keeps under the condition holds after every
run whose requests all meet it. -/
theorem meets_invariant {I : S → Prop} {C : S → O → Prop}
    (step : ∀ s o s', I s → C s o → apply o s = .ok s' → I s')
    {s : S} {os : List O} (h : I s) (hm : Meets apply C s os) : I (run apply s os) := by
  induction os generalizing s with
  | nil => exact h
  | cons o os ih => exact ih (exec_invariant step h hm.1) hm.2

/-- Where `C` says exactly when a request keeps `I`, the runs that pass only through
states with `I` are those whose requests all meet `C`. `J` is what every run keeps anyway. -/
theorem forall_run_iff_meets {I J : S → Prop} {C : S → O → Prop}
    (keep : ∀ s o s', J s → apply o s = .ok s' → J s')
    (exact_step : ∀ s o, J s → I s → (I (exec apply s o) ↔ C s o))
    {s : S} (hJ : J s) (hI : I s) (os : List O) :
    (∀ before, before <+: os → I (run apply s before)) ↔ Meets apply C s os := by
  induction os generalizing s with
  | nil =>
    refine ⟨fun _ => trivial, fun _ before hb => ?_⟩
    rw [List.prefix_nil.mp hb]
    exact hI
  | cons o os ih =>
    have hJ' : J (exec apply s o) :=
      exec_invariant (C := fun _ _ => True) (fun s o s' hs _ => keep s o s' hs) hJ trivial
    constructor
    · intro h
      have hI' : I (exec apply s o) := h [o] ⟨os, rfl⟩
      refine ⟨(exact_step s o hJ hI).mp hI', (ih hJ' hI').mp fun before hb => ?_⟩
      exact h (o :: before) (List.cons_prefix_cons.mpr ⟨rfl, hb⟩)
    · rintro ⟨hC, hm⟩ before hb
      have hI' : I (exec apply s o) := (exact_step s o hJ hI).mpr hC
      cases before with
      | nil => exact hI
      | cons p ps =>
        obtain ⟨rfl, hps⟩ := List.cons_prefix_cons.mp hb
        exact (ih hJ' hI').mpr hm ps hps

theorem run_invariant {I : S → Prop} (step : ∀ s o s', I s → apply o s = .ok s' → I s')
    {s : S} (h : I s) (os : List O) : I (run apply s os) := by
  induction os generalizing s with
  | nil => exact h
  | cons o os ih =>
    exact ih (exec_invariant (C := fun _ _ => True) (fun s o s' hs _ => step s o s' hs) h trivial)

/-- Where each successful request is matched by requests of another system, so is a run. -/
theorem run_simulates {T Q F : Type} {other : Q → T → Except F T} {R : S → T → Prop}
    {C : S → O → Prop} {D : T → Q → Prop}
    (step : ∀ s t o s', R s t → C s o → apply o s = .ok s' →
      ∃ qs, Meets other D t qs ∧ R s' (run other t qs))
    {s : S} {t : T} {os : List O} (h : R s t) (hm : Meets apply C s os) :
    ∃ qs, Meets other D t qs ∧ R (run apply s os) (run other t qs) := by
  induction os generalizing s t with
  | nil => exact ⟨[], trivial, h⟩
  | cons o os ih =>
    have one : ∃ qs, Meets other D t qs ∧ R (exec apply s o) (run other t qs) := by
      cases ho : apply o s with
      | ok s' =>
        rw [exec_of_ok ho]
        exact step s t o s' h hm.1 ho
      | error e =>
        rw [exec_of_error ho]
        exact ⟨[], trivial, h⟩
    obtain ⟨qs, met, related⟩ := one
    obtain ⟨ps, rest, final⟩ := ih related hm.2
    rw [← run_append] at final
    exact ⟨qs ++ ps, meets_append.mpr ⟨met, rest⟩, final⟩

end Runs

end JitaCart.Base.Request
