/- module: JitaCart/Base/Cascade
   source: none (library)
   digest: Deletions that take along the rows that refer to what is deleted. -/

import Mathlib.Data.List.Basic

set_option autoImplicit false
set_option relaxedAutoImplicit false

namespace JitaCart.Base.Cascade

variable {α : Type} (depends : α → α → Bool) (t : List α)

/-- The rows that go with those that are `gone`, after so many rounds. -/
def swept : Nat → (α → Bool) → α → Bool
  | 0, gone => gone
  | n + 1, gone => swept n fun r => gone r || t.any fun p => gone p && depends r p

variable {depends t} {gone : α → Bool} {n : Nat}

/-- What holds of the deleted rows, and goes from a row to those that depend on it. -/
theorem swept_induct {Q : α → Prop} (base : ∀ r ∈ t, gone r = true → Q r)
    (step : ∀ r ∈ t, ∀ p ∈ t, Q p → depends r p = true → Q r) :
    ∀ r ∈ t, swept depends t n gone r = true → Q r := by
  induction n generalizing gone with
  | zero => exact base
  | succ n ih =>
    refine ih fun r hr h => ?_
    rcases Bool.or_eq_true_iff.mp h with direct | along
    · exact base r hr direct
    · obtain ⟨p, hp, both⟩ := List.any_eq_true.mp along
      obtain ⟨first, on⟩ := Bool.and_eq_true_iff.mp both
      exact step r hr p hp (base p hp first) on

end JitaCart.Base.Cascade
