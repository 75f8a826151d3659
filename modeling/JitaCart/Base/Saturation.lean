/- module: JitaCart/Base/Saturation
   source: none (library)
   digest: Sums of integers that stop at two limits, and when their order does not matter. -/

import Mathlib.Algebra.BigOperators.Group.List.Basic
import Mathlib.Algebra.Order.BigOperators.Group.List
import Mathlib.Algebra.Ring.Int.Defs
import Mathlib.Data.Int.Order.Basic
import Mathlib.Order.MinMax

/-!
A saturating sum depends on the order of its terms only where it can meet a limit
and come back: the terms have both signs, and those of one sign pass the limit.
-/

set_option autoImplicit false
set_option relaxedAutoImplicit false

namespace JitaCart.Base.Saturation

/-- The value between the limits that is next to `x`. -/
def clamp (lo hi x : Int) : Int := max (min x hi) lo

def saturatingSum (lo hi start : Int) (vs : List Int) : Int :=
  vs.foldl (fun a v => clamp lo hi (a + v)) start

def gains (vs : List Int) : Int := (vs.map fun v => max v 0).sum

def losses (vs : List Int) : Int := (vs.map fun v => max (-v) 0).sum

/-- All terms have one sign, or the terms of each sign stay within its limit. -/
def Steady (lo hi : Int) (vs : List Int) : Prop :=
  losses vs = 0 ∨ gains vs = 0 ∨ (gains vs ≤ hi ∧ lo ≤ -losses vs)

instance (lo hi : Int) (vs : List Int) : Decidable (Steady lo hi vs) :=
  inferInstanceAs (Decidable (_ ∨ _ ∨ _))

section Terms
variable (v : Int) (vs ws : List Int)

@[simp] theorem gains_nil : gains [] = 0 := rfl

@[simp] theorem losses_nil : losses [] = 0 := rfl

@[simp] theorem gains_cons : gains (v :: vs) = max v 0 + gains vs := by simp [gains]

@[simp] theorem losses_cons : losses (v :: vs) = max (-v) 0 + losses vs := by simp [losses]

private theorem gains_nonneg : 0 ≤ gains vs := by
  induction vs with
  | nil => exact le_refl 0
  | cons v vs ih =>
    rw [gains_cons]
    omega

private theorem losses_nonneg : 0 ≤ losses vs := by
  induction vs with
  | nil => exact le_refl 0
  | cons v vs ih =>
    rw [losses_cons]
    omega

private theorem sum_eq_gains_sub_losses : vs.sum = gains vs - losses vs := by
  induction vs with
  | nil => rfl
  | cons v vs ih =>
    rw [List.sum_cons, gains_cons, losses_cons]
    omega

variable {vs ws}

private theorem gains_perm (h : vs.Perm ws) : gains vs = gains ws := (h.map _).sum_eq

private theorem losses_perm (h : vs.Perm ws) : losses vs = losses ws := (h.map _).sum_eq

theorem steady_perm {lo hi : Int} (h : vs.Perm ws) : Steady lo hi vs ↔ Steady lo hi ws := by
  unfold Steady
  rw [gains_perm h, losses_perm h]

private theorem gains_sublist (h : vs.Sublist ws) : gains vs ≤ gains ws := by
  induction h with
  | slnil => exact le_refl _
  | cons v _ ih =>
    rw [gains_cons]
    omega
  | cons_cons v _ ih =>
    rw [gains_cons, gains_cons]
    omega

private theorem losses_sublist (h : vs.Sublist ws) : losses vs ≤ losses ws := by
  induction h with
  | slnil => exact le_refl _
  | cons v _ ih =>
    rw [losses_cons]
    omega
  | cons_cons v _ ih =>
    rw [losses_cons, losses_cons]
    omega

theorem Steady.sublist {lo hi : Int} (steady : Steady lo hi ws) (h : vs.Sublist ws) :
    Steady lo hi vs := by
  have gain := gains_sublist h
  have loss := losses_sublist h
  have gain_pos := gains_nonneg vs
  have loss_pos := losses_nonneg vs
  unfold Steady at steady ⊢
  omega

end Terms

section Sums
variable {lo hi : Int}

private theorem saturatingSum_append (start : Int) (vs ws : List Int) :
    saturatingSum lo hi start (vs ++ ws) = saturatingSum lo hi (saturatingSum lo hi start vs) ws :=
  List.foldl_append

private theorem saturatingSum_within {start : Int} {vs : List Int} (below : start + gains vs ≤ hi)
    (above : lo ≤ start - losses vs) : saturatingSum lo hi start vs = start + vs.sum := by
  induction vs generalizing start with
  | nil => exact (add_zero start).symm
  | cons v vs ih =>
    rw [gains_cons] at below
    rw [losses_cons] at above
    have gain := gains_nonneg vs
    have loss := losses_nonneg vs
    have exact : clamp lo hi (start + v) = start + v := by
      unfold clamp
      omega
    show saturatingSum lo hi (clamp lo hi (start + v)) vs = start + (v :: vs).sum
    rw [exact, ih (by omega) (by omega), List.sum_cons]
    omega

private theorem saturatingSum_gain {start : Int} {vs : List Int} (low : lo ≤ start)
    (high : start ≤ hi)
    (none_lost : losses vs = 0) : saturatingSum lo hi start vs = min (start + vs.sum) hi := by
  induction vs generalizing start with
  | nil =>
    show start = min (start + 0) hi
    omega
  | cons v vs ih =>
    rw [losses_cons] at none_lost
    have loss := losses_nonneg vs
    have gain := gains_nonneg vs
    have sum := sum_eq_gains_sub_losses vs
    show saturatingSum lo hi (clamp lo hi (start + v)) vs = min (start + (v :: vs).sum) hi
    have next : clamp lo hi (start + v) = min (start + v) hi := by
      unfold clamp
      omega
    rw [next, ih (by omega) (by omega) (by omega), List.sum_cons]
    omega

private theorem saturatingSum_lose {start : Int} {vs : List Int} (low : lo ≤ start)
    (high : start ≤ hi)
    (none_won : gains vs = 0) : saturatingSum lo hi start vs = max (start + vs.sum) lo := by
  induction vs generalizing start with
  | nil =>
    show start = max (start + 0) lo
    omega
  | cons v vs ih =>
    rw [gains_cons] at none_won
    have loss := losses_nonneg vs
    have gain := gains_nonneg vs
    have sum := sum_eq_gains_sub_losses vs
    show saturatingSum lo hi (clamp lo hi (start + v)) vs = max (start + (v :: vs).sum) lo
    have next : clamp lo hi (start + v) = max (start + v) lo := by
      unfold clamp
      omega
    rw [next, ih (by omega) (by omega) (by omega), List.sum_cons]
    omega

variable (lo hi) in
/-- In whatever order, steady terms add up to their sum between the limits. -/
theorem saturatingSum_of_steady (low : lo ≤ 0) (high : 0 ≤ hi) {vs : List Int}
    (steady : Steady lo hi vs) : saturatingSum lo hi 0 vs = clamp lo hi vs.sum := by
  have sum := sum_eq_gains_sub_losses vs
  have gain := gains_nonneg vs
  have loss := losses_nonneg vs
  unfold clamp
  rcases steady with none_lost | none_won | ⟨below, above⟩
  · rw [saturatingSum_gain low high none_lost, zero_add]
    omega
  · rw [saturatingSum_lose low high none_won, zero_add]
    omega
  · rw [saturatingSum_within (by omega) (by omega), zero_add]
    omega

def winning (vs : List Int) : List Int := vs.filter fun v => decide (0 < v)

def losing (vs : List Int) : List Int := vs.filter fun v => !decide (0 < v)

private theorem parts_perm (vs : List Int) : (winning vs ++ losing vs).Perm vs :=
  List.filter_append_perm _ vs

private theorem losses_winning (vs : List Int) : losses (winning vs) = 0 := by
  induction vs with
  | nil => rfl
  | cons v vs ih =>
    unfold winning at ih ⊢
    by_cases pos : 0 < v
    · rw [List.filter_cons_of_pos (by simpa using pos), losses_cons, ih]
      omega
    · rw [List.filter_cons_of_neg (by simpa using pos), ih]

private theorem gains_losing (vs : List Int) : gains (losing vs) = 0 := by
  induction vs with
  | nil => rfl
  | cons v vs ih =>
    unfold losing at ih ⊢
    by_cases pos : 0 < v
    · rw [List.filter_cons_of_neg (by simpa using pos), ih]
    · rw [List.filter_cons_of_pos (by simpa using pos), gains_cons, ih]
      omega

/-- Unsteady terms add up to different values with one sign first and with the other sign first. -/
theorem steady_of_parts (low : lo ≤ 0) (high : 0 ≤ hi) (apart : lo < hi) {vs : List Int}
    (same : saturatingSum lo hi 0 (winning vs ++ losing vs) =
      saturatingSum lo hi 0 (losing vs ++ winning vs)) : Steady lo hi vs := by
  have no_losses := losses_winning vs
  have no_gains := gains_losing vs
  have gain : gains vs = gains (winning vs) + gains (losing vs) := by
    rw [← gains_perm (parts_perm vs)]
    simp [gains]
  have loss : losses vs = losses (winning vs) + losses (losing vs) := by
    rw [← losses_perm (parts_perm vs)]
    simp [losses]
  have sum_won := sum_eq_gains_sub_losses (winning vs)
  have sum_lost := sum_eq_gains_sub_losses (losing vs)
  have gain_pos := gains_nonneg (winning vs)
  have loss_pos := losses_nonneg (losing vs)
  rw [saturatingSum_append, saturatingSum_append, saturatingSum_gain low high no_losses,
    saturatingSum_lose low high no_gains, saturatingSum_lose (by omega) (by omega) no_gains,
    saturatingSum_gain (by omega) (by omega) no_losses] at same
  unfold Steady
  omega

theorem clamp_eq_clamp_iff (apart : lo < hi) {x y : Int} :
    clamp lo hi x = clamp lo hi y ↔ x = y ∨ (hi ≤ x ∧ hi ≤ y) ∨ (x ≤ lo ∧ y ≤ lo) := by
  unfold clamp
  omega

end Sums

end JitaCart.Base.Saturation
