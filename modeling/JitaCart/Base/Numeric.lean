/- module: JitaCart/Base/Numeric
   source: none (library)
   digest: Fixed-point columns, rounding half away from zero, and 64-bit integers. -/

import Mathlib.Algebra.Order.Floor.Ring
import Mathlib.Data.Rat.Floor
import Mathlib.Tactic.Linarith
import Mathlib.Tactic.Positivity

set_option autoImplicit false
set_option relaxedAutoImplicit false

namespace JitaCart.Base.Numeric

/-- Rounding to the nearest integer, ties away from zero, as `numeric` casts do. -/
def roundHalfAway (x : ℚ) : Int :=
  if 0 ≤ x then ⌊x + 1 / 2⌋ else -⌊-x + 1 / 2⌋

/-- Rounding to the nearest integer, ties to even. -/
def roundHalfEven (x : ℚ) : Int :=
  if x - ⌊x⌋ < 1 / 2 ∨ (x - ⌊x⌋ = 1 / 2 ∧ ⌊x⌋ % 2 = 0) then ⌊x⌋ else ⌊x⌋ + 1

/-- `x * 2 ^ k` for an integer `k`. -/
def scaleTwo (x : ℚ) (k : Int) : ℚ :=
  if 0 ≤ k then x * 2 ^ k.toNat else x / 2 ^ (-k).toNat

/-- The exponent `e` with `2 ^ e ≤ |x| < 2 ^ (e + 1)`. -/
def binaryExponent (x : ℚ) : Int :=
  let e : Int := Nat.log2 x.num.natAbs - Nat.log2 x.den
  if scaleTwo 1 e ≤ |x| then e else e - 1

/-- The nearest binary64 value of a number in the normal range: 53 significant bits. -/
def toF64 (x : ℚ) : ℚ :=
  if x = 0 then 0
  else
    let e := binaryExponent x
    scaleTwo (roundHalfEven (scaleTwo x (52 - e))) (e - 52)

/-- A decimal rounded to `places` fractional digits and read in units of the last one. -/
def toScale (places : Nat) (x : ℚ) : Int := roundHalfAway (x * 10 ^ places)

/-- A `numeric(p, s)` column holds `n` units of its last digit when they have at most `p` digits. -/
def Fits (p : Nat) (n : Int) : Prop := n.natAbs < 10 ^ p

instance (p : Nat) (n : Int) : Decidable (Fits p n) :=
  inferInstanceAs (Decidable (n.natAbs < 10 ^ p))

/-- The largest value of a signed 64-bit integer. -/
def i64Max : Int := 9223372036854775807

/-- Two's-complement wrap-around of a 64-bit addition built without overflow checks. -/
def wrapI64 (x : Int) : Int := Int.bmod x (2 ^ 64)

/-- The value range of `bigint`. -/
def FitsBigint (x : Int) : Prop := -i64Max - 1 ≤ x ∧ x ≤ i64Max

instance (x : Int) : Decidable (FitsBigint x) :=
  inferInstanceAs (Decidable (-i64Max - 1 ≤ x ∧ x ≤ i64Max))

theorem wrapI64_of_fits {x : Int} (h : FitsBigint x) : wrapI64 x = x := by
  obtain ⟨hlo, hhi⟩ := h
  unfold i64Max at hlo hhi
  unfold wrapI64
  apply Int.bmod_eq_of_le <;> norm_num <;> omega

theorem roundHalfAway_nonneg {x : ℚ} (h : 0 ≤ x) : 0 ≤ roundHalfAway x := by
  unfold roundHalfAway
  rw [if_pos h]
  apply Int.floor_nonneg.mpr
  linarith

theorem roundHalfAway_intCast (n : Int) : roundHalfAway n = n := by
  have floor : ∀ m : Int, ⌊(m : ℚ) + 1 / 2⌋ = m := fun m => by
    rw [Int.floor_intCast_add]
    norm_num
  unfold roundHalfAway
  split
  · exact floor n
  · have flipped := floor (-n)
    push_cast at flipped
    omega

/-- Rounding to the nearest integer moves a number by half a unit at most. -/
theorem abs_roundHalfEven_sub_le (x : ℚ) : |(roundHalfEven x : ℚ) - x| ≤ 1 / 2 := by
  have below : (⌊x⌋ : ℚ) ≤ x := Int.floor_le x
  have above : x < ⌊x⌋ + 1 := Int.lt_floor_add_one x
  unfold roundHalfEven
  rw [abs_le]
  split
  · rename_i down
    have half : x - ⌊x⌋ ≤ 1 / 2 := down.elim le_of_lt fun tie => tie.1.le
    constructor <;> linarith
  · rename_i up
    have half : 1 / 2 ≤ x - ⌊x⌋ := by
      by_contra less
      exact up (.inl (not_le.mp less))
    push_cast
    constructor <;> linarith

/-- The errors of rounding the terms of a sum add up to half a unit each at most. -/
theorem abs_sum_roundHalfEven_sub_le {α : Type} (f : α → ℚ) (xs : List α) :
    |(((xs.map fun a => roundHalfEven (f a)).sum : Int) : ℚ) - (xs.map f).sum| ≤ xs.length / 2 := by
  induction xs with
  | nil => simp
  | cons a xs ih =>
    simp only [List.map_cons, List.sum_cons, List.length_cons, Nat.cast_add, Nat.cast_one,
      Int.cast_add]
    have head := abs_le.mp (abs_roundHalfEven_sub_le (f a))
    have tail := abs_le.mp ih
    rw [abs_le]
    constructor <;> linarith [head.1, head.2, tail.1, tail.2]

/-- Adding whole units commutes with rounding on the non-negative side. -/
theorem roundHalfAway_int_add {n : Int} {x : ℚ} (hn : 0 ≤ n) (hx : 0 ≤ x) :
    roundHalfAway (n + x) = n + roundHalfAway x := by
  have hn' : (0 : ℚ) ≤ n := by exact_mod_cast hn
  unfold roundHalfAway
  rw [if_pos (by linarith), if_pos hx, add_assoc, Int.floor_intCast_add]

/-- A point where rounding turns lies above the smaller and not above the larger number. -/
def HalfBetween (x y : ℚ) : Prop := ∃ k : ℤ, min x y < k + 1 / 2 ∧ k + 1 / 2 ≤ max x y

private theorem floor_half_eq_iff {x y : ℚ} (h : x ≤ y) :
    ⌊x + 1 / 2⌋ = ⌊y + 1 / 2⌋ ↔ ¬ ∃ k : ℤ, x < k + 1 / 2 ∧ k + 1 / 2 ≤ y := by
  constructor
  · rintro same ⟨k, below, above⟩
    have upper : k + 1 ≤ ⌊y + 1 / 2⌋ := by
      rw [Int.le_floor]
      push_cast
      linarith
    have lower : ⌊x + 1 / 2⌋ < k + 1 := by
      rw [Int.floor_lt]
      push_cast
      linarith
    omega
  · intro none_between
    have grows : ⌊x + 1 / 2⌋ ≤ ⌊y + 1 / 2⌋ := Int.floor_le_floor (by linarith)
    by_contra differ
    refine none_between ⟨⌊y + 1 / 2⌋ - 1, ?_, ?_⟩
    · have above : ⌊x + 1 / 2⌋ < ⌊y + 1 / 2⌋ := by omega
      rw [Int.floor_lt] at above
      push_cast
      linarith
    · have below := Int.floor_le (y + 1 / 2)
      push_cast
      linarith

/-- Two amounts round alike exactly when rounding does not turn between them. -/
theorem roundHalfAway_eq_iff {x y : ℚ} (hx : 0 ≤ x) (hy : 0 ≤ y) :
    roundHalfAway x = roundHalfAway y ↔ ¬ HalfBetween x y := by
  unfold roundHalfAway HalfBetween
  rw [if_pos hx, if_pos hy]
  rcases le_total x y with h | h
  · rw [min_eq_left h, max_eq_right h]
    exact floor_half_eq_iff h
  · rw [min_eq_right h, max_eq_left h, eq_comm]
    exact floor_half_eq_iff h

end JitaCart.Base.Numeric
