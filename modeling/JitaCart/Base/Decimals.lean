/- module: JitaCart/Base/Decimals
   source: none (library)
   digest: Decimals with a 96-bit mantissa, and what their arithmetic guarantees. -/

import JitaCart.Base.Numeric
import Mathlib.Tactic.FieldSimp
import Mathlib.Tactic.Ring

/-!
`rust_decimal` is a parameter: an `Arithmetic` whose operations return nothing where
the operators of the crate panic. What its documentation promises is `Documented`. A
result that does not fit is rounded to fewer digits, down to none after the point.
-/

set_option autoImplicit false
set_option relaxedAutoImplicit false

namespace JitaCart.Base.Decimals

open Numeric

structure Decimal where
  mantissa : Int
  scale : Nat
  bounded : mantissa.natAbs < 2 ^ 96
  scaled : scale ≤ 28
  deriving DecidableEq

def Decimal.value (d : Decimal) : ℚ := d.mantissa / 10 ^ d.scale

def Decimal.zero : Decimal := ⟨0, 0, by decide, by decide⟩

@[simp] theorem value_zero : Decimal.zero.value = 0 := by
  simp [Decimal.value, Decimal.zero]

/-- A number with `scale` digits after the point has a mantissa that fits. -/
def Room (x : ℚ) (scale : Nat) : Prop := |x| * 10 ^ scale < 2 ^ 96

structure Arithmetic where
  mul : Decimal → Decimal → Option Decimal
  add : Decimal → Decimal → Option Decimal

/-- A result with room for all its digits is exact, and any other is rounded to a number of digits
that is not negative. -/
structure Arithmetic.Documented (A : Arithmetic) : Prop where
  mul_exact : ∀ a b, Room (a.value * b.value) (a.scale + b.scale) → a.scale + b.scale ≤ 28 →
    ∃ r, A.mul a b = some r ∧ r.value = a.value * b.value ∧ r.scale ≤ a.scale + b.scale
  add_exact : ∀ a b, Room a.value (max a.scale b.scale) → Room b.value (max a.scale b.scale) →
    Room (a.value + b.value) (max a.scale b.scale) →
    ∃ r, A.add a b = some r ∧ r.value = a.value + b.value ∧ r.scale ≤ max a.scale b.scale
  mul_near : ∀ a b r, A.mul a b = some r → |r.value - a.value * b.value| ≤ 1 / 2
  add_near : ∀ a b r, A.add a b = some r → |r.value - (a.value + b.value)| ≤ 1 / 2

-- An arithmetic that drops as few digits as it has to, ties to even.
/-- `m / 10 ^ e` with `k` digits dropped. -/
def shrink (m : Int) (e k : Nat) : Option Decimal :=
  if h : (roundHalfEven (m / 10 ^ k)).natAbs < 2 ^ 96 ∧ e - k ≤ 28 then
    some ⟨roundHalfEven (m / 10 ^ k), e - k, h.1, h.2⟩
  else none

def pack (m : Int) (e : Nat) : Option Decimal := (List.range (e + 1)).findSome? (shrink m e)

/-- The mantissa at a larger scale. -/
def Decimal.aligned (d : Decimal) (scale : Nat) : Int := d.mantissa * 10 ^ (scale - d.scale)

def reference : Arithmetic where
  mul a b := pack (a.mantissa * b.mantissa) (a.scale + b.scale)
  add a b :=
    let scale := max a.scale b.scale
    pack (a.aligned scale + b.aligned scale) scale

private theorem roundHalfEven_intCast (n : Int) : roundHalfEven n = n := by
  unfold roundHalfEven
  rw [Int.floor_intCast, sub_self, if_pos (.inl (by norm_num))]

private theorem pack_exact {m : Int} {e : Nat} (fits : m.natAbs < 2 ^ 96) (small : e ≤ 28) :
    pack m e = some ⟨m, e, fits, small⟩ := by
  have first : shrink m e 0 = some ⟨m, e, fits, small⟩ := by
    simp only [shrink, pow_zero, div_one, roundHalfEven_intCast, Nat.sub_zero]
    rw [dif_pos ⟨fits, small⟩]
  unfold pack
  rw [List.range_succ_eq_map, List.findSome?_cons, first]

private theorem pack_near {m : Int} {e : Nat} {r : Decimal} (h : pack m e = some r) :
    |r.value - m / 10 ^ e| ≤ 1 / 2 := by
  obtain ⟨k, hk, h⟩ := List.exists_of_findSome?_eq_some h
  have le : k ≤ e := Nat.lt_succ_iff.mp (List.mem_range.mp hk)
  unfold shrink at h
  split at h
  · obtain rfl := Option.some.inj h
    have rounded := abs_roundHalfEven_sub_le ((m : ℚ) / 10 ^ k)
    have power : (1 : ℚ) ≤ 10 ^ (e - k) := one_le_pow₀ (by norm_num)
    have split : (10 : ℚ) ^ e = 10 ^ k * 10 ^ (e - k) := by
      rw [← pow_add, Nat.add_sub_cancel' le]
    have apart : (roundHalfEven (m / 10 ^ k) : ℚ) / 10 ^ (e - k) - m / 10 ^ e =
        (roundHalfEven (m / 10 ^ k) - m / 10 ^ k) / 10 ^ (e - k) := by
      rw [split]
      field_simp
    show |(roundHalfEven (m / 10 ^ k) : ℚ) / 10 ^ (e - k) - m / 10 ^ e| ≤ 1 / 2
    rw [apart, abs_div, abs_of_pos (lt_of_lt_of_le one_pos power)]
    exact (div_le_self (abs_nonneg _) power).trans rounded
  · cases h

private theorem value_aligned (d : Decimal) {scale : Nat} (le : d.scale ≤ scale) :
    (d.aligned scale : ℚ) / 10 ^ scale = d.value := by
  have split : (10 : ℚ) ^ scale = 10 ^ d.scale * 10 ^ (scale - d.scale) := by
    rw [← pow_add, Nat.add_sub_cancel' le]
  unfold Decimal.aligned Decimal.value
  push_cast
  rw [split]
  field_simp

private theorem natAbs_lt_of_room {m : Int} {e : Nat} (h : Room (m / 10 ^ e) e) :
    m.natAbs < 2 ^ 96 := by
  unfold Room at h
  rw [abs_div, abs_of_pos (by positivity : (0 : ℚ) < 10 ^ e),
    div_mul_cancel₀ _ (by positivity)] at h
  have cast : ((|m| : ℤ) : ℚ) < ((2 ^ 96 : ℤ) : ℚ) := by
    push_cast
    exact h
  have bound : |m| < 2 ^ 96 := Int.cast_lt.mp cast
  rw [Int.abs_eq_natAbs] at bound
  omega

private theorem value_mul (a b : Decimal) :
    a.value * b.value = ((a.mantissa * b.mantissa : ℤ) : ℚ) / 10 ^ (a.scale + b.scale) := by
  unfold Decimal.value
  push_cast
  rw [pow_add]
  field_simp

private theorem value_add (a b : Decimal) :
    a.value + b.value = ((a.aligned (max a.scale b.scale) +
      b.aligned (max a.scale b.scale) : ℤ) : ℚ) / 10 ^ max a.scale b.scale := by
  push_cast
  rw [add_div, value_aligned a (le_max_left _ _), value_aligned b (le_max_right _ _)]

theorem documented_reference : reference.Documented where
  mul_exact a b room small := by
    rw [value_mul] at room ⊢
    exact ⟨_, pack_exact (natAbs_lt_of_room room) small, rfl, le_refl _⟩
  add_exact a b _ _ room := by
    rw [value_add] at room ⊢
    exact ⟨_, pack_exact (natAbs_lt_of_room room) (max_le a.scaled b.scaled), rfl, le_refl _⟩
  mul_near a b r h := by
    rw [value_mul]
    exact pack_near h
  add_near a b r h := by
    rw [value_add]
    exact pack_near h

end JitaCart.Base.Decimals
