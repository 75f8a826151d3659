/- module: JitaCart/Base/Json
   source: none (library)
   digest: JSON values, and objects whose fields are read by name. -/

import JitaCart.Base.Table
import Mathlib.Data.List.Perm.Basic

set_option autoImplicit false
set_option relaxedAutoImplicit false

namespace JitaCart.Base.Json

open Table

/-- Numbers are integers here. -/
inductive Value
  | null
  | bool (b : Bool)
  | number (n : Int)
  | string (s : String)
  | array (items : List Value)
  | object (fields : List (String × Value))

abbrev Object := List (String × Value)

/-- Values that can be read back. -/
class Field (α : Type) where
  write : α → Value
  read : Value → Option α
  read_write : ∀ a, read (write a) = some a

def Value.text? : Value → Option String
  | .string s => some s
  | _ => none

/-- `i64`, which refuses what does not fit. -/
def Value.i64? : Value → Option Int64
  | .number n => if -2 ^ 63 ≤ n ∧ n < 2 ^ 63 then some (.ofInt n) else none
  | _ => none

/-- `u64`. -/
def Value.u64? : Value → Option UInt64
  | .number n => if 0 ≤ n ∧ n < 2 ^ 64 then some (.ofNat n.toNat) else none
  | _ => none

private theorem i64?_number (n : Int64) : (Value.number n.toInt).i64? = some n := by
  simp only [Value.i64?]
  rw [if_pos ⟨n.le_toInt, n.toInt_lt⟩, Int64.ofInt_toInt]

private theorem u64?_number (n : UInt64) : (Value.number n.toNat).u64? = some n := by
  have small := n.toNat_lt
  simp only [Value.u64?]
  rw [if_pos ⟨by omega, by omega⟩, Int.toNat_natCast, UInt64.ofNat_toNat]

instance : Field String := ⟨.string, Value.text?, fun _ => rfl⟩

instance : Field Int64 := ⟨fun n => .number n.toInt, Value.i64?, i64?_number⟩

instance : Field UInt64 := ⟨fun n => .number n.toNat, Value.u64?, u64?_number⟩

namespace Object

def get? (o : Object) (key : String) : Option Value := (lookup Prod.fst key o).map Prod.snd

def read {α : Type} [Field α] (o : Object) (key : String) : Option α :=
  (o.get? key).bind Field.read

variable {o o' : Object}

theorem read_cons_self {α : Type} [Field α] (key : String) (a : α) (o : Object) :
    Object.read ((key, Field.write a) :: o) key = some a := by
  simp [read, get?, lookup, Field.read_write]

theorem read_cons_ne {α : Type} [Field α] {key key' : String} (v : Value) (o : Object)
    (other : key' ≠ key) : (Object.read ((key', v) :: o) key : Option α) = Object.read o key := by
  simp [read, get?, lookup, other]

private theorem get?_perm (keyed : Keyed Prod.fst o) (same : o'.Perm o) (key : String) :
    o'.get? key = o.get? key := by
  have keyed' : Keyed Prod.fst o' := (same.map Prod.fst).nodup_iff.mpr keyed
  refine congrArg _ (Option.ext fun e => ?_)
  rw [lookup_eq_some keyed, lookup_eq_some keyed', same.mem_iff]

theorem read_perm {α : Type} [Field α] (keyed : Keyed Prod.fst o) (same : o'.Perm o)
    (key : String) : (o'.read key : Option α) = o.read key := by
  unfold read
  rw [get?_perm keyed same]

end Object

end JitaCart.Base.Json
