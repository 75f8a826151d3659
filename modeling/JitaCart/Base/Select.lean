/- module: JitaCart/Base/Select
   source: none (library)
   digest: ORDER BY and LIMIT, where the rows that the order ties may come in any order. -/

import Mathlib.Data.List.Sort
import Mathlib.Data.List.Nodup

set_option autoImplicit false
set_option relaxedAutoImplicit false

namespace JitaCart.Base.Select

variable {α : Type} {r : α → α → Prop}

/-- One way of answering `ORDER BY r`. -/
structure OrderBy (r : α → α → Prop) where
  sort : List α → List α
  perm : ∀ rows, (sort rows).Perm rows
  sorted : ∀ rows, (sort rows).Pairwise r

/-- The order in which an insertion sort leaves the rows. -/
def OrderBy.insertion (r : α → α → Prop) [DecidableRel r] [Std.Total r] [IsTrans α r] :
    OrderBy r :=
  ⟨List.insertionSort r, List.perm_insertionSort r, List.pairwise_insertionSort r⟩

private theorem pairwise_true (rows : List α) : rows.Pairwise fun _ _ => True :=
  List.pairwise_of_forall fun _ _ => trivial

/-- Without an order, the rows may come as they are stored. -/
def OrderBy.stored (α : Type) : OrderBy fun (_ _ : α) => True :=
  ⟨id, List.Perm.refl, pairwise_true⟩

/-- `ORDER BY r LIMIT n`. -/
def OrderBy.limit (order : OrderBy r) (n : Nat) (rows : List α) : List α :=
  (order.sort rows).take n

variable (order : OrderBy r) {n : Nat} {rows : List α}

theorem length_limit : (order.limit n rows).length = min n rows.length := by
  rw [OrderBy.limit, List.length_take, (order.perm rows).length_eq]

theorem mem_of_mem_limit {a : α} (h : a ∈ order.limit n rows) : a ∈ rows :=
  (order.perm rows).mem_iff.mp (List.mem_of_mem_take h)

theorem nodup_limit (h : rows.Nodup) : (order.limit n rows).Nodup :=
  ((order.perm rows).nodup_iff.mpr h).sublist (List.take_sublist n _)

private theorem limit_perm (h : rows.length ≤ n) : (order.limit n rows).Perm rows := by
  rw [OrderBy.limit, List.take_of_length_le ((order.perm rows).length_eq.trans_le h)]
  exact order.perm rows

end JitaCart.Base.Select
