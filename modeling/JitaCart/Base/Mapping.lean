/- module: JitaCart/Base/Mapping
   source: none (library)
   digest: Hash maps: the last value inserted under a key is the one that is found. -/

import JitaCart.Base.Table

set_option autoImplicit false
set_option relaxedAutoImplicit false

namespace JitaCart.Base.Mapping

open Table

variable {κ ν : Type} [DecidableEq κ]

/-- The entries of a hash map, in no particular order. -/
abbrev HashMap (κ ν : Type) := List (κ × ν)

def valueAt (k : κ) (m : HashMap κ ν) : Option ν := (lookup Prod.fst k m).map (·.2)

def insert (m : HashMap κ ν) (x : κ × ν) : HashMap κ ν := replace Prod.fst x.1 (some x) m

/-- `into_iter().collect()`, onto what is already there. -/
def insertAll (m : HashMap κ ν) (l : List (κ × ν)) : HashMap κ ν := l.foldl insert m

variable {k : κ} {v : ν} {m : HashMap κ ν} {l : List (κ × ν)}

theorem mem_of_valueAt (h : valueAt k m = some v) : (k, v) ∈ m := by
  obtain ⟨⟨_, _⟩, found, rfl⟩ := Option.map_eq_some_iff.mp h
  obtain ⟨hmem, rfl⟩ := lookup_mem found
  exact hmem

private theorem valueAt_insert (x : κ × ν) :
    valueAt k (insert m x) = if k = x.1 then some x.2 else valueAt k m := by
  unfold valueAt insert
  rw [lookup_replace fun y hy => by rw [Option.some.inj hy]]
  split <;> rfl

theorem mem_insertAll {x : κ × ν} (h : x ∈ insertAll m l) : x ∈ m ∨ x ∈ l := by
  induction l generalizing m with
  | nil => exact .inl h
  | cons y l ih =>
    rcases ih h with hx | hx
    · rcases mem_replace.mp hx with ⟨hx, _⟩ | same
      · exact .inl hx
      · exact .inr (by simp [Option.some.inj same])
    · exact .inr (List.mem_cons_of_mem _ hx)

theorem valueAt_insertAll (agree : ∀ x ∈ l, x.1 = k → x.2 = v)
    (present : valueAt k m = some v ∨ (k, v) ∈ l) : valueAt k (insertAll m l) = some v := by
  induction l generalizing m with
  | nil => exact present.resolve_right List.not_mem_nil
  | cons y l ih =>
    refine ih (fun x hx => agree x (List.mem_cons_of_mem _ hx)) ?_
    rw [valueAt_insert]
    by_cases own : k = y.1
    · rw [if_pos own, agree y (List.mem_cons_self ..) own.symm]
      exact .inl rfl
    · rw [if_neg own]
      refine present.imp_right fun h => ?_
      rcases List.mem_cons.mp h with rfl | h
      · exact absurd rfl own
      · exact h

end JitaCart.Base.Mapping
