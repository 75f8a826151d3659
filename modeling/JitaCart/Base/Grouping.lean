/- module: JitaCart/Base/Grouping
   source: none (library)
   digest: Rows grouped by key in a map with its keys in order of insertion. -/

import Mathlib.Logic.Function.Basic
import Mathlib.Data.List.Induction
import Mathlib.Data.List.Nodup

/-!
A loop that fills a hash map and appends every new key to a vector, and then removes
the keys of the vector from the map one by one, returns one value for each key in
order of first occurrence: the rows of the key, folded.
-/

set_option autoImplicit false
set_option relaxedAutoImplicit false

namespace JitaCart.Base.Grouping

variable {κ α γ : Type} [DecidableEq κ]

/-- The map and the order in which its keys were inserted. -/
structure Groups (κ γ : Type) where
  agg : κ → Option γ
  order : List κ

def Groups.empty : Groups κ γ := ⟨fun _ => none, []⟩

/-- Extend the value of a known key, or insert a new one. -/
def Groups.add (new : α → γ) (more : γ → α → γ) (g : Groups κ γ) (k : κ) (a : α) : Groups κ γ :=
  match g.agg k with
  | some x => { g with agg := Function.update g.agg k (some (more x a)) }
  | none => ⟨Function.update g.agg k (some (new a)), g.order ++ [k]⟩

private theorem Groups.add_agg (new : α → γ) (more : γ → α → γ) (g : Groups κ γ) (k j : κ) (a : α) :
    (g.add new more k a).agg j =
      if j = k then
        some (match g.agg k with
          | some x => more x a
          | none => new a)
      else g.agg j := by
  unfold Groups.add
  cases g.agg k <;> simp only [Function.update_apply]

private theorem Groups.add_order (new : α → γ) (more : γ → α → γ) (g : Groups κ γ) (k : κ) (a : α) :
    (g.add new more k a).order = if g.agg k = none then g.order ++ [k] else g.order := by
  unfold Groups.add
  cases g.agg k <;> simp

/-- Remove the keys from the map and collect what was there. -/
def drain : List κ → (κ → Option γ) → List γ
  | [], _ => []
  | k :: ks, agg =>
    match agg k with
    | some x => x :: drain ks (Function.update agg k none)
    | none => drain ks agg

def foldRows (new : α → γ) (more : γ → α → γ) : List α → Option γ
  | [] => none
  | a :: as => some (as.foldl more (new a))

theorem foldRows_append (new : α → γ) (more : γ → α → γ) (as : List α) (a : α) :
    foldRows new more (as ++ [a]) =
      some (match foldRows new more as with
        | some x => more x a
        | none => new a) := by
  cases as with
  | nil => rfl
  | cons b bs => simp [foldRows, List.foldl_append]

/-- The keys in order of first occurrence. -/
def firsts (ks : List κ) : List κ := ks.eraseDups

@[simp] theorem mem_firsts {ks : List κ} {k : κ} : k ∈ firsts ks ↔ k ∈ ks := List.mem_eraseDups

private theorem firsts_append_singleton (ks : List κ) (k : κ) :
    firsts (ks ++ [k]) = if k ∈ ks then firsts ks else firsts ks ++ [k] := by
  unfold firsts
  rw [List.eraseDups_append, List.cons_removeAll, List.nil_removeAll]
  by_cases h : k ∈ ks
  · simp [h]
  · simp [h, List.eraseDups_cons]

theorem nodup_firsts (ks : List κ) : (firsts ks).Nodup := by
  induction ks using List.reverseRecOn with
  | nil => exact List.nodup_nil
  | append_singleton ks k ih =>
    rw [firsts_append_singleton]
    split
    · exact ih
    · rename_i fresh
      rw [List.nodup_append]
      refine ⟨ih, List.nodup_singleton k, ?_⟩
      intro a ha b hb
      rw [List.mem_singleton.mp hb]
      rintro rfl
      exact fresh (mem_firsts.mp ha)

theorem firsts_of_nodup {ks : List κ} (nodup : ks.Nodup) : firsts ks = ks := by
  induction ks using List.reverseRecOn with
  | nil => rfl
  | append_singleton ks k ih =>
    rw [List.nodup_append] at nodup
    have fresh : k ∉ ks := fun h => nodup.2.2 k h k List.mem_cons_self rfl
    rw [firsts_append_singleton, if_neg fresh, ih nodup.1]

section Fold
variable (key : α → κ) (new : α → γ) (more : γ → α → γ)

def collect (xs : List α) : Groups κ γ :=
  xs.foldl (fun g a => g.add new more (key a) a) .empty

/-- The loop invariant: the map holds the folded rows of each key, the order its keys. -/
private theorem collect_spec (xs : List α) :
    (∀ k, (collect key new more xs).agg k =
      foldRows new more (xs.filter fun a => decide (key a = k))) ∧
    (collect key new more xs).order = firsts (xs.map key) := by
  induction xs using List.reverseRecOn with
  | nil => exact ⟨fun _ => rfl, rfl⟩
  | append_singleton xs a ih =>
    obtain ⟨agg, order⟩ := ih
    have step : collect key new more (xs ++ [a]) =
        (collect key new more xs).add new more (key a) a := by
      simp [collect, List.foldl_append]
    have known : (collect key new more xs).agg (key a) = none ↔ key a ∉ xs.map key := by
      rw [agg]
      cases rows : xs.filter fun b => decide (key b = key a) with
      | nil =>
        rw [List.filter_eq_nil_iff] at rows
        simpa [foldRows] using rows
      | cons b bs =>
        have hb : b ∈ xs.filter fun b => decide (key b = key a) := rows ▸ List.mem_cons_self
        simp only [List.mem_filter, decide_eq_true_eq] at hb
        simp only [foldRows, reduceCtorEq, false_iff, not_not]
        exact List.mem_map.mpr ⟨b, hb.1, hb.2⟩
    rw [step, List.map_append, List.map_cons, List.map_nil, firsts_append_singleton]
    refine ⟨fun k => ?_, ?_⟩
    · rw [Groups.add_agg]
      by_cases own : k = key a
      · rw [if_pos own, own, List.filter_append, List.filter_cons_of_pos (by simp),
          List.filter_nil, foldRows_append, ← agg]
      · rw [if_neg own, List.filter_append, List.filter_cons_of_neg (by simpa using Ne.symm own),
          List.filter_nil, List.append_nil]
        exact agg k
    · simp only [Groups.add_order, known, order, ite_not]

private theorem drain_eq {ks : List κ} {agg : κ → Option γ} (nodup : ks.Nodup) :
    drain ks agg = ks.filterMap agg := by
  induction ks generalizing agg with
  | nil => rfl
  | cons k ks ih =>
    obtain ⟨fresh, rest⟩ := List.nodup_cons.mp nodup
    cases value : agg k with
    | none => simp only [drain, value, List.filterMap_cons_none value, ih rest]
    | some x =>
      simp only [drain, value, List.filterMap_cons_some value, ih rest, List.cons.injEq, true_and]
      refine List.filterMap_congr fun j hj => ?_
      have other : j ≠ k := by
        rintro rfl
        exact fresh hj
      exact Function.update_of_ne other _ _

/-- The grouping: one value for each key, in order of first occurrence. -/
theorem drain_collect (xs : List α) :
    drain (collect key new more xs).order (collect key new more xs).agg =
      (firsts (xs.map key)).filterMap fun k =>
        foldRows new more (xs.filter fun a => decide (key a = k)) := by
  obtain ⟨agg, order⟩ := collect_spec key new more xs
  rw [order, drain_eq (nodup_firsts _)]
  exact List.filterMap_congr fun k _ => agg k

end Fold

end JitaCart.Base.Grouping
