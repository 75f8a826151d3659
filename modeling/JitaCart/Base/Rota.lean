/- module: JitaCart/Base/Rota
   source: none (library)
   digest: Turns that go to the first few by a key, and how often anybody is passed over. -/

import Mathlib.Data.List.Sort
import Mathlib.Data.List.Nodup
import Mathlib.Data.List.TakeWhile

/-!
Everybody has a key. Those with the least keys take their turns, and a turn taken
moves its taker behind. Whoever is passed over has had fewer before it each time.
-/

set_option autoImplicit false
set_option relaxedAutoImplicit false

namespace JitaCart.Base.Rota

variable {C K : Type} [LinearOrder K]

def pick (key : C → K) (n : Nat) (ready : List C) : List C :=
  (ready.insertionSort fun a b => key a ≤ key b).take n

/-- How many of the pool come before somebody. -/
def ahead (key : C → K) (pool : List C) (a : C) : Nat :=
  pool.countP fun c => decide (key c < key a)

section Pick
variable {key : C → K} {n : Nat} {ready : List C}

theorem mem_of_mem_pick {a : C} (h : a ∈ pick key n ready) : a ∈ ready :=
  (List.mem_insertionSort _).mp (List.mem_of_mem_take h)

theorem nodup_pick (h : ready.Nodup) : (pick key n ready).Nodup :=
  ((List.perm_insertionSort _ ready).nodup_iff.mpr h).sublist (List.take_sublist n _)

private theorem pairwise_sort (key : C → K) (ready : List C) :
    (ready.insertionSort fun a b => key a ≤ key b).Pairwise fun a b => key a ≤ key b := by
  have total : Std.Total fun a b : C => key a ≤ key b := ⟨fun a b => le_total (key a) (key b)⟩
  have trans : IsTrans C fun a b => key a ≤ key b := ⟨fun _ _ _ => le_trans⟩
  exact List.pairwise_insertionSort _ ready

private theorem pairwise_pick : (pick key n ready).Pairwise fun a b => key a ≤ key b :=
  (pairwise_sort key ready).sublist (List.take_sublist n _)

/-- Whoever was ready and is not picked comes after all that are picked, and these are `n`. -/
theorem passed_over {a : C} (ha : a ∈ ready) (out : a ∉ pick key n ready) :
    (pick key n ready).length = n ∧ ∀ c ∈ pick key n ready, key c ≤ key a := by
  have there : a ∈ ready.insertionSort fun a b => key a ≤ key b :=
    (List.mem_insertionSort _).mpr ha
  have split := List.take_append_drop n (ready.insertionSort fun a b => key a ≤ key b)
  have later : a ∈ (ready.insertionSort fun a b => key a ≤ key b).drop n := by
    rw [← split, List.mem_append] at there
    exact there.resolve_left out
  refine ⟨?_, fun c hc => ?_⟩
  · have rest := List.length_pos_of_mem later
    rw [List.length_drop] at rest
    rw [pick, List.length_take]
    omega
  · have sorted := pairwise_sort key ready
    rw [← split] at sorted
    exact (List.pairwise_append.mp sorted).2.2 c hc a later

/-- Whoever has its turn before `a`, or instead of it, comes before it. -/
theorem le_of_mem_takeWhile [DecidableEq C] {a c : C} (ha : a ∈ ready)
    (hc : c ∈ (pick key n ready).takeWhile fun c => decide (c ≠ a)) : key c ≤ key a := by
  by_cases out : a ∈ pick key n ready
  · have split := List.takeWhile_append_dropWhile (p := fun c => decide (c ≠ a))
      (l := pick key n ready)
    have later : a ∈ (pick key n ready).dropWhile fun c => decide (c ≠ a) := by
      rw [← split, List.mem_append] at out
      refine out.resolve_left fun early => ?_
      simpa using List.mem_takeWhile_imp early
    have sorted : (pick key n ready).Pairwise fun a b => key a ≤ key b := pairwise_pick
    rw [← split] at sorted
    exact (List.pairwise_append.mp sorted).2.2 c hc a later
  · exact (passed_over ha out).2 c (List.takeWhile_subset _ hc)

end Pick

/-- Somebody that came before `a` comes after it now, and the others of the pool stay in place. -/
structure Turn (pool : List C) (a c : C) (key key' : C → K) : Prop where
  taker : c ∈ pool
  before : key c < key a
  after : ¬key' c < key' a
  stays : ∀ d ∈ pool, d ≠ c → key' d = key d
  waits : key' a = key a

theorem Turn.ahead_lt {pool : List C} {a c : C} {key key' : C → K} (t : Turn pool a c key key') :
    ahead key' pool a < ahead key pool a := by
  have still (d : C) (hd : d ∈ pool) (before : decide (key' d < key' a) = true) :
      decide (key d < key a) = true := by
    have other : d ≠ c := fun same => t.after (same ▸ of_decide_eq_true before)
    rwa [t.stays d hd other, t.waits] at before
  obtain ⟨left, right, split⟩ := List.append_of_mem t.taker
  have less (part : List C) (sub : part ⊆ pool) :
      part.countP (fun d => decide (key' d < key' a)) ≤
        part.countP fun d => decide (key d < key a) :=
    List.countP_mono_left fun d hd before => still d (sub hd) before
  have lefts := less left fun d hd => split ▸ List.mem_append_left _ hd
  have rights := less right fun d hd => split ▸ List.mem_append_right _ (List.mem_cons_of_mem c hd)
  unfold ahead
  rw [split, List.countP_append, List.countP_append,
    List.countP_cons_of_neg (by simpa using t.after),
    List.countP_cons_of_pos (by simpa using t.before)]
  omega

theorem ahead_lt_length {pool : List C} {a : C} {key : C → K} (ha : a ∈ pool) :
    ahead key pool a < pool.length := by
  refine lt_of_le_of_ne List.countP_le_length fun all => ?_
  have self := List.countP_eq_length.mp all a ha
  simp at self

end JitaCart.Base.Rota
