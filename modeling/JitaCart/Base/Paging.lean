/- module: JitaCart/Base/Paging
   source: none (library)
   digest: A client that pages through rows, newest first, with the last date as its cursor. -/

import JitaCart.Base.Select

set_option autoImplicit false
set_option relaxedAutoImplicit false

namespace JitaCart.Base.Paging

open Select

section Boundaries
variable {κ : Type}

/-- No page of this size ends between two equal dates. -/
def Separated (size : Nat) (dates : List κ) : Prop :=
  ∀ k, 1 ≤ k → k * size < dates.length → dates[k * size - 1]? ≠ dates[k * size]?

private theorem separated_of_length_le {size : Nat} {dates : List κ} (h : dates.length ≤ size) :
    Separated size dates := by
  intro k hk inside
  have whole : 1 * size ≤ k * size := Nat.mul_le_mul_right size hk
  omega

private theorem separated_iff_drop {size : Nat} (positive : 1 ≤ size) {dates : List κ}
    (h : size < dates.length) :
    Separated size dates ↔
      dates[size - 1]? ≠ dates[size]? ∧ Separated size (dates.drop size) := by
  have shift : ∀ k, 1 ≤ k → size + (k * size - 1) = (k + 1) * size - 1 ∧
      size + k * size = (k + 1) * size := by
    intro k hk
    have whole : 1 * size ≤ k * size := Nat.mul_le_mul_right size hk
    rw [Nat.succ_mul]
    omega
  constructor
  · intro separated
    refine ⟨by simpa using separated 1 le_rfl (by omega), fun k hk inside => ?_⟩
    rw [List.length_drop] at inside
    rw [List.getElem?_drop, List.getElem?_drop, (shift k hk).1, (shift k hk).2]
    refine separated (k + 1) (by omega) ?_
    rw [← (shift k hk).2]
    omega
  · rintro ⟨first, later⟩ k hk inside
    obtain rfl | ⟨j, hj, rfl⟩ : k = 1 ∨ ∃ j, 1 ≤ j ∧ k = j + 1 := by
      rcases Nat.lt_or_ge 1 k with more | one
      · exact .inr ⟨k - 1, by omega, by omega⟩
      · exact .inl (by omega)
    · simpa using first
    · have inside' : j * size < (dates.drop size).length := by
        rw [List.length_drop]
        rw [← (shift j hj).2] at inside
        omega
      have differs := later j hj inside'
      rwa [List.getElem?_drop, List.getElem?_drop, (shift j hj).1, (shift j hj).2] at differs

end Boundaries

section Walk
variable {β κ ε : Type} {fetch : Nat → Option κ → Except ε (List β)} {date : β → κ}

/-- Fetch pages until one is empty; the cursor is the date of the last entry. `fuel` bounds the
number of calls, and calls are numbered. -/
def walk (fetch : Nat → Option κ → Except ε (List β)) (date : β → κ) :
    Nat → Nat → Option κ → Except ε (Option (List β))
  | 0, _, _ => .ok none
  | fuel + 1, call, before => do
    let page ← fetch call before
    match page.getLast? with
    | none => .ok (some [])
    | some last =>
      let rest ← walk fetch date fuel (call + 1) (some (date last))
      .ok (rest.map fun entries => page ++ entries)

private theorem walk_of_empty {fuel call : Nat} {before : Option κ}
    (h : fetch call before = .ok []) :
    walk fetch date (fuel + 1) call before = .ok (some []) := by
  rw [walk, h]
  rfl

private theorem walk_of_page {fuel call : Nat} {before : Option κ} {page rest : List β} {last : β}
    (h : fetch call before = .ok page) (hlast : page.getLast? = some last)
    (hrest : walk fetch date fuel (call + 1) (some (date last)) = .ok (some rest)) :
    walk fetch date (fuel + 1) call before = .ok (some (page ++ rest)) := by
  rw [walk, h]
  simp only [bind, Except.bind, hlast, hrest, Option.map_some]

end Walk

variable {α β κ ε : Type} [LinearOrder κ]

/-- `ORDER BY date DESC`. -/
def Newest (date : α → κ) (a b : α) : Prop := date b ≤ date a

instance (date : α → κ) : DecidableRel (Newest date) := fun a b =>
  inferInstanceAs (Decidable (date b ≤ date a))

instance (date : α → κ) : Std.Total (Newest date) := ⟨fun a b => le_total (date b) (date a)⟩

instance (date : α → κ) : IsTrans α (Newest date) := ⟨fun _ _ _ hab hbc => hbc.trans hab⟩

def remaining (date : α → κ) (rows : List α) (before : Option κ) : List α :=
  rows.filter fun a => before.all fun cursor => decide (date a < cursor)

/-- Each call answers with a page of the remaining rows, in an order of its own. -/
def Pages (fetch : Nat → Option κ → Except ε (List β)) (size : Nat) (date : α → κ) (f : α → β)
    (rows : List α) : Prop :=
  ∀ call before, ∃ order : OrderBy (Newest date),
    fetch call before = .ok ((order.limit size (remaining date rows before)).map f)

def newestDates (date : α → κ) (rows : List α) : List κ := (rows.map date).insertionSort (· ≥ ·)


variable {date : α → κ} {rows : List α}

private theorem all_before {before : Option κ} {d : κ} :
    (before.all fun cursor => decide (d < cursor)) = true ↔ ∀ cursor ∈ before, d < cursor := by
  cases before <;> simp

private theorem mem_remaining {before : Option κ} {a : α} :
    a ∈ remaining date rows before ↔ a ∈ rows ∧ ∀ cursor ∈ before, date a < cursor := by
  unfold remaining
  rw [List.mem_filter, all_before]

private theorem remaining_of_lt {before : Option κ} {cursor : κ} (h : ∀ c ∈ before, cursor < c) :
    remaining date rows (some cursor) =
      (remaining date rows before).filter fun a => decide (date a < cursor) := by
  unfold remaining
  rw [List.filter_filter]
  refine List.filter_congr fun a _ => ?_
  rw [Option.all_some, Bool.eq_iff_iff, Bool.and_eq_true, decide_eq_true_eq, all_before]
  exact ⟨fun less => ⟨less, fun c hc => less.trans (h c hc)⟩, And.left⟩

private theorem newestDates_eq_of_perm {sorted : List α} (perm : sorted.Perm rows)
    (newest : sorted.Pairwise (Newest date)) : newestDates date rows = sorted.map date := by
  have inOrder : (newestDates date rows).Pairwise (· ≥ ·) := List.pairwise_insertionSort _ _
  have descending : (sorted.map date).Pairwise (· ≥ ·) := List.pairwise_map.mpr newest
  refine List.Perm.eq_of_pairwise (fun _ _ _ _ hab hba => le_antisymm hba hab) inOrder
    descending ?_
  exact (List.perm_insertionSort _ _).trans (perm.map date).symm

section Walks
variable {fetch : Nat → Option κ → Except ε (List β)} {f : α → β} {date' : β → κ} {size : Nat}

/-- What is older than the last row of a page is the rest of the order, unless the next row is as
old as the last one. -/
private theorem filter_older {head tail : List α} {last : α}
    (newest : (head ++ last :: tail).Pairwise (Newest date))
    (next : ∀ a ∈ tail, date a < date last) :
    (head ++ last :: tail).filter (fun a => decide (date a < date last)) = tail := by
  obtain ⟨_, _, ordered⟩ := List.pairwise_append.mp newest
  have gone : head.filter (fun a => decide (date a < date last)) = [] := by
    refine List.filter_eq_nil_iff.mpr fun a ha => ?_
    have newer : date last ≤ date a := ordered a ha last (List.mem_cons_self ..)
    simpa using newer
  have kept : tail.filter (fun a => decide (date a < date last)) = tail :=
    List.filter_eq_self.mpr fun a ha => decide_eq_true (next a ha)
  rw [List.filter_append, gone, List.filter_cons, kept]
  simp

/-- After a first page `head ++ [last]`, the pages that follow receive the rest of the order
exactly when no page ends between two equal dates. -/
private theorem rest_perm_iff (render : ∀ a, date' (f a) = date a) {head tail older : List α}
    {last : α} {rest : List β} (newest : (head ++ last :: tail).Pairwise (Newest date))
    (full : tail ≠ [] → head.length + 1 = size) (short : head.length + 1 ≤ size)
    (left : older.Perm ((head ++ last :: tail).filter fun a => decide (date a < date last)))
    (within : ∀ b ∈ rest, ∃ a ∈ older, f a = b)
    (exact_ : rest.Perm (older.map f) ↔ Separated size (newestDates date older)) :
    rest.Perm (tail.map f) ↔ Separated size ((head ++ last :: tail).map date) := by
  obtain ⟨_, ordered, _⟩ := List.pairwise_append.mp newest
  obtain ⟨hlast, htail⟩ := List.pairwise_cons.mp ordered
  by_cases next : ∀ a ∈ tail, date a < date last
  · -- the page ends between two dates, or it is the last one
    rw [filter_older newest next] at left
    rw [newestDates_eq_of_perm left.symm htail, (left.map f).congr_right] at exact_
    rw [exact_]
    cases tail with
    | nil =>
      have whole : ((head ++ [last]).map date).length ≤ size := by simpa using short
      exact ⟨fun _ => separated_of_length_le whole,
        fun _ => separated_of_length_le (Nat.zero_le _)⟩
    | cons a tail =>
      have size_eq := full (List.cons_ne_nil _ _)
      have positive : 1 ≤ size := by omega
      have longer : size < ((head ++ last :: a :: tail).map date).length := by
        simp only [List.length_map, List.length_append, List.length_cons]
        omega
      have drop : ((head ++ last :: a :: tail).map date).drop size = (a :: tail).map date := by
        rw [List.append_cons, List.map_append]
        exact List.drop_left' (by simpa using size_eq)
      have boundary : ((head ++ last :: a :: tail).map date)[size - 1]? ≠
          ((head ++ last :: a :: tail).map date)[size]? := by
        rw [← size_eq]
        simpa using (next a (List.mem_cons_self ..)).ne'
      rw [separated_iff_drop positive longer, drop]
      exact ⟨fun separated => ⟨boundary, separated⟩, And.right⟩
  · -- the row after the page is as old as its last one, and no later page has it
    cases tail with
    | nil => exact absurd (by simp) next
    | cons a tail =>
      have size_eq := full (List.cons_ne_nil _ _)
      have tied : date a = date last := by
        refine le_antisymm (hlast a (List.mem_cons_self ..)) (not_lt.mp fun less => next ?_)
        intro b hb
        rcases List.mem_cons.mp hb with rfl | hb
        · exact less
        · exact lt_of_le_of_lt ((List.pairwise_cons.mp htail).1 b hb) less
      constructor
      · intro received
        obtain ⟨b, hb, same⟩ :=
          within (f a) (received.mem_iff.mpr (List.mem_map_of_mem (List.mem_cons_self ..)))
        have less : date b < date last := by
          simpa using (List.mem_filter.mp (left.mem_iff.mp hb)).2
        rw [← render b, same, render a, tied] at less
        exact absurd less (lt_irrefl _)
      · intro separated
        have differs := separated 1 le_rfl (by
          simp only [List.length_map, List.length_append, List.length_cons]
          omega)
        rw [Nat.one_mul, ← size_eq] at differs
        exact absurd tied.symm (by simpa using differs)

/-- A walk ends, stays within the remaining rows, and receives all of them once exactly when no
page ends between two equal dates. The induction is on the fuel, for every cursor. -/
theorem walk_spec (pages : Pages fetch size date f rows) (render : ∀ a, date' (f a) = date a)
    (positive : 1 ≤ size) (fuel call : Nat) (before : Option κ)
    (enough : (remaining date rows before).length < fuel) :
    ∃ received, walk fetch date' fuel call before = .ok (some received) ∧
      (∀ b ∈ received, ∃ a ∈ remaining date rows before, f a = b) ∧
      (received.Perm ((remaining date rows before).map f) ↔
        Separated size (newestDates date (remaining date rows before))) := by
  induction fuel generalizing call before with
  | zero => omega
  | succ fuel ih =>
    obtain ⟨order, hfetch⟩ := pages call before
    set left := remaining date rows before with hleft
    set sorted := order.sort left with hsorted
    have perm : sorted.Perm left := order.perm left
    have newest : sorted.Pairwise (Newest date) := order.sorted left
    have hpage : order.limit size left = sorted.take size := rfl
    rw [hpage] at hfetch
    rcases List.eq_nil_or_concat' (sorted.take size) with htake | ⟨head, last, htake⟩
    · -- an empty page: nothing is left
      have nil : left = [] := by
        rcases List.take_eq_nil_iff.mp htake with zero | empty
        · omega
        · exact List.nil_perm.mp (empty ▸ perm)
      rw [htake] at hfetch
      rw [nil]
      exact ⟨[], walk_of_empty hfetch, by simp,
        fun _ => separated_of_length_le (Nat.zero_le _), fun _ => .refl _⟩
    · have split : sorted = head ++ last :: sorted.drop size := by
        rw [← List.singleton_append, ← List.append_assoc, ← htake, List.take_append_drop]
      have hmem : last ∈ left := perm.mem_iff.mp (split ▸ by simp)
      have cursor : remaining date rows (some (date last)) =
          left.filter fun a => decide (date a < date last) :=
        remaining_of_lt (mem_remaining.mp hmem).2
      have fewer : (remaining date rows (some (date last))).length < left.length := by
        rw [cursor]
        exact List.length_filter_lt_length_iff_exists.mpr ⟨last, hmem, by simp⟩
      obtain ⟨rest, hwalk, within, exact_⟩ :=
        ih (call + 1) (some (date last)) (fewer.trans_le (Nat.lt_succ_iff.mp enough))
      have hlast : ((sorted.take size).map f).getLast? = some (f last) := by
        rw [htake, List.map_append]
        simp
      rw [← render last] at hwalk
      refine ⟨_, walk_of_page hfetch hlast hwalk, fun b hb => ?_, ?_⟩
      · rcases List.mem_append.mp hb with hb | hb
        · obtain ⟨a, ha, rfl⟩ := List.mem_map.mp hb
          exact ⟨a, perm.mem_iff.mp (List.mem_of_mem_take ha), rfl⟩
        · obtain ⟨a, ha, rfl⟩ := within b hb
          rw [cursor] at ha
          exact ⟨a, List.mem_of_mem_filter ha, rfl⟩
      · have length : head.length + 1 = min size sorted.length := by
          rw [← List.length_take, htake, List.length_append, List.length_singleton]
        have whole : ((sorted.take size).map f ++ rest).Perm (left.map f) ↔
            rest.Perm ((sorted.drop size).map f) := by
          have parts : sorted.map f = (sorted.take size).map f ++ (sorted.drop size).map f := by
            rw [← List.map_append, List.take_append_drop]
          rw [← (perm.map f).congr_right, parts, List.perm_append_left_iff]
        rw [whole, newestDates_eq_of_perm perm newest]
        conv_rhs => rw [split]
        refine rest_perm_iff render (split ▸ newest) (fun more => ?_) (by omega) ?_ within exact_
        · have inside : size < sorted.length := by
            by_contra short
            exact more (List.drop_eq_nil_iff.mpr (by omega))
          omega
        · rw [cursor, ← split]
          exact (perm.filter _).symm

end Walks

end JitaCart.Base.Paging
