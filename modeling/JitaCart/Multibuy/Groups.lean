/- module: JitaCart/Multibuy/Groups
   source: backend/crates/domain/src/multibuy.rs (parse_multibuy)
   digest: The parser groups the item lines by key and reports every other line. -/

import JitaCart.Base.Table
import JitaCart.Domain.Multibuy
import Mathlib.Order.MinMax
import Mathlib.Algebra.Order.Group.Int.Sum

set_option autoImplicit false
set_option relaxedAutoImplicit false

namespace JitaCart.Multibuy

open Base.Strings Base.Grouping Base.Numeric Base.Table Domain.Multibuy

variable (u : CaseTables)

/-- The item that an indexed line gives, under a numbering of the lines. -/
def entryOf (number : Nat → Nat) (line : Text × Nat) : Option Entry :=
  match parseLine u line.1 with
  | some (.ok (name, qty)) => some ⟨number line.2, name, qty⟩
  | _ => none

def failureOf (number : Nat → Nat) (line : Text × Nat) : Option LineError :=
  match parseLine u line.1 with
  | some (.error reason) => some ⟨number line.2, line.1, reason⟩
  | _ => none

def entriesBy (number : Nat → Nat) (input : Text) : List Entry :=
  (lines input).zipIdx.filterMap (entryOf u number)

def failuresBy (number : Nat → Nat) (input : Text) : List LineError :=
  (lines input).zipIdx.filterMap (failureOf u number)

def entries (input : Text) : List Entry := entriesBy u (· + 1) input

def failures (input : Text) : List LineError := failuresBy u (· + 1) input

/-- The keys of items, in order of first occurrence. -/
def keysOf (items : List Entry) : List Text := firsts (items.map fun e => nameKey u e.name)

def rowsOf (items : List Entry) (k : Text) : List Entry :=
  items.filter fun e => decide (nameKey u e.name = k)

/-- The output line of a group: the numbers of its first lines, the name it was first seen with,
and its quantity as far as 64 bits go. -/
def summary (rows : List Entry) : ParsedLine where
  lineNos := (rows.map Entry.lineNo).take 1024
  name := (rows.head?.map Entry.name).getD []
  qty := min ((rows.map Entry.qty).sum) i64Max

/-- The output lines for a list of items. -/
def grouped (items : List Entry) : List ParsedLine :=
  (keysOf u items).map fun k => summary (rowsOf u items k)

section Lines
variable {u}

private theorem parseQty_range {s : Text} {q : Int} (h : parseQty s = some q) :
    0 < q ∧ q ≤ i64Max := by
  unfold parseQty at h
  rw [Option.filter_eq_some_iff] at h
  obtain ⟨parsed, pos⟩ := h
  unfold parseI64 at parsed
  rw [Option.filter_eq_some_iff] at parsed
  obtain ⟨-, fits⟩ := parsed
  simp only [decide_eq_true_eq] at fits pos
  exact ⟨pos, fits.2⟩

theorem parseTabLine_ok {line name : Text} {q : Int} (h : parseTabLine line = .ok (name, q)) :
    ∃ col rest, (line.splitOn '\t').map trim = name :: col :: rest ∧ name ≠ [] ∧
      parseQty col = some q := by
  unfold parseTabLine at h
  split at h
  · rename_i n col rest cols
    split at h
    · cases h
    · split at h
      · rename_i qty parsed
        simp only [Except.ok.injEq, Prod.mk.injEq] at h
        obtain ⟨rfl, rfl⟩ := h
        exact ⟨col, rest, cols, ‹_›, parsed⟩
      · cases h
  · cases h

theorem parseWhitespaceLine_ok {line name : Text} {q : Int}
    (h : parseWhitespaceLine line = .ok (name, q)) :
    ∃ n, n = numericStart (splitWhitespace line) (splitWhitespace line).length ∧
      n ≠ (splitWhitespace line).length ∧ n ≠ 0 ∧
      name = join ' ' ((splitWhitespace line).take n) ∧ name ≠ [] ∧
      parseQty ((splitWhitespace line).getD n []) = some q := by
  unfold parseWhitespaceLine at h
  dsimp only at h
  split at h
  · cases h
  · split at h
    · cases h
    · split at h
      · cases h
      · split at h
        · cases h
        · rename_i inside positive _ qty parsed
          split at h
          · cases h
          · rename_i named
            simp only [Except.ok.injEq, Prod.mk.injEq] at h
            obtain ⟨rfl, rfl⟩ := h
            exact ⟨_, rfl, inside, positive, rfl, named, parsed⟩

private theorem parseLine_eq_none {raw : Text} : parseLine u raw = none ↔ normalized raw = [] := by
  unfold parseLine
  dsimp only
  split
  · simp [*]
  · split
    · split <;> simp [*]
    · simp [*]

theorem parseLine_ok {raw name : Text} {q : Int} (h : parseLine u raw = some (.ok (name, q))) :
    nameKey u name ≠ [] ∧ normalized raw ≠ [] ∧
      if '\t' ∈ normalized raw then parseTabLine (normalized raw) = .ok (name, q)
      else parseWhitespaceLine (normalized raw) = .ok (name, q) := by
  unfold parseLine at h
  dsimp only at h
  split at h
  · cases h
  · rename_i nonempty
    split at h
    · rename_i n x parsed
      split at h
      · cases h
      · rename_i keyed
        simp only [Option.some.injEq, Except.ok.injEq, Prod.mk.injEq] at h
        obtain ⟨rfl, rfl⟩ := h
        refine ⟨keyed, nonempty, ?_⟩
        split
        · rwa [if_pos ‹_›] at parsed
        · rwa [if_neg ‹_›] at parsed
    · cases h

private theorem parseLine_range {raw name : Text} {q : Int}
    (h : parseLine u raw = some (.ok (name, q))) : 0 < q ∧ q ≤ i64Max := by
  obtain ⟨-, -, text⟩ := parseLine_ok h
  split at text
  · obtain ⟨col, rest, -, -, parsed⟩ := parseTabLine_ok text
    exact parseQty_range parsed
  · obtain ⟨n, -, -, -, -, -, parsed⟩ := parseWhitespaceLine_ok text
    exact parseQty_range parsed

theorem entryOf_eq_some {number : Nat → Nat} {line : Text × Nat} {e : Entry} :
    entryOf u number line = some e ↔
      parseLine u line.1 = some (.ok (e.name, e.qty)) ∧ e.lineNo = number line.2 := by
  unfold entryOf
  constructor
  · intro h
    split at h
    · obtain rfl := Option.some.inj h
      exact ⟨‹_›, rfl⟩
    · cases h
  · rintro ⟨parsed, own⟩
    rw [parsed]
    cases e
    simp_all

private theorem failureOf_eq_some {number : Nat → Nat} {line : Text × Nat} {e : LineError} :
    failureOf u number line = some e ↔
      parseLine u line.1 = some (.error e.reason) ∧ e.raw = line.1 ∧
        e.lineNo = number line.2 := by
  unfold failureOf
  constructor
  · intro h
    split at h
    · obtain rfl := Option.some.inj h
      exact ⟨‹_›, rfl, rfl⟩
    · cases h
  · rintro ⟨parsed, raw, own⟩
    rw [parsed]
    cases e
    simp_all

end Lines

section Loop
variable {u}

/-- The groups collect the items, the errors the failures, each in line order. -/
private theorem foldl_step (xs : List (Text × Nat)) (st : State) :
    xs.foldl (step u) st =
      ⟨(xs.filterMap (entryOf u lineNumber)).foldl
          (fun g e => g.add Entry.start ParsedLine.extend (nameKey u e.name) e) st.groups,
        st.errors ++ xs.filterMap (failureOf u lineNumber)⟩ := by
  induction xs generalizing st with
  | nil => simp
  | cons line xs ih =>
    rw [List.foldl_cons, ih]
    rcases parsed : parseLine u line.1 with _ | reason | ⟨name, qty⟩
    · simp [step, entryOf, failureOf, parsed]
    · simp [step, entryOf, failureOf, parsed]
    · simp [step, entryOf, failureOf, parsed]

private theorem extend_summary (rows : List Entry) (e : Entry) (nonempty : rows ≠ [])
    (qty : 0 ≤ e.qty) : (summary rows).extend e = summary (rows ++ [e]) := by
  have first : (rows ++ [e]).head? = rows.head? := List.head?_append_of_ne_nil _ nonempty
  have numbers : (if ((rows.map Entry.lineNo).take 1024).length < maxLineNosPerKey then
      (rows.map Entry.lineNo).take 1024 ++ [e.lineNo] else (rows.map Entry.lineNo).take 1024) =
        ((rows ++ [e]).map Entry.lineNo).take 1024 := by
    rw [List.map_append, List.take_append, List.length_take, List.length_map]
    unfold maxLineNosPerKey
    split
    · rw [List.take_of_length_le (i := 1024 - rows.length)]
      · rfl
      · simp
        omega
    · have full : 1024 - rows.length = 0 := by omega
      simp [full]
  unfold ParsedLine.extend summary
  simp only [first, numbers, saturatingAdd, List.map_append, List.sum_append, List.map_cons,
    List.map_nil, List.sum_cons, List.sum_nil, ParsedLine.mk.injEq, true_and]
  omega

private theorem foldRows_eq_summary {rows : List Entry} (nonempty : rows ≠ [])
    (range : ∀ e ∈ rows, 0 < e.qty ∧ e.qty ≤ i64Max) :
    foldRows Entry.start ParsedLine.extend rows = some (summary rows) := by
  induction rows using List.reverseRecOn with
  | nil => exact absurd rfl nonempty
  | append_singleton rows e ih =>
    rw [foldRows_append]
    have here := range e (by simp)
    by_cases alone : rows = []
    · subst alone
      simp [foldRows, Entry.start, summary, here.2]
    · rw [ih alone fun x hx => range x (List.mem_append_left _ hx)]
      simp only [extend_summary rows e alone here.1.le]

private theorem entry_range {number : Nat → Nat} {input : Text} {e : Entry}
    (h : e ∈ entriesBy u number input) : 0 < e.qty ∧ e.qty ≤ i64Max := by
  obtain ⟨line, -, he⟩ := List.mem_filterMap.mp h
  exact parseLine_range (entryOf_eq_some.mp he).1

theorem rowsOf_ne_nil {items : List Entry} {k : Text} (h : k ∈ keysOf u items) :
    rowsOf u items k ≠ [] := by
  obtain ⟨e, he, rfl⟩ := List.mem_map.mp (mem_firsts.mp h)
  exact List.ne_nil_of_mem (List.mem_filter.mpr ⟨he, decide_eq_true rfl⟩)

theorem parseMultibuy_eq (input : Text) :
    parseMultibuy u input =
      ⟨grouped u (entriesBy u lineNumber input), failuresBy u lineNumber input⟩ := by
  unfold parseMultibuy
  rw [foldl_step]
  have groups := drain_collect (fun e : Entry => nameKey u e.name) Entry.start ParsedLine.extend
    (entriesBy u lineNumber input)
  unfold collect at groups
  simp only [List.nil_append, ParsedMultibuy.mk.injEq]
  have values : ∀ k ∈ keysOf u (entriesBy u lineNumber input),
      foldRows Entry.start ParsedLine.extend (rowsOf u (entriesBy u lineNumber input) k) =
        (some ∘ fun k => summary (rowsOf u (entriesBy u lineNumber input) k)) k :=
    fun k hk => foldRows_eq_summary (rowsOf_ne_nil hk) fun e he =>
      entry_range (List.mem_filter.mp he).1
  refine ⟨groups.trans ((List.filterMap_congr values).trans ?_), rfl⟩
  exact congrFun List.filterMap_eq_map _

private theorem lineNumber_of_lt {idx : Nat} (h : idx < u32Max) : lineNumber idx = idx + 1 := by
  unfold lineNumber
  unfold u32Max at *
  omega

private theorem parseMultibuy_short {input : Text} (short : (lines input).length < 2 ^ 32) :
    parseMultibuy u input = ⟨grouped u (entries u input), failures u input⟩ := by
  have small : ∀ line ∈ (lines input).zipIdx, lineNumber line.2 = line.2 + 1 := by
    intro line hline
    have := (List.getElem?_eq_some_iff.mp (List.mem_zipIdx_iff_getElem?.mp hline)).1
    apply lineNumber_of_lt
    unfold u32Max
    omega
  have items : entriesBy u lineNumber input = entries u input := by
    refine List.filterMap_congr fun line hline => ?_
    simp only [entryOf, small line hline]
  have errors : failuresBy u lineNumber input = failures u input := by
    refine List.filterMap_congr fun line hline => ?_
    simp only [failureOf, small line hline]
  rw [parseMultibuy_eq, items, errors]

/-- The key of a group is the key of the name it was first seen with. -/
private theorem nameKey_summary {items : List Entry} {k : Text} (h : k ∈ keysOf u items) :
    nameKey u (summary (rowsOf u items k)).name = k := by
  obtain ⟨e, rest, rows⟩ := List.exists_cons_of_ne_nil (rowsOf_ne_nil h)
  have first : e ∈ rowsOf u items k := rows ▸ List.mem_cons_self
  unfold summary
  rw [rows]
  simpa using (List.mem_filter.mp first).2

theorem grouped_keyed (items : List Entry) :
    Keyed (fun line : ParsedLine => nameKey u line.name) (grouped u items) := by
  have keys : ((grouped u items).map fun line => nameKey u line.name) = keysOf u items := by
    unfold grouped
    rw [List.map_map]
    exact (List.map_congr_left fun k hk => nameKey_summary hk).trans (List.map_id _)
  unfold Keyed
  rw [keys]
  exact nodup_firsts _

private theorem pairwise_zipIdx (xs : List Text) : xs.zipIdx.Pairwise fun a b => a.2 < b.2 := by
  rw [List.pairwise_iff_getElem]
  intro i j hi hj less
  simpa using less

private theorem entries_sorted (input : Text) :
    (entries u input).Pairwise fun a b => a.lineNo < b.lineNo := by
  refine (pairwise_zipIdx (lines input)).filterMap _ fun a b less e he e' he' => ?_
  rw [(entryOf_eq_some.mp he).2, (entryOf_eq_some.mp he').2]
  omega

private theorem failures_sorted (input : Text) :
    (failures u input).Pairwise fun a b => a.lineNo < b.lineNo := by
  refine (pairwise_zipIdx (lines input)).filterMap _ fun a b less e he e' he' => ?_
  rw [(failureOf_eq_some.mp he).2.2, (failureOf_eq_some.mp he').2.2]
  omega

private theorem keyed_of_sorted {α : Type} {number : α → Nat} {xs : List α}
    (sorted : xs.Pairwise fun a b => number a < number b) : Keyed number xs := by
  unfold Keyed List.Nodup
  rw [List.pairwise_map]
  exact sorted.imp fun less => less.ne

end Loop

section Lookup
variable {u} {input raw : Text} {i : Nat}

private theorem entry_at {e : Entry} (hraw : (lines input)[i]? = some raw)
    (he : e ∈ entries u input)
    (number : e.lineNo = i + 1) : parseLine u raw = some (.ok (e.name, e.qty)) := by
  obtain ⟨line, hline, parsed⟩ := List.mem_filterMap.mp he
  obtain ⟨ok, own⟩ := entryOf_eq_some.mp parsed
  have same : line.2 = i := by omega
  rw [List.mem_zipIdx_iff_getElem?, same, hraw] at hline
  rw [Option.some.inj hline]
  exact ok

private theorem failure_at {e : LineError} (hraw : (lines input)[i]? = some raw)
    (he : e ∈ failures u input) (number : e.lineNo = i + 1) :
    parseLine u raw = some (.error e.reason) := by
  obtain ⟨line, hline, parsed⟩ := List.mem_filterMap.mp he
  obtain ⟨error, -, own⟩ := failureOf_eq_some.mp parsed
  have same : line.2 = i := by omega
  rw [List.mem_zipIdx_iff_getElem?, same, hraw] at hline
  rw [Option.some.inj hline]
  exact error

private theorem filter_number {α : Type} {number : α → Nat} {xs : List α} {a : α}
    (sorted : xs.Pairwise fun a b => number a < number b) (ha : a ∈ xs) :
    xs.filter (fun b => decide (number b = number a)) = [a] :=
  (keyed_of_sorted sorted).filter_eq_singleton ha fun _ _ => decide_eq_true_iff

end Lookup

theorem summary_sound {u : CaseTables} {number : Nat → Nat} {input : Text} {line : ParsedLine}
    (h : line ∈ grouped u (entriesBy u number input)) :
    nameKey u line.name ≠ [] ∧ 0 < line.qty ∧ line.qty ≤ i64Max := by
  obtain ⟨k, hk, rfl⟩ := List.mem_map.mp h
  refine ⟨?_, ?_, min_le_right _ _⟩
  · rw [nameKey_summary hk]
    obtain ⟨e, he, rfl⟩ := List.mem_map.mp (mem_firsts.mp hk)
    obtain ⟨line, -, parsed⟩ := List.mem_filterMap.mp he
    exact (parseLine_ok (entryOf_eq_some.mp parsed).1).1
  · have total : 0 < ((rowsOf u (entriesBy u number input) k).map Entry.qty).sum := by
      refine List.sum_pos _ (fun q hq => ?_) (by simpa using rowsOf_ne_nil hk)
      obtain ⟨e, he, rfl⟩ := List.mem_map.mp hq
      exact (entry_range (List.mem_filter.mp he).1).1
    exact lt_min total (by decide)

private theorem summary_sorted {u : CaseTables} {input : Text} {line : ParsedLine}
    (h : line ∈ grouped u (entries u input)) : line.lineNos.Pairwise (· < ·) := by
  obtain ⟨k, hk, rfl⟩ := List.mem_map.mp h
  have sorted : ((rowsOf u (entries u input) k).map Entry.lineNo).Pairwise (· < ·) := by
    rw [List.pairwise_map]
    exact (entries_sorted input).filter _
  exact sorted.sublist (List.take_sublist _ _)

/-- Where a line of the input went: nowhere, to one group, or to one error. -/
private theorem line_accounted {u : CaseTables} {input raw : Text} {i : Nat}
    (hraw : (lines input)[i]? = some raw) :
    if normalized raw = [] then
      (∀ e ∈ entries u input, e.lineNo ≠ i + 1) ∧ ∀ e ∈ failures u input, e.lineNo ≠ i + 1
    else
      (∃ e line, (entries u input).filter (fun e => decide (e.lineNo = i + 1)) = [e] ∧
        (grouped u (entries u input)).filter
          (fun l => decide (nameKey u l.name = nameKey u e.name)) = [line] ∧
        ∀ e ∈ failures u input, e.lineNo ≠ i + 1) ∨
      ∃ reason, (∀ e ∈ entries u input, e.lineNo ≠ i + 1) ∧
        (failures u input).filter (fun e => decide (e.lineNo = i + 1)) =
          [⟨i + 1, raw, reason⟩] := by
  have mem : (raw, i) ∈ (lines input).zipIdx := List.mem_zipIdx_iff_getElem?.mpr hraw
  rcases parsed : parseLine u raw with _ | reason | ⟨name, qty⟩
  · rw [if_pos (parseLine_eq_none.mp parsed)]
    refine ⟨fun e he number => ?_, fun e he number => ?_⟩
    · rw [entry_at hraw he number] at parsed
      cases parsed
    · rw [failure_at hraw he number] at parsed
      cases parsed
  · rw [if_neg fun blank => by rw [parseLine_eq_none.mpr blank] at parsed; cases parsed]
    have failed : (⟨i + 1, raw, reason⟩ : LineError) ∈ failures u input :=
      List.mem_filterMap.mpr ⟨_, mem, failureOf_eq_some.mpr ⟨parsed, rfl, rfl⟩⟩
    refine .inr ⟨reason, fun e he number => ?_, filter_number (failures_sorted input) failed⟩
    rw [entry_at hraw he number] at parsed
    cases parsed
  · rw [if_neg fun blank => by rw [parseLine_eq_none.mpr blank] at parsed; cases parsed]
    have item : (⟨i + 1, name, qty⟩ : Entry) ∈ entries u input :=
      List.mem_filterMap.mpr ⟨_, mem, entryOf_eq_some.mpr ⟨parsed, rfl⟩⟩
    have known : nameKey u name ∈ keysOf u (entries u input) :=
      mem_firsts.mpr (List.mem_map.mpr ⟨_, item, rfl⟩)
    refine .inl ⟨⟨i + 1, name, qty⟩, summary (rowsOf u (entries u input) (nameKey u name)),
      filter_number (entries_sorted input) item, ?_, fun e he number => ?_⟩
    · refine (grouped_keyed _).filter_eq_singleton (List.mem_map_of_mem known) fun line _ => ?_
      rw [decide_eq_true_eq, nameKey_summary known]
    · rw [failure_at hraw he number] at parsed
      cases parsed

/-- The parser, for every text of fewer than 2^32 lines. The output lines are the item lines grouped
by key in order of first occurrence; numbers ascend, keys differ and are not empty, quantities are
positive. The errors are the failures in line order. A blank line gives nothing; every other line
belongs to exactly one group or gives exactly one error, with its number and text. -/
theorem parseMultibuy_spec (input : Text) (short : (lines input).length < 2 ^ 32) :
    (parseMultibuy u input).lines =
      ((keysOf u (entries u input)).map fun k => summary (rowsOf u (entries u input) k)) ∧
    (parseMultibuy u input).errors = failures u input ∧
    ((parseMultibuy u input).lines.map fun line => nameKey u line.name).Nodup ∧
    (∀ line ∈ (parseMultibuy u input).lines,
      nameKey u line.name ≠ [] ∧ 0 < line.qty ∧ line.lineNos.Pairwise (· < ·)) ∧
    (parseMultibuy u input).errors.Pairwise (fun a b => a.lineNo < b.lineNo) ∧
    ∀ i raw, (lines input)[i]? = some raw →
      if normalized raw = [] then
        (∀ e ∈ entries u input, e.lineNo ≠ i + 1) ∧
          ∀ e ∈ (parseMultibuy u input).errors, e.lineNo ≠ i + 1
      else
        (∃ e line, (entries u input).filter (fun e => decide (e.lineNo = i + 1)) = [e] ∧
          (parseMultibuy u input).lines.filter
            (fun l => decide (nameKey u l.name = nameKey u e.name)) = [line] ∧
          ∀ e ∈ (parseMultibuy u input).errors, e.lineNo ≠ i + 1) ∨
        ∃ reason, (∀ e ∈ entries u input, e.lineNo ≠ i + 1) ∧
          (parseMultibuy u input).errors.filter (fun e => decide (e.lineNo = i + 1)) =
            [⟨i + 1, raw, reason⟩] := by
  rw [parseMultibuy_short short]
  refine ⟨rfl, rfl, grouped_keyed _, fun line hline => ?_, failures_sorted input,
    fun i raw hraw => line_accounted hraw⟩
  obtain ⟨keyed, positive, -⟩ := summary_sound hline
  exact ⟨keyed, positive, summary_sorted hline⟩

/-- One item on two lines, a blank line and a heading. -/
def samplePaste : Text := "Tritanium\t100\nTRITANIUM 250 1.5\n\n# ores".toList

theorem parseMultibuy_spec_samplePaste :
    (lines samplePaste).length < 2 ^ 32 ∧
    (parseMultibuy asciiTables samplePaste).lines = [⟨[1, 2], "Tritanium".toList, 350⟩] ∧
    (parseMultibuy asciiTables samplePaste).errors =
      [⟨4, "# ores".toList, "no trailing quantity column found"⟩] := by
  obtain ⟨groups, errors, -⟩ :=
    parseMultibuy_spec asciiTables samplePaste (by decide +kernel)
  exact ⟨by decide +kernel, groups.trans (by decide +kernel), errors.trans (by decide +kernel)⟩

end JitaCart.Multibuy
