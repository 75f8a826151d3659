/- module: JitaCart/Multibuy/RoundTrip
   source: backend/crates/domain/src/multibuy.rs (parse_multibuy)
   digest: What the parser reads, written out and read again, is the same. -/

import JitaCart.Multibuy.Groups

set_option autoImplicit false
set_option relaxedAutoImplicit false

namespace JitaCart.Multibuy

open Base.Strings Base.Grouping Base.Numeric Base.Table Domain.Multibuy

/-- A line with the name, a tab and the quantity. -/
def renderLine (line : ParsedLine) : Text := line.name ++ '\t' :: decimal line.qty.toNat

def render (ls : List ParsedLine) : Text := join '\n' (ls.map renderLine)

/-- What no tokeniser leaves in a name. -/
structure Clean (name : Text) : Prop where
  nonempty : name ≠ []
  trimmed : Trimmed name
  plain : ∀ c ∈ name, c ≠ '\t' ∧ c ≠ '\n' ∧ c ≠ nbsp

section Names

private theorem normalized_plain {raw : Text} (line : ∀ c ∈ raw, c ≠ '\n') :
    ∀ c ∈ normalized raw, c ≠ '\n' ∧ c ≠ nbsp := by
  intro c hc
  obtain ⟨d, hd, rfl⟩ := List.mem_map.mp (mem_of_mem_trim hc)
  split
  · decide
  · exact ⟨line d hd, ‹_›⟩

private theorem parseTabLine_clean {line name : Text} {q : Int}
    (plain : ∀ c ∈ line, c ≠ '\n' ∧ c ≠ nbsp) (h : parseTabLine line = .ok (name, q)) :
    Clean name := by
  obtain ⟨col, rest, cols, nonempty, -⟩ := parseTabLine_ok h
  have first : name ∈ (line.splitOn '\t').map trim := cols ▸ List.mem_cons_self
  obtain ⟨w, hw, rfl⟩ := List.mem_map.mp first
  refine ⟨nonempty, trimmed_trim w, fun c hc => ?_⟩
  obtain ⟨apart, mem⟩ := splitOnP_piece w hw c (mem_of_mem_trim hc)
  exact ⟨by simpa using apart, plain c mem⟩

theorem clean_join {tokens : List Text} (nonempty : tokens ≠ []) (words : ∀ w ∈ tokens, Token w) :
    Clean (join ' ' tokens) := by
  refine ⟨join_ne_nil nonempty words, trimmed_join words, fun c hc => ?_⟩
  rcases mem_join hc with rfl | ⟨w, hw, hc⟩
  · decide
  · have visible := (words w hw).2 c hc
    refine ⟨?_, ?_, ?_⟩ <;> rintro rfl <;> exact absurd visible (by decide)

private theorem parseWhitespaceLine_clean {line name : Text} {q : Int}
    (h : parseWhitespaceLine line = .ok (name, q)) : Clean name := by
  obtain ⟨n, -, -, -, rfl, nonempty, -⟩ := parseWhitespaceLine_ok h
  have tokens : ∀ w ∈ (splitWhitespace line).take n, Token w := fun w hw =>
    (token_of_mem_splitWhitespace (List.mem_of_mem_take hw)).1
  refine clean_join (fun none_left => nonempty ?_) tokens
  rw [none_left]
  rfl

variable {u : CaseTables}

private theorem entry_clean {number : Nat → Nat} {input : Text} {e : Entry}
    (h : e ∈ entriesBy u number input) : Clean e.name := by
  obtain ⟨line, hline, parsed⟩ := List.mem_filterMap.mp h
  have raw : line.1 ∈ lines input :=
    List.mem_of_getElem? (List.mem_zipIdx_iff_getElem?.mp hline)
  have plain := normalized_plain fun c hc => (not_mem_of_mem_lines raw c hc).1
  obtain ⟨-, -, text⟩ := parseLine_ok (entryOf_eq_some.mp parsed).1
  split at text
  · exact parseTabLine_clean plain text
  · exact parseWhitespaceLine_clean text

private theorem grouped_clean {number : Nat → Nat} {input : Text} {line : ParsedLine}
    (h : line ∈ grouped u (entriesBy u number input)) : Clean line.name := by
  obtain ⟨k, hk, rfl⟩ := List.mem_map.mp h
  obtain ⟨e, rest, rows⟩ := List.exists_cons_of_ne_nil (rowsOf_ne_nil hk)
  have first : e ∈ rowsOf u (entriesBy u number input) k := rows ▸ List.mem_cons_self
  have clean := entry_clean (List.mem_filter.mp first).1
  unfold summary
  rw [rows]
  exact clean

end Names

section Lines
variable {u : CaseTables} {name : Text} {q : Nat}

theorem normalized_eq_self {t : Text} (trimmed : Trimmed t) (plain : nbsp ∉ t) :
    normalized t = t := by
  have same : replaceChar nbsp ' ' t = t := by
    refine (List.map_congr_left fun c hc => ?_).trans (List.map_id _)
    rw [if_neg]
    · rfl
    · rintro rfl
      exact plain hc
  unfold normalized
  rw [same, trimmed.trim_eq]

private theorem not_mem_decimal {c : Char} (other : c.isDigit = false) (n : Nat) : c ∉ decimal n :=
  fun h => ne_of_isDigit (isDigit_decimal h) other rfl

theorem parseQty_decimal (pos : 0 < q) (fits : (q : Int) ≤ i64Max) :
    parseQty (decimal q) = some (q : Int) := by
  unfold parseQty
  rw [removeChar_decimal (by decide), parseI64_decimal pos fits]
  simpa using pos

theorem parseTabLine_decimal {rest : Text} (clean : Clean name) (pos : 0 < q)
    (fits : (q : Int) ≤ i64Max) (columns : rest = [] ∨ ∃ more, rest = '\t' :: more) :
    parseTabLine (name ++ '\t' :: (decimal q ++ rest)) = .ok (name, (q : Int)) := by
  have tabs : '\t' ∉ name := fun h => (clean.plain _ h).1 rfl
  have digits : '\t' ∉ decimal q := not_mem_decimal (by decide) q
  obtain ⟨tail, cols⟩ : ∃ tail, (name ++ '\t' :: (decimal q ++ rest)).splitOn '\t' =
      name :: decimal q :: tail := by
    rw [List.splitOn_append_cons_self_of_not_mem tabs]
    rcases columns with rfl | ⟨more, rfl⟩
    · exact ⟨[], by rw [List.append_nil, List.splitOn_eq_singleton digits]⟩
    · exact ⟨_, by rw [List.splitOn_append_cons_self_of_not_mem digits]⟩
  have quantity := parseQty_decimal pos fits
  unfold parseTabLine
  simp only [cols, List.map_cons, clean.trimmed.trim_eq, (token_decimal pos).trimmed.trim_eq,
    quantity, if_neg clean.nonempty]

theorem trimmed_line {sep : Char} {rest : Text} (clean : Clean name) (tail : Trimmed rest)
    (nonempty : rest ≠ []) : Trimmed (name ++ sep :: rest) :=
  clean.trimmed.append tail clean.nonempty nonempty [sep]

private theorem parseLine_renderLine {line : ParsedLine} (clean : Clean line.name)
    (keyed : nameKey u line.name ≠ []) (pos : 0 < line.qty) (fits : line.qty ≤ i64Max) :
    parseLine u (renderLine line) = some (.ok (line.name, line.qty)) := by
  have size : (line.qty.toNat : Int) = line.qty := Int.toNat_of_nonneg pos.le
  have positive : 0 < line.qty.toNat := by omega
  have quantity := token_decimal positive
  have same : normalized (renderLine line) = renderLine line := by
    refine normalized_eq_self (trimmed_line clean quantity.trimmed quantity.1) fun h => ?_
    rcases List.mem_append.mp h with h | h
    · exact (clean.plain _ h).2.2 rfl
    · rcases List.mem_cons.mp h with h | h
      · exact absurd h (by decide)
      · exact not_mem_decimal (by decide) _ h
  have tab : '\t' ∈ renderLine line := by simp [renderLine]
  have nonempty : renderLine line ≠ [] := List.ne_nil_of_mem tab
  have parsed : parseTabLine (renderLine line) = .ok (line.name, line.qty) := by
    have nothing : ([] : Text) = [] ∨ ∃ more, [] = '\t' :: more := .inl rfl
    have := parseTabLine_decimal clean positive (by omega) nothing
    rw [List.append_nil, size] at this
    exact this
  unfold parseLine
  simp only [same, if_neg nonempty, if_pos tab, parsed, if_neg keyed]

end Lines

section Lists
variable {u : CaseTables}

private theorem grouped_of_keyed {items : List Entry}
    (distinct : Keyed (fun e : Entry => nameKey u e.name) items)
    (range : ∀ e ∈ items, e.qty ≤ i64Max) :
    (grouped u items).map (fun line => (line.name, line.qty)) =
      items.map fun e => (e.name, e.qty) := by
  unfold grouped keysOf
  rw [firsts_of_nodup distinct, List.map_map, List.map_map]
  refine List.map_congr_left fun e he => ?_
  have own : rowsOf u items (nameKey u e.name) = [e] :=
    distinct.filter_eq_singleton he fun _ _ => decide_eq_true_iff
  simp only [Function.comp_apply, own, summary, List.head?_cons, Option.map_some, Option.getD_some,
    List.map_cons, List.map_nil, List.sum_cons, List.sum_nil, add_zero, min_eq_left (range e he)]

private theorem lines_render {ls : List ParsedLine}
    (plain : ∀ line ∈ ls, Clean line.name ∧ 0 < line.qty) :
    lines (render ls) = ls.map renderLine := by
  refine lines_join fun row hrow => ?_
  obtain ⟨line, hline, rfl⟩ := List.mem_map.mp hrow
  obtain ⟨clean, pos⟩ := plain line hline
  have positive : 0 < line.qty.toNat := by omega
  refine ⟨by simp [renderLine], fun h => ?_, fun last => ?_⟩
  · rcases List.mem_append.mp h with h | h
    · exact (clean.plain _ h).2.1 rfl
    · rcases List.mem_cons.mp h with h | h
      · exact absurd h (by decide)
      · exact not_mem_decimal (by decide) _ h
  · unfold renderLine at last
    rw [List.getLast?_append_of_ne_nil _ (by simp),
      List.getLast?_cons_of_ne_nil (decimal_ne_nil positive)] at last
    exact not_mem_decimal (by decide) _ (List.mem_of_getLast? last)

private theorem entries_render {number : Nat → Nat} {ls : List ParsedLine}
    (good : ∀ line ∈ ls, Clean line.name ∧ nameKey u line.name ≠ [] ∧ 0 < line.qty ∧
      line.qty ≤ i64Max) :
    entriesBy u number (render ls) =
        ls.zipIdx.map (fun p => ⟨number p.2, p.1.name, p.1.qty⟩) ∧
      failuresBy u number (render ls) = [] := by
  have parsed : ∀ p ∈ ls.zipIdx, parseLine u (renderLine p.1) = some (.ok (p.1.name, p.1.qty)) := by
    intro p hp
    obtain ⟨clean, keyed, pos, fits⟩ :=
      good p.1 (List.mem_of_getElem? (List.mem_zipIdx_iff_getElem?.mp hp))
    exact parseLine_renderLine clean keyed pos fits
  unfold entriesBy failuresBy
  rw [lines_render fun line hline => ⟨(good line hline).1, (good line hline).2.2.1⟩,
    List.zipIdx_map, List.filterMap_map, List.filterMap_map]
  constructor
  · refine (List.filterMap_congr (g := some ∘ fun p => ⟨number p.2, p.1.name, p.1.qty⟩)
      fun p hp => ?_).trans (congrFun List.filterMap_eq_map _)
    exact entryOf_eq_some.mpr ⟨parsed p hp, rfl⟩
  · refine List.filterMap_eq_nil_iff.mpr fun p hp => ?_
    simp only [Function.comp_apply, failureOf, Prod.map_fst, parsed p hp]

end Lists

/-- Round trip: the lines that the parser returns for any text, written as name, tab and quantity
and parsed again, give no error and the same names and quantities in the same order. -/
theorem parse_render_parse (u : CaseTables) (s : Text) :
    (parseMultibuy u (render (parseMultibuy u s).lines)).errors = [] ∧
      (parseMultibuy u (render (parseMultibuy u s).lines)).lines.map
          (fun line => (line.name, line.qty)) =
        (parseMultibuy u s).lines.map fun line => (line.name, line.qty) := by
  rw [parseMultibuy_eq s]
  dsimp only
  have good : ∀ line ∈ grouped u (entriesBy u lineNumber s), Clean line.name ∧
      nameKey u line.name ≠ [] ∧ 0 < line.qty ∧ line.qty ≤ i64Max :=
    fun line hline => ⟨grouped_clean hline, summary_sound hline⟩
  have distinct := grouped_keyed (u := u) (entriesBy u lineNumber s)
  generalize grouped u (entriesBy u lineNumber s) = ls at good distinct ⊢
  obtain ⟨items, errors⟩ := @entries_render u lineNumber ls good
  have firsts_eq : ls.zipIdx.map Prod.fst = ls := List.zipIdx_map_fst 0 ls
  have keyed : Keyed (fun e : Entry => nameKey u e.name)
      (ls.zipIdx.map fun p => (⟨lineNumber p.2, p.1.name, p.1.qty⟩ : Entry)) := by
    unfold Keyed at distinct ⊢
    rw [← firsts_eq, List.map_map] at distinct
    rw [List.map_map]
    exact distinct
  rw [parseMultibuy_eq, items, errors]
  refine ⟨rfl, (grouped_of_keyed keyed fun e he => ?_).trans ?_⟩
  · obtain ⟨p, hp, rfl⟩ := List.mem_map.mp he
    exact (good p.1 (List.mem_of_getElem? (List.mem_zipIdx_iff_getElem?.mp hp))).2.2.2
  · conv_rhs => rw [← firsts_eq]
    rw [List.map_map, List.map_map]
    rfl

end JitaCart.Multibuy
