/- module: JitaCart/Multibuy/Formats
   source: backend/crates/domain/src/multibuy.rs (is_numeric_token, parse_whitespace_line)
   digest: When a line with spaces and a line with tabs give the same item. -/

import JitaCart.Multibuy.RoundTrip

/-!
The whitespace format ends a name before the run of trailing numbers. Words such as `NaN`,
`Infinity` or `1e5` are numbers for the float parser, so a name that ends in one of
them is cut short there, while the tab format takes the column as it stands.
-/

set_option autoImplicit false
set_option relaxedAutoImplicit false

namespace JitaCart.Multibuy

open Base.Strings Base.Grouping Base.Numeric Base.Table Domain.Multibuy

/-- Name, quantity and further columns, separated by spaces. -/
def spaceLine (tokens : List Text) (q : Nat) (cols : List Text) : Text :=
  join ' ' (tokens ++ decimal q :: cols)

/-- Name, quantity and further columns, separated by tabs. -/
def tabLine (tokens : List Text) (q : Nat) (cols : List Text) : Text :=
  join '\t' (join ' ' tokens :: decimal q :: cols)

/-- A text that gives one item on its first line and no error. -/
def GivesItem (u : CaseTables) (input name : Text) (q : Nat) : Prop :=
  parseMultibuy u input = ⟨[⟨[1], name, q⟩], []⟩

instance (u : CaseTables) (input name : Text) (q : Nat) : Decidable (GivesItem u input name q) :=
  inferInstanceAs (Decidable (parseMultibuy u input = ⟨[⟨[1], name, q⟩], []⟩))

section OneLine
variable {u : CaseTables} {line name : Text} {q : Nat}

private theorem lines_single (visible : Trimmed line) (nonempty : line ≠ []) (plain : '\n' ∉ line) :
    lines line = [line] := by
  have rows := @lines_join [line] fun row hrow => by
    rw [List.mem_singleton.mp hrow]
    refine ⟨nonempty, plain, fun last => ?_⟩
    exact absurd (visible.2 '\r' last) (by decide)
  rwa [join_singleton] at rows

private theorem givesItem_iff (one : lines line = [line]) :
    GivesItem u line name q ↔ parseLine u line = some (.ok (name, (q : Int))) := by
  unfold GivesItem parseMultibuy
  rw [one]
  rcases parsed : parseLine u line with _ | reason | ⟨n, x⟩
  · simp [step, parsed, drain, Groups.empty]
  · simp [step, parsed, drain, Groups.empty]
  · simp [step, parsed, drain, Groups.add, Groups.empty, Entry.start, lineNumber, u32Max]

end OneLine

section Tokens
variable {tokens cols : List Text} {q : Nat}

private theorem numericStart_eq (tokens : List Text) (n : Nat) (within : n ≤ tokens.length) :
    numericStart tokens n = ((tokens.take n).rdropWhile isNumericToken).length := by
  induction n with
  | zero => simp [numericStart]
  | succ n ih =>
    have present : tokens[n]? = some tokens[n] := List.getElem?_eq_getElem (by omega)
    rw [List.take_add_one, present, Option.toList_some, List.rdropWhile_concat]
    unfold numericStart
    rw [present, Option.any_some]
    split
    · exact ih (by omega)
    · simp
      omega

private theorem rdropWhile_append_of_all {α : Type} {p : α → Bool} {xs ys : List α}
    (all : ∀ y ∈ ys, p y = true) : (xs ++ ys).rdropWhile p = xs.rdropWhile p := by
  induction ys using List.reverseRecOn with
  | nil => rw [List.append_nil]
  | append_singleton ys y ih =>
    rw [← List.append_assoc, List.rdropWhile_concat_pos _ _ _ (all y (by simp))]
    exact ih fun z hz => all z (List.mem_append_left _ hz)

private theorem isNumericToken_of_isDecimal {t : Text} (h : IsDecimal t) :
    isNumericToken t = true := by
  unfold isNumericToken
  simp only [h.removeChar, isFloat_of_isDecimal h, Bool.and_true, decide_eq_true_eq]
  exact h.token.1

private theorem token_numbers (pos : 0 < q) (decimals : ∀ c ∈ cols, IsDecimal c) :
    ∀ w ∈ decimal q :: cols, Token w := by
  intro w hw
  rcases List.mem_cons.mp hw with rfl | hw
  · exact token_decimal pos
  · exact (decimals w hw).token

private theorem numericStart_spaceLine (pos : 0 < q) (decimals : ∀ c ∈ cols, IsDecimal c) :
    numericStart (tokens ++ decimal q :: cols) (tokens ++ decimal q :: cols).length =
      (tokens.rdropWhile isNumericToken).length := by
  rw [numericStart_eq _ _ le_rfl, List.take_length, rdropWhile_append_of_all]
  intro t ht
  rcases List.mem_cons.mp ht with rfl | ht
  · exact isNumericToken_of_isDecimal (isDecimal_decimal pos)
  · exact isNumericToken_of_isDecimal (decimals t ht)

/-- The whitespace format gives the whole name exactly when its last token is not a number. -/
private theorem parseWhitespaceLine_iff (nonempty : tokens ≠ []) (words : ∀ w ∈ tokens, Token w)
    (pos : 0 < q) (fits : (q : Int) ≤ i64Max) (decimals : ∀ c ∈ cols, IsDecimal c) :
    parseWhitespaceLine (spaceLine tokens q cols) = .ok (join ' ' tokens, (q : Int)) ↔
      isNumericToken (tokens.getLast nonempty) = false := by
  have all : ∀ w ∈ tokens ++ decimal q :: cols, Token w := fun w hw =>
    (List.mem_append.mp hw).elim (words w) (token_numbers pos decimals w)
  have split_line : splitWhitespace (spaceLine tokens q cols) = tokens ++ decimal q :: cols :=
    splitWhitespace_join (by decide) all
  have start := @numericStart_spaceLine tokens cols q pos decimals
  constructor
  · intro parsed
    obtain ⟨n, rfl, -, -, name, -⟩ := parseWhitespaceLine_ok parsed
    rw [split_line, start] at name
    have short : (tokens.rdropWhile isNumericToken).length ≤ tokens.length :=
      (List.rdropWhile_prefix _ _).length_le
    rw [List.take_append_of_le_length short] at name
    -- the tokens come back from the name, so none of them was dropped
    have same : tokens = tokens.take (tokens.rdropWhile isNumericToken).length := by
      have back := congrArg splitWhitespace name
      rwa [splitWhitespace_join (by decide) words, splitWhitespace_join (by decide)
        fun w hw => words w (List.mem_of_mem_take hw)] at back
    have kept : tokens.rdropWhile isNumericToken = tokens := by
      refine (List.rdropWhile_prefix _ _).eq_of_length ?_
      have := congrArg List.length same
      rw [List.length_take] at this
      omega
    simpa using List.rdropWhile_eq_self_iff.mp kept nonempty
  · intro word
    have kept : tokens.rdropWhile isNumericToken = tokens :=
      List.rdropWhile_eq_self_iff.mpr fun _ => by simp [word]
    rw [kept] at start
    have some_token : tokens.length ≠ 0 := by simpa using nonempty
    have name : join ' ' tokens ≠ [] := join_ne_nil nonempty words
    unfold parseWhitespaceLine
    simp only [split_line, start]
    have size : (tokens ++ decimal q :: cols).length = tokens.length + (cols.length + 1) := by simp
    rw [if_neg (by omega), if_neg (by omega), if_neg some_token]
    simp only [List.getD_eq_getElem?_getD, List.getElem?_append_right le_rfl, Nat.sub_self,
      List.getElem?_cons_zero, Option.getD_some, parseQty_decimal pos fits, List.take_left', if_neg name]

end Tokens

section Formats
variable {u : CaseTables} {tokens cols : List Text} {q : Nat}

private theorem nameKey_ne_nil {name : Text} (clean : Clean name) : nameKey u name ≠ [] := by
  unfold nameKey
  rw [normalized_eq_self clean.trimmed fun h => (clean.plain _ h).2.2 rfl]
  exact toLowercase_ne_nil u clean.nonempty

/-- The line is taken as it stands: no white space at its ends, no hard space, one line. -/
private theorem givesItem_spaceLine_iff (nonempty : tokens ≠ []) (words : ∀ w ∈ tokens, Token w)
    (pos : 0 < q) (fits : (q : Int) ≤ i64Max) (decimals : ∀ c ∈ cols, IsDecimal c) :
    GivesItem u (spaceLine tokens q cols) (join ' ' tokens) q ↔
      isNumericToken (tokens.getLast nonempty) = false := by
  have all : ∀ w ∈ tokens ++ decimal q :: cols, Token w := fun w hw =>
    (List.mem_append.mp hw).elim (words w) (token_numbers pos decimals w)
  have clean : Clean (spaceLine tokens q cols) := clean_join (by simp) all
  have same := normalized_eq_self clean.trimmed fun h => (clean.plain _ h).2.2 rfl
  have key := nameKey_ne_nil (u := u) (clean_join nonempty words)
  rw [givesItem_iff (lines_single clean.trimmed clean.nonempty fun h => (clean.plain _ h).2.1 rfl),
    ← parseWhitespaceLine_iff nonempty words pos fits decimals]
  have spaces : '\t' ∉ spaceLine tokens q cols := fun h => (clean.plain _ h).1 rfl
  constructor
  · intro parsed
    have text := (parseLine_ok parsed).2.2
    rwa [same, if_neg spaces] at text
  · intro parsed
    unfold parseLine
    simp only [same, if_neg clean.nonempty, if_neg spaces, parsed, if_neg key]

private theorem givesItem_tabLine (nonempty : tokens ≠ []) (words : ∀ w ∈ tokens, Token w)
    (pos : 0 < q) (fits : (q : Int) ≤ i64Max) (decimals : ∀ c ∈ cols, IsDecimal c) :
    GivesItem u (tabLine tokens q cols) (join ' ' tokens) q := by
  have numbers := token_numbers pos decimals
  have clean := clean_join nonempty words
  have shape : tabLine tokens q cols = join ' ' tokens ++ '\t' :: join '\t' (decimal q :: cols) :=
    join_cons_cons _ _ _ _
  have trimmed : Trimmed (tabLine tokens q cols) := by
    rw [shape]
    exact trimmed_line clean (trimmed_join numbers) (join_ne_nil (by simp) numbers)
  have tab : '\t' ∈ tabLine tokens q cols := by simp [shape]
  have plain : ∀ c ∈ tabLine tokens q cols, c ≠ '\n' ∧ c ≠ nbsp := by
    intro c hc
    rw [shape, List.mem_append, List.mem_cons] at hc
    rcases hc with hc | rfl | hc
    · exact (clean.plain c hc).2
    · decide
    · rcases mem_join hc with rfl | ⟨w, hw, hc⟩
      · decide
      · have visible := (numbers w hw).2 c hc
        refine ⟨?_, ?_⟩ <;> rintro rfl <;> exact absurd visible (by decide)
  have same := normalized_eq_self trimmed fun h => (plain _ h).2 rfl
  have parsed : parseTabLine (tabLine tokens q cols) = .ok (join ' ' tokens, (q : Int)) := by
    rw [shape]
    cases cols with
    | nil =>
      have nothing : ([] : Text) = [] ∨ ∃ more, [] = '\t' :: more := .inl rfl
      have := parseTabLine_decimal clean pos fits nothing
      rwa [List.append_nil, ← join_singleton '\t' (decimal q)] at this
    | cons c cs =>
      rw [join_cons_cons]
      exact parseTabLine_decimal clean pos fits (.inr ⟨_, rfl⟩)
  have line := lines_single trimmed (List.ne_nil_of_mem tab) fun h => (plain _ h).1 rfl
  rw [givesItem_iff line]
  unfold parseLine
  simp only [same, if_neg (List.ne_nil_of_mem tab), if_pos tab, parsed,
    if_neg (nameKey_ne_nil clean)]

end Formats

/-- For every name of single-spaced tokens, positive 64-bit quantity and further decimal columns:
both formats give the item with that name and quantity and no error, exactly when the last token of
the name is not a number for the float parser. -/
theorem formats_agree_iff (u : CaseTables) (tokens : List Text) (q : Nat) (cols : List Text)
    (nonempty : tokens ≠ []) (words : ∀ w ∈ tokens, Token w) (pos : 0 < q)
    (fits : (q : Int) ≤ i64Max) (decimals : ∀ c ∈ cols, IsDecimal c) :
    (GivesItem u (spaceLine tokens q cols) (join ' ' tokens) q ∧
      GivesItem u (tabLine tokens q cols) (join ' ' tokens) q) ↔
        isNumericToken (tokens.getLast nonempty) = false := by
  rw [givesItem_spaceLine_iff nonempty words pos fits decimals]
  exact and_iff_left (givesItem_tabLine nonempty words pos fits decimals)

private theorem tokens_of_all {ws : List Text}
    (all : ws.all (fun w => !w.isEmpty && w.all fun c => !isWhitespace c) = true) :
    ∀ w ∈ ws, Token w := by
  intro w hw
  have one := List.all_eq_true.mp all w hw
  simp only [Bool.and_eq_true, Bool.not_eq_true', List.isEmpty_eq_false_iff,
    List.all_eq_true] at one
  exact one

theorem formats_agree_damage_control :
    isNumericToken "II".toList = false ∧
    GivesItem asciiTables "Damage Control II 5 25.00".toList "Damage Control II".toList 5 ∧
    GivesItem asciiTables "Damage Control II\t5\t25.00".toList "Damage Control II".toList 5 := by
  have volume : IsDecimal "25.00".toList :=
    ⟨"25".toList, by decide, List.all_eq_true.mp (by decide), .inr
      ⟨"00".toList, List.all_eq_true.mp (by decide), by decide⟩⟩
  have words : ∀ w ∈ ["Damage".toList, "Control".toList, "II".toList], Token w :=
    tokens_of_all (by decide +kernel)
  have both := (formats_agree_iff asciiTables ["Damage".toList, "Control".toList, "II".toList] 5
    ["25.00".toList] (by decide) words (by decide) (by decide)
    (fun c hc => List.mem_singleton.mp hc ▸ volume)).mpr (by decide +kernel)
  exact ⟨by decide +kernel, both⟩

/-- A name that ends in a word with a letter which the float parser takes for a number: the
whitespace format reads the quantity there. -/
theorem float_word_ends_name :
    ¬ ∀ (u : CaseTables) (tokens : List Text) (q : Nat) (cols : List Text)
      (nonempty : tokens ≠ []), (∀ w ∈ tokens, Token w) →
      (∃ c ∈ tokens.getLast nonempty, c.isAlpha = true) → 0 < q → (q : Int) ≤ i64Max →
      (∀ c ∈ cols, IsDecimal c) →
      GivesItem u (spaceLine tokens q cols) (join ' ' tokens) q ∧
        GivesItem u (tabLine tokens q cols) (join ' ' tokens) q := by
  intro claim
  have words : ∀ w ∈ ["Project".toList, "Inf".toList], Token w :=
    tokens_of_all (by decide +kernel)
  have both := claim asciiTables ["Project".toList, "Inf".toList] 5 [] (by decide) words
    ⟨'I', by decide, by decide⟩ (by decide) (by decide) (by simp)
  exact absurd both.1 (by decide +kernel)

end JitaCart.Multibuy
