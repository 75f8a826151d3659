/- module: JitaCart/Base/Strings
   source: none (library)
   digest: Rust's string operations on lists of characters, and its number grammars. -/

import JitaCart.Base.Numeric
import Mathlib.Data.List.DropRight
import Mathlib.Data.Nat.Digits.Lemmas

/-!
The Unicode case tables are a parameter: lower-casing is defined over them the way
`str::to_lowercase` is, with the final sigma told apart by its neighbours.
-/

set_option autoImplicit false
set_option relaxedAutoImplicit false

namespace JitaCart.Base.Strings

open Numeric

abbrev Text := List Char

instance : LawfulBEq Text := inferInstance

/-- Code points with the Unicode property `White_Space`, which `str::trim` strips. -/
def isWhitespace (c : Char) : Bool :=
  let n := c.toNat
  (9 ≤ n && n ≤ 13) || n == 32 || n == 133 || n == 160 || n == 5760 ||
    (8192 ≤ n && n ≤ 8202) || n == 8232 || n == 8233 || n == 8239 || n == 8287 || n == 12288

/-- `str::replace` of one character by another. -/
def replaceChar (a b : Char) (t : Text) : Text := t.map fun c => if c = a then b else c

/-- `str::replace` of one character by nothing. -/
def removeChar (a : Char) (t : Text) : Text := t.filter fun c => decide (c ≠ a)

def trim (t : Text) : Text := (t.dropWhile isWhitespace).rdropWhile isWhitespace

def splitWhitespace (t : Text) : List Text :=
  (t.splitOnP isWhitespace).filter fun w => decide (w ≠ [])

/-- One carriage return before a line feed belongs to the line ending. -/
def stripCr (line : Text) : Text :=
  if line.getLast? = some '\r' then line.dropLast else line

/-- `str::lines`: the part after the last line feed is a line unless it is empty. -/
def lines (t : Text) : List Text :=
  let parts := t.splitOn '\n'
  parts.dropLast.map stripCr ++ (parts.getLast?.toList.filter fun last => decide (last ≠ []))

/-- `[&str]::join`. -/
def join (sep : Char) (ts : List Text) : Text := List.intercalate [sep] ts

/-- The Unicode data that lower-casing reads. No character is mapped to nothing. -/
structure CaseTables where
  lower : Char → Char × List Char
  isCased : Char → Bool
  isCaseIgnorable : Char → Bool

section Lowercase
variable (u : CaseTables)

def caseIgnorableThenCased (t : Text) : Bool :=
  match t.dropWhile u.isCaseIgnorable with
  | c :: _ => u.isCased c
  | [] => false

/-- The rest of a text, given what stands before it in reverse. A capital sigma at the end of a
word has a form of its own. -/
def lowerFrom : Text → Text → Text
  | _, [] => []
  | before, c :: rest =>
    (if c = 'Σ' then
        [if caseIgnorableThenCased u before && !caseIgnorableThenCased u rest then 'ς' else 'σ']
      else (u.lower c).1 :: (u.lower c).2) ++ lowerFrom (c :: before) rest

def toLowercase (t : Text) : Text := lowerFrom u [] t

theorem toLowercase_ne_nil {t : Text} (h : t ≠ []) : toLowercase u t ≠ [] := by
  obtain ⟨c, rest, rfl⟩ := List.exists_cons_of_ne_nil h
  unfold toLowercase lowerFrom
  split <;> simp

end Lowercase

def asciiTables : CaseTables where
  lower c := (c.toLower, [])
  isCased c := c.isAlpha
  isCaseIgnorable _ := false

def natOfDigits (t : Text) : Nat := t.foldl (fun n c => 10 * n + (c.toNat - 48)) 0

def parseDigits (t : Text) : Option Nat :=
  if t ≠ [] ∧ t.all Char.isDigit then some (natOfDigits t) else none

/-- `str::parse::<i64>`. -/
def parseI64 (t : Text) : Option Int :=
  let value : Option Int :=
    match t with
    | '-' :: ds => (parseDigits ds).map fun n : Nat => -(n : Int)
    | '+' :: ds => (parseDigits ds).map fun n : Nat => (n : Int)
    | ds => (parseDigits ds).map fun n : Nat => (n : Int)
  value.filter fun x => decide (FitsBigint x)

def dropSign : Text → Text
  | '+' :: t => t
  | '-' :: t => t
  | t => t

/-- Nothing, or `e`, a sign and digits. -/
def isExponent : Text → Bool
  | [] => true
  | c :: t => (decide (c = 'e') || decide (c = 'E')) &&
    (decide (dropSign t ≠ []) && (dropSign t).all Char.isDigit)

/-- Digits with a point before, between, after or without it, and an exponent. -/
def isNumber (t : Text) : Bool :=
  match t.dropWhile Char.isDigit with
  | '.' :: r =>
    (decide (t.takeWhile Char.isDigit ≠ []) || decide (r.takeWhile Char.isDigit ≠ [])) &&
      isExponent (r.dropWhile Char.isDigit)
  | r => decide (t.takeWhile Char.isDigit ≠ []) && isExponent r

/-- `str::parse::<f64>` succeeds. -/
def isFloat (t : Text) : Bool :=
  let body := dropSign t
  isNumber body || decide (body.map Char.toLower ∈ ["inf".toList, "infinity".toList, "nan".toList])

/-- `Display` of a positive integer. -/
def decimal (n : Nat) : Text := (Nat.digits 10 n).reverse.map fun d => Char.ofNat (48 + d)

/-- No white space at either end. -/
def Trimmed (t : Text) : Prop :=
  (∀ c ∈ t.head?, isWhitespace c = false) ∧ ∀ c ∈ t.getLast?, isWhitespace c = false

section Trim
variable {t : Text}

theorem Trimmed.trim_eq (h : Trimmed t) : trim t = t := by
  have front : t.dropWhile isWhitespace = t := by
    cases t with
    | nil => rfl
    | cons c t => exact List.dropWhile_cons_of_neg (by simp [h.1 c rfl])
  unfold trim
  rw [front, List.rdropWhile_eq_self_iff]
  intro nonempty
  simp [h.2 _ (List.getLast?_eq_some_getLast nonempty)]

theorem trimmed_trim (t : Text) : Trimmed (trim t) := by
  constructor
  · intro c hc
    have start : (trim t) <+: t.dropWhile isWhitespace := List.rdropWhile_prefix _ _
    cases drop : t.dropWhile isWhitespace with
    | nil =>
      rw [drop, List.prefix_nil] at start
      simp [start] at hc
    | cons d rest =>
      have kept : isWhitespace d = false := by
        have := List.head?_dropWhile_not isWhitespace t
        rw [drop] at this
        simpa using this
      rw [drop] at start
      obtain ⟨suffix, same⟩ := start
      cases ends : trim t with
      | nil => simp [ends] at hc
      | cons x xs =>
        rw [ends] at hc same
        simp only [List.cons_append, List.cons.injEq] at same
        simp only [List.head?_cons, Option.mem_def, Option.some.injEq] at hc
        rw [← hc, same.1]
        exact kept
  · intro c hc
    have nonempty : trim t ≠ [] := by
      rintro nil
      simp [nil] at hc
    have last : ¬ isWhitespace ((trim t).getLast nonempty) = true :=
      List.rdropWhile_last_not isWhitespace _ nonempty
    rw [List.getLast?_eq_some_getLast nonempty, Option.mem_def, Option.some.injEq] at hc
    rw [← hc]
    simpa using last

theorem mem_of_mem_trim {c : Char} (h : c ∈ trim t) : c ∈ t :=
  (List.dropWhile_suffix _).subset ((List.rdropWhile_prefix _ _).subset h)

end Trim

section Split
variable {α : Type}

theorem splitOnP_piece {p : α → Bool} {t : List α} :
    ∀ w ∈ t.splitOnP p, ∀ a ∈ w, p a = false ∧ a ∈ t := by
  induction t with
  | nil =>
    intro w hw a ha
    rw [List.splitOnP_nil, List.mem_singleton] at hw
    simp [hw] at ha
  | cons x xs ih =>
    intro w hw a ha
    rw [List.splitOnP_cons_eq_if_modifyHead] at hw
    obtain ⟨r, rs, pieces⟩ := List.exists_cons_of_ne_nil (List.splitOnP_ne_nil p xs)
    split at hw
    · rcases List.mem_cons.mp hw with rfl | hw
      · cases ha
      · exact (ih w hw a ha).imp_right (List.mem_cons_of_mem x)
    · rename_i keep
      rw [pieces, List.modifyHead_cons] at hw
      rcases List.mem_cons.mp hw with rfl | hw
      · rcases List.mem_cons.mp ha with rfl | ha
        · exact ⟨by simpa using keep, List.mem_cons_self⟩
        · exact (ih r (pieces ▸ List.mem_cons_self) a ha).imp_right (List.mem_cons_of_mem x)
      · exact (ih w (pieces ▸ List.mem_cons_of_mem r hw) a ha).imp_right (List.mem_cons_of_mem x)

end Split

def Token (w : Text) : Prop := w ≠ [] ∧ ∀ c ∈ w, isWhitespace c = false

theorem token_of_mem_splitWhitespace {t w : Text} (h : w ∈ splitWhitespace t) :
    Token w ∧ ∀ c ∈ w, c ∈ t := by
  obtain ⟨piece, nonempty⟩ := List.mem_filter.mp h
  exact ⟨⟨by simpa using nonempty, fun c hc => (splitOnP_piece w piece c hc).1⟩,
    fun c hc => (splitOnP_piece w piece c hc).2⟩

@[simp] theorem join_singleton (sep : Char) (w : Text) : join sep [w] = w := by
  simp [join, List.intercalate]

theorem join_cons_cons (sep : Char) (w v : Text) (ws : List Text) :
    join sep (w :: v :: ws) = w ++ sep :: join sep (v :: ws) := by
  simp [join, List.intercalate]

theorem mem_join {sep c : Char} {ws : List Text} (h : c ∈ join sep ws) :
    c = sep ∨ ∃ w ∈ ws, c ∈ w := by
  induction ws with
  | nil => simp [join, List.intercalate] at h
  | cons w ws ih =>
    cases ws with
    | nil => exact .inr ⟨w, List.mem_cons_self, by simpa using h⟩
    | cons v ws =>
      rw [join_cons_cons, List.mem_append, List.mem_cons] at h
      rcases h with h | h | h
      · exact .inr ⟨w, List.mem_cons_self, h⟩
      · exact .inl h
      · exact (ih h).imp_right fun ⟨x, hx, hc⟩ => ⟨x, List.mem_cons_of_mem w hx, hc⟩

private theorem splitWhitespace_token {w : Text} (h : Token w) : splitWhitespace w = [w] := by
  unfold splitWhitespace
  rw [List.splitOnP_eq_singleton h.2]
  simp [h.1]

private theorem splitWhitespace_append {w t : Text} {sep : Char} (h : Token w)
    (space : isWhitespace sep = true) :
    splitWhitespace (w ++ sep :: t) = w :: splitWhitespace t := by
  unfold splitWhitespace
  rw [List.splitOnP_append_cons_of_forall_mem h.2 sep space]
  simp [h.1]

theorem splitWhitespace_join {sep : Char} {ws : List Text} (space : isWhitespace sep = true)
    (tokens : ∀ w ∈ ws, Token w) : splitWhitespace (join sep ws) = ws := by
  induction ws with
  | nil => rfl
  | cons w ws ih =>
    have first := tokens w List.mem_cons_self
    have rest := ih fun v hv => tokens v (List.mem_cons_of_mem w hv)
    cases ws with
    | nil =>
      rw [join_singleton]
      exact splitWhitespace_token first
    | cons v ws => rw [join_cons_cons, splitWhitespace_append first space, rest]

theorem Trimmed.append {w v : Text} (front : Trimmed w) (back : Trimmed v) (hw : w ≠ [])
    (hv : v ≠ []) (t : Text) : Trimmed (w ++ (t ++ v)) := by
  refine ⟨fun d hd => front.1 d ?_, fun d hd => back.2 d ?_⟩
  · rwa [List.head?_append_of_ne_nil _ hw] at hd
  · rwa [← List.append_assoc, List.getLast?_append_of_ne_nil _ hv] at hd

theorem Token.trimmed {w : Text} (h : Token w) : Trimmed w :=
  ⟨fun c hc => h.2 c (List.mem_of_mem_head? hc), fun c hc => h.2 c (List.mem_of_getLast? hc)⟩

private theorem exists_join_eq {sep : Char} {w : Text} {ws : List Text} :
    ∃ t, join sep (w :: ws) = w ++ t := by
  cases ws with
  | nil => exact ⟨[], by simp⟩
  | cons v ws => exact ⟨_, join_cons_cons sep w v ws⟩

theorem join_ne_nil {sep : Char} {ws : List Text} (nonempty : ws ≠ [])
    (tokens : ∀ w ∈ ws, Token w) : join sep ws ≠ [] := by
  obtain ⟨w, ws, rfl⟩ := List.exists_cons_of_ne_nil nonempty
  obtain ⟨t, same⟩ := @exists_join_eq sep w ws
  rw [same]
  simp [(tokens w List.mem_cons_self).1]

theorem trimmed_join {sep : Char} {ws : List Text} (tokens : ∀ w ∈ ws, Token w) :
    Trimmed (join sep ws) := by
  induction ws with
  | nil => exact ⟨fun c hc => (by cases hc), fun c hc => (by cases hc)⟩
  | cons w ws ih =>
    have first := tokens w List.mem_cons_self
    have later : ∀ v ∈ ws, Token v := fun v hv => tokens v (List.mem_cons_of_mem w hv)
    cases ws with
    | nil =>
      rw [join_singleton]
      exact first.trimmed
    | cons v ws =>
      rw [join_cons_cons]
      exact first.trimmed.append (ih later) first.1 (join_ne_nil (by simp) later) [sep]

theorem not_mem_of_mem_lines {t line : Text} (h : line ∈ lines t) :
    ∀ c ∈ line, c ≠ '\n' ∧ c ∈ t := by
  have piece : ∀ w ∈ t.splitOn '\n', ∀ c ∈ w, c ≠ '\n' ∧ c ∈ t := by
    intro w hw c hc
    have := splitOnP_piece w hw c hc
    exact ⟨by simpa using this.1, this.2⟩
  intro c hc
  unfold lines at h
  rcases List.mem_append.mp h with h | h
  · obtain ⟨w, hw, rfl⟩ := List.mem_map.mp h
    refine piece w (List.mem_of_mem_dropLast hw) c ?_
    unfold stripCr at hc
    split at hc
    · exact List.mem_of_mem_dropLast hc
    · exact hc
  · obtain ⟨h, -⟩ := List.mem_filter.mp h
    rw [Option.mem_toList] at h
    exact piece line (List.mem_of_getLast? h) c hc

/-- Rows that end in neither line break come back from their joined text. -/
theorem lines_join {rows : List Text}
    (plain : ∀ row ∈ rows, row ≠ [] ∧ '\n' ∉ row ∧ row.getLast? ≠ some '\r') :
    lines (join '\n' rows) = rows := by
  cases rows with
  | nil => rfl
  | cons row rows =>
    have parts : (join '\n' (row :: rows)).splitOn '\n' = row :: rows :=
      List.splitOn_intercalate '\n' (fun l hl => (plain l hl).2.1) (List.cons_ne_nil row rows)
    have strip : ∀ l ∈ (row :: rows).dropLast, stripCr l = l := by
      intro l hl
      unfold stripCr
      rw [if_neg (plain l (List.mem_of_mem_dropLast hl)).2.2]
    have last : (row :: rows).getLast (List.cons_ne_nil row rows) ≠ [] :=
      (plain _ (List.getLast_mem _)).1
    unfold lines
    simp only [parts]
    rw [List.map_congr_left strip, List.map_id', List.getLast?_eq_some_getLast (by simp)]
    simp only [Option.toList_some, List.filter_singleton, decide_eq_true last]
    exact List.dropLast_append_getLast _

private theorem digitChar : ∀ d < 10,
    (Char.ofNat (48 + d)).toNat = 48 + d ∧ (Char.ofNat (48 + d)).isDigit = true := by
  decide

theorem isDigit_decimal {n : Nat} {c : Char} (h : c ∈ decimal n) : c.isDigit = true := by
  obtain ⟨d, hd, rfl⟩ := List.mem_map.mp h
  exact (digitChar d (Nat.digits_lt_base (by norm_num) (List.mem_reverse.mp hd))).2

private theorem natOfDigits_decimal (n : Nat) : natOfDigits (decimal n) = n := by
  have fold (ds : List Nat) (small : ∀ d ∈ ds, d < 10) :
      natOfDigits (ds.reverse.map fun d => Char.ofNat (48 + d)) = Nat.ofDigits 10 ds := by
    unfold natOfDigits
    induction ds with
    | nil => rfl
    | cons d ds ih =>
      have value := (digitChar d (small d List.mem_cons_self)).1
      rw [List.reverse_cons, List.map_append, List.foldl_append,
        ih fun e he => small e (List.mem_cons_of_mem d he), Nat.ofDigits_cons]
      simp only [List.map_cons, List.map_nil, List.foldl_cons, List.foldl_nil, value]
      omega
  unfold decimal
  rw [fold _ fun d hd => Nat.digits_lt_base (by norm_num) hd, Nat.ofDigits_digits]

theorem decimal_ne_nil {n : Nat} (h : 0 < n) : decimal n ≠ [] := by
  unfold decimal
  simpa [Nat.digits_ne_nil_iff_ne_zero] using h.ne'

theorem ne_of_isDigit {c d : Char} (h : c.isDigit = true) (other : d.isDigit = false) : c ≠ d := by
  rintro rfl
  rw [h] at other
  cases other

private theorem isWhitespace_of_isDigit {c : Char} (h : c.isDigit = true) :
    isWhitespace c = false := by
  simp only [Char.isDigit, Bool.and_eq_true, decide_eq_true_eq, ge_iff_le,
    UInt32.le_iff_toNat_le] at h
  have low : 48 ≤ c.toNat := h.1
  have high : c.toNat ≤ 57 := h.2
  simp only [isWhitespace, Bool.or_eq_false_iff, Bool.and_eq_false_iff, decide_eq_false_iff_not,
    beq_eq_false_iff_ne]
  omega

theorem token_decimal {n : Nat} (pos : 0 < n) : Token (decimal n) :=
  ⟨decimal_ne_nil pos, fun _ hc => isWhitespace_of_isDigit (isDigit_decimal hc)⟩

private theorem removeChar_eq_self {a : Char} {t : Text} (h : a ∉ t) : removeChar a t = t := by
  refine List.filter_eq_self.mpr fun c hc => ?_
  simp only [decide_eq_true_eq]
  rintro rfl
  exact h hc

theorem removeChar_decimal {a : Char} (other : a.isDigit = false) (n : Nat) :
    removeChar a (decimal n) = decimal n :=
  removeChar_eq_self fun h => ne_of_isDigit (isDigit_decimal h) other rfl

private theorem parseDigits_decimal {n : Nat} (pos : 0 < n) : parseDigits (decimal n) = some n := by
  unfold parseDigits
  rw [if_pos ⟨decimal_ne_nil pos, List.all_eq_true.mpr fun _ hc => isDigit_decimal hc⟩,
    natOfDigits_decimal]

theorem parseI64_decimal {n : Nat} (pos : 0 < n) (fits : (n : Int) ≤ i64Max) :
    parseI64 (decimal n) = some (n : Int) := by
  obtain ⟨c, ds, same⟩ := List.exists_cons_of_ne_nil (decimal_ne_nil pos)
  have digit : c.isDigit = true := isDigit_decimal (same ▸ List.mem_cons_self)
  have unsigned : parseI64 (decimal n) =
      ((parseDigits (decimal n)).map fun n : Nat => (n : Int)).filter
        fun x => decide (FitsBigint x) := by
    rw [same]
    unfold parseI64
    split
    · rename_i minus
      cases minus
      exact absurd digit (by decide)
    · rename_i plus
      cases plus
      exact absurd digit (by decide)
    · rfl
  have range : FitsBigint (n : Int) := by
    unfold FitsBigint
    unfold i64Max at fits ⊢
    omega
  rw [unsigned, parseDigits_decimal pos, Option.map_some, Option.filter_some, if_pos (by simpa)]

/-- Digits, alone or with a point and further digits. -/
def IsDecimal (t : Text) : Prop :=
  ∃ int : Text, int ≠ [] ∧ (∀ c ∈ int, c.isDigit = true) ∧
    (t = int ∨ ∃ frac : Text, (∀ c ∈ frac, c.isDigit = true) ∧ t = int ++ '.' :: frac)

theorem isDecimal_decimal {n : Nat} (pos : 0 < n) : IsDecimal (decimal n) :=
  ⟨decimal n, decimal_ne_nil pos, fun _ hc => isDigit_decimal hc, .inl rfl⟩

private theorem IsDecimal.mem {t : Text} (h : IsDecimal t) :
    ∀ c ∈ t, c.isDigit = true ∨ c = '.' := by
  obtain ⟨int, -, digits, rfl | ⟨frac, more, rfl⟩⟩ := h
  · exact fun c hc => .inl (digits c hc)
  · intro c hc
    rcases List.mem_append.mp hc with hc | hc
    · exact .inl (digits c hc)
    · rcases List.mem_cons.mp hc with rfl | hc
      · exact .inr rfl
      · exact .inl (more c hc)

theorem IsDecimal.token {t : Text} (h : IsDecimal t) : Token t := by
  refine ⟨?_, fun c hc => ?_⟩
  · obtain ⟨int, nonempty, -, rfl | ⟨frac, -, rfl⟩⟩ := h
    · exact nonempty
    · simp
  · rcases h.mem c hc with digit | rfl
    · exact isWhitespace_of_isDigit digit
    · decide

theorem IsDecimal.removeChar {t : Text} (h : IsDecimal t) : removeChar ',' t = t := by
  refine removeChar_eq_self fun hc => ?_
  rcases h.mem ',' hc with digit | point
  · exact absurd digit (by decide)
  · exact absurd point (by decide)

private theorem isNumber_of_isDecimal {t : Text} (h : IsDecimal t) : isNumber t = true := by
  obtain ⟨int, nonempty, digits, cases⟩ := h
  have alone : int.takeWhile Char.isDigit = int := List.takeWhile_eq_self_iff.mpr digits
  have rest : int.dropWhile Char.isDigit = [] := List.dropWhile_eq_nil_iff.mpr digits
  rcases cases with rfl | ⟨frac, more, rfl⟩
  · unfold isNumber
    rw [rest, alone]
    simp [nonempty, isExponent]
  · have fraction : frac.dropWhile Char.isDigit = [] := List.dropWhile_eq_nil_iff.mpr more
    have point : Char.isDigit '.' = false := by decide
    unfold isNumber
    rw [List.dropWhile_append, List.takeWhile_append, rest, alone]
    simp [point, fraction, isExponent, nonempty]

theorem isFloat_of_isDecimal {t : Text} (h : IsDecimal t) : isFloat t = true := by
  have unsigned : dropSign t = t := by
    obtain ⟨c, rest, rfl⟩ := List.exists_cons_of_ne_nil h.token.1
    have first := h.mem c List.mem_cons_self
    unfold dropSign
    split
    · rename_i plus
      cases plus
      rcases first with digit | point
      · exact absurd digit (by decide)
      · exact absurd point (by decide)
    · rename_i minus
      cases minus
      rcases first with digit | point
      · exact absurd digit (by decide)
      · exact absurd point (by decide)
    · rfl
  unfold isFloat
  simp only [unsigned, isNumber_of_isDecimal h, Bool.true_or]

end JitaCart.Base.Strings
