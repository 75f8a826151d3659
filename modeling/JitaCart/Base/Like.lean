/- module: JitaCart/Base/Like
   source: none (library)
   digest: Matching with wildcards and escapes, as LIKE and ILIKE do, and how to escape a text. -/

import Mathlib.Data.List.Basic
import Mathlib.Data.List.Infix

/-!
A percent sign matches any text and an underscore any character; a backslash takes
both meanings away from the character that follows. Letters are compared after a
case fold, which LIKE has as the identity.
-/

set_option autoImplicit false
set_option relaxedAutoImplicit false

namespace JitaCart.Base.Like

/-- One character of the name that passes, and the rest of the name. -/
def next (passes : Char → Bool) (rest : List Char → Bool) : List Char → Bool
  | [] => false
  | d :: name => passes d && rest name

def like (fold : Char → Char) : List Char → List Char → Bool
  | [] => fun name => name.isEmpty
  | c :: pattern =>
    if c = '%' then fun name => name.tails.any (like fold pattern)
    else if c = '_' then next (fun _ => true) (like fold pattern)
    else if c = '\\' then
      match pattern with
      | [] => fun _ => false
      | e :: pattern => next (fun d => decide (fold e = fold d)) (like fold pattern)
    else next (fun d => decide (fold c = fold d)) (like fold pattern)

/-- The pattern ends with a backslash that escapes nothing. -/
def dangling : List Char → Bool
  | [] => false
  | c :: pattern =>
    if c = '\\' then
      match pattern with
      | [] => true
      | _ :: pattern => dangling pattern
    else dangling pattern

def isMeta (c : Char) : Bool := c == '%' || c == '_' || c == '\\'

def escapeChar (c : Char) : List Char := if isMeta c then ['\\', c] else [c]

def escape (t : List Char) : List Char := t.flatMap escapeChar

section Literals
variable (fold : Char → Char)

private theorem next_eq_true {passes : Char → Bool} {rest : List Char → Bool} {name : List Char} :
    next passes rest name = true ↔
      ∃ d tail, name = d :: tail ∧ passes d = true ∧ rest tail = true := by
  cases name <;> simp [next]

private theorem like_cons (c : Char) (pattern : List Char) : like fold (c :: pattern) =
    if c = '%' then fun name => name.tails.any (like fold pattern)
    else if c = '_' then next (fun _ => true) (like fold pattern)
    else if c = '\\' then
      match pattern with
      | [] => fun _ => false
      | e :: pattern => next (fun d => decide (fold e = fold d)) (like fold pattern)
    else next (fun d => decide (fold c = fold d)) (like fold pattern) := by
  cases pattern <;> rfl

theorem dangling_cons {c : Char} (plain : c ≠ '\\') (pattern : List Char) :
    dangling (c :: pattern) = dangling pattern := by
  cases pattern <;> simp [dangling, plain]

private theorem like_percent (pattern name : List Char) :
    like fold ('%' :: pattern) name = true ↔ ∃ rest, rest <:+ name ∧ like fold pattern rest = true := by
  rw [like_cons, if_pos rfl]
  simp

/-- An escaped character matches itself, whatever its meaning without the escape. -/
private theorem like_escapeChar (c : Char) (pattern name : List Char) :
    like fold (escapeChar c ++ pattern) name = true ↔
      ∃ d rest, name = d :: rest ∧ fold c = fold d ∧ like fold pattern rest = true := by
  have literal : like fold (escapeChar c ++ pattern) =
      next (fun d => decide (fold c = fold d)) (like fold pattern) := by
    unfold escapeChar
    by_cases special : isMeta c = true
    · rw [if_pos special]
      rfl
    · rw [if_neg special]
      simp only [isMeta, Bool.or_eq_true, beq_iff_eq, not_or] at special
      obtain ⟨⟨percent, underscore⟩, backslash⟩ := special
      rw [List.singleton_append, like_cons, if_neg percent, if_neg underscore, if_neg backslash]
  rw [literal, next_eq_true]
  simp

private theorem dangling_escapeChar (c : Char) (pattern : List Char) :
    dangling (escapeChar c ++ pattern) = dangling pattern := by
  unfold escapeChar
  by_cases special : isMeta c = true
  · rw [if_pos special]
    rfl
  · rw [if_neg special]
    simp only [isMeta, Bool.or_eq_true, beq_iff_eq, not_or] at special
    exact dangling_cons special.2 pattern

/-- An escaped text is a prefix of the name, up to case, and the pattern after it matches the
rest. -/
private theorem like_escape (t pattern name : List Char) :
    like fold (escape t ++ pattern) name = true ↔
      ∃ front rest, name = front ++ rest ∧ t.map fold = front.map fold ∧
        like fold pattern rest = true := by
  induction t generalizing name with
  | nil => simp [escape]
  | cons c t ih =>
    have split : escape (c :: t) ++ pattern = escapeChar c ++ (escape t ++ pattern) := by
      simp [escape]
    rw [split, like_escapeChar]
    constructor
    · rintro ⟨d, tail, rfl, same, matched⟩
      obtain ⟨front, rest, rfl, more, matched⟩ := (ih tail).mp matched
      exact ⟨d :: front, rest, rfl, by rw [List.map_cons, List.map_cons, same, more], matched⟩
    · rintro ⟨front, rest, rfl, same, matched⟩
      cases front with
      | nil => simp at same
      | cons d front =>
        rw [List.map_cons, List.map_cons, List.cons.injEq] at same
        exact ⟨d, front ++ rest, rfl, same.1, (ih _).mpr ⟨front, rest, rfl, same.2, matched⟩⟩

theorem dangling_escape (t pattern : List Char) :
    dangling (escape t ++ pattern) = dangling pattern := by
  induction t with
  | nil => rfl
  | cons c t ih =>
    have split : escape (c :: t) ++ pattern = escapeChar c ++ (escape t ++ pattern) := by
      simp [escape]
    rw [split, dangling_escapeChar, ih]

/-- Between two percent signs an escaped text matches exactly the names that contain it. -/
theorem like_contains (t name : List Char) :
    like fold ('%' :: (escape t ++ ['%'])) name = true ↔ t.map fold <:+: name.map fold := by
  have rest_free : ∀ rest, like fold ['%'] rest = true := fun rest =>
    (like_percent fold [] rest).mpr ⟨[], List.nil_suffix, rfl⟩
  rw [like_percent]
  constructor
  · rintro ⟨rest, ⟨before, rfl⟩, matched⟩
    obtain ⟨front, after, rfl, same, -⟩ := (like_escape fold t ['%'] rest).mp matched
    exact ⟨before.map fold, after.map fold, by simp [same]⟩
  · rintro ⟨before, after, same⟩
    rw [List.append_assoc, eq_comm, List.map_eq_append_iff] at same
    obtain ⟨front, rest, rfl, -, same⟩ := same
    rw [List.map_eq_append_iff] at same
    obtain ⟨middle, tail, rfl, inside, -⟩ := same
    exact ⟨middle ++ tail, ⟨front, rfl⟩,
      (like_escape fold t ['%'] _).mpr ⟨middle, tail, rfl, inside.symm, rest_free tail⟩⟩

end Literals

/-- The fold keeps the characters with a meaning, and makes no other character one of them. -/
def KeepsMeta (fold : Char → Char) : Prop :=
  ∀ c, (isMeta c = true → fold c = c) ∧ (isMeta (fold c) = true → fold c = c)

private theorem fold_eq_iff {fold : Char → Char} (keeps : KeepsMeta fold) {c m : Char}
    (special : isMeta m = true) : fold c = m ↔ c = m := by
  constructor
  · rintro rfl
    exact ((keeps c).2 special).symm
  · rintro rfl
    exact (keeps c).1 special

private theorem next_fold {fold : Char → Char} {passes passes' : Char → Bool}
    {more more' : List Char → Bool} (same : ∀ d, passes (fold d) = passes' d)
    (rest : ∀ n : List Char, more (n.map fold) = more' n) (name : List Char) :
    next passes more (name.map fold) = next passes' more' name := by
  cases name with
  | nil => rfl
  | cons d name => rw [List.map_cons, next, next, same, rest]

/-- It is the same to fold the pattern and the name first and to compare as they are. -/
theorem like_fold {fold : Char → Char} (keeps : KeepsMeta fold) (pattern name : List Char) :
    like id (pattern.map fold) (name.map fold) = like fold pattern name := by
  have cons (c : Char) (pattern : List Char)
      (ih : ∀ n : List Char, like id (pattern.map fold) (n.map fold) = like fold pattern n)
      (ih' : ∀ e rest, pattern = e :: rest →
        ∀ n : List Char, like id (rest.map fold) (n.map fold) = like fold rest n)
      (name : List Char) :
      like id ((c :: pattern).map fold) (name.map fold) = like fold (c :: pattern) name := by
    have percent : fold c = '%' ↔ c = '%' := fold_eq_iff keeps rfl
    have underscore : fold c = '_' ↔ c = '_' := fold_eq_iff keeps rfl
    have backslash : fold c = '\\' ↔ c = '\\' := fold_eq_iff keeps rfl
    rw [List.map_cons, like_cons, like_cons]
    by_cases any : c = '%'
    · rw [if_pos any, if_pos (percent.mpr any)]
      show (name.map fold).tails.any _ = name.tails.any _
      rw [List.map_tails, List.any_map]
      congr 1
      funext n
      exact ih n
    · rw [if_neg any, if_neg (any ∘ percent.mp)]
      by_cases one : c = '_'
      · rw [if_pos one, if_pos (underscore.mpr one)]
        exact next_fold (fun _ => rfl) ih name
      · rw [if_neg one, if_neg (one ∘ underscore.mp)]
        by_cases escaped : c = '\\'
        · rw [if_pos escaped, if_pos (backslash.mpr escaped)]
          cases pattern with
          | nil => rfl
          | cons e rest => exact next_fold (fun _ => rfl) (ih' e rest rfl) name
        · rw [if_neg escaped, if_neg (escaped ∘ backslash.mp)]
          exact next_fold (fun _ => rfl) ih name
  induction pattern using List.twoStepInduction generalizing name with
  | nil => cases name <;> rfl
  | singleton c =>
    exact cons c [] (fun n => by cases n <;> rfl) (fun e rest h => by cases h) name
  | cons_cons c e pattern ih ihe =>
    refine cons c (e :: pattern) (fun n => ihe e n) (fun _ rest h => ?_) name
    obtain ⟨-, rfl⟩ := List.cons.inj h
    exact fun n => ih n

end JitaCart.Base.Like
