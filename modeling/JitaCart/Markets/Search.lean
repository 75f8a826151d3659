/- module: JitaCart/Markets/Search
   source: backend/crates/api/src/citadels.rs (search)
   digest: The pattern of a citadel search, and the names that it finds. -/

import JitaCart.Api.Naming
import JitaCart.Base.Like

set_option autoImplicit false
set_option relaxedAutoImplicit false

namespace JitaCart.Markets.Search

open Schema Base.Request Base.Strings Base.Like Pricing Api.Naming

/-- `str::replace` of one character by a text. -/
def replace (a : Char) (b : Text) (t : Text) : Text := t.flatMap fun c => if c = a then b else [c]

def escaped (t : Text) : Text :=
  replace '_' ['\\', '_'] (replace '%' ['\\', '%'] (replace '\\' ['\\', '\\'] t))

def searchPattern (trimmed : Text) : Text := '%' :: (escaped trimmed ++ ['%'])

/-- The query's pattern; nothing is searched for an empty query. -/
def patternOf (q : Text) : Except ApiError (Option Text) := do
  let trimmed := trim q
  if trimmed = [] then return none
  require (byteLength trimmed ≤ 100) (.badRequest "query too long")
  return some (searchPattern trimmed)

/-- The columns of `markets` that a search reads. -/
structure CitadelRow where
  id : Uuid
  kind : MarketKind
  isPublic : Bool
  detailsSynced : Bool
  name : Option Text
  deriving DecidableEq

def CitadelRow.hit (fold : Char → Char) (pattern : Text) (r : CitadelRow) : Bool :=
  decide (r.kind = .publicStructure) && r.isPublic && r.detailsSynced &&
    r.name.any (like fold pattern)

/-- `ORDER BY tracked DESC, m.name`, under the collation of the database. -/
def listedBefore (collates : Text → Text → Bool) (tracked : Uuid → Bool) (r x : CitadelRow) :
    Bool :=
  if tracked r.id = tracked x.id then collates (r.name.getD []) (x.name.getD []) else tracked r.id

/-- `tracked` says which markets the group tracks. -/
def search (fold : Char → Char) (collates : Text → Text → Bool) (tracked : Uuid → Bool)
    (markets : List CitadelRow) (q : Text) : Except ApiError (List CitadelRow) := do
  let pattern ← patternOf q
  match pattern with
  | none => return []
  | some pattern =>
    return ((markets.filter (CitadelRow.hit fold pattern)).mergeSort
      (listedBefore collates tracked)).take 25

/-- The backslashes are doubled before the other two replacements bring in more of them. -/
private theorem escaped_eq (t : Text) : escaped t = escape t := by
  unfold escaped replace escape
  rw [List.flatMap_assoc, List.flatMap_assoc]
  refine List.flatMap_congr fun c _ => ?_
  unfold escapeChar
  by_cases backslash : c = '\\'
  · subst backslash
    rfl
  · by_cases percent : c = '%'
    · subst percent
      rfl
    · by_cases underscore : c = '_'
      · subst underscore
        rfl
      · simp [isMeta, backslash, percent, underscore]

private theorem patternOf_eq_some {q pattern : Text} :
    patternOf q = .ok (some pattern) ↔
      trim q ≠ [] ∧ byteLength (trim q) ≤ 100 ∧ pattern = searchPattern (trim q) := by
  unfold patternOf
  constructor
  · intro h
    by_cases empty : trim q = []
    · simp [empty] at h
    · simp only [if_neg empty, bind_eq_ok, require_eq_ok, pure_eq_ok, Option.some.injEq] at h
      obtain ⟨-, short, same⟩ := h
      exact ⟨empty, short, same.symm⟩
  · rintro ⟨nonempty, short, rfl⟩
    simp only [if_neg nonempty, bind_eq_ok, require_eq_ok, pure_eq_ok]
    exact ⟨(), short, trivial⟩

/-- The pattern of a query finds exactly the names that contain the query, up to case, whether the
letters are folded as they are compared or before; it ends in no dangling escape. -/
theorem search_pattern_exact (fold : Char → Char) (q pattern : Text)
    (h : patternOf q = .ok (some pattern)) :
    (∀ n : Text, like fold pattern n = true ↔ (trim q).map fold <:+: n.map fold) ∧
    (KeepsMeta fold → ∀ n : Text, like id (pattern.map fold) (n.map fold) = true ↔
      (trim q).map fold <:+: n.map fold) ∧
    dangling pattern = false := by
  obtain ⟨-, -, rfl⟩ := patternOf_eq_some.mp h
  unfold searchPattern
  rw [escaped_eq]
  have contains := like_contains fold (trim q)
  refine ⟨contains, fun keeps n => ?_, ?_⟩
  · rw [like_fold keeps]
    exact contains n
  · rw [dangling_cons (by decide), dangling_escape]
    rfl

theorem search_pattern_exact_percent :
    (∀ n : Text, like Char.toLower "%100\\%\\_A%".toList n = true ↔
      "100%_a".toList <:+: n.map Char.toLower) ∧
    dangling "%100\\%\\_A%".toList = false := by
  obtain ⟨found, -, ends⟩ :=
    search_pattern_exact Char.toLower " 100%_A ".toList "%100\\%\\_A%".toList (by rfl)
  exact ⟨found, ends⟩

/-- A citadel that everyone may see and whose name contains the query. -/
def CitadelRow.Matches (fold : Char → Char) (q : Text) (r : CitadelRow) : Prop :=
  r.kind = .publicStructure ∧ r.isPublic = true ∧ r.detailsSynced = true ∧
    ∃ n ∈ r.name, (trim q).map fold <:+: n.map fold

private theorem hit_searchPattern (fold : Char → Char) (q : Text) (r : CitadelRow) :
    r.hit fold (searchPattern (trim q)) = true ↔ r.Matches fold q := by
  unfold CitadelRow.hit CitadelRow.Matches searchPattern
  rw [escaped_eq]
  simp only [Bool.and_eq_true, decide_eq_true_eq, Option.any_eq_true, like_contains,
    Option.mem_def, and_assoc]

/-- A search answers with at most 25 of the citadels that match, and with all of them where there
are no more. -/
private theorem search_hits {fold : Char → Char} {collates : Text → Text → Bool}
    {tracked : Uuid → Bool} {markets hits : List CitadelRow} {q : Text}
    (h : search fold collates tracked markets q = .ok hits) (nonempty : trim q ≠ []) :
    hits.length ≤ 25 ∧ (∀ r ∈ hits, r ∈ markets ∧ r.Matches fold q) ∧
      ((markets.filter (CitadelRow.hit fold (searchPattern (trim q)))).length ≤ 25 →
        ∀ r ∈ markets, r.Matches fold q → r ∈ hits) := by
  simp only [search, bind_eq_ok] at h
  obtain ⟨found, hfound, h⟩ := h
  cases found with
  | none =>
    unfold patternOf at hfound
    simp only [if_neg nonempty, bind_eq_ok, pure_eq_ok, reduceCtorEq, and_false, exists_false]
      at hfound
  | some pattern =>
    obtain ⟨-, -, rfl⟩ := patternOf_eq_some.mp hfound
    obtain rfl := Except.ok.inj h
    have sorted := (markets.filter (CitadelRow.hit fold (searchPattern (trim q)))).mergeSort_perm
      (listedBefore collates tracked)
    refine ⟨List.length_take_le _ _, fun r hr => ?_, fun few r hr matching => ?_⟩
    · obtain ⟨mem, hit⟩ := List.mem_filter.mp (sorted.mem_iff.mp (List.mem_of_mem_take hr))
      exact ⟨mem, (hit_searchPattern fold q r).mp hit⟩
    · rw [List.take_of_length_le (sorted.length_eq.trans_le few)]
      exact sorted.mem_iff.mpr
        (List.mem_filter.mpr ⟨hr, (hit_searchPattern fold q r).mpr matching⟩)

end JitaCart.Markets.Search
