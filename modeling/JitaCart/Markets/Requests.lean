/- module: JitaCart/Markets/Requests
   source: backend/crates/api/src/lists/crud.rs (create), backend/crates/api/src/lists/items.rs
     (add_items, patch_item), backend/crates/market/src/types.rs (resolve_type_ids)
   digest: Which requests find a name without a type after none was reported. -/

import JitaCart.Api.Naming
import JitaCart.Markets.Resolution
import JitaCart.Multibuy.Groups

set_option autoImplicit false
set_option relaxedAutoImplicit false

namespace JitaCart.Markets.Requests

open Schema Base.Table Base.Request Base.Strings Domain.Multibuy Types Pricing Resolution
open Api.Naming Api.Extract
open Api.Lists (Limits NewLine)

/-- The request ends in the branch for a name whose type is missing. -/
def Misses {α : Type} (x : Except ApiError α) : Prop := ∃ name, x = .error (resolvedMissing name)

section Errors
variable {α β : Type}

private theorem misses_bind {x : Except ApiError α} {f : α → Except ApiError β} :
    Misses (x >>= f) ↔ Misses x ∨ ∃ a, x = .ok a ∧ Misses (f a) := by
  cases x with
  | ok a => simp [Misses, bind, Except.bind]
  | error e => simp [Misses, bind, Except.bind]

@[simp] theorem misses_map {f : α → β} {x : Except ApiError α} : Misses (f <$> x) ↔ Misses x := by
  cases x <;> simp [Misses, Functor.map, Except.map]

@[simp] theorem not_misses_ok (a : α) : ¬ Misses (Except.ok a : Except ApiError α) := by
  rintro ⟨name, h⟩
  cases h

@[simp] theorem not_misses_pure (a : α) : ¬ Misses (pure a : Except ApiError α) :=
  not_misses_ok a

private theorem misses_require {p : Prop} [Decidable p] {e : ApiError} :
    Misses (require p e) ↔ ¬ p ∧ ∃ name, e = resolvedMissing name := by
  unfold require Misses
  split <;> simp_all

private theorem misses_fetch {e : ApiError} {o : Option α} :
    Misses (fetch e o) ↔ o = none ∧ ∃ name, e = resolvedMissing name := by
  cases o <;> simp [fetch, Misses]

private theorem internal_ne_resolvedMissing {cause : String} {name : Text}
    (other : cause.toList.head? ≠ some 'r') : ApiError.internal cause ≠ resolvedMissing name := by
  intro same
  have causes : cause = "resolved missing for " ++ String.ofList name := ApiError.internal.inj same
  apply other
  rw [causes, String.toList_append]
  rfl

end Errors

section Steps

private theorem not_misses_currentList (s : Db) (userId listId : Uuid) :
    ¬ Misses (currentList s userId listId) := by
  simp [currentList, misses_bind, misses_fetch, resolvedMissing]

private theorem not_misses_currentGroup (s : Db) (userId groupId : Uuid) :
    ¬ Misses (currentGroup s userId groupId) := by
  simp [currentGroup, misses_fetch, resolvedMissing]

private theorem not_misses_parsedLines (u : CaseTables) (mb : Text) :
    ¬ Misses (parsedLines u mb) := by
  simp [parsedLines, misses_bind, misses_require, resolvedMissing]

private theorem not_misses_newLines (u : CaseTables) (body : AddItemsBody) :
    ¬ Misses (body.newLines u) := by
  unfold AddItemsBody.newLines
  split
  · simp [validateMultibuySize, misses_bind, misses_require, not_misses_parsedLines,
      resolvedMissing]
  · simp [misses_require, resolvedMissing]
  · simp [Misses, resolvedMissing]

private theorem not_misses_validateMarketsForGroup (c : Catalog) (groupId : Uuid)
    (ms : List Market) :
    ¬ Misses (validateMarketsForGroup c groupId ms) := by
  induction ms with
  | nil => exact not_misses_ok ()
  | cons m ms ih =>
    have one : ¬ Misses (validateMarket c groupId m) := by
      unfold validateMarket
      cases m.kind <;> simp [misses_bind, misses_require, resolvedMissing]
    simp [validateMarketsForGroup, misses_bind, one, ih]

private theorem not_misses_resolveNames (u : CaseTables) (w : World) (names : List Text) :
    ¬ Misses (resolveNames u w names) := by
  unfold resolveNames
  rw [misses_fetch]
  rintro ⟨-, name, same⟩
  exact internal_ne_resolvedMissing (by decide) same

private theorem not_misses_insertItems (s : Db) (listId userId : Uuid) (lines : List NewLine)
    (ids : List Uuid) : ¬ Misses (Api.Lists.insertItems s listId userId lines ids) := by
  unfold Api.Lists.insertItems
  rw [misses_bind, misses_require]
  rintro (⟨-, name, same⟩ | ⟨_, -, h⟩)
  · exact internal_ne_resolvedMissing (by decide) same
  · exact not_misses_ok _ h

private theorem not_misses_resolvedCreate (s : Db) (limits : Limits) (userId groupId : Uuid)
    (rows : List NewLine) (listId : Uuid) (itemIds : List Uuid) :
    ¬ Misses (Api.Lists.create s limits userId groupId rows listId itemIds) := by
  have tip : ∀ name, ApiError.internal "null value in column tip_pct" ≠ resolvedMissing name :=
    fun _ => internal_ne_resolvedMissing (by decide)
  have key : ∀ name, DbError.duplicateKey.toApi ≠ resolvedMissing name :=
    fun _ => internal_ne_resolvedMissing (by decide)
  simp only [Api.Lists.create, Api.Lists.validateLines, Api.Lists.checkListsQuota, misses_bind,
    misses_require, misses_fetch, not_misses_currentGroup, not_misses_insertItems, tip, key]
  simp [resolvedMissing]

private theorem not_misses_resolvedPatch (s : Db) (userId listId itemId : Uuid)
    (body : Api.Lists.PatchItemBody) :
    ¬ Misses (Api.Lists.patchItem s userId listId itemId body) := by
  simp only [Api.Lists.patchItem, CurrentList.requireMutable, Api.ItemStatus.lockList, misses_bind,
    misses_require, misses_fetch, not_misses_currentList, not_misses_ok]
  simp [resolvedMissing, ApiError.missing]

end Steps

section Lines
variable {u : CaseTables} {w : World}

private theorem misses_typedLines {resolved : Text → Option ResolvedType} {lines : List NamedLine} :
    Misses (typedLines u resolved lines) ↔
      ∃ l ∈ lines, resolved (nameKey u l.name) = none := by
  induction lines with
  | nil => simp [typedLines]
  | cons l ls ih =>
    have own : Misses (typedLine u resolved l) ↔ resolved (nameKey u l.name) = none := by
      unfold typedLine
      rw [misses_bind, misses_fetch]
      simp
    cases found : resolved (nameKey u l.name) with
    | none => simp [typedLines, misses_bind, own, found]
    | some r => simp [typedLines, typedLine, misses_bind, found, fetch, ih]

private theorem parsedLines_named {mb : Text} {lines : List NamedLine}
    (h : parsedLines u mb = .ok lines) : ∀ l ∈ lines, nameKey u l.name ≠ [] := by
  simp only [parsedLines, bind_eq_ok, require_eq_ok, pure_eq_ok] at h
  obtain ⟨-, -, -, -, -, -, rfl⟩ := h
  intro l hl
  obtain ⟨p, hp, rfl⟩ := List.mem_map.mp hl
  rw [Multibuy.parseMultibuy_eq] at hp
  exact (Multibuy.summary_sound hp).1

/-- After the report was empty a name is missing exactly when it has no key. -/
private theorem misses_resolved_iff {lines : List NamedLine} {r : Resolution}
    (h : resolveNames u w (lines.map NamedLine.name) = .ok r) (quiet : r.unresolved = []) :
    Misses (typedLines u r.resolved lines) ↔ ∃ l ∈ lines, nameKey u l.name = [] := by
  rw [resolveNames, fetch_eq_ok] at h
  rw [misses_typedLines]
  constructor
  · rintro ⟨l, hl, missing⟩
    refine ⟨l, hl, not_not.mp fun keyed => ?_⟩
    obtain ⟨m, -, -, reported⟩ :=
      reported_of_keyed h (List.mem_map_of_mem hl) keyed missing
    rw [quiet] at reported
    exact absurd reported List.not_mem_nil
  · rintro ⟨l, hl, empty⟩
    exact ⟨l, hl, empty ▸ resolved_nil h⟩

end Lines

section Requests
variable {u : CaseTables} {w : World}

private theorem not_misses_create {s : Db} {c : Catalog} {limits : Limits} {userId groupId : Uuid}
    {body : CreateBody} {listId : Uuid} {itemIds : List Uuid} :
    ¬ Misses (create u w s c limits userId groupId body listId itemIds) := by
  unfold create
  simp only [misses_bind, not_misses_currentGroup, not_misses_parsedLines,
    not_misses_validateMarketsForGroup, not_misses_resolveNames, not_misses_resolvedCreate,
    validateMultibuySize, validateMarketIdsSize, checkDistinctNames, Api.Lists.checkListsQuota,
    loadMarkets, requireResolved, misses_require, require_eq_ok, not_misses_pure]
  simp only [resolvedMissing, reduceCtorEq, exists_false, and_false, false_or, or_false]
  rintro ⟨-, -, -, -, -, -, -, -, lines, parsed, -, -, -, -, -, -, -, -, -, -, r, hr, -, quiet, h⟩
  obtain ⟨l, hl, empty⟩ := (misses_resolved_iff hr quiet).mp h
  exact parsedLines_named parsed l hl empty

/-- A single name comes with a key. -/
def NamedItem (u : CaseTables) (body : AddItemsBody) : Prop :=
  body.multibuy = none → ∀ n ∈ body.typeName, ∀ q ∈ body.qty, 0 < q → nameKey u n ≠ []

def NamedPatch (u : CaseTables) (body : PatchItemBody) : Prop :=
  ∀ n ∈ body.typeName, nameKey u n ≠ []

private theorem newLines_named {body : AddItemsBody} (named : NamedItem u body)
    {lines : List NamedLine}
    (h : body.newLines u = .ok lines) : ∀ l ∈ lines, nameKey u l.name ≠ [] := by
  unfold AddItemsBody.newLines at h
  split at h
  · simp only [bind_eq_ok] at h
    obtain ⟨-, -, h⟩ := h
    exact parsedLines_named h
  · rename_i name qty paste single amount
    simp only [bind_eq_ok, require_eq_ok, pure_eq_ok] at h
    obtain ⟨-, pos, rfl⟩ := h
    intro l hl
    obtain rfl := List.mem_singleton.mp hl
    exact named paste name single qty amount pos
  · cases h

private theorem not_misses_addItems {body : AddItemsBody} (named : NamedItem u body) {s : Db}
    {limits : Limits} {userId listId : Uuid} {itemIds : List Uuid} :
    ¬ Misses (addItems u w s limits userId listId body itemIds) := by
  unfold addItems
  simp only [misses_bind, not_misses_currentList, not_misses_newLines, not_misses_resolveNames,
    not_misses_insertItems, CurrentList.requireOpen, checkDistinctNames, requireResolved,
    Api.ItemStatus.lockList, misses_require, require_eq_ok]
  simp only [resolvedMissing, ApiError.missing, reduceCtorEq, exists_false, and_false, false_or,
    or_false]
  rintro ⟨-, -, -, -, lines, hlines, -, -, r, hr, -, quiet, -, -, -, -, h⟩
  obtain ⟨l, hl, empty⟩ := (misses_resolved_iff hr quiet).mp h
  exact newLines_named named hlines l hl empty

private theorem not_misses_patchItem {body : PatchItemBody} (named : NamedPatch u body) {s : Db}
    {userId listId itemId : Uuid} :
    ¬ Misses (patchItem u w s userId listId itemId body) := by
  have type : ¬ Misses (body.typeName.mapM (resolvedType u w)) := by
    cases given : body.typeName with
    | none =>
      rw [Option.mapM_none]
      exact not_misses_pure none
    | some n =>
      rw [Option.mapM_some, misses_map]
      unfold resolvedType
      simp only [misses_bind, not_misses_resolveNames, misses_require, require_eq_ok]
      simp only [resolvedMissing, reduceCtorEq, exists_false, and_false, false_or]
      rintro ⟨r, hr, -, quiet, h⟩
      rw [misses_fetch] at h
      rw [resolveNames, fetch_eq_ok] at hr
      obtain ⟨m, -, -, reported⟩ :=
        reported_of_keyed hr List.mem_cons_self (named n given) h.1
      rw [quiet] at reported
      exact List.not_mem_nil reported
  unfold patchItem
  simp only [misses_bind, not_misses_currentList, type, not_misses_resolvedPatch,
    CurrentList.requireMutable, misses_require, require_eq_ok]
  simp [resolvedMissing]

private theorem resolveTypeIds_blank {names : List Text} (blank : ∀ n ∈ names, nameKey u n = []) :
    resolveTypeIds u w names = some w.nothing := by
  have none_asked : requested u names = [] := by
    refine List.eq_nil_iff_forall_not_mem.mpr fun p hp => ?_
    obtain ⟨n, hn, -, keyed⟩ := mem_requested hp
    exact keyed (blank n hn)
  unfold resolveTypeIds
  dsimp only
  rw [if_pos none_asked, ite_self]

def oneList : Db where
  directory := { groupMemberships := [⟨1, 1, .member⟩] }
  lists := [⟨1, 1, 1, .open, 0, none⟩]

private theorem misses_addItems_of_blank {body : AddItemsBody} (blank : ¬ NamedItem u body) :
    Misses (addItems u w oneList ⟨1, 1⟩ 1 1 body []) := by
  simp only [NamedItem, Classical.not_imp, not_forall, not_not] at blank
  obtain ⟨paste, n, single, q, amount, pos, empty⟩ := blank
  have lines : body.newLines u = .ok [⟨n, q, 0⟩] := by
    rw [AddItemsBody.newLines, paste, Option.mem_def.mp single, Option.mem_def.mp amount]
    simp [require, pos]
  have resolved : resolveNames u w [n] = .ok w.nothing := by
    rw [resolveNames, resolveTypeIds_blank (by simpa using empty)]
    rfl
  have cur : currentList oneList 1 1 = .ok ⟨1, 1, 1, .member, 1, .open⟩ := rfl
  refine misses_bind.mpr (.inr ⟨_, cur, misses_bind.mpr (.inr ⟨(), rfl, ?_⟩)⟩)
  refine misses_bind.mpr (.inr ⟨_, lines, misses_bind.mpr (.inr ⟨(), rfl, ?_⟩)⟩)
  refine misses_bind.mpr (.inr ⟨_, resolved, misses_bind.mpr (.inr ⟨(), rfl, ?_⟩)⟩)
  refine misses_bind.mpr (.inr ⟨(), rfl, misses_bind.mpr (.inr ⟨(), rfl, ?_⟩)⟩)
  refine misses_bind.mpr (.inl (misses_typedLines.mpr ⟨_, List.mem_cons_self, rfl⟩))

private theorem misses_patchItem_of_blank {body : PatchItemBody} (blank : ¬ NamedPatch u body) :
    Misses (patchItem u w oneList 1 1 1 body) := by
  simp only [NamedPatch, not_forall, not_not] at blank
  obtain ⟨n, given, empty⟩ := blank
  have resolved : resolveNames u w [n] = .ok w.nothing := by
    rw [resolveNames, resolveTypeIds_blank (by simpa using empty)]
    rfl
  have cur : currentList oneList 1 1 = .ok ⟨1, 1, 1, .member, 1, .open⟩ := rfl
  refine misses_bind.mpr (.inr ⟨_, cur, misses_bind.mpr (.inr ⟨(), rfl, ?_⟩)⟩)
  refine misses_bind.mpr (.inr ⟨(), ?_, misses_bind.mpr (.inl ?_)⟩)
  · rw [require_eq_ok, Option.mem_def.mp given]
    exact .inr (Option.some_ne_none n)
  · rw [Option.mem_def.mp given, Option.mapM_some, misses_map]
    refine misses_bind.mpr (.inr ⟨_, resolved, misses_bind.mpr (.inr ⟨(), rfl, ?_⟩)⟩)
    exact misses_fetch.mpr ⟨rfl, n, rfl⟩

end Requests

section Refinement
variable {u : CaseTables} {w : World}

theorem typedLines_ok {resolved : Text → Option ResolvedType} {lines : List NamedLine}
    {rows : List NewLine} (h : typedLines u resolved lines = .ok rows) :
    rows.map NewLine.qty = lines.map NamedLine.qty := by
  induction lines generalizing rows with
  | nil =>
    obtain rfl := Except.ok.inj h
    rfl
  | cons l ls ih =>
    simp only [typedLines, typedLine, bind_eq_ok, fetch_eq_ok, pure_eq_ok] at h
    obtain ⟨n, ⟨r, -, rfl⟩, ns, rest, rfl⟩ := h
    rw [List.map_cons, List.map_cons, ih rest]

/-- What the resolved requests check of their lines. -/
structure Accepted (lines : List NamedLine) : Prop where
  positive : ∀ l ∈ lines, 0 < l.qty
  nonempty : lines ≠ []
  short : lines.length ≤ Api.Lists.maxParsedLines

private theorem accepted_parsedLines {mb : Text} {lines : List NamedLine}
    (h : parsedLines u mb = .ok lines) : Accepted lines := by
  simp only [parsedLines, bind_eq_ok, require_eq_ok, pure_eq_ok] at h
  obtain ⟨-, -, -, nonempty, -, short, rfl⟩ := h
  refine ⟨fun l hl => ?_, fun empty => nonempty (List.map_eq_nil_iff.mp empty), ?_⟩
  · obtain ⟨p, hp, rfl⟩ := List.mem_map.mp hl
    rw [Multibuy.parseMultibuy_eq] at hp
    exact (Multibuy.summary_sound hp).2.1
  · rw [List.length_map]
    exact short

private theorem accepted_newLines {body : AddItemsBody} {lines : List NamedLine}
    (h : body.newLines u = .ok lines) : Accepted lines := by
  unfold AddItemsBody.newLines at h
  split at h
  · simp only [bind_eq_ok] at h
    obtain ⟨-, -, h⟩ := h
    exact accepted_parsedLines h
  · simp only [bind_eq_ok, require_eq_ok, pure_eq_ok] at h
    obtain ⟨-, pos, rfl⟩ := h
    exact ⟨by simpa using pos, by simp, by simp [Api.Lists.maxParsedLines]⟩
  · cases h

private theorem Accepted.validateLines {lines : List NamedLine} (accepted : Accepted lines)
    (distinct : lines.length ≤ Api.Lists.maxDistinctNames) {rows : List NewLine}
    (typed : rows.map NewLine.qty = lines.map NamedLine.qty) :
    Api.Lists.validateLines rows = .ok () := by
  have length : rows.length = lines.length := by simpa using congrArg List.length typed
  simp only [Api.Lists.validateLines, bind_eq_ok, require_eq_ok]
  refine ⟨(), fun n hn => ?_, (), fun empty => ?_, (), length ▸ accepted.short, length ▸ distinct⟩
  · obtain ⟨l, hl, same⟩ := List.mem_map.mp (typed ▸ List.mem_map_of_mem hn)
    exact same ▸ accepted.positive l hl
  · rw [empty] at length
    exact accepted.nonempty (List.length_eq_zero_iff.mp length.symm)

theorem addItems_resolved {s s' : Db} {limits : Limits} {userId listId : Uuid}
    {body : AddItemsBody} {itemIds : List Uuid}
    (h : addItems u w s limits userId listId body itemIds = .ok s') :
    ∃ lines rows, body.newLines u = .ok lines ∧ rows.map NewLine.qty = lines.map NamedLine.qty ∧
      Api.Lists.addItems s limits userId listId rows itemIds = .ok s' := by
  simp only [addItems, checkDistinctNames, bind_eq_ok, require_eq_ok] at h
  obtain ⟨cur, hcur, _, hopen, lines, hlines, -, distinct, r, -, -, -, _, hlock, -, hcap, rows,
    typed, h⟩ := h
  have qtys := typedLines_ok typed
  have length : rows.length = lines.length := by simpa using congrArg List.length qtys
  refine ⟨lines, rows, hlines, qtys, ?_⟩
  simp only [Api.Lists.addItems, bind_eq_ok, require_eq_ok]
  refine ⟨cur, hcur, _, hopen, (), (accepted_newLines hlines).validateLines distinct qtys, _,
    hlock, (), ?_, h⟩
  rw [length]
  exact hcap

variable (u w) in
def createRows (mb : Text) : Except ApiError (List NewLine) := do
  let lines ← parsedLines u mb
  let r ← resolveNames u w (lines.map NamedLine.name)
  requireResolved r
  typedLines u r.resolved lines

theorem createRows_ok {mb : Text} {rows : List NewLine} (h : createRows u w mb = .ok rows) :
    rows.map NewLine.qty = (parseMultibuy u mb).lines.map ParsedLine.qty := by
  simp only [createRows, bind_eq_ok] at h
  obtain ⟨lines, parsed, r, -, -, -, typed⟩ := h
  rw [typedLines_ok typed]
  simp only [parsedLines, bind_eq_ok, require_eq_ok, pure_eq_ok] at parsed
  obtain ⟨-, -, -, -, -, -, rfl⟩ := parsed
  rw [List.map_map]
  rfl

theorem create_resolved {s s' : Db} {c : Catalog} {limits : Limits} {userId groupId : Uuid}
    {body : CreateBody} {listId : Uuid} {itemIds : List Uuid}
    (h : create u w s c limits userId groupId body listId itemIds = .ok s') :
    ∃ rows, createRows u w body.multibuy = .ok rows ∧
      Api.Lists.create s limits userId groupId rows listId itemIds = .ok s' := by
  simp only [create, bind_eq_ok] at h
  obtain ⟨-, -, -, -, -, -, -, -, lines, parsed, -, -, -, -, -, -, -, -, -, -, r, hr, _, quiet, rows,
    typed, h⟩ := h
  refine ⟨rows, ?_, h⟩
  simp only [createRows, bind_eq_ok]
  exact ⟨lines, parsed, r, hr, _, quiet, typed⟩

theorem patchItem_resolved {s s' : Db} {userId listId itemId : Uuid} {body : PatchItemBody}
    (h : patchItem u w s userId listId itemId body = .ok s') :
    ∃ type, Api.Lists.patchItem s userId listId itemId ⟨body.qtyRequested, type⟩ = .ok s' := by
  simp only [patchItem, bind_eq_ok] at h
  obtain ⟨-, -, -, -, -, -, type, -, h⟩ := h
  exact ⟨_, h⟩

end Refinement

/-- Resolving is exhaustive for names that have a key. A paste has only such names; of the
requests with a single name the branch for a missing type is out of reach exactly when that name
has a key. -/
theorem resolution_exhaustive_iff (u : CaseTables) :
    (∀ w names r, resolveTypeIds u w names = some r →
      (Exhaustive u names r ↔ ∀ n ∈ names, nameKey u n ≠ [])) ∧
    (∀ w s c limits userId groupId body listId itemIds,
      ¬ Misses (create u w s c limits userId groupId body listId itemIds)) ∧
    (∀ body, (∀ w s limits userId listId itemIds,
      ¬ Misses (addItems u w s limits userId listId body itemIds)) ↔ NamedItem u body) ∧
    ∀ body, (∀ w s userId listId itemId,
      ¬ Misses (patchItem u w s userId listId itemId body)) ↔ NamedPatch u body := by
  refine ⟨fun w names r h => exhaustive_iff h, ?_, fun body => ⟨fun never => ?_, ?_⟩,
    fun body => ⟨fun never => ?_, ?_⟩⟩
  · intro w s c limits userId groupId body listId itemIds
    exact not_misses_create
  · by_contra blank
    exact never ⟨[], true, fun _ => none, true⟩ _ _ _ _ _ (misses_addItems_of_blank blank)
  · intro named w s limits userId listId itemIds
    exact not_misses_addItems named
  · by_contra blank
    exact never ⟨[], true, fun _ => none, true⟩ _ _ _ _ (misses_patchItem_of_blank blank)
  · intro named w s userId listId itemId
    exact not_misses_patchItem named

/-- Two spaces for a name are neither resolved nor reported, and the request fails inside. -/
theorem blank_name_missing :
    let w : World := ⟨[], true, fun _ => some [], true⟩
    let body : AddItemsBody := ⟨none, some "  ".toList, some 1⟩
    (∃ r, resolveTypeIds asciiTables w ["  ".toList] = some r ∧ r.unresolved = [] ∧
      r.resolved (nameKey asciiTables "  ".toList) = none) ∧
    addItems asciiTables w oneList ⟨1, 1⟩ 1 1 body [] =
      .error (.internal "resolved missing for   ") := by
  refine ⟨⟨_, rfl, rfl, rfl⟩, rfl⟩

end JitaCart.Markets.Requests
