/- module: JitaCart/Markets/Resolution
   source: backend/crates/market/src/types.rs (resolve_type_ids)
   digest: Every requested key is resolved or reported, and a name without a key is neither. -/

import JitaCart.Markets.Types

set_option autoImplicit false
set_option relaxedAutoImplicit false

namespace JitaCart.Markets.Resolution

open Base.Strings Domain.Multibuy Types

private theorem isWhitespace_replaceChar (c : Char) :
    isWhitespace (if c = nbsp then ' ' else c) = isWhitespace c := by
  split
  · rename_i hard
    subst hard
    decide
  · rfl

/-- Hard spaces are white space, so it does not matter whether they are replaced first. -/
private theorem original_eq (name : Text) : original name = normalized name := by
  have same : isWhitespace ∘ (fun c : Char => if c = nbsp then ' ' else c) = isWhitespace := by
    funext c
    exact isWhitespace_replaceChar c
  unfold original normalized trim replaceChar
  rw [List.dropWhile_map, same]
  unfold List.rdropWhile
  rw [← List.map_reverse, List.dropWhile_map, same, List.map_reverse]

private theorem normalized_normalized (name : Text) :
    normalized (normalized name) = normalized name := by
  have plain : replaceChar nbsp ' ' (normalized name) = normalized name := by
    rw [← original_eq]
    unfold original replaceChar
    rw [List.map_map]
    refine List.map_congr_left fun c _ => ?_
    simp only [Function.comp_apply]
    split
    · decide
    · rfl
  unfold normalized at plain ⊢
  rw [plain]
  exact (trimmed_trim _).trim_eq

variable {u : CaseTables}

@[simp] theorem nameKey_original (name : Text) : nameKey u (original name) = nameKey u name := by
  unfold nameKey
  rw [original_eq, normalized_normalized]

private theorem indexed_eq_none {α β : Type} {key : α → Text} {value : α → β} {rows : List α}
    {k : Text} :
    indexed key value rows k = none ↔ k ∉ rows.map key := by
  induction rows using List.reverseRecOn with
  | nil => simp [indexed]
  | append_singleton rows r ih =>
    have step : indexed key value (rows ++ [r]) =
        Function.update (indexed key value rows) (key r) (some (value r)) := by
      simp [indexed, List.foldl_append]
    rw [step, Function.update_apply, List.map_append, List.mem_append]
    by_cases own : k = key r
    · simp [own]
    · simp [own, ih]

private theorem requested_append (names : List Text) (name : Text) :
    requested u (names ++ [name]) = request u (requested u names) name := by
  simp [requested, List.foldl_append]

theorem mem_requested {names : List Text} {p : Text × Text} (h : p ∈ requested u names) :
    ∃ n ∈ names, p = (nameKey u n, original n) ∧ nameKey u n ≠ [] := by
  induction names using List.reverseRecOn with
  | nil => simp [requested] at h
  | append_singleton names name ih =>
    have before : p ∈ requested u names →
        ∃ n ∈ names ++ [name], p = (nameKey u n, original n) ∧ nameKey u n ≠ [] := by
      intro old
      obtain ⟨n, hn, hp⟩ := ih old
      exact ⟨n, List.mem_append_left _ hn, hp⟩
    rw [requested_append] at h
    unfold request at h
    dsimp only at h
    split at h
    · exact before h
    · rename_i keyed
      split at h
      · exact before h
      · rcases List.mem_append.mp h with old | new
        · exact before old
        · exact ⟨name, by simp, List.mem_singleton.mp new, keyed⟩

private theorem key_mem_requested {names : List Text} {name : Text} (hn : name ∈ names)
    (keyed : nameKey u name ≠ []) : nameKey u name ∈ (requested u names).map Prod.fst := by
  induction names using List.reverseRecOn with
  | nil => simp at hn
  | append_singleton names last ih =>
    rw [requested_append]
    unfold request
    dsimp only
    rcases List.mem_append.mp hn with old | new
    · have known := ih old
      split
      · exact known
      · split
        · exact known
        · rw [List.map_append]
          exact List.mem_append_left _ known
    · obtain rfl := List.mem_singleton.mp new
      rw [if_neg keyed]
      split
      · assumption
      · simp

private theorem nodup_requested (names : List Text) : ((requested u names).map Prod.fst).Nodup := by
  induction names using List.reverseRecOn with
  | nil => exact List.nodup_nil
  | append_singleton names name ih =>
    rw [requested_append]
    unfold request
    dsimp only
    split
    · exact ih
    · split
      · exact ih
      · rename_i fresh
        rw [List.map_append, List.nodup_append]
        refine ⟨ih, by simp, ?_⟩
        intro a ha b hb
        simp only [List.map_cons, List.map_nil, List.mem_singleton] at hb
        rintro rfl
        exact fresh (hb ▸ ha)

def settled (haveKeys keys : List Text) (echoed : Text → Option InventoryType)
    (known : Text → Option ResolvedType) (k : Text) : Option ResolvedType :=
  if k ∈ keys ∧ k ∉ haveKeys then
    (echoed k).map fun entry => ⟨asI32 entry.id, entry.name⟩
  else known k

private theorem foldl_settle {haveKeys : List Text} {echoed : Text → Option InventoryType}
    {known : Text → Option ResolvedType} {requests : List (Text × Text)}
    (nodup : (requests.map Prod.fst).Nodup)
    (unknown : ∀ k ∈ requests.map Prod.fst, k ∉ haveKeys → known k = none) :
    (∀ k, (requests.foldl (settle haveKeys echoed) ⟨known, [], []⟩).resolved k =
      settled haveKeys (requests.map Prod.fst) echoed known k) ∧
    (requests.foldl (settle haveKeys echoed) ⟨known, [], []⟩).unresolved =
      (requests.filter fun p => decide (p.1 ∉ haveKeys) && (echoed p.1).isNone).map Prod.snd := by
  induction requests using List.reverseRecOn with
  | nil => exact ⟨fun k => by simp [settled], rfl⟩
  | append_singleton requests r ih =>
    rw [List.map_append, List.nodup_append] at nodup
    obtain ⟨resolved, unresolved⟩ := ih nodup.1 fun k hk => unknown k (by
      rw [List.map_append]
      exact List.mem_append_left _ hk)
    have other : ∀ k, k ≠ r.1 → settled haveKeys ((requests ++ [r]).map Prod.fst) echoed known k =
        settled haveKeys (requests.map Prod.fst) echoed known k := by
      intro k hk
      simp only [settled, List.map_append, List.map_cons, List.map_nil, List.mem_append,
        List.mem_singleton, hk, or_false]
    rw [List.foldl_append]
    simp only [List.foldl_cons, List.foldl_nil]
    generalize requests.foldl (settle haveKeys echoed) ⟨known, [], []⟩ = a at *
    by_cases cached : r.1 ∈ haveKeys
    · refine ⟨fun k => ?_, ?_⟩
      · rw [settle, if_pos cached, resolved k]
        by_cases own : k = r.1
        · simp [settled, own, cached]
        · exact (other k own).symm
      · rw [settle, if_pos cached, unresolved]
        simp [List.filter_append, cached]
    · have none_yet : known r.1 = none := unknown r.1 (by simp) cached
      cases echo : echoed r.1 with
      | some entry =>
        refine ⟨fun k => ?_, ?_⟩
        · simp only [settle, if_neg cached, echo, Function.update_apply]
          by_cases own : k = r.1
          · simp [settled, own, cached, echo]
          · rw [if_neg own, resolved k, other k own]
        · simp only [settle, if_neg cached, echo, unresolved]
          simp [List.filter_append, echo]
      | none =>
        refine ⟨fun k => ?_, ?_⟩
        · simp only [settle, if_neg cached, echo, resolved k]
          by_cases own : k = r.1
          · subst own
            simp [settled, cached, echo, none_yet]
          · exact (other k own).symm
        · simp only [settle, if_neg cached, echo, unresolved]
          simp [List.filter_append, cached, echo]

private theorem cachedTypes_eq_none {rows : List CacheRow} {k : Text} :
    cachedTypes rows k = none ↔ k ∉ rows.map CacheRow.nameKey :=
  indexed_eq_none

/-- Only requested keys are resolved, and those that are not are reported, each under one name. -/
private theorem resolveTypeIds_spec {w : World} {names : List Text} {r : Resolution}
    (h : resolveTypeIds u w names = some r) :
    (∀ k, r.resolved k ≠ none → k ∈ (requested u names).map Prod.fst) ∧
    r.unresolved = ((requested u names).filter fun p => (r.resolved p.1).isNone).map Prod.snd := by
  unfold resolveTypeIds at h
  dsimp only at h
  split at h
  · rename_i empty
    subst empty
    obtain rfl := Option.some.inj h
    exact ⟨fun k hk => absurd rfl hk, rfl⟩
  split at h
  · rename_i empty
    obtain rfl := Option.some.inj h
    rw [empty]
    exact ⟨fun k hk => absurd rfl hk, rfl⟩
  split at h
  · cases h
  generalize hcached : (w.cache.filter fun c =>
    decide (c.nameKey ∈ (requested u names).map Prod.fst)) = cached at h
  have ours : ∀ k ∈ cached.map CacheRow.nameKey, k ∈ (requested u names).map Prod.fst := by
    intro k hk
    obtain ⟨c, hc, rfl⟩ := List.mem_map.mp hk
    rw [← hcached] at hc
    simpa using (List.mem_filter.mp hc).2
  have fromCache : ∀ k, cachedTypes cached k ≠ none → k ∈ (requested u names).map Prod.fst :=
    fun k hk => ours k (not_not.mp fun missing => hk (cachedTypes_eq_none.mpr missing))
  split at h
  · rename_i complete
    obtain rfl := Option.some.inj h
    refine ⟨fromCache, ?_⟩
    rw [List.map_eq_nil_iff, List.filter_eq_nil_iff] at complete
    rw [eq_comm, List.map_eq_nil_iff, List.filter_eq_nil_iff]
    intro p hp missing
    have := complete p hp
    simp only [Option.isNone_iff_eq_none, cachedTypes_eq_none] at missing
    exact this (decide_eq_true missing)
  · obtain ⟨entries, -, h⟩ := Option.bind_eq_some_iff.mp h
    obtain ⟨resolved, unresolved⟩ := @foldl_settle (cached.map CacheRow.nameKey)
      (echoes u entries) (cachedTypes cached) (requested u names) (nodup_requested names)
      fun k _ missing => cachedTypes_eq_none.mpr missing
    generalize ((requested u names).foldl
      (settle (cached.map CacheRow.nameKey) (echoes u entries)) ⟨cachedTypes cached, [], []⟩) = a
      at h resolved unresolved
    have parts : r.resolved = a.resolved ∧ r.unresolved = a.unresolved := by
      split at h
      · obtain rfl := Option.some.inj h
        exact ⟨rfl, rfl⟩
      · split at h
        · obtain rfl := Option.some.inj h
          exact ⟨rfl, rfl⟩
        · cases h
    rw [parts.1, parts.2, unresolved]
    refine ⟨fun k hk => ?_, congrArg _ (List.filter_congr fun p hp => ?_)⟩
    · rw [resolved k, settled] at hk
      split at hk
      · rename_i asked
        exact asked.1
      · exact fromCache k hk
    · have asked : p.1 ∈ (requested u names).map Prod.fst := List.mem_map_of_mem hp
      rw [resolved p.1, settled]
      by_cases known : p.1 ∈ cached.map CacheRow.nameKey
      · have found : cachedTypes cached p.1 ≠ none := fun missing =>
          cachedTypes_eq_none.mp missing known
        rw [if_neg fun both => both.2 known]
        cases value : cachedTypes cached p.1 with
        | none => exact absurd value found
        | some t => simp [known]
      · rw [if_pos ⟨asked, known⟩]
        simp [known]

/-- What the callers rely on: without a report every name has its type, and a name that has none
is reported in the spelling of a name with its key. -/
def Exhaustive (u : CaseTables) (names : List Text) (r : Resolution) : Prop :=
  (r.unresolved = [] → ∀ n ∈ names, r.resolved (nameKey u n) ≠ none) ∧
  ∀ n ∈ names, r.resolved (nameKey u n) = none →
    ∃ m ∈ names, nameKey u m = nameKey u n ∧ original m ∈ r.unresolved

theorem resolved_nil {w : World} {names : List Text} {r : Resolution}
    (h : resolveTypeIds u w names = some r) : r.resolved [] = none := by
  by_contra found
  obtain ⟨p, hp, empty⟩ := List.mem_map.mp ((resolveTypeIds_spec h).1 [] found)
  obtain ⟨n, -, rfl, keyed⟩ := mem_requested hp
  exact keyed empty

theorem reported_of_keyed {w : World} {names : List Text} {r : Resolution} {n : Text}
    (h : resolveTypeIds u w names = some r) (hn : n ∈ names) (keyed : nameKey u n ≠ [])
    (missing : r.resolved (nameKey u n) = none) :
    ∃ m ∈ names, nameKey u m = nameKey u n ∧ original m ∈ r.unresolved := by
  obtain ⟨p, hp, key⟩ := List.mem_map.mp (key_mem_requested hn keyed)
  obtain ⟨m, hm, rfl, -⟩ := mem_requested hp
  refine ⟨m, hm, key, ?_⟩
  rw [(resolveTypeIds_spec h).2]
  refine List.mem_map.mpr ⟨_, List.mem_filter.mpr ⟨hp, ?_⟩, rfl⟩
  rw [key, missing]
  rfl

theorem exhaustive_iff {w : World} {names : List Text} {r : Resolution}
    (h : resolveTypeIds u w names = some r) :
    Exhaustive u names r ↔ ∀ n ∈ names, nameKey u n ≠ [] := by
  constructor
  · intro exhaustive n hn empty
    obtain ⟨m, -, key, reported⟩ := exhaustive.2 n hn (empty ▸ resolved_nil h)
    rw [(resolveTypeIds_spec h).2] at reported
    obtain ⟨p, hp, spelling⟩ := List.mem_map.mp reported
    obtain ⟨k, -, rfl, keyed⟩ := mem_requested (List.mem_filter.mp hp).1
    have same : nameKey u k = nameKey u m := by
      rw [← nameKey_original k, ← nameKey_original m]
      exact congrArg (nameKey u) spelling
    exact keyed (same.trans (key.trans empty))
  · intro keyed
    refine ⟨fun quiet n hn missing => ?_, fun n hn missing =>
      reported_of_keyed h hn (keyed n hn) missing⟩
    obtain ⟨m, -, -, reported⟩ := reported_of_keyed h hn (keyed n hn) missing
    rw [quiet] at reported
    exact absurd reported (List.not_mem_nil)

end JitaCart.Markets.Resolution
