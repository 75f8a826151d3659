/- module: JitaCart/Base/Identity
   source: none (library)
   digest: Tables whose rows have an id of their own beside the key they are looked up by. -/

import JitaCart.Base.Table

/-!
An upsert by the key keeps the id of the row that it finds, and gives a new row
an id that no other row has.
-/

set_option autoImplicit false
set_option relaxedAutoImplicit false

namespace JitaCart.Base.Table

variable {α ι κ : Type} [DecidableEq ι] [DecidableEq κ] (id : α → ι) (key : α → κ)

/-- The row is the next version of the current one, or is new. -/
def Succeeds (t : List α) (after : α) : Prop :=
  match lookup key (key after) t with
  | some row => id after = id row
  | none => lookup id (id after) t = none

/-- The rows under held keys are the same, held ids stay free, and every row keeps its id. -/
structure Agrees (heldKey : κ → Prop) (heldId : ι → Prop) (t t' : List α) : Prop where
  rows : ∀ k, heldKey k → lookup key k t' = lookup key k t
  free : ∀ i, heldId i → lookup id i t = none → lookup id i t' = none
  stay : ∀ r ∈ t, ∃ r' ∈ t', id r' = id r ∧ key r' = key r

variable {id key}

section Succeeds
variable {t : List α} {after row : α}

theorem Succeeds.of_some (current : lookup key (key after) t = some row)
    (same : id after = id row) : Succeeds id key t after := by
  unfold Succeeds
  rw [current]
  exact same

theorem Succeeds.of_none (current : lookup key (key after) t = none)
    (free : lookup id (id after) t = none) : Succeeds id key t after := by
  unfold Succeeds
  rw [current]
  exact free

/-- The row of a key keeps its id, and a new one has an id of its own. -/
private theorem Succeeds.id_iff (h : Succeeds id key t after) (ids : Keyed id t)
    (keys : Keyed key t) (hrow : row ∈ t) : id row = id after ↔ key row = key after := by
  unfold Succeeds at h
  cases hc : lookup key (key after) t with
  | some old =>
    rw [hc] at h
    obtain ⟨hold, hkey⟩ := lookup_mem hc
    constructor
    · intro same
      rw [ids.eq_of_key hrow hold (same.trans h), hkey]
    · intro same
      rw [keys.eq_of_key hrow hold (same.trans hkey.symm), h]
  | none =>
    rw [hc] at h
    exact ⟨fun same => absurd same (lookup_eq_none.mp h row hrow),
      fun same => absurd same (lookup_eq_none.mp hc row hrow)⟩

theorem mem_replace_some : row ∈ replace key (key after) (some after) t ↔
    (row ∈ t ∧ key row ≠ key after) ∨ row = after :=
  Iff.trans mem_replace
    (or_congr Iff.rfl ⟨fun h => (Option.some.inj h).symm, fun h => congrArg some h.symm⟩)

theorem lookup_replace_some (k : κ) : lookup key k (replace key (key after) (some after) t) =
    if k = key after then some after else lookup key k t :=
  lookup_replace (fun r hr => by rw [← Option.some.inj hr]) k

theorem keyed_replace_some (keys : Keyed key t) :
    Keyed key (replace key (key after) (some after) t) :=
  keyed_replace keys fun r hr => by rw [← Option.some.inj hr]

theorem Succeeds.ids (h : Succeeds id key t after) (ids : Keyed id t) (keys : Keyed key t) :
    Keyed id (replace key (key after) (some after) t) := by
  refine (ids.filter _).append_list (by simp [Keyed]) fun a ha b hb => ?_
  obtain ⟨ha, other⟩ := List.mem_filter.mp ha
  rw [List.mem_singleton.mp hb]
  exact fun same => of_decide_eq_true other ((h.id_iff ids keys ha).mp same)

private theorem Succeeds.free_iff (h : Succeeds id key t after) (ids : Keyed id t)
    (keys : Keyed key t) {i : ι} : lookup id i (replace key (key after) (some after) t) = none ↔
      lookup id i t = none ∧ i ≠ id after := by
  simp only [lookup_eq_none, mem_replace_some]
  constructor
  · intro unused
    refine ⟨fun row hrow same => ?_, fun same => unused after (.inr rfl) same.symm⟩
    refine unused row (.inl ⟨hrow, fun hkey => ?_⟩) same
    exact unused after (.inr rfl) (((h.id_iff ids keys hrow).mpr hkey).symm.trans same)
  · rintro ⟨unused, other⟩ row (⟨hrow, -⟩ | rfl)
    · exact unused row hrow
    · exact Ne.symm other

theorem Succeeds.mem_iff (h : Succeeds id key t after) (ids : Keyed id t) (keys : Keyed key t)
    (other : id row ≠ id after) : row ∈ replace key (key after) (some after) t ↔ row ∈ t := by
  rw [mem_replace_some]
  constructor
  · rintro (⟨hrow, -⟩ | rfl)
    · exact hrow
    · exact absurd rfl other
  · exact fun hrow => .inl ⟨hrow, fun hkey => other ((h.id_iff ids keys hrow).mpr hkey)⟩

end Succeeds

namespace Agrees

variable {heldKey few : κ → Prop} {heldId fewIds : ι → Prop} {t t' t'' : List α} {after : α}

theorem refl (t : List α) : Agrees id key heldKey heldId t t where
  rows _ _ := rfl
  free _ _ h := h
  stay r hr := ⟨r, hr, rfl, rfl⟩

theorem trans (h : Agrees id key heldKey heldId t t') (h' : Agrees id key heldKey heldId t' t'') :
    Agrees id key heldKey heldId t t'' where
  rows k hk := (h'.rows k hk).trans (h.rows k hk)
  free i hi unused := h'.free i hi (h.free i hi unused)
  stay r hr := by
    obtain ⟨r', hr', hid, hkey⟩ := h.stay r hr
    obtain ⟨r'', hr'', hid', hkey'⟩ := h'.stay r' hr'
    exact ⟨r'', hr'', hid'.trans hid, hkey'.trans hkey⟩

theorem mono (keys : ∀ k, few k → heldKey k) (ids : ∀ i, fewIds i → heldId i)
    (h : Agrees id key heldKey heldId t t') : Agrees id key few fewIds t t' :=
  ⟨fun k hk => h.rows k (keys k hk), fun i hi => h.free i (ids i hi), h.stay⟩

theorem succeeds (h : Agrees id key heldKey heldId t t') (hs : Succeeds id key t after)
    (held : heldKey (key after)) (pk : lookup key (key after) t = none → heldId (id after)) :
    Succeeds id key t' after := by
  unfold Succeeds at hs ⊢
  rw [h.rows _ held]
  cases hc : lookup key (key after) t with
  | some old =>
    rw [hc] at hs
    exact hs
  | none =>
    rw [hc] at hs
    exact h.free _ (pk hc) hs

theorem put (h : Agrees id key heldKey heldId t t') (ids : Keyed id t) (keys : Keyed key t)
    (ids' : Keyed id t') (keys' : Keyed key t') (hs : Succeeds id key t after)
    (hs' : Succeeds id key t' after) : Agrees id key heldKey heldId
      (replace key (key after) (some after) t) (replace key (key after) (some after) t') where
  rows k hk := by rw [lookup_replace_some, lookup_replace_some, h.rows k hk]
  free i hi unused := by
    obtain ⟨before, other⟩ := (hs.free_iff ids keys).mp unused
    exact (hs'.free_iff ids' keys').mpr ⟨h.free i hi before, other⟩
  stay r hr := by
    rcases mem_replace_some.mp hr with ⟨old, other⟩ | rfl
    · obtain ⟨r', hr', hid, hkey⟩ := h.stay r old
      exact ⟨r', mem_replace_some.mpr (.inl ⟨hr', hkey ▸ other⟩), hid, hkey⟩
    · exact ⟨r, mem_replace_some.mpr (.inr rfl), rfl, rfl⟩

/-- A version put where nobody holds its key, nor the id of a new row, is not seen. -/
theorem of_put (ids : Keyed id t) (keys : Keyed key t) (hs : Succeeds id key t after)
    (other : ∀ k, heldKey k → k ≠ key after)
    (fresh : lookup key (key after) t = none → ¬ heldId (id after)) :
    Agrees id key heldKey heldId t (replace key (key after) (some after) t) where
  rows k hk := by rw [lookup_replace_some, if_neg (other k hk)]
  free i hi unused := by
    refine (hs.free_iff ids keys).mpr ⟨unused, fun same => ?_⟩
    subst same
    cases hc : lookup key (key after) t with
    | none => exact fresh hc hi
    | some row =>
      obtain ⟨hrow, hkey⟩ := lookup_mem hc
      exact lookup_eq_none.mp unused row hrow ((hs.id_iff ids keys hrow).mpr hkey)
  stay r hr := by
    by_cases same : key r = key after
    · exact ⟨after, mem_replace_some.mpr (.inr rfl), ((hs.id_iff ids keys hr).mpr same).symm,
        same.symm⟩
    · exact ⟨r, mem_replace_some.mpr (.inl ⟨hr, same⟩), rfl, rfl⟩

end Agrees

end JitaCart.Base.Table
