/- module: JitaCart/Base/Table
   source: none (library)
   digest: Tables as lists of rows: keyed lookup, UPDATE WHERE, INSERT and SUM WHERE. -/

import Mathlib.Algebra.BigOperators.Group.List.Basic
import Mathlib.Algebra.Order.BigOperators.Group.List
import Mathlib.Algebra.Ring.Int.Defs
import Mathlib.Data.Int.Order.Basic
import Mathlib.Data.List.Nodup

set_option autoImplicit false
set_option relaxedAutoImplicit false

namespace JitaCart.Base.Table

variable {α β κ : Type}

/-- `UPDATE t SET f WHERE p`. -/
def updateWhere (p : α → Bool) (f : α → α) (t : List α) : List α :=
  t.map fun r => if p r then f r else r

/-- `SELECT COALESCE(SUM(v), 0) FROM t WHERE p`. -/
def sumWhere (p : α → Bool) (v : α → Int) (t : List α) : Int :=
  ((t.filter p).map v).sum

/-- The row with a given key, as a primary-key lookup reads it. -/
def lookup [DecidableEq κ] (key : α → κ) (k : κ) (t : List α) : Option α :=
  t.find? fun r => decide (key r = k)

/-- No two rows share a key. -/
def Keyed (key : α → κ) (t : List α) : Prop := (t.map key).Nodup

instance [DecidableEq κ] (key : α → κ) (t : List α) : Decidable (Keyed key t) :=
  inferInstanceAs (Decidable (t.map key).Nodup)

theorem Keyed.eq_of_key {key : α → κ} {t : List α} (h : Keyed key t) {a b : α}
    (ha : a ∈ t) (hb : b ∈ t) (hab : key a = key b) : a = b :=
  List.inj_on_of_nodup_map h ha hb hab

theorem Keyed.append {key : α → κ} {t : List α} (h : Keyed key t) {r : α}
    (fresh : ∀ a ∈ t, key a ≠ key r) : Keyed key (t ++ [r]) := by
  unfold Keyed at h ⊢
  rw [List.map_append, List.nodup_append]
  refine ⟨h, by simp, ?_⟩
  intro a ha b hb hab
  obtain ⟨x, hx, rfl⟩ := List.mem_map.mp ha
  simp only [List.map_cons, List.map_nil, List.mem_singleton] at hb
  exact fresh x hx (hab.trans hb)

theorem Keyed.append_list {key : α → κ} {t u : List α} (h : Keyed key t) (hu : Keyed key u)
    (fresh : ∀ a ∈ t, ∀ b ∈ u, key a ≠ key b) : Keyed key (t ++ u) := by
  unfold Keyed at h hu ⊢
  rw [List.map_append, List.nodup_append]
  refine ⟨h, hu, ?_⟩
  intro a ha b hb hab
  obtain ⟨x, hx, rfl⟩ := List.mem_map.mp ha
  obtain ⟨y, hy, rfl⟩ := List.mem_map.mp hb
  exact fresh x hx y hy hab

theorem Keyed.filter {key : α → κ} {t : List α} (h : Keyed key t) (p : α → Bool) :
    Keyed key (t.filter p) :=
  (List.Sublist.map key List.filter_sublist).nodup h

theorem Keyed.nodup {key : α → κ} {t : List α} (h : Keyed key t) : t.Nodup :=
  List.Nodup.of_map key h

theorem Keyed.of_map_eq {key : α → κ} {t u : List α} (h : Keyed key t)
    (same : u.map key = t.map key) : Keyed key u := by
  unfold Keyed at h ⊢
  rw [same]
  exact h

section Lookup
variable [DecidableEq κ] {key : α → κ} {k : κ} {t : List α}

theorem lookup_mem {r : α} (h : lookup key k t = some r) : r ∈ t ∧ key r = k :=
  ⟨List.mem_of_find?_eq_some h, by simpa using List.find?_some h⟩

theorem lookup_eq_some (h : Keyed key t) {r : α} :
    lookup key k t = some r ↔ r ∈ t ∧ key r = k := by
  constructor
  · exact lookup_mem
  · rintro ⟨hr, rfl⟩
    cases hf : lookup key (key r) t with
    | none => simpa using List.find?_eq_none.mp hf r hr
    | some x =>
      obtain ⟨hx, hk⟩ := lookup_mem hf
      exact congrArg some (h.eq_of_key hx hr hk)

theorem lookup_isSome_of_mem {r : α} (hr : r ∈ t) : (lookup key (key r) t).isSome := by
  unfold lookup
  rw [List.find?_isSome]
  exact ⟨r, hr, by simp⟩

theorem lookup_eq_none : lookup key k t = none ↔ ∀ r ∈ t, key r ≠ k := by
  unfold lookup
  simp

theorem lookup_append_of_some {u : List α} {r : α} (h : lookup key k t = some r) :
    lookup key k (t ++ u) = some r := by
  unfold lookup at h ⊢
  rw [List.find?_append, h, Option.some_or]

private theorem lookup_append_of_fresh {u : List α} (h : ∀ r ∈ u, key r ≠ k) :
    lookup key k (t ++ u) = lookup key k t := by
  have hu : lookup key k u = none := lookup_eq_none.mpr h
  unfold lookup at hu ⊢
  rw [List.find?_append, hu, Option.or_none]

theorem lookup_map {g : α → β} {key' : β → κ} (same : ∀ r, key' (g r) = key r) :
    lookup key' k (t.map g) = (lookup key k t).map g := by
  have pred : (fun r => decide (key' r = k)) ∘ g = fun r => decide (key r = k) := by
    funext r
    simp only [Function.comp_apply, same]
  unfold lookup
  rw [List.find?_map, pred]

end Lookup

theorem Keyed.map {key : α → κ} {t : List α} {g : α → β} {key' : β → κ}
    (same : ∀ r, key' (g r) = key r) (h : Keyed key t) : Keyed key' (t.map g) := by
  unfold Keyed at h ⊢
  rw [List.map_map]
  simpa [Function.comp_def, same] using h

theorem Keyed.of_map {key : α → κ} {t : List α} {g : α → β} {key' : β → κ}
    (same : ∀ r, key' (g r) = key r) (h : Keyed key' (t.map g)) : Keyed key t := by
  unfold Keyed at h ⊢
  rw [List.map_map] at h
  simpa [Function.comp_def, same] using h

theorem Keyed.filter_eq_singleton {key : α → κ} {t : List α} (h : Keyed key t) {r : α} (hr : r ∈ t)
    {p : α → Bool} (hp : ∀ a ∈ t, p a = true ↔ key a = key r) : t.filter p = [r] := by
  induction t with
  | nil => simp at hr
  | cons a t ih =>
    have tail : Keyed key t := (List.nodup_cons.mp h).2
    have apart : ∀ b ∈ t, key b ≠ key a := fun b hb hk =>
      (List.nodup_cons.mp h).1 (hk ▸ List.mem_map_of_mem hb)
    rcases List.mem_cons.mp hr with rfl | hr
    · have none_left : t.filter p = [] := by
        rw [List.filter_eq_nil_iff]
        intro b hb hpb
        exact apart b hb ((hp b (List.mem_cons_of_mem _ hb)).mp hpb)
      rw [List.filter_cons_of_pos ((hp r List.mem_cons_self).mpr rfl), none_left]
    · have skip : ¬ p a = true := fun hpa =>
        apart r hr ((hp a List.mem_cons_self).mp hpa).symm
      rw [List.filter_cons_of_neg skip]
      exact ih tail hr fun b hb => hp b (List.mem_cons_of_mem a hb)

theorem mem_updateWhere {p : α → Bool} {f : α → α} {t : List α} {x : α} :
    x ∈ updateWhere p f t ↔ ∃ r ∈ t, (if p r then f r else r) = x := by
  simp [updateWhere]

theorem mem_updateWhere_of_mem {p : α → Bool} {f : α → α} {t : List α} {r : α} (h : r ∈ t) :
    (if p r then f r else r) ∈ updateWhere p f t :=
  mem_updateWhere.mpr ⟨r, h, rfl⟩

theorem exists_of_map_eq {γ : Type} {f : α → γ} {g : β → γ} {t : List α} {u : List β}
    (h : t.map f = u.map g) {b : β} (hb : b ∈ u) : ∃ a ∈ t, f a = g b := by
  have image := List.mem_map_of_mem (f := g) hb
  rw [← h] at image
  exact List.mem_map.mp image

theorem map_updateWhere {p : α → Bool} {f : α → α} (g : α → β) (t : List α)
    (keep : ∀ r ∈ t, p r = true → g (f r) = g r) : (updateWhere p f t).map g = t.map g := by
  unfold updateWhere
  rw [List.map_map]
  apply List.map_congr_left
  intro r hr
  simp only [Function.comp_apply]
  split
  · exact keep r hr ‹_›
  · rfl

theorem map_updateWhere_comm {p : α → Bool} {f : α → α} {q : β → Bool} {h : β → β} (g : α → β)
    (t : List α) (selected : ∀ r, p r = q (g r)) (assigned : ∀ r, g (f r) = h (g r)) :
    (updateWhere p f t).map g = updateWhere q h (t.map g) := by
  unfold updateWhere
  rw [List.map_map, List.map_map]
  apply List.map_congr_left
  intro r _
  simp only [Function.comp_apply, ← selected]
  split
  · exact assigned r
  · rfl

theorem Keyed.updateWhere {key : α → κ} {p : α → Bool} {f : α → α} {t : List α}
    (h : Keyed key t) (keep : ∀ r, key (f r) = key r) : Keyed key (updateWhere p f t) :=
  h.of_map_eq (map_updateWhere key t fun r _ _ => keep r)

theorem updateWhere_eq_self {p : α → Bool} {f : α → α} {t : List α}
    (h : ∀ r ∈ t, p r = false) : updateWhere p f t = t := by
  unfold updateWhere
  conv_rhs => rw [← List.map_id t]
  apply List.map_congr_left
  intro r hr
  simp [h r hr]

/-- An update of rows that a filter rejects before and after does not show in it. -/
theorem filter_updateWhere_off {p q : α → Bool} {f : α → α} {t : List α}
    (off : ∀ r ∈ t, q r = true → p r = false ∧ p (f r) = false) :
    (updateWhere q f t).filter p = t.filter p := by
  induction t with
  | nil => rfl
  | cons r t ih =>
    have tail := ih fun a ha => off a (List.mem_cons_of_mem r ha)
    have head : updateWhere q f (r :: t) = (if q r then f r else r) :: updateWhere q f t := rfl
    rw [head, List.filter_cons, List.filter_cons, tail]
    by_cases hq : q r = true
    · obtain ⟨before, after⟩ := off r List.mem_cons_self hq
      simp [hq, before, after]
    · simp [hq]

/-- A selection and a column that the assignment keeps are unchanged together. -/
theorem map_filter_updateWhere {p q : α → Bool} {f : α → α} (g : α → β) (t : List α)
    (keep : ∀ r ∈ t, p r = true → q (f r) = q r ∧ g (f r) = g r) :
    ((updateWhere p f t).filter q).map g = (t.filter q).map g := by
  induction t with
  | nil => rfl
  | cons r t ih =>
    have tail := ih fun a ha => keep a (List.mem_cons_of_mem r ha)
    have head : updateWhere p f (r :: t) = (if p r then f r else r) :: updateWhere p f t := rfl
    rw [head, List.filter_cons, List.filter_cons]
    by_cases hp : p r = true
    · obtain ⟨selected, column⟩ := keep r List.mem_cons_self hp
      rw [if_pos hp, selected]
      split
      · rw [List.map_cons, List.map_cons, tail, column]
      · exact tail
    · rw [if_neg hp]
      split
      · rw [List.map_cons, List.map_cons, tail]
      · exact tail

theorem lookup_updateWhere [DecidableEq κ] {key : α → κ} {k : κ} {p : α → Bool} {f : α → α}
    {t : List α} (keep : ∀ r, key (f r) = key r) :
    lookup key k (updateWhere p f t) =
      (lookup key k t).map fun r => if p r then f r else r := by
  induction t with
  | nil => rfl
  | cons r t ih =>
    unfold lookup updateWhere at ih ⊢
    have hk : key (if p r then f r else r) = key r := by split <;> simp [keep]
    simp only [List.map_cons, List.find?_cons, hk]
    split
    · rfl
    · exact ih

/-- The row under `k` becomes `row`, or goes. -/
def replace [DecidableEq κ] (key : α → κ) (k : κ) (row : Option α) (t : List α) : List α :=
  t.filter (fun r => decide (key r ≠ k)) ++ row.toList

section Replace
variable [DecidableEq κ] {key : α → κ} {k : κ} {row : Option α} {t : List α}

theorem mem_replace {r : α} : r ∈ replace key k row t ↔ (r ∈ t ∧ key r ≠ k) ∨ row = some r := by
  simp [replace]

theorem keyed_replace (h : Keyed key t) (own : ∀ r ∈ row, key r = k) :
    Keyed key (replace key k row t) := by
  refine (h.filter _).append_list ?_ fun a ha b hb => ?_
  · cases row <;> simp [Keyed]
  · rw [own b (by simpa using hb)]
    simpa using (List.mem_filter.mp ha).2

theorem lookup_replace (own : ∀ r ∈ row, key r = k) (j : κ) :
    lookup key j (replace key k row t) = if j = k then row else lookup key j t := by
  by_cases hj : j = k
  · subst hj
    rw [if_pos rfl]
    cases row with
    | none =>
      refine lookup_eq_none.mpr fun r hr => ?_
      rcases mem_replace.mp hr with ⟨-, other⟩ | none
      · exact other
      · cases none
    | some r =>
      have gone : ∀ x ∈ t.filter (fun r => decide (key r ≠ j)), key x ≠ j := fun x hx => by
        simpa using (List.mem_filter.mp hx).2
      have first : lookup key j (t.filter fun r => decide (key r ≠ j)) = none :=
        lookup_eq_none.mpr gone
      unfold replace lookup at *
      rw [List.find?_append, first]
      simp [own r rfl]
  · rw [if_neg hj]
    have tail : ∀ r ∈ row.toList, key r ≠ j := fun r hr same =>
      hj (same.symm.trans (own r (by simpa using hr)))
    unfold replace
    rw [lookup_append_of_fresh tail]
    unfold lookup
    rw [List.find?_filter]
    congr 1
    funext r
    by_cases hr : key r = j
    · simp [hr, hj]
    · simp [hr]

/-- What is counted changes by the row that goes and the row that comes. -/
theorem countP_replace (h : Keyed key t) (p : α → Bool) :
    (replace key k row t).countP p + (lookup key k t).toList.countP p =
      t.countP p + row.toList.countP p := by
  have rest : (t.filter fun r => decide (key r ≠ k)).countP p + (lookup key k t).toList.countP p =
      t.countP p := by
    cases hk : lookup key k t with
    | none =>
      have all : t.filter (fun r => decide (key r ≠ k)) = t := by
        refine List.filter_eq_self.mpr fun r hr => ?_
        simpa using lookup_eq_none.mp hk r hr
      rw [all]
      rfl
    | some r =>
      obtain ⟨hr, rfl⟩ := lookup_mem hk
      have one : t.filter (fun x => decide (key x = key r)) = [r] :=
        h.filter_eq_singleton hr fun a _ => by simp
      have split := List.filter_append_perm (fun x => decide (key x = key r)) t
      rw [one] at split
      have counted := split.countP_eq p
      rw [List.countP_append] at counted
      simp only [ne_eq, decide_not, Option.toList_some]
      omega
  unfold replace
  rw [List.countP_append]
  omega

end Replace

section Rows
variable [DecidableEq κ] {key : α → κ}

theorem lookup_append_singleton {t : List α} {a : α} (fresh : lookup key (key a) t = none) (k : κ) :
    lookup key k (t ++ [a]) = if k = key a then some a else lookup key k t := by
  by_cases own : k = key a
  · subst own
    unfold lookup at fresh ⊢
    rw [List.find?_append, fresh]
    simp
  · rw [if_neg own]
    exact lookup_append_of_fresh (by simpa using Ne.symm own)

/-- The row under a key is replaced in place. -/
def overwrite (key : α → κ) (a : α) (t : List α) : List α :=
  updateWhere (fun r => decide (key r = key a)) (fun _ => a) t

private theorem map_overwrite (a : α) (t : List α) : (overwrite key a t).map key = t.map key :=
  map_updateWhere key t fun _ _ same => (of_decide_eq_true same).symm

theorem Keyed.overwrite {t : List α} (h : Keyed key t) (a : α) : Keyed key (overwrite key a t) :=
  h.of_map_eq (map_overwrite a t)

theorem lookup_overwrite (a : α) (t : List α) (k : κ) :
    lookup key k (overwrite key a t) =
      if k = key a then (lookup key k t).map fun _ => a else lookup key k t := by
  induction t with
  | nil => simp [overwrite, lookup, updateWhere]
  | cons r t ih =>
    unfold lookup overwrite updateWhere at ih ⊢
    simp only [List.map_cons, List.find?_cons]
    by_cases same : key r = key a
    · by_cases own : k = key a
      · simp [same, own]
      · simp only [same, decide_true, if_true, Ne.symm own, decide_false, if_neg own] at ih ⊢
        exact ih
    · by_cases here : key r = k
      · simp [here ▸ same, here]
      · simp only [same, decide_false, Bool.false_eq_true, if_false, here] at ih ⊢
        exact ih

theorem lookup_filter_ne (t : List α) (j k : κ) :
    lookup key k (t.filter fun r => decide (key r ≠ j)) =
      if k = j then none else lookup key k t := by
  by_cases own : k = j
  · subst own
    rw [if_pos rfl, lookup_eq_none]
    intro r hr
    simpa using (List.mem_filter.mp hr).2
  · rw [if_neg own]
    unfold lookup
    rw [List.find?_filter]
    congr 1
    funext r
    by_cases here : key r = k
    · simp [here, own]
    · simp [here]
end Rows

/-- `t JOIN u ON u.fk = t.key AND p`. -/
def join [DecidableEq κ] (key : α → κ) (fk : β → κ) (p : α → β → Bool) (t : List α) (u : List β) :
    List (α × β) :=
  t.flatMap fun a => (u.filter fun b => decide (fk b = key a) && p a b).map fun b => (a, b)

section Join
variable [DecidableEq κ] {key : α → κ} {fk : β → κ} {p : α → β → Bool} {t : List α} {u : List β}

theorem mem_join {a : α} {b : β} (h : (a, b) ∈ join key fk p t u) :
    a ∈ t ∧ b ∈ u ∧ fk b = key a ∧ p a b = true := by
  obtain ⟨x, hx, h⟩ := List.mem_flatMap.mp h
  obtain ⟨y, hy, h⟩ := List.mem_map.mp h
  obtain ⟨rfl, rfl⟩ := Prod.mk.inj h
  obtain ⟨hy, hp⟩ := List.mem_filter.mp hy
  simp only [Bool.and_eq_true, decide_eq_true_eq] at hp
  exact ⟨hx, hy, hp.1, hp.2⟩

/-- On a keyed table a join selects each row of the other table at most once. -/
theorem join_perm (h : Keyed key t) :
    ((join key fk p t u).map (·.2)).Perm
      (u.filter fun b => (lookup key (fk b) t).any fun a => p a b) := by
  induction t with
  | nil =>
    have nothing : (u.filter fun b => (lookup key (fk b) ([] : List α)).any fun a => p a b) = [] := by
      rw [List.filter_eq_nil_iff]
      simp [lookup]
    rw [nothing]
    exact .nil
  | cons a t ih =>
    have tail : Keyed key t := (List.nodup_cons.mp h).2
    have apart : ∀ x ∈ t, key x ≠ key a := fun x hx hk =>
      (List.nodup_cons.mp h).1 (hk ▸ List.mem_map_of_mem hx)
    have rows (b : β) : ((lookup key (fk b) (a :: t)).any fun x => p x b) =
        if fk b = key a then p a b else (lookup key (fk b) t).any fun x => p x b := by
      unfold lookup
      rw [List.find?_cons]
      by_cases hk : fk b = key a
      · simp [hk]
      · simp [hk, Ne.symm hk]
    have own : ((u.filter fun b => (lookup key (fk b) (a :: t)).any fun x => p x b).filter
        fun b => decide (fk b = key a)) = u.filter fun b => decide (fk b = key a) && p a b := by
      rw [List.filter_filter]
      apply List.filter_congr
      intro b _
      rw [rows b]
      by_cases hk : fk b = key a <;> simp [hk]
    have others : ((u.filter fun b => (lookup key (fk b) (a :: t)).any fun x => p x b).filter
        fun b => !decide (fk b = key a)) = u.filter fun b => (lookup key (fk b) t).any fun x => p x b := by
      rw [List.filter_filter]
      apply List.filter_congr
      intro b _
      rw [rows b]
      by_cases hk : fk b = key a
      · have gone : lookup key (fk b) t = none := lookup_eq_none.mpr fun x hx => hk ▸ apart x hx
        simp [hk, hk ▸ gone]
      · simp [hk]
    have split := List.filter_append_perm (fun b => decide (fk b = key a))
      (u.filter fun b => (lookup key (fk b) (a :: t)).any fun x => p x b)
    rw [own, others] at split
    refine List.Perm.trans ?_ split
    have head : join key fk p (a :: t) u =
        (u.filter fun b => decide (fk b = key a) && p a b).map (fun b => (a, b)) ++
          join key fk p t u := rfl
    rw [head, List.map_append, List.map_map]
    simpa [Function.comp_def] using (ih tail).append_left _

end Join

@[simp] theorem sumWhere_nil (p : α → Bool) (v : α → Int) : sumWhere p v [] = 0 := rfl

theorem sumWhere_cons (p : α → Bool) (v : α → Int) (r : α) (t : List α) :
    sumWhere p v (r :: t) = (if p r then v r else 0) + sumWhere p v t := by
  unfold sumWhere
  by_cases h : p r <;> simp [h]

theorem sumWhere_append (p : α → Bool) (v : α → Int) (t u : List α) :
    sumWhere p v (t ++ u) = sumWhere p v t + sumWhere p v u := by
  simp [sumWhere, List.filter_append]

theorem sumWhere_congr {p q : α → Bool} {v w : α → Int} {t : List α}
    (hp : ∀ r ∈ t, p r = q r) (hv : ∀ r ∈ t, v r = w r) : sumWhere p v t = sumWhere q w t := by
  induction t with
  | nil => rfl
  | cons r t ih =>
    rw [sumWhere_cons, sumWhere_cons, hp r List.mem_cons_self, hv r List.mem_cons_self,
      ih (fun a ha => hp a (List.mem_cons_of_mem r ha))
        (fun a ha => hv a (List.mem_cons_of_mem r ha))]

theorem sumWhere_eq_zero {p : α → Bool} {v : α → Int} {t : List α}
    (h : ∀ r ∈ t, p r = false) : sumWhere p v t = 0 := by
  induction t with
  | nil => rfl
  | cons r t ih =>
    rw [sumWhere_cons, ih fun a ha => h a (List.mem_cons_of_mem r ha)]
    simp [h r List.mem_cons_self]

theorem sumWhere_nonneg {p : α → Bool} {v : α → Int} {t : List α}
    (h : ∀ r ∈ t, p r = true → 0 ≤ v r) : 0 ≤ sumWhere p v t := by
  unfold sumWhere
  apply List.sum_nonneg
  intro x hx
  obtain ⟨r, hr, rfl⟩ := List.mem_map.mp hx
  exact h r (List.mem_of_mem_filter hr) (List.of_mem_filter hr)

theorem le_sumWhere {p : α → Bool} {v : α → Int} {t : List α} {r : α} (hr : r ∈ t)
    (hp : p r = true) (h : ∀ a ∈ t, p a = true → 0 ≤ v a) : v r ≤ sumWhere p v t := by
  induction t with
  | nil => simp at hr
  | cons a t ih =>
    have tail : ∀ b ∈ t, p b = true → 0 ≤ v b := fun b hb => h b (List.mem_cons_of_mem a hb)
    rw [sumWhere_cons]
    rcases List.mem_cons.mp hr with rfl | hr
    · have := sumWhere_nonneg tail
      simp only [hp, if_true]
      omega
    · have hrec := ih hr tail
      have head := h a List.mem_cons_self
      split
      · have := head ‹_›
        omega
      · omega

private theorem sumWhere_updateWhere (p q : α → Bool) (f : α → α) (v : α → Int) (t : List α) :
    sumWhere p v (updateWhere q f t) =
      (t.map fun r => if p (if q r then f r else r) then v (if q r then f r else r) else 0).sum := by
  induction t with
  | nil => rfl
  | cons r t ih =>
    have head : updateWhere q f (r :: t) = (if q r then f r else r) :: updateWhere q f t := rfl
    rw [head, sumWhere_cons, ih]
    simp

theorem sumWhere_updateWhere_congr {p q : α → Bool} {f : α → α} {v : α → Int} {t : List α}
    (hp : ∀ r ∈ t, q r = true → p (f r) = p r) (hv : ∀ r ∈ t, q r = true → v (f r) = v r) :
    sumWhere p v (updateWhere q f t) = sumWhere p v t := by
  induction t with
  | nil => rfl
  | cons r t ih =>
    have head : updateWhere q f (r :: t) = (if q r then f r else r) :: updateWhere q f t := rfl
    rw [head, sumWhere_cons, sumWhere_cons,
      ih (fun a ha => hp a (List.mem_cons_of_mem r ha))
        (fun a ha => hv a (List.mem_cons_of_mem r ha))]
    by_cases hq : q r
    · simp [hq, hp r List.mem_cons_self hq, hv r List.mem_cons_self hq]
    · simp [hq]

theorem sumWhere_filter_add (p q : α → Bool) (v : α → Int) (t : List α) :
    sumWhere p v (t.filter q) + sumWhere (fun r => p r && !q r) v t = sumWhere p v t := by
  induction t with
  | nil => rfl
  | cons r t ih =>
    rw [sumWhere_cons, sumWhere_cons, ← ih]
    by_cases hq : q r = true
    · rw [List.filter_cons_of_pos hq, sumWhere_cons]
      simp only [hq, Bool.not_true, Bool.and_false, Bool.false_eq_true, if_false]
      omega
    · rw [List.filter_cons_of_neg hq]
      simp only [hq, Bool.not_false, Bool.and_true]
      omega

theorem sumWhere_filter_free {p q : α → Bool} {v : α → Int} {t : List α}
    (free : ∀ r ∈ t, q r = false → p r = true → v r = 0) :
    sumWhere p v (t.filter q) = sumWhere p v t := by
  have zero : sumWhere (fun r => p r && !q r) v t = 0 := by
    apply List.sum_eq_zero
    intro x hx
    obtain ⟨r, hr, rfl⟩ := List.mem_map.mp hx
    have hp := List.of_mem_filter hr
    simp only [Bool.and_eq_true, Bool.not_eq_true'] at hp
    exact free r (List.mem_of_mem_filter hr) hp.2 hp.1
  rw [← sumWhere_filter_add p q v t, zero, add_zero]

theorem sumWhere_drop {p q : α → Bool} {f : α → α} {v : α → Int} {t : List α}
    (dropped : ∀ r ∈ t, q r = true → p (f r) = false) :
    sumWhere p v (updateWhere q f t) + sumWhere (fun r => p r && q r) v t = sumWhere p v t := by
  induction t with
  | nil => rfl
  | cons r t ih =>
    have head : updateWhere q f (r :: t) = (if q r then f r else r) :: updateWhere q f t := rfl
    have tail := ih fun a ha => dropped a (List.mem_cons_of_mem r ha)
    rw [head, sumWhere_cons, sumWhere_cons, sumWhere_cons, ← tail]
    by_cases hq : q r = true
    · simp only [hq, if_true, dropped r List.mem_cons_self hq, Bool.and_true]
      simp only [Bool.false_eq_true, if_false]
      omega
    · simp only [hq, Bool.and_false, Bool.false_eq_true, if_false]
      omega

end JitaCart.Base.Table
