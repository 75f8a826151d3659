/- module: JitaCart/Base/Balance
   source: none (library)
   digest: Accounts derived from entries: one account per key, each the sum of its entries. -/

import JitaCart.Base.Table

set_option autoImplicit false
set_option relaxedAutoImplicit false

namespace JitaCart.Base.Balance

open Table

variable {P D K : Type} [DecidableEq K]

def onKey (key : P → K) (live : P → Bool) (k : K) (p : P) : Bool :=
  live p && decide (key p = k)

/-- Accounts `ds` are the books of entries `ps`: one account per key, one for every live entry,
and each holds exactly the sum of its live entries. -/
structure Balanced (key : P → K) (live : P → Bool) (cost : P → Int) (dueKey : D → K)
    (amount : D → Int) (ps : List P) (ds : List D) : Prop where
  keyed : Keyed dueKey ds
  covered : ∀ p ∈ ps, live p = true → ∃ d ∈ ds, dueKey d = key p
  exact : ∀ d ∈ ds, amount d = sumWhere (onKey key live (dueKey d)) cost ps

variable {key : P → K} {live : P → Bool} {cost : P → Int} {dueKey : D → K} {amount : D → Int}
  {ps : List P} {ds : List D}

theorem balanced_nil : Balanced key live cost dueKey amount [] [] :=
  ⟨List.nodup_nil, by simp, by simp⟩

theorem Balanced.congr_key (h : Balanced key live cost dueKey amount ps ds) {key' : P → K}
    (same : ∀ p ∈ ps, live p = true → key' p = key p) :
    Balanced key' live cost dueKey amount ps ds := by
  refine ⟨h.keyed, fun p hp hl => ?_, fun d hd => ?_⟩
  · rw [same p hp hl]
    exact h.covered p hp hl
  · rw [h.exact d hd]
    apply sumWhere_congr
    · intro p hp
      unfold onKey
      cases hl : live p with
      | true => simp [same p hp hl]
      | false => rfl
    · intro p _
      rfl

private theorem Balanced.unique (h : Balanced key live cost dueKey amount ps ds) {p : P}
    (hp : p ∈ ps) (hl : live p = true) : ∃! d, d ∈ ds ∧ dueKey d = key p := by
  obtain ⟨d, hd, hk⟩ := h.covered p hp hl
  refine ⟨d, ⟨hd, hk⟩, ?_⟩
  rintro e ⟨he, hek⟩
  exact h.keyed.eq_of_key he hd (hek.trans hk.symm)

/-- Entries change under one key only, and that key's account is set to its new sum. -/
theorem Balanced.refresh (h : Balanced key live cost dueKey amount ps ds) {k : K} {ps' : List P}
    (same : ∀ k' ≠ k, sumWhere (onKey key live k') cost ps' = sumWhere (onKey key live k') cost ps)
    (within : ∀ p ∈ ps', live p = true → key p ≠ k → p ∈ ps)
    (known : ∃ d ∈ ds, dueKey d = k) {sel : D → Bool} {set : D → D}
    (hsel : ∀ d ∈ ds, sel d = true ↔ dueKey d = k) (hset : ∀ d, dueKey (set d) = dueKey d)
    (hamount : ∀ d, amount (set d) = sumWhere (onKey key live k) cost ps') :
    Balanced key live cost dueKey amount ps' (updateWhere sel set ds) := by
  have rows : ∀ d ∈ ds, dueKey (if sel d then set d else d) = dueKey d := by
    intro d _
    split
    · exact hset d
    · rfl
  refine ⟨h.keyed.updateWhere hset, fun p hp hl => ?_, fun e he => ?_⟩
  · obtain ⟨d, hd, hk⟩ : ∃ d ∈ ds, dueKey d = key p := by
      by_cases hkey : key p = k
      · obtain ⟨d, hd, hk⟩ := known
        exact ⟨d, hd, hk.trans hkey.symm⟩
      · exact h.covered p (within p hp hl hkey) hl
    exact ⟨_, mem_updateWhere_of_mem hd, (rows d hd).trans hk⟩
  · obtain ⟨d, hd, rfl⟩ := mem_updateWhere.mp he
    rw [rows d hd]
    by_cases hk : dueKey d = k
    · rw [if_pos ((hsel d hd).mpr hk), hk]
      exact hamount d
    · rw [if_neg (fun hs => hk ((hsel d hd).mp hs)), same _ hk]
      exact h.exact d hd

/-- Entries change under one key that had no account, and an account with its sum is opened. -/
theorem Balanced.opened (h : Balanced key live cost dueKey amount ps ds) {k : K} {ps' : List P}
    (same : ∀ k' ≠ k, sumWhere (onKey key live k') cost ps' = sumWhere (onKey key live k') cost ps)
    (within : ∀ p ∈ ps', live p = true → key p ≠ k → p ∈ ps)
    (unknown : ∀ d ∈ ds, dueKey d ≠ k) {new : D} (hkey : dueKey new = k)
    (hamount : amount new = sumWhere (onKey key live k) cost ps') :
    Balanced key live cost dueKey amount ps' (ds ++ [new]) := by
  refine ⟨h.keyed.append fun d hd => hkey ▸ unknown d hd, fun p hp hl => ?_, fun e he => ?_⟩
  · by_cases hk : key p = k
    · exact ⟨new, by simp, hkey.trans hk.symm⟩
    · obtain ⟨d, hd, hdk⟩ := h.covered p (within p hp hl hk) hl
      exact ⟨d, List.mem_append_left _ hd, hdk⟩
  · rcases List.mem_append.mp he with hd | hn
    · rw [same _ (unknown e hd)]
      exact h.exact e hd
    · obtain rfl := List.mem_singleton.mp hn
      rw [hkey]
      exact hamount

theorem Balanced.drop_free (h : Balanced key live cost dueKey amount ps ds) {keep : P → Bool}
    (free : ∀ p ∈ ps, keep p = false → live p = true → cost p = 0) :
    Balanced key live cost dueKey amount (ps.filter keep) ds := by
  refine ⟨h.keyed, fun p hp hl => h.covered p (List.mem_of_mem_filter hp) hl, fun d hd => ?_⟩
  rw [h.exact d hd, sumWhere_filter_free]
  intro p hp hk hon
  simp only [onKey, Bool.and_eq_true] at hon
  exact free p hp hk hon.1

private theorem sumWhere_add (q : D → Bool) (v w : D → Int) (ds : List D) :
    sumWhere q (fun d => v d + w d) ds = sumWhere q v ds + sumWhere q w ds := by
  induction ds with
  | nil => rfl
  | cons d ds ih =>
    rw [sumWhere_cons, sumWhere_cons, sumWhere_cons, ih]
    split <;> omega

private theorem sumWhere_off_key {k : K} {c : Int} (q : D → Bool)
    (absent : ∀ d ∈ ds, dueKey d ≠ k) :
    sumWhere q (fun d => if k = dueKey d then c else 0) ds = 0 := by
  induction ds with
  | nil => rfl
  | cons d ds ih =>
    rw [sumWhere_cons, ih fun e he => absent e (List.mem_cons_of_mem d he)]
    simp [(absent d List.mem_cons_self).symm]

private theorem sumWhere_at_key (keyed : Keyed dueKey ds) (g : K → Bool) {k : K} {c : Int}
    (known : ∃ d ∈ ds, dueKey d = k) :
    sumWhere (fun d => g (dueKey d)) (fun d => if k = dueKey d then c else 0) ds =
      if g k then c else 0 := by
  induction ds with
  | nil => simp at known
  | cons d ds ih =>
    have tail : Keyed dueKey ds := (List.nodup_cons.mp keyed).2
    have apart : ∀ e ∈ ds, dueKey e ≠ dueKey d := fun e he hek =>
      (List.nodup_cons.mp keyed).1 (hek ▸ List.mem_map_of_mem he)
    rw [sumWhere_cons]
    by_cases hk : dueKey d = k
    · subst hk
      rw [sumWhere_off_key _ apart]
      simp
    · obtain ⟨e, he, hek⟩ := known
      have rest : ∃ e ∈ ds, dueKey e = k := by
        rcases List.mem_cons.mp he with rfl | he
        · exact absurd hek hk
        · exact ⟨e, he, hek⟩
      rw [ih tail rest]
      simp [Ne.symm hk]

/-- Summing the accounts of some keys is summing the live entries of those keys. -/
theorem Balanced.total (h : Balanced key live cost dueKey amount ps ds) (g : K → Bool) :
    sumWhere (fun d => g (dueKey d)) amount ds =
      sumWhere (fun p => live p && g (key p)) cost ps := by
  have exchange : ∀ qs : List P, (∀ p ∈ qs, p ∈ ps) →
      sumWhere (fun d => g (dueKey d)) (fun d => sumWhere (onKey key live (dueKey d)) cost qs) ds =
        sumWhere (fun p => live p && g (key p)) cost qs := by
    intro qs sub
    induction qs with
    | nil =>
      induction ds with
      | nil => rfl
      | cons d ds _ => simp [sumWhere]
    | cons p qs ih =>
      simp only [sumWhere_cons, sumWhere_add]
      rw [ih fun a ha => sub a (List.mem_cons_of_mem p ha)]
      congr 1
      cases hl : live p with
      | false => simp [onKey, hl, sumWhere]
      | true =>
        have head := sumWhere_at_key h.keyed g (c := cost p)
          (h.covered p (sub p List.mem_cons_self) hl)
        simpa [onKey, hl] using head
  rw [← exchange ps fun _ hp => hp]
  exact sumWhere_congr (fun _ _ => rfl) fun d hd => h.exact d hd

structure BalancedAt (key : P → K) (live : P → Bool) (cost : P → Int) (dueKey : D → K)
    (amount : D → Int) (ps : List P) (ds : List D) (k : K) : Prop where
  covered : ∀ p ∈ ps, live p = true → key p = k → ∃ d ∈ ds, dueKey d = k
  exact : ∀ d ∈ ds, dueKey d = k → amount d = sumWhere (onKey key live k) cost ps

theorem Balanced.under (h : Balanced key live cost dueKey amount ps ds) (k : K) :
    BalancedAt key live cost dueKey amount ps ds k where
  covered p hp hl hk := by
    obtain ⟨d, hd, hdk⟩ := h.covered p hp hl
    exact ⟨d, hd, hdk.trans hk⟩
  exact d hd hk := hk ▸ h.exact d hd

theorem balanced_of_at (keyed : Keyed dueKey ds)
    (h : ∀ k, BalancedAt key live cost dueKey amount ps ds k) :
    Balanced key live cost dueKey amount ps ds where
  keyed := keyed
  covered p hp hl := (h (key p)).covered p hp hl rfl
  exact d hd := (h (dueKey d)).exact d hd rfl

theorem sumWhere_of_mem_iff {q : P → Bool} {ps' : List P} (nodup : ps.Nodup) (nodup' : ps'.Nodup)
    (same : ∀ p, q p = true → (p ∈ ps' ↔ p ∈ ps)) : sumWhere q cost ps' = sumWhere q cost ps := by
  have perm : (ps'.filter q).Perm (ps.filter q) := by
    refine (List.perm_ext_iff_of_nodup (nodup'.filter q) (nodup.filter q)).mpr fun p => ?_
    rw [List.mem_filter, List.mem_filter]
    exact ⟨fun h => ⟨(same p h.2).mp h.1, h.2⟩, fun h => ⟨(same p h.2).mpr h.1, h.2⟩⟩
  exact (perm.map cost).sum_eq

theorem BalancedAt.congr {k : K} {ps' : List P} {ds' : List D}
    (h : BalancedAt key live cost dueKey amount ps ds k) (nodup : ps.Nodup) (nodup' : ps'.Nodup)
    (entries : ∀ p, key p = k → (p ∈ ps' ↔ p ∈ ps))
    (accounts : ∀ d, dueKey d = k → (d ∈ ds' ↔ d ∈ ds)) :
    BalancedAt key live cost dueKey amount ps' ds' k where
  covered p hp hl hk := by
    obtain ⟨d, hd, hdk⟩ := h.covered p ((entries p hk).mp hp) hl hk
    exact ⟨d, (accounts d hdk).mpr hd, hdk⟩
  exact d hd hk := by
    rw [h.exact d ((accounts d hk).mp hd) hk]
    refine (sumWhere_of_mem_iff nodup nodup' fun p hon => entries p ?_).symm
    simp only [onKey, Bool.and_eq_true, decide_eq_true_eq] at hon
    exact hon.2

end JitaCart.Base.Balance
