/- module: JitaCart/Books/Tips
   source: backend/crates/api/src/fulfillment/tips.rs (set_list_tip),
     backend/crates/api/src/fulfillment/reimbursements.rs (upsert_reimbursement),
     backend/migrations/20260427000000_init.sql (lists.tip_pct numeric(5,4))
   digest: When a new tip leaves the pending amounts in agreement with the stored one. -/

import JitaCart.Books.Amounts

/-!
The list keeps four decimals of the tip, while the pending rows are rewritten
from the tip as it was sent. Both give the same cents unless rounding turns
between the two products.
-/

set_option autoImplicit false
set_option relaxedAutoImplicit false

namespace JitaCart.Books.Tips

open Schema Base.Table Base.Request Base.Numeric Api.Reimbursements Operations
open Api.Lists (setListTip setListTip_ok pendingOnList retip storedTip)

def Tipped (rate : ℚ) (r : Reimbursement) : Prop :=
  r.tipIsk = roundHalfAway (r.subtotalIsk * rate) ∧
    r.totalIsk = roundHalfAway (r.subtotalIsk * (1 + rate))

instance (rate : ℚ) (r : Reimbursement) : Decidable (Tipped rate r) := by
  unfold Tipped
  infer_instance

/-- Every pending row of the list is tipped at the stored rate. -/
def TipAgrees (s : Db) (listId : Uuid) : Prop :=
  ∀ l ∈ s.list? listId, ∀ r ∈ s.reimbursements, pendingOnList listId r = true → Tipped l.tipPct r

instance (s : Db) (listId : Uuid) : Decidable (TipAgrees s listId) := by
  unfold TipAgrees
  infer_instance

/-- The fulfillments of the cycle are those that its pending row was last charged with. -/
def Charged (s : Db) (listId requester hauler : Uuid) : Prop :=
  ∀ l ∈ s.list? listId, ∀ rp ∈ s.directory.requesterPrincipal l.payer requester,
    ∀ hp ∈ s.directory.userPrincipal hauler, ∀ r ∈ s.reimbursements, cycle r = (l.id, rp, hp) →
      r.status = .pending → r.subtotalIsk = subtotal s l.id l.payer.isSome requester hauler

/-- A further upsert leaves the pending rows of the list as they are. -/
def UpsertKeeps (s : Db) (listId : Uuid) : Prop :=
  ∀ requester hauler newId s', Charged s listId requester hauler →
    upsertReimbursement s listId requester hauler newId = .ok s' →
    ∀ r ∈ s.reimbursements, pendingOnList listId r = true → r ∈ s'.reimbursements

private theorem upsertKeeps_of_agrees {s : Db} {listId : Uuid} (agrees : TipAgrees s listId) :
    UpsertKeeps s listId := by
  intro requester hauler newId s' charged h r hr pending
  rcases upsertReimbursement_ok h with ⟨-, rfl⟩ | ⟨l, rp, hp, hl, hrp, hhp, -, -, cases⟩
  · exact hr
  · rcases cases with ⟨-, rfl⟩ | ⟨-, -, rfl⟩
    · obtain ⟨tip, total⟩ := agrees l hl r hr pending
      refine mem_updateWhere.mpr ⟨r, hr, ?_⟩
      split
      · rename_i taken
        simp only [Bool.and_eq_true, decide_eq_true_eq] at taken
        have sum := charged l hl rp hrp hp hhp r hr taken.1.1 taken.2
        unfold takeAmounts proposed
        simp only [← sum, ← tip, ← total]
      · rfl
    · exact List.mem_append_left _ hr

/-- The total moves with the tip: the subtotal is a whole number of cents. -/
private theorem tipped_retip_iff {p rate : ℚ} (hp : 0 ≤ p) (hrate : 0 ≤ rate) {r : Reimbursement}
    (hr : 0 ≤ r.subtotalIsk) :
    Tipped rate (retip p r) ↔ ¬ HalfBetween (r.subtotalIsk * p) (r.subtotalIsk * rate) := by
  have subtotal : (0 : ℚ) ≤ r.subtotalIsk := by exact_mod_cast hr
  have tip : roundHalfAway (r.subtotalIsk * p) = roundHalfAway (r.subtotalIsk * rate) ↔
      ¬ HalfBetween (r.subtotalIsk * p) (r.subtotalIsk * rate) :=
    roundHalfAway_eq_iff (by positivity) (by positivity)
  rw [← tip]
  unfold Tipped retip
  simp only [total_eq hr hp, total_eq hr hrate]
  constructor
  · exact fun h => h.1
  · exact fun h => ⟨h, by rw [h]⟩

private theorem tipAgrees_iff {s s' : Db} {userId listId : Uuid} {p : ℚ}
    (amounts : ∀ r ∈ s.reimbursements, 0 ≤ r.subtotalIsk)
    (h : setListTip s userId listId p = .ok s') :
    TipAgrees s' listId ↔ ∀ r ∈ s.reimbursements, pendingOnList listId r = true →
      ¬ HalfBetween (r.subtotalIsk * p) (r.subtotalIsk * storedTip p) := by
  obtain ⟨l, hl⟩ : ∃ l, s.list? listId = some l := by
    simp only [setListTip, bind_eq_ok] at h
    obtain ⟨cur, hcur, -⟩ := h
    obtain ⟨l, -, hl, -⟩ := Api.Extract.currentList_ok hcur
    exact ⟨l, hl⟩
  obtain ⟨nonneg, -, rfl⟩ := setListTip_ok h
  have stored := storedTip_nonneg nonneg
  have row : ({ s with
      lists := updateWhere (fun l => decide (l.id = listId))
        (fun l => { l with tipPct := storedTip p }) s.lists
      reimbursements := updateWhere (pendingOnList listId) (retip p) s.reimbursements } : Db).list?
        listId = some { l with tipPct := storedTip p } := by
    unfold Db.list? at hl ⊢
    rw [lookup_updateWhere (by exact fun _ => rfl), hl]
    simp [(lookup_mem hl).2]
  have still (r : Reimbursement) : pendingOnList listId (retip p r) = pendingOnList listId r := rfl
  unfold TipAgrees
  rw [row]
  constructor
  · intro agrees r hr pending
    have hmem := mem_updateWhere_of_mem (p := pendingOnList listId) (f := retip p) hr
    rw [if_pos pending] at hmem
    have tipped := agrees _ rfl _ hmem ((still r).trans pending)
    exact (tipped_retip_iff nonneg stored (amounts r hr)).mp tipped
  · intro apart x hx y hy pending
    obtain rfl := Option.some.inj hx
    obtain ⟨r, hr, rfl⟩ := mem_updateWhere.mp hy
    by_cases was : pendingOnList listId r = true
    · simp only [was, if_true]
      exact (tipped_retip_iff nonneg stored (amounts r hr)).mpr (apart r hr was)
    · simp only [was, Bool.false_eq_true, if_false] at pending

/-- After an accepted tip the pending rows of the list agree with the stored tip, and a further
upsert leaves them as they are, exactly when for none of them rounding turns between the subtotal
times the tip as sent and the subtotal times the tip as stored. -/
theorem tip_agreement_iff (s s' : Db) (userId listId : Uuid) (p : ℚ)
    (amounts : ∀ r ∈ s.reimbursements, 0 ≤ r.subtotalIsk)
    (h : setListTip s userId listId p = .ok s') :
    (TipAgrees s' listId ∧ UpsertKeeps s' listId) ↔
      ∀ r ∈ s.reimbursements, pendingOnList listId r = true →
        ¬ HalfBetween (r.subtotalIsk * p) (r.subtotalIsk * storedTip p) := by
  rw [← tipAgrees_iff amounts h]
  exact ⟨fun both => both.1, fun agrees => ⟨agrees, upsertKeeps_of_agrees agrees⟩⟩

private theorem tipAgrees_of_four_decimals {s s' : Db} {userId listId : Uuid} {p : ℚ}
    (amounts : ∀ r ∈ s.reimbursements, 0 ≤ r.subtotalIsk)
    (h : setListTip s userId listId p = .ok s') (exact_tip : storedTip p = p) :
    TipAgrees s' listId := by
  refine (tipAgrees_iff amounts h).mpr fun r _ _ => ?_
  rw [exact_tip]
  rintro ⟨k, below, above⟩
  rw [min_self] at below
  rw [max_self] at above
  linarith

def oneDebt : Db where
  directory := sampleDirectory
  lists := [⟨1, 1, 1, .open, 0, none⟩]
  reimbursements :=
    [⟨1, 1, some 2, 2, 3, 3, 100000000000, 0, 100000000000, .pending, none, none, none, false⟩]

/-- Half a basis point is stored as a whole one: the row is charged 50,000 ISK, the next upsert
would charge 100,000. -/
theorem half_basis_point_disagrees :
    ¬ ∀ s s' userId listId p, (∀ r ∈ s.reimbursements, 0 ≤ r.subtotalIsk) →
      setListTip s userId listId p = .ok s' → TipAgrees s' listId := by
  intro claim
  have set : ((setListTip oneDebt 1 1 (1 / 20000)).toOption.any fun s' =>
      decide (¬ TipAgrees s' 1)) = true := by
    decide +kernel
  cases hs : setListTip oneDebt 1 1 (1 / 20000) with
  | error e =>
    rw [hs] at set
    exact absurd set Bool.false_ne_true
  | ok s' =>
    rw [hs] at set
    exact of_decide_eq_true set (claim oneDebt s' 1 1 (1 / 20000) (by decide) hs)

theorem tip_agreement_ten_percent :
    ∃ s', setListTip oneDebt 1 1 (1 / 10) = .ok s' ∧
      ((TipAgrees s' 1 ∧ UpsertKeeps s' 1) ↔
        ∀ r ∈ oneDebt.reimbursements, pendingOnList 1 r = true →
          ¬ HalfBetween (r.subtotalIsk * (1 / 10)) (r.subtotalIsk * storedTip (1 / 10))) := by
  have accepted : (setListTip oneDebt 1 1 (1 / 10)).toOption.isSome = true := by decide +kernel
  cases hs : setListTip oneDebt 1 1 (1 / 10) with
  | error e =>
    rw [hs] at accepted
    exact absurd accepted Bool.false_ne_true
  | ok s' => exact ⟨s', rfl, tip_agreement_iff oneDebt s' 1 1 (1 / 10) (by decide) hs⟩

end JitaCart.Books.Tips
