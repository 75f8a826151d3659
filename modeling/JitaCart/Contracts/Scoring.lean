/- module: JitaCart/Contracts/Scoring
   source: backend/crates/worker/src/jobs/contracts/match.rs (score_match, run_one)
   digest: Laws of the match score, and which candidates the matcher selects. -/

import JitaCart.Operations

/-!
Exactness is read off two sums. A sum of minima reaches the sum of its bounds only where
every minimum does, so a surplus of one type cannot hide a shortage of another.
-/

set_option autoImplicit false
set_option relaxedAutoImplicit false

namespace JitaCart.Contracts.Scoring

open Schema Base.Table Base.Request Base.Numeric Settlement Worker.Match

/-- The quotient as an exact rational. -/
def exactRational : Division ℚ where
  div a b := a / b
  belowThreshold x := decide (x < 1 / 2)
  toDecimal x := roundHalfEven (x * 10 ^ 4) / 10 ^ 4

def fulfilled (f : List (Int × Int)) : Int := (f.map (·.2)).sum

def covered (c f : List (Int × Int)) : Int := (f.map fun p => min (totalOf c p.1) p.2).sum

/-- Some type of the contract is not fulfilled at all. -/
def surplus (c f : List (Int × Int)) : Bool :=
  c.any fun p => !(f.any fun q => decide (q.1 = p.1))

def NoOverflow (c f : List (Int × Int)) : Prop :=
  FitsBigint (fulfilled f) ∧ FitsBigint (covered c f)

instance (c f : List (Int × Int)) : Decidable (NoOverflow c f) :=
  inferInstanceAs (Decidable (FitsBigint (fulfilled f) ∧ FitsBigint (covered c f)))

/-- Every fulfilled type is in the contract in full. -/
def Covers (c f : List (Int × Int)) : Prop := ∀ p ∈ f, p.2 ≤ totalOf c p.1

/-- Quantities of a map raised, or types added to it with a non-negative quantity. -/
def Grows (c c' : List (Int × Int)) : Prop :=
  (∀ p ∈ c, ∃ q ∈ c', q.1 = p.1 ∧ p.2 ≤ q.2) ∧
    ∀ q ∈ c', (∀ p ∈ c, p.1 ≠ q.1) → 0 ≤ q.2

section Totals
variable {c c' f f' : List (Int × Int)}

private theorem totalOf_of_mem (keyed : Keyed Prod.fst c) {p : Int × Int} (hp : p ∈ c) :
    totalOf c p.1 = p.2 := by
  have found : lookup Prod.fst p.1 c = some p := (lookup_eq_some keyed).mpr ⟨hp, rfl⟩
  unfold lookup at found
  unfold totalOf
  simp [found]

private theorem totalOf_of_missing {t : Int} (missing : ∀ p ∈ c, p.1 ≠ t) : totalOf c t = 0 := by
  have none_found : lookup Prod.fst t c = none := lookup_eq_none.mpr missing
  unfold lookup at none_found
  unfold totalOf
  simp [none_found]

private theorem totalOf_perm (keyed : Keyed Prod.fst c) (same : c'.Perm c) (t : Int) :
    totalOf c' t = totalOf c t := by
  have keyed' : Keyed Prod.fst c' := (same.map Prod.fst).nodup_iff.mpr keyed
  by_cases present : ∃ p ∈ c, p.1 = t
  · obtain ⟨p, hp, rfl⟩ := present
    rw [totalOf_of_mem keyed hp, totalOf_of_mem keyed' (same.mem_iff.mpr hp)]
  · have absent : ∀ p ∈ c, p.1 ≠ t := fun p hp h => present ⟨p, hp, h⟩
    rw [totalOf_of_missing absent, totalOf_of_missing fun p hp => absent p (same.mem_iff.mp hp)]

private theorem totalOf_nonneg (nonneg : ∀ p ∈ c, 0 ≤ p.2) (t : Int) : 0 ≤ totalOf c t := by
  unfold totalOf
  cases found : c.find? fun p => decide (p.1 = t) with
  | none => simp
  | some p => simpa using nonneg p (List.mem_of_find?_eq_some found)

private theorem totalOf_grows (keyed : Keyed Prod.fst c) (keyed' : Keyed Prod.fst c')
    (grows : Grows c c') (t : Int) : totalOf c t ≤ totalOf c' t := by
  by_cases present : ∃ p ∈ c, p.1 = t
  · obtain ⟨p, hp, rfl⟩ := present
    obtain ⟨q, hq, key, more⟩ := grows.1 p hp
    rw [totalOf_of_mem keyed hp, ← key, totalOf_of_mem keyed' hq]
    exact more
  · have absent : ∀ p ∈ c, p.1 ≠ t := fun p hp h => present ⟨p, hp, h⟩
    rw [totalOf_of_missing absent]
    by_cases added : ∃ q ∈ c', q.1 = t
    · obtain ⟨q, hq, rfl⟩ := added
      rw [totalOf_of_mem keyed' hq]
      exact grows.2 q hq absent
    · rw [totalOf_of_missing fun q hq h => added ⟨q, hq, h⟩]

private theorem fulfilled_pos (nonempty : f ≠ []) (pos : ∀ p ∈ f, 0 < p.2) : 0 < fulfilled f := by
  unfold fulfilled
  refine List.sum_pos _ ?_ (by simpa using nonempty)
  intro x hx
  obtain ⟨p, hp, rfl⟩ := List.mem_map.mp hx
  exact pos p hp

private theorem covered_le (c f : List (Int × Int)) : covered c f ≤ fulfilled f :=
  List.sum_le_sum fun p _ => min_le_right (totalOf c p.1) p.2

/-- A sum of minima is the sum of the bounds exactly where no minimum falls short. -/
private theorem covered_eq_iff (c f : List (Int × Int)) :
    covered c f = fulfilled f ↔ Covers c f := by
  unfold Covers
  induction f with
  | nil => simp [covered, fulfilled]
  | cons p f ih =>
    have rest : covered c f ≤ fulfilled f := covered_le c f
    have head : min (totalOf c p.1) p.2 ≤ p.2 := min_le_right _ _
    have split_sum : covered c (p :: f) = fulfilled (p :: f) ↔
        min (totalOf c p.1) p.2 = p.2 ∧ covered c f = fulfilled f := by
      unfold covered fulfilled at rest ⊢
      simp only [List.map_cons, List.sum_cons]
      omega
    rw [split_sum, ih, min_eq_right_iff]
    simp

private theorem covered_nonneg (nonneg : ∀ p ∈ c, 0 ≤ p.2) (pos : ∀ p ∈ f, 0 < p.2) :
    0 ≤ covered c f := by
  refine List.sum_nonneg fun x hx => ?_
  obtain ⟨p, hp, rfl⟩ := List.mem_map.mp hx
  exact le_min (totalOf_nonneg nonneg p.1) (pos p hp).le

private theorem covered_mono (more : ∀ t, totalOf c t ≤ totalOf c' t) (f : List (Int × Int)) :
    covered c f ≤ covered c' f :=
  List.sum_le_sum fun p _ => min_le_min_right p.2 (more p.1)

private theorem surplus_eq_false_iff : surplus c f = false ↔ ∀ p ∈ c, ∃ q ∈ f, q.1 = p.1 := by
  simp [surplus]

private theorem fulfilled_perm (same : f'.Perm f) : fulfilled f' = fulfilled f :=
  (same.map _).sum_eq

private theorem covered_perm (keyed : Keyed Prod.fst c) (sameC : c'.Perm c) (sameF : f'.Perm f) :
    covered c' f' = covered c f := by
  unfold covered
  simp only [totalOf_perm keyed sameC]
  exact (sameF.map _).sum_eq

private theorem surplus_perm (sameC : c'.Perm c) (sameF : f'.Perm f) :
    surplus c' f' = surplus c f := by
  rw [Bool.eq_iff_iff, ← not_iff_not, Bool.not_eq_true, Bool.not_eq_true, surplus_eq_false_iff,
    surplus_eq_false_iff]
  simp only [sameC.mem_iff, sameF.mem_iff]

private theorem scoreMatchBy_def {δ : Type} (d : Division δ) (c f : List (Int × Int)) :
    scoreMatchBy d c f =
      if f = [] then none
      else some (d.div (wrapI64 (covered c f)) (wrapI64 (fulfilled f)),
        decide (wrapI64 (covered c f) = wrapI64 (fulfilled f)) && !surplus c f) :=
  rfl

private theorem scoreMatchBy_perm {δ : Type} (d : Division δ) (keyed : Keyed Prod.fst c)
    (sameC : c'.Perm c) (sameF : f'.Perm f) : scoreMatchBy d c' f' = scoreMatchBy d c f := by
  have empty_iff : f' = [] ↔ f = [] := by
    rw [← List.length_eq_zero_iff, ← List.length_eq_zero_iff, sameF.length_eq]
  simp only [scoreMatchBy_def, empty_iff, covered_perm keyed sameC sameF, fulfilled_perm sameF,
    surplus_perm sameC sameF]

private theorem scoreMatchBy_eq {δ : Type} (d : Division δ) (nonempty : f ≠ [])
    (fits : NoOverflow c f) :
    scoreMatchBy d c f = some (d.div (covered c f) (fulfilled f),
      decide (covered c f = fulfilled f) && !surplus c f) := by
  rw [scoreMatchBy_def, if_neg nonempty, wrapI64_of_fits fits.1, wrapI64_of_fits fits.2]

private theorem exact_iff (c f : List (Int × Int)) :
    (decide (covered c f = fulfilled f) && !surplus c f) = true ↔
      Covers c f ∧ ∀ p ∈ c, ∃ q ∈ f, q.1 = p.1 := by
  rw [Bool.and_eq_true, decide_eq_true_eq, covered_eq_iff, Bool.not_eq_true', surplus_eq_false_iff]

private theorem quotient_le_one (nonempty : f ≠ []) (pos : ∀ p ∈ f, 0 < p.2) :
    ((covered c f : Int) : ℚ) / fulfilled f ≤ 1 := by
  have total : (0 : ℚ) < fulfilled f := by exact_mod_cast fulfilled_pos nonempty pos
  rw [div_le_one total]
  exact_mod_cast covered_le c f

private theorem quotient_eq_one_iff (nonempty : f ≠ []) (pos : ∀ p ∈ f, 0 < p.2) :
    ((covered c f : Int) : ℚ) / fulfilled f = 1 ↔ Covers c f := by
  have total : (fulfilled f : ℚ) ≠ 0 := by
    exact_mod_cast (fulfilled_pos nonempty pos).ne'
  rw [div_eq_one_iff_eq total, ← covered_eq_iff]
  exact Int.cast_inj

private theorem quotient_mono (nonempty : f ≠ []) (pos : ∀ p ∈ f, 0 < p.2)
    (more : covered c f ≤ covered c' f) :
    ((covered c f : Int) : ℚ) / fulfilled f ≤ (covered c' f : Int) / fulfilled f := by
  have total : (0 : ℚ) ≤ fulfilled f := by exact_mod_cast (fulfilled_pos nonempty pos).le
  exact div_le_div_of_nonneg_right (by exact_mod_cast more) total

private theorem quotient_below_iff (nonempty : f ≠ []) (pos : ∀ p ∈ f, 0 < p.2) :
    ((covered c f : Int) : ℚ) / fulfilled f < 1 / 2 ↔ 2 * covered c f < fulfilled f := by
  have total : (0 : ℚ) < fulfilled f := by exact_mod_cast fulfilled_pos nonempty pos
  rw [div_lt_iff₀ total]
  constructor
  · intro h
    have : (2 * covered c f : ℚ) < fulfilled f := by linarith
    exact_mod_cast this
  · intro h
    have : (2 * covered c f : ℚ) < fulfilled f := by exact_mod_cast h
    linarith

end Totals

private theorem fulfillmentTotals_pos (s : Db) (r : Reimbursement) :
    ∀ p ∈ fulfillmentTotals s r, 0 < p.2 := by
  intro p hp
  simpa using (List.mem_filter.mp hp).2

private theorem mem_suggestionsBy {δ : Type} {d : Division δ} {s : Db} {cid issuer assignee : Uuid}
    (keyed : Keyed Reimbursement.id s.reimbursements) {r : Reimbursement}
    (hr : r ∈ s.reimbursements) (candidate : isCandidate s issuer assignee r = true) :
    (∃ p ∈ suggestionsBy d s cid issuer assignee, p.1 = r.id) ↔
      ∃ score exact, scoreMatchBy d (contractTotals s cid) (fulfillmentTotals s r) =
        some (score, exact) ∧ d.belowThreshold score = false := by
  unfold suggestionsBy
  simp only [List.mem_filterMap, List.mem_filter]
  constructor
  · rintro ⟨p, ⟨x, ⟨hx, -⟩, hp⟩, hid⟩
    split at hp
    · cases hp
    · rename_i score exact scored
      split at hp
      · cases hp
      · rename_i above
        obtain rfl := Option.some.inj hp
        obtain rfl := keyed.eq_of_key hx hr hid
        exact ⟨score, exact, scored, by simpa using above⟩
  · rintro ⟨score, exact, scored, above⟩
    refine ⟨(r.id, d.toDecimal score, exact), ⟨r, ⟨hr, candidate⟩, ?_⟩, rfl⟩
    simp [scored, above]

/-- A pending unbound reimbursement between the parties of a contract, with something bought. -/
structure Scored (s : Db) (cid issuer assignee : Uuid) (r : Reimbursement) : Prop where
  keyed : Keyed Reimbursement.id s.reimbursements
  parties : matchParties s cid = some (issuer, assignee)
  mem : r ∈ s.reimbursements
  candidate : isCandidate s issuer assignee r = true
  nonempty : fulfillmentTotals s r ≠ []
  fits : NoOverflow (contractTotals s cid) (fulfillmentTotals s r)

/-- Twice the covered quantity is at least the fulfilled quantity. -/
def HalfCovered (s : Db) (cid : Uuid) (r : Reimbursement) : Prop :=
  fulfilled (fulfillmentTotals s r) ≤ 2 * covered (contractTotals s cid) (fulfillmentTotals s r)

/-- A run that is committed leaves a suggestion of the pair. -/
def Suggests (s : Db) (cid : Uuid) (newId : Uuid → Uuid) (r : Reimbursement) : Prop :=
  ∃ s', runOne s cid newId = .ok s' ∧ hasSuggestion s' cid r.id = true

private theorem Scored.selected_iff {δ : Type} {s : Db} {cid issuer assignee : Uuid}
    {r : Reimbursement} (scored : Scored s cid issuer assignee r) (d : Division δ) :
    (∃ p ∈ suggestionsBy d s cid issuer assignee, p.1 = r.id) ↔
      d.belowThreshold (d.div (covered (contractTotals s cid) (fulfillmentTotals s r))
        (fulfilled (fulfillmentTotals s r))) = false := by
  rw [mem_suggestionsBy scored.keyed scored.mem scored.candidate,
    scoreMatchBy_eq _ scored.nonempty scored.fits]
  simp only [Option.some.injEq, Prod.mk.injEq]
  constructor
  · rintro ⟨_, _, ⟨rfl, -⟩, above⟩
    exact above
  · intro above
    exact ⟨_, _, ⟨rfl, rfl⟩, above⟩

private theorem Scored.above_iff {s : Db} {cid issuer assignee : Uuid} {r : Reimbursement}
    (scored : Scored s cid issuer assignee r) :
    exactRational.belowThreshold (exactRational.div
      (covered (contractTotals s cid) (fulfillmentTotals s r))
      (fulfilled (fulfillmentTotals s r))) = false ↔ HalfCovered s cid r := by
  have below := quotient_below_iff (c := contractTotals s cid) scored.nonempty
    (fulfillmentTotals_pos s r)
  unfold HalfCovered
  rw [← Int.not_lt, ← below]
  simp [exactRational]

private theorem runOneBy_of_contract {δ : Type} (d : Division δ) {s : Db} {cid : Uuid}
    {c : Contract} (newId : Uuid → Uuid) (found : s.contract? cid = some c) :
    runOneBy d s cid newId = .error (.columnDecode 2 "contract_type") := by
  simp [runOneBy, fetchHeader, found, tryGetString, Except.map, bind, Except.bind]

private theorem not_suggests {s : Db} {cid issuer assignee : Uuid} {r : Reimbursement}
    (scored : Scored s cid issuer assignee r) (newId : Uuid → Uuid) :
    ¬ Suggests s cid newId r := by
  rintro ⟨s', h, -⟩
  cases found : s.contract? cid with
  | none =>
    have parties := scored.parties
    simp [matchParties, found] at parties
  | some c => simp [runOne, runOneBy_of_contract _ newId found] at h

/-- Without overflow and reading the quotient as an exact rational: the laws of one score. -/
structure ScoreLaws (c f : List (Int × Int)) (score : ℚ) (exact : Bool) : Prop where
  code : scoreMatch c f = some (Score.div (covered c f) (fulfilled f), exact)
  exact_iff : exact = true ↔ (∀ p ∈ f, p.2 ≤ totalOf c p.1) ∧ ∀ p ∈ c, ∃ q ∈ f, q.1 = p.1
  le_one : score ≤ 1
  eq_one_iff : score = 1 ↔ ∀ p ∈ f, p.2 ≤ totalOf c p.1
  nonneg : (∀ p ∈ c, 0 ≤ p.2) → 0 ≤ score
  grows : ∀ c', Keyed Prod.fst c' → Grows c c' → NoOverflow c' f →
    ∃ score' exact', scoreMatchBy exactRational c' f = some (score', exact') ∧ score ≤ score'
  order : ∀ c' f', c'.Perm c → f'.Perm f →
    scoreMatchBy exactRational c' f' = some (score, exact) ∧ scoreMatch c' f' = scoreMatch c f

private theorem scoreLaws {c f : List (Int × Int)} (keyed : Keyed Prod.fst c) (nonempty : f ≠ [])
    (pos : ∀ p ∈ f, 0 < p.2) (fits : NoOverflow c f) :
    ScoreLaws c f ((covered c f : Int) / (fulfilled f : Int))
      (decide (covered c f = fulfilled f) && !surplus c f) where
  code := scoreMatchBy_eq binary64 nonempty fits
  exact_iff := exact_iff c f
  le_one := quotient_le_one nonempty pos
  eq_one_iff := quotient_eq_one_iff nonempty pos
  nonneg := fun nonneg => by
    have total : (0 : ℚ) ≤ fulfilled f := by exact_mod_cast (fulfilled_pos nonempty pos).le
    exact div_nonneg (by exact_mod_cast covered_nonneg nonneg pos) total
  grows := fun c' keyed' grows fits' => by
    have more := covered_mono (totalOf_grows keyed keyed' grows) f
    exact ⟨_, _, scoreMatchBy_eq _ nonempty fits', quotient_mono nonempty pos more⟩
  order := fun c' f' sameC sameF =>
    ⟨(scoreMatchBy_perm _ keyed sameC sameF).trans (scoreMatchBy_eq _ nonempty fits),
      scoreMatchBy_perm _ keyed sameC sameF⟩

/-- The score laws hold, and the loop of `run_one` selects a candidate if it is covered by half;
a suggestion of it is never written, so a run does what it should where none is due. -/
theorem match_score_laws_iff {s : Db} {cid issuer assignee : Uuid} {r : Reimbursement}
    (scored : Scored s cid issuer assignee r) (newId : Uuid → Uuid) :
    (∀ c f : List (Int × Int), Keyed Prod.fst c → Keyed Prod.fst f → f ≠ [] →
      (∀ p ∈ f, 0 < p.2) → NoOverflow c f →
      ∃ score exact, scoreMatchBy exactRational c f = some (score, exact) ∧
        ScoreLaws c f score exact) ∧
    ((∃ p ∈ suggestionsBy exactRational s cid issuer assignee, p.1 = r.id) ↔
      HalfCovered s cid r) ∧
    ((∃ p ∈ suggestionsFor s cid issuer assignee, p.1 = r.id) ↔
      (Score.div (covered (contractTotals s cid) (fulfillmentTotals s r))
        (fulfilled (fulfillmentTotals s r))).belowThreshold = false) ∧
    ((Suggests s cid newId r ↔ HalfCovered s cid r) ↔ ¬ HalfCovered s cid r) := by
  refine ⟨fun c f keyed _ nonempty pos fits => ?_,
    (scored.selected_iff exactRational).trans scored.above_iff, scored.selected_iff binary64, ?_⟩
  · exact ⟨_, _, scoreMatchBy_eq _ nonempty fits, scoreLaws keyed nonempty pos fits⟩
  · have never := not_suggests scored newId
    tauto

/-- Five pieces were bought, the contract hands over three of them. -/
def partlyCovered : Db :=
  Operations.reached
    [.directory Operations.sampleDirectory,
      .create Operations.sampleLimits 1 1 [⟨34, "Tritanium", 10, 1⟩] 1 [1],
      .recordFulfillment 3 1 1 (Operations.samplePurchase 5 1) ⟨1, 1, 0⟩,
      .upsertContract (Operations.sampleContract .outstanding) 1,
      .syncItemsFor 1 [⟨1, 1, 34, 3, true⟩] 1]

private theorem scored_partlyCovered :
    ∀ r ∈ partlyCovered.reimbursements, Scored partlyCovered 1 3 1 r ∧
      HalfCovered partlyCovered 1 r ∧ hasSuggestion partlyCovered 1 r.id = false := by
  have facts : ∀ r ∈ partlyCovered.reimbursements, isCandidate partlyCovered 3 1 r = true ∧
      fulfillmentTotals partlyCovered r ≠ [] ∧
      NoOverflow (contractTotals partlyCovered 1) (fulfillmentTotals partlyCovered r) ∧
      fulfilled (fulfillmentTotals partlyCovered r) ≤
        2 * covered (contractTotals partlyCovered 1) (fulfillmentTotals partlyCovered r) ∧
      hasSuggestion partlyCovered 1 r.id = false := by
    decide +kernel
  intro r hr
  obtain ⟨candidate, nonempty, fits, enough, fresh⟩ := facts r hr
  exact ⟨⟨by decide +kernel, by decide +kernel, hr, candidate, nonempty, fits⟩, enough, fresh⟩

theorem match_score_laws_iff_partlyCovered :
    partlyCovered.reimbursements.length = 1 ∧ ∀ r ∈ partlyCovered.reimbursements,
      (∃ score exact, scoreMatchBy exactRational [(34, 60), (35, 60)] [(34, 100)] =
        some (score, exact) ∧ score ≤ 1) ∧
      (∃ p ∈ suggestionsBy exactRational partlyCovered 1 3 1, p.1 = r.id) ∧
        ¬ (Suggests partlyCovered 1 id r ↔ HalfCovered partlyCovered 1 r) := by
  refine ⟨by decide +kernel, fun r hr => ?_⟩
  obtain ⟨scored, half, -⟩ := scored_partlyCovered r hr
  obtain ⟨laws, chosen, -, run⟩ := match_score_laws_iff scored id
  obtain ⟨score, exact, found, law⟩ := laws [(34, 60), (35, 60)] [(34, 100)] (by decide)
    (by decide) (by decide) (by decide) (by decide)
  exact ⟨⟨score, exact, found, law.le_one⟩, chosen.mpr half, fun h => run.mp h half⟩

/-- The contract is synced and its one candidate is due a suggestion, but the run fails on the
type of the contract. -/
theorem half_covered_not_suggested :
    partlyCovered.reimbursements.length = 1 ∧
      (∀ r ∈ partlyCovered.reimbursements, Scored partlyCovered 1 3 1 r ∧
        HalfCovered partlyCovered 1 r ∧ hasSuggestion partlyCovered 1 r.id = false) ∧
      ∀ newId, runOne partlyCovered 1 newId = .error (.columnDecode 2 "contract_type") := by
  refine ⟨by decide +kernel, scored_partlyCovered, fun newId => ?_⟩
  have found : (partlyCovered.contract? 1).isSome = true := by decide +kernel
  obtain ⟨c, hc⟩ := Option.isSome_iff_exists.mp found
  exact runOneBy_of_contract binary64 newId hc

end JitaCart.Contracts.Scoring
