/- module: JitaCart/Worker/Match
   source: backend/crates/worker/src/jobs/contracts/match.rs,
     backend/crates/worker/src/jobs/contracts.rs (sync_items_for)
   digest: Contract item sync and the contract-to-reimbursement matcher. -/

import JitaCart.Settlement

set_option autoImplicit false
set_option relaxedAutoImplicit false

namespace JitaCart.Worker.Match

open Schema Base.Table Base.Request Base.Numeric Settlement

/-- Replace the contract's items by the fetched ones and stamp `items_synced_at`. -/
def syncItemsFor (s : Db) (cid : Uuid) (items : List ContractItem) (now : Timestamp) :
    Except DbError Db := do
  require ((items.map (·.recordId)).Nodup) .duplicateKey
  .ok { s with
    contractItems := (s.contractItems.filter fun it => decide (it.contractId ≠ cid)) ++
      items.map fun it => { it with contractId := cid }
    contracts := updateWhere (fun c => decide (c.id = cid))
      (fun c => { c with itemsSyncedAt := some now }) s.contracts }

/-- The outcomes of the binary64 division of the two sums. -/
inductive Score
  | nan
  | infinite (positive : Bool)
  | finite (x : ℚ)
  deriving DecidableEq

def Score.div (a b : Int) : Score :=
  if b = 0 then
    if a = 0 then .nan else .infinite (decide (0 < a))
  else .finite (toF64 (toF64 a / toF64 b))

/-- `score < SCORE_THRESHOLD`; comparisons with NaN are false. -/
def Score.belowThreshold : Score → Bool
  | .nan => false
  | .infinite positive => !positive
  | .finite x => decide (x < 1 / 2)

/-- `Decimal::from_f64_retain(score).unwrap_or(Decimal::ZERO).round_dp(4)`. -/
def Score.toDecimal : Score → ℚ
  | .finite x => roundHalfEven (x * 10 ^ 4) / 10 ^ 4
  | _ => 0

/-- A reading of the division of the two sums, with what the matcher asks of a quotient. -/
structure Division (δ : Type) where
  div : Int → Int → δ
  belowThreshold : δ → Bool
  toDecimal : δ → ℚ

def binary64 : Division Score := ⟨Score.div, Score.belowThreshold, Score.toDecimal⟩

/-- The value a totals map holds under a type; a missing key counts as zero. -/
def totalOf (totals : List (Int × Int)) (typeId : Int) : Int :=
  ((totals.find? fun p => decide (p.1 = typeId)).map (·.2)).getD 0

/-- Covered quantity over fulfilled quantity, and whether the match is exact. -/
def scoreMatchBy {δ : Type} (d : Division δ) (cTotals fTotals : List (Int × Int)) :
    Option (δ × Bool) :=
  if fTotals = [] then none
  else
    let fSum := wrapI64 (fTotals.map (·.2)).sum
    let covered := wrapI64 (fTotals.map fun p => min (totalOf cTotals p.1) p.2).sum
    let surplus := cTotals.any fun p => !(fTotals.any fun q => decide (q.1 = p.1))
    some (d.div covered fSum, decide (covered = fSum) && !surplus)

def scoreMatch (cTotals fTotals : List (Int × Int)) : Option (Score × Bool) :=
  scoreMatchBy binary64 cTotals fTotals

/-- Sum the quantities of a keyed bag by key. -/
def totalsByType (rows : List (Int × Int)) : List (Int × Int) :=
  ((rows.map (·.1)).dedup).map fun t => (t, (rows.filter fun p => decide (p.1 = t)).map (·.2) |>.sum)

/-- Included item totals of the contract. -/
def contractTotals (s : Db) (cid : Uuid) : List (Int × Int) :=
  (totalsByType
    ((s.contractItems.filter fun it => decide (it.contractId = cid) && it.isIncluded).map
      fun it => (it.typeId, it.quantity))).map fun p => (p.1, wrapI64 p.2)

/-- Pending unbound reimbursements between the two principals; a personal one needs the
requester's `user` principal. -/
def isCandidate (s : Db) (issuer assignee : Uuid) (r : Reimbursement) : Bool :=
  decide (r.haulerPrincipalId = issuer) && decide (r.requesterPrincipalId = assignee) &&
    decide (r.contractId = none) && decide (r.status = .pending) &&
    (r.isCorpFunded || (s.directory.principalUser r.requesterPrincipalId).isSome)

/-- The joined `list_items` and `fulfillments` rows of a candidate, as type and quantity. -/
def matchedRows (s : Db) (r : Reimbursement) : List (Int × Int) :=
  s.listItems.flatMap fun li =>
    if decide (li.listId = r.listId) &&
        (r.isCorpFunded ||
          decide (s.directory.principalUser r.requesterPrincipalId = some li.requestedByUserId)) then
      (s.fulfillments.filter fun f =>
        decide (f.listItemId = li.id) && f.live &&
          decide (s.directory.principalUser r.haulerPrincipalId = some f.haulerUserId)).map
        fun f => (li.typeId, f.qty)
    else []

def fulfillmentTotals (s : Db) (r : Reimbursement) : List (Int × Int) :=
  (totalsByType (matchedRows s r)).filter fun p => decide (0 < p.2)

/-- Score and exactness of every candidate that reaches the threshold. -/
def suggestionsBy {δ : Type} (d : Division δ) (s : Db) (cid issuer assignee : Uuid) :
    List (Uuid × ℚ × Bool) :=
  (s.reimbursements.filter (isCandidate s issuer assignee)).filterMap fun r =>
    match scoreMatchBy d (contractTotals s cid) (fulfillmentTotals s r) with
    | none => none
    | some (score, exact) =>
      if d.belowThreshold score then none else some (r.id, d.toDecimal score, exact)

def suggestionsFor (s : Db) (cid issuer assignee : Uuid) : List (Uuid × ℚ × Bool) :=
  suggestionsBy binary64 s cid issuer assignee

/-- The casts `type_id::int` and `SUM(qty)::bigint` of the candidate query. -/
def castsFit (s : Db) (issuer assignee : Uuid) : Prop :=
  ∀ r ∈ s.reimbursements, isCandidate s issuer assignee r = true →
    ∀ p ∈ totalsByType (matchedRows s r), (-2147483648 ≤ p.1 ∧ p.1 ≤ 2147483647) ∧ FitsBigint p.2

instance (s : Db) (issuer assignee : Uuid) : Decidable (castsFit s issuer assignee) := by
  unfold castsFit
  infer_instance

/-- Refresh the score of a suggestion that is still pending. -/
def refreshSuggestion (cid : Uuid) (found : List (Uuid × ℚ × Bool)) (g : Suggestion) : Suggestion :=
  match found.find? fun p => decide (p.1 = g.reimbursementId) with
  | some (_, score, exact) =>
    if g.contractId = cid ∧ g.state = .pending then
      { g with score := score, exactMatch := exact }
    else g
  | none => g

def hasSuggestion (s : Db) (cid rid : Uuid) : Bool :=
  s.suggestions.any fun g => decide (g.contractId = cid) && decide (g.reimbursementId = rid)

/-- Rows for the pairs that have no suggestion yet; their state defaults to pending. -/
def newSuggestions (s : Db) (cid : Uuid) (found : List (Uuid × ℚ × Bool)) (newId : Uuid → Uuid) :
    List Suggestion :=
  (found.filter fun p => !hasSuggestion s cid p.1).map fun p =>
    ⟨newId p.1, cid, p.1, p.2.1, p.2.2, .pending⟩

def upsertSuggestions (s : Db) (cid : Uuid) (found : List (Uuid × ℚ × Bool))
    (newId : Uuid → Uuid) : Except DbError Db := do
  require (∀ p ∈ found, 0 ≤ p.2.1 ∧ p.2.1 ≤ 1) .checkViolation
  let fresh := newSuggestions s cid found newId
  require ((fresh.map (·.id)).Nodup ∧ ∀ g ∈ fresh, s.suggestion? g.id = none) .duplicateKey
  .ok { s with suggestions := s.suggestions.map (refreshSuggestion cid found) ++ fresh }

/-- The contract is an item exchange with synced items between two known principals. -/
def matchParties (s : Db) (cid : Uuid) : Option (Uuid × Uuid) :=
  match s.contract? cid with
  | none => none
  | some c =>
    if c.contractType ≠ .itemExchange ∨ c.itemsSyncedAt = none ∨ contractTotals s cid = [] then none
    else
      match c.issuerPrincipalId, c.assigneePrincipalId with
      | some issuer, some assignee => some (issuer, assignee)
      | _, _ => none

/-- The header is read as `(Option<Uuid>, Option<Uuid>, String, Option<DateTime>)`, but
`contracts.contract_type` is an enum: a row that is found does not decode. -/
def fetchHeader (s : Db) (cid : Uuid) : Except DbError (Option Contract) :=
  match s.contract? cid with
  | none => .ok none
  | some c => (tryGetString 2 (toString c.contractType) (.enum "contract_type")).map fun _ => some c

def runOneBy {δ : Type} (d : Division δ) (s : Db) (cid : Uuid) (newId : Uuid → Uuid) :
    Except DbError Db := do
  let _ ← fetchHeader s cid
  match matchParties s cid with
  | none => .ok s
  | some (issuer, assignee) => do
    require (castsFit s issuer assignee) .bigintOutOfRange
    match suggestionsBy d s cid issuer assignee with
    | [] => .ok s
    | found => upsertSuggestions s cid found newId

def runOne (s : Db) (cid : Uuid) (newId : Uuid → Uuid) : Except DbError Db :=
  runOneBy binary64 s cid newId

theorem syncItemsFor_ok {s s' : Db} {cid : Uuid} {items : List ContractItem} {now : Timestamp}
    (h : syncItemsFor s cid items now = .ok s') :
    ∃ rows, s' = { s with
      contractItems := rows
      contracts := updateWhere (fun c => decide (c.id = cid))
        (fun c => { c with itemsSyncedAt := some now }) s.contracts } := by
  simp only [syncItemsFor, bind_eq_ok, require_eq_ok] at h
  obtain ⟨-, -, h⟩ := h
  exact ⟨_, (Except.ok.inj h).symm⟩

theorem mem_suggestionsFor {s : Db} {cid issuer assignee : Uuid} {p : Uuid × ℚ × Bool}
    (h : p ∈ suggestionsFor s cid issuer assignee) :
    ∃ r ∈ s.reimbursements, isCandidate s issuer assignee r = true ∧ r.id = p.1 := by
  simp only [suggestionsFor, suggestionsBy, List.mem_filterMap, List.mem_filter] at h
  obtain ⟨r, ⟨hr, candidate⟩, h⟩ := h
  split at h
  · simp at h
  · split at h
    · simp at h
    · simp only [Option.some.injEq] at h
      exact ⟨r, hr, candidate, by rw [← h]⟩

/-- Suggestions only, whatever the header query answers: scores of pending rows change, and the new
rows are the pairs of this contract with candidates that had none. -/
theorem runOne_ok {s s' : Db} {cid : Uuid} {newId : Uuid → Uuid}
    (h : runOne s cid newId = .ok s') :
    s' = s ∨ ∃ issuer assignee, matchParties s cid = some (issuer, assignee) ∧
      ((newSuggestions s cid (suggestionsFor s cid issuer assignee) newId).map (·.id)).Nodup ∧
      (∀ g ∈ newSuggestions s cid (suggestionsFor s cid issuer assignee) newId,
        s.suggestion? g.id = none) ∧
      s' = { s with
        suggestions :=
          s.suggestions.map (refreshSuggestion cid (suggestionsFor s cid issuer assignee)) ++
            newSuggestions s cid (suggestionsFor s cid issuer assignee) newId } := by
  simp only [runOne, runOneBy, bind_eq_ok] at h
  obtain ⟨-, -, h⟩ := h
  split at h
  · exact .inl (Except.ok.inj h).symm
  · rename_i issuer assignee parties
    simp only [bind_eq_ok, require_eq_ok] at h
    obtain ⟨-, -, h⟩ := h
    split at h
    · exact .inl (Except.ok.inj h).symm
    · simp only [upsertSuggestions, bind_eq_ok, require_eq_ok] at h
      obtain ⟨-, -, -, ⟨nodup, fresh⟩, h⟩ := h
      exact .inr ⟨issuer, assignee, parties, nodup, fresh, (Except.ok.inj h).symm⟩

/-- The header of a contract that exists does not decode, so nothing is written. -/
theorem runOne_unchanged {s s' : Db} {cid : Uuid} {newId : Uuid → Uuid}
    (h : runOne s cid newId = .ok s') : s' = s := by
  simp only [runOne, runOneBy, bind_eq_ok] at h
  obtain ⟨header, hheader, h⟩ := h
  cases found : s.contract? cid with
  | none =>
    have parties : matchParties s cid = none := by simp [matchParties, found]
    rw [parties] at h
    exact (Except.ok.inj h).symm
  | some c => simp [fetchHeader, found, tryGetString, Except.map] at hheader

@[simp] theorem refreshSuggestion_id (cid : Uuid) (found : List (Uuid × ℚ × Bool))
    (g : Suggestion) : (refreshSuggestion cid found g).id = g.id := by
  unfold refreshSuggestion
  split
  · split <;> rfl
  · rfl

@[simp] theorem refreshSuggestion_contractId (cid : Uuid) (found : List (Uuid × ℚ × Bool))
    (g : Suggestion) : (refreshSuggestion cid found g).contractId = g.contractId := by
  unfold refreshSuggestion
  split
  · split <;> rfl
  · rfl

@[simp] theorem refreshSuggestion_reimbursementId (cid : Uuid) (found : List (Uuid × ℚ × Bool))
    (g : Suggestion) : (refreshSuggestion cid found g).reimbursementId = g.reimbursementId := by
  unfold refreshSuggestion
  split
  · split <;> rfl
  · rfl

@[simp] theorem refreshSuggestion_state (cid : Uuid) (found : List (Uuid × ℚ × Bool))
    (g : Suggestion) : (refreshSuggestion cid found g).state = g.state := by
  unfold refreshSuggestion
  split
  · split <;> rfl
  · rfl

end JitaCart.Worker.Match
