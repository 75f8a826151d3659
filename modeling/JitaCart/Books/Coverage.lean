/- module: JitaCart/Books/Coverage
   source: backend/crates/api/src/fulfillment/reimbursements.rs (upsert_reimbursement),
     backend/crates/worker/src/jobs/contracts/match.rs (run_one),
     backend/crates/settlement/src/lib.rs (settle_manual, sql_flip_personal, sql_flip_corp,
     settle_via_contract)
   digest: The queries that say what a reimbursement pays for all select the same work. -/

import JitaCart.Books.Conservation

set_option autoImplicit false
set_option relaxedAutoImplicit false

namespace JitaCart.Books

open Schema Base.Table Base.Request Directory Settlement
open Api.Reimbursements Worker.Match
open Api.Contracts (bindReimbursement)

/-- The rows that `upsert_reimbursement` sums for its arguments. -/
def sums (s : Db) (listId : Uuid) (corpFunded : Bool) (requesterUserId haulerUserId : Uuid)
    (f : Fulfillment) : Bool :=
  f.live && decide (f.haulerUserId = haulerUserId) &&
    (s.item? f.listItemId).any fun li => decide (li.listId = listId) &&
      (corpFunded || decide (li.requestedByUserId = requesterUserId))

private theorem subtotal_eq_sums (s : Db) (listId : Uuid) (corpFunded : Bool)
    (requesterUserId haulerUserId : Uuid) :
    subtotal s listId corpFunded requesterUserId haulerUserId =
      sumWhere (sums s listId corpFunded requesterUserId haulerUserId) Fulfillment.cost
        s.fulfillments := rfl

/-- The join condition of the matcher's query. -/
def matchedOn (s : Db) (r : Reimbursement) (li : ListItem) (f : Fulfillment) : Bool :=
  decide (li.listId = r.listId) &&
    (r.isCorpFunded ||
      decide (s.directory.principalUser r.requesterPrincipalId = some li.requestedByUserId)) &&
    (f.live && decide (s.directory.principalUser r.haulerPrincipalId = some f.haulerUserId))

/-- The rows that `run_one` joins for a candidate. -/
def matchedPairs (s : Db) (r : Reimbursement) : List (ListItem × Fulfillment) :=
  join ListItem.id Fulfillment.listItemId (matchedOn s r) s.listItems s.fulfillments

private theorem matchedRows_eq (s : Db) (r : Reimbursement) :
    matchedRows s r = (matchedPairs s r).map fun p => (p.1.typeId, p.2.qty) := by
  unfold matchedRows matchedPairs join
  rw [List.map_flatMap]
  congr 1
  funext li
  rw [List.map_map]
  by_cases on : (decide (li.listId = r.listId) && (r.isCorpFunded || decide
      (s.directory.principalUser r.requesterPrincipalId = some li.requestedByUserId))) = true
  · rw [if_pos on]
    simp only [matchedOn, on, Bool.true_and, Bool.and_assoc]
    rfl
  · rw [if_neg on]
    have off : (s.fulfillments.filter fun f =>
        decide (f.listItemId = li.id) && matchedOn s r li f) = [] := by
      rw [List.filter_eq_nil_iff]
      intro f _
      simp only [matchedOn, on, Bool.false_and, Bool.and_false]
      exact Bool.false_ne_true
    rw [off]
    rfl

/-- The items that the count of `settle_manual` looks at. -/
def inspected (s : Db) (listId haulerUserId : Uuid) (requested : ListItem → Bool) :
    List ListItem :=
  s.listItems.filter fun li =>
    decide (li.listId = listId) && requested li && decide (li.status ≠ .delivered) &&
      decide (li.status ≠ .settled) && supplied s li.id haulerUserId

private theorem notDelivered_eq (s : Db) (listId haulerUserId : Uuid)
    (requested : ListItem → Bool) :
    notDelivered s listId haulerUserId requested =
      (inspected s listId haulerUserId requested).length := rfl

/-- What `sql_flip_personal!` and `sql_flip_corp!` may touch, whatever the statuses are. -/
def mayFlip (s : Db) (listId haulerUserId : Uuid) (mine : ListItem → Bool) (li : ListItem) : Bool :=
  decide (li.listId = listId) && mine li && supplied s li.id haulerUserId

/-- The guard of both flips: a rival reimbursement of another hauler is pending and supplied the
item too. -/
def contested (s : Db) (listId haulerUserId : Uuid) (rival : Reimbursement → Bool)
    (li : ListItem) : Bool :=
  s.reimbursements.any fun r =>
    decide (r.listId = listId) && rival r && decide (r.haulerUserId ≠ haulerUserId) &&
      decide (r.status = .pending) && supplied s li.id r.haulerUserId

private theorem flipHaulerItems_eq (s : Db) (listId haulerUserId : Uuid) (acceptBought : Bool)
    (mine : ListItem → Bool) (rival : Reimbursement → Bool) :
    flipHaulerItems s listId haulerUserId acceptBought mine rival =
      flipItems s fun li => mayFlip s listId haulerUserId mine li &&
        (flippable acceptBought li.status && !contested s listId haulerUserId rival li) := by
  unfold flipHaulerItems mayFlip contested
  congr 1
  funext li
  ac_rfl

/-- What the bulk flip of `settle_via_contract` may touch for one bound reimbursement. -/
def mayFlipBound (s : Db) (r : Reimbursement) (li : ListItem) : Bool :=
  decide (li.listId = r.listId) &&
    (r.isCorpFunded ||
      decide (s.directory.principalUser r.requesterPrincipalId = some li.requestedByUserId)) &&
    suppliedByPrincipal s li.id r.haulerPrincipalId

private theorem flipsOnContract_eq (s : Db) (cid : Uuid) (li : ListItem) :
    flipsOnContract s cid li = s.reimbursements.any fun r =>
      boundTo cid r && (mayFlipBound s r li &&
        ((decide (li.status = .bought) || decide (li.status = .delivered)) &&
          !blockedOnContract s r li.id)) := by
  unfold flipsOnContract mayFlipBound
  congr 1
  funext r
  ac_rfl

/-- The fulfillments that the reimbursement pays for. -/
def work (s : Db) (r : Reimbursement) (f : Fulfillment) : Bool := f.live && covers s r f

def workItem (s : Db) (r : Reimbursement) (li : ListItem) : Bool :=
  s.fulfillments.any fun f => decide (f.listItemId = li.id) && work s r f

section Agreement
variable {s : Db} {r : Reimbursement}

/-- The principals of a reimbursement stand for the users in its user columns. -/
private theorem principalUser_parties (dir : DirectoryOk s.directory)
    (parties : (ledger s).DueOk (dueOf r)) :
    s.directory.principalUser r.haulerPrincipalId = some r.haulerUserId ∧
      (r.isCorpFunded = false → r.requesterUserId ≠ none ∧
        s.directory.principalUser r.requesterPrincipalId = r.requesterUserId) := by
  obtain ⟨payer, requester, -, corp, hreq, hrp, hhp, -⟩ := parties
  refine ⟨(principalUser_eq_some dir).mpr hhp, fun personal => ?_⟩
  have unpaid : payer = none := by
    cases payer with
    | none => rfl
    | some p =>
      have : r.isCorpFunded = true := corp
      simp [personal] at this
  subst unpaid
  have user : r.requesterUserId = some requester := hreq
  rw [user]
  exact ⟨by simp, (principalUser_eq_some dir).mpr hrp⟩

/-- The principal form of "corp money or the requester's own item" is its user form. -/
private theorem requested_iff (dir : DirectoryOk s.directory) (parties : (ledger s).DueOk (dueOf r))
    (li : ListItem) :
    (r.isCorpFunded || decide
      (s.directory.principalUser r.requesterPrincipalId = some li.requestedByUserId)) =
      (r.isCorpFunded || decide (r.requesterUserId = some li.requestedByUserId)) := by
  cases corp : r.isCorpFunded with
  | true => rfl
  | false => rw [((principalUser_parties dir parties).2 corp).2]

private theorem covers_on {f : Fulfillment} {li : ListItem} (h : s.item? f.listItemId = some li) :
    covers s r f = (decide (li.listId = r.listId) && decide (f.haulerUserId = r.haulerUserId) &&
      (r.isCorpFunded || decide (r.requesterUserId = some li.requestedByUserId))) := by
  unfold covers
  rw [h]
  rfl

private theorem sums_eq_work (dir : DirectoryOk s.directory) (parties : (ledger s).DueOk (dueOf r))
    {l : ListRow} {requester hauler : Uuid} (hl : s.list? r.listId = some l)
    (hrp : s.directory.requesterPrincipal l.payer requester = some r.requesterPrincipalId)
    (hhp : s.directory.userPrincipal hauler = some r.haulerPrincipalId) (f : Fulfillment) :
    sums s l.id l.payer.isSome requester hauler f = work s r f := by
  obtain ⟨payer, owner, hpayer, corp, hreq, howner, hh, -⟩ := parties
  rw [payer?_ledger] at hpayer
  obtain rfl : l.payer = payer := by simpa [dueOf, hl] using hpayer
  obtain rfl : hauler = r.haulerUserId := userPrincipal_inj dir hhp hh
  have hid : l.id = r.listId := (lookup_mem hl).2
  have corp : r.isCorpFunded = l.payer.isSome := corp
  have hreq : r.requesterUserId = if l.payer.isSome then none else some owner := hreq
  unfold sums work covers
  rw [Bool.and_assoc]
  congr 1
  cases s.item? f.listItemId with
  | none => simp
  | some li =>
    simp only [Option.any_some, hid, corp]
    cases hp : l.payer with
    | some p =>
      simp only [Option.isSome_some, Bool.true_or, Bool.and_true]
      exact Bool.and_comm _ _
    | none =>
      rw [hp] at hrp howner hreq
      obtain rfl : requester = owner := userPrincipal_inj dir hrp howner
      simp only [hreq, Option.isSome_none, Bool.false_or, Bool.false_eq_true, if_false,
        Option.some.injEq, eq_comm (a := requester)]
      ac_rfl

private theorem matchedOn_eq_work (dir : DirectoryOk s.directory)
    (parties : (ledger s).DueOk (dueOf r))
    {li : ListItem} {f : Fulfillment} (h : s.item? f.listItemId = some li) :
    matchedOn s r li f = work s r f := by
  unfold matchedOn work
  rw [requested_iff dir parties, (principalUser_parties dir parties).1, covers_on h]
  simp only [Option.some.injEq, eq_comm (a := r.haulerUserId)]
  ac_rfl

private theorem matchedPairs_perm (dir : DirectoryOk s.directory)
    (items : Keyed ListItem.id s.listItems) (parties : (ledger s).DueOk (dueOf r)) :
    ((matchedPairs s r).map (·.2)).Perm (s.fulfillments.filter (work s r)) := by
  have same : (s.fulfillments.filter fun f =>
      (lookup ListItem.id f.listItemId s.listItems).any fun li => matchedOn s r li f) =
      s.fulfillments.filter (work s r) := by
    apply List.filter_congr
    intro f _
    cases h : lookup ListItem.id f.listItemId s.listItems with
    | none =>
      have unknown : s.item? f.listItemId = none := h
      simp [work, covers, unknown]
    | some li => exact matchedOn_eq_work dir parties h
  rw [← same]
  exact join_perm items

private theorem totalOf_totalsByType (rows : List (Int × Int)) (t : Int) :
    totalOf (totalsByType rows) t = ((rows.filter fun p => decide (p.1 = t)).map (·.2)).sum := by
  unfold totalOf totalsByType
  rw [List.find?_map]
  by_cases known : t ∈ rows.map (·.1)
  · have found : ((rows.map (·.1)).dedup.find?
        ((fun p : Int × Int => decide (p.1 = t)) ∘ fun t =>
          (t, ((rows.filter fun p => decide (p.1 = t)).map (·.2)).sum))) = some t := by
      have some_found : ((rows.map (·.1)).dedup.find? ((fun p : Int × Int => decide (p.1 = t)) ∘
          fun t => (t, ((rows.filter fun p => decide (p.1 = t)).map (·.2)).sum))).isSome := by
        rw [List.find?_isSome]
        exact ⟨t, List.mem_dedup.mpr known, by simp⟩
      obtain ⟨x, hx⟩ := Option.isSome_iff_exists.mp some_found
      have := List.find?_some hx
      simp only [Function.comp_apply, decide_eq_true_eq] at this
      rw [hx, this]
    rw [found]
    rfl
  · have missing : ((rows.map (·.1)).dedup.find?
        ((fun p : Int × Int => decide (p.1 = t)) ∘ fun t =>
          (t, ((rows.filter fun p => decide (p.1 = t)).map (·.2)).sum))) = none := by
      rw [List.find?_eq_none]
      intro x hx
      have hx := List.mem_dedup.mp hx
      simp only [Function.comp_apply, decide_eq_true_eq]
      exact fun same => known (same ▸ hx)
    have none_left : (rows.filter fun p => decide (p.1 = t)) = [] := by
      rw [List.filter_eq_nil_iff]
      intro p hp
      simp only [decide_eq_true_eq]
      exact fun same => known (same ▸ List.mem_map_of_mem hp)
    rw [missing, none_left]
    rfl

def ofType (s : Db) (typeId : Int) (f : Fulfillment) : Bool :=
  (s.item? f.listItemId).any fun li => decide (li.typeId = typeId)

private theorem matched_totals (dir : DirectoryOk s.directory)
    (items : Keyed ListItem.id s.listItems) (parties : (ledger s).DueOk (dueOf r)) (t : Int) :
    totalOf (totalsByType (matchedRows s r)) t =
      sumWhere (fun f => work s r f && ofType s t f) (·.qty) s.fulfillments := by
  have rows : (((matchedRows s r).filter fun p => decide (p.1 = t)).map (·.2)) =
      (((matchedPairs s r).map (·.2)).filter (ofType s t)).map (·.qty) := by
    rw [matchedRows_eq, List.filter_map, List.filter_map, List.map_map, List.map_map]
    congr 1
    apply List.filter_congr
    rintro ⟨li, f⟩ hp
    obtain ⟨hli, -, hid, -⟩ := mem_join hp
    have row : s.item? f.listItemId = some li := (lookup_eq_some items).mpr ⟨hli, hid.symm⟩
    simp [ofType, row]
  rw [totalOf_totalsByType, rows]
  unfold sumWhere
  rw [(((matchedPairs_perm dir items parties).filter (ofType s t)).map (·.qty)).sum_eq,
    List.filter_filter]
  congr 2
  apply List.filter_congr
  intro f _
  exact Bool.and_comm _ _

private theorem mem_totalsByType {rows : List (Int × Int)} {p : Int × Int} :
    p ∈ totalsByType rows ↔ p.1 ∈ rows.map (·.1) ∧
      p.2 = ((rows.filter fun x => decide (x.1 = p.1)).map (·.2)).sum := by
  unfold totalsByType
  simp only [List.mem_map, List.mem_dedup]
  constructor
  · rintro ⟨t, known, rfl⟩
    exact ⟨known, rfl⟩
  · rintro ⟨known, total⟩
    exact ⟨p.1, known, Prod.ext rfl total.symm⟩

/-- The totals that the matcher scores with are those of the types with something bought. -/
private theorem mem_fulfillmentTotals (dir : DirectoryOk s.directory)
    (items : Keyed ListItem.id s.listItems) (parties : (ledger s).DueOk (dueOf r))
    {p : Int × Int} :
    p ∈ fulfillmentTotals s r ↔ 0 < p.2 ∧
      p.2 = sumWhere (fun f => work s r f && ofType s p.1 f) (·.qty) s.fulfillments := by
  rw [← matched_totals dir items parties, totalOf_totalsByType, fulfillmentTotals, List.mem_filter,
    mem_totalsByType, decide_eq_true_eq]
  constructor
  · rintro ⟨⟨-, total⟩, positive⟩
    exact ⟨positive, total⟩
  · rintro ⟨positive, total⟩
    refine ⟨⟨?_, total⟩, positive⟩
    by_contra unknown
    -- A type that no row has sums to nothing.
    have none_left : ((matchedRows s r).filter fun x => decide (x.1 = p.1)) = [] := by
      rw [List.filter_eq_nil_iff]
      intro x hx
      simp only [decide_eq_true_eq]
      exact fun same => unknown (same ▸ List.mem_map_of_mem hx)
    rw [none_left] at total
    simp only [List.map_nil, List.sum_nil] at total
    omega

/-- An item of the list is worked on exactly when the hauler supplied it under the right payer. -/
private theorem workItem_eq (items : Keyed ListItem.id s.listItems) {li : ListItem}
    (hli : li ∈ s.listItems) :
    workItem s r li = (decide (li.listId = r.listId) &&
      (r.isCorpFunded || decide (r.requesterUserId = some li.requestedByUserId)) &&
      supplied s li.id r.haulerUserId) := by
  have row : s.item? li.id = some li := (lookup_eq_some items).mpr ⟨hli, rfl⟩
  have each (f : Fulfillment) : (decide (f.listItemId = li.id) && work s r f) =
      ((decide (li.listId = r.listId) &&
        (r.isCorpFunded || decide (r.requesterUserId = some li.requestedByUserId))) &&
        (decide (f.listItemId = li.id) && decide (f.haulerUserId = r.haulerUserId) && f.live)) := by
    by_cases on : f.listItemId = li.id
    · rw [work, covers_on (on ▸ row)]
      simp only [on, decide_true, Bool.true_and]
      ac_rfl
    · simp [on]
  unfold workItem supplied
  simp only [each]
  rw [← List.and_any_distrib_left]

/-- How `settle_manual` picks items, as it is fixed by the reimbursement. -/
private theorem mode_eq {mine : ListItem → Bool} {rival : Reimbursement → Bool}
    (mode : Mode r mine rival) (li : ListItem) :
    mine li = (r.isCorpFunded || decide (r.requesterUserId = some li.requestedByUserId)) := by
  rcases mode with ⟨corp, rfl, -⟩ | ⟨requester, personal, hreq, rfl, -⟩
  · simp [corp]
  · simp [requestedBy, personal, hreq, eq_comm]

private theorem mayFlip_eq_workItem (items : Keyed ListItem.id s.listItems) {mine : ListItem → Bool}
    {rival : Reimbursement → Bool} (mode : Mode r mine rival) {li : ListItem}
    (hli : li ∈ s.listItems) : mayFlip s r.listId r.haulerUserId mine li = workItem s r li := by
  rw [workItem_eq items hli, mayFlip, mode_eq mode]

private theorem mayFlipBound_eq_workItem (dir : DirectoryOk s.directory)
    (items : Keyed ListItem.id s.listItems) (parties : (ledger s).DueOk (dueOf r)) {li : ListItem}
    (hli : li ∈ s.listItems) : mayFlipBound s r li = workItem s r li := by
  rw [workItem_eq items hli, mayFlipBound, requested_iff dir parties, suppliedByPrincipal,
    (principalUser_parties dir parties).1]
  rfl

private theorem inspected_eq (items : Keyed ListItem.id s.listItems) {mine : ListItem → Bool}
    {rival : Reimbursement → Bool} (mode : Mode r mine rival) :
    inspected s r.listId r.haulerUserId mine = (s.listItems.filter (workItem s r)).filter
      fun li => decide (li.status ≠ .delivered) && decide (li.status ≠ .settled) := by
  unfold inspected
  rw [List.filter_filter]
  apply List.filter_congr
  intro li hli
  rw [← mayFlip_eq_workItem items mode hli, mayFlip]
  ac_rfl

private theorem isCandidate_own (dir : DirectoryOk s.directory)
    (parties : (ledger s).DueOk (dueOf r))
    (pending : r.status = .pending) (unbound : r.contractId = none) :
    isCandidate s r.haulerPrincipalId r.requesterPrincipalId r = true := by
  cases corp : r.isCorpFunded with
  | true => simp [isCandidate, pending, unbound, corp]
  | false =>
    obtain ⟨known, user⟩ := (principalUser_parties dir parties).2 corp
    simp [isCandidate, pending, unbound, corp, user, Option.isSome_iff_ne_none, known]

end Agreement

/-- Every query of the code selects the work of the reimbursement. -/
structure CoverageAgrees (s : Db) (r : Reimbursement) : Prop where
  /-- The upsert of its cycle sums it, for every pair of users that names the cycle. -/
  upsert : ∀ l requester hauler, s.list? r.listId = some l →
    s.directory.requesterPrincipal l.payer requester = some r.requesterPrincipalId →
    s.directory.userPrincipal hauler = some r.haulerPrincipalId →
    subtotal s l.id l.payer.isSome requester hauler =
        sumWhere (sums s l.id l.payer.isSome requester hauler) Fulfillment.cost s.fulfillments ∧
      ∀ f, sums s l.id l.payer.isSome requester hauler f = work s r f
  /-- The matcher finds it between its own principals, joins its work and sums it by type. -/
  candidate : isCandidate s r.haulerPrincipalId r.requesterPrincipalId r = true
  matched : matchedRows s r = (matchedPairs s r).map (fun p => (p.1.typeId, p.2.qty)) ∧
    ((matchedPairs s r).map (·.2)).Perm (s.fulfillments.filter (work s r))
  totals : ∀ t, totalOf (totalsByType (matchedRows s r)) t =
    sumWhere (fun f => work s r f && ofType s t f) (·.qty) s.fulfillments
  positive : ∀ p, p ∈ fulfillmentTotals s r ↔ 0 < p.2 ∧
    p.2 = sumWhere (fun f => work s r f && ofType s p.1 f) (·.qty) s.fulfillments
  /-- The count of a manual settle is that of its items that are neither delivered nor settled. -/
  count : ∀ mine rival, Mode r mine rival →
    notDelivered s r.listId r.haulerUserId mine =
        (inspected s r.listId r.haulerUserId mine).length ∧
      inspected s r.listId r.haulerUserId mine = (s.listItems.filter (workItem s r)).filter
        fun li => decide (li.status ≠ .delivered) && decide (li.status ≠ .settled)
  /-- The flips of a manual settle may touch its items, up to the status filter and the guard. -/
  flips : ∀ mine rival, Mode r mine rival →
    (∀ acceptBought, flipHaulerItems s r.listId r.haulerUserId acceptBought mine rival =
      flipItems s fun li => mayFlip s r.listId r.haulerUserId mine li &&
        (flippable acceptBought li.status && !contested s r.listId r.haulerUserId rival li)) ∧
    s.listItems.filter (mayFlip s r.listId r.haulerUserId mine) =
      s.listItems.filter (workItem s r)
  /-- So may the bulk flip of a contract, once it is bound. -/
  bulk : ∀ cid,
    (∀ li, flipsOnContract (bindReimbursement s cid r.id) cid li =
      (bindReimbursement s cid r.id).reimbursements.any fun x =>
        boundTo cid x && (mayFlipBound (bindReimbursement s cid r.id) x li &&
          ((decide (li.status = .bought) || decide (li.status = .delivered)) &&
            !blockedOnContract (bindReimbursement s cid r.id) x li.id))) ∧
    s.listItems.filter (mayFlipBound (bindReimbursement s cid r.id)
      { r with contractId := some cid }) = s.listItems.filter (workItem s r)

private theorem coverageAgrees {s : Db} {r : Reimbursement} (dir : DirectoryOk s.directory)
    (items : Keyed ListItem.id s.listItems) (parties : (ledger s).DueOk (dueOf r))
    (pending : r.status = .pending) (unbound : r.contractId = none) : CoverageAgrees s r where
  upsert l requester hauler hl hrp hhp :=
    ⟨subtotal_eq_sums s l.id l.payer.isSome requester hauler,
      sums_eq_work dir parties hl hrp hhp⟩
  candidate := isCandidate_own dir parties pending unbound
  matched := ⟨matchedRows_eq s r, matchedPairs_perm dir items parties⟩
  totals := matched_totals dir items parties
  positive _ := mem_fulfillmentTotals dir items parties
  count mine _ mode := ⟨notDelivered_eq s r.listId r.haulerUserId mine, inspected_eq items mode⟩
  flips mine rival mode :=
    ⟨fun acceptBought => flipHaulerItems_eq s r.listId r.haulerUserId acceptBought mine rival,
      List.filter_congr fun _ hli => mayFlip_eq_workItem items mode hli⟩
  bulk cid := ⟨flipsOnContract_eq _ cid,
    List.filter_congr fun _ hli => mayFlipBound_eq_workItem dir items parties hli⟩

private theorem parties_reached (ops : List Operations.Op) {r : Reimbursement}
    (hr : r ∈ (Operations.reached ops).reimbursements) :
    DirectoryOk (Operations.reached ops).directory ∧
      Keyed ListItem.id (Operations.reached ops).listItems ∧
      (ledger (Operations.reached ops)).DueOk (dueOf r) := by
  have ok := ledgerOk_reached ops
  have lines : Keyed Line.id ((Operations.reached ops).listItems.map lineOf) := ok.lines
  refine ⟨ok.directory, ?_, ok.due _ (List.mem_map_of_mem hr)⟩
  unfold Keyed at lines ⊢
  simpa [List.map_map, Function.comp_def, lineOf] using lines

/-- Coverage agreement, in every state with unique principals and items for every reimbursement
whose user columns match its principals, and so in every reachable state for every reimbursement. -/
theorem coverage_agrees :
    (∀ s r, DirectoryOk s.directory → Keyed ListItem.id s.listItems →
      (ledger s).DueOk (dueOf r) → r.status = .pending → r.contractId = none →
      CoverageAgrees s r) ∧
    ∀ ops, ∀ r ∈ (Operations.reached ops).reimbursements, r.status = .pending →
      r.contractId = none → CoverageAgrees (Operations.reached ops) r := by
  refine ⟨fun s r dir items parties pending unbound =>
    coverageAgrees dir items parties pending unbound, fun ops r hr pending unbound => ?_⟩
  obtain ⟨dir, items, parties⟩ := parties_reached ops hr
  exact coverageAgrees dir items parties pending unbound

/-- Member 3 bought for member 2 and for member 4 on one list. -/
def twoRequesters : Db where
  directory := Operations.sampleDirectory
  lists := [⟨1, 1, 1, .open, 0, none⟩]
  listItems := [⟨1, 1, 34, "Tritanium", 5, 5, 2, .bought, 1⟩, ⟨2, 1, 35, "Pyerite", 4, 4, 4, .bought, 2⟩]
  fulfillments :=
    [⟨1, 1, none, 3, none, 5, 100, none, some "Jita", 1, none⟩,
      ⟨2, 2, none, 3, none, 4, 200, none, some "Jita", 1, none⟩]
  reimbursements :=
    [⟨1, 1, some 2, 2, 3, 3, 500, 0, 500, .pending, none, none, none, false⟩,
      ⟨2, 1, some 4, 4, 3, 3, 800, 0, 800, .pending, none, none, none, false⟩]

theorem coverage_agrees_twoRequesters :
    ∃ r ∈ twoRequesters.reimbursements, twoRequesters.fulfillments.filter (work twoRequesters r) =
        [⟨1, 1, none, 3, none, 5, 100, none, some "Jita", 1, none⟩] ∧
      ((matchedPairs twoRequesters r).map (·.2)).Perm
        (twoRequesters.fulfillments.filter (work twoRequesters r)) := by
  refine ⟨⟨1, 1, some 2, 2, 3, 3, 500, 0, 500, .pending, none, none, none, false⟩,
    List.mem_cons_self, by decide +kernel, ?_⟩
  exact (coverage_agrees.1 twoRequesters _ (by decide +kernel) (by decide +kernel)
    ⟨none, 2, by decide +kernel, rfl, rfl, by decide +kernel, by decide +kernel, by decide⟩
    rfl rfl).matched.2

end JitaCart.Books
