/- module: JitaCart/Tenancy/Visible
   source: backend/migrations/20260427000000_init.sql (row-level security),
     backend/crates/api/src/extract.rs, backend/crates/api/src/db.rs
   digest: What is left of the database for a session, and what the extractors read of it. -/

import JitaCart.Tenancy.Barrier
import JitaCart.Tenancy.Isolation

/-!
The tables of the application as rows under the policies. `visible` is the
database that the queries of a request work on: of every table with a policy,
the rows that it permits to the user of the session.
-/

set_option autoImplicit false
set_option relaxedAutoImplicit false

namespace JitaCart.Tenancy.Visible

open Schema Base.Table Base.Request Api.Extract Api.Routes
open RowSecurity (Row permits isGroupMember isListMember isGroupMember_iff isListMember_iff
  permits_claimItem permits_fulfillment permits_suggestion ListIn ClaimIn ItemIn DueIn)

def ofMembership (m : GroupMembership) : Row Unit := .groupMembership m.userId m.groupId ()

def ofGroupCorp (c : GroupCorp) : Row Unit :=
  .groupCorp c.groupId c.corpId c.unlinkedAt.isSome ()

def ofTracked (t : TrackedMarket) : Row Unit := .trackedMarket t.groupId t.marketId ()

def ofList (l : ListRow) : Row Unit := .list l.id l.groupId ()

def ofItem (li : ListItem) : Row Unit := .listItem li.id li.listId ()

def ofListMarket (m : ListMarket) : Row Unit := .listMarket m.listId m.marketId ()

def ofClaim (c : Claim) : Row Unit := .claim c.id c.listId (decide (c.status = .active)) ()

def ofClaimItem (ci : ClaimItem) : Row Unit := .claimItem ci.claimId ci.listItemId ci.active ()

def ofFulfillment (f : Fulfillment) : Row Unit := .fulfillment f.id f.listItemId f.claimId ()

def ofReimbursement (r : Reimbursement) : Row Unit := .reimbursement r.id r.listId ()

def ofSuggestion (g : Suggestion) : Row Unit := .suggestion g.id g.contractId g.reimbursementId ()

def ofContract (c : Contract) : Row Unit :=
  .contract c.id c.issuerUserId c.assigneeUserId c.sourceCorpId ()

/-- The policies read the contract of an item only, so the key of the item may be any. -/
def ofContractItem (i : ContractItem) : Row Unit := .contractItem i.contractId i.recordId.toNat ()

def rowsOf (b : Board) : List (Row Unit) :=
  b.db.directory.groupMemberships.map ofMembership ++ b.db.directory.groupCorps.map ofGroupCorp ++
    b.trackedMarkets.map ofTracked ++ b.db.lists.map ofList ++ b.db.listItems.map ofItem ++
    b.listMarkets.map ofListMarket ++ b.db.claims.map ofClaim ++ b.db.claimItems.map ofClaimItem ++
    b.db.fulfillments.map ofFulfillment ++ b.db.reimbursements.map ofReimbursement ++
    b.db.suggestions.map ofSuggestion ++ b.db.contracts.map ofContract ++
    b.db.contractItems.map ofContractItem

section Session
variable (b : Board) (userId : Uuid)

/-- The rows of a table that the policies permit to the user. -/
def kept {α : Type} (row : α → Row Unit) (table : List α) : List α :=
  table.filter fun r => permits (rowsOf b) (some userId) (row r)

/-- The label and notes are columns of the list. -/
def visible : Board where
  db :=
    { directory :=
        { b.db.directory with
          groupMemberships := kept b userId ofMembership b.db.directory.groupMemberships
          groupCorps := kept b userId ofGroupCorp b.db.directory.groupCorps }
      lists := kept b userId ofList b.db.lists
      listItems := kept b userId ofItem b.db.listItems
      claims := kept b userId ofClaim b.db.claims
      claimItems := kept b userId ofClaimItem b.db.claimItems
      fulfillments := kept b userId ofFulfillment b.db.fulfillments
      contracts := kept b userId ofContract b.db.contracts
      contractItems := kept b userId ofContractItem b.db.contractItems
      reimbursements := kept b userId ofReimbursement b.db.reimbursements
      suggestions := kept b userId ofSuggestion b.db.suggestions }
  texts := b.texts.filter fun t => isListMember (rowsOf b) (some userId) t.listId
  listMarkets := kept b userId ofListMarket b.listMarkets
  markets := b.markets
  trackedMarkets := kept b userId ofTracked b.trackedMarkets
  gone := b.gone

/-- The list exists, and the user is a member of its group. -/
def admits (s : Db) (listId : Uuid) : Bool :=
  (s.list? listId).any fun l => (s.directory.roleOf userId l.groupId).isSome

end Session

/-- Under the policies a list of another group is not found instead of forbidden. -/
def concealed {α : Type} (what : String) : Except ApiError α → Except ApiError α
  | .error (.forbidden _) => .error (.notFound what)
  | x => x

variable {b : Board} {u : Uuid}

private theorem lookup_filter {α κ : Type} [DecidableEq κ] {key : α → κ} {t : List α}
    (keyed : Keyed key t)
    (p : α → Bool) (k : κ) : lookup key k (t.filter p) = (lookup key k t).filter p := by
  refine Option.ext fun r => ?_
  rw [lookup_eq_some (keyed.filter p), List.mem_filter, Option.filter_eq_some_iff,
    lookup_eq_some keyed]
  tauto

attribute [local simp] ofMembership ofGroupCorp ofTracked ofList ofItem ofListMarket ofClaim
  ofClaimItem ofFulfillment ofReimbursement ofSuggestion ofContract ofContractItem

private theorem membership_mem {w g : Uuid} {v : Unit} : .groupMembership w g v ∈ rowsOf b ↔
    ∃ m ∈ b.db.directory.groupMemberships, m.userId = w ∧ m.groupId = g := by
  simp [rowsOf]

private theorem list_mem {l g : Uuid} {v : Unit} : .list l g v ∈ rowsOf b ↔
    ∃ r ∈ b.db.lists, r.id = l ∧ r.groupId = g := by
  simp [rowsOf]

private theorem item_mem {i l : Uuid} {v : Unit} : .listItem i l v ∈ rowsOf b ↔
    ∃ r ∈ b.db.listItems, r.id = i ∧ r.listId = l := by
  simp [rowsOf]

private theorem claim_mem {c l : Uuid} {a : Bool} {v : Unit} : .claim c l a v ∈ rowsOf b ↔
    ∃ r ∈ b.db.claims, r.id = c ∧ r.listId = l ∧ decide (r.status = .active) = a := by
  simp [rowsOf]

private theorem due_mem {d l : Uuid} {v : Unit} : .reimbursement d l v ∈ rowsOf b ↔
    ∃ r ∈ b.db.reimbursements, r.id = d ∧ r.listId = l := by
  simp [rowsOf]

private theorem isGroupMember_rowsOf (g : Uuid) : isGroupMember (rowsOf b) (some u) g =
    (b.db.directory.roleOf u g).isSome := by
  refine Bool.eq_iff_iff.mpr ?_
  rw [isGroupMember_iff]
  unfold Schema.Directory.roleOf
  rw [Option.isSome_map, List.find?_isSome]
  simp only [membership_mem, decide_eq_true_eq]
  constructor
  · rintro ⟨w, -, own, m, hm, rfl, same⟩
    exact ⟨m, hm, (Option.some.inj own).symm ▸ rfl, same⟩
  · rintro ⟨m, hm, rfl, same⟩
    exact ⟨m.userId, (), rfl, m, hm, rfl, same⟩

private theorem listIn_rowsOf (ok : Placed b.db) {g l : Uuid} :
    ListIn (rowsOf b) g l ↔ ∃ row, b.db.list? l = some row ∧ row.groupId = g := by
  unfold ListIn Db.list?
  simp only [list_mem, lookup_eq_some ok.lists, exists_const]
  exact exists_congr fun row => (and_assoc ..).symm

private theorem isListMember_rowsOf (ok : Placed b.db) (l : Uuid) :
    isListMember (rowsOf b) (some u) l = admits u b.db l := by
  refine Bool.eq_iff_iff.mpr ?_
  rw [isListMember_iff]
  unfold admits
  simp only [listIn_rowsOf ok, isGroupMember_rowsOf, Option.any_eq_true]
  constructor
  · rintro ⟨-, ⟨row, hrow, rfl⟩, member⟩
    exact ⟨row, hrow, member⟩
  · rintro ⟨row, hrow, member⟩
    exact ⟨row.groupId, ⟨row, hrow, rfl⟩, member⟩

section Permits
variable (ok : Placed b.db)
include ok

private theorem permits_list {row : ListRow} (hrow : row ∈ b.db.lists) :
    permits (rowsOf b) (some u) (ofList row) = admits u b.db row.id := by
  have found : b.db.list? row.id = some row := (lookup_eq_some ok.lists).mpr ⟨hrow, rfl⟩
  simp only [admits, found, Option.any_some]
  exact isGroupMember_rowsOf row.groupId

private theorem permits_ofClaimItem (ci : ClaimItem) :
    permits (rowsOf b) (some u) (ofClaimItem ci) =
      (b.db.claim? ci.claimId).any fun c => admits u b.db c.listId := by
  refine Bool.eq_iff_iff.mpr ?_
  unfold ofClaimItem Db.claim?
  simp only [permits_claimItem, ClaimIn, claim_mem, Option.any_eq_true, lookup_eq_some ok.claims,
    ← isListMember_rowsOf ok, isListMember_iff]
  constructor
  · rintro ⟨h, ⟨-, -, -, ⟨c, hc, same, rfl, -⟩, list⟩, member⟩
    exact ⟨c, ⟨hc, same⟩, h, list, member⟩
  · rintro ⟨c, ⟨hc, same⟩, h, list, member⟩
    exact ⟨h, ⟨c.listId, _, (), ⟨c, hc, same, rfl, rfl⟩, list⟩, member⟩

private theorem permits_ofFulfillment (f : Fulfillment) :
    permits (rowsOf b) (some u) (ofFulfillment f) =
      (b.db.item? f.listItemId).any fun li => admits u b.db li.listId := by
  refine Bool.eq_iff_iff.mpr ?_
  unfold ofFulfillment Db.item?
  simp only [permits_fulfillment, ItemIn, item_mem, Option.any_eq_true, lookup_eq_some ok.items,
    ← isListMember_rowsOf ok, isListMember_iff]
  constructor
  · rintro ⟨h, ⟨-, -, ⟨li, hli, same, rfl⟩, list⟩, member⟩
    exact ⟨li, ⟨hli, same⟩, h, list, member⟩
  · rintro ⟨li, ⟨hli, same⟩, h, list, member⟩
    exact ⟨h, ⟨li.listId, (), ⟨li, hli, same, rfl⟩, list⟩, member⟩

private theorem permits_ofSuggestion (g : Suggestion) :
    permits (rowsOf b) (some u) (ofSuggestion g) =
      (b.db.reimbursement? g.reimbursementId).any fun r => admits u b.db r.listId := by
  refine Bool.eq_iff_iff.mpr ?_
  unfold ofSuggestion Db.reimbursement?
  simp only [permits_suggestion, DueIn, due_mem, Option.any_eq_true,
    lookup_eq_some ok.reimbursements, ← isListMember_rowsOf ok, isListMember_iff]
  constructor
  · rintro ⟨h, ⟨-, -, ⟨r, hr, same, rfl⟩, list⟩, member⟩
    exact ⟨r, ⟨hr, same⟩, h, list, member⟩
  · rintro ⟨r, ⟨hr, same⟩, h, list, member⟩
    exact ⟨h, ⟨r.listId, (), ⟨r, hr, same, rfl⟩, list⟩, member⟩

end Permits

/-- What is shown of a list that is not admitted. -/
def nothing : Rows := ⟨⟨[], [], [], [], [], []⟩, [], [], []⟩

private theorem filter_agreed {α : Type} {t : List α} {q p : α → Bool} {a : Bool}
    (same : ∀ r ∈ t, p r = true → q r = a) :
    (t.filter q).filter p = if a then t.filter p else [] := by
  rw [List.filter_filter]
  cases a with
  | true => exact List.filter_congr fun r hr => by cases h : p r <;> simp [same r hr, h]
  | false => exact List.filter_eq_nil_iff.mpr fun r hr => by cases h : p r <;> simp [same r hr, h]

private theorem lookup_kept {α : Type} {key : α → Uuid} {f : α → Row Unit} {t : List α}
    (keyed : Keyed key t) (list : α → Uuid)
    (own : ∀ r ∈ t, permits (rowsOf b) (some u) (f r) = admits u b.db (list r)) (k : Uuid) :
    lookup key k (kept b u f t) = (lookup key k t).filter fun r => admits u b.db (list r) := by
  unfold kept
  rw [lookup_filter keyed]
  cases found : lookup key k t with
  | none => rfl
  | some r => rw [Option.filter_some, Option.filter_some, own r (lookup_mem found).1]

private theorem any_admitted {α : Type} (s : Db) (list : α → Uuid) (l : Uuid) (found : Option α) :
    (found.filter fun r => admits u s (list r)).any (fun r => decide (list r = l)) =
      (found.any (fun r => decide (list r = l)) && admits u s l) := by
  cases found with
  | none => rfl
  | some r =>
    by_cases on : list r = l
    · cases shown : admits u s (list r) <;> simp [on ▸ shown, on, Option.filter_some]
    · cases admits u s (list r) <;> simp [on]

private theorem any_admits {α : Type} {s : Db} {list : α → Uuid} {l : Uuid} {found : Option α}
    (on : (found.any fun r => decide (list r = l)) = true) :
    (found.any fun r => admits u s (list r)) = admits u s l := by
  cases found with
  | none => cases on
  | some r =>
    rw [Option.any_some, decide_eq_true_eq] at on
    rw [Option.any_some, on]

private theorem onList_visible (ok : Placed b.db) (l i : Uuid) :
    onList (visible b u).db l i = (onList b.db l i && admits u b.db l) := by
  have found := lookup_kept (u := u) (f := ofItem) ok.items ListItem.listId
    (fun li _ => isListMember_rowsOf ok li.listId) i
  unfold onList Db.item? visible
  rw [found, any_admitted]

private theorem owedOn_visible (ok : Placed b.db) (l d : Uuid) :
    owedOn (visible b u).db l d = (owedOn b.db l d && admits u b.db l) := by
  have found := lookup_kept (u := u) (f := ofReimbursement) ok.reimbursements Reimbursement.listId
    (fun r _ => isListMember_rowsOf ok r.listId) d
  unfold owedOn Db.reimbursement? visible
  rw [found, any_admitted]

/-- The same when the query finds the list of a row through another table. -/
private theorem filter_through {α : Type} {f : α → Row Unit} {t : List α} {p q : α → Bool}
    {a : Bool} (found : ∀ r, q r = (p r && a))
    (same : ∀ r ∈ t, p r = true → permits (rowsOf b) (some u) (f r) = a) :
    (kept b u f t).filter q = if a then t.filter p else [] := by
  obtain rfl : q = fun r => p r && a := funext found
  cases a with
  | true =>
    simp only [Bool.and_true]
    exact filter_agreed same
  | false => simp

/-- Of a list that is admitted everything is shown, of any other list nothing. -/
private theorem rowsOn_visible (ok : Placed b.db) (l : Uuid) :
    rowsOn (visible b u) l = if admits u b.db l then rowsOn b l else nothing := by
  have column {α : Type} {f : α → Row Unit} {t : List α} (list : α → Uuid)
      (own : ∀ r ∈ t, permits (rowsOf b) (some u) (f r) = admits u b.db (list r)) :
      (kept b u f t).filter (fun r => decide (list r = l)) =
        if admits u b.db l then t.filter fun r => decide (list r = l) else [] :=
    filter_agreed fun r hr on => of_decide_eq_true on ▸ own r hr
  have lists := column (f := ofList) ListRow.id fun r hr => permits_list (u := u) ok hr
  have items := column (f := ofItem) (t := b.db.listItems) ListItem.listId
    fun li _ => isListMember_rowsOf (u := u) ok li.listId
  have claims := column (f := ofClaim) (t := b.db.claims) Claim.listId
    fun c _ => isListMember_rowsOf (u := u) ok c.listId
  have dues := column (f := ofReimbursement) (t := b.db.reimbursements) Reimbursement.listId
    fun r _ => isListMember_rowsOf (u := u) ok r.listId
  have markets := column (f := ofListMarket) (t := b.listMarkets) ListMarket.listId
    fun m _ => isListMember_rowsOf (u := u) ok m.listId
  have claimItems := filter_through (b := b) (u := u) (f := ofClaimItem) (t := b.db.claimItems)
    (fun ci => onList_visible (u := u) ok l ci.listItemId) fun ci hci on => by
      obtain ⟨c, li, hc, hli, placed⟩ := ok.claimItems ci hci
      rw [permits_ofClaimItem ok, hc, Option.any_some, (ok.onList_claimItem hci hc).mp on]
  have fulfillments := filter_through (b := b) (u := u) (f := ofFulfillment)
    (t := b.db.fulfillments) (fun f => onList_visible (u := u) ok l f.listItemId)
    fun f _ on => (permits_ofFulfillment ok f).trans (any_admits on)
  have suggestions := filter_through (b := b) (u := u) (f := ofSuggestion)
    (t := b.db.suggestions) (fun g => owedOn_visible (u := u) ok l g.reimbursementId)
    fun g _ on => (permits_ofSuggestion ok g).trans (any_admits on)
  have texts : (visible b u).texts.filter (fun t => decide (t.listId = l)) =
      if admits u b.db l then b.texts.filter fun t => decide (t.listId = l) else [] :=
    filter_agreed fun t _ on => of_decide_eq_true on ▸ isListMember_rowsOf ok t.listId
  unfold rowsOn view suggestionsOn textsOn marketsOn
  rw [texts]
  simp only [visible] at claimItems fulfillments suggestions ⊢
  rw [lists, items, claims, dues, markets, claimItems, fulfillments, suggestions]
  cases admits u b.db l <;> rfl

private theorem roleOf_visible (w : Uuid) : (visible b u).db.directory.roleOf u w =
    b.db.directory.roleOf u w := by
  unfold Schema.Directory.roleOf visible kept
  simp only
  rw [List.find?_filter]
  congr 2
  funext m
  by_cases own : m.userId = u ∧ m.groupId = w
  · simp [own, permits]
  · simp [own]

private theorem list?_visible (ok : Placed b.db) (l : Uuid) :
    (visible b u).db.list? l = (b.db.list? l).filter fun _ => admits u b.db l := by
  refine (lookup_kept ok.lists ListRow.id (fun row hrow => permits_list ok hrow) l).trans ?_
  unfold Db.list?
  cases found : lookup ListRow.id l b.db.lists with
  | none => rfl
  | some row => rw [Option.filter_some, Option.filter_some, (lookup_mem found).2]

private theorem claim?_visible (ok : Placed b.db) (c : Uuid) :
    (visible b u).db.claim? c = (b.db.claim? c).filter fun row => admits u b.db row.listId :=
  lookup_kept (f := ofClaim) ok.claims Claim.listId
    (fun row _ => isListMember_rowsOf ok row.listId) c

private theorem currentList_visible (ok : Placed b.db) (l : Uuid) :
    currentList (visible b u).db u l = concealed "list not found" (currentList b.db u l) := by
  unfold currentList
  simp only [list?_visible ok, roleOf_visible]
  cases found : b.db.list? l with
  | none => rfl
  | some row =>
    cases role : b.db.directory.roleOf u row.groupId with
    | none =>
      have shown : admits u b.db l = false := by simp [admits, found, role]
      simp [shown, Option.filter_some, role, fetch, concealed, bind, Except.bind]
    | some r =>
      have shown : admits u b.db l = true := by simp [admits, found, role]
      simp [shown, Option.filter_some, role, fetch, concealed, bind, Except.bind, pure, Except.pure]

private theorem currentClaim_visible (ok : Placed b.db) (c : Uuid) :
    currentClaim (visible b u).db u c = concealed "claim not found" (currentClaim b.db u c) := by
  unfold currentClaim
  simp only [claim?_visible ok, list?_visible ok, roleOf_visible]
  cases claim : b.db.claim? c with
  | none => rfl
  | some row =>
    cases found : b.db.list? row.listId with
    | none =>
      have shown : admits u b.db row.listId = false := by simp [admits, found]
      simp [shown, Option.filter_some, found, fetch, concealed, bind, Except.bind]
    | some list =>
      cases role : b.db.directory.roleOf u list.groupId with
      | none =>
        have shown : admits u b.db row.listId = false := by simp [admits, found, role]
        simp [shown, Option.filter_some, found, role, fetch, concealed, bind, Except.bind]
      | some r =>
        have shown : admits u b.db row.listId = true := by simp [admits, found, role]
        simp [shown, Option.filter_some, found, role, fetch, concealed, bind, Except.bind, pure,
          Except.pure]

private theorem admits_iff {s : Db} {l : Uuid} :
    admits u s l = true ↔ ∃ cur, currentList s u l = .ok cur := by
  unfold admits currentList
  cases found : s.list? l with
  | none => simp [fetch, bind, Except.bind]
  | some row =>
    cases role : s.directory.roleOf u row.groupId with
    | none => simp [role, fetch, bind, Except.bind]
    | some r => simp [role, fetch, bind, Except.bind, pure, Except.pure]

/-- In every reachable board the policies show a session the lists that the extractors admit, and
these in full. Of any other list they show nothing, so it is not found. -/
theorem policies_match_extractors (events : List Isolation.Event) (userId : Uuid) :
    (∀ listId, (∃ cur, currentList (Isolation.reached events).db userId listId = .ok cur) →
      rowsOn (visible (Isolation.reached events) userId) listId =
        rowsOn (Isolation.reached events) listId) ∧
    (∀ listId, (¬∃ cur, currentList (Isolation.reached events).db userId listId = .ok cur) →
      rowsOn (visible (Isolation.reached events) userId) listId = nothing) ∧
    (∀ listId, currentList (visible (Isolation.reached events) userId).db userId listId =
      concealed "list not found" (currentList (Isolation.reached events).db userId listId)) ∧
    (∀ claimId, currentClaim (visible (Isolation.reached events) userId).db userId claimId =
      concealed "claim not found" (currentClaim (Isolation.reached events).db userId claimId)) ∧
    ∀ groupId, currentGroup (visible (Isolation.reached events) userId).db userId groupId =
      currentGroup (Isolation.reached events).db userId groupId := by
  have ok := (Isolation.sound_reached events).placed
  refine ⟨fun l h => ?_, fun l h => ?_, currentList_visible ok, currentClaim_visible ok,
    fun g => ?_⟩
  · rw [rowsOn_visible ok, if_pos (admits_iff.mpr h)]
  · rw [rowsOn_visible ok, if_neg fun shown => h (admits_iff.mp shown)]
  · unfold currentGroup
    rw [roleOf_visible]

end JitaCart.Tenancy.Visible
