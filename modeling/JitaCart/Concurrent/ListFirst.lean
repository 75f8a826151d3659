/- module: JitaCart/Concurrent/ListFirst
   source: backend/crates/api/src/fulfillment.rs, backend/crates/api/src/fulfillment/claims.rs,
     backend/crates/api/src/fulfillment/fulfillments.rs,
     backend/crates/api/src/fulfillment/reimbursements.rs, backend/crates/api/src/fulfillment/tips.rs,
     backend/crates/api/src/lists/items.rs, backend/crates/api/src/corps.rs (patch_list_payer)
   digest: Requests that lock their list before any other row do not deadlock. -/

import JitaCart.Base.Gates
import JitaCart.Concurrent.PayerAgreement
import JitaCart.Tenancy.Reach

/-!
Ids are drawn at random, so each id of a row below a list belongs to one list:
`listOf`. The rows of a list are locked under the lock of the list. The share locks
of foreign keys conflict with none of these: outside the lists nothing is locked
for update.
-/

set_option autoImplicit false
set_option relaxedAutoImplicit false

namespace JitaCart.Concurrent.Trade

open Schema Base.Table Base.Request Base.ReadCommitted
open Base.ReadCommitted.Gates
open Api.Reimbursements (cycle)

/-- The row whose lock guards a row. -/
def homeOf (listOf : Uuid → Uuid) : Row → Row
  | .item id => .list (listOf id)
  | .claim id => .list (listOf id)
  | .claimItem claimId _ => .list (listOf claimId)
  | .activeItem itemId => .list (listOf itemId)
  | .fulfillment id => .list (listOf id)
  | .reimbursement id => .list (listOf id)
  | .cycle key => .list key.1
  | row => row

/-- Every row is on the list that its id belongs to. -/
structure Assigned (listOf : Uuid → Uuid) (s : Shop) : Prop where
  items : ∀ li ∈ s.listItems, li.listId = listOf li.id
  keyed : Keyed ListItem.id s.listItems
  claims : ∀ c ∈ s.claims, c.listId = listOf c.id
  claimItems : ∀ ci ∈ s.claimItems, listOf ci.claimId = listOf ci.listItemId
  fulfillments : ∀ f ∈ s.fulfillments, listOf f.id = listOf f.listItemId
  reimbursements : ∀ r ∈ s.reimbursements, r.listId = listOf r.id

def Write.assigned (listOf : Uuid → Uuid) : Write → Prop
  | .put (.item li) => li.listId = listOf li.id
  | .put (.claim c) => c.listId = listOf c.id
  | .put (.claimItem ci) => listOf ci.claimId = listOf ci.listItemId
  | .put (.fulfillment f) => listOf f.id = listOf f.listItemId
  | .putReimbursement _ r => r.listId = listOf r.id
  | .dropGroup _ => False
  | _ => True

def TradeRequest.gate (listOf : Uuid → Uuid) : TradeRequest → Row
  | .recordFulfillment _ listId _ _ _ => .list listId
  | .reverseFulfillment _ fulfillmentId _ _ => .list (listOf fulfillmentId)
  | .markDelivered _ listId _ _ => .list listId
  | .createClaim _ listId _ _ => .list listId
  | .addClaimItems _ claimId _ => .list (listOf claimId)
  | .removeClaimItem _ claimId _ => .list (listOf claimId)
  | .releaseClaim _ claimId => .list (listOf claimId)
  | .addItems _ _ listId _ _ => .list listId
  | .patchItem _ listId _ _ => .list listId
  | .deleteItem _ listId _ => .list listId
  | .setListTip _ listId _ => .list listId
  | .patchListPayer _ listId _ => .list listId
  | .settleReimbursement _ reimbursementId _ => .list (listOf reimbursementId)
  | .doReject _ suggestionId => .suggestion suggestionId
  | .doConfirm _ suggestionId _ => .suggestion suggestionId
  | .doManualLink _ contractId _ _ _ => .contract contractId
  | .doUnlink _ contractId => .contract contractId
  | .handleContractTerminal u _ => .contract u.contractId
  | .upsertContract u _ => .esiContract u.esiContractId
  | .verifyContractAgainstJournal _ contractId => .contract contractId
  | .deleteList _ listId => .list listId
  | .deleteGroup _ groupId => .group groupId

/-- The requests that lock their list first, with ids for new rows that belong to it. `doReject`
locks a suggestion and nothing else. -/
def TradeRequest.ListFirst (listOf : Uuid → Uuid) : TradeRequest → Prop
  | .recordFulfillment _ listId _ _ gen =>
    listOf gen.fulfillmentId = listId ∧ listOf gen.reimbursementId = listId
  | .reverseFulfillment _ fulfillmentId newId _ => listOf newId = listOf fulfillmentId
  | .createClaim _ listId _ claimId => listOf claimId = listId
  | .addItems _ _ listId _ itemIds => ∀ id ∈ itemIds, listOf id = listId
  | .markDelivered .. => True
  | .addClaimItems .. => True
  | .removeClaimItem .. => True
  | .releaseClaim .. => True
  | .patchItem .. => True
  | .deleteItem .. => True
  | .setListTip .. => True
  | .patchListPayer .. => True
  | .settleReimbursement .. => True
  | .doReject .. => True
  | _ => False

section Assignment
variable {listOf : Uuid → Uuid}

private theorem assigned_putRecord {x : Record} {s : Shop} (fits : (Write.put x).assigned listOf)
    (good : Assigned listOf s) : Assigned listOf { s with toDb := putRecord x s.toDb } := by
  have put {α κ : Type} [DecidableEq κ] {key : α → κ} {P : α → Prop} {a : α} {t : List α}
      (new : P a) (old : ∀ b ∈ t, P b) : ∀ b ∈ replace key (key a) (some a) t, P b := by
    intro b hb
    rcases mem_replace.mp hb with ⟨hb, -⟩ | same
    · exact old b hb
    · exact Option.some.inj same ▸ new
  cases x with
  | item li =>
    exact { good with
      items := put fits good.items
      keyed := keyed_replace good.keyed (by simp) }
  | claim c => exact { good with claims := put fits good.claims }
  | claimItem ci => exact { good with claimItems := put fits good.claimItems }
  | fulfillment f => exact { good with fulfillments := put fits good.fulfillments }
  | _ => exact { good with }

private theorem assigned_dropRecord (x : Record) {s : Shop} (good : Assigned listOf s) :
    Assigned listOf { s with toDb := dropRecord x s.toDb } := by
  have drop {α κ : Type} [DecidableEq κ] {key : α → κ} {P : α → Prop} {k : κ} {t : List α}
      (old : ∀ b ∈ t, P b) : ∀ b ∈ replace key k none t, P b := by
    intro b hb
    rcases mem_replace.mp hb with ⟨hb, -⟩ | same
    · exact old b hb
    · cases same
  cases x with
  | item li =>
    exact { good with
      items := drop good.items
      keyed := keyed_replace good.keyed (by simp) }
  | claim c => exact { good with claims := drop good.claims }
  | claimItem ci => exact { good with claimItems := drop good.claimItems }
  | fulfillment f => exact { good with fulfillments := drop good.fulfillments }
  | _ => exact { good with }

private theorem assigned_redo {w : Write} {s : Shop} (fits : w.assigned listOf)
    (good : Assigned listOf s) :
    Assigned listOf (redo w s) := by
  cases w with
  | put x => exact assigned_putRecord fits good
  | drop x => exact assigned_dropRecord x good
  | putReimbursement before r =>
    refine { good with reimbursements := fun x hx => ?_ }
    rcases mem_replace.mp hx with ⟨hx, -⟩ | same
    · exact good.reimbursements x hx
    · exact Option.some.inj same ▸ fits
  | dropReimbursement r =>
    refine { good with reimbursements := fun x hx => ?_ }
    rcases mem_replace.mp hx with ⟨hx, -⟩ | same
    · exact good.reimbursements x hx
    · cases same
  | dropGroup groupId => exact fits.elim
  | _ => exact { good with }

end Assignment

/-- The list's row is the gate to the rows of the list. -/
def listLocks (listOf : Uuid → Uuid) : Gates engine where
  home := homeOf listOf
  gate := TradeRequest.gate listOf
  good := Assigned listOf
  fits := Write.assigned listOf
  good_redo := assigned_redo

section Rules
variable {listOf : Uuid → Uuid} {q : TradeRequest} {α : Type}

private theorem free_read (query : Shop → α) {A : α → Prop}
    (reads : ∀ s, Assigned listOf s → A (query s)) : (listLocks listOf).Free q (read query) A :=
  free_select fun s _ good h => Except.ok.inj h ▸ reads s good

private theorem within_read (query : Shop → α) {A : α → Prop}
    (reads : ∀ s, Assigned listOf s → A (query s)) : (listLocks listOf).Within q (read query) A :=
  within_select fun s _ good h => Except.ok.inj h ▸ reads s good

private theorem enters_lockList {listId : Uuid} (gate : q.gate listOf = .list listId) :
    (listLocks listOf).Enters q (lockList listId) fun _ => True := by
  have found {s : Shop} {l : ListRow} (h : s.list? listId = some l) :
      Row.list l.id = (listLocks listOf).gate q := by
    rw [(lookup_mem h).2]
    exact gate.symm
  have base : (listLocks listOf).home ((listLocks listOf).gate q) = (listLocks listOf).gate q := by
    show homeOf listOf (q.gate listOf) = q.gate listOf
    rw [gate]
    rfl
  refine Triple.bind (B := fun x c log locks => x = none ∨ (listLocks listOf).Past q c log locks)
    ?_ fun x => triple_check fun l hl c log locks good h => ?_
  · refine triple_statement stable_outside (fun c log locks good h => ?_) ?_
    · obtain ⟨rfl, empty⟩ := h
      refine ⟨.inr ⟨empty, fun r hr => ?_⟩, fun r hr => absurd hr (empty r), fun r hr => ?_⟩
      · obtain ⟨l, hl, rfl⟩ := Option.map_eq_some_iff.mp (Option.mem_toList.mp hr)
        exact found hl
      · obtain ⟨l, hl, rfl⟩ := Option.map_eq_some_iff.mp (Option.mem_toList.mp hr)
        exact (found hl).symm ▸ base
    · intro c₁ c₂ log locks held ws a h₁ h₂ m hact
      obtain ⟨rfl, empty⟩ := h₁
      obtain ⟨rfl, rfl⟩ := Prod.mk.inj (Option.some.inj hact)
      have taken (r : Row) (hr : r ∈ held) : r = (listLocks listOf).gate q := by
        rcases (m.held r).mp hr with hr | hr
        · exact absurd hr (empty r)
        · obtain ⟨l, hl, rfl⟩ := Option.map_eq_some_iff.mp (Option.mem_toList.mp hr)
          exact found hl
      cases hx : (((engine.view c₂ []).list? listId).filter _) with
      | none => exact .inl rfl
      | some l =>
        obtain ⟨-, planned⟩ := Option.filter_eq_some_iff.mp hx
        have mine : Row.list l.id ∈ held := (m.held _).mpr (.inr (of_decide_eq_true planned))
        exact .inr ⟨by simp, taken _ mine ▸ mine, fun r hr => (taken r hr).symm ▸ base⟩
  · obtain rfl := fetch_eq_ok.mp hl
    exact ⟨h.resolve_left (by simp), trivial⟩

private theorem within_lockOne {find : Shop → Option α} {row : α → Row} {A : α → Prop}
    (finds : ∀ s a, Assigned listOf s → find s = some a →
      homeOf listOf (row a) = q.gate listOf ∧ A a) :
    (listLocks listOf).Within q (lockOne find row) fun x => ∀ a ∈ x, A a := by
  refine within_statement (fun s good r hr => ?_) fun s₁ s₂ ws x _ good₂ hact => ?_
  · obtain ⟨a, ha, rfl⟩ := Option.map_eq_some_iff.mp (Option.mem_toList.mp hr)
    exact (finds s a good ha).1
  · obtain ⟨rfl, rfl⟩ := Prod.mk.inj (Option.some.inj hact)
    refine ⟨by simp, fun a ha => ?_⟩
    exact (finds s₂ a good₂ (Option.filter_eq_some_iff.mp ha).1).2

private theorem within_lockItem {listId itemId : Uuid} (gate : q.gate listOf = .list listId) :
    (listLocks listOf).Within q (lockItem listId itemId) fun _ => listOf itemId = listId := by
  refine triple_seq (within_lockOne (A := fun _ => listOf itemId = listId)
    fun s li good h => ?_) fun x known => within_check fun li hli => ?_
  · obtain ⟨found, onList⟩ := Option.filter_eq_some_iff.mp h
    obtain ⟨mem, rfl⟩ := lookup_mem found
    have onList : li.listId = listId := of_decide_eq_true onList
    have mine : listOf li.id = listId := (good.items li mem).symm.trans onList
    exact ⟨by rw [gate, ← mine]; rfl, mine⟩
  · obtain rfl := fetch_eq_ok.mp hli
    exact known li rfl

private theorem within_change {rows : Shop → List α} {row : α → Row} {p fits : Shop → α → Bool}
    {write : Shop → α → Write} {A : α → Prop}
    (behind : ∀ s x, Assigned listOf s → x ∈ rows s → p s x = true →
      homeOf listOf (row x) = q.gate listOf)
    (writes : ∀ s₁ s₂ x, Assigned listOf s₁ → Assigned listOf s₂ → x ∈ rows s₂ → p s₁ x = true →
      (write s₁ x).assigned listOf ∧ A x) :
    (listLocks listOf).Within q (change rows row p fits write) fun found => ∀ x ∈ found, A x := by
  refine within_statement (fun s good r hr => ?_) fun s₁ s₂ ws found good₁ good₂ hact => ?_
  · obtain ⟨x, hx, rfl⟩ := List.mem_map.mp hr
    exact behind s x good (List.mem_filter.mp hx).1 (List.mem_filter.mp hx).2
  · obtain ⟨rfl, rfl⟩ := change_eq_some hact
    have each : ∀ x ∈ (rows s₂).filter (fun x => p s₁ x && decide (row x ∈
        ((rows s₁).filter (p s₁)).map row)), (write s₁ x).assigned listOf ∧ A x := by
      intro x hx
      obtain ⟨hx, chosen⟩ := List.mem_filter.mp hx
      exact writes s₁ s₂ x good₁ good₂ hx (Bool.and_eq_true_iff.mp chosen).1
    refine ⟨fun w hw => ?_, fun x hx => (each x hx).2⟩
    obtain ⟨x, hx, rfl⟩ := List.mem_map.mp hw
    exact (each x hx).1

private theorem within_insert {keys : List Row} {free : Shop → Bool} {writes : List Write}
    (behind : ∀ r ∈ keys, homeOf listOf r = q.gate listOf)
    (fits : ∀ s, Assigned listOf s → free s = true → ∀ w ∈ writes, w.assigned listOf) :
    (listLocks listOf).Within q (insert keys free writes) fun _ => True := by
  refine within_statement (fun _ _ => behind) fun s₁ s₂ ws _ _ good₂ hact => ?_
  split at hact
  · rename_i hfree
    obtain ⟨rfl, -⟩ := Prod.mk.inj (Option.some.inj hact)
    exact ⟨fits s₂ good₂ hfree, trivial⟩
  · cases hact

private theorem within_updateItems {p : Shop → ListItem → Bool} {set : Shop → ListItem → ListItem}
    (ids : ∀ s li, (set s li).id = li.id ∧ (set s li).listId = li.listId)
    (behind : ∀ s li, Assigned listOf s → li ∈ s.listItems → p s li = true →
      Row.list li.listId = q.gate listOf) :
    (listLocks listOf).Within q (updateItems p set) fun _ => True := by
  refine Within.imp (within_change (A := fun _ => True) (fun s li good hli hp => ?_)
    fun s₁ s₂ li _ good₂ hli _ => ⟨?_, trivial⟩) fun _ _ => trivial
  · rw [← behind s li good hli hp, good.items li hli]
    rfl
  · show (set s₁ li).listId = listOf (set s₁ li).id
    rw [(ids s₁ li).1, (ids s₁ li).2, good₂.items li hli]

private theorem within_recomputeItemStatus {listId itemId : Uuid}
    (demotion : Api.ItemStatus.DeliveredDemotion) (gate : q.gate listOf = .list listId) (mine : listOf itemId = listId) :
    (listLocks listOf).Within q (recomputeItemStatus itemId demotion) fun _ => True := by
  refine triple_seq (within_select (A := fun _ => True) fun _ _ _ _ => trivial) fun current _ => ?_
  split
  · exact within_pure trivial
  · refine triple_seq (within_select (A := fun _ => True) fun _ _ _ _ => trivial) fun x _ => ?_
    refine triple_seq (within_updateItems (fun _ _ => ⟨rfl, rfl⟩) fun s li good hli hp => ?_)
      fun _ _ => within_pure trivial
    obtain rfl := of_decide_eq_true hp
    rw [good.items li hli, mine, gate]

private theorem within_recomputeItemStatusesBulk {listId : Uuid} {itemIds : List Uuid}
    (gate : q.gate listOf = .list listId) (mine : ∀ itemId ∈ itemIds, listOf itemId = listId) :
    (listLocks listOf).Within q (recomputeItemStatusesBulk itemIds) fun _ => True := by
  refine within_updateItems (fun _ _ => ⟨rfl, rfl⟩) fun s li good hli hp => ?_
  rw [good.items li hli, mine _ (of_decide_eq_true hp), gate]

private theorem within_updateClaimStatus {listId claimId : Uuid} (guard : Claim → Bool)
    (status : ClaimStatus) (gate : q.gate listOf = .list listId) (mine : listOf claimId = listId) :
    (listLocks listOf).Within q (updateClaimStatus claimId guard status) fun _ => True := by
  refine triple_seq (within_change (A := fun _ => True) (fun s c good hc hp => ?_)
    fun _ _ c _ good hc _ => ⟨good.claims c hc, trivial⟩) fun changed _ => ?_
  · obtain rfl := of_decide_eq_true (Bool.and_eq_true_iff.mp hp).1
    rw [gate, ← mine]
    rfl
  · refine within_forM (fun c => ?_) changed
    split
    · refine triple_seq (within_change (A := fun _ => True) (fun s ci good hci hp => ?_)
        fun _ _ ci _ good hci _ => ⟨good.claimItems ci hci, trivial⟩) fun _ _ => within_pure trivial
      obtain rfl := of_decide_eq_true hp
      rw [gate, ← mine]
      rfl
    · exact within_pure trivial

private theorem within_completeClaim {listId : Uuid} {active : Option Claim}
    (newStatus : ListItemStatus)
    (gate : q.gate listOf = .list listId) (mine : ∀ c ∈ active, listOf c.id = listId) :
    (listLocks listOf).Within q (completeClaim active newStatus) fun _ => True := by
  cases active with
  | none => exact within_pure trivial
  | some c =>
    unfold completeClaim
    simp only
    split
    · refine triple_seq (within_read _ (A := fun _ => True) fun _ _ => trivial) fun done _ => ?_
      split
      · exact within_updateClaimStatus _ _ gate (mine c rfl)
      · exact within_pure trivial
    · exact within_pure trivial

private theorem within_upsertReimbursement {listId newId : Uuid}
    (requesterUserId haulerUserId : Uuid)
    (gate : q.gate listOf = .list listId) (mine : listOf newId = listId) :
    (listLocks listOf).Within q (upsertReimbursement listId requesterUserId haulerUserId newId)
      fun _ => True := by
  have shape {s : Shop} {new : Reimbursement}
      (h : proposal s.toDb listId requesterUserId haulerUserId newId = some new) :
      new.listId = listId ∧ new.id = newId := by
    simp only [proposal, Option.bind_eq_bind, Option.bind_eq_some_iff, Option.some.injEq] at h
    obtain ⟨l, hl, rp, -, hp, -, rfl⟩ := h
    exact ⟨(lookup_mem hl).2, rfl⟩
  have conflict {s : Shop} {new r : Reimbursement} (good : Assigned listOf s)
      (h : taken s.toDb new = some r) : r.listId = new.listId ∧ listOf r.id = new.listId := by
    have chosen := List.find?_some h
    simp only [Bool.and_eq_true, decide_eq_true_eq] at chosen
    have same : r.listId = new.listId := congrArg (·.1) chosen.1
    exact ⟨same, (good.reimbursements r (List.mem_of_find?_eq_some h)).symm.trans same⟩
  refine within_statement (fun s good r hr => ?_) fun s₁ s₂ ws u good₁ good₂ hact => ⟨?_, trivial⟩
  · show homeOf listOf r = q.gate listOf
    cases hnew : proposal s.toDb listId requesterUserId haulerUserId newId with
    | none => simp [hnew] at hr
    | some new =>
      obtain ⟨onList, id⟩ := shape hnew
      simp only [hnew, upsertRows] at hr
      cases htaken : taken s.toDb new with
      | some x =>
        simp only [htaken, List.mem_singleton] at hr
        rw [hr, gate, ← onList, ← (conflict good htaken).2]
        rfl
      | none =>
        simp only [htaken, List.mem_cons, List.not_mem_nil, or_false] at hr
        rcases hr with rfl | rfl
        · rw [gate, ← onList]
          rfl
        · rw [gate, ← mine, ← id]
          rfl
  · intro w hw
    cases hnew : proposal s₁.toDb listId requesterUserId haulerUserId newId with
    | none =>
      simp only [hnew, Option.some.injEq, Prod.mk.injEq] at hact
      obtain ⟨rfl, -⟩ := hact
      simp at hw
    | some new =>
      obtain ⟨onList, id⟩ := shape hnew
      simp only [hnew, Option.ite_none_right_eq_some, Option.map_eq_some_iff, Prod.mk.injEq] at hact
      obtain ⟨-, ws', hrow, rfl, -⟩ := hact
      unfold upsertRow at hrow
      cases htaken : taken s₂.toDb new with
      | some x =>
        simp only [htaken, Option.ite_none_right_eq_some] at hrow
        obtain ⟨-, hrow⟩ := hrow
        split at hrow
        · obtain rfl := Option.some.inj hrow
          obtain rfl := List.mem_singleton.mp hw
          exact good₂.reimbursements x (List.mem_of_find?_eq_some htaken)
        · obtain rfl := Option.some.inj hrow
          simp at hw
      | none =>
        simp only [htaken, Option.ite_none_right_eq_some, Option.some.injEq] at hrow
        obtain ⟨-, rfl⟩ := hrow
        obtain rfl := List.mem_singleton.mp hw
        show new.listId = listOf new.id
        rw [onList, id, mine]

end Rules

section Requests
variable {listOf : Uuid → Uuid} {q : TradeRequest}

variable (listOf q) in
/-- The request takes its gate first and then stays behind it. -/
abbrev Orderly (p : Program Unit) : Prop :=
  Triple engine (listLocks listOf).terms q Outside p fun _ => (listLocks listOf).terms.post q

private theorem orderly_recordFulfillment {userId listId itemId : Uuid}
    {body : Api.Fulfillments.RecordFulfillmentBody} {gen : Api.Fulfillments.Generated}
    (gate : q.gate listOf = .list listId) (bought : listOf gen.fulfillmentId = listId)
    (billed : listOf gen.reimbursementId = listId) :
    Orderly listOf q (recordFulfillment userId listId itemId body gen) := by
  refine triple_seq (free_select (A := fun _ => True) fun _ _ _ _ => trivial) fun cur _ =>
    triple_checked fun _ _ => triple_checked fun _ _ => triple_seq (enters_lockList gate)
    fun _ _ => triple_seq (within_lockItem gate) fun li item => triple_checked fun _ _ => ?_
  refine triple_seq (within_read _ (A := fun _ => True) fun _ _ => trivial) fun status _ =>
    triple_checked fun _ _ => triple_seq (within_select (A := fun _ => True)
    fun _ _ _ _ => trivial) fun _ _ => triple_seq (within_read _
    (A := fun active => ∀ c ∈ active, listOf c.id = listId) fun s good c hc => ?_) fun active mine =>
    triple_checked fun _ _ => triple_seq (within_insert (fun r hr => ?_) fun s good _ w hw => ?_)
    fun _ _ => triple_seq (within_recomputeItemStatus _ gate item) fun newStatus _ =>
    triple_seq (within_completeClaim newStatus gate mine) fun _ _ =>
    (within_upsertReimbursement _ _ gate billed).ends
  · obtain ⟨ci, hci, onItem, claim⟩ := Tenancy.activeClaim_row hc
    obtain ⟨-, id⟩ := lookup_mem claim
    rw [id, good.claimItems ci hci, onItem, item]
  · obtain rfl := List.mem_singleton.mp hr
    rw [gate, ← bought]
    rfl
  · obtain rfl := List.mem_singleton.mp hw
    exact bought.trans item.symm

private theorem orderly_reverseFulfillment {userId fulfillmentId newId : Uuid} {now : Timestamp}
    (gate : q.gate listOf = .list (listOf fulfillmentId))
    (billed : listOf newId = listOf fulfillmentId) :
    Orderly listOf q (reverseFulfillment userId fulfillmentId newId now) := by
  refine triple_seq (free_select (A := fun found : Fulfillment × ListItem =>
    found.2.listId = listOf fulfillmentId) fun s found good h => ?_) fun found onList => ?_
  · simp only [fetch_eq_ok, purchaseOf, Option.bind_eq_bind, Option.bind_eq_some_iff,
      Option.some.injEq] at h
    obtain ⟨f, hf, li, hli, rfl⟩ := h
    obtain ⟨purchase, same⟩ := lookup_mem hf
    obtain ⟨item, onItem⟩ := lookup_mem hli
    rw [good.items li item, onItem, ← good.fulfillments f purchase, same]
  · rw [← onList] at gate
    refine triple_seq (enters_lockList gate) fun _ _ => triple_seq (within_select
      (A := fun _ => True) fun _ _ _ _ => trivial) fun again _ => triple_checked fun _ _ =>
      triple_checked fun _ _ => triple_seq (within_select (A := fun _ => True)
      fun _ _ _ _ => trivial) fun role _ => triple_checked fun _ _ => triple_seq (within_read _
      (A := fun _ => True) fun _ _ => trivial) fun status _ => triple_checked fun _ _ => ?_
    refine triple_seq (within_change (A := fun f => listOf f.listItemId = found.2.listId)
      (fun s f good hf hp => ?_) fun s₁ s₂ f _ good hf hp => ⟨?_, ?_⟩) fun changed rows =>
      triple_checked fun row hrow => triple_seq (within_recomputeItemStatus _ gate (rows row ?_))
      fun _ _ => (within_upsertReimbursement _ _ gate (billed.trans onList.symm)).ends
    · obtain same := of_decide_eq_true (Bool.and_eq_true_iff.mp hp).1
      rw [gate, onList, ← same]
      rfl
    · exact good.fulfillments f hf
    · obtain same := of_decide_eq_true (Bool.and_eq_true_iff.mp hp).1
      rw [← good.fulfillments f hf, same, onList]
    · exact List.mem_of_mem_head? (fetch_eq_ok.mp hrow)

private theorem orderly_markDelivered {userId listId itemId : Uuid} {lastHauler : Option Uuid}
    (gate : q.gate listOf = .list listId) :
    Orderly listOf q (markDelivered userId listId itemId lastHauler) := by
  refine triple_seq (free_select (A := fun _ => True) fun _ _ _ _ => trivial) fun cur _ =>
    triple_checked fun _ _ => triple_seq (enters_lockList gate) fun _ _ =>
    triple_seq (within_statement (A := fun _ => listOf itemId = listId) (fun s good r hr => ?_)
    fun s₁ s₂ ws a _ good hact => ?_) fun status item => triple_checked fun _ _ =>
    triple_checked fun _ _ => triple_seq (within_updateItems (fun _ _ => ⟨rfl, rfl⟩)
    fun s li good hli hp => ?_) fun _ _ => (within_pure (A := fun _ => True) trivial).ends
  · simp only [Option.mem_toList, Option.map_eq_some_iff, Option.filter_eq_some_iff,
      decide_eq_true_eq] at hr
    obtain ⟨li, ⟨found, onList⟩, rfl⟩ := hr
    have mine : listOf li.id = li.listId := (good.items li (lookup_mem found).1).symm
    show Row.list (listOf li.id) = q.gate listOf
    rw [gate, mine, onList]
  · simp only [Option.bind_eq_bind, Option.bind_eq_some_iff, Option.filter_eq_some_iff,
      Bool.and_eq_true, decide_eq_true_eq, Option.ite_none_right_eq_some, Option.some.injEq,
      Prod.mk.injEq] at hact
    obtain ⟨li, ⟨found, onList, -⟩, -, rfl, -⟩ := hact
    obtain ⟨mem, rfl⟩ := lookup_mem found
    exact ⟨by simp, (good.items li mem).symm.trans onList⟩
  · obtain rfl := of_decide_eq_true hp
    rw [good.items li hli, item, gate]

private theorem claimable {s : Shop} {listId : Uuid} {itemIds : List Uuid} {u : Unit}
    (h : Api.Claims.validateClaimableItems s.toDb listId itemIds = .ok u) :
    ∀ itemId ∈ itemIds, listOf itemId = listId := by
  rw [Api.Claims.validateClaimableItems_ok h]
  exact fun id hid => absurd hid List.not_mem_nil

private theorem within_insertClaimItems {listId claimId : Uuid} {itemIds : List Uuid}
    (gate : q.gate listOf = .list listId) (mine : listOf claimId = listId)
    (items : ∀ itemId ∈ itemIds, listOf itemId = listId) :
    (listLocks listOf).Within q (insertClaimItems claimId itemIds) fun _ => True := by
  refine triple_seq (within_insert (fun r hr => ?_) fun s good _ w hw => ?_) fun _ _ =>
    triple_seq (within_recomputeItemStatusesBulk gate items) fun _ _ => within_pure trivial
  · obtain ⟨itemId, hid, hr⟩ := List.mem_flatMap.mp hr
    simp only [List.mem_cons, List.not_mem_nil, or_false] at hr
    rcases hr with rfl | rfl
    · rw [gate, ← mine]
      rfl
    · rw [gate, ← items itemId hid]
      rfl
  · obtain ⟨itemId, hid, rfl⟩ := List.mem_map.mp hw
    exact mine.trans (items itemId hid).symm

private theorem orderly_createClaim {userId listId claimId : Uuid} {itemIds : List Uuid}
    (gate : q.gate listOf = .list listId) (mine : listOf claimId = listId) :
    Orderly listOf q (createClaim userId listId itemIds claimId) := by
  refine triple_seq (free_select (A := fun _ => True) fun _ _ _ _ => trivial) fun cur _ =>
    triple_checked fun _ _ => triple_checked fun _ _ => triple_seq (enters_lockList gate)
    fun _ _ => triple_seq (within_select (A := fun _ => ∀ itemId ∈ itemIds,
    listOf itemId = listId) fun s u _ h => claimable h) fun _ items =>
    triple_seq (within_insert (fun r hr => ?_) fun s good _ w hw => ?_) fun _ _ =>
    (within_insertClaimItems gate mine items).ends
  · obtain rfl := List.mem_singleton.mp hr
    rw [gate, ← mine]
    rfl
  · obtain rfl := List.mem_singleton.mp hw
    exact mine.symm

private theorem free_openClaim (userId claimId : Uuid) :
    (listLocks listOf).Free q (openClaim userId claimId) fun cur => cur.listId = listOf claimId := by
  refine triple_seq (free_select (A := fun cur : Api.Extract.CurrentClaim =>
    cur.listId = listOf claimId) fun s cur good h => ?_) fun cur mine => triple_checked fun _ _ =>
    triple_checked fun _ _ => triple_pure fun _ _ _ _ hF => ⟨hF, mine⟩
  obtain ⟨c, l, role, hc, -, -, rfl⟩ := Api.Extract.currentClaim_ok h
  obtain ⟨mem, rfl⟩ := lookup_mem hc
  exact good.claims c mem

private theorem orderly_addClaimItems {userId claimId : Uuid} {itemIds : List Uuid}
    (gate : q.gate listOf = .list (listOf claimId)) :
    Orderly listOf q (addClaimItems userId claimId itemIds) := by
  refine triple_seq (free_openClaim userId claimId) fun cur mine => triple_checked fun _ _ => ?_
  rw [← mine] at gate
  exact triple_seq (enters_lockList gate) fun _ _ => triple_seq (within_select
    (A := fun _ => ∀ itemId ∈ itemIds, listOf itemId = cur.listId) fun s u good h =>
    claimable h) fun _ items => (within_insertClaimItems gate mine.symm items).ends

private theorem within_deleteClaimItems {p : ClaimItem → Bool} {A : ClaimItem → Prop}
    (behind : ∀ s ci, Assigned listOf s → ci ∈ s.claimItems → p ci = true →
      Row.list (listOf ci.claimId) = q.gate listOf ∧ A ci) :
    (listLocks listOf).Within q (deleteClaimItems p) fun gone => ∀ ci ∈ gone, A ci :=
  within_change (fun s ci good hci hp => (behind s ci good hci hp).1)
    fun _ s ci _ good hci hp => ⟨trivial, (behind s ci good hci hp).2⟩

private theorem orderly_removeClaimItem {userId claimId itemId : Uuid}
    (gate : q.gate listOf = .list (listOf claimId)) :
    Orderly listOf q (removeClaimItem userId claimId itemId) := by
  refine triple_seq (free_openClaim userId claimId) fun cur mine => ?_
  rw [← mine] at gate
  refine triple_seq (enters_lockList gate) fun _ _ => triple_seq (within_deleteClaimItems
    (A := fun _ => listOf itemId = cur.listId) fun s ci good hci hp => ?_) fun gone item =>
    triple_checked fun _ nonempty => ?_
  · simp only [Bool.and_eq_true, decide_eq_true_eq] at hp
    obtain ⟨rfl, rfl⟩ := hp
    exact ⟨by rw [gate, mine], (good.claimItems ci hci).symm.trans mine.symm⟩
  · obtain ⟨ci, hci⟩ := List.exists_mem_of_ne_nil gone (require_eq_ok.mp nonempty)
    exact triple_seq (within_recomputeItemStatus _ gate (item ci hci)) fun _ _ =>
      (within_pure (A := fun _ => True) trivial).ends

private theorem orderly_releaseClaim {userId claimId : Uuid}
    (gate : q.gate listOf = .list (listOf claimId)) :
    Orderly listOf q (releaseClaim userId claimId) := by
  refine triple_seq (free_openClaim userId claimId) fun cur mine => ?_
  rw [← mine] at gate
  refine triple_seq (enters_lockList gate) fun _ _ => triple_seq (within_read _
    (A := fun itemIds => ∀ itemId ∈ itemIds, listOf itemId = cur.listId)
    fun s good itemId hid => ?_) fun itemIds items =>
    triple_seq (within_updateClaimStatus _ _ gate mine.symm) fun _ _ =>
    triple_seq (within_recomputeItemStatusesBulk gate items) fun _ _ =>
    (within_pure (A := fun _ => True) trivial).ends
  obtain ⟨ci, hci, rfl⟩ := List.mem_map.mp hid
  obtain ⟨mem, same⟩ := List.mem_filter.mp hci
  rw [← good.claimItems ci mem, of_decide_eq_true same, mine]

private theorem orderly_addItems {limits : Api.Lists.Limits} {userId listId : Uuid}
    {lines : List Api.Lists.NewLine} {itemIds : List Uuid}
    (gate : q.gate listOf = .list listId) (mine : ∀ id ∈ itemIds, listOf id = listId) :
    Orderly listOf q (addItems limits userId listId lines itemIds) := by
  refine triple_seq (free_select (A := fun _ => True) fun _ _ _ _ => trivial) fun cur _ =>
    triple_checked fun _ _ => triple_checked fun _ _ => triple_seq (enters_lockList gate)
    fun _ _ => triple_seq (within_read _ (A := fun _ => True) fun _ _ => trivial) fun count _ =>
    triple_checked fun _ _ => (within_insert (fun r hr => ?_) fun s good _ w hw => ?_).ends
  · obtain ⟨id, hid, rfl⟩ := List.mem_map.mp hr
    rw [gate, ← mine id hid]
    rfl
  · obtain ⟨li, hli, rfl⟩ := List.mem_map.mp hw
    obtain ⟨id, hid, n, -, rfl⟩ := Api.Lists.mem_newItems hli
    exact (mine id hid).symm

private theorem enters_lockEditable {listId itemId : Uuid} (action : String)
    (gate : q.gate listOf = .list listId) :
    (listLocks listOf).Enters q (lockEditable listId itemId action)
      fun _ => listOf itemId = listId :=
  triple_seq (enters_lockList gate) fun _ _ => triple_seq (within_lockItem gate)
    fun _ item => within_check fun _ _ => item

private theorem within_assign {listId itemId : Uuid} (body : Api.Lists.PatchItemBody)
    (gate : q.gate listOf = .list listId) :
    (listLocks listOf).Within q (updateItems (fun _ => Api.Lists.onItem listId itemId)
      fun _ => body.assign) fun _ => True := by
  refine within_updateItems (fun _ _ => ⟨rfl, rfl⟩) fun s li _ _ hp => ?_
  simp only [Api.Lists.onItem, Bool.and_eq_true, decide_eq_true_eq] at hp
  rw [hp.2, gate]

private theorem orderly_patchItem {userId listId itemId : Uuid} {body : Api.Lists.PatchItemBody}
    (gate : q.gate listOf = .list listId) :
    Orderly listOf q (patchItem userId listId itemId body) := by
  have last {b : Prop} [Decidable b] : (listLocks listOf).Within q (if b then do
      let _ ← updateItems (fun _ => Api.Lists.onItem listId itemId) fun _ =>
        Api.Lists.PatchItemBody.assign { body with qtyRequested := none }
      pure ()
    else pure ()) fun _ => True := by
    split
    · exact triple_seq (within_assign _ gate) fun _ _ => within_pure trivial
    · exact within_pure trivial
  refine triple_seq (free_select (A := fun _ => True) fun _ _ _ _ => trivial) fun cur _ =>
    triple_checked fun _ _ => triple_checked fun _ _ => triple_checked fun _ _ =>
    triple_seq (enters_lockEditable "edit" gate) fun _ _ => ?_
  simp only
  split
  · exact triple_seq (within_assign _ gate) fun _ _ =>
      triple_seq (within_pure (A := fun _ => True) trivial) fun _ _ => last.ends
  · exact triple_seq (within_pure (A := fun _ => True) trivial) fun _ _ => last.ends

private theorem orderly_deleteItem {userId listId itemId : Uuid}
    (gate : q.gate listOf = .list listId) :
    Orderly listOf q (deleteItem userId listId itemId) := by
  refine triple_seq (free_select (A := fun _ => True) fun _ _ _ _ => trivial) fun cur _ =>
    triple_checked fun _ _ => triple_seq (enters_lockEditable "delete" gate) fun _ item =>
    triple_seq (within_change (A := fun _ => True) (fun s li good hli hp => ?_)
    fun _ _ _ _ _ _ _ => ⟨trivial, trivial⟩) fun _ _ => triple_checked fun _ _ =>
    triple_seq (within_deleteClaimItems (A := fun _ => True) fun s ci good hci hp => ?_)
    fun _ _ => triple_seq (within_change (A := fun _ => True) (fun s f good hf hp => ?_)
    fun _ _ _ _ _ _ _ => ⟨trivial, trivial⟩) fun _ _ =>
    (within_pure (A := fun _ => True) trivial).ends
  · simp only [Api.Lists.onItem, Bool.and_eq_true, decide_eq_true_eq] at hp
    rw [gate, ← item, ← hp.1]
    rfl
  · obtain same := of_decide_eq_true hp
    exact ⟨by rw [good.claimItems ci hci, same, item, gate], trivial⟩
  · obtain same := of_decide_eq_true hp
    rw [gate, ← item, ← same, ← good.fulfillments f hf]
    rfl

private theorem within_updateReimbursements {p fits : Reimbursement → Bool}
    {set : Reimbursement → Reimbursement}
    (ids : ∀ r, (set r).id = r.id ∧ (set r).listId = r.listId)
    (behind : ∀ r, p r = true → r.listId = listOf r.id → Row.list r.listId = q.gate listOf) :
    (listLocks listOf).Within q (updateReimbursements p fits set) fun _ => True := by
  refine Within.imp (within_change (A := fun _ => True) (fun s r good hr hp => ?_)
    fun s₁ s₂ r _ good hr _ => ⟨?_, trivial⟩) fun _ _ => trivial
  · rw [← behind r hp (good.reimbursements r hr), good.reimbursements r hr]
    rfl
  · show (set r).listId = listOf (set r).id
    rw [(ids r).1, (ids r).2, good.reimbursements r hr]

private theorem within_updateLists {listId : Uuid} {p : Shop → ListRow → Bool}
    {set : ListRow → ListRow}
    (gate : q.gate listOf = .list listId) (one : ∀ s l, p s l = true → l.id = listId) :
    (listLocks listOf).Within q (updateLists p set) fun _ => True := by
  refine Within.imp (within_change (A := fun _ => True) (fun s l _ _ hp => ?_)
    fun _ _ _ _ _ _ _ => ⟨trivial, trivial⟩) fun _ _ => trivial
  rw [gate, ← one s l hp]
  rfl

private theorem orderly_setListTip {userId listId : Uuid} {tipPct : ℚ}
    (gate : q.gate listOf = .list listId) : Orderly listOf q (setListTip userId listId tipPct) := by
  refine triple_seq (free_select (A := fun _ => True) fun _ _ _ _ => trivial) fun cur _ =>
    triple_checked fun _ _ => triple_checked fun _ _ => triple_checked fun _ _ =>
    triple_seq (enters_lockList gate) fun _ _ => ?_
  have retips : (listLocks listOf).Within q (do
      let _ ← updateLists (fun _ l => decide (l.id = listId))
        fun l => { l with tipPct := Api.Lists.storedTip tipPct }
      let _ ← updateReimbursements (Api.Lists.pendingOnList listId)
        (fun r => decide (Base.Numeric.Fits 24 (Api.Lists.retip tipPct r).tipIsk ∧
          Base.Numeric.Fits 24 (Api.Lists.retip tipPct r).totalIsk)) (Api.Lists.retip tipPct)
      pure ()) fun _ => True := by
    refine triple_seq (within_updateLists gate fun _ l hp => of_decide_eq_true hp) fun _ _ =>
      triple_seq (within_updateReimbursements (fun _ => ⟨rfl, rfl⟩) fun r hp _ => ?_) fun _ _ =>
      within_pure trivial
    simp only [Api.Lists.pendingOnList, Bool.and_eq_true, decide_eq_true_eq] at hp
    rw [gate, hp.1]
  simp only
  split
  · exact triple_seq (within_select (A := fun _ => True) fun _ _ _ _ => trivial)
      fun _ _ => retips.ends
  · exact retips.ends

private theorem orderly_patchListPayer {userId listId : Uuid} {body : Api.Lists.PatchListPayerBody}
    (gate : q.gate listOf = .list listId) :
    Orderly listOf q (patchListPayer userId listId body) := by
  have base : (listLocks listOf).home ((listLocks listOf).gate q) = (listLocks listOf).gate q := by
    show homeOf listOf (q.gate listOf) = q.gate listOf
    rw [gate]
    rfl
  refine triple_checked fun payer _ => triple_seq (free_select (A := fun _ => True)
    fun _ _ _ _ => trivial) fun groupId _ => triple_seq (free_select (A := fun _ => True)
    fun _ _ _ _ => trivial) fun _ _ => triple_seq (free_select (A := fun _ => True)
    fun _ _ _ _ => trivial) fun _ _ => Triple.bind (ends_statement base (fun s _ r hr => ?_)
    fun s₁ s₂ ws found _ _ hact w hw => ?_) fun _ => triple_pure fun _ _ _ _ h => h
  · obtain ⟨l, hl, rfl⟩ := List.mem_map.mp hr
    show Row.list l.id = q.gate listOf
    rw [gate, of_decide_eq_true (List.mem_filter.mp hl).2]
  · obtain ⟨rfl, -⟩ := change_eq_some hact
    obtain ⟨l, -, rfl⟩ := List.mem_map.mp hw
    trivial

private theorem within_lockReimbursement {rid listId : Uuid} (gate : q.gate listOf = .list listId)
    (mine : listOf rid = listId) :
    (listLocks listOf).Within q (lockReimbursement rid)
      fun x => ∀ r ∈ x, r.id = rid ∧ r.listId = listId := by
  refine within_lockOne fun s r good h => ?_
  obtain ⟨mem, rfl⟩ := lookup_mem h
  exact ⟨by rw [gate, ← mine]; rfl, rfl, (good.reimbursements r mem).trans mine⟩

private theorem within_settleRow {r : Reimbursement} {settledByUserId : Uuid} {now : Timestamp}
    {mine : ListItem → Bool} {rival : Reimbursement → Bool}
    (gate : q.gate listOf = .list r.listId) (home : listOf r.id = r.listId) :
    (listLocks listOf).Within q (settleRow r settledByUserId now mine rival) fun _ => True := by
  have flips : (listLocks listOf).Within q (flipHaulerItems r.listId r.haulerUserId mine rival)
      fun _ => True := by
    unfold flipHaulerItems flipItems
    refine Within.imp (within_change (A := fun _ => True) (fun s li good hli hp => ?_)
      fun _ _ li _ good hli _ => ⟨?_, trivial⟩) fun _ _ => trivial
    · simp only [Bool.and_eq_true, decide_eq_true_eq] at hp
      rw [gate, ← hp.1.1.1.1, good.items li hli]
      rfl
    · exact good.items li hli
  refine triple_seq (within_read _ (A := fun _ => True) fun _ _ => trivial) fun owed _ =>
    triple_checked fun _ _ => triple_seq (within_updateReimbursements (fun _ => ⟨rfl, rfl⟩)
    fun x hp onList => ?_) fun _ _ => triple_seq flips fun _ _ =>
    triple_seq (within_updateLists gate fun s l hp => ?_) fun _ _ => within_pure trivial
  · rw [gate, onList, of_decide_eq_true hp, home]
  · simp only [Bool.and_eq_true, decide_eq_true_eq] at hp
    exact hp.1.1

private theorem orderly_settleReimbursement {userId reimbId : Uuid} {now : Timestamp}
    (gate : q.gate listOf = .list (listOf reimbId)) :
    Orderly listOf q (settleReimbursement userId reimbId now) := by
  refine triple_seq (free_read _ (A := fun pre => ∀ r ∈ pre, r.listId = listOf reimbId)
    fun s good r hr => ?_) fun pre onList => triple_checked fun r hr => ?_
  · obtain ⟨mem, rfl⟩ := lookup_mem hr
    exact good.reimbursements r mem
  · have home : listOf reimbId = r.listId := (onList r (fetch_eq_ok.mp hr)).symm
    rw [home] at gate
    have manual : (listLocks listOf).Within q (settleManual reimbId userId now) fun _ => True := by
      refine triple_seq (within_lockReimbursement gate home) fun locked found =>
        triple_checked fun x hx => triple_checked fun _ _ => ?_
      obtain ⟨id, list⟩ := found x (fetch_eq_ok.mp hx)
      have gate : q.gate listOf = .list x.listId := gate.trans (list ▸ rfl)
      have home : listOf x.id = x.listId := by rw [id, list, home]
      split
      · exact within_settleRow gate home
      · exact triple_checked fun _ _ => within_settleRow gate home
    exact triple_seq (enters_lockList gate) fun _ _ =>
      triple_seq (within_lockReimbursement gate home) fun locked _ => triple_checked fun x _ =>
      triple_checked fun _ _ => triple_checked fun _ _ => triple_seq (within_select
      (A := fun _ => True) fun _ _ _ _ => trivial) fun role _ => triple_checked fun _ _ =>
      triple_seq manual fun _ _ => triple_seq (within_select (A := fun _ => True)
      fun _ _ _ _ => trivial) fun groupId _ => triple_seq (within_select (A := fun _ => True)
      fun _ _ _ _ => trivial) fun totalIsk _ => (within_statement (A := fun _ => True) (by simp)
      fun _ _ ws _ _ _ hact => by
        obtain ⟨rfl, -⟩ := Prod.mk.inj (Option.some.inj hact)
        simp [listLocks, Write.assigned]).ends

private theorem orderly_doReject {userId suggestionId : Uuid}
    (gate : q.gate listOf = .suggestion suggestionId) :
    Orderly listOf q (doReject userId suggestionId) := by
  have base : (listLocks listOf).home ((listLocks listOf).gate q) = (listLocks listOf).gate q := by
    show homeOf listOf (q.gate listOf) = q.gate listOf
    rw [gate]
    rfl
  refine triple_seq (enters_statement (A := fun _ => True) base (fun s _ r hr => ?_)
    fun s₁ s₂ ws a _ _ hact => ?_) fun x _ => triple_checked fun _ _ => triple_checked fun _ _ =>
    triple_seq (within_select (A := fun _ => True) fun _ _ _ _ => trivial) fun _ _ =>
    triple_seq (within_change (A := fun _ => True) (fun s g _ _ hp => ?_)
    fun _ _ _ _ _ _ _ => ⟨trivial, trivial⟩) fun _ _ =>
    (within_pure (A := fun _ => True) trivial).ends
  · simp only [Option.mem_toList, Option.map_eq_some_iff, suggested, Option.bind_eq_bind,
      Option.bind_eq_some_iff, Option.some.injEq] at hr
    obtain ⟨_, ⟨g, hg, _, -, rfl⟩, rfl⟩ := hr
    show Row.suggestion g.id = q.gate listOf
    rw [gate, (lookup_mem hg).2]
  · simp only [Option.bind_eq_bind, Option.bind_eq_some_iff, Option.ite_none_right_eq_some,
      Option.some.injEq, Prod.mk.injEq] at hact
    obtain ⟨g, hg, _, -, planned, rfl, -⟩ := hact
    obtain ⟨-, rfl⟩ := lookup_mem hg
    exact ⟨(show (listLocks listOf).gate q = _ from gate) ▸ planned, by simp, trivial⟩
  · rw [gate, ← of_decide_eq_true hp]
    rfl

private theorem orderly_program (h : q.ListFirst listOf) : Orderly listOf q (program q) := by
  cases q with
  | recordFulfillment userId listId itemId body gen => exact orderly_recordFulfillment rfl h.1 h.2
  | reverseFulfillment userId fulfillmentId newId now => exact orderly_reverseFulfillment rfl h
  | markDelivered userId listId itemId lastHauler => exact orderly_markDelivered rfl
  | createClaim userId listId itemIds claimId => exact orderly_createClaim rfl h
  | addClaimItems userId claimId itemIds => exact orderly_addClaimItems rfl
  | removeClaimItem userId claimId itemId => exact orderly_removeClaimItem rfl
  | releaseClaim userId claimId => exact orderly_releaseClaim rfl
  | addItems limits userId listId lines itemIds => exact orderly_addItems rfl h
  | patchItem userId listId itemId body => exact orderly_patchItem rfl
  | deleteItem userId listId itemId => exact orderly_deleteItem rfl
  | setListTip userId listId tipPct => exact orderly_setListTip rfl
  | patchListPayer userId listId body => exact orderly_patchListPayer rfl
  | settleReimbursement userId reimbursementId now => exact orderly_settleReimbursement rfl
  | doReject userId suggestionId => exact orderly_doReject rfl
  | _ => exact h.elim

end Requests

/-- In no run of interleaved purchases, reversals, deliveries, claims, item edits, tips, changes of
payers, manual settlements and rejections does any set of transactions wait for one another. -/
theorem list_first_never_deadlocks {listOf : Uuid → Uuid} {s : Shop} (good : Assigned listOf s)
    {as : List (Action Row TradeRequest)} (known : ∀ id q, .begin id q ∈ as → q.ListFirst listOf) :
    ¬ Deadlocked (run (step engine) ⟨s, []⟩ as) :=
  not_deadlocked_run (G := listLocks listOf) (fun _ h => orderly_program h) good known

/-- A list with one delivered item, owed for by a finished contract. -/
def deliveredDeal : Shop where
  directory := fairGroup
  lists := [fairList]
  listItems := [⟨1, 1, 34, "Tritanium", 2, 2, 1, .delivered, 1⟩]
  fulfillments := [⟨1, 1, none, 3, none, 2, 250, none, some "Jita", 0, none⟩]
  contracts := [⟨1, 900, some 3, some 3, some 1, some 1, .itemExchange, .finished, 500, some 500,
    none, some 5, none, none⟩]
  reimbursements := [fairDue 1 .pending (some 1)]

/-- The second buyer waits for the list that the first one has locked. -/
def twoBuyers : List (Action Row TradeRequest) :=
  List.flatten [[.begin 1 (buying 2 2), .begin 2 (buying 3 3)], Action.turn 1 [],
    Action.turn 1 [.list 1], Action.turn 2 [], [.start 2]]

theorem list_first_never_deadlocks_two_buyers :
    (run (step engine) ⟨openShop, []⟩ twoBuyers).free 2 (.list 1) = false ∧
      ¬ Deadlocked (run (step engine) ⟨openShop, []⟩ twoBuyers) := by
  have good : Assigned (fun _ => 1) openShop := by
    refine ⟨by decide, by decide, by decide, by decide, by decide, by decide⟩
  have known : ∀ id q, .begin id q ∈ twoBuyers → q.ListFirst fun _ => 1 := by
    intro id q h
    simp only [twoBuyers, Action.turn, List.flatten_cons, List.flatten_nil, List.map_nil,
      List.map_cons, List.nil_append, List.cons_append, List.append_nil, List.mem_cons,
      Action.begin.injEq, reduceCtorEq, List.not_mem_nil, or_false] at h
    rcases h with ⟨-, rfl⟩ | ⟨-, rfl⟩ <;> exact ⟨rfl, rfl⟩
  exact ⟨by decide +kernel, list_first_never_deadlocks good known⟩

/-- A worker settles the contract and comes to closing the list, which a buyer has locked on the
way to the item that the worker has flipped. -/
def buyerMeetsWorker : List (Action Row TradeRequest) :=
  List.flatten [[.begin 1 (.handleContractTerminal ⟨1, .finished, true⟩ 9), .begin 2 (buying 2 2)],
    Action.turn 1 [.contract 1], Action.turn 1 [.reimbursement 1], Action.turn 1 [.item 1],
    Action.turn 1 [.contract 1], Action.turn 1 [], Action.turn 2 [], Action.turn 2 [.list 1],
    [.start 1, .start 2]]

/-- `settle_via_contract` does not lock the list first, and does deadlock with a purchase. -/
private theorem settle_via_contract_deadlocks :
    Deadlocked (run (step engine) ⟨deliveredDeal, []⟩ buyerMeetsWorker) :=
  deadlocked_of_stuck (by decide +kernel) (by decide +kernel)

end JitaCart.Concurrent.Trade
