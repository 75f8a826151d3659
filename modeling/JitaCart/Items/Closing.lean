/- module: JitaCart/Items/Closing
   source: backend/crates/settlement/src/lib.rs (auto_close_list_if_complete, settle_via_contract,
     settle_manual), backend/crates/api/src/lists/items.rs, backend/crates/api/src/lists/crud.rs
   digest: When the status of a list agrees with the settlement of its items. -/

import JitaCart.Api.Deletion
import JitaCart.Items.Edits

/-!
Both settle functions look again whether a list is complete. Deleting an item can complete a list
too, namely when it was the last one that was not settled, and nothing looks then.
-/

set_option autoImplicit false
set_option relaxedAutoImplicit false

namespace JitaCart.Items.Closing

open Schema Base.Table Base.Request Directory Settlement Operations Books
open Api.Extract Api.ItemStatus Api.Claims Api.Fulfillments Api.Reimbursements Api.Lists
open Api.Contracts Api.Deletion Worker.Match Worker.Terminal

def setsStatus : Op → Bool
  | .patchListStatus .. => true
  | _ => false

/-- Requests and worker steps that set no list status, item edits and deletions. -/
inductive Event
  | request (o : Op) (unset : setsStatus o = false)
  | edit (e : ItemEdit)
  | deleteList (userId listId : Uuid)
  | deleteGroup (userId groupId : Uuid)

def deleteListRequest (s : Db) (userId listId : Uuid) : Except ApiError Db := do
  let cur ← currentList s userId listId
  let (_, s') ← deleteList s cur
  return s'

def deleteGroupRequest (s : Db) (userId groupId : Uuid) : Except ApiError Db := do
  let role ← currentGroup s userId groupId
  let (_, s') ← deleteGroup s role groupId
  return s'

def applyEvent : Event → Db → Except Refusal Db
  | .request o _, s => apply o s
  | .edit e, s => (applyEdit e s).mapError .api
  | .deleteList userId listId, s => (deleteListRequest s userId listId).mapError .api
  | .deleteGroup userId groupId, s => (deleteGroupRequest s userId groupId).mapError .api

def Complete (s : Db) (listId : Uuid) : Prop :=
  ∀ li ∈ s.listItems, li.listId = listId → li.status = .settled

instance (s : Db) (listId : Uuid) : Decidable (Complete s listId) :=
  inferInstanceAs (Decidable (∀ li ∈ s.listItems, li.listId = listId → li.status = .settled))

/-- A list with items is closed if all of them are settled, and open otherwise. -/
def ClosingAgrees (s : Db) : Prop :=
  ∀ l ∈ s.lists, (∃ li ∈ s.listItems, li.listId = l.id) →
    (l.status = .closed ↔ Complete s l.id) ∧ (l.status = .closed ∨ l.status = .open)

instance (s : Db) : Decidable (ClosingAgrees s) := by
  unfold ClosingAgrees
  infer_instance

/-- `delete_item` finds an open item on a list that the caller may change. -/
def Deletable (s : Db) (userId listId itemId : Uuid) : Prop :=
  (∃ l ∈ s.list? listId, l.status ≠ .archived ∧ s.directory.roleOf userId l.groupId ≠ none) ∧
    ∃ li ∈ s.item? itemId, li.listId = listId ∧ li.status = .open

instance (s : Db) (userId listId itemId : Uuid) : Decidable (Deletable s userId listId itemId) := by
  unfold Deletable
  infer_instance

/-- Without the item the list is empty or still has an item that is not settled. -/
def LeavesWork (s : Db) (listId itemId : Uuid) : Prop :=
  (∀ li ∈ s.listItems, li.listId = listId → li.id = itemId) ∨
    ∃ li ∈ s.listItems, li.listId = listId ∧ li.id ≠ itemId ∧ li.status ≠ .settled

instance (s : Db) (listId itemId : Uuid) : Decidable (LeavesWork s listId itemId) := by
  unfold LeavesWork
  infer_instance

def LeavesOpen (s : Db) : Event → Prop
  | .edit (.deleteItem userId listId itemId) =>
    Deletable s userId listId itemId → LeavesWork s listId itemId
  | _ => True

/-- Rows have distinct ids, and every item is on a list. -/
structure Placed (s : Db) : Prop where
  lists : Keyed ListRow.id s.lists
  items : Keyed ListItem.id s.listItems
  listed : ∀ li ∈ s.listItems, ∃ l ∈ s.lists, l.id = li.listId

def head (l : ListRow) : Uuid × ListStatus := (l.id, l.status)

def mark (li : ListItem) : Uuid × Uuid × Bool := (li.id, li.listId, decide (li.status = .settled))

/-- The lists that are complete among the given ones are closed in one update. -/
private theorem autoCloseAll_eq (ids : List Uuid) (s : Db) :
    (ids.foldl autoCloseListIfComplete s).lists =
      updateWhere (fun l => decide (l.id ∈ ids ∧ l.status = .open ∧ Complete s l.id))
        (fun l => { l with status := .closed }) s.lists := by
  induction ids generalizing s with
  | nil => exact (updateWhere_eq_self fun _ _ => by simp).symm
  | cons id ids ih =>
    obtain ⟨lists, shape⟩ := autoClose_shape s id
    have items : (autoCloseListIfComplete s id).listItems = s.listItems := by rw [shape]
    rw [List.foldl_cons, ih]
    have first : (autoCloseListIfComplete s id).lists =
        updateWhere (fun l => decide (l.id = id ∧ l.status = .open ∧ Complete s id))
          (fun l => { l with status := .closed }) s.lists := by
      unfold autoCloseListIfComplete
      split
      · rename_i complete
        have complete : Complete s id := complete
        simp [complete]
      · rename_i short
        have short : ¬ Complete s id := short
        refine (updateWhere_eq_self fun _ _ => ?_).symm
        simp [short]
    rw [first]
    unfold updateWhere
    rw [List.map_map]
    apply List.map_congr_left
    intro l _
    have same : Complete (autoCloseListIfComplete s id) l.id ↔ Complete s l.id := by
      unfold Complete
      rw [items]
    simp only [Function.comp_apply, List.mem_cons]
    by_cases hid : l.id = id ∧ l.status = .open ∧ Complete s id
    · obtain ⟨rfl, opened, complete⟩ := hid
      simp [opened, complete]
    · rw [if_neg fun h => hid (of_decide_eq_true h)]
      by_cases hl : l.id = id
      · subst hl
        by_cases opened : l.status = .open
        · have short : ¬ Complete s l.id := fun hc => hid ⟨rfl, opened, hc⟩
          simp [same, short]
        · simp [opened]
      · simp [hl, same]

/-- What a settle does to lists and items: items on the given lists become settled, and the lists
that are complete then are closed. -/
structure SettledOn (s : Db) (ids : List Uuid) (s' : Db) : Prop where
  items : ∃ p : ListItem → Bool, (∀ li, p li = true → li.listId ∈ ids) ∧
    s'.listItems = updateWhere p (fun li => { li with status := .settled }) s.listItems
  lists : s'.lists =
    updateWhere (fun l => decide (l.id ∈ ids ∧ l.status = .open ∧ Complete s' l.id))
      (fun l => { l with status := .closed }) s.lists

/-- Lists and items after an accepted event other than the deletion of an item. -/
inductive Move (s : Db) : Db → Prop
  | kept {s' : Db} (heads : s'.lists.map head = s.lists.map head)
      (marks : s'.listItems.map mark = s.listItems.map mark) : Move s s'
  | created {s' : Db} {l : ListRow} {userId : Uuid} {lines : List NewLine} {ids : List Uuid}
      (fresh : s.list? l.id = none) (opened : l.status = .open)
      (h : insertItems { s with lists := s.lists ++ [l] } l.id userId lines ids = .ok s') : Move s s'
  | added {s' : Db} {l : ListRow} {listId userId : Uuid} {lines : List NewLine} {ids : List Uuid}
      (hl : s.list? listId = some l) (opened : l.status = .open)
      (h : insertItems s listId userId lines ids = .ok s') : Move s s'
  | settled {s' : Db} {ids : List Uuid} (h : SettledOn s ids s') : Move s s'
  | dropped {s' : Db} {gone : List Uuid}
      (lists : s'.lists = s.lists.filter fun l => decide (l.id ∉ gone))
      (items : s'.listItems = s.listItems.filter fun li => decide (li.listId ∉ gone)) : Move s s'

private theorem Move.same {s s' : Db} (lists : s'.lists = s.lists)
    (items : s'.listItems = s.listItems) :
    Move s s' :=
  .kept (by rw [lists]) (by rw [items])

section Recompute
variable {m : Db}

private theorem mark_recomputedRow (li : ListItem) : mark (recomputedRow m li) = mark li := by
  have settled : (recomputedRow m li).status = .settled ↔ li.status = .settled := by
    refine ⟨settled_recomputedRow, fun h => ?_⟩
    simp [recomputedRow, h]
  unfold mark
  rw [decide_eq_decide.mpr settled]
  rfl

private theorem marks_recomputed (p : ListItem → Bool) :
    (updateWhere p (recomputedRow m) m.listItems).map mark = m.listItems.map mark :=
  map_updateWhere mark _ fun li _ _ => mark_recomputedRow li

private theorem recompute_marks {m' : Db} {itemId : Uuid} {demotion : DeliveredDemotion}
    {status : ListItemStatus} (h : recomputeItemStatus m itemId demotion = .ok (status, m'))
    (keyed : Keyed ListItem.id m.listItems) :
    m'.lists = m.lists ∧ m'.listItems.map mark = m.listItems.map mark := by
  obtain ⟨li, hli, ⟨-, -, rfl⟩ | ⟨unsettled, -, -, hstatus, rfl⟩⟩ := recomputeItemStatus_ok h
  · exact ⟨rfl, rfl⟩
  · refine ⟨rfl, map_updateWhere mark _ fun x hx hid => ?_⟩
    obtain ⟨hmem, hk⟩ := lookup_mem hli
    obtain rfl := keyed.eq_of_key hx hmem ((of_decide_eq_true hid).trans hk.symm)
    have unset : status ≠ .settled := by
      rw [hstatus]
      split
      · simp
      · exact baseStatus_ne_settled
    simp [mark, unset, unsettled]

end Recompute

private theorem settledOn_foldl {s m : Db} (ids : List Uuid) {p : ListItem → Bool}
    (lists : m.lists = s.lists)
    (items : m.listItems = updateWhere p (fun li => { li with status := .settled }) s.listItems)
    (on : ∀ li, p li = true → li.listId ∈ ids) :
    SettledOn s ids (ids.foldl autoCloseListIfComplete m) := by
  obtain ⟨rows, shape⟩ := autoCloseAll_shape ids m
  have kept : (ids.foldl autoCloseListIfComplete m).listItems = m.listItems := by rw [shape]
  refine ⟨⟨p, on, kept.trans items⟩, ?_⟩
  rw [autoCloseAll_eq, lists]
  have same (listId : Uuid) :
      Complete (ids.foldl autoCloseListIfComplete m) listId ↔ Complete m listId := by
    unfold Complete
    rw [kept]
  simp only [same]

private theorem move_settleViaContract {s m s' : Db} {cid : Uuid} {now : Timestamp}
    {infos : List ContractSettledReimbursement}
    (h : settleViaContract m cid now = .ok (infos, s')) (lists : m.lists = s.lists)
    (items : m.listItems = s.listItems) : Move s s' := by
  simp only [settleViaContract, bind_eq_ok, fetch_eq_ok] at h
  obtain ⟨c, -, h⟩ := h
  split at h
  · simp only [Except.ok.injEq, Prod.mk.injEq] at h
    exact .same (h.2 ▸ lists) (h.2 ▸ items)
  · simp only [writeSettlementDelta, bind_eq_ok, require_eq_ok, Except.ok.injEq,
      Prod.mk.injEq] at h
    obtain ⟨s₃, ⟨-, -, rfl⟩, -, rfl⟩ := h
    refine .settled (settledOn_foldl _ lists (by rw [← items]; rfl) fun li hli => ?_)
    obtain ⟨r, hr, hp⟩ := List.any_eq_true.mp hli
    simp only [Bool.and_eq_true, decide_eq_true_eq] at hp
    obtain ⟨⟨⟨⟨⟨bound, hlist⟩, -⟩, -⟩, -⟩, -⟩ := hp
    unfold boundLists
    rw [List.mem_dedup, hlist]
    exact List.mem_map_of_mem (List.mem_filter.mpr ⟨hr, bound⟩)

private theorem move_settleManual {s s' : Db} {rid settledBy : Uuid} {now : Timestamp}
    (h : settleManual s rid settledBy now = .ok s') : Move s s' := by
  simp only [settleManual, bind_eq_ok, fetch_eq_ok, require_eq_ok] at h
  obtain ⟨r, -, -, -, h⟩ := h
  -- Both branches flip items of the one list and then look at it.
  have close {mine : ListItem → Bool} {rival : Reimbursement → Bool} {m : Db}
      (lists : m.lists = s.lists) (items : m.listItems = s.listItems) :
      Move s (autoCloseListIfComplete
        (flipHaulerItems m r.listId r.haulerUserId false mine rival) r.listId) := by
    refine .settled (settledOn_foldl [r.listId] lists (by rw [← items]; rfl) ?_)
    intro li hli
    simp only [Bool.and_eq_true, decide_eq_true_eq] at hli
    simpa using hli.1.1.1.1
  split at h
  · simp only [bind_eq_ok, require_eq_ok, Except.ok.injEq] at h
    obtain ⟨-, -, rfl⟩ := h
    exact close rfl rfl
  · simp only [bind_eq_ok, fetch_eq_ok, require_eq_ok, Except.ok.injEq] at h
    obtain ⟨requester, -, -, -, rfl⟩ := h
    exact close rfl rfl

private theorem move_finalizeLink {s m s' : Db} {c : Contract} {rid : Uuid} {now : Timestamp}
    (h : finalizeLink m c rid now = .ok s') (lists : m.lists = s.lists)
    (items : m.listItems = s.listItems) : Move s s' := by
  rcases finalizeLink_ok h with ⟨-, infos, hsettle⟩ | ⟨-, rfl⟩
  · exact move_settleViaContract hsettle lists items
  · exact .same lists items

private theorem move_recomputed {s m s' : Db} {ids : List Uuid}
    (h : recomputeItemStatusesBulk m ids = .ok s') (lists : m.lists = s.lists)
    (items : m.listItems = s.listItems) : Move s s' := by
  obtain rfl := recomputeItemStatusesBulk_ok h
  refine .kept (congrArg (List.map head) lists) ?_
  rw [← items]
  exact marks_recomputed _

private theorem move_upserted {s m s' : Db} {listId requester hauler newId : Uuid}
    (h : upsertReimbursement m listId requester hauler newId = .ok s') (lists : m.lists = s.lists)
    (marks : m.listItems.map mark = s.listItems.map mark) : Move s s' := by
  obtain ⟨rows, rfl, -, -⟩ := upsert_shape h
  exact .kept (congrArg (List.map head) lists) marks

private theorem addItems_open {s s' : Db} {limits : Limits} {userId listId : Uuid}
    {lines : List NewLine}
    {itemIds : List Uuid} (h : addItems s limits userId listId lines itemIds = .ok s') :
    ∃ l, s.list? listId = some l ∧ l.status = .open ∧
      insertItems s listId userId lines itemIds = .ok s' := by
  simp only [addItems, CurrentList.requireOpen, bind_eq_ok, require_eq_ok] at h
  obtain ⟨cur, hcur, -, opened, -, -, -, -, -, -, h⟩ := h
  obtain ⟨l, role, hl, -, rfl⟩ := currentList_ok hcur
  exact ⟨l, hl, opened, h⟩

private theorem move_apply {s s' : Db} {o : Op} (keyed : Keyed ListItem.id s.listItems)
    (unset : setsStatus o = false) (h : apply o s = .ok s') : Move s s' := by
  cases clerical : isPaperwork o with
  | true =>
    have same := paperwork_of_ok clerical h
    exact .same same.lists same.items
  | false =>
    cases o <;> simp only [apply, mapError_eq_ok, map_eq_ok, Prod.exists, exists_eq_right] at h
    case directory d =>
      simp only [changeDirectory, bind_eq_ok, require_eq_ok] at h
      obtain ⟨-, -, h⟩ := h
      obtain rfl := (Except.ok.inj h).symm
      exact .same rfl rfl
    case create =>
      obtain ⟨role, g, -, -, -, fresh, h⟩ := create_ok h
      exact .created (l := ⟨_, _, _, .open, _, _⟩) fresh rfl h
    case addItems =>
      obtain ⟨l, hl, opened, h⟩ := addItems_open h
      exact .added hl opened h
    case patchListStatus => cases unset
    case createClaim =>
      obtain ⟨-, -, h⟩ := createClaim_ok h
      exact move_recomputed (insertClaimItems_ok h) rfl rfl
    case addClaimItems =>
      obtain ⟨c, -, -, -, h⟩ := addClaimItems_ok h
      exact move_recomputed (insertClaimItems_ok h) rfl rfl
    case removeClaimItem =>
      obtain ⟨status, h⟩ := removeClaimItem_ok h
      obtain ⟨lists, marks⟩ := recompute_marks h keyed
      exact .kept (congrArg (List.map head) lists) marks
    case releaseClaim userId claimId =>
      obtain ⟨c, -, -, h⟩ := releaseClaim_ok h
      obtain ⟨claims, claimItems, shape⟩ :=
        updateClaimStatus_shape s claimId (fun _ => true) .released
      exact move_recomputed h (by rw [shape]) (by rw [shape])
    case recordFulfillment =>
      obtain ⟨l, role, li, f, s₁, status, s₂, active, -, -, -, -, -, -, -, -, -, -, -, -, rfl, hrec,
        hup⟩ := recordFulfillment_ok h
      obtain ⟨claims, claimItems, shape⟩ := completeClaim_shape s₂ active status
      obtain ⟨lists, marks⟩ := recompute_marks hrec keyed
      rw [shape] at hup
      exact move_upserted hup lists marks
    case reverseFulfillment =>
      obtain ⟨f, li, l, role, status, s₂, -, -, -, -, -, -, hrec, hup⟩ := reverseFulfillment_ok h
      obtain ⟨lists, marks⟩ := recompute_marks hrec keyed
      exact move_upserted hup lists marks
    case markDelivered =>
      obtain ⟨li, hli, -, bought, rfl⟩ := markDelivered_ok h
      refine .kept rfl (map_updateWhere mark _ fun x hx hid => ?_)
      obtain ⟨hmem, hk⟩ := lookup_mem hli
      obtain rfl := keyed.eq_of_key hx hmem ((of_decide_eq_true hid).trans hk.symm)
      simp [mark, bought]
    case setListTip =>
      obtain ⟨-, -, rfl⟩ := setListTip_ok h
      exact .kept (map_updateWhere head _ fun _ _ _ => rfl) rfl
    case patchListPayer =>
      obtain ⟨payer, l, -, -, -, rfl⟩ := patchListPayer_ok h
      exact .kept (map_updateWhere head _ fun _ _ _ => rfl) rfl
    case doConfirm =>
      obtain ⟨g, c, r, -, -, -, -, -, -, h⟩ := doConfirm_ok h
      exact move_finalizeLink h rfl rfl
    case doManualLink =>
      obtain ⟨c, r, s₁, -, -, -, -, hup, h⟩ := doManualLink_ok h
      obtain ⟨-, ⟨-, rfl⟩ | ⟨-, -, rfl⟩⟩ := upsertConfirmed_ok hup
      · exact move_finalizeLink h rfl rfl
      · exact move_finalizeLink h rfl rfl
    case settleReimbursement =>
      obtain ⟨r, -, -, h⟩ := settleReimbursement_ok h
      exact move_settleManual h
    case settleManual => exact move_settleManual h
    case settleViaContract =>
      obtain ⟨infos, h⟩ := h
      exact move_settleViaContract h rfl rfl
    case handleContractTerminal =>
      rcases handleContractTerminal_ok h with ⟨-, infos, h⟩ | ⟨-, rfl⟩ | ⟨-, -, rfl⟩
      · exact move_settleViaContract h rfl rfl
      · exact .same rfl rfl
      · exact .same rfl rfl
    all_goals cases clerical

/-- Every accepted event moves lists and items, or deletes one item. -/
private theorem move_of_ok {s s' : Db} {e : Event} (keyed : Keyed ListItem.id s.listItems)
    (h : applyEvent e s = .ok s') :
    Move s s' ∨ ∃ userId listId itemId, e = .edit (.deleteItem userId listId itemId) ∧
      deleteItem s userId listId itemId = .ok s' := by
  cases e with
  | request o unset => exact .inl (move_apply keyed unset h)
  | edit e =>
    simp only [applyEvent, mapError_eq_ok] at h
    cases e with
    | patchItem userId listId itemId body =>
      obtain ⟨li, -, -, -, -, rfl⟩ := patchItem_ok h
      exact .inl (.kept rfl (map_updateWhere mark _ fun _ _ _ => rfl))
    | deleteItem userId listId itemId => exact .inr ⟨userId, listId, itemId, rfl, h⟩
  | deleteList userId listId =>
    simp only [applyEvent, deleteListRequest, mapError_eq_ok, bind_eq_ok, pure_eq_ok] at h
    obtain ⟨cur, -, ⟨gone, s₁⟩, h, rfl⟩ := h
    obtain ⟨-, rfl⟩ := deleteList_ok h
    exact .inl (.dropped rfl rfl)
  | deleteGroup userId groupId =>
    simp only [applyEvent, deleteGroupRequest, mapError_eq_ok, bind_eq_ok, pure_eq_ok] at h
    obtain ⟨role, -, ⟨gone, s₁⟩, h, rfl⟩ := h
    obtain ⟨-, rfl⟩ := deleteGroup_ok h
    exact .inl (.dropped rfl rfl)

section Moves
variable {s s' : Db}

private theorem Placed.kept (placed : Placed s) (heads : s'.lists.map head = s.lists.map head)
    (marks : s'.listItems.map mark = s.listItems.map mark) : Placed s' := by
  have listIds : s'.lists.map ListRow.id = s.lists.map ListRow.id := by
    have := congrArg (List.map Prod.fst) heads
    rwa [List.map_map, List.map_map] at this
  have itemIds : s'.listItems.map ListItem.id = s.listItems.map ListItem.id := by
    have := congrArg (List.map Prod.fst) marks
    rwa [List.map_map, List.map_map] at this
  refine ⟨placed.lists.of_map_eq listIds, placed.items.of_map_eq itemIds, fun li hli => ?_⟩
  obtain ⟨x, hx, same⟩ := exists_of_map_eq marks.symm hli
  obtain ⟨l, hl, hlist⟩ := placed.listed x hx
  obtain ⟨l', hl', hid⟩ := exists_of_map_eq listIds hl
  refine ⟨l', hl', hid.trans (hlist.trans ?_)⟩
  exact congrArg (fun m => m.2.1) same

private theorem Placed.newList (placed : Placed s) {l : ListRow} (fresh : s.list? l.id = none) :
    Placed { s with lists := s.lists ++ [l] } := by
  refine ⟨placed.lists.append (lookup_eq_none.mp fresh), placed.items, fun li hli => ?_⟩
  obtain ⟨x, hx, hid⟩ := placed.listed li hli
  exact ⟨x, List.mem_append_left _ hx, hid⟩

private theorem Placed.inserted (placed : Placed s) {l : ListRow} {userId : Uuid}
    {lines : List NewLine} {ids : List Uuid} (hl : l ∈ s.lists)
    (h : insertItems s l.id userId lines ids = .ok s') : Placed s' := by
  obtain ⟨len, nodup, fresh, rfl⟩ := insertItems_ok h
  have keyed : Keyed ListItem.id (newItems l.id userId lines ids) := by
    unfold Keyed
    rw [map_id_newItems len]
    exact nodup
  refine ⟨placed.lists, placed.items.append_list keyed ?_, fun li hli => ?_⟩
  · intro a ha b hb
    obtain ⟨id, hid, n, -, rfl⟩ := mem_newItems hb
    exact lookup_eq_none.mp (fresh id hid) a ha
  · rcases List.mem_append.mp hli with hli | hli
    · exact placed.listed li hli
    · obtain ⟨id, -, n, -, rfl⟩ := mem_newItems hli
      exact ⟨l, hl, rfl⟩

private theorem Placed.settled (placed : Placed s) {ids : List Uuid} (h : SettledOn s ids s') :
    Placed s' := by
  obtain ⟨⟨p, -, items⟩, lists⟩ := h
  refine ⟨lists ▸ placed.lists.updateWhere fun _ => rfl,
    items ▸ placed.items.updateWhere fun _ => rfl, fun li hli => ?_⟩
  rw [items] at hli
  obtain ⟨x, hx, rfl⟩ := mem_updateWhere.mp hli
  obtain ⟨l, hl, hid⟩ := placed.listed x hx
  rw [lists]
  refine ⟨_, mem_updateWhere_of_mem hl, ?_⟩
  split <;> split <;> exact hid

private theorem Placed.dropped (placed : Placed s) {gone : List Uuid}
    (lists : s'.lists = s.lists.filter fun l => decide (l.id ∉ gone))
    (items : s'.listItems = s.listItems.filter fun li => decide (li.listId ∉ gone)) :
    Placed s' := by
  refine ⟨lists ▸ placed.lists.filter _, items ▸ placed.items.filter _, fun li hli => ?_⟩
  rw [items] at hli
  obtain ⟨hli, stays⟩ := List.mem_filter.mp hli
  obtain ⟨l, hl, hid⟩ := placed.listed li hli
  rw [lists]
  exact ⟨l, List.mem_filter.mpr ⟨hl, by rw [hid]; exact stays⟩, hid⟩

private theorem Placed.move (placed : Placed s) (h : Move s s') : Placed s' := by
  cases h with
  | kept heads marks => exact placed.kept heads marks
  | created fresh _ h =>
    exact (placed.newList fresh).inserted (List.mem_append_right _ (List.mem_singleton.mpr rfl)) h
  | added hl _ h =>
    obtain ⟨hmem, rfl⟩ := lookup_mem hl
    exact placed.inserted hmem h
  | settled h => exact placed.settled h
  | dropped lists items => exact placed.dropped lists items

private theorem Placed.deleted (placed : Placed s) {listId itemId : Uuid} :
    Placed (dropItem s listId itemId) :=
  ⟨placed.lists, placed.items.filter _, fun li hli =>
    placed.listed li (List.mem_filter.mp hli).1⟩

private theorem ClosingAgrees.kept (agrees : ClosingAgrees s)
    (heads : s'.lists.map head = s.lists.map head)
    (marks : s'.listItems.map mark = s.listItems.map mark) : ClosingAgrees s' := by
  have seen {a b : Db} (same : b.listItems.map mark = a.listItems.map mark) {li : ListItem}
      (hli : li ∈ b.listItems) :
      ∃ x ∈ a.listItems, x.listId = li.listId ∧ (x.status = .settled ↔ li.status = .settled) := by
    obtain ⟨x, hx, heq⟩ := exists_of_map_eq same.symm hli
    simp only [mark, Prod.mk.injEq, decide_eq_decide] at heq
    exact ⟨x, hx, heq.2⟩
  have transfer {a b : Db} (same : b.listItems.map mark = a.listItems.map mark) {listId : Uuid}
      (h : Complete a listId) : Complete b listId := by
    intro li hli hlist
    obtain ⟨x, hx, onList, settled⟩ := seen same hli
    exact settled.mp (h x hx (onList.trans hlist))
  intro l' hl' ⟨li', hli', hlist⟩
  obtain ⟨l, hl, heq⟩ := exists_of_map_eq heads.symm hl'
  obtain ⟨hid, hstatus⟩ : l.id = l'.id ∧ l.status = l'.status := by
    simpa [head] using heq
  obtain ⟨li, hli, onList, -⟩ := seen marks hli'
  rw [← hid, ← hstatus]
  obtain ⟨closed, either⟩ := agrees l hl ⟨li, hli, onList.trans (hlist.trans hid.symm)⟩
  exact ⟨closed.trans ⟨transfer marks, transfer marks.symm⟩, either⟩

private theorem ClosingAgrees.newList (agrees : ClosingAgrees s) (placed : Placed s) {l : ListRow}
    (fresh : s.list? l.id = none) : ClosingAgrees { s with lists := s.lists ++ [l] } := by
  intro x hx stocked
  rcases List.mem_append.mp hx with hx | hx
  · exact agrees x hx stocked
  · obtain rfl := List.mem_singleton.mp hx
    obtain ⟨li, hli, hlist⟩ := stocked
    obtain ⟨y, hy, hid⟩ := placed.listed li hli
    exact absurd (hid.trans hlist) (lookup_eq_none.mp fresh y hy)

private theorem ClosingAgrees.inserted (agrees : ClosingAgrees s) (placed : Placed s) {l : ListRow}
    {userId : Uuid} {lines : List NewLine} {ids : List Uuid} (hl : l ∈ s.lists)
    (opened : l.status = .open) (h : insertItems s l.id userId lines ids = .ok s') :
    ClosingAgrees s' := by
  obtain ⟨-, -, -, rfl⟩ := insertItems_ok h
  intro x hx ⟨li, hli, hlist⟩
  -- An item that came with this request is not settled, and its list is open.
  by_cases new : ∃ n ∈ newItems l.id userId lines ids, n.listId = x.id
  · obtain ⟨n, hn, here⟩ := new
    obtain ⟨id, -, line, -, rfl⟩ := mem_newItems hn
    obtain rfl := placed.lists.eq_of_key hl hx here
    rw [opened]
    refine ⟨⟨nofun, fun complete => ?_⟩, .inr rfl⟩
    exact absurd (complete _ (List.mem_append_right _ hn) rfl) (by simp [newItem])
  · have old {y : ListItem} (hy : y ∈ s.listItems ++ newItems l.id userId lines ids)
        (on : y.listId = x.id) : y ∈ s.listItems := by
      rcases List.mem_append.mp hy with hy | hy
      · exact hy
      · exact absurd ⟨y, hy, on⟩ new
    obtain ⟨closed, either⟩ := agrees x hx ⟨li, old hli hlist, hlist⟩
    refine ⟨closed.trans ⟨fun complete y hy on => complete y (old hy on) on, fun complete y hy on => ?_⟩,
      either⟩
    exact complete y (List.mem_append_left _ hy) on

private theorem ClosingAgrees.settled (agrees : ClosingAgrees s) {ids : List Uuid}
    (h : SettledOn s ids s') : ClosingAgrees s' := by
  obtain ⟨⟨p, on, items⟩, lists⟩ := h
  have raised {listId : Uuid} (complete : Complete s listId) : Complete s' listId := by
    intro li hli hlist
    rw [items] at hli
    obtain ⟨x, hx, rfl⟩ := mem_updateWhere.mp hli
    split
    · rfl
    · rename_i off
      rw [if_neg off] at hlist
      exact complete x hx hlist
  have untouched {listId : Uuid} (other : listId ∉ ids) (complete : Complete s' listId) :
      Complete s listId := by
    intro li hli hlist
    have off : ¬ p li = true := fun hp => other (hlist ▸ on li hp)
    refine complete li ?_ hlist
    rw [items]
    exact mem_updateWhere.mpr ⟨li, hli, if_neg off⟩
  intro l' hl' ⟨li', hli', hlist'⟩
  rw [lists] at hl'
  obtain ⟨l, hl, rfl⟩ := mem_updateWhere.mp hl'
  have stocked : ∃ li ∈ s.listItems, li.listId = l.id := by
    rw [items] at hli'
    obtain ⟨x, hx, rfl⟩ := mem_updateWhere.mp hli'
    refine ⟨x, hx, ?_⟩
    split at hlist' <;> split at hlist' <;> exact hlist'
  obtain ⟨closed, either⟩ := agrees l hl stocked
  by_cases closes : l.id ∈ ids ∧ l.status = .open ∧ Complete s' l.id
  · rw [if_pos (decide_eq_true closes)]
    exact ⟨⟨fun _ => closes.2.2, fun _ => rfl⟩, .inl rfl⟩
  · rw [if_neg fun h => closes (of_decide_eq_true h)]
    refine ⟨⟨fun done => raised (closed.mp done), fun complete => ?_⟩, either⟩
    rcases either with done | opened
    · exact done
    · have other : l.id ∉ ids := fun mem => closes ⟨mem, opened, complete⟩
      exact closed.mpr (untouched other complete)

private theorem ClosingAgrees.dropped (agrees : ClosingAgrees s) {gone : List Uuid}
    (lists : s'.lists = s.lists.filter fun l => decide (l.id ∉ gone))
    (items : s'.listItems = s.listItems.filter fun li => decide (li.listId ∉ gone)) :
    ClosingAgrees s' := by
  intro l hl ⟨li, hli, hlist⟩
  rw [lists] at hl
  obtain ⟨hl, stays⟩ := List.mem_filter.mp hl
  rw [items] at hli
  obtain ⟨closed, either⟩ := agrees l hl ⟨li, (List.mem_filter.mp hli).1, hlist⟩
  refine ⟨closed.trans ⟨fun complete x hx => ?_, fun complete x hx on => ?_⟩, either⟩
  · rw [items] at hx
    exact complete x (List.mem_filter.mp hx).1
  · refine complete x ?_ on
    rw [items]
    exact List.mem_filter.mpr ⟨hx, by rw [on]; exact stays⟩

private theorem ClosingAgrees.move (agrees : ClosingAgrees s) (placed : Placed s) (h : Move s s') :
    ClosingAgrees s' := by
  cases h with
  | kept heads marks => exact agrees.kept heads marks
  | created fresh opened h =>
    exact (agrees.newList placed fresh).inserted (placed.newList fresh)
      (List.mem_append_right _ (List.mem_singleton.mpr rfl)) opened h
  | added hl opened h =>
    obtain ⟨hmem, rfl⟩ := lookup_mem hl
    exact agrees.inserted placed hmem opened h
  | settled h => exact agrees.settled h
  | dropped lists items => exact agrees.dropped lists items

end Moves

section Delete
variable {s s' : Db} {userId listId itemId : Uuid}

private theorem deleteItem_isOk : (∃ s', deleteItem s userId listId itemId = .ok s') ↔
    Deletable s userId listId itemId := by
  constructor
  · rintro ⟨s', h⟩
    simp only [deleteItem, CurrentList.requireMutable, bind_eq_ok, fetch_eq_ok,
      require_eq_ok] at h
    obtain ⟨cur, hcur, -, mutable, -, -, li, hli, -, opened, -⟩ := h
    obtain ⟨l, role, hl, hrole, rfl⟩ := currentList_ok hcur
    obtain ⟨hitem, hlist⟩ := Option.filter_eq_some_iff.mp hli
    exact ⟨⟨l, hl, mutable, by simp [hrole]⟩, li, hitem, of_decide_eq_true hlist, opened⟩
  · rintro ⟨⟨l, hl, mutable, member⟩, li, hli, hlist, opened⟩
    obtain ⟨role, hrole⟩ := Option.ne_none_iff_exists'.mp member
    refine ⟨dropItem s listId itemId, ?_⟩
    simp only [deleteItem, CurrentList.requireMutable, lockList, bind_eq_ok, fetch_eq_ok,
      require_eq_ok, currentList, pure_eq_ok]
    refine ⟨_, ⟨l, hl, role, hrole, rfl⟩, (), mutable, (), ?_, li, ?_, (), opened, trivial⟩
    · rw [Option.mem_def.mp hl]
      simp
    · exact Option.filter_eq_some_iff.mpr ⟨hli, decide_eq_true hlist⟩

/-- Deleting an open item keeps the agreement exactly when work remains or nothing does. -/
private theorem closingAgrees_deleteItem (agrees : ClosingAgrees s) (placed : Placed s)
    (h : deleteItem s userId listId itemId = .ok s') :
    ClosingAgrees s' ↔ LeavesWork s listId itemId := by
  obtain ⟨gone, hgone, rfl, opened, rfl⟩ := deleteItem_ok h
  obtain ⟨hmem, hk⟩ := lookup_mem hgone
  obtain ⟨l, hl, hid⟩ := placed.listed gone hmem
  have stays {li : ListItem} : li ∈ (dropItem s gone.listId itemId).listItems ↔
      li ∈ s.listItems ∧ li.id ≠ itemId := by
    unfold dropItem
    rw [List.mem_filter]
    refine and_congr_right fun hli => ?_
    by_cases same : li.id = itemId
    · obtain rfl := placed.items.eq_of_key hli hmem (same.trans hk.symm)
      simp [onItem, same]
    · simp [onItem, same]
  have unclosed : l.status ≠ .closed := fun done => by
    have complete := (agrees l hl ⟨gone, hmem, hid.symm⟩).1.mp done
    rw [complete gone hmem hid.symm] at opened
    cases opened
  constructor
  · intro after
    by_cases empty : ∀ li ∈ s.listItems, li.listId = gone.listId → li.id = itemId
    · exact .inl empty
    · push Not at empty
      obtain ⟨li, hli, hlist, other⟩ := empty
      have short : ¬ Complete (dropItem s gone.listId itemId) l.id := fun complete =>
        unclosed (((after l hl ⟨li, stays.mpr ⟨hli, other⟩, hlist.trans hid.symm⟩).1).mpr complete)
      unfold Complete at short
      push Not at short
      obtain ⟨x, hx, onList, unsettled⟩ := short
      obtain ⟨hx, other⟩ := stays.mp hx
      exact .inr ⟨x, hx, onList.trans hid, other, unsettled⟩
  · rintro work x hx ⟨li, hli, hlist⟩
    obtain ⟨hold, other⟩ := stays.mp hli
    obtain ⟨closed, either⟩ := agrees x hx ⟨li, hold, hlist⟩
    refine ⟨closed.trans ⟨fun complete y hy => complete y (stays.mp hy).1, fun complete y hy on => ?_⟩,
      either⟩
    by_cases same : y.id = itemId
    · obtain rfl := placed.items.eq_of_key hy hmem (same.trans hk.symm)
      rcases work with empty | ⟨z, hz, here, apart, unsettled⟩
      · exact absurd (empty li hold (hlist.trans on.symm)) other
      · exact absurd (complete z (stays.mpr ⟨hz, apart⟩) (here.trans on)) unsettled
    · exact complete y (stays.mpr ⟨hy, same⟩) on

end Delete

private theorem placed_step (s : Db) (e : Event) (s' : Db) (placed : Placed s)
    (h : applyEvent e s = .ok s') : Placed s' := by
  rcases move_of_ok placed.items h with move | ⟨userId, listId, itemId, -, h⟩
  · exact placed.move move
  · obtain ⟨li, -, -, -, rfl⟩ := deleteItem_ok h
    exact placed.deleted

private theorem closingAgrees_exec (s : Db) (e : Event) (placed : Placed s)
    (agrees : ClosingAgrees s) :
    ClosingAgrees (exec applyEvent s e) ↔ LeavesOpen s e := by
  cases h : applyEvent e s with
  | ok s' =>
    rw [exec_of_ok h]
    rcases move_of_ok placed.items h with move | ⟨userId, listId, itemId, rfl, deleted⟩
    · refine ⟨fun after => ?_, fun _ => agrees.move placed move⟩
      unfold LeavesOpen
      split
      · rename_i userId listId itemId
        replace h : deleteItem s userId listId itemId = .ok s' := mapError_eq_ok.mp h
        exact fun _ => (closingAgrees_deleteItem agrees placed h).mp after
      · trivial
    · have exactly := closingAgrees_deleteItem agrees placed deleted
      refine exactly.trans ⟨fun work _ => work, fun work => ?_⟩
      exact work (deleteItem_isOk.mp ⟨s', deleted⟩)
  | error e' =>
    rw [exec_of_error h]
    refine ⟨fun _ => ?_, fun _ => agrees⟩
    unfold LeavesOpen
    split
    · rename_i userId listId itemId
      intro deletable
      obtain ⟨s', ok⟩ := deleteItem_isOk.mpr deletable
      simp [applyEvent, applyEdit, ok, Except.mapError] at h
    · trivial

private theorem placed_empty : Placed empty :=
  ⟨List.nodup_nil, List.nodup_nil, fun _ h => absurd h List.not_mem_nil⟩

private theorem closingAgrees_empty : ClosingAgrees empty := fun _ h => absurd h List.not_mem_nil

/-- In a run of events without a status change, the statuses of lists agree with their items in
every state exactly when no deletion of an item leaves its list with settled items only. -/
theorem closing_agrees_iff (es : List Event) :
    (∀ before, before <+: es → ClosingAgrees (run applyEvent empty before)) ↔
      Meets applyEvent LeavesOpen empty es :=
  forall_run_iff_meets placed_step closingAgrees_exec placed_empty closingAgrees_empty es

/-- Two items; one is bought, delivered and settled, and then the other is deleted. -/
def deletedLastRun : List Event :=
  [.request (.directory sampleDirectory) rfl,
    .request (.create sampleLimits 1 1 [⟨34, "Tritanium", 5, 1⟩, ⟨35, "Pyerite", 5, 2⟩] 1 [1, 2]) rfl,
    .request (.recordFulfillment 2 1 1 (samplePurchase 5 10) ⟨1, 1, 0⟩) rfl,
    .request (.markDelivered 2 1 1 (some 2)) rfl,
    .request (.settleReimbursement 1 1 0) rfl,
    .edit (.deleteItem 1 1 2)]

theorem deletion_leaves_complete_list_open :
    ¬ ∀ before, before <+: deletedLastRun → ClosingAgrees (run applyEvent empty before) := by
  intro h
  exact absurd (h deletedLastRun (List.prefix_refl _)) (by decide +kernel)

end JitaCart.Items.Closing
