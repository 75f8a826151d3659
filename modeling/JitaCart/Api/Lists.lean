/- module: JitaCart/Api/Lists
   source: backend/crates/api/src/lists/crud.rs, backend/crates/api/src/lists/items.rs,
     backend/crates/api/src/lists.rs, backend/crates/api/src/fulfillment/tips.rs,
     backend/crates/api/src/corps.rs (patch_list_payer)
   digest: Creating a list, editing its items, its status, its tip and its payer. -/

import JitaCart.Api.ItemStatus
import JitaCart.Api.Reimbursements

/-!
Names are resolved to types and priced before the first write; the requests
here take the resolved lines. Price estimates are columns that no request reads back.
-/

set_option autoImplicit false
set_option relaxedAutoImplicit false

namespace JitaCart.Api.Lists

open Schema Base.Table Base.Request Base.Numeric Extract ItemStatus

def maxParsedLines : Nat := 5000

def maxDistinctNames : Nat := 1000

structure Limits where
  listsPerGroup : Nat
  itemsPerList : Nat
  deriving DecidableEq

/-- A parsed line with its resolved type; the parser only yields positive quantities. -/
structure NewLine where
  typeId : Int
  typeName : String
  qty : Int
  lineNo : Int
  deriving DecidableEq

def validateLines (lines : List NewLine) : Except ApiError Unit := do
  require (∀ n ∈ lines, 0 < n.qty) (.badRequest "qty must be positive")
  require (lines ≠ []) (.badRequest "multibuy is empty")
  require (lines.length ≤ maxParsedLines)
    (.badRequest s!"too many parsed lines ({lines.length}); max {maxParsedLines}")
  require (lines.length ≤ maxDistinctNames)
    (.badRequest s!"too many distinct items ({lines.length}); max {maxDistinctNames}")

def newItem (listId userId id : Uuid) (n : NewLine) : ListItem where
  id := id
  listId := listId
  typeId := n.typeId
  typeName := n.typeName
  qtyRequested := n.qty
  qtyFulfilled := 0
  requestedByUserId := userId
  status := .open
  sourceLineNo := n.lineNo

def newItems (listId userId : Uuid) (lines : List NewLine) (ids : List Uuid) : List ListItem :=
  List.zipWith (newItem listId userId) ids lines

theorem mem_newItems {listId userId : Uuid} {lines : List NewLine} {ids : List Uuid}
    {li : ListItem} (h : li ∈ newItems listId userId lines ids) :
    ∃ id ∈ ids, ∃ n ∈ lines, li = newItem listId userId id n := by
  induction ids generalizing lines with
  | nil => simp [newItems] at h
  | cons id ids ih =>
    cases lines with
    | nil => simp [newItems] at h
    | cons n lines =>
      rcases List.mem_cons.mp h with rfl | h
      · exact ⟨id, List.mem_cons_self, n, List.mem_cons_self, rfl⟩
      · obtain ⟨i, hi, m, hm, rfl⟩ := ih h
        exact ⟨i, List.mem_cons_of_mem id hi, m, List.mem_cons_of_mem n hm, rfl⟩

theorem map_id_newItems {listId userId : Uuid} {lines : List NewLine} {ids : List Uuid}
    (len : ids.length = lines.length) :
    (newItems listId userId lines ids).map (·.id) = ids := by
  induction ids generalizing lines with
  | nil => rfl
  | cons id ids ih =>
    cases lines with
    | nil => simp at len
    | cons n lines => exact congrArg (id :: ·) (ih (by simpa using len))

def insertItems (s : Db) (listId userId : Uuid) (lines : List NewLine) (ids : List Uuid) :
    Except ApiError Db := do
  require (ids.length = lines.length ∧ ids.Nodup ∧ ∀ id ∈ ids, s.item? id = none)
    DbError.duplicateKey.toApi
  .ok { s with listItems := s.listItems ++ newItems listId userId lines ids }

def checkListsQuota (s : Db) (groupId : Uuid) (cap : Nat) : Except ApiError Unit :=
  let count := (s.lists.filter fun l =>
    decide (l.groupId = groupId) && decide (l.status ≠ .archived)).length
  require (count < cap) (.quotaExceeded (s!"this group already has {count} active lists " ++
    s!"(cap {cap}); archive some before adding more"))

/-- `crud::create`. -/
def create (s : Db) (limits : Limits) (userId groupId : Uuid) (lines : List NewLine)
    (listId : Uuid) (itemIds : List Uuid) : Except ApiError Db := do
  let _ ← currentGroup s userId groupId
  validateLines lines
  require (lines.length ≤ limits.itemsPerList) (.quotaExceeded
    s!"list has {lines.length} items; per-list cap is {limits.itemsPerList}")
  checkListsQuota s groupId limits.listsPerGroup
  let g ← fetch (.internal "null value in column tip_pct")
    (lookup Group.id groupId s.directory.groups)
  require (s.list? listId = none) DbError.duplicateKey.toApi
  insertItems { s with lists := s.lists ++ [⟨listId, groupId, userId, .open, g.defaultTipPct, none⟩] }
    listId userId lines itemIds

def addItems (s : Db) (limits : Limits) (userId listId : Uuid) (lines : List NewLine)
    (itemIds : List Uuid) : Except ApiError Db := do
  let cur ← currentList s userId listId
  cur.requireOpen "items can only be added to open lists"
  validateLines lines
  lockList s listId
  let count := (s.listItems.filter fun li => decide (li.listId = listId)).length
  require (count + lines.length ≤ limits.itemsPerList)
    (.quotaExceeded (s!"adding {lines.length} items would push the list past its per-list cap " ++
      s!"({count} of {limits.itemsPerList})"))
  insertItems s listId userId lines itemIds

/-- `patch_list` with a new status; labels and notes are not modelled. -/
def patchListStatus (s : Db) (userId listId : Uuid) (status : ListStatus) :
    Except ApiError Db := do
  let cur ← currentList s userId listId
  cur.requireCanManage
  .ok { s with
    lists := updateWhere (fun l => decide (l.id = listId) && decide (l.groupId = cur.groupId))
      (fun l => { l with status := status }) s.lists }

structure PatchItemBody where
  qtyRequested : Option Int
  resolvedType : Option (Int × String)
  deriving DecidableEq

/-- Quantity first, then type, on one row. -/
def PatchItemBody.assign (body : PatchItemBody) (li : ListItem) : ListItem :=
  { li with
    qtyRequested := body.qtyRequested.getD li.qtyRequested
    typeId := (body.resolvedType.map (·.1)).getD li.typeId
    typeName := (body.resolvedType.map (·.2)).getD li.typeName }

def onItem (listId itemId : Uuid) (li : ListItem) : Bool :=
  decide (li.id = itemId) && decide (li.listId = listId)

def patchItem (s : Db) (userId listId itemId : Uuid) (body : PatchItemBody) :
    Except ApiError Db := do
  let cur ← currentList s userId listId
  cur.requireMutable
  require (body.qtyRequested ≠ none ∨ body.resolvedType ≠ none) (.badRequest "nothing to update")
  require (∀ qty ∈ body.qtyRequested, 0 < qty) (.badRequest "qty_requested must be positive")
  lockList s listId
  let li ← fetch .missing ((s.item? itemId).filter fun li => decide (li.listId = listId))
  require (li.status = .open) (.conflict (s!"cannot edit item with status '{li.status}'; " ++
    "release the claim or reverse fulfillments first"))
  .ok { s with listItems := updateWhere (onItem listId itemId) body.assign s.listItems }

/-- `DELETE FROM list_items` with its cascades to fulfillments and claim items. -/
def dropItem (s : Db) (listId itemId : Uuid) : Db :=
  { s with
    listItems := s.listItems.filter fun li => !onItem listId itemId li
    fulfillments := s.fulfillments.filter fun f => decide (f.listItemId ≠ itemId)
    claimItems := s.claimItems.filter fun ci => decide (ci.listItemId ≠ itemId) }

def deleteItem (s : Db) (userId listId itemId : Uuid) : Except ApiError Db := do
  let cur ← currentList s userId listId
  cur.requireMutable
  lockList s listId
  let li ← fetch .missing ((s.item? itemId).filter fun li => decide (li.listId = listId))
  require (li.status = .open) (.conflict (s!"cannot delete item with status '{li.status}'; " ++
    "release the claim or reverse fulfillments first"))
  .ok (dropItem s listId itemId)

/-- A `numeric(5,4)` column. -/
def storedTip (tipPct : ℚ) : ℚ := toScale 4 tipPct / 10 ^ 4

/-- The tip and total that a subtotal gives, each rounded on its own. -/
def retip (tipPct : ℚ) (r : Reimbursement) : Reimbursement :=
  { r with
    tipIsk := roundHalfAway (r.subtotalIsk * tipPct)
    totalIsk := roundHalfAway (r.subtotalIsk * (1 + tipPct)) }

def pendingOnList (listId : Uuid) (r : Reimbursement) : Bool :=
  decide (r.listId = listId) && decide (r.status = .pending)

/-- The creator may set the tip until something was bought; a group owner always may. -/
def setListTip (s : Db) (userId listId : Uuid) (tipPct : ℚ) : Except ApiError Db := do
  let cur ← currentList s userId listId
  cur.requireMutable
  validateTipPct tipPct
  require (userId = cur.createdByUserId ∨ cur.role = .owner) .noAccess
  lockList s listId
  require (cur.role = .owner ∨ ¬ ∃ f ∈ s.fulfillments, f.live = true ∧
      ∃ li ∈ s.item? f.listItemId, li.listId = listId) .noAccess
  require (∀ r ∈ s.reimbursements, pendingOnList listId r = true →
      Fits 24 (retip tipPct r).tipIsk ∧ Fits 24 (retip tipPct r).totalIsk)
    DbError.numericOverflow.toApi
  .ok { s with
    lists := updateWhere (fun l => decide (l.id = listId))
      (fun l => { l with tipPct := storedTip tipPct }) s.lists
    reimbursements := updateWhere (pendingOnList listId) (retip tipPct) s.reimbursements }

structure PatchListPayerBody where
  payerCorpId : Option Uuid
  payerDivision : Option Int
  deriving DecidableEq

/-- Corp and division together, or neither. -/
def PatchListPayerBody.payer (body : PatchListPayerBody) : Except ApiError (Option Payer) :=
  match body.payerCorpId, body.payerDivision with
  | some corp, some division => .ok (some ⟨corp, division⟩)
  | none, none => .ok none
  | _, _ => .error
    (.badRequest "payer_corp_id and payer_division must both be set or both be null")

def requireCorpInGroup (s : Db) (groupId corpId : Uuid) : Except ApiError Unit :=
  require (∃ gc ∈ s.directory.groupCorps,
    gc.groupId = groupId ∧ gc.corpId = corpId ∧ gc.unlinkedAt = none) .missing

/-- A corp payer has to be linked to the list's group. -/
def checkPayerLinked (s : Db) (groupId : Uuid) : Option Payer → Except ApiError Unit
  | some p => requireCorpInGroup s groupId p.corpId
  | none => .ok ()

def setPayer (s : Db) (listId : Uuid) (payer : Option Payer) : Db :=
  { s with
    lists := updateWhere (fun l => decide (l.id = listId)) (fun l => { l with payer := payer })
      s.lists }

def patchListPayer (s : Db) (userId listId : Uuid) (body : PatchListPayerBody) :
    Except ApiError Db := do
  let payer ← body.payer
  let l ← fetch .noAccess (s.list? listId)
  require (s.directory.roleOf userId l.groupId = some .owner) .noAccess
  require (∀ r ∈ s.reimbursements, r.listId ≠ listId)
    (.conflict "payer cannot be changed after reimbursements have been generated")
  checkPayerLinked s l.groupId payer
  .ok (setPayer s listId payer)

theorem insertItems_ok {s s' : Db} {listId userId : Uuid} {lines : List NewLine}
    {ids : List Uuid} (h : insertItems s listId userId lines ids = .ok s') :
    ids.length = lines.length ∧ ids.Nodup ∧ (∀ id ∈ ids, s.item? id = none) ∧
      s' = { s with listItems := s.listItems ++ newItems listId userId lines ids } := by
  simp only [insertItems, bind_eq_ok, require_eq_ok] at h
  obtain ⟨-, ⟨len, nodup, fresh⟩, h⟩ := h
  exact ⟨len, nodup, fresh, (Except.ok.inj h).symm⟩

private theorem validateLines_ok {lines : List NewLine} {u : Unit}
    (h : validateLines lines = .ok u) :
    ∀ n ∈ lines, 0 < n.qty := by
  simp only [validateLines, bind_eq_ok, require_eq_ok] at h
  obtain ⟨-, pos, -⟩ := h
  exact pos

theorem create_ok {s s' : Db} {limits : Limits} {userId groupId : Uuid} {lines : List NewLine}
    {listId : Uuid} {itemIds : List Uuid}
    (h : create s limits userId groupId lines listId itemIds = .ok s') :
    ∃ role g, s.directory.roleOf userId groupId = some role ∧
      g ∈ s.directory.groups ∧ (∀ n ∈ lines, 0 < n.qty) ∧ s.list? listId = none ∧
      insertItems
        { s with lists := s.lists ++ [⟨listId, groupId, userId, .open, g.defaultTipPct, none⟩] }
        listId userId lines itemIds = .ok s' := by
  simp only [create, currentGroup, bind_eq_ok, fetch_eq_ok, require_eq_ok] at h
  obtain ⟨role, hrole, _, hlines, -, -, -, -, g, hg, -, fresh, h⟩ := h
  exact ⟨role, g, hrole, (lookup_mem hg).1, validateLines_ok hlines, fresh, h⟩

theorem addItems_ok {s s' : Db} {limits : Limits} {userId listId : Uuid} {lines : List NewLine}
    {itemIds : List Uuid} (h : addItems s limits userId listId lines itemIds = .ok s') :
    ∃ l role, s.list? listId = some l ∧ s.directory.roleOf userId l.groupId = some role ∧
      (∀ n ∈ lines, 0 < n.qty) ∧ insertItems s listId userId lines itemIds = .ok s' := by
  simp only [addItems, bind_eq_ok, require_eq_ok] at h
  obtain ⟨cur, hcur, -, -, _, hlines, -, -, -, -, h⟩ := h
  obtain ⟨l, role, hl, hrole, -⟩ := currentList_ok hcur
  exact ⟨l, role, hl, hrole, validateLines_ok hlines, h⟩

theorem patchListStatus_ok {s s' : Db} {userId listId : Uuid} {status : ListStatus}
    (h : patchListStatus s userId listId status = .ok s') :
    ∃ p, s' = { s with lists := updateWhere p (fun l => { l with status := status }) s.lists } := by
  simp only [patchListStatus, bind_eq_ok] at h
  obtain ⟨cur, -, -, -, h⟩ := h
  exact ⟨_, (Except.ok.inj h).symm⟩

theorem patchItem_ok {s s' : Db} {userId listId itemId : Uuid} {body : PatchItemBody}
    (h : patchItem s userId listId itemId body = .ok s') :
    ∃ li, s.item? itemId = some li ∧ li.listId = listId ∧ li.status = .open ∧
      (∀ qty ∈ body.qtyRequested, 0 < qty) ∧
      s' = { s with
        listItems := updateWhere (onItem listId itemId) body.assign s.listItems } := by
  simp only [patchItem, bind_eq_ok, fetch_eq_ok, require_eq_ok] at h
  obtain ⟨-, -, -, -, -, -, -, pos, -, -, li, hli, -, hopen, h⟩ := h
  rw [Option.filter_eq_some_iff] at hli
  exact ⟨li, hli.1, by simpa using hli.2, hopen, pos, (Except.ok.inj h).symm⟩

theorem deleteItem_ok {s s' : Db} {userId listId itemId : Uuid}
    (h : deleteItem s userId listId itemId = .ok s') :
    ∃ li, s.item? itemId = some li ∧ li.listId = listId ∧ li.status = .open ∧
      s' = dropItem s listId itemId := by
  simp only [deleteItem, bind_eq_ok, fetch_eq_ok, require_eq_ok] at h
  obtain ⟨-, -, -, -, -, -, li, hli, -, hopen, h⟩ := h
  rw [Option.filter_eq_some_iff] at hli
  exact ⟨li, hli.1, by simpa using hli.2, hopen, (Except.ok.inj h).symm⟩

theorem setListTip_ok {s s' : Db} {userId listId : Uuid} {tipPct : ℚ}
    (h : setListTip s userId listId tipPct = .ok s') :
    0 ≤ tipPct ∧ tipPct ≤ 1 ∧
      s' = { s with
        lists := updateWhere (fun l => decide (l.id = listId))
          (fun l => { l with tipPct := storedTip tipPct }) s.lists
        reimbursements := updateWhere (pendingOnList listId) (retip tipPct) s.reimbursements } := by
  simp only [setListTip, validateTipPct, bind_eq_ok, require_eq_ok] at h
  obtain ⟨cur, -, -, -, -, ⟨nonneg, atMost⟩, -, -, -, -, -, -, -, -, h⟩ := h
  exact ⟨nonneg, atMost, (Except.ok.inj h).symm⟩

theorem patchListPayer_ok {s s' : Db} {userId listId : Uuid} {body : PatchListPayerBody}
    (h : patchListPayer s userId listId body = .ok s') :
    ∃ payer l, s.list? listId = some l ∧ (∀ r ∈ s.reimbursements, r.listId ≠ listId) ∧
      (∀ p ∈ payer, ∃ gc ∈ s.directory.groupCorps, gc.corpId = p.corpId) ∧
      s' = setPayer s listId payer := by
  simp only [patchListPayer, bind_eq_ok, fetch_eq_ok, require_eq_ok] at h
  obtain ⟨payer, -, l, hl, -, -, -, unused, _, linked, h⟩ := h
  refine ⟨payer, l, hl, unused, ?_, (Except.ok.inj h).symm⟩
  rintro p rfl
  simp only [checkPayerLinked, requireCorpInGroup, require_eq_ok] at linked
  obtain ⟨gc, hgc, -, hcorp, -⟩ := linked
  exact ⟨gc, hgc, hcorp⟩

end JitaCart.Api.Lists
