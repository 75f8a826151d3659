/- module: JitaCart/Concurrent/Lists
   source: backend/crates/api/src/lists.rs (check_lists_quota),
     backend/crates/api/src/lists/crud.rs (create, patch_list, delete_list),
     backend/crates/api/src/lists/items.rs (add_items, delete_item)
   digest: Interleaved list requests, statement by statement, with their locks and counts. -/

import JitaCart.Api.Lists
import JitaCart.Base.Quota

/-!
Only lists and items are written. Markets, prices and the reads that build a
response decide nothing here, and a column that nothing reads is not assigned.
The share locks of foreign keys are left out, so more interleavings are possible.
-/

set_option autoImplicit false
set_option relaxedAutoImplicit false

namespace JitaCart.Concurrent.Lists

open Schema Base.Table Base.Request Base.ReadCommitted Api.Extract
open Api.Lists (NewLine validateLines newItems mem_newItems)

/-- Rows, and the primary keys that an insert waits for. -/
inductive Row
  | list (id : Uuid)
  | item (id : Uuid)
  deriving DecidableEq

/-- `counting` writes nothing: a create that left it relies on its count of the group's lists. -/
inductive Write
  | insertList (l : ListRow)
  | updateList (before after : ListRow)
  | deleteList (l : ListRow)
  | insertItem (li : ListItem)
  | deleteItem (li : ListItem)
  | counting (groupId : Uuid)
  deriving DecidableEq

def redo : Write → Db → Db
  | .insertList l, s => { s with lists := replace ListRow.id l.id (some l) s.lists }
  | .updateList _ l, s => { s with lists := replace ListRow.id l.id (some l) s.lists }
  | .deleteList l, s => { s with lists := replace ListRow.id l.id none s.lists }
  | .insertItem li, s => { s with listItems := replace ListItem.id li.id (some li) s.listItems }
  | .deleteItem li, s => { s with listItems := replace ListItem.id li.id none s.listItems }
  | .counting _, s => s

/-- `[limits]` of the configuration. -/
structure Caps where
  listsPerGroup : Int
  itemsPerList : Int
  deriving DecidableEq

inductive ListRequest
  | create (userId groupId : Uuid) (lines : List NewLine) (listId : Uuid) (itemIds : List Uuid)
  | addItems (userId listId : Uuid) (lines : List NewLine) (itemIds : List Uuid)
  | deleteItem (userId listId itemId : Uuid)
  | patchList (userId listId : Uuid) (status : Option ListStatus)
  | deleteList (userId listId : Uuid)
  deriving DecidableEq

abbrev Program := Prog Db Write Row

def activeLists (s : Db) (groupId : Uuid) : Nat :=
  s.lists.countP fun l => decide (l.groupId = groupId) && decide (l.status ≠ .archived)

def checkListsQuota (groupId : Uuid) (cap : Int) : Program Unit :=
  .select fun s => require ((activeLists s groupId : Int) < cap) (ApiError.quotaExceeded
    (s!"this group already has {activeLists s groupId} active lists (cap {cap}); " ++
      "archive some before adding more"))

/-- `INSERT INTO lists` under a new id, which by the foreign key no item refers to. The tip comes
from a subquery. -/
def insertList (userId groupId listId : Uuid) : Program Unit :=
  .statement (fun _ => [.list listId]) fun st s => do
    let g ← lookup Group.id groupId st.snapshot.directory.groups
    if s.list? listId = none ∧ ∀ li ∈ s.listItems, li.listId ≠ listId then
      some ([.insertList ⟨listId, groupId, userId, .open, g.defaultTipPct, none⟩], ())
    else none

def insertItem (li : ListItem) : Program PUnit :=
  .statement (fun _ => [.item li.id]) fun _ s =>
    if s.item? li.id = none then some ([.insertItem li], ()) else none

def create (caps : Caps) (userId groupId : Uuid) (lines : List NewLine) (listId : Uuid)
    (itemIds : List Uuid) : Program Unit := do
  let _ ← .select fun s => currentGroup s userId groupId
  .check (validateLines lines)
  .check (require ((lines.length : Int) ≤ caps.itemsPerList) (ApiError.quotaExceeded
    s!"list has {lines.length} items; per-list cap is {caps.itemsPerList}"))
  .note (.counting groupId)
  checkListsQuota groupId caps.listsPerGroup
  insertList userId groupId listId
  (newItems listId userId lines itemIds).forM insertItem

/-- `SELECT id FROM lists WHERE id = $1 FOR UPDATE`. -/
def lockList (listId : Uuid) : Program Unit :=
  .statement (fun s => ((s.list? listId).map fun l => .list l.id).toList) fun st s =>
    if st.planned = [] ∨ s.list? listId = none then none else some ([], ())

def itemCount (s : Db) (listId : Uuid) : Nat :=
  s.listItems.countP fun li => decide (li.listId = listId)

def checkItemsQuota (listId : Uuid) (new : Nat) (cap : Int) : Program Unit :=
  .select fun s => require ((itemCount s listId + new : Int) ≤ cap) (ApiError.quotaExceeded
    (s!"adding {new} items would push the list past its per-list cap " ++
      s!"({itemCount s listId} of {cap})"))

def insertItems (items : List ListItem) : Program Unit :=
  .statement (fun _ => items.map fun li => .item li.id) fun _ s =>
    if Keyed ListItem.id items ∧ ∀ li ∈ items, s.item? li.id = none then
      some (items.map .insertItem, ())
    else none

def addItems (caps : Caps) (userId listId : Uuid) (lines : List NewLine) (itemIds : List Uuid) :
    Program Unit := do
  let cur ← .select fun s => currentList s userId listId
  .check (cur.requireOpen "items can only be added to open lists")
  .check (validateLines lines)
  lockList listId
  checkItemsQuota listId lines.length caps.itemsPerList
  insertItems (newItems listId userId lines itemIds)

/-- `SELECT status FROM list_items WHERE id = $1 AND list_id = $2 FOR UPDATE`. -/
def lockItem (listId itemId : Uuid) : Program ListItemStatus :=
  .statement
    (fun s => (((s.item? itemId).filter fun li => decide (li.listId = listId)).map fun li =>
      .item li.id).toList)
    fun st s =>
      if st.planned = [] then none
      else ((s.item? itemId).filter fun li => decide (li.listId = listId)).map fun li =>
        ([], li.status)

/-- `DELETE FROM list_items` of the rows of the snapshot that still are there. -/
def deleteItems (p : ListItem → Bool) : Program Unit :=
  .statement (fun s => (s.listItems.filter p).map fun li => .item li.id)
    fun st s => some ((s.listItems.filter fun li =>
      p li && decide (.item li.id ∈ st.planned)).map .deleteItem, ())

def deleteItem (userId listId itemId : Uuid) : Program Unit := do
  let cur ← .select fun s => currentList s userId listId
  .check cur.requireMutable
  lockList listId
  let status ← lockItem listId itemId
  .check (require (status = .open) (ApiError.conflict (s!"cannot delete item with status '{status}'; " ++
    "release the claim or reverse fulfillments first")))
  deleteItems fun li => decide (li.id = itemId ∧ li.listId = listId)

/-- The row of the statement's `WHERE id = $1 AND group_id = $2`. -/
def listIn (s : Db) (listId groupId : Uuid) : Option ListRow :=
  (s.list? listId).filter fun l => decide (l.groupId = groupId)

/-- `UPDATE lists SET … WHERE id = $1 AND group_id = $2`; no row is no error. -/
def updateList (listId groupId : Uuid) (status : Option ListStatus) : Program Unit :=
  .statement (fun s => ((listIn s listId groupId).map fun l => .list l.id).toList) fun st s =>
    some ((((listIn s listId groupId).filter fun _ => decide (st.planned ≠ [])).map fun l =>
      .updateList l { l with status := status.getD l.status }).toList, ())

/-- Labels and notes are not modelled; a request with a status is for those who manage the list. -/
def patchList (userId listId : Uuid) (status : Option ListStatus) : Program Unit := do
  let cur ← .select fun s => currentList s userId listId
  .check (if status.isSome then cur.requireCanManage else cur.requireMutable)
  updateList listId cur.groupId status

def dropList (listId groupId : Uuid) : Program Unit :=
  .statement (fun s => ((listIn s listId groupId).map fun l => .list l.id).toList) fun st s =>
    if st.planned = [] then none
    else (listIn s listId groupId).map fun l => ([.deleteList l], ())

/-- The items go with the list, by a statement of the foreign key. -/
def deleteList (userId listId : Uuid) : Program Unit := do
  let cur ← .select fun s => currentList s userId listId
  .check (require (cur.createdByUserId = cur.userId ∨ cur.role = .owner) ApiError.noAccess)
  dropList listId cur.groupId
  deleteItems fun li => decide (li.listId = listId)

def program (caps : Caps) : ListRequest → Program Unit
  | .create userId groupId lines listId itemIds => create caps userId groupId lines listId itemIds
  | .addItems userId listId lines itemIds => addItems caps userId listId lines itemIds
  | .deleteItem userId listId itemId => deleteItem userId listId itemId
  | .patchList userId listId status => patchList userId listId status
  | .deleteList userId listId => deleteList userId listId

def engine (caps : Caps) : Engine Db Write Row ListRequest := ⟨redo, program caps⟩

end JitaCart.Concurrent.Lists
