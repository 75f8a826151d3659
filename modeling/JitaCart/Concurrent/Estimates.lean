/- module: JitaCart/Concurrent/Estimates
   source: backend/crates/api/src/lists/pricing.rs (recompute_estimates),
     backend/crates/api/src/lists/crud.rs (create, replace_markets),
     backend/crates/api/src/lists/items.rs (add_items, patch_item, delete_item)
   digest: Interleaved list requests with the price estimates that they store. -/

import JitaCart.Api.Naming
import JitaCart.Concurrent.Lists

/-!
Prices are whole cents, as the columns hold them, and no sum is too large for its
column. What the price cache and the game's API answer is part of a call: it may
differ at every fetch. `now()` is the time at which the transaction began. Group
memberships and markets are only read here.
-/

set_option autoImplicit false
set_option relaxedAutoImplicit false

namespace JitaCart.Concurrent.Estimates

open Schema Base.Table Base.Request Base.Strings Base.ReadCommitted Domain.Multibuy
open Markets.Types Markets.Pricing Api.Extract Api.Naming
open Api.Lists (NewLine newItem)
open Concurrent.Lists (Caps)

structure PricedList extends ListRow where
  totalEstimateIsk : Cents
  updatedAt : Timestamp
  deriving DecidableEq

structure PricedItem extends ListItem where
  estUnitPriceIsk : Option Cents
  estPricedMarketId : Option Uuid
  deriving DecidableEq

structure ListMarket where
  listId : Uuid
  marketId : Uuid
  isPrimary : Bool
  deriving DecidableEq

structure Shop where
  directory : Directory := {}
  catalog : Catalog := {}
  lists : List PricedList := []
  items : List PricedItem := []
  listMarkets : List ListMarket := []
  deriving DecidableEq

/-- The columns that the extractors and quotas read. -/
def Shop.db (s : Shop) : Db where
  directory := s.directory
  lists := s.lists.map PricedList.toListRow
  listItems := s.items.map PricedItem.toListItem

def Shop.list? (s : Shop) (id : Uuid) : Option PricedList := lookup (·.id) id s.lists

def Shop.item? (s : Shop) (id : Uuid) : Option PricedItem := lookup (·.id) id s.items

def Shop.itemsOf (s : Shop) (listId : Uuid) : List PricedItem :=
  s.items.filter fun it => decide (it.listId = listId)

def Shop.marketsOf (s : Shop) (listId : Uuid) : List ListMarket :=
  s.listMarkets.filter fun m => decide (m.listId = listId)

/-- Rows, and the keys that an insert waits for. -/
inductive Row
  | list (id : Uuid)
  | item (id : Uuid)
  | listMarket (listId marketId : Uuid)
  deriving DecidableEq

inductive Write
  | insertList (l : PricedList)
  | updateList (l : PricedList)
  | insertItem (it : PricedItem)
  | updateItem (it : PricedItem)
  | deleteItem (it : PricedItem)
  | insertListMarket (m : ListMarket)
  | deleteListMarket (m : ListMarket)
  deriving DecidableEq

def redo : Write → Shop → Shop
  | .insertList l, s => { s with lists := s.lists ++ [l] }
  | .updateList l, s => { s with lists := overwrite (fun r => r.id) l s.lists }
  | .insertItem it, s => { s with items := s.items ++ [it] }
  | .updateItem it, s => { s with items := overwrite (fun r => r.id) it s.items }
  | .deleteItem it, s => { s with items := s.items.filter fun r => decide (r.id ≠ it.id) }
  | .insertListMarket m, s => { s with listMarkets := s.listMarkets ++ [m] }
  | .deleteListMarket m, s => { s with
      listMarkets := s.listMarkets.filter fun r => decide (r ≠ m) }

structure ReplaceMarketsBody where
  marketIds : List Uuid
  primaryMarketId : Uuid
  deriving DecidableEq

inductive Operation
  | create (userId groupId : Uuid) (body : CreateBody) (listId : Uuid) (itemIds : List Uuid)
  | addItems (userId listId : Uuid) (body : AddItemsBody) (itemIds : List Uuid)
  | patchItem (userId listId itemId : Uuid) (body : PatchItemBody)
  | deleteItem (userId listId itemId : Uuid)
  | replaceMarkets (userId listId : Uuid) (body : ReplaceMarketsBody)
  deriving DecidableEq

def Operation.listId : Operation → Uuid
  | .create _ _ _ listId _ => listId
  | .addItems _ listId _ _ => listId
  | .patchItem _ listId _ _ => listId
  | .deleteItem _ listId _ => listId
  | .replaceMarkets _ listId _ => listId

/-- An operation with what it meets outside: the names it may resolve, the quotes of each fetch,
and the time. -/
structure Call where
  op : Operation
  world : World
  quotes : Nat → Quotes Cents
  now : Timestamp

abbrev Program := Prog Shop Write Row

def recomputeRetryLimit : Nat := 3

/-- The fetched maps hold the types that were asked for. -/
def fetchPrices (quotes : Quotes Cents) (typeIds : List Int) : Quotes Cents := fun market typeId =>
  if typeId ∈ typeIds then quotes market typeId else none

/-- `if let Some(u) = unit { total += u * qty }`. -/
def addEstimate (total : Cents) (unit : Option Cents) (qty : Int) : Cents :=
  match unit with
  | some u => total + u * qty
  | none => total

/-- A row of the arrays that are bound to the update. -/
structure Estimate where
  itemId : Uuid
  estUnit : Option Cents
  estMarket : Option Uuid
  deriving DecidableEq

def estimate (markets : List Market) (quotes : Quotes Cents) (item : Uuid × Int) : Estimate :=
  let (unit, market) := pickCheapest markets quotes item.2
  ⟨item.1, unit, market⟩

/-- `SELECT … FROM list_markets lm JOIN markets m ON m.id = lm.market_id WHERE lm.list_id = $1`. -/
def joinedMarkets (s : Shop) (listId : Uuid) : List Market :=
  (s.marketsOf listId).filterMap fun lm => lookup Market.id lm.marketId s.catalog.markets

/-- `SELECT updated_at FROM lists WHERE id = $1 FOR UPDATE`. -/
def lockUpdatedAt (listId : Uuid) : Program Timestamp :=
  .statement (fun s => ((s.list? listId).map fun l => .list l.id).toList) fun st s =>
    if st.planned = [] then none else (s.list? listId).map fun l => ([], l.updatedAt)

/-- The `UPDATE … FROM UNNEST` with the columns of one source row. -/
def Estimate.assign (e : Estimate) (it : PricedItem) : PricedItem :=
  { it with estUnitPriceIsk := e.estUnit, estPricedMarketId := e.estMarket }

/-- `UPDATE list_items … RETURNING li.id, li.qty_requested`, for the rows of the snapshot that the
arrays name. -/
def updateEstimates (ests : List Estimate) : Program (List (Uuid × Int)) :=
  .statement
    (fun s => (s.items.filter fun it => (lookup Estimate.itemId it.id ests).isSome).map fun it =>
      .item it.id)
    fun st s =>
      let rows := s.items.filterMap fun it =>
        if .item it.id ∈ st.planned then
          (lookup Estimate.itemId it.id ests).map fun e => e.assign it
        else none
      some (rows.map .updateItem, rows.map fun it => (it.id, it.qtyRequested))

/-- The loop over the returned rows; each is matched with its estimate by id. -/
def foldTotal (ests : List Estimate) (updated : List (Uuid × Int)) : Cents :=
  updated.foldl (fun total r =>
    match lookup Estimate.itemId r.1 ests with
    | some e => addEstimate total e.estUnit r.2
    | none => total) 0

/-- `updated_at` moves only with the total. -/
def storeTotal (listId : Uuid) (total : Cents) (now : Timestamp) : Program Unit :=
  .statement (fun s => ((s.list? listId).map fun l => .list l.id).toList) fun st s =>
    some ((((s.list? listId).filter fun _ => decide (st.planned ≠ [])).map fun l =>
      .updateList { l with
        totalEstimateIsk := total
        updatedAt := if l.totalEstimateIsk ≠ total then now else l.updatedAt }).toList, ())

/-- One round for each fetch; another one only where `updated_at` has moved. -/
def recomputeEstimates (listId : Uuid) (now : Timestamp) :
    List (Quotes Cents) → Timestamp → Program Unit
  | [], _ => .check (.error (ApiError.conflict "list was concurrently modified; please retry"))
  | quotes :: later, updatedAfter => do
    let _ ← .select fun s => fetch ApiError.missing ((s.list? listId).map (·.groupId))
    let markets ← .select fun s => (.ok (joinedMarkets s listId) : Except ApiError (List Market))
    let items ← .select fun s => (.ok ((s.itemsOf listId).map fun it => (it.id, it.typeId)) :
      Except ApiError (List (Uuid × Int)))
    let prices := fetchPrices quotes (items.map Prod.snd)
    let currentUpdated ← lockUpdatedAt listId
    if currentUpdated ≠ updatedAfter then recomputeEstimates listId now later currentUpdated
    else
      let ests := items.map (estimate markets prices)
      let updated ← if items = [] then pure [] else updateEstimates ests
      storeTotal listId (foldTotal ests updated) now

def Call.recompute (call : Call) (listId : Uuid) (updatedAfter : Timestamp) : Program Unit :=
  recomputeEstimates listId call.now ((List.range recomputeRetryLimit).map call.quotes) updatedAfter

/-- `SELECT id FROM lists WHERE id = $1 FOR UPDATE`. -/
def lockList (listId : Uuid) : Program Unit :=
  .statement (fun s => ((s.list? listId).map fun l => .list l.id).toList) fun st s =>
    if st.planned = [] ∨ s.list? listId = none then none else some ([], ())

/-- `UPDATE lists SET updated_at = now() WHERE id = $1 RETURNING updated_at`. -/
def touchList (listId : Uuid) (now : Timestamp) : Program Timestamp :=
  .statement (fun s => ((s.list? listId).map fun l => .list l.id).toList) fun st s =>
    if st.planned = [] then none
    else (s.list? listId).map fun l => ([.updateList { l with updatedAt := now }], now)

/-- `INSERT INTO list_markets`, with its primary key and its foreign keys. -/
def insertListMarket (m : ListMarket) : Program PUnit :=
  .statement (fun _ => [.listMarket m.listId m.marketId]) fun _ s =>
    if (∀ r ∈ s.marketsOf m.listId, r.marketId ≠ m.marketId) ∧ s.list? m.listId ≠ none ∧
        lookup Market.id m.marketId s.catalog.markets ≠ none then
      some ([.insertListMarket m], ())
    else none

/-- `DELETE FROM list_markets WHERE list_id = $1`. -/
def deleteListMarkets (listId : Uuid) : Program Unit :=
  .statement (fun s => (s.marketsOf listId).map fun m => .listMarket m.listId m.marketId)
    fun st s => some (((s.marketsOf listId).filter fun m =>
      decide (.listMarket m.listId m.marketId ∈ st.planned)).map .deleteListMarket, ())

def insertItem (it : PricedItem) : Program PUnit :=
  .statement (fun _ => [.item it.id]) fun _ s =>
    if s.item? it.id = none ∧ s.list? it.listId ≠ none then some ([.insertItem it], ()) else none

/-- One `INSERT … SELECT … FROM UNNEST`; a new item has no estimate yet. -/
def insertItems (listId : Uuid) (items : List ListItem) : Program Unit :=
  .statement (fun _ => items.map fun li => .item li.id) fun _ s =>
    if Keyed ListItem.id items ∧ (∀ li ∈ items, s.item? li.id = none) ∧ s.list? listId ≠ none then
      some (items.map fun li => .insertItem ⟨li, none, none⟩, ())
    else none

/-- The row of `WHERE id = $1 AND list_id = $2`. -/
def itemIn (s : Shop) (listId itemId : Uuid) : Option PricedItem :=
  (s.item? itemId).filter fun it => decide (it.listId = listId)

/-- `SELECT status FROM list_items … FOR UPDATE`. -/
def lockItem (listId itemId : Uuid) : Program ListItemStatus :=
  .statement (fun s => ((itemIn s listId itemId).map fun it => .item it.id).toList) fun st s =>
    if st.planned = [] then none else (itemIn s listId itemId).map fun it => ([], it.status)

/-- `UPDATE list_items SET … WHERE id = $1 AND list_id = $2`; no row is no error. -/
def assignItem (listId itemId : Uuid) (assign : PricedItem → PricedItem) : Program Unit :=
  .statement (fun s => ((itemIn s listId itemId).map fun it => .item it.id).toList) fun st s =>
    some ((((itemIn s listId itemId).filter fun _ => decide (st.planned ≠ [])).map fun it =>
      .updateItem (assign it)).toList, ())

/-- `DELETE FROM list_items … `, which has to find its row. -/
def dropItem (listId itemId : Uuid) : Program Unit :=
  .statement (fun s => ((itemIn s listId itemId).map fun it => .item it.id).toList) fun st s =>
    if st.planned = [] then none
    else (itemIn s listId itemId).map fun it => ([.deleteItem it], ())

def activeLists (s : Shop) (groupId : Uuid) : Nat :=
  s.lists.countP fun l => decide (l.groupId = groupId) && decide (l.status ≠ .archived)

def checkListsQuota (groupId : Uuid) (cap : Int) : Program Unit :=
  .select fun s => require ((activeLists s groupId : Int) < cap) (ApiError.quotaExceeded
    (s!"this group already has {activeLists s groupId} active lists (cap {cap}); " ++
      "archive some before adding more"))

def checkItemsQuota (listId : Uuid) (new : Nat) (cap : Int) : Program Unit :=
  .select fun s => require (((s.itemsOf listId).length + new : Int) ≤ cap)
    (ApiError.quotaExceeded (s!"adding {new} items would push the list past its per-list cap " ++
      s!"({(s.itemsOf listId).length} of {cap})"))

/-- `INSERT INTO lists … RETURNING id`. The tip comes from a subquery. -/
def insertList (userId groupId listId : Uuid) (total : Cents) (now : Timestamp) : Program Unit :=
  .statement (fun _ => [.list listId]) fun st s => do
    let g ← lookup Group.id groupId st.snapshot.directory.groups
    if s.list? listId = none then
      some ([.insertList ⟨⟨listId, groupId, userId, .open, g.defaultTipPct, none⟩, total, now⟩], ())
    else none

def pricedItem (markets : List Market) (quotes : Quotes Cents) (li : ListItem) : PricedItem :=
  let (unit, market) := pickCheapest markets quotes li.typeId
  ⟨li, unit, market⟩

/-- The total that is added up while the rows are made. -/
def createTotal (items : List PricedItem) : Cents :=
  items.foldl (fun total it => addEstimate total it.estUnitPriceIsk it.qtyRequested) 0

section Requests
variable (u : CaseTables) (caps : Caps) (call : Call)

/-- The generated ids are as many as the lines. -/
def create (userId groupId : Uuid) (body : CreateBody) (listId : Uuid) (itemIds : List Uuid) :
    Program Unit := do
  let _ ← .select fun s => currentGroup s.db userId groupId
  .check (validateMultibuySize body.multibuy)
  .check (validateMarketIdsSize body.marketIds)
  .check (require (body.primaryMarketId ∈ body.marketIds)
    (ApiError.badRequest "primary_market_id must be in market_ids"))
  let lines ← .check (parsedLines u body.multibuy)
  .check (checkDistinctNames lines)
  .check (require ((lines.length : Int) ≤ caps.itemsPerList) (ApiError.quotaExceeded
    s!"list has {lines.length} items; per-list cap is {caps.itemsPerList}"))
  checkListsQuota groupId caps.listsPerGroup
  let markets ← .select fun s => loadMarkets s.catalog body.marketIds
  .select fun s => validateMarketsForGroup s.catalog groupId markets
  let r ← .check (resolveNames u call.world (lines.map NamedLine.name))
  .check (requireResolved r)
  let rows ← .check (typedLines u r.resolved lines)
  .check (require (itemIds.length = rows.length) DbError.duplicateKey.toApi)
  let prices := fetchPrices (call.quotes 0) (rows.map NewLine.typeId)
  let items := (List.zipWith (newItem listId userId) itemIds rows).map (pricedItem markets prices)
  insertList userId groupId listId (createTotal items) call.now
  markets.forM fun m => insertListMarket ⟨listId, m.id, decide (m.id = body.primaryMarketId)⟩
  items.forM insertItem

def addItems (userId listId : Uuid) (body : AddItemsBody) (itemIds : List Uuid) :
    Program Unit := do
  let cur ← .select fun s => currentList s.db userId listId
  .check (cur.requireOpen "items can only be added to open lists")
  let lines ← .check (body.newLines u)
  .check (checkDistinctNames lines)
  let r ← .check (resolveNames u call.world (lines.map NamedLine.name))
  .check (requireResolved r)
  lockList listId
  checkItemsQuota listId lines.length caps.itemsPerList
  let rows ← .check (typedLines u r.resolved lines)
  .check (require (itemIds.length = rows.length) DbError.duplicateKey.toApi)
  insertItems listId (List.zipWith (newItem listId userId) itemIds rows)
  let updatedAfter ← touchList listId call.now
  call.recompute listId updatedAfter

def withQty (qty : Int) (it : PricedItem) : PricedItem := { it with qtyRequested := qty }

def withType (type : ResolvedType) (it : PricedItem) : PricedItem :=
  { it with typeId := type.typeId, typeName := String.ofList type.typeName }

/-- The update of a field that the body has. -/
def assignGiven {α : Type} (listId itemId : Uuid) (assign : α → PricedItem → PricedItem) :
    Option α → Program Unit
  | some a => assignItem listId itemId (assign a)
  | none => pure ()

def patchItem (userId listId itemId : Uuid) (body : PatchItemBody) : Program Unit := do
  let cur ← .select fun s => currentList s.db userId listId
  .check cur.requireMutable
  .check (require (body.qtyRequested ≠ none ∨ body.typeName ≠ none)
    (ApiError.badRequest "nothing to update"))
  let type ← .check (body.typeName.mapM (resolvedType u call.world))
  .check (require (∀ qty ∈ body.qtyRequested, 0 < qty)
    (ApiError.badRequest "qty_requested must be positive"))
  lockList listId
  let status ← lockItem listId itemId
  .check (require (status = .open) (ApiError.conflict
    (s!"cannot edit item with status '{status}'; " ++
      "release the claim or reverse fulfillments first")))
  assignGiven listId itemId withQty body.qtyRequested
  assignGiven listId itemId withType type
  let updatedAfter ← touchList listId call.now
  call.recompute listId updatedAfter

def deleteItem (userId listId itemId : Uuid) : Program Unit := do
  let cur ← .select fun s => currentList s.db userId listId
  .check cur.requireMutable
  lockList listId
  let status ← lockItem listId itemId
  .check (require (status = .open) (ApiError.conflict
    (s!"cannot delete item with status '{status}'; " ++
      "release the claim or reverse fulfillments first")))
  dropItem listId itemId
  let updatedAfter ← touchList listId call.now
  call.recompute listId updatedAfter

def replaceMarkets (userId listId : Uuid) (body : ReplaceMarketsBody) : Program Unit := do
  let cur ← .select fun s => currentList s.db userId listId
  .check cur.requireMutable
  .check (validateMarketIdsSize body.marketIds)
  .check (require (body.primaryMarketId ∈ body.marketIds)
    (ApiError.badRequest "primary_market_id must be in market_ids"))
  let markets ← .select fun s => loadMarkets s.catalog body.marketIds
  .select fun s => validateMarketsForGroup s.catalog cur.groupId markets
  lockList listId
  deleteListMarkets listId
  markets.forM fun m => insertListMarket ⟨listId, m.id, decide (m.id = body.primaryMarketId)⟩
  let updatedAfter ← touchList listId call.now
  call.recompute listId updatedAfter

def program : Program Unit :=
  match call.op with
  | .create userId groupId body listId itemIds =>
    create u caps call userId groupId body listId itemIds
  | .addItems userId listId body itemIds => addItems u caps call userId listId body itemIds
  | .patchItem userId listId itemId body => patchItem u call userId listId itemId body
  | .deleteItem userId listId itemId => deleteItem call userId listId itemId
  | .replaceMarkets userId listId body => replaceMarkets call userId listId body

end Requests

def engine (u : CaseTables) (caps : Caps) : Engine Shop Write Row Call := ⟨redo, program u caps⟩

end JitaCart.Concurrent.Estimates
