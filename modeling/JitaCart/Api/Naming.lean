/- module: JitaCart/Api/Naming
   source: backend/crates/api/src/lists/crud.rs (create), backend/crates/api/src/lists/items.rs
     (add_items, patch_item), backend/crates/api/src/lists.rs (validate_multibuy_size)
   digest: List requests from the text the client sends to the lines with resolved types. -/

import JitaCart.Api.Lists
import JitaCart.Markets.Pricing
import JitaCart.Markets.Types

/-!
`Api/Lists` takes resolved lines; here they come out of the request's body. Prices
and estimates are columns that these requests do not read back.
-/

set_option autoImplicit false
set_option relaxedAutoImplicit false

namespace JitaCart.Api.Naming

open Schema Base.Table Base.Request Base.Strings Domain.Multibuy Extract ItemStatus
open Markets.Types Markets.Pricing
open Lists (Limits NewLine maxParsedLines maxDistinctNames checkListsQuota insertItems)

def maxMultibuyBytes : Nat := 64 * 1024

def byteLength (t : Text) : Nat := (String.ofList t).utf8ByteSize

def validateMultibuySize (mb : Text) : Except ApiError Unit :=
  require (byteLength mb ≤ maxMultibuyBytes)
    (.badRequest s!"multibuy too large ({byteLength mb} bytes); max {maxMultibuyBytes}")

/-- Labels and notes are not modelled. -/
structure CreateBody where
  marketIds : List Uuid
  primaryMarketId : Uuid
  multibuy : Text
  deriving DecidableEq

structure AddItemsBody where
  multibuy : Option Text
  typeName : Option Text
  qty : Option Int
  deriving DecidableEq

structure PatchItemBody where
  qtyRequested : Option Int
  typeName : Option Text
  deriving DecidableEq

/-- A name, a quantity, and the number of the first line that has it. -/
structure NamedLine where
  name : Text
  qty : Int
  lineNo : Int
  deriving DecidableEq

def NamedLine.ofParsed (l : ParsedLine) : NamedLine := ⟨l.name, l.qty, asI32 (l.lineNos.headD 0)⟩

/-- The branch that is meant to be out of reach. -/
def resolvedMissing (name : Text) : ApiError :=
  .internal ("resolved missing for " ++ String.ofList name)

def checkDistinctNames (lines : List NamedLine) : Except ApiError Unit :=
  require (lines.length ≤ maxDistinctNames)
    (.badRequest s!"too many distinct items ({lines.length}); max {maxDistinctNames}")

def requireResolved (r : Resolution) : Except ApiError Unit :=
  require (r.unresolved = []) (.badRequest
    ("unknown item(s): " ++ String.ofList (List.intercalate ", ".toList r.unresolved)))

section Handlers
variable (u : CaseTables) (w : World)

def parsedLines (mb : Text) : Except ApiError (List NamedLine) := do
  let parsed := parseMultibuy u mb
  require (parsed.errors = [])
    (.badRequest s!"{parsed.errors.length} multibuy line(s) failed to parse")
  require (parsed.lines ≠ []) (.badRequest "multibuy is empty")
  require (parsed.lines.length ≤ maxParsedLines)
    (.badRequest s!"too many parsed lines ({parsed.lines.length}); max {maxParsedLines}")
  return parsed.lines.map .ofParsed

/-- Either a paste, or one name with its quantity. -/
def AddItemsBody.newLines (body : AddItemsBody) : Except ApiError (List NamedLine) :=
  match body.multibuy, body.typeName, body.qty with
  | some mb, _, _ => do
    validateMultibuySize mb
    parsedLines u mb
  | none, some name, some qty => do
    require (0 < qty) (.badRequest "qty must be positive")
    return [⟨name, qty, 0⟩]
  | _, _, _ => .error (.badRequest "provide either \x7bmultibuy\x7d or \x7btype_name, qty\x7d")

/-- An error of the resolver is an internal one. -/
def resolveNames (names : List Text) : Except ApiError Resolution :=
  fetch (.internal "name resolution failed") (resolveTypeIds u w names)

def typedLine (resolved : Text → Option ResolvedType) (l : NamedLine) :
    Except ApiError NewLine := do
  let r ← fetch (resolvedMissing l.name) (resolved (nameKey u l.name))
  return ⟨r.typeId, String.ofList r.typeName, l.qty, l.lineNo⟩

def typedLines (resolved : Text → Option ResolvedType) :
    List NamedLine → Except ApiError (List NewLine)
  | [] => .ok []
  | l :: ls => do
    let n ← typedLine u resolved l
    let ns ← typedLines resolved ls
    return n :: ns

/-- `crud::create`. The checks that the resolved request makes again pass again. -/
def create (s : Db) (c : Catalog) (limits : Limits) (userId groupId : Uuid) (body : CreateBody)
    (listId : Uuid) (itemIds : List Uuid) : Except ApiError Db := do
  let _ ← currentGroup s userId groupId
  validateMultibuySize body.multibuy
  validateMarketIdsSize body.marketIds
  require (body.primaryMarketId ∈ body.marketIds)
    (.badRequest "primary_market_id must be in market_ids")
  let lines ← parsedLines u body.multibuy
  checkDistinctNames lines
  require (lines.length ≤ limits.itemsPerList) (.quotaExceeded
    s!"list has {lines.length} items; per-list cap is {limits.itemsPerList}")
  checkListsQuota s groupId limits.listsPerGroup
  let markets ← loadMarkets c body.marketIds
  validateMarketsForGroup c groupId markets
  let r ← resolveNames u w (lines.map NamedLine.name)
  requireResolved r
  let rows ← typedLines u r.resolved lines
  Lists.create s limits userId groupId rows listId itemIds

def addItems (s : Db) (limits : Limits) (userId listId : Uuid) (body : AddItemsBody)
    (itemIds : List Uuid) : Except ApiError Db := do
  let cur ← currentList s userId listId
  cur.requireOpen "items can only be added to open lists"
  let lines ← body.newLines u
  checkDistinctNames lines
  let r ← resolveNames u w (lines.map NamedLine.name)
  requireResolved r
  lockList s listId
  let count := (s.listItems.filter fun li => decide (li.listId = listId)).length
  require (count + lines.length ≤ limits.itemsPerList)
    (.quotaExceeded (s!"adding {lines.length} items would push the list past its per-list cap " ++
      s!"({count} of {limits.itemsPerList})"))
  let rows ← typedLines u r.resolved lines
  insertItems s listId userId rows itemIds

def resolvedType (name : Text) : Except ApiError ResolvedType := do
  let r ← resolveNames u w [name]
  require (r.unresolved = []) (.badRequest ("unknown item: " ++ String.ofList name))
  fetch (resolvedMissing name) (r.resolved (nameKey u name))

/-- The type is resolved before the quantity is looked at. -/
def patchItem (s : Db) (userId listId itemId : Uuid) (body : PatchItemBody) :
    Except ApiError Db := do
  let cur ← currentList s userId listId
  cur.requireMutable
  require (body.qtyRequested ≠ none ∨ body.typeName ≠ none) (.badRequest "nothing to update")
  let type ← body.typeName.mapM (resolvedType u w)
  Lists.patchItem s userId listId itemId
    ⟨body.qtyRequested, type.map fun r => (r.typeId, String.ofList r.typeName)⟩

end Handlers

end JitaCart.Api.Naming
