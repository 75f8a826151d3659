/- module: JitaCart/Markets/Types
   source: backend/crates/market/src/types.rs
   digest: Item names resolved to type ids through a cache and the game's API. -/

import JitaCart.Domain.Multibuy

/-!
The cache table, its driver and the game's API are outside the process: what they
answer, and whether they answer, is a `World`. A world stays as it is while one
request resolves its names.
-/

set_option autoImplicit false
set_option relaxedAutoImplicit false

namespace JitaCart.Markets.Types

open Base.Strings Domain.Multibuy

structure ResolvedType where
  typeId : Int
  typeName : Text
  deriving DecidableEq

structure CacheRow where
  nameKey : Text
  name : Text
  typeId : Int
  typeName : Text
  deriving DecidableEq

/-- An entry of `inventory_types` in the API's answer. -/
structure InventoryType where
  id : Int
  name : Text
  deriving DecidableEq

structure World where
  cache : List CacheRow
  selects : Bool
  resolveIds : List Text → Option (List InventoryType)
  upserts : Bool

/-- `as i32`. -/
def asI32 (n : Int) : Int := n.bmod (2 ^ 32)

/-- A name as it is sent and shown. -/
def original (name : Text) : Text := replaceChar nbsp ' ' (trim name)

def indexed {α β : Type} (key : α → Text) (value : α → β) (rows : List α) : Text → Option β :=
  rows.foldl (fun m r => Function.update m (key r) (some (value r))) fun _ => none

def cachedTypes (rows : List CacheRow) : Text → Option ResolvedType :=
  indexed CacheRow.nameKey (fun r => ⟨asI32 r.typeId, r.typeName⟩) rows

structure Answer where
  resolved : Text → Option ResolvedType
  unresolved : List Text
  toUpsert : List CacheRow

/-- The loop over the requested names: one that is not cached is resolved by its echo. -/
def settle (haveKeys : List Text) (echoed : Text → Option InventoryType) (a : Answer)
    (request : Text × Text) : Answer :=
  if request.1 ∈ haveKeys then a
  else
    match echoed request.1 with
    | some entry =>
      { a with
        resolved := Function.update a.resolved request.1 (some ⟨asI32 entry.id, entry.name⟩)
        toUpsert := a.toUpsert ++ [⟨request.1, entry.name, entry.id, entry.name⟩] }
    | none => { a with unresolved := a.unresolved ++ [request.2] }

/-- `INSERT … ON CONFLICT (name_key) DO UPDATE`. -/
def upsert (rows cache : List CacheRow) : List CacheRow :=
  cache.filter (fun r => decide (r.nameKey ∉ rows.map CacheRow.nameKey)) ++ rows

structure Resolution where
  resolved : Text → Option ResolvedType
  unresolved : List Text
  cache : List CacheRow

def World.nothing (w : World) : Resolution := ⟨fun _ => none, [], w.cache⟩

section Resolve
variable (u : CaseTables)

/-- The loop over the names: each key once, under the spelling it was first seen with. -/
def request (requested : List (Text × Text)) (name : Text) : List (Text × Text) :=
  let key := nameKey u name
  if key = [] then requested
  else if key ∈ requested.map Prod.fst then requested
  else requested ++ [(key, original name)]

def requested (names : List Text) : List (Text × Text) := names.foldl (request u) []

def echoes (entries : List InventoryType) : Text → Option InventoryType :=
  indexed (fun e => nameKey u e.name) id entries

/-- Nothing is returned when the database or the API fails. -/
def resolveTypeIds (w : World) (names : List Text) : Option Resolution :=
  if names = [] then some w.nothing
  else
    let requested := requested u names
    if requested = [] then some w.nothing
    else if w.selects = false then none
    else
      let cached := w.cache.filter fun r => decide (r.nameKey ∈ requested.map Prod.fst)
      let haveKeys := cached.map CacheRow.nameKey
      let toFetch := (requested.filter fun p => decide (p.1 ∉ haveKeys)).map Prod.snd
      if toFetch = [] then some ⟨cachedTypes cached, [], w.cache⟩
      else do
        let entries ← w.resolveIds toFetch
        let a := requested.foldl (settle haveKeys (echoes u entries)) ⟨cachedTypes cached, [], []⟩
        if a.toUpsert = [] then some ⟨a.resolved, a.unresolved, w.cache⟩
        else if w.upserts then some ⟨a.resolved, a.unresolved, upsert a.toUpsert w.cache⟩
        else none

end Resolve

end JitaCart.Markets.Types
