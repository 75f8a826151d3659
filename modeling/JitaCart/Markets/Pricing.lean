/- module: JitaCart/Markets/Pricing
   source: backend/crates/api/src/lists/pricing.rs (pick_cheapest), backend/crates/api/src/lists.rs
   digest: The markets of a list, the checks on them, and the cheapest quote for a type. -/

import JitaCart.Base.Request
import JitaCart.Schema
import Mathlib.Data.List.MinMax

set_option autoImplicit false
set_option relaxedAutoImplicit false

namespace JitaCart.Markets.Pricing

open Schema Base.Request

inductive MarketKind
  | npcHub | publicStructure
  deriving DecidableEq

structure Market where
  id : Uuid
  kind : MarketKind
  shortLabel : Option String
  isHub : Bool
  isPublic : Bool
  deriving DecidableEq

structure TrackedMarket where
  groupId : Uuid
  marketId : Uuid
  deriving DecidableEq

/-- The tables `markets` and `group_tracked_markets`, which list requests only read. -/
structure Catalog where
  markets : List Market := []
  tracked : List TrackedMarket := []
  deriving DecidableEq

def maxMarketIds : Nat := 8

def validateMarketIdsSize (ids : List Uuid) : Except ApiError Unit := do
  require (ids ≠ []) (.badRequest "market_ids must not be empty")
  require (ids.length ≤ maxMarketIds)
    (.badRequest s!"too many market_ids ({ids.length}); max {maxMarketIds}")
  require ids.Nodup (.badRequest "market_ids contains duplicates")

/-- The rows with one of the ids, which have to be as many. -/
def loadMarkets (c : Catalog) (ids : List Uuid) : Except ApiError (List Market) := do
  let rows := c.markets.filter fun m => decide (m.id ∈ ids)
  require (rows.length = ids.length) (.badRequest "one or more market_ids do not exist")
  return rows

def Market.label (m : Market) : String := m.shortLabel.getD "(unnamed)"

/-- An NPC hub is open to every group, a citadel to those that track it. -/
def validateMarket (c : Catalog) (groupId : Uuid) (m : Market) : Except ApiError Unit := do
  require (m.isPublic = true) (.badRequest s!"market {m.label} is not public")
  match m.kind with
  | .npcHub =>
    require (m.isHub = true)
      (.badRequest s!"market {m.label} is marked as NPC hub but is_hub=false")
  | .publicStructure =>
    require (⟨groupId, m.id⟩ ∈ c.tracked)
      (.badRequest s!"citadel '{m.label}' is not tracked by this group")

def validateMarketsForGroup (c : Catalog) (groupId : Uuid) : List Market → Except ApiError Unit
  | [] => .ok ()
  | m :: ms => do
    validateMarket c groupId m
    validateMarketsForGroup c groupId ms

section Cheapest
variable {P : Type} [LinearOrder P]

/-- `best_sell` by market and type, where the fetched maps have one. -/
abbrev Quotes (P : Type) := Uuid → Int → Option P

/-- `min_by_key` returns the first of several minima, as `argmin` does. -/
def pickCheapest (markets : List Market) (quotes : Quotes P) (typeId : Int) :
    Option P × Option Uuid :=
  match (markets.filterMap fun m => (quotes m.id typeId).map fun p => (p, m.id)).argmin
      Prod.fst with
  | some (p, id) => (some p, some id)
  | none => (none, none)

/-- The estimate of a type: no market quotes it, or the market named quotes the least price. -/
def Cheapest (ids : List Uuid) (quotes : Quotes P) (typeId : Int) :
    Option P → Option Uuid → Prop
  | none, none => ∀ id ∈ ids, quotes id typeId = none
  | some p, some id => (id ∈ ids ∧ quotes id typeId = some p) ∧
      ∀ j ∈ ids, ∀ x ∈ quotes j typeId, p ≤ x
  | _, _ => False

theorem cheapest_pickCheapest (markets : List Market) (quotes : Quotes P) (typeId : Int) :
    Cheapest (markets.map Market.id) quotes typeId (pickCheapest markets quotes typeId).1
      (pickCheapest markets quotes typeId).2 := by
  unfold pickCheapest
  split
  · rename_i p id found
    obtain ⟨mem, least, -⟩ := List.argmin_eq_some_iff.mp found
    obtain ⟨m, hm, quoted⟩ := List.mem_filterMap.mp mem
    obtain ⟨x, hx, pair⟩ := Option.map_eq_some_iff.mp quoted
    obtain ⟨rfl, rfl⟩ := Prod.mk.inj pair
    refine ⟨⟨List.mem_map_of_mem hm, hx⟩, fun j hj y hy => ?_⟩
    obtain ⟨n, hn, rfl⟩ := List.mem_map.mp hj
    exact least (y, n.id) (List.mem_filterMap.mpr ⟨n, hn, by rw [Option.mem_def.mp hy]; rfl⟩)
  · rename_i empty
    rw [List.argmin_eq_none, List.filterMap_eq_nil_iff] at empty
    intro id hid
    obtain ⟨m, hm, rfl⟩ := List.mem_map.mp hid
    simpa using empty m hm

theorem Cheapest.congr {ids ids' : List Uuid} {quotes quotes' : Quotes P} {typeId : Int}
    {unit : Option P} {market : Option Uuid} (same : ∀ id, id ∈ ids' ↔ id ∈ ids)
    (price : ∀ id, quotes' id typeId = quotes id typeId)
    (h : Cheapest ids quotes typeId unit market) : Cheapest ids' quotes' typeId unit market := by
  cases unit <;> cases market <;> simp only [Cheapest, same, price] at h ⊢ <;> exact h

end Cheapest

end JitaCart.Markets.Pricing
