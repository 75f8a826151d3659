/- module: JitaCart/Citadels/Access
   source: backend/crates/worker/src/jobs/csa.rs, backend/crates/worker/src/jobs/citadel_orders.rs,
     backend/crates/auth-tokens/src/budget.rs, backend/crates/market/src/prices.rs,
     backend/migrations/20260427000000_init.sql (character_structure_access)
   digest: Who may read the orders of a citadel, and the job that asks for them. -/

import JitaCart.Api.Routes
import JitaCart.Base.Rota
import JitaCart.Base.Select
import JitaCart.Markets.Aggregation
import Mathlib.Data.Prod.Lex
import Mathlib.Order.WithBot

/-!
The job walks the candidates of several citadels at a time. A statement or an answer
of ESI is a step, and what requests and other jobs do to the tables comes in between.
Times are in seconds; `now()` of a statement is the time of its step.
-/

set_option autoImplicit false
set_option relaxedAutoImplicit false

namespace JitaCart.Citadels

open Schema Base.Table Base.Request Base.Select Markets.Aggregation
open Api.Routes (MarketKind TrackedMarket ListMarket)

/-- `remaining` is an estimate of the failures that ESI still tolerates. -/
structure Budget where
  remaining : Int := 100
  deferThreshold : Int := 20
  ceiling : Int := 100
  deriving DecidableEq

namespace Budget

def hasBudget (b : Budget) : Bool := decide (b.deferThreshold ≤ b.remaining)

def recordNon2xx (b : Budget) : Budget :=
  if 0 < b.remaining then { b with remaining := b.remaining - 1 } else b

def reset (b : Budget) : Budget := { b with remaining := b.ceiling }

end Budget

/-- `NULLS FIRST`. -/
def nullsFirst (t : Option Timestamp) : WithBot Nat := t

inductive AccessStatus
  | ok | forbidden | unknown
  deriving DecidableEq

inductive AccessDimension
  | details | market
  deriving DecidableEq

structure Check where
  status : AccessStatus := .unknown
  checkedAt : Option Timestamp := none
  deriving DecidableEq

structure AccessRow where
  characterId : Uuid
  marketId : Uuid
  details : Check := {}
  market : Check := {}
  deriving DecidableEq

namespace AccessRow

def key (r : AccessRow) : Uuid × Uuid := (r.characterId, r.marketId)

def check (r : AccessRow) : AccessDimension → Check
  | .details => r.details
  | .market => r.market

def put (dim : AccessDimension) (c : Check) (r : AccessRow) : AccessRow :=
  match dim with
  | .details => { r with details := c }
  | .market => { r with market := c }

end AccessRow

namespace Check

/-- `'ok'` before `'unknown'` before `'forbidden'`. -/
def rank (c : Check) : Nat :=
  match c.status with
  | .ok => 0
  | .unknown => 1
  | .forbidden => 2

/-- `ORDER BY status_rank, checked_at NULLS FIRST, id`. -/
def place (c : Check) (characterId : Uuid) : Nat ×ₗ WithBot Nat ×ₗ Nat :=
  toLex (c.rank, toLex (nullsFirst c.checkedAt, characterId))

/-- Old `'forbidden'` rows are retried after the backoff. -/
def eligible (backoff now : Nat) (c : Check) : Bool :=
  decide (c.status ≠ .forbidden) || c.checkedAt.all fun t => decide (t + backoff < now)

end Check

/-- The columns of `characters` that the selection reads. -/
structure Character where
  id : Uuid
  userId : Uuid
  scopes : List String
  deriving DecidableEq

/-- The columns of `markets` that the two citadel jobs read or set. -/
structure MarketRow where
  id : Uuid
  kind : MarketKind
  esiLocationId : Int
  isPublic : Bool
  lastOrdersSyncedAt : Option Timestamp
  detailsSyncedAt : Option Timestamp
  untrackableUntil : Option Timestamp
  deriving DecidableEq

structure PriceRow (P : Type) where
  marketId : Uuid
  typeId : Int
  aggregate : PriceAggregate P
  computedAt : Timestamp
  deriving DecidableEq

def PriceRow.key {P : Type} (r : PriceRow P) : Uuid × Int := (r.marketId, r.typeId)

structure Tables (P : Type) where
  characters : List Character := []
  memberships : List GroupMembership := []
  tracked : List TrackedMarket := []
  lists : List ListRow := []
  listItems : List ListItem := []
  listMarkets : List ListMarket := []
  markets : List MarketRow := []
  access : List AccessRow := []
  prices : List (PriceRow P) := []

namespace Tables
variable {P : Type}

/-- `COALESCE(csa.status, 'unknown')` and the time of the check. -/
def checkOf (s : Tables P) (dim : AccessDimension) (characterId marketId : Uuid) : Check :=
  ((lookup AccessRow.key (characterId, marketId) s.access).map fun r => r.check dim).getD {}

/-- `upsert_access`. -/
def upsertAccess (s : Tables P) (characterId marketId : Uuid) (status : AccessStatus)
    (dim : AccessDimension) (now : Timestamp) : Tables P :=
  { s with
    access :=
      if lookup AccessRow.key (characterId, marketId) s.access = none then
        s.access ++ [AccessRow.put dim ⟨status, some now⟩ ⟨characterId, marketId, {}, {}⟩]
      else
        updateWhere (fun r => decide (r.key = (characterId, marketId)))
          (AccessRow.put dim ⟨status, some now⟩) s.access }

/-- A group of the user has tracked the market. -/
def tracks (s : Tables P) (userId marketId : Uuid) : Bool :=
  s.memberships.any fun gm => decide (gm.userId = userId) &&
    s.tracked.any fun gtm => decide (gtm.groupId = gm.groupId) && decide (gtm.marketId = marketId)

/-- The characters with the scope, and of these those whose group has tracked the market. -/
def pool (s : Tables P) (marketId : Uuid) (scope : String) (requireGroupTracking : Bool) :
    List Uuid :=
  (s.characters.filter fun c => decide (scope ∈ c.scopes) &&
    (!requireGroupTracking || s.tracks c.userId marketId)).map Character.id

def selectCandidates (s : Tables P) (marketId : Uuid) (scope : String) (dim : AccessDimension)
    (backoff : Nat) (requireGroupTracking : Bool) (now : Timestamp) : List Uuid :=
  Base.Rota.pick (fun c => (s.checkOf dim c marketId).place c) 5
    ((s.pool marketId scope requireGroupTracking).filter fun c =>
      (s.checkOf dim c marketId).eligible backoff now)

def upsertPriceRow (row : PriceRow P) (s : Tables P) : Tables P :=
  { s with
    prices :=
      if lookup PriceRow.key row.key s.prices = none then s.prices ++ [row]
      else overwrite PriceRow.key row s.prices }

def setMarket (s : Tables P) (marketId : Uuid) (set : MarketRow → MarketRow) : Tables P :=
  { s with markets := updateWhere (fun m => decide (m.id = marketId)) set s.markets }

end Tables

def BATCH : Nat := 50
def ORDERS_SCOPE : String := "esi-markets.structure_markets.v1"

/-- `poll_intervals_secs.citadel_orders` and `structure_access_backoff`. -/
structure Config where
  cadence : Nat := 600
  backoff : Nat := 86400

structure DriverRow where
  marketId : Uuid
  esiLocationId : Int
  typeIds : List Int
  deriving DecidableEq

/-- `ORDER BY m.last_orders_synced_at NULLS FIRST`. -/
def oldestFirst (a b : MarketRow) : Prop :=
  nullsFirst a.lastOrdersSyncedAt ≤ nullsFirst b.lastOrdersSyncedAt

namespace Tables
variable {P : Type}

/-- The types that open lists with this market still want. -/
def wantedTypes (s : Tables P) (marketId : Uuid) : List Int :=
  ((s.listItems.filter fun li => (decide (li.status = .open) || decide (li.status = .claimed)) &&
    (s.lists.any fun l => decide (l.id = li.listId) && decide (l.status = .open)) &&
    s.listMarkets.any fun lm => decide (lm.listId = li.listId) && decide (lm.marketId = marketId)).map
      ListItem.typeId).dedup

def due (cfg : Config) (s : Tables P) (now : Timestamp) (m : MarketRow) : Bool :=
  decide (m.kind = .publicStructure) && m.isPublic &&
    (m.untrackableUntil.all fun t => decide (t < now)) &&
    (s.tracked.any fun t => decide (t.marketId = m.id)) &&
    (m.lastOrdersSyncedAt.all fun t => decide (t + cfg.cadence < now)) &&
    decide (s.wantedTypes m.id ≠ [])

def driverRows (cfg : Config) (order : OrderBy oldestFirst) (s : Tables P) (now : Timestamp) :
    List DriverRow :=
  (order.limit BATCH (s.markets.filter (s.due cfg now))).map fun m =>
    ⟨m.id, m.esiLocationId, s.wantedTypes m.id⟩

/-- The transaction of `refresh_many_for_citadel`. -/
def refreshManyForCitadel [LinearOrder P] (s : Tables P) (row : DriverRow)
    (orders : List (Order P)) (now : Timestamp) : Tables P :=
  let aggregates := Markets.Aggregation.refreshManyForCitadel row.typeIds orders
  let priced := row.typeIds.foldl (fun s typeId =>
    s.upsertPriceRow ⟨row.marketId, typeId, (aggregates typeId).getD .empty, now⟩) s
  priced.setMarket row.marketId fun m => { m with lastOrdersSyncedAt := some now }

end Tables

/-- What came of a candidate: no client could be built, ESI answered, or it refused with this
status, if that was an answer of the API at all. -/
inductive Answer (P : Type)
  | noClient
  | orders (rows : List (Order P))
  | refused (status : Option Int)

/-- `access_denied_count` and `transient_count`. -/
structure Tally where
  denied : Nat := 0
  transient : Nat := 0
  deriving DecidableEq

/-- How far `refresh_one` is: before its query, at the next of these candidates, or between an
answer and the access row that is written for it. -/
inductive Stage
  | waiting
  | asking (rest : List Uuid) (tally : Tally)
  | marking (characterId : Uuid) (status : AccessStatus) (rest : List Uuid) (tally : Tally)
  deriving DecidableEq

structure Walk where
  row : DriverRow
  stage : Stage
  deriving DecidableEq

def Walk.marketId (w : Walk) : Uuid := w.row.marketId

/-- The history: what ESI answered, what was written for it, and the walks that came to an end
without a success. -/
inductive Note
  | granted (characterId marketId : Uuid) (time : Timestamp)
  | denied (characterId marketId : Uuid) (time : Timestamp)
  | marked (characterId marketId : Uuid) (status : AccessStatus)
  | exhausted (marketId : Uuid)
  deriving DecidableEq

structure Site (P : Type) where
  tables : Tables P
  budget : Budget := {}
  now : Timestamp
  walks : List Walk := []
  history : List Note := []

/-- What requests change of the tables that the job reads. -/
structure Edit where
  characters : List Character
  memberships : List GroupMembership
  tracked : List TrackedMarket
  lists : List ListRow
  listItems : List ListItem
  listMarkets : List ListMarket

def Edit.on {P : Type} (e : Edit) (s : Tables P) : Tables P :=
  { s with
    characters := e.characters
    memberships := e.memberships
    tracked := e.tracked
    lists := e.lists
    listItems := e.listItems
    listMarkets := e.listMarkets }

inductive Event (P : Type)
  | tick (order : OrderBy oldestFirst)
  | select (marketId : Uuid)
  | ask (marketId : Uuid) (answer : Answer P)
  | mark (marketId : Uuid)
  | finish (marketId : Uuid)
  | abort (marketId : Uuid)
  | restart
  | wait (seconds : Nat)
  | reset
  | edit (e : Edit)
  | discover (new : List MarketRow) (isPublic : Uuid → Bool)
  | detail (marketId : Uuid)
  | checkDetails (characterId marketId : Uuid) (status : AccessStatus)
  | price (row : PriceRow P)

namespace Site
variable {P : Type}

def walkOf (s : Site P) (marketId : Uuid) : Option Walk := lookup Walk.marketId marketId s.walks

def setStage (s : Site P) (marketId : Uuid) (stage : Stage) : Site P :=
  { s with
    walks :=
      updateWhere (fun w => decide (w.marketId = marketId)) (fun w => { w with stage }) s.walks }

def endWalk (s : Site P) (marketId : Uuid) : Site P :=
  { s with walks := s.walks.filter fun w => decide (w.marketId ≠ marketId) }

variable (cfg : Config)

/-- The query of a tick; the one before has come to its end. -/
def tick (s : Site P) (order : OrderBy oldestFirst) : Except Unit (Site P) := do
  require (s.walks = [] ∧ s.budget.hasBudget = true) ()
  .ok { s with walks := (s.tables.driverRows cfg order s.now).map fun row => ⟨row, .waiting⟩ }

def select (s : Site P) (marketId : Uuid) : Except Unit (Site P) := do
  let w ← fetch () (s.walkOf marketId)
  require (w.stage = .waiting) ()
  let candidates :=
    s.tables.selectCandidates marketId ORDERS_SCOPE .market cfg.backoff true s.now
  if candidates = [] then .ok (s.endWalk marketId)
  else .ok (s.setStage marketId (.asking candidates {}))

def ask [LinearOrder P] (s : Site P) (marketId : Uuid) (answer : Answer P) :
    Except Unit (Site P) := do
  let w ← fetch () (s.walkOf marketId)
  match w.stage with
  | .asking (c :: rest) tally =>
    match answer with
    | .noClient =>
      .ok (s.setStage marketId (.asking rest { tally with transient := tally.transient + 1 }))
    | .orders rows =>
      .ok { s.setStage marketId (.marking c .ok rest tally) with
        tables := s.tables.refreshManyForCitadel w.row rows s.now
        history := .granted c marketId s.now :: s.history }
    | .refused (some 403) =>
      .ok { s.setStage marketId
            (.marking c .forbidden rest { tally with denied := tally.denied + 1 }) with
        budget := s.budget.recordNon2xx
        history := .denied c marketId s.now :: s.history }
    | .refused (some 404) =>
      .ok { s.endWalk marketId with
        budget := s.budget.recordNon2xx
        tables := s.tables.setMarket marketId fun m => { m with isPublic := false } }
    | .refused _ =>
      .ok { s.setStage marketId (.asking rest { tally with transient := tally.transient + 1 }) with
        budget := s.budget.recordNon2xx }
  | _ => .error ()

/-- The row for the answer. A success ends the walk. -/
def mark (s : Site P) (marketId : Uuid) : Except Unit (Site P) := do
  let w ← fetch () (s.walkOf marketId)
  match w.stage with
  | .marking c status rest tally =>
    let marked := { s with
      tables := s.tables.upsertAccess c marketId status .market s.now
      history := .marked c marketId status :: s.history }
    if status = .ok then .ok (marked.endWalk marketId)
    else .ok (marked.setStage marketId (.asking rest tally))
  | _ => .error ()

/-- No candidate is left: the citadel is paused when all were denied. -/
def finish (s : Site P) (marketId : Uuid) : Except Unit (Site P) := do
  let w ← fetch () (s.walkOf marketId)
  match w.stage with
  | .asking [] tally =>
    let tables :=
      if 0 < tally.denied ∧ tally.transient = 0 then
        s.tables.setMarket marketId fun m => { m with untrackableUntil := some (s.now + cfg.backoff) }
      else s.tables
    .ok { s.endWalk marketId with tables := tables, history := .exhausted marketId :: s.history }
  | _ => .error ()

/-- `citadel_discovery`: new rows, and which of the others are public. -/
def discover (s : Site P) (new : List MarketRow) (isPublic : Uuid → Bool) :
    Except Unit (Site P) := do
  let markets := s.tables.markets.map (fun m => { m with isPublic := isPublic m.id }) ++ new
  require (Keyed MarketRow.id markets) ()
  .ok { s with tables := { s.tables with markets := markets } }

/-- One step of the job, of a request or of another job. An `abort` is any error of the database;
the details of citadels are checked and stored by `citadel_details`, and prices by any job. -/
def step [LinearOrder P] : Event P → Site P → Except Unit (Site P)
  | .tick order, s => s.tick cfg order
  | .select marketId, s => s.select cfg marketId
  | .ask marketId answer, s => s.ask marketId answer
  | .mark marketId, s => s.mark marketId
  | .finish marketId, s => s.finish cfg marketId
  | .abort marketId, s => .ok (s.endWalk marketId)
  | .restart, s => .ok { s with walks := [] }
  | .wait seconds, s => .ok { s with now := s.now + seconds }
  | .reset, s => .ok { s with budget := s.budget.reset }
  | .edit e, s => do
    require (Keyed Character.id e.characters) ()
    .ok { s with tables := e.on s.tables }
  | .discover new isPublic, s => s.discover new isPublic
  | .detail marketId, s => .ok { s with
      tables := s.tables.setMarket marketId fun m => { m with detailsSyncedAt := some s.now } }
  | .checkDetails c marketId status, s => .ok { s with
      tables := s.tables.upsertAccess c marketId status .details s.now }
  | .price row, s => .ok { s with tables := s.tables.upsertPriceRow row }

end Site

section Reads
variable {P : Type} {s : Tables P}

@[simp] theorem AccessRow.key_put (dim : AccessDimension) (c : Check) (r : AccessRow) :
    (AccessRow.put dim c r).key = r.key := by
  cases dim <;> rfl

private theorem AccessRow.check_put (dim dim' : AccessDimension) (c : Check) (r : AccessRow) :
    (AccessRow.put dim c r).check dim' = if dim' = dim then c else r.check dim' := by
  cases dim <;> cases dim' <;> rfl

theorem Tables.checkOf_upsertAccess (c m : Uuid) (status : AccessStatus) (dim : AccessDimension)
    (now : Timestamp) (dim' : AccessDimension) (c' m' : Uuid) :
    (s.upsertAccess c m status dim now).checkOf dim' c' m' =
      if dim' = dim ∧ c' = c ∧ m' = m then ⟨status, some now⟩ else s.checkOf dim' c' m' := by
  unfold checkOf upsertAccess
  by_cases fresh : lookup AccessRow.key (c, m) s.access = none
  · simp only [fresh, if_true]
    have unused : lookup AccessRow.key
        (AccessRow.put dim ⟨status, some now⟩ ⟨c, m, {}, {}⟩).key s.access = none := by
      rw [AccessRow.key_put]
      exact fresh
    rw [lookup_append_singleton unused]
    simp only [AccessRow.key_put]
    by_cases own : c' = c ∧ m' = m
    · obtain ⟨rfl, rfl⟩ := own
      simp only [AccessRow.key, if_true, Option.map_some, Option.getD_some, AccessRow.check_put,
        fresh, Option.map_none, Option.getD_none, and_self, and_true]
      split
      · rfl
      · cases dim' <;> rfl
    · have other : (c', m') ≠ AccessRow.key ⟨c, m, {}, {}⟩ := by
        rintro same
        simp only [AccessRow.key, Prod.mk.injEq] at same
        exact own same
      rw [if_neg other, if_neg fun h => own h.2]
  · rw [if_neg fresh, lookup_updateWhere (fun r => AccessRow.key_put ..)]
    obtain ⟨row, found⟩ := Option.ne_none_iff_exists'.mp fresh
    by_cases own : c' = c ∧ m' = m
    · obtain ⟨rfl, rfl⟩ := own
      have keyed := (lookup_mem found).2
      simp only [found, Option.map_some, keyed, decide_true, if_true, Option.getD_some,
        AccessRow.check_put, and_self, and_true]
    · rw [if_neg fun h => own h.2, Option.map_map]
      congr 1
      cases other : lookup AccessRow.key (c', m') s.access with
      | none => rfl
      | some r =>
        have keyed := (lookup_mem other).2
        have apart : r.key ≠ (c, m) := by
          rw [keyed]
          simpa using own
        simp [apart]

def Tables.pause (s : Tables P) (m : Uuid) : Option Timestamp :=
  (lookup MarketRow.id m s.markets).bind MarketRow.untrackableUntil

theorem Tables.pause_setMarket {set : MarketRow → MarketRow} (id : ∀ r, (set r).id = r.id)
    (m m' : Uuid) : (s.setMarket m set).pause m' =
      (lookup MarketRow.id m' s.markets).bind fun r =>
        if m' = m then (set r).untrackableUntil else r.untrackableUntil := by
  unfold pause setMarket
  simp only
  rw [lookup_updateWhere id]
  cases found : lookup MarketRow.id m' s.markets with
  | none => rfl
  | some r =>
    obtain rfl := (lookup_mem found).2
    simp only [Option.map_some, Option.bind_some, decide_eq_true_eq]
    split <;> rfl

theorem Tables.keyed_setMarket {set : MarketRow → MarketRow} (id : ∀ r, (set r).id = r.id)
    (keyed : Keyed MarketRow.id s.markets) (m : Uuid) :
    Keyed MarketRow.id (s.setMarket m set).markets := keyed.updateWhere id

private theorem Tables.foldl_upsertPriceRow (f : Int → PriceRow P) (typeIds : List Int)
    (s : Tables P) :
    ∃ prices,
      typeIds.foldl (fun s typeId => s.upsertPriceRow (f typeId)) s = { s with prices } := by
  induction typeIds generalizing s with
  | nil => exact ⟨s.prices, rfl⟩
  | cons i is ih =>
    obtain ⟨prices, h⟩ := ih (s.upsertPriceRow (f i))
    exact ⟨prices, h⟩

theorem Tables.refreshManyForCitadel_eq [LinearOrder P] (row : DriverRow) (orders : List (Order P))
    (now : Timestamp) : ∃ prices, s.refreshManyForCitadel row orders now =
      ({ s with prices } : Tables P).setMarket row.marketId
        fun m => { m with lastOrdersSyncedAt := some now } := by
  obtain ⟨prices, h⟩ := foldl_upsertPriceRow (fun typeId => ⟨row.marketId, typeId,
    ((Markets.Aggregation.refreshManyForCitadel row.typeIds orders) typeId).getD .empty, now⟩)
    row.typeIds s
  exact ⟨prices, by rw [refreshManyForCitadel, h]⟩

theorem Site.walkOf_setStage (s : Site P) (m m' : Uuid) (stage : Stage) :
    (s.setStage m stage).walkOf m' =
      if m' = m then (s.walkOf m).map fun w => { w with stage } else s.walkOf m' := by
  have keep (w : Walk) : ({ w with stage } : Walk).marketId = w.marketId := rfl
  unfold walkOf setStage
  simp only
  rw [lookup_updateWhere keep]
  by_cases own : m' = m
  · subst own
    rw [if_pos rfl]
    refine Option.map_congr fun w hw => ?_
    rw [if_pos (decide_eq_true (lookup_mem hw).2)]
  · rw [if_neg own]
    cases found : lookup Walk.marketId m' s.walks with
    | none => rfl
    | some w =>
      have other : w.marketId ≠ m := (lookup_mem found).2 ▸ own
      simp [other]

theorem Site.walkOf_endWalk (s : Site P) (m m' : Uuid) :
    (s.endWalk m).walkOf m' = if m' = m then none else s.walkOf m' := by
  unfold walkOf endWalk
  rw [lookup_filter_ne]

end Reads

end JitaCart.Citadels
