/- module: JitaCart/Worker/Tick
   source: backend/crates/worker/src/jobs/contracts.rs (run, poll_one_character),
     backend/crates/worker/src/jobs/corp_contracts.rs (run, poll_one_corp),
     backend/crates/worker/src/main.rs (drive_slot)
   digest: The two contract pollers as processes that share the database with the api. -/

import JitaCart.Operations

/-!
Each poller has a driver task of its own, so their ticks interleave with each
other and with requests. What a tick remembers between its transactions is in
memory only: the outcomes of its upserts, on which the terminal handlers run.
-/

set_option autoImplicit false
set_option relaxedAutoImplicit false

namespace JitaCart.Worker.Tick

open Schema Base.Request Settlement Operations Worker.Match Worker.Terminal

inductive Poller
  | character | corp
  deriving DecidableEq

/-- Where a poller is in its tick; between ticks it has polled nothing. -/
inductive Phase
  | polling (upserts : List UpsertedContract) (syncedIds : List Uuid)
  | matching (candidateIds : List Uuid) (upserts : List UpsertedContract)
  | handling (upserts : List UpsertedContract)
  deriving DecidableEq

namespace Phase

def idle : Phase := .polling [] []

/-- The upserts of the tick that the handler loop has not reached yet. -/
def upserts : Phase → List UpsertedContract
  | .polling us _ => us
  | .matching _ us => us
  | .handling us => us

/-- The upsert that the handler loop is at. -/
def current? : Phase → Option UpsertedContract
  | .handling (u :: _) => some u
  | _ => none

end Phase

structure World where
  db : Db := {}
  phase : Poller → Phase := fun _ => .idle

/-- The poller moves on, with the database as it leaves it. -/
def World.move (w : World) (p : Poller) (phase : Phase) (db : Db) : World where
  db := db
  phase q := if q = p then phase else w.phase q

/-- The transaction of `poll_one_character` and of `poll_one_corp`: the upserts of one response,
all committed or none. -/
def upsertBatch : Db → List (ContractUpsert × Uuid) →
    Except SettlementError (List UpsertedContract × Db)
  | s, [] => .ok ([], s)
  | s, (u, newId) :: batch => do
    let (o, s₁) ← upsertContract s u newId
    let (us, s₂) ← upsertBatch s₁ batch
    .ok (.ofOutcome o :: us, s₂)

/-- Requests of the api; the other operations are steps of the pollers. -/
def isRequest : Op → Bool
  | .upsertContract .. | .syncItemsFor .. | .runOne .. | .handleContractTerminal ..
  | .settleViaContract .. | .unbindContract .. => false
  | _ => true

inductive Event
  | request (o : Op)
  /-- One response polled and committed. -/
  | poll (p : Poller) (batch : List (ContractUpsert × Uuid))
  /-- The same, but the task fails after its commit and reports nothing. -/
  | pollLost (p : Poller) (batch : List (ContractUpsert × Uuid))
  /-- One contract of `sync_pending_items`, which only the character poller runs. -/
  | syncItems (contractId : Uuid) (items : List ContractItem) (now : Timestamp)
  /-- On to the matcher, to the handlers, or to the end of the tick. -/
  | advance (p : Poller)
  | matchOne (p : Poller) (contractId : Uuid) (newId : Uuid → Uuid)
  | matchFails (p : Poller) (contractId : Uuid)
  | handle (p : Poller) (now : Timestamp)
  | handleFails (p : Poller)
  /-- The process dies, or the tick returns early with an error. -/
  | crash (p : Poller)

inductive Halt
  | outOfTurn
  | refused (cause : Refusal)
  deriving DecidableEq

/-- The end of a step that fails is a warning in the log; the tick goes on without its effect. -/
def orKeep {ε : Type} (s : Db) : Except ε Db → Db
  | .ok s' => s'
  | .error _ => s

def step : Event → World → Except Halt World
  | .request o, w =>
    if isRequest o then do
      let s ← (apply o w.db).mapError .refused
      .ok { w with db := s }
    else .error .outOfTurn
  | .poll p batch, w =>
    match w.phase p with
    | .polling us synced => do
      let (new, s) ← (upsertBatch w.db batch).mapError (.refused ∘ .settlement)
      .ok (w.move p (.polling (us ++ new) synced) s)
    | _ => .error .outOfTurn
  | .pollLost p batch, w =>
    match w.phase p with
    | .polling us synced => do
      let (_, s) ← (upsertBatch w.db batch).mapError (.refused ∘ .settlement)
      .ok (w.move p (.polling us synced) s)
    | _ => .error .outOfTurn
  | .syncItems cid items now, w =>
    match w.phase .character with
    | .polling us synced => do
      let s ← (syncItemsFor w.db cid items now).mapError (.refused ∘ .db)
      .ok (w.move .character (.polling us (synced ++ [cid])) s)
    | _ => .error .outOfTurn
  | .advance p, w =>
    match w.phase p with
    | .polling us synced =>
      .ok (w.move p (.matching (us.map (·.contractId) ++ synced).dedup us) w.db)
    | .matching [] us => .ok (w.move p (.handling us) w.db)
    | .handling [] => .ok (w.move p .idle w.db)
    | _ => .error .outOfTurn
  | .matchOne p cid newId, w =>
    match w.phase p with
    | .matching ids us =>
      if cid ∈ ids then
        .ok (w.move p (.matching (ids.erase cid) us) (orKeep w.db (runOne w.db cid newId)))
      else .error .outOfTurn
    | _ => .error .outOfTurn
  | .matchFails p cid, w =>
    match w.phase p with
    | .matching ids us => .ok (w.move p (.matching (ids.erase cid) us) w.db)
    | _ => .error .outOfTurn
  | .handle p now, w =>
    match w.phase p with
    | .handling (u :: us) =>
      if u.statusChanged then
        .ok (w.move p (.handling us) (orKeep w.db (handleContractTerminal w.db u now)))
      else .ok (w.move p (.handling us) w.db)
    | _ => .error .outOfTurn
  | .handleFails p, w =>
    match w.phase p with
    | .handling (_ :: us) => .ok (w.move p (.handling us) w.db)
    | _ => .error .outOfTurn
  | .crash p, w => .ok (w.move p .idle w.db)

/-- The system after a run of events from the empty database, both pollers idle. -/
def system (events : List Event) : World := run step {} events

end JitaCart.Worker.Tick
