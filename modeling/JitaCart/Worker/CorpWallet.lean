/- module: JitaCart/Worker/CorpWallet
   source: backend/crates/worker/src/jobs/corp_wallet.rs,
     backend/crates/settlement/src/lib.rs (verify_contract_against_journal)
   digest: The corp wallet tick: journal inserts, the contracts it queues, and their verification. -/

import JitaCart.Operations

/-!
The audit columns of contracts and reimbursements are kept beside the rows, under
the row's id: `wallet_verified_at` and `wallet_payout_aggregate_isk` are always set
together, and so are `verified_by_wallet` and `wallet_settlement_delta_isk`. No
other request writes them, and rows are born without them.

`limit1` stands for the unordered `LIMIT 1` of the payer query: any choice from the
candidate rows. Shares of a payout are exact quotients.
-/

set_option autoImplicit false
set_option relaxedAutoImplicit false

namespace JitaCart.Worker.CorpWallet

open Schema Base.Table Base.Request Base.Numeric Settlement Operations

structure JournalRow where
  corpId : Uuid
  division : Int
  esiJournalRefId : Int
  refType : String
  amount : Cents
  contextId : Option Int
  contextIdType : Option String
  deriving DecidableEq

def JournalRow.key (j : JournalRow) : Uuid × Int × Int := (j.corpId, j.division, j.esiJournalRefId)

/-- The database with the journal and the audit columns. -/
structure Wallets where
  db : Db
  journal : List JournalRow := []
  payout : Uuid → Option Cents := fun _ => none
  audit : Uuid → Option Cents := fun _ => none

/-- `context_id = $1 AND context_id_type = 'contract_id'`. -/
def refersTo (esiContractId : Int) (j : JournalRow) : Bool :=
  decide (j.contextId = some esiContractId) && decide (j.contextIdType = some "contract_id")

/-- The wallets whose entries count for a contract. -/
inductive Scope
  | division (corpId : Uuid) (division : Int)
  | corp (corpId : Uuid)
  | everywhere
  deriving DecidableEq

def Scope.admits : Scope → JournalRow → Bool
  | .division corpId d, j => decide (j.corpId = corpId) && decide (j.division = d)
  | .corp corpId, j => decide (j.corpId = corpId)
  | .everywhere, _ => true

def Scope.corp? : Scope → Option Uuid
  | .division corpId _ => some corpId
  | .corp corpId => some corpId
  | .everywhere => none

def boundPayers (s : Db) (cid : Uuid) : List Payer :=
  (s.reimbursements.filter (boundTo cid)).filterMap fun r => (s.list? r.listId).bind (·.payer)

/-- Payer corp and division when known, else the discovering corp, else no restriction. -/
def scopeOf (payer : Option Payer) (sourceCorpId : Option Uuid) : Scope :=
  match payer with
  | some p => .division p.corpId p.division
  | none =>
    match sourceCorpId with
    | some corpId => .corp corpId
    | none => .everywhere

/-- The rows that `SUM(ABS(amount))` ranges over. -/
def countsFor (scope : Scope) (esiContractId : Int) (j : JournalRow) : Bool :=
  refersTo esiContractId j && decide (j.refType = "contract_price") && scope.admits j

def payoutSum (journal : List JournalRow) (scope : Scope) (esiContractId : Int) : Cents :=
  sumWhere (countsFor scope esiContractId) (fun j => |j.amount|) journal

/-- `status IN ('pending', 'settled')` and bound to the contract. -/
def audited (cid : Uuid) (r : Reimbursement) : Bool :=
  boundTo cid r && (decide (r.status = .pending) || decide (r.status = .settled))

/-- `share.round_dp(2) - total_isk`: ties go to the even cent. -/
def walletDelta (payout total : Cents) (r : Reimbursement) : Cents :=
  let share : ℚ := if 0 < total then (payout : ℚ) * r.totalIsk / total else 0
  roundHalfEven share - r.totalIsk

section Verify
variable (limit1 : List Payer → Option Payer)

def scope (s : Db) (c : Contract) : Scope := scopeOf (limit1 (boundPayers s c.id)) c.sourceCorpId

def verifyContractAgainstJournal (w : Wallets) (cid : Uuid) : Except SettlementError Wallets :=
  match w.db.contract? cid with
  | none => .ok w
  | some c =>
    let payout := payoutSum w.journal (scope limit1 w.db c) c.esiContractId
    if 0 < payout then do
      require (Fits 20 payout) (.db .numericOverflow)
      let rows := w.db.reimbursements.filter (audited cid)
      let total := (rows.map (·.totalIsk)).sum
      require (∀ r ∈ rows, Fits 20 (walletDelta payout total r)) (.db .numericOverflow)
      .ok { w with
        payout := Function.update w.payout cid (some payout)
        audit := fun id =>
          match lookup Reimbursement.id id rows with
          | some r => some (walletDelta payout total r)
          | none => w.audit id }
    else .ok w

end Verify

/-- An entry as EVE's API returns it. -/
structure WalletEntry where
  id : Int
  refType : String
  amount : Option ℚ
  contextId : Option Int
  contextIdType : Option String
  deriving DecidableEq

inductive EsiReply (α : Type)
  | ok (a : α)
  | forbidden
  | failed

/-- What one ambassador gets to see. Entries carry whether their insert goes through, and
`balancesStored` and `queriesDone` say it of the statements before and after the inserts. -/
structure AmbassadorReply where
  authed : Bool
  balances : EsiReply (List Int)
  balancesStored : Bool
  journal : Int → EsiReply (List (WalletEntry × Bool))
  queriesDone : Bool

def WalletEntry.row (e : WalletEntry) (corpId : Uuid) (division : Int) : JournalRow where
  corpId := corpId
  division := division
  esiJournalRefId := e.id
  refType := e.refType
  amount := toScale 2 (e.amount.getD 0)
  contextId := e.contextId
  contextIdType := e.contextIdType

instance : LawfulBEq (Uuid × Int × Int) := inferInstance

/-- `INSERT … ON CONFLICT DO NOTHING RETURNING context_id`; the id is kept when the row is new
and names a contract. -/
def insertEntry (journal : List JournalRow) (row : JournalRow) : List JournalRow × Option Int :=
  if row.key ∈ journal.map JournalRow.key then (journal, none)
  else
    (journal ++ [row], if row.contextIdType = some "contract_id" then row.contextId else none)

/-- The entries of one division. An error stops the poll; what was inserted stays. -/
def insertEntries (corpId : Uuid) (division : Int) :
    List (WalletEntry × Bool) → List JournalRow → List Int → List JournalRow × Option (List Int)
  | [], journal, esiIds => (journal, some esiIds)
  | (e, stored) :: es, journal, esiIds =>
    let row := e.row corpId division
    if stored ∧ Fits 20 row.amount then
      let (journal, newId) := insertEntry journal row
      insertEntries corpId division es journal (esiIds ++ newId.toList)
    else (journal, none)

/-- The journals of all divisions; a 403 or another error gives up the collected ids. -/
def insertDivisions (corpId : Uuid) (answer : Int → EsiReply (List (WalletEntry × Bool))) :
    List Int → List JournalRow → List Int → List JournalRow × Option (List Int)
  | [], journal, esiIds => (journal, some esiIds)
  | d :: ds, journal, esiIds =>
    match answer d with
    | .forbidden => (journal, none)
    | .failed => (journal, none)
    | .ok entries =>
      match insertEntries corpId d entries journal esiIds with
      | (journal, none) => (journal, none)
      | (journal, some esiIds) => insertDivisions corpId answer ds journal esiIds

/-- `SELECT id FROM contracts WHERE esi_contract_id = ANY($1)`. -/
def resolveContracts (s : Db) (esiIds : List Int) : List Uuid :=
  (s.contracts.filter fun c => decide (c.esiContractId ∈ esiIds)).map (·.id)

/-- Contracts with entries in the corp's journal that were never verified, once per entry. -/
def backfill (w : Wallets) (corpId : Uuid) : List Uuid :=
  w.db.contracts.flatMap fun c =>
    if w.payout c.id = none then
      (w.journal.filter fun j => refersTo c.esiContractId j && decide (j.corpId = corpId)).map
        fun _ => c.id
    else []

/-- The ids a finished poll returns. -/
def collectContracts (w : Wallets) (corpId : Uuid) (esiIds : List Int) : List Uuid :=
  let contractIds := resolveContracts w.db esiIds
  contractIds ++ (backfill w corpId).filter fun id => decide (id ∉ contractIds)

/-- Each ambassador in turn. `none` stands for an error and for every `Ok(Vec::new())` that is not
the end of a finished poll. -/
def pollAmbassadors (w : Wallets) (corpId : Uuid) :
    List AmbassadorReply → Wallets × Option (List Uuid)
  | [] => (w, none)
  | a :: as =>
    if a.authed then
      match a.balances with
      | .forbidden => pollAmbassadors w corpId as
      | .failed => (w, none)
      | .ok divisions =>
        if a.balancesStored then
          match insertDivisions corpId a.journal divisions w.journal [] with
          | (journal, none) => ({ w with journal := journal }, none)
          | (journal, some esiIds) =>
            let w := { w with journal := journal }
            (w, if a.queriesDone then some (collectContracts w corpId esiIds) else none)
        else (w, none)
    else pollAmbassadors w corpId as

/-- One due corp: whether the error budget allows a call, and its usable ambassadors. -/
structure PollInput where
  corpId : Uuid
  hasBudget : Bool
  ambassadors : List AmbassadorReply

def pollOneCorpWallet (w : Wallets) (p : PollInput) : Wallets × Option (List Uuid) :=
  if p.hasBudget then pollAmbassadors w p.corpId p.ambassadors else (w, none)

/-- The polls of a tick, with what each of them returned. -/
def pollAll : List PollInput → Wallets → Wallets × List (Uuid × Option (List Uuid))
  | [], w => (w, [])
  | p :: ps, w =>
    let (w, ids) := pollOneCorpWallet w p
    let (w, rest) := pollAll ps w
    (w, (p.corpId, ids) :: rest)

/-- One verification in its own transaction; `commits` says whether that could begin and commit. -/
def verifyOne (limit1 : List Payer → Option Payer) (commits : Uuid → Bool) (w : Wallets)
    (id : Uuid) : Option Wallets :=
  if commits id then (verifyContractAgainstJournal limit1 w id).toOption else none

/-- The collected ids in turn. Returns those whose verification did not commit. -/
def verifyAll (limit1 : List Payer → Option Payer) (commits : Uuid → Bool) :
    List Uuid → Wallets → Wallets × List Uuid
  | [], w => (w, [])
  | id :: ids, w =>
    match verifyOne limit1 commits w id with
    | some w => verifyAll limit1 commits ids w
    | none =>
      let (w, failed) := verifyAll limit1 commits ids w
      (w, id :: failed)

/-- The due corps of a tick, each once, and the fate of its verifications. -/
structure TickInput where
  polls : List PollInput
  distinct : (polls.map (·.corpId)).Nodup
  commits : Uuid → Bool

structure TickReport where
  polls : List (Uuid × Option (List Uuid))
  failed : List Uuid

/-- The job: poll every due corp, then verify what the polls returned. -/
def tick (limit1 : List Payer → Option Payer) (input : TickInput) (w : Wallets) :
    Wallets × TickReport :=
  let (w, polls) := pollAll input.polls w
  let (w, failed) := verifyAll limit1 input.commits (polls.flatMap fun p => p.2.getD []) w
  (w, ⟨polls, failed⟩)

inductive Event
  | op (o : Op)
  | tick (input : TickInput)

/-- Requests and ticks, one after the other. -/
def step (limit1 : List Payer → Option Payer) : Event → Wallets → Except Refusal Wallets
  | .op o, w => do
    let db ← apply o w.db
    .ok { w with db := db }
  | .tick input, w => .ok (tick limit1 input w).1

end JitaCart.Worker.CorpWallet
