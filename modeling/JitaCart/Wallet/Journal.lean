/- module: JitaCart/Wallet/Journal
   source: backend/crates/api/src/corps.rs (list_journal)
   digest: The corp journal as its readers page through it. -/

import JitaCart.Api.Corps
import JitaCart.Base.Paging
import JitaCart.Worker.CorpWallet

/-!
The query orders entries by their dates alone, so each call brings an order of
its own for entries of equal date.
-/

set_option autoImplicit false
set_option relaxedAutoImplicit false

namespace JitaCart.Wallet.Journal

open Schema Base.Request Base.Select Base.Paging Api.Corps

/-- A row of `corp_wallet_journal` with the columns that are shown. -/
structure JournalRow extends Worker.CorpWallet.JournalRow where
  id : Uuid
  date : Timestamp
  balance : Cents
  firstPartyId : Option Int
  secondPartyId : Option Int
  reason : Option String
  rawJson : String
  deriving DecidableEq

structure JournalQuery where
  limit : Int := 200
  before : Option Timestamp := none
  division : Option Int := none

structure JournalEntryDto where
  id : Uuid
  division : Int
  esiJournalRefId : Int
  date : Timestamp
  refType : String
  amount : Cents
  balance : Cents
  firstPartyId : Option Int
  secondPartyId : Option Int
  contextId : Option Int
  contextIdType : Option String
  reason : Option String
  rawJson : Option String
  deriving DecidableEq

def JournalRow.toDto (fullVisibility : Bool) (j : JournalRow) : JournalEntryDto where
  id := j.id
  division := j.division
  esiJournalRefId := j.esiJournalRefId
  date := j.date
  refType := j.refType
  amount := j.amount
  balance := j.balance
  firstPartyId := j.firstPartyId
  secondPartyId := j.secondPartyId
  contextId := j.contextId
  contextIdType := j.contextIdType
  reason := j.reason
  rawJson := if fullVisibility then some j.rawJson else none

/-- The user has an enabled ambassador in the corp. -/
def isAmbassador (r : Registry) (corpId userId : Uuid) : Bool :=
  r.corpAmbassadors.any fun a => decide (a.corpId = corpId) && a.enabled &&
    r.characters.any fun c => decide (c.id = a.characterId ∧ c.userId = userId)

def isOwner (r : Registry) (groupId userId : Uuid) : Bool :=
  r.groupMemberships.any fun m =>
    decide (m.groupId = groupId ∧ m.userId = userId ∧ m.role = .owner)

/-- `corp_id = $1 AND ($4::smallint IS NULL OR division = $4)`. -/
def matching (journal : List JournalRow) (corpId : Uuid) (division : Option Int) :
    List JournalRow :=
  journal.filter fun j =>
    decide (j.corpId = corpId) && division.all fun d => decide (j.division = d)

/-- `limit.clamp(1, 500)`. -/
def pageSize (limit : Int) : Nat := (max 1 (min limit 500)).toNat

/-- `CurrentGroup`, the link between group and corp, and who may see the journal. -/
def authorize (r : Registry) (userId groupId corpId : Uuid) : Except ApiError Bool := do
  let _ ← currentGroup r userId groupId
  requireCorpInGroup r groupId corpId
  let fullVisibility := isAmbassador r corpId userId || isOwner r groupId userId
  require (fullVisibility = true) .noAccess
  .ok fullVisibility

def listJournal (r : Registry) (journal : List JournalRow)
    (order : OrderBy (Newest JournalRow.date)) (userId groupId corpId : Uuid) (q : JournalQuery) :
    Except ApiError (List JournalEntryDto) := do
  let fullVisibility ← authorize r userId groupId corpId
  let rows := order.limit (pageSize q.limit)
    (remaining JournalRow.date (matching journal corpId q.division) q.before)
  .ok (rows.map (JournalRow.toDto fullVisibility))

/-- A client that passes the date of the last entry it received as `before`, until a page is
empty; `none` if that takes more than `calls` calls. -/
def readJournal (r : Registry) (journal : List JournalRow)
    (orders : Nat → OrderBy (Newest JournalRow.date)) (userId groupId corpId : Uuid) (limit : Int)
    (division : Option Int) (calls : Nat) : Except ApiError (Option (List JournalEntryDto)) :=
  walk (fun call before =>
    listJournal r journal (orders call) userId groupId corpId ⟨limit, before, division⟩)
    JournalEntryDto.date calls 0 none

variable {r : Registry} {userId groupId corpId : Uuid} {fullVisibility : Bool}

private theorem pageSize_pos (limit : Int) : 1 ≤ pageSize limit := by
  unfold pageSize
  omega

private theorem authorize_visibility (h : authorize r userId groupId corpId = .ok fullVisibility) :
    fullVisibility = true := by
  simp only [authorize, bind_eq_ok, require_eq_ok, Except.ok.injEq] at h
  obtain ⟨_, _, _, _, _, visible, rfl⟩ := h
  exact visible

/-- An authorized client receives every matching entry exactly once, whatever order entries of
equal date come in, exactly when no page ends between two of them. -/
theorem journal_received_iff (h : authorize r userId groupId corpId = .ok fullVisibility)
    (journal : List JournalRow) (orders : Nat → OrderBy (Newest JournalRow.date)) (limit : Int)
    (division : Option Int) (calls : Nat)
    (enough : (matching journal corpId division).length < calls) :
    ∃ received, readJournal r journal orders userId groupId corpId limit division calls =
        .ok (some received) ∧
      (received.Perm ((matching journal corpId division).map (JournalRow.toDto true)) ↔
        Separated (pageSize limit)
          (newestDates JournalRow.date (matching journal corpId division))) := by
  obtain rfl := authorize_visibility h
  have everything : remaining JournalRow.date (matching journal corpId division) none =
      matching journal corpId division := by
    simp [remaining]
  have pages : Pages (fun call before => listJournal r journal (orders call) userId groupId corpId
      ⟨limit, before, division⟩) (pageSize limit) JournalRow.date (JournalRow.toDto true)
      (matching journal corpId division) := by
    intro call before
    refine ⟨orders call, ?_⟩
    simp only [listJournal, h, bind, Except.bind]
  have enough' : (remaining JournalRow.date (matching journal corpId division) none).length <
      calls := by
    rw [everything]
    exact enough
  have render : ∀ j : JournalRow, JournalEntryDto.date (j.toDto true) = j.date := fun _ => rfl
  obtain ⟨received, hwalk, _, exact_⟩ :=
    walk_spec pages render (pageSize_pos limit) calls 0 none enough'
  rw [everything] at exact_
  exact ⟨received, hwalk, exact_⟩

def ownedCorp : Registry where
  groupMemberships := [⟨1, 1, .owner⟩]
  groupCorps := [⟨1, 1, 0, 1, none⟩]

def entry (id : Uuid) (date : Timestamp) : JournalRow :=
  ⟨⟨1, 1, id, "player_donation", 100, none, none⟩, id, date, 0, none, none, none, "\x7b\x7d"⟩

def insertionOrders (_ : Nat) : OrderBy (Newest JournalRow.date) := OrderBy.insertion _

theorem journal_received_iff_three_dates :
    ∃ received, readJournal ownedCorp [entry 1 10, entry 2 30, entry 3 20] insertionOrders 1 1 1 2
        none 4 = .ok (some received) ∧
      (received.Perm ((matching [entry 1 10, entry 2 30, entry 3 20] 1 none).map
          (JournalRow.toDto true)) ↔
        Separated (pageSize 2) (newestDates JournalRow.date
          (matching [entry 1 10, entry 2 30, entry 3 20] 1 none))) :=
  journal_received_iff (by rfl) _ _ _ _ 4 (by decide)

/-- Of two entries of equal date, a client with a limit of one receives only the first. -/
theorem tied_entry_skipped :
    readJournal ownedCorp [entry 1 10, entry 2 10] insertionOrders 1 1 1 1 none 3 =
        .ok (some [(entry 1 10).toDto true]) ∧
      ¬ [(entry 1 10).toDto true].Perm
        ((matching [entry 1 10, entry 2 10] 1 none).map (JournalRow.toDto true)) := by
  refine ⟨by rfl, fun received => ?_⟩
  exact absurd received.length_eq (by decide)

end JitaCart.Wallet.Journal
