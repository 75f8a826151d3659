/- module: JitaCart/Wallet/Polls
   source: backend/crates/worker/src/jobs/corp_wallet.rs (poll_one_corp_wallet)
   digest: Which journal rows the polls of a tick leave behind, and which contracts they collect. -/

import JitaCart.Worker.CorpWallet
import Mathlib.Tactic.Set

set_option autoImplicit false
set_option relaxedAutoImplicit false

namespace JitaCart.Wallet

open Schema Base.Table Base.Numeric Worker.CorpWallet

/-- The rows of one division before an insert fails, and whether none fails. -/
def deliveredEntries (corpId : Uuid) (division : Int) :
    List (WalletEntry × Bool) → List JournalRow × Bool
  | [] => ([], true)
  | (e, stored) :: es =>
    let row := e.row corpId division
    if stored ∧ Fits 20 row.amount then
      let (rows, done) := deliveredEntries corpId division es
      (row :: rows, done)
    else ([], false)

/-- The rows of all divisions before an answer or an insert fails. -/
def deliveredDivisions (corpId : Uuid) (answer : Int → EsiReply (List (WalletEntry × Bool))) :
    List Int → List JournalRow × Bool
  | [] => ([], true)
  | d :: ds =>
    match answer d with
    | .forbidden => ([], false)
    | .failed => ([], false)
    | .ok entries =>
      match deliveredEntries corpId d entries with
      | (rows, false) => (rows, false)
      | (rows, true) =>
        let (more, done) := deliveredDivisions corpId answer ds
        (rows ++ more, done)

/-- The rows that the first usable ambassador gets to insert, and whether the poll finishes. -/
def deliveredBy (corpId : Uuid) : List AmbassadorReply → List JournalRow × Bool
  | [] => ([], false)
  | a :: as =>
    if a.authed then
      match a.balances with
      | .forbidden => deliveredBy corpId as
      | .failed => ([], false)
      | .ok divisions =>
        if a.balancesStored then
          let (rows, done) := deliveredDivisions corpId a.journal divisions
          (rows, done && a.queriesDone)
        else ([], false)
    else deliveredBy corpId as

/-- What a poll brings, read off the answers alone. -/
def delivered (p : PollInput) : List JournalRow × Bool :=
  if p.hasBudget then deliveredBy p.corpId p.ambassadors else ([], false)

/-- The inserts of a list of rows, with the contract ids of the new ones. -/
def insertRows : List JournalRow → List JournalRow → List JournalRow × List Int
  | [], journal => (journal, [])
  | row :: rows, journal =>
    let (journal, newId) := insertEntry journal row
    let (journal, ids) := insertRows rows journal
    (journal, newId.toList ++ ids)

theorem insertRows_append (rows more journal : List JournalRow) :
    insertRows (rows ++ more) journal =
      ((insertRows more (insertRows rows journal).1).1,
        (insertRows rows journal).2 ++ (insertRows more (insertRows rows journal).1).2) := by
  induction rows generalizing journal with
  | nil => simp [insertRows]
  | cons row rows ih => simp [insertRows, ih, List.append_assoc]

private theorem insertEntries_eq (corpId : Uuid) (d : Int) (es : List (WalletEntry × Bool))
    (journal : List JournalRow) (ids : List Int) :
    insertEntries corpId d es journal ids =
      ((insertRows (deliveredEntries corpId d es).1 journal).1,
        if (deliveredEntries corpId d es).2 then
          some (ids ++ (insertRows (deliveredEntries corpId d es).1 journal).2) else none) := by
  induction es generalizing journal ids with
  | nil => simp [insertEntries, deliveredEntries, insertRows]
  | cons e es ih =>
    obtain ⟨e, stored⟩ := e
    by_cases h : stored = true ∧ Fits 20 (e.row corpId d).amount
    · simp [insertEntries, deliveredEntries, h, ih, insertRows, List.append_assoc]
    · simp only [insertEntries, deliveredEntries, if_neg h, insertRows]
      rfl

private theorem insertDivisions_eq (corpId : Uuid)
    (answer : Int → EsiReply (List (WalletEntry × Bool)))
    (ds : List Int) (journal : List JournalRow) (ids : List Int) :
    insertDivisions corpId answer ds journal ids =
      ((insertRows (deliveredDivisions corpId answer ds).1 journal).1,
        if (deliveredDivisions corpId answer ds).2 then
          some (ids ++ (insertRows (deliveredDivisions corpId answer ds).1 journal).2) else none) := by
  induction ds generalizing journal ids with
  | nil => simp [insertDivisions, deliveredDivisions, insertRows]
  | cons d ds ih =>
    cases ha : answer d with
    | forbidden => simp [insertDivisions, deliveredDivisions, ha, insertRows]
    | failed => simp [insertDivisions, deliveredDivisions, ha, insertRows]
    | ok entries =>
      simp only [insertDivisions, deliveredDivisions, ha, insertEntries_eq]
      rcases hd : deliveredEntries corpId d entries with ⟨rows, done⟩
      cases done with
      | false => simp
      | true => simp [ih, insertRows_append, List.append_assoc]

theorem pollOneCorpWallet_eq (w : Wallets) (p : PollInput) :
    pollOneCorpWallet w p =
      ({ w with journal := (insertRows (delivered p).1 w.journal).1 },
        if (delivered p).2 then
          some (collectContracts { w with journal := (insertRows (delivered p).1 w.journal).1 }
            p.corpId (insertRows (delivered p).1 w.journal).2)
        else none) := by
  unfold pollOneCorpWallet delivered
  split
  · induction p.ambassadors with
    | nil => simp [pollAmbassadors, deliveredBy, insertRows]
    | cons a as ih =>
      by_cases hauth : a.authed = true
      · cases hb : a.balances with
        | forbidden =>
          simp only [pollAmbassadors, deliveredBy, hauth, hb, if_true]
          exact ih
        | failed => simp [pollAmbassadors, deliveredBy, hauth, hb, insertRows]
        | ok divisions =>
          by_cases hstored : a.balancesStored = true
          · simp only [pollAmbassadors, deliveredBy, hauth, hb, hstored, if_true,
              insertDivisions_eq, List.nil_append]
            cases hdone : (deliveredDivisions p.corpId a.journal divisions).2 <;> simp
          · simp [pollAmbassadors, deliveredBy, hauth, hb, hstored, insertRows]
      · simp only [pollAmbassadors, deliveredBy, hauth]
        exact ih
  · simp [insertRows]

/-- The journal only grows, by rows under new keys, and reports the contracts they name. -/
private theorem insertRows_spec (rows journal : List JournalRow) :
    ∃ new, (insertRows rows journal).1 = journal ++ new ∧
      ∀ j ∈ new, j ∈ rows ∧ j.key ∉ journal.map JournalRow.key ∧
        ∀ esi, refersTo esi j = true → esi ∈ (insertRows rows journal).2 := by
  induction rows generalizing journal with
  | nil => exact ⟨[], by simp [insertRows], by simp⟩
  | cons row rows ih =>
    by_cases known : row.key ∈ journal.map JournalRow.key
    · obtain ⟨new, hnew, each⟩ := ih journal
      have skip : insertRows (row :: rows) journal = insertRows rows journal := by
        simp [insertRows, insertEntry, known]
      rw [skip]
      refine ⟨new, hnew, fun j hj => ?_⟩
      obtain ⟨hmem, fresh, ids⟩ := each j hj
      exact ⟨List.mem_cons_of_mem _ hmem, fresh, ids⟩
    · obtain ⟨new, hnew, each⟩ := ih (journal ++ [row])
      have taken : insertRows (row :: rows) journal =
          ((insertRows rows (journal ++ [row])).1,
            (if row.contextIdType = some "contract_id" then row.contextId else none).toList ++
              (insertRows rows (journal ++ [row])).2) := by
        simp [insertRows, insertEntry, known]
      rw [taken]
      refine ⟨row :: new, by simp [hnew], fun j hj => ?_⟩
      rcases List.mem_cons.mp hj with rfl | hj
      · refine ⟨List.mem_cons_self, known, fun esi refers => ?_⟩
        simp only [refersTo, Bool.and_eq_true, decide_eq_true_eq] at refers
        simp [refers]
      · obtain ⟨hmem, fresh, ids⟩ := each j hj
        refine ⟨List.mem_cons_of_mem _ hmem, fun old => fresh ?_, fun esi refers => ?_⟩
        · simp only [List.map_append, List.mem_append]
          exact .inl old
        · exact List.mem_append_right _ (ids esi refers)

section Delivered
variable {corpId : Uuid} {j : JournalRow}

private theorem mem_deliveredEntries {d : Int} {es : List (WalletEntry × Bool)}
    (h : j ∈ (deliveredEntries corpId d es).1) : j.corpId = corpId := by
  induction es with
  | nil => cases h
  | cons e es ih =>
    obtain ⟨e, stored⟩ := e
    unfold deliveredEntries at h
    dsimp only at h
    split at h
    · rcases List.mem_cons.mp h with rfl | h
      · rfl
      · exact ih h
    · cases h

private theorem mem_deliveredDivisions {answer : Int → EsiReply (List (WalletEntry × Bool))}
    {ds : List Int} (h : j ∈ (deliveredDivisions corpId answer ds).1) : j.corpId = corpId := by
  induction ds with
  | nil => cases h
  | cons d ds ih =>
    unfold deliveredDivisions at h
    split at h
    · cases h
    · cases h
    · split at h
      · rename_i rows hrows
        apply mem_deliveredEntries
        rw [hrows]
        exact h
      · rename_i rows hrows
        rcases List.mem_append.mp h with h | h
        · apply mem_deliveredEntries
          rw [hrows]
          exact h
        · exact ih h

private theorem mem_deliveredBy {as : List AmbassadorReply} (h : j ∈ (deliveredBy corpId as).1) :
    j.corpId = corpId := by
  induction as with
  | nil => cases h
  | cons a as ih =>
    unfold deliveredBy at h
    split at h
    · split at h
      · exact ih h
      · cases h
      · split at h
        · exact mem_deliveredDivisions h
        · cases h
    · exact ih h

private theorem mem_delivered {p : PollInput} (h : j ∈ (delivered p).1) : j.corpId = p.corpId := by
  unfold delivered at h
  split at h
  · exact mem_deliveredBy h
  · cases h

end Delivered

/-- A new row: a poll brought it, and if that poll finished it collected the contracts named. -/
def Brought (w : Wallets) (polls : List PollInput) (report : List (Uuid × Option (List Uuid)))
    (j : JournalRow) : Prop :=
  ∃ p ∈ polls, j ∈ (delivered p).1 ∧ j.key ∉ w.journal.map JournalRow.key ∧
    ((delivered p).2 = true → ∀ c ∈ w.db.contracts, refersTo c.esiContractId j = true →
      c.id ∈ report.flatMap fun x => x.2.getD [])

/-- After the polls of a tick: what is new in the journal and what was collected for it. -/
structure Polled (w : Wallets) (polls : List PollInput) (w' : Wallets)
    (report : List (Uuid × Option (List Uuid))) : Prop where
  db : w'.db = w.db
  payout : w'.payout = w.payout
  audit : w'.audit = w.audit
  grows : ∃ new, w'.journal = w.journal ++ new ∧ ∀ j ∈ new, Brought w polls report j
  backfilled : ∀ corpId ids, (corpId, some ids) ∈ report → ∀ c ∈ w.db.contracts,
    w.payout c.id = none → ∀ j ∈ w'.journal, j.corpId = corpId →
      refersTo c.esiContractId j = true → c.id ∈ ids

private theorem mem_collectContracts_of_new {w : Wallets} {corpId : Uuid} {ids : List Int}
    {c : Contract} (hc : c ∈ w.db.contracts) (h : c.esiContractId ∈ ids) :
    c.id ∈ collectContracts w corpId ids := by
  refine List.mem_append_left _ (List.mem_map_of_mem (List.mem_filter.mpr ⟨hc, ?_⟩))
  simpa using h

private theorem mem_collectContracts_of_unverified {w : Wallets} {corpId : Uuid} {ids : List Int}
    {c : Contract} {j : JournalRow} (hc : c ∈ w.db.contracts) (unverified : w.payout c.id = none)
    (hj : j ∈ w.journal) (hcorp : j.corpId = corpId) (refers : refersTo c.esiContractId j = true) :
    c.id ∈ collectContracts w corpId ids := by
  by_cases seen : c.id ∈ resolveContracts w.db ids
  · exact List.mem_append_left _ seen
  · refine List.mem_append_right _ (List.mem_filter.mpr ⟨?_, by simpa using seen⟩)
    refine List.mem_flatMap.mpr ⟨c, hc, ?_⟩
    rw [if_pos unverified]
    exact List.mem_map.mpr ⟨j, List.mem_filter.mpr ⟨hj, by simp [refers, hcorp]⟩, rfl⟩

theorem polled_pollAll (polls : List PollInput) (w : Wallets)
    (distinct : (polls.map (·.corpId)).Nodup) :
    Polled w polls (pollAll polls w).1 (pollAll polls w).2 := by
  induction polls generalizing w with
  | nil =>
    constructor
    case grows => exact ⟨[], by simp [pollAll], by simp⟩
    case backfilled => simp [pollAll]
    all_goals rfl
  | cons p ps ih =>
    obtain ⟨apart, distinct⟩ := List.nodup_cons.mp distinct
    obtain ⟨new, hnew, each⟩ := insertRows_spec (delivered p).1 w.journal
    set w₁ : Wallets := { w with journal := (insertRows (delivered p).1 w.journal).1 } with hw₁
    have rest := ih w₁ distinct
    have head : pollAll (p :: ps) w = ((pollAll ps w₁).1,
        (p.corpId, if (delivered p).2 then
          some (collectContracts w₁ p.corpId (insertRows (delivered p).1 w.journal).2) else none) ::
            (pollAll ps w₁).2) := by
      simp only [pollAll, pollOneCorpWallet_eq, ← hw₁]
    rw [head]
    have journal₁ : w₁.journal = w.journal ++ new := hnew
    obtain ⟨more, hmore, later⟩ := rest.grows
    constructor
    case db => exact rest.db
    case payout => exact rest.payout
    case audit => exact rest.audit
    case grows =>
      refine ⟨new ++ more, by rw [hmore, journal₁, List.append_assoc], fun j hj => ?_⟩
      rcases List.mem_append.mp hj with hj | hj
      · obtain ⟨hmem, fresh, ids⟩ := each j hj
        refine ⟨p, List.mem_cons_self, hmem, fresh, fun done c hc refers => ?_⟩
        rw [if_pos done]
        exact List.mem_append_left _ (mem_collectContracts_of_new hc (ids _ refers))
      · obtain ⟨p', hp', hmem, fresh, collected⟩ := later j hj
        refine ⟨p', List.mem_cons_of_mem _ hp', hmem, fun old => fresh ?_, ?_⟩
        · rw [journal₁, List.map_append]
          exact List.mem_append_left _ old
        · intro done c hc refers
          exact List.mem_append_right _ (collected done c hc refers)
    case backfilled =>
      intro corpId ids hreport c hc unverified j hj hcorp refers
      rcases List.mem_cons.mp hreport with hhead | htail
      · obtain ⟨rfl, hids⟩ : corpId = p.corpId ∧ _ := by simpa using hhead
        have early : j ∈ w₁.journal := by
          rw [hmore] at hj
          rcases List.mem_append.mp hj with hj | hj
          · exact hj
          · obtain ⟨p', hp', hmem, -, -⟩ := later j hj
            have same : p'.corpId = p.corpId := (mem_delivered hmem).symm.trans hcorp
            exact absurd (List.mem_map.mpr ⟨p', hp', same⟩) apart
        rw [hids.2]
        exact mem_collectContracts_of_unverified hc unverified early hcorp refers
      · exact rest.backfilled corpId ids htail c hc unverified j hj hcorp refers

end JitaCart.Wallet
