/- module: JitaCart/Wallet/Verification
   source: backend/crates/worker/src/jobs/corp_wallet.rs (run),
     backend/crates/settlement/src/lib.rs (verify_contract_against_journal)
   digest: When every contract with wallet entries carries their sum and its debts are verified. -/

import JitaCart.Wallet.Bindings
import JitaCart.Wallet.Polls

/-!
A contract is verified again when a poll inserts an entry that names it, or while it
was never verified. The invariant is therefore about verified contracts: their payout is the
sum of the entries that count for them, and no bound debt was left out.
-/

set_option autoImplicit false
set_option relaxedAutoImplicit false

namespace JitaCart.Wallet

open Schema Base.Table Base.Request Base.Numeric Settlement Operations Books Contracts
open Worker.CorpWallet

section Limit
variable (limit1 : List Payer → Option Payer)

/-- The sum that a verification of the contract would write. -/
def payoutFor (w : Wallets) (c : Contract) : Cents :=
  payoutSum w.journal (scope limit1 w.db c) c.esiContractId

/-- The payout is current and every bound debt is verified. -/
def UpToDate (w : Wallets) (c : Contract) : Prop :=
  w.payout c.id = some (payoutFor limit1 w c) ∧ ∀ b ∈ boundRows w.db c.id, w.audit b.1 ≠ none

/-- Payout and deltas fit their `numeric(20, 2)` columns. -/
def Storable (w : Wallets) (c : Contract) : Prop :=
  Fits 20 (payoutFor limit1 w c) ∧
    ∀ r ∈ w.db.reimbursements.filter (audited c.id), Fits 20 (walletDelta (payoutFor limit1 w c)
      ((w.db.reimbursements.filter (audited c.id)).map (·.totalIsk)).sum r)

def journalAfter (input : TickInput) (w : Wallets) : List JournalRow :=
  (insertRows (input.polls.flatMap fun p => (delivered p).1) w.journal).1

/-- Accepted requests leave verified contracts alone: none is linked, none loses a corp-funded
pending debt, and none without a payer changes its discovering corp. -/
def LeavesVerified (w : Wallets) (o : Op) : Prop :=
  (apply o w.db).toBool = true →
    (∀ cid ∈ links w.db o, w.payout cid = none) ∧
    (∀ cid ∈ detaches o, w.payout cid = none ∨ pendingPayers w.db cid = []) ∧
    ∀ u ∈ upserts o, ∀ c ∈ w.db.contracts, c.esiContractId = u.esiContractId →
      w.payout c.id = none ∨ u.sourceCorpId.or c.sourceCorpId = c.sourceCorpId ∨
        (limit1 (boundPayers w.db c.id)).isSome = true

/-- Prices are not zero, and new entries that count for a verified contract come with a poll that
finishes and a verification that commits. -/
def BringsWhole (w : Wallets) (input : TickInput) : Prop :=
  ∀ p ∈ input.polls, ∀ j ∈ (delivered p).1,
    (j.refType = "contract_price" → j.amount ≠ 0) ∧
    (j.key ∉ w.journal.map JournalRow.key → ∀ c ∈ w.db.contracts, w.payout c.id ≠ none →
      countsFor (scope limit1 w.db c) c.esiContractId j = true →
        (delivered p).2 = true ∧ input.commits c.id = true ∧
          Storable limit1 { w with journal := journalAfter input w } c)

def Undisturbed (w : Wallets) : Event → Prop
  | .op o => LeavesVerified limit1 w o
  | .tick input => BringsWhole limit1 w input

instance (w : Wallets) (c : Contract) : Decidable (Storable limit1 w c) := by
  unfold Storable
  infer_instance

instance (w : Wallets) (o : Op) : Decidable (LeavesVerified limit1 w o) := by
  unfold LeavesVerified
  infer_instance

instance (w : Wallets) (input : TickInput) : Decidable (BringsWhole limit1 w input) := by
  unfold BringsWhole
  infer_instance

instance (w : Wallets) : (e : Event) → Decidable (Undisturbed limit1 w e)
  | .op o => inferInstanceAs (Decidable (LeavesVerified limit1 w o))
  | .tick input => inferInstanceAs (Decidable (BringsWhole limit1 w input))

/-- What every run that leaves verified contracts undisturbed keeps. -/
structure Inv (w : Wallets) : Prop where
  books : (ledger w.db).Ok
  contracts : Keyed Contract.id w.db.contracts
  known : ∀ cid, w.payout cid ≠ none → ∃ c ∈ w.db.contracts, c.id = cid
  prices : ∀ j ∈ w.journal, j.refType = "contract_price" → j.amount ≠ 0
  current : ∀ c ∈ w.db.contracts, w.payout c.id ≠ none → UpToDate limit1 w c

end Limit

section Verify
variable {limit1 : List Payer → Option Payer} {w w' : Wallets}

/-- A verification writes payouts that are current and takes no audit back. -/
structure Verified (limit1 : List Payer → Option Payer) (w w' : Wallets) : Prop where
  db : w'.db = w.db
  journal : w'.journal = w.journal
  audit : ∀ id, w.audit id ≠ none → w'.audit id ≠ none
  payout : ∀ c ∈ w.db.contracts, UpToDate limit1 w' c ∨ w'.payout c.id = w.payout c.id
  known : ∀ cid, w'.payout cid ≠ none → w.payout cid ≠ none ∨ ∃ c ∈ w.db.contracts, c.id = cid

private theorem payoutFor_congr {c : Contract} (db : w'.db = w.db)
    (journal : w'.journal = w.journal) :
    payoutFor limit1 w' c = payoutFor limit1 w c := by
  unfold payoutFor
  rw [db, journal]

private theorem UpToDate.verified {c : Contract} (h : UpToDate limit1 w c) (hc : c ∈ w.db.contracts)
    (v : Verified limit1 w w') : UpToDate limit1 w' c := by
  rcases v.payout c hc with current | same
  · exact current
  · refine ⟨?_, fun b hb => ?_⟩
    · rw [same, payoutFor_congr v.db v.journal]
      exact h.1
    · rw [v.db] at hb
      exact v.audit _ (h.2 b hb)

private theorem Verified.refl (w : Wallets) : Verified limit1 w w :=
  ⟨rfl, rfl, fun _ h => h, fun _ _ => .inr rfl, fun _ h => .inl h⟩

private theorem Verified.trans {w₁ w₂ : Wallets} (h : Verified limit1 w w₁)
    (h' : Verified limit1 w₁ w₂) :
    Verified limit1 w w₂ := by
  refine ⟨h'.db.trans h.db, h'.journal.trans h.journal, fun id hid => h'.audit id (h.audit id hid),
    fun c hc => ?_, fun cid hcid => ?_⟩
  · have hc₁ : c ∈ w₁.db.contracts := h.db.symm ▸ hc
    rcases h.payout c hc with current | same
    · exact .inl (current.verified hc₁ h')
    · rcases h'.payout c hc₁ with current | same'
      · exact .inl current
      · exact .inr (same'.trans same)
  · rcases h'.known cid hcid with old | ⟨c, hc, hid⟩
    · exact h.known cid old
    · exact .inr ⟨c, h.db ▸ hc, hid⟩

private theorem audit_boundRows (books : (ledger w.db).Ok) {cid : Uuid} {b : Uuid × Uuid}
    (hb : b ∈ boundRows w.db cid) :
    (lookup Reimbursement.id b.1 (w.db.reimbursements.filter (audited cid))).isSome = true := by
  obtain ⟨r, hr, rfl⟩ := List.mem_map.mp hb
  obtain ⟨hmem, bound⟩ := List.mem_filter.mp hr
  apply lookup_isSome_of_mem
  refine List.mem_filter.mpr ⟨hmem, ?_⟩
  have live := noCancelled books r hmem
  cases hs : r.status <;> simp_all [audited]

private theorem verify_ok {cid : Uuid} (books : (ledger w.db).Ok)
    (keyed : Keyed Contract.id w.db.contracts)
    (h : verifyContractAgainstJournal limit1 w cid = .ok w') :
    Verified limit1 w w' ∧ ∀ c ∈ w.db.contracts, c.id = cid → 0 < payoutFor limit1 w c →
      UpToDate limit1 w' c := by
  unfold verifyContractAgainstJournal at h
  cases hc : w.db.contract? cid with
  | none =>
    rw [hc] at h
    cases h
    refine ⟨.refl w, fun c hmem hid => ?_⟩
    exact absurd hid (lookup_eq_none.mp hc c hmem)
  | some c =>
    rw [hc] at h
    obtain ⟨hmem, rfl⟩ := lookup_mem hc
    have only : ∀ c' ∈ w.db.contracts, c'.id = c.id → c' = c := fun c' hc' hid =>
      keyed.eq_of_key hc' hmem hid
    dsimp only at h
    split at h
    · rename_i positive
      obtain ⟨_, _, h⟩ := bind_eq_ok.mp h
      obtain ⟨_, _, h⟩ := bind_eq_ok.mp h
      have written := Except.ok.inj h
      have fresh : UpToDate limit1 w' c := by
        subst written
        refine ⟨Function.update_self .., fun b hb => ?_⟩
        obtain ⟨r, hr⟩ := Option.isSome_iff_exists.mp (audit_boundRows books hb)
        simp [hr]
      subst written
      refine ⟨⟨rfl, rfl, fun id hid => ?_, fun c' hc' => ?_, fun cid hcid => ?_⟩,
        fun c' hc' hid _ => ?_⟩
      · dsimp only
        split
        · simp
        · exact hid
      · by_cases hid : c'.id = c.id
        · obtain rfl := only c' hc' hid
          exact .inl fresh
        · exact .inr (Function.update_of_ne hid ..)
      · by_cases hid : cid = c.id
        · exact .inr ⟨c, hmem, hid.symm⟩
        · dsimp only at hcid
          rw [Function.update_of_ne hid] at hcid
          exact .inl hcid
      · obtain rfl := only c' hc' hid
        exact fresh
    · rename_i nonpositive
      cases h
      refine ⟨.refl w, fun c' hc' hid positive => ?_⟩
      obtain rfl := only c' hc' hid
      exact absurd positive nonpositive

private theorem verify_storable {c : Contract} (keyed : Keyed Contract.id w.db.contracts)
    (hc : c ∈ w.db.contracts) (storable : Storable limit1 w c) :
    ∃ w', verifyContractAgainstJournal limit1 w c.id = .ok w' := by
  have found : w.db.contract? c.id = some c := (lookup_eq_some keyed).mpr ⟨hc, rfl⟩
  unfold verifyContractAgainstJournal
  rw [found]
  dsimp only
  split
  · exact ⟨_, bind_eq_ok.mpr ⟨(), require_eq_ok.mpr storable.1,
      bind_eq_ok.mpr ⟨(), require_eq_ok.mpr storable.2, rfl⟩⟩⟩
  · exact ⟨w, rfl⟩

/-- The verifications of a tick: what was collected and did not fail is up to date. -/
private theorem verifyAll_spec (limit1 : List Payer → Option Payer) (commits : Uuid → Bool)
    (ids : List Uuid) (w : Wallets)
    (books : (ledger w.db).Ok) (keyed : Keyed Contract.id w.db.contracts) :
    Verified limit1 w (verifyAll limit1 commits ids w).1 ∧
      (∀ c ∈ w.db.contracts, c.id ∈ ids → c.id ∉ (verifyAll limit1 commits ids w).2 →
        0 < payoutFor limit1 w c → UpToDate limit1 (verifyAll limit1 commits ids w).1 c) ∧
      ∀ c ∈ w.db.contracts, commits c.id = true → Storable limit1 w c →
        c.id ∉ (verifyAll limit1 commits ids w).2 := by
  induction ids generalizing w with
  | nil => exact ⟨.refl w, by simp, by simp [verifyAll]⟩
  | cons id ids ih =>
    cases hv : verifyOne limit1 commits w id with
    | some w₁ =>
      have eq : verifyAll limit1 commits (id :: ids) w = verifyAll limit1 commits ids w₁ := by
        simp [verifyAll, hv]
      have ok : verifyContractAgainstJournal limit1 w id = .ok w₁ := by
        unfold verifyOne at hv
        split at hv
        · cases hx : verifyContractAgainstJournal limit1 w id <;> simp_all [Except.toOption]
        · cases hv
      obtain ⟨first, fresh⟩ := verify_ok books keyed ok
      obtain ⟨rest, collected, safe⟩ := ih w₁ (first.db.symm ▸ books) (first.db.symm ▸ keyed)
      rw [eq]
      refine ⟨first.trans rest, fun c hc hid hfail positive => ?_, fun c hc commit storable => ?_⟩
      · have hc₁ : c ∈ w₁.db.contracts := first.db.symm ▸ hc
        rcases List.mem_cons.mp hid with rfl | hid
        · exact (fresh c hc rfl positive).verified hc₁ rest
        · refine collected c hc₁ hid hfail ?_
          rw [payoutFor_congr first.db first.journal]
          exact positive
      · refine safe c (first.db.symm ▸ hc) commit ?_
        unfold Storable
        rw [payoutFor_congr first.db first.journal, first.db]
        exact storable
    | none =>
      have eq : verifyAll limit1 commits (id :: ids) w =
          ((verifyAll limit1 commits ids w).1, id :: (verifyAll limit1 commits ids w).2) := by
        simp [verifyAll, hv]
      obtain ⟨rest, collected, safe⟩ := ih w books keyed
      rw [eq]
      refine ⟨rest, fun c hc hid hfail positive => ?_, fun c hc commit storable => ?_⟩
      · rw [List.mem_cons, not_or] at hfail
        exact collected c hc ((List.mem_cons.mp hid).resolve_left hfail.1) hfail.2 positive
      · rw [List.mem_cons, not_or]
        refine ⟨?_, safe c hc commit storable⟩
        rintro rfl
        obtain ⟨w', hw'⟩ := verify_storable keyed hc storable
        simp [verifyOne, commit, hw', Except.toOption] at hv

end Verify

section Requests
variable {limit1 : List Payer → Option Payer} {w : Wallets} {s' : Db}

private theorem UpToDate.request {c c' : Contract} (h : UpToDate limit1 w c) (hid : c'.id = c.id)
    (hesi : c'.esiContractId = c.esiContractId)
    (hscope : scope limit1 s' c' = scope limit1 w.db c)
    (rows : ∀ b ∈ boundRows s' c.id, b ∈ boundRows w.db c.id) :
    UpToDate limit1 { w with db := s' } c' := by
  refine ⟨?_, fun b hb => h.2 b (rows b (hid ▸ hb))⟩
  unfold payoutFor
  rw [hid, hesi, hscope]
  exact h.1

private theorem current_request (inv : Inv limit1 w) {o : Op} (notUpsert : upserts o = none)
    (safe : Undisturbed limit1 w (.op o)) (h : apply o w.db = .ok s') :
    ∀ c' ∈ s'.contracts, w.payout c'.id ≠ none → UpToDate limit1 { w with db := s' } c' := by
  intro c' hc' verified
  obtain ⟨unlinked, detached, -⟩ := safe (by rw [h]; rfl)
  have tied := tied_of_ok inv.books notUpsert h
  obtain ⟨c, hc, same⟩ := exists_of_map_eq tied.contracts.symm hc'
  obtain ⟨hid, hesi, hsource⟩ : c.id = c'.id ∧ c.esiContractId = c'.esiContractId ∧
      c.sourceCorpId = c'.sourceCorpId := by simpa [origin] using same
  rw [← hid] at verified
  have old := inv.current c hc verified
  have unlinked : links w.db o ≠ some c.id := fun linked => verified (unlinked c.id linked)
  have frame : boundPayers s' c.id = boundPayers w.db c.id ∧
      ∀ b ∈ boundRows s' c.id, b ∈ boundRows w.db c.id := by
    by_cases detach : detaches o = some c.id
    · obtain ⟨rows, lists⟩ := detached_of_ok detach h
      have personal := (detached c.id detach).resolve_left verified
      exact ⟨boundPayers_unbind rows lists personal, boundRows_unbind rows⟩
    · have apart : ¬ (links w.db o = some c.id ∨ detaches o = some c.id) :=
        fun touched => touched.elim unlinked detach
      refine ⟨tied.boundPayers apart, fun b hb => ?_⟩
      rw [← tied.rows c.id apart]
      exact hb
  refine old.request hid.symm hesi.symm ?_ frame.2
  unfold scope
  rw [← hid, frame.1, hsource]

private theorem current_upsertContract (inv : Inv limit1 w) {u : ContractUpsert} {newId : Uuid}
    {out : ContractUpsertOutcome} (safe : Undisturbed limit1 w (.op (.upsertContract u newId)))
    (h : upsertContract w.db u newId = .ok (out, s')) :
    ∀ c' ∈ s'.contracts, w.payout c'.id ≠ none → UpToDate limit1 { w with db := s' } c' := by
  have accepted : apply (.upsertContract u newId) w.db = .ok s' := by simp [apply, h]
  obtain ⟨-, -, sources⟩ := safe (by rw [accepted]; rfl)
  intro c' hc' verified
  rcases upsertContract_ok h with ⟨c₀, hc₀, -, rfl⟩ | ⟨fresh, -, rfl⟩
  · obtain ⟨hmem₀, hesi₀⟩ := lookup_mem hc₀
    obtain ⟨c, hc, rfl⟩ := mem_updateWhere.mp hc'
    by_cases hid : c.id = c₀.id
    · obtain rfl := inv.contracts.eq_of_key hc hmem₀ hid
      rw [if_pos (by simp)] at verified ⊢
      have old := inv.current c hc verified
      refine old.request rfl rfl ?_ fun b hb => hb
      rcases sources u rfl c hc hesi₀ with unverified | same | payer
      · exact absurd unverified verified
      · change scopeOf (limit1 (boundPayers w.db c.id)) (u.sourceCorpId.or c.sourceCorpId) = _
        rw [same]
        rfl
      · obtain ⟨p, hp⟩ := Option.isSome_iff_exists.mp payer
        change scopeOf (limit1 (boundPayers w.db c.id)) _ =
          scopeOf (limit1 (boundPayers w.db c.id)) _
        rw [hp]
        rfl
    · rw [if_neg (by simpa using hid)] at verified ⊢
      exact (inv.current c hc verified).request rfl rfl rfl fun b hb => hb
  · rcases List.mem_append.mp hc' with hc | hc
    · exact (inv.current c' hc verified).request rfl rfl rfl fun b hb => hb
    · rw [List.mem_singleton.mp hc] at verified
      obtain ⟨c, hc, hid⟩ := inv.known newId verified
      exact absurd hid (lookup_eq_none.mp fresh c hc)

private theorem inv_request (inv : Inv limit1 w) {o : Op} (safe : Undisturbed limit1 w (.op o))
    (h : apply o w.db = .ok s') : Inv limit1 { w with db := s' } := by
  have books := ledgerOk_step w.db o s' inv.books h
  cases hup : upserts o with
  | none =>
    have origins := (tied_of_ok inv.books hup h).contracts
    refine ⟨books, ?_, fun cid hcid => ?_, inv.prices, current_request (w := w) inv hup safe h⟩
    · refine inv.contracts.of_map_eq ?_
      have ids := congrArg (List.map Prod.fst) origins
      simpa [List.map_map, Function.comp_def, origin] using ids
    · obtain ⟨c, hc, rfl⟩ := inv.known cid hcid
      obtain ⟨c', hc', same⟩ := exists_of_map_eq origins hc
      exact ⟨c', hc', congrArg Prod.fst same⟩
  | some u =>
    cases o with
    | upsertContract u' newId =>
      obtain rfl := Option.some.inj hup
      obtain ⟨out, hout⟩ : ∃ out, upsertContract w.db u' newId = .ok (out, s') := by
        simpa [apply] using h
      refine ⟨books, keyed_upsertContract inv.contracts hout, fun cid hcid => ?_, inv.prices,
        current_upsertContract (w := w) inv safe hout⟩
      obtain ⟨c, hc, rfl⟩ := inv.known cid hcid
      rcases upsertContract_ok hout with ⟨c₀, -, -, rfl⟩ | ⟨-, -, rfl⟩
      · refine ⟨_, mem_updateWhere_of_mem hc, ?_⟩
        split <;> rfl
      · exact ⟨c, List.mem_append_left _ hc, rfl⟩
    | _ => cases hup

end Requests

section Ticks
variable {limit1 : List Payer → Option Payer} {w : Wallets}

private theorem pollAll_journal (polls : List PollInput) (w : Wallets) :
    (pollAll polls w).1.journal =
      (insertRows (polls.flatMap fun p => (delivered p).1) w.journal).1 := by
  induction polls generalizing w with
  | nil => rfl
  | cons p ps ih =>
    rw [List.flatMap_cons, insertRows_append]
    simp only [pollAll, pollOneCorpWallet_eq, ih]

private theorem payoutFor_pos {c : Contract} {j : JournalRow}
    (prices : ∀ j ∈ w.journal, j.refType = "contract_price" → j.amount ≠ 0) (hj : j ∈ w.journal)
    (counts : countsFor (scope limit1 w.db c) c.esiContractId j = true) :
    0 < payoutFor limit1 w c := by
  have price : j.refType = "contract_price" := by
    simp only [countsFor, Bool.and_eq_true, decide_eq_true_eq] at counts
    exact counts.1.2
  obtain ⟨before, after, split⟩ := List.append_of_mem hj
  have nonneg : ∀ t : List JournalRow,
      0 ≤ sumWhere (countsFor (scope limit1 w.db c) c.esiContractId) (fun j => |j.amount|) t :=
    fun t => sumWhere_nonneg fun _ _ _ => abs_nonneg _
  have here : 0 < |j.amount| := abs_pos.mpr (prices j hj price)
  unfold payoutFor payoutSum
  rw [split, sumWhere_append, sumWhere_cons, if_pos counts]
  linarith [nonneg before, nonneg after]

private theorem payoutFor_grown {w' : Wallets} {c : Contract} {new : List JournalRow}
    (db : w'.db = w.db) (journal : w'.journal = w.journal ++ new)
    (idle : ∀ j ∈ new, countsFor (scope limit1 w.db c) c.esiContractId j = false) :
    payoutFor limit1 w' c = payoutFor limit1 w c := by
  unfold payoutFor payoutSum
  rw [db, journal, sumWhere_append, sumWhere_eq_zero idle, Int.add_zero]

section Halves
variable {input : TickInput} {w₁ w₂ : Wallets} {report : List (Uuid × Option (List Uuid))}

private theorem prices_polled (inv : Inv limit1 w) (safe : Undisturbed limit1 w (.tick input))
    (polled : Polled w input.polls w₁ report) :
    ∀ j ∈ w₁.journal, j.refType = "contract_price" → j.amount ≠ 0 := by
  obtain ⟨new, hnew, brought⟩ := polled.grows
  intro j hj
  rw [hnew] at hj
  rcases List.mem_append.mp hj with hj | hj
  · exact inv.prices j hj
  · obtain ⟨p, hp, hmem, -, -⟩ := brought j hj
    exact (safe p hp j hmem).1

private theorem refersTo_of_counts {scope : Scope} {esi : Int} {j : JournalRow}
    (counts : countsFor scope esi j = true) : refersTo esi j = true := by
  simp only [countsFor, Bool.and_eq_true] at counts
  exact counts.1.1

/-- A verified contract that a tick has news of is verified again in it. -/
private theorem current_tick (inv : Inv limit1 w) (safe : Undisturbed limit1 w (.tick input))
    (polled : Polled w input.polls w₁ report) (journal₁ : w₁.journal = journalAfter input w)
    (verified : Verified limit1 w₁ w₂)
    (collected : ∀ c ∈ w₁.db.contracts, c.id ∈ (report.flatMap fun p => p.2.getD []) →
      input.commits c.id = true → Storable limit1 w₁ c → 0 < payoutFor limit1 w₁ c →
        UpToDate limit1 w₂ c)
    {c : Contract} (hc : c ∈ w.db.contracts) (stamped : w₂.payout c.id ≠ none) :
    UpToDate limit1 w₂ c := by
  have hc₁ : c ∈ w₁.db.contracts := polled.db.symm ▸ hc
  rcases verified.payout c hc₁ with current | same
  · exact current
  rw [same, polled.payout] at stamped
  have old := inv.current c hc stamped
  obtain ⟨new, hnew, brought⟩ := polled.grows
  by_cases idle : ∀ j ∈ new, countsFor (scope limit1 w.db c) c.esiContractId j = false
  · refine ⟨?_, fun b hb => verified.audit _ ?_⟩
    · rw [same, polled.payout, payoutFor_congr verified.db verified.journal,
        payoutFor_grown polled.db hnew idle]
      exact old.1
    · rw [polled.audit]
      rw [verified.db, polled.db] at hb
      exact old.2 b hb
  · -- a new entry counts, so the poll collected the contract and its verification commits
    push Not at idle
    obtain ⟨j, hj, counts⟩ := idle
    have counts : countsFor (scope limit1 w.db c) c.esiContractId j = true := by simpa using counts
    have hj₁ : j ∈ w₁.journal := hnew ▸ List.mem_append_right _ hj
    obtain ⟨p, hp, hmem, fresh, found⟩ := brought j hj
    obtain ⟨done, commit, storable⟩ := (safe p hp j hmem).2 fresh c hc stamped counts
    refine collected c hc₁ (found done c hc (refersTo_of_counts counts)) commit ?_ ?_
    · have same₁ : w₁ = { w with journal := journalAfter input w } := by
        obtain ⟨db, journal, payout, audit⟩ := w₁
        obtain rfl := polled.db
        obtain rfl := polled.payout
        obtain rfl := polled.audit
        obtain rfl := journal₁
        rfl
      rw [same₁]
      exact storable
    · exact payoutFor_pos (prices_polled inv safe polled) hj₁ (polled.db.symm ▸ counts)

end Halves

/-- A tick keeps the invariant, and where its poll of a corp finished and every verification
committed, the contracts with entries in that corp's wallet are up to date. -/
private theorem tick_spec (inv : Inv limit1 w) (input : TickInput)
    (safe : Undisturbed limit1 w (.tick input)) :
    Inv limit1 (tick limit1 input w).1 ∧ (tick limit1 input w).1.db = w.db ∧
      ((tick limit1 input w).2.failed = [] → ∀ corpId ids,
        (corpId, some ids) ∈ (tick limit1 input w).2.polls → ∀ c ∈ w.db.contracts,
          ∀ j ∈ (tick limit1 input w).1.journal, j.corpId = corpId →
            countsFor (scope limit1 w.db c) c.esiContractId j = true →
              UpToDate limit1 (tick limit1 input w).1 c) := by
  have polled := polled_pollAll input.polls w input.distinct
  have journal₁ : (pollAll input.polls w).1.journal = journalAfter input w :=
    pollAll_journal input.polls w
  unfold tick
  generalize hpoll : pollAll input.polls w = polledPair at *
  obtain ⟨w₁, report⟩ := polledPair
  dsimp only at polled journal₁ ⊢
  obtain ⟨verified, collected, committed⟩ := verifyAll_spec limit1 input.commits
    (report.flatMap fun p => p.2.getD []) w₁ (polled.db.symm ▸ inv.books)
    (polled.db.symm ▸ inv.contracts)
  generalize verifyAll limit1 input.commits (report.flatMap fun p => p.2.getD []) w₁ = pair at *
  obtain ⟨w₂, failed⟩ := pair
  dsimp only at verified collected committed ⊢
  have db₂ : w₂.db = w.db := verified.db.trans polled.db
  have current : ∀ c ∈ w.db.contracts, w₂.payout c.id ≠ none → UpToDate limit1 w₂ c := by
    intro c hc stamped
    refine current_tick inv safe polled journal₁ verified ?_ hc stamped
    exact fun c hc₁ hid commit storable positive =>
      collected c hc₁ hid (committed c hc₁ commit storable) positive
  refine ⟨⟨db₂.symm ▸ inv.books, db₂.symm ▸ inv.contracts, ?_, ?_, ?_⟩, db₂, ?_⟩
  · intro cid hcid
    rw [db₂]
    rcases verified.known cid hcid with old | known
    · rw [polled.payout] at old
      exact inv.known cid old
    · rw [polled.db] at known
      exact known
  · rw [verified.journal]
    exact prices_polled inv safe polled
  · intro c hc stamped
    exact current c (db₂ ▸ hc) stamped
  · intro none_failed corpId ids hreport c hc j hj hcorp counts
    have hc₁ : c ∈ w₁.db.contracts := polled.db.symm ▸ hc
    rw [verified.journal] at hj
    by_cases stamped : w₂.payout c.id = none
    · -- never verified before, so the backfill collected it
      have unverified : w.payout c.id = none := by
        rcases verified.payout c hc₁ with fresh | same
        · rw [fresh.1] at stamped
          cases stamped
        · rw [← polled.payout, ← same]
          exact stamped
      have found : c.id ∈ report.flatMap fun p => p.2.getD [] :=
        List.mem_flatMap.mpr ⟨_, hreport, polled.backfilled corpId ids hreport c hc unverified j hj
          hcorp (refersTo_of_counts counts)⟩
      refine collected c hc₁ found (by rw [none_failed]; exact List.not_mem_nil) ?_
      exact payoutFor_pos (prices_polled inv safe polled) hj (polled.db.symm ▸ counts)
    · exact current c hc stamped

end Ticks

/-- Every contract with entries in the corp's wallet carries their sum, and every pending or
settled debt bound to it is verified. -/
def WalletComplete (limit1 : List Payer → Option Payer) (w : Wallets) (corpId : Uuid) : Prop :=
  ∀ c ∈ w.db.contracts, (scope limit1 w.db c).corp? = some corpId →
    (∃ j ∈ w.journal, countsFor (scope limit1 w.db c) c.esiContractId j = true) →
      w.payout c.id = some (payoutSum w.journal (scope limit1 w.db c) c.esiContractId) ∧
        ∀ r ∈ w.db.reimbursements, audited c.id r = true → w.audit r.id ≠ none

instance (limit1 : List Payer → Option Payer) (w : Wallets) (corpId : Uuid) :
    Decidable (WalletComplete limit1 w corpId) := by
  unfold WalletComplete
  infer_instance

def noWallets : Wallets where
  db := empty

private theorem inv_noWallets (limit1 : List Payer → Option Payer) : Inv limit1 noWallets where
  books := ledgerOk_empty
  contracts := List.nodup_nil
  known cid hcid := absurd rfl hcid
  prices j hj := by cases hj
  current c hc := by cases hc

private theorem inv_step {limit1 : List Payer → Option Payer} (w : Wallets) (e : Event)
    (w' : Wallets)
    (inv : Inv limit1 w) (safe : Undisturbed limit1 w e) (h : step limit1 e w = .ok w') :
    Inv limit1 w' := by
  cases e with
  | op o =>
    obtain ⟨db, hdb, h⟩ := bind_eq_ok.mp h
    cases h
    exact inv_request inv safe hdb
  | tick input =>
    cases h
    exact (tick_spec inv input safe).1

private theorem corpId_of_counts {scope : Scope} {esi : Int} {corpId : Uuid} {j : JournalRow}
    (confined : scope.corp? = some corpId) (counts : countsFor scope esi j = true) :
    j.corpId = corpId := by
  simp only [countsFor, Bool.and_eq_true] at counts
  have admitted := counts.2
  cases scope with
  | division c d =>
    obtain rfl := Option.some.inj confined
    simp only [Scope.admits, Bool.and_eq_true, decide_eq_true_eq] at admitted
    exact admitted.1
  | corp c =>
    obtain rfl := Option.some.inj confined
    simpa [Scope.admits] using admitted
  | everywhere => cases confined

/-- After a tick that finished its poll of the corp and committed every verification, the corp's
wallet is complete, in every run that leaves verified contracts undisturbed. -/
theorem wallet_verification_complete (limit1 : List Payer → Option Payer) {events : List Event}
    {input : TickInput} {corpId : Uuid} {ids : List Uuid}
    (safe : Meets (step limit1) (Undisturbed limit1) noWallets (events ++ [.tick input]))
    (finished : (corpId, some ids) ∈
      (tick limit1 input (run (step limit1) noWallets events)).2.polls)
    (committed : (tick limit1 input (run (step limit1) noWallets events)).2.failed = []) :
    WalletComplete limit1 (run (step limit1) noWallets (events ++ [.tick input])) corpId := by
  obtain ⟨before, last, -⟩ := meets_append.mp safe
  have inv : Inv limit1 (run (step limit1) noWallets events) :=
    meets_invariant inv_step (inv_noWallets limit1) before
  obtain ⟨-, db, current⟩ := tick_spec inv input last
  have final : run (step limit1) noWallets (events ++ [.tick input]) =
      (tick limit1 input (run (step limit1) noWallets events)).1 := run_append _ _ _
  rw [final]
  intro c hc confined ⟨j, hj, counts⟩
  rw [db] at hc confined counts
  obtain ⟨payout, rows⟩ :=
    current committed corpId ids finished c hc j hj (corpId_of_counts confined counts) counts
  refine ⟨payout, fun r hr bound => rows (r.id, r.listId) (List.mem_map.mpr ⟨r, ?_, rfl⟩)⟩
  exact List.mem_filter.mpr ⟨hr, (Bool.and_eq_true_iff.mp bound).1⟩

/-- A purchase, the contract that corp 7 discovered for it, and the link. -/
def corpDeal : List Event :=
  [.op (.directory sampleDirectory),
    .op (.create sampleLimits 1 1 [⟨34, "Tritanium", 10, 1⟩] 1 [1]),
    .op (.recordFulfillment 3 1 1 (samplePurchase 5 1) ⟨1, 1, 0⟩),
    .op (.upsertContract { sampleContract .outstanding with sourceCorpId := some 7 } 1),
    .op (.doManualLink 3 1 1 1 1)]

/-- Corp 7's wallet shows the price of the contract. -/
def priceEntry : WalletEntry := ⟨100, "contract_price", some (-10), some 9, some "contract_id"⟩

def walletTick : TickInput where
  polls := [⟨7, true, [⟨true, .ok [1], true, fun _ => .ok [(priceEntry, true)], true⟩]⟩]
  distinct := by decide
  commits := fun _ => true

theorem wallet_verification_complete_corpDeal :
    Meets (step List.head?) (Undisturbed List.head?) noWallets (corpDeal ++ [.tick walletTick]) ∧
      (7, some [1]) ∈ (tick List.head? walletTick (run (step List.head?) noWallets corpDeal)).2.polls ∧
      WalletComplete List.head?
        (run (step List.head?) noWallets (corpDeal ++ [.tick walletTick])) 7 :=
  ⟨by decide +kernel, by decide +kernel,
    wallet_verification_complete List.head? (by decide +kernel)
      (show (7, some [1]) ∈ _ by decide +kernel) (by decide +kernel)⟩

/-- A second debt is linked after the first tick, and the next tick sees the same entry again. -/
def lateLink : List Event :=
  corpDeal ++ [.tick walletTick,
    .op (.create sampleLimits 1 1 [⟨34, "Tritanium", 10, 1⟩] 2 [2]),
    .op (.recordFulfillment 3 2 2 (samplePurchase 5 1) ⟨2, 2, 0⟩),
    .op (.doManualLink 3 1 2 2 1)]

theorem late_link_stays_unverified :
    (7, some []) ∈ (tick List.head? walletTick (run (step List.head?) noWallets lateLink)).2.polls ∧
      (tick List.head? walletTick (run (step List.head?) noWallets lateLink)).2.failed = [] ∧
      ¬ WalletComplete List.head?
        (run (step List.head?) noWallets (lateLink ++ [.tick walletTick])) 7 := by
  decide +kernel

end JitaCart.Wallet
