/- module: JitaCart/Wallet/Payouts
   source: backend/crates/settlement/src/lib.rs (verify_contract_against_journal),
     backend/crates/api/src/contracts.rs (validate_link)
   digest: Whose wallet a verification reads, and how it splits the payout. -/

import JitaCart.Wallet.Verification

/-!
The payer query takes one of the bound lists with a payer, in no order. Which one does
not matter as long as all of them name the same corp and division. A link checks the
principals alone: lists of one corp with different divisions have the same
principal, and a contract without an assignee takes lists of any requester.
-/

set_option autoImplicit false
set_option relaxedAutoImplicit false

namespace JitaCart.Wallet

open Schema Base.Table Base.Request Base.Numeric Settlement Operations Books Contracts
open Api.Extract Api.ItemStatus Api.Claims Api.Fulfillments Api.Reimbursements Api.Lists
open Api.Contracts Worker.Match Worker.Terminal Worker.CorpWallet

/-- `LIMIT 1` without an order: some row where there is one. -/
structure Picks (pick : List Payer → Option Payer) : Prop where
  mem : ∀ ps, ∀ p ∈ pick ps, p ∈ ps
  some_of_ne_nil : ∀ ps, ps ≠ [] → pick ps ≠ none

/-- The row `p` where the query finds it. -/
def prefer (p : Payer) (ps : List Payer) : Option Payer :=
  if p ∈ ps then some p else ps.head?

private theorem picks_prefer (p : Payer) : Picks (prefer p) where
  mem ps q hq := by
    unfold prefer at hq
    split at hq
    · cases hq
      assumption
    · exact List.mem_of_mem_head? hq
  some_of_ne_nil ps nonempty := by
    unfold prefer
    split
    · exact Option.some_ne_none p
    · simpa using nonempty

/-- All bound lists with a payer have the same one. -/
def SinglePayer (s : Db) (cid : Uuid) : Prop :=
  ∀ p ∈ boundPayers s cid, ∀ q ∈ boundPayers s cid, p = q

/-- Whatever row the payer query returns, the verification reads the same sum and writes the
same. -/
def ChoiceFree (w : Wallets) (cid : Uuid) : Prop :=
  ∀ pick pick', Picks pick → Picks pick' →
    (∀ c ∈ w.db.contract? cid, payoutFor pick w c = payoutFor pick' w c) ∧
      verifyContractAgainstJournal pick w cid = verifyContractAgainstJournal pick' w cid

section State
variable {w : Wallets} {cid : Uuid}

private theorem SinglePayer.pick_eq (single : SinglePayer w.db cid)
    {pick pick' : List Payer → Option Payer} (picks : Picks pick) (picks' : Picks pick') :
    pick (boundPayers w.db cid) = pick' (boundPayers w.db cid) := by
  cases h : pick (boundPayers w.db cid) with
  | none =>
    have nil : boundPayers w.db cid = [] := by
      by_contra nonempty
      exact picks.some_of_ne_nil _ nonempty h
    cases h' : pick' (boundPayers w.db cid) with
    | none => rfl
    | some q =>
      have hq := picks'.mem _ q h'
      rw [nil] at hq
      cases hq
  | some p =>
    have hp := picks.mem _ p h
    cases h' : pick' (boundPayers w.db cid) with
    | none => exact absurd h' (picks'.some_of_ne_nil _ (List.ne_nil_of_mem hp))
    | some q => rw [single p hp q (picks'.mem _ q h')]

private theorem verify_congr {pick pick' : List Payer → Option Payer}
    (same : ∀ c ∈ w.db.contract? cid, payoutFor pick w c = payoutFor pick' w c) :
    verifyContractAgainstJournal pick w cid = verifyContractAgainstJournal pick' w cid := by
  unfold verifyContractAgainstJournal
  cases hc : w.db.contract? cid with
  | none => rfl
  | some c =>
    have sums := same c hc
    unfold payoutFor at sums
    simp only [sums]

private theorem SinglePayer.choiceFree (single : SinglePayer w.db cid) : ChoiceFree w cid := by
  intro pick pick' picks picks'
  have sums : ∀ c ∈ w.db.contract? cid, payoutFor pick w c = payoutFor pick' w c := by
    intro c hc
    obtain rfl : c.id = cid := (lookup_mem hc).2
    unfold payoutFor scope
    rw [single.pick_eq picks picks']
  exact ⟨sums, verify_congr sums⟩

/-- One entry of the contract's price in the wallet of a payer. -/
def priceIn (p : Payer) (c : Contract) : JournalRow :=
  ⟨p.corpId, p.division, 1, "contract_price", 100, some c.esiContractId, some "contract_id"⟩

private theorem payoutSum_priceIn (p q : Payer) (c : Contract) :
    payoutSum [priceIn p c] (.division q.corpId q.division) c.esiContractId =
      if p = q then 100 else 0 := by
  have admits : countsFor (.division q.corpId q.division) c.esiContractId (priceIn p c) =
      decide (p = q) := by
    rw [Bool.eq_iff_iff]
    cases p
    cases q
    simp only [countsFor, refersTo, priceIn, Scope.admits, decide_true, Bool.and_true,
      Bool.true_and, Bool.and_eq_true, decide_eq_true_eq, Payer.mk.injEq]
    exact and_congr decide_eq_true_iff decide_eq_true_iff
  unfold payoutSum sumWhere
  rw [List.filter_singleton, admits]
  by_cases same : p = q
  · simp only [same, decide_true, if_true]
    rfl
  · simp [same]

/-- With two payers, an entry in the wallet of one of them counts for one choice only. -/
private theorem singlePayer_of_choiceFree {s : Db} {c : Contract} (hc : s.contract? cid = some c)
    (free : ∀ w : Wallets, w.db = s → ChoiceFree w cid) : SinglePayer s cid := by
  obtain rfl : c.id = cid := (lookup_mem hc).2
  intro p hp q hq
  by_contra differ
  have sums := (free { db := s, journal := [priceIn p c] } rfl (prefer p) (prefer q)
    (picks_prefer p) (picks_prefer q)).1 c hc
  unfold payoutFor scope prefer at sums
  simp only [hp, hq, if_true, scopeOf, payoutSum_priceIn, if_neg differ] at sums
  cases sums

private theorem choiceFree_iff {s : Db} {c : Contract} (hc : s.contract? cid = some c) :
    (∀ w : Wallets, w.db = s → ChoiceFree w cid) ↔ SinglePayer s cid := by
  refine ⟨singlePayer_of_choiceFree hc, ?_⟩
  rintro single w rfl
  exact single.choiceFree

end State

/-- The contract and the reimbursement that a link request names. -/
def linkPair (s : Db) : Op → Option (Uuid × Uuid)
  | .doConfirm _ gid _ => (s.suggestion? gid).map fun g => (g.contractId, g.reimbursementId)
  | .doManualLink _ cid rid _ _ => some (cid, rid)
  | _ => none

/-- An accepted link takes a list without a payer, or with the payer of those already bound. -/
def LinksSamePayer (s : Db) (o : Op) : Prop :=
  (apply o s).toBool = true → ∀ pair ∈ linkPair s o, ∀ r ∈ s.reimbursement? pair.2,
    ∀ p ∈ payerOf s r.listId, ∀ q ∈ boundPayers s pair.1, p = q

instance (s : Db) (o : Op) : Decidable (LinksSamePayer s o) := by
  unfold LinksSamePayer
  infer_instance

section Steps
variable {s m s' : Db} {cid : Uuid}

private theorem mem_boundPayers {p : Payer} :
    p ∈ boundPayers s cid ↔
      ∃ r ∈ s.reimbursements, boundTo cid r = true ∧ payerOf s r.listId = some p := by
  unfold boundPayers payerOf
  simp only [List.mem_filterMap, List.mem_filter, and_assoc]

private theorem mem_boundPayers_bind {rid : Uuid} {r : Reimbursement}
    (keyed : Keyed Reimbursement.id s.reimbursements) (hr : s.reimbursement? rid = some r)
    (rows : s'.reimbursements = (bindReimbursement s cid r.id).reimbursements)
    (lists : s'.lists = s.lists) (unbound : r.contractId = none) (p : Payer) :
    p ∈ boundPayers s' cid ↔ p ∈ boundPayers s cid ∨ payerOf s r.listId = some p := by
  have payers : ∀ id, payerOf s' id = payerOf s id := by
    intro id
    unfold payerOf Db.list?
    rw [lists]
  obtain ⟨hmem, -⟩ := lookup_mem hr
  simp only [mem_boundPayers, payers, rows, bindReimbursement]
  constructor
  · rintro ⟨x', hx', bound, hp⟩
    obtain ⟨x, hx, rfl⟩ := mem_updateWhere.mp hx'
    by_cases hid : x.id = r.id
    · obtain rfl := keyed.eq_of_key hx hmem hid
      rw [if_pos (by simp)] at hp
      exact .inr hp
    · rw [if_neg (by simpa using hid)] at bound hp
      exact .inl ⟨x, hx, bound, hp⟩
  · rintro (⟨x, hx, bound, hp⟩ | hp)
    · have other : x.id ≠ r.id := by
        intro hid
        obtain rfl := keyed.eq_of_key hx hmem hid
        simp [boundTo, unbound] at bound
      refine ⟨_, mem_updateWhere_of_mem hx, ?_⟩
      rw [if_neg (by simpa using other)]
      exact ⟨bound, hp⟩
    · refine ⟨_, mem_updateWhere_of_mem hmem, ?_⟩
      rw [if_pos (by simp)]
      exact ⟨by simp [boundTo], hp⟩

private theorem reimbursements_keyed (books : (ledger s).Ok) :
    Keyed Reimbursement.id s.reimbursements := by
  have h := books.dues
  unfold Keyed at h ⊢
  simp only [ledger, List.map_map] at h
  exact h

private theorem mem_boundPayers_finalize (books : (ledger s).Ok) {c : Contract} {rid : Uuid}
    {r : Reimbursement} {now : Timestamp} (hr : s.reimbursement? rid = some r)
    (unbound : r.contractId = none) (h : finalizeLink s c r.id now = .ok s') (p : Payer) :
    p ∈ boundPayers s' c.id ↔ p ∈ boundPayers s c.id ∨ payerOf s r.listId = some p := by
  have bound : p ∈ boundPayers (setExpectedTotal (bindReimbursement s c.id r.id) c.id
      (boundTotal (bindReimbursement s c.id r.id) c.id)) c.id ↔
      p ∈ boundPayers s c.id ∨ payerOf s r.listId = some p :=
    mem_boundPayers_bind (reimbursements_keyed books) hr rfl rfl unbound p
  rcases finalizeLink_ok h with ⟨-, infos, hsettle⟩ | ⟨-, rfl⟩
  · have books' := (ledger_bindReimbursement s c.id r.id).symm ▸ books
    have tied : Tied nowhere _ s' := tied_settleViaContract (by exact books') hsettle
    rw [tied.boundPayers id]
    exact bound
  · exact bound

private theorem links_eq (s : Db) (o : Op) : links s o = (linkPair s o).map Prod.fst := by
  cases o <;> simp only [links, linkPair, Option.map_none, Option.map_some, Option.map_map]
  rfl

private theorem boundPayers_linked {o : Op} {rid : Uuid} (books : (ledger s).Ok)
    (h : apply o s = .ok s') (pair : linkPair s o = some (cid, rid)) :
    ∃ r, s.reimbursement? rid = some r ∧ s.contract? cid ≠ none ∧
      ∀ p, p ∈ boundPayers s' cid ↔ p ∈ boundPayers s cid ∨ payerOf s r.listId = some p := by
  cases o <;> simp only [linkPair, reduceCtorEq, Option.map_eq_some_iff, Option.some.injEq,
    Prod.mk.injEq] at pair
  case doConfirm userId gid now =>
    simp only [apply, mapError_eq_ok] at h
    obtain ⟨g, c, r, hg, hc, hr, -, -, unbound, h⟩ := doConfirm_ok h
    obtain ⟨g', hg', rfl, rfl⟩ := pair
    obtain rfl := Option.some.inj (hg.symm.trans hg')
    have hid : c.id = g.contractId := (lookup_mem hc).2
    refine ⟨r, hr, by simp [hc], fun p => ?_⟩
    have adds := mem_boundPayers_finalize (by exact books) (by exact hr) unbound h p
    rw [hid] at adds
    exact adds
  case doManualLink userId cid' rid' newId now =>
    obtain ⟨rfl, rfl⟩ := pair
    simp only [apply, mapError_eq_ok] at h
    obtain ⟨c, r, m, hc, hr, -, unbound, hup, h⟩ := doManualLink_ok h
    obtain rfl : c.id = cid' := (lookup_mem hc).2
    refine ⟨r, hr, by simp [hc], fun p => ?_⟩
    obtain ⟨-, ⟨-, rfl⟩ | ⟨-, -, rfl⟩⟩ := upsertConfirmed_ok hup
    · exact mem_boundPayers_finalize (by exact books) (by exact hr) unbound h p
    · exact mem_boundPayers_finalize (by exact books) (by exact hr) unbound h p

private theorem boundPayers_kept {o : Op} (books : (ledger s).Ok) (h : apply o s = .ok s')
    (apart : links s o ≠ some cid) : ∀ p ∈ boundPayers s' cid, p ∈ boundPayers s cid := by
  intro p hp
  by_cases up : upserts o = none
  · by_cases detached : detaches o = some cid
    · obtain ⟨rows, lists⟩ := detached_of_ok detached h
      rw [boundPayers_eq, List.mem_filterMap] at hp ⊢
      obtain ⟨b, hb, hpayer⟩ := hp
      refine ⟨b, boundRows_unbind rows b hb, ?_⟩
      unfold payerOf Db.list? at hpayer ⊢
      rw [← lists]
      exact hpayer
    · rw [(tied_of_ok books up h).boundPayers fun ex => ex.elim apart detached] at hp
      exact hp
  · cases o <;> simp only [upserts, not_true_eq_false] at up
    simp only [apply, mapError_eq_ok, map_eq_ok, Prod.exists, exists_eq_right] at h
    obtain ⟨out, h⟩ := h
    obtain ⟨contracts, rfl⟩ := upsertContract_shape h
    exact hp

private theorem contract_stays {o : Op} (books : (ledger s).Ok) (h : apply o s = .ok s')
    (known : s.contract? cid ≠ none) : s'.contract? cid ≠ none := by
  obtain ⟨c, hc⟩ := Option.ne_none_iff_exists'.mp known
  obtain ⟨hmem, hid⟩ := lookup_mem hc
  have present : ∃ c' ∈ s'.contracts, c'.id = cid := by
    by_cases up : upserts o = none
    · obtain ⟨c', hc', same⟩ := exists_of_map_eq (tied_of_ok books up h).contracts hmem
      simp only [origin, Prod.mk.injEq] at same
      exact ⟨c', hc', same.1.trans hid⟩
    · cases o <;> simp only [upserts, not_true_eq_false] at up
      simp only [apply, mapError_eq_ok, map_eq_ok, Prod.exists, exists_eq_right] at h
      obtain ⟨out, h⟩ := h
      rcases upsertContract_ok h with ⟨x, -, -, rfl⟩ | ⟨-, -, rfl⟩
      · refine ⟨_, mem_updateWhere_of_mem hmem, ?_⟩
        split <;> exact hid
      · exact ⟨c, List.mem_append_left _ hmem, hid⟩
  obtain ⟨c', hc', hid'⟩ := present
  intro missing
  exact lookup_eq_none.mp missing c' hc' hid'

end Steps

/-- What every run keeps: the books, and a contract row where a payer is bound. -/
def Sound (s : Db) : Prop :=
  (ledger s).Ok ∧ ∀ cid, ∀ p ∈ boundPayers s cid, s.contract? cid ≠ none

private theorem sound_step (s : Db) (o : Op) (s' : Db) (sound : Sound s) (h : apply o s = .ok s') :
    Sound s' := by
  refine ⟨ledgerOk_step s o s' sound.1 h, fun cid p hp => contract_stays sound.1 h ?_⟩
  by_cases linked : links s o = some cid
  · rw [links_eq, Option.map_eq_some_iff] at linked
    obtain ⟨⟨_, rid⟩, pair, rfl⟩ := linked
    obtain ⟨r, -, known, -⟩ := boundPayers_linked sound.1 h pair
    exact known
  · exact sound.2 cid p (boundPayers_kept sound.1 h linked p hp)

def SinglePayers (s : Db) : Prop := ∀ cid, SinglePayer s cid

private theorem singlePayers_iff_choiceFree {s : Db} (sound : Sound s) :
    SinglePayers s ↔ ∀ w : Wallets, w.db = s → ∀ cid, ChoiceFree w cid := by
  constructor
  · rintro single w rfl cid
    exact (single cid).choiceFree
  · intro free cid p hp q hq
    obtain ⟨c, hc⟩ := Option.ne_none_iff_exists'.mp (sound.2 cid p hp)
    exact singlePayer_of_choiceFree hc (fun w hw => free w hw cid) p hp q hq

/-- A request keeps contracts with one payer exactly when it links no other one. -/
private theorem singlePayers_exec (s : Db) (o : Op) (sound : Sound s) (single : SinglePayers s) :
    SinglePayers (exec apply s o) ↔ LinksSamePayer s o := by
  unfold LinksSamePayer exec
  cases h : apply o s with
  | error e => exact ⟨fun _ refused => (by cases refused), fun _ => single⟩
  | ok s' =>
    constructor
    · intro single' _ pair hpair r hr p hp q hq
      obtain ⟨x, hx, -, adds⟩ := boundPayers_linked sound.1 h hpair
      obtain rfl := Option.some.inj (hx.symm.trans hr)
      exact single' pair.1 p ((adds p).mpr (.inr hp)) q ((adds q).mpr (.inl hq))
    · intro same cid p hp q hq
      by_cases linked : links s o = some cid
      · rw [links_eq, Option.map_eq_some_iff] at linked
        obtain ⟨⟨_, rid⟩, pair, rfl⟩ := linked
        obtain ⟨x, hx, -, adds⟩ := boundPayers_linked sound.1 h pair
        have new := same rfl _ pair x hx
        rcases (adds p).mp hp with old | added
        · rcases (adds q).mp hq with old' | added'
          · exact single _ p old q old'
          · exact (new q added' p old).symm
        · rcases (adds q).mp hq with old' | added'
          · exact new p added q old'
          · exact Option.some.inj (added.symm.trans added')
      · exact single cid p (boundPayers_kept sound.1 h linked p hp) q
          (boundPayers_kept sound.1 h linked q hq)

private theorem sound_empty : Sound empty := ⟨ledgerOk_empty, fun _ _ hp => by cases hp⟩

private theorem sound_reached (ops : List Op) : Sound (reached ops) :=
  run_invariant sound_step sound_empty ops

/-- The payer query may return any of its rows in every state that a run passes through, whatever
the journals, exactly when every link of the run takes a list without a payer or with the payer of
the lists already bound to its contract. -/
theorem verification_choice_free_iff (ops : List Op) :
    (∀ before, before <+: ops → ∀ w : Wallets, w.db = reached before → ∀ cid, ChoiceFree w cid) ↔
      Meets apply LinksSamePayer empty ops := by
  have runs : (∀ before, before <+: ops → SinglePayers (reached before)) ↔
      Meets apply LinksSamePayer empty ops :=
    forall_run_iff_meets sound_step singlePayers_exec sound_empty
      (fun _ _ hp => by cases hp) ops
  rw [← runs]
  constructor
  · exact fun free before hb => (singlePayers_iff_choiceFree (sound_reached before)).mpr
      (free before hb)
  · exact fun single before hb => (singlePayers_iff_choiceFree (sound_reached before)).mp
      (single before hb)

/-- Two lists of corp 9, paid from divisions 1 and 2, on one contract to the corp. -/
def twoDivisions : List Event :=
  [.op (.directory { sampleDirectory with
      principals := sampleDirectory.principals ++ [⟨9, .corp 9⟩]
      groupCorps := [⟨1, 9, none⟩] }),
    .op (.create sampleLimits 1 1 [⟨34, "Tritanium", 10, 1⟩] 1 [1]),
    .op (.create sampleLimits 1 1 [⟨34, "Tritanium", 10, 1⟩] 2 [2]),
    .op (.patchListPayer 1 1 ⟨some 9, some 1⟩),
    .op (.patchListPayer 1 2 ⟨some 9, some 2⟩),
    .op (.recordFulfillment 3 1 1 (samplePurchase 5 1) ⟨1, 1, 0⟩),
    .op (.recordFulfillment 3 2 2 (samplePurchase 5 1) ⟨2, 2, 0⟩),
    .op (.upsertContract
      { sampleContract .outstanding with
        assigneeUserId := none
        assigneePrincipalId := some 9 } 1),
    .op (.doManualLink 3 1 1 1 1),
    .op (.doManualLink 3 1 2 2 1)]

/-- The contract is paid from the first division. -/
def firstDivisionTick : TickInput where
  polls := [⟨9, true, [⟨true, .ok [1, 2], true,
    fun d => .ok (if d = 1 then [(priceEntry, true)] else []), true⟩]⟩]
  distinct := by decide
  commits := fun _ => true

/-- The first list's wallet shows the price, the second one's shows nothing. -/
theorem divisions_disagree :
    ¬ ∀ limit1, Picks limit1 → ∀ events cid,
      ChoiceFree (run (step limit1) noWallets events) cid := by
  intro claim
  have sums := (claim (prefer ⟨9, 1⟩) (picks_prefer _) (twoDivisions ++ [.tick firstDivisionTick]) 1
    (prefer ⟨9, 1⟩) (prefer ⟨9, 2⟩) (picks_prefer _) (picks_prefer _)).1
  have differ : ∃ c ∈ (run (step (prefer ⟨9, 1⟩)) noWallets
        (twoDivisions ++ [.tick firstDivisionTick])).db.contract? 1,
      payoutFor (prefer ⟨9, 1⟩) (run (step (prefer ⟨9, 1⟩)) noWallets
          (twoDivisions ++ [.tick firstDivisionTick])) c = 1000 ∧
        payoutFor (prefer ⟨9, 2⟩) (run (step (prefer ⟨9, 1⟩)) noWallets
          (twoDivisions ++ [.tick firstDivisionTick])) c = 0 := by
    decide +kernel
  obtain ⟨c, hc, first, second⟩ := differ
  have same := sums c hc
  rw [first, second] at same
  cases same

/-- The pending and settled reimbursements bound to a contract. -/
def shareholders (s : Db) (cid : Uuid) : List Reimbursement :=
  s.reimbursements.filter (audited cid)

def owed (s : Db) (cid : Uuid) : Cents := ((shareholders s cid).map (·.totalIsk)).sum

section Split
variable {pick : List Payer → Option Payer} {w : Wallets} {cid : Uuid} {c : Contract}

def splitAudit (w : Wallets) (cid : Uuid) (payout : Cents) (id : Uuid) : Option Cents :=
  match lookup Reimbursement.id id (shareholders w.db cid) with
  | some r => some (walletDelta payout (owed w.db cid) r)
  | none => w.audit id

private theorem verify_split (hc : w.db.contract? cid = some c) (paid : 0 < payoutFor pick w c)
    (storable : Storable pick w c) :
    verifyContractAgainstJournal pick w cid = .ok { w with
      payout := Function.update w.payout cid (some (payoutFor pick w c))
      audit := splitAudit w cid (payoutFor pick w c) } := by
  obtain rfl : c.id = cid := (lookup_mem hc).2
  obtain ⟨fits, deltas⟩ := storable
  unfold payoutFor at paid fits deltas
  unfold verifyContractAgainstJournal
  simp only [hc, if_pos paid]
  refine bind_eq_ok.mpr ⟨(), require_eq_ok.mpr fits, bind_eq_ok.mpr ⟨(), ?_, rfl⟩⟩
  exact require_eq_ok.mpr deltas

/-- A sum or a delta that its column cannot hold fails the statement. -/
private theorem verify_overflow (hc : w.db.contract? cid = some c) (paid : 0 < payoutFor pick w c)
    (large : ¬ Storable pick w c) :
    verifyContractAgainstJournal pick w cid = .error (.db .numericOverflow) := by
  obtain rfl : c.id = cid := (lookup_mem hc).2
  unfold Storable payoutFor at large
  unfold payoutFor at paid
  unfold verifyContractAgainstJournal
  simp only [hc, if_pos paid, require]
  by_cases fits : Fits 20 (payoutSum w.journal (scope pick w.db c) c.esiContractId)
  · rw [if_pos fits, if_neg fun deltas => large ⟨fits, deltas⟩]
    rfl
  · rw [if_neg fits]
    rfl

private theorem verify_unpaid (hc : w.db.contract? cid = some c)
    (unpaid : ∀ j ∈ w.journal, countsFor (scope pick w.db c) c.esiContractId j = false) :
    verifyContractAgainstJournal pick w cid = .ok w := by
  have zero : payoutSum w.journal (scope pick w.db c) c.esiContractId = 0 := by
    have none_counts : w.journal.filter (countsFor (scope pick w.db c) c.esiContractId) = [] := by
      rw [List.filter_eq_nil_iff]
      intro j hj
      simp [unpaid j hj]
    unfold payoutSum sumWhere
    rw [none_counts]
    rfl
  unfold verifyContractAgainstJournal
  simp only [hc, zero, lt_irrefl, if_false]

private theorem splitAudit_of_mem (keyed : Keyed Reimbursement.id w.db.reimbursements)
    {r : Reimbursement} (hr : r ∈ shareholders w.db cid) (payout : Cents) :
    splitAudit w cid payout r.id = some (walletDelta payout (owed w.db cid) r) := by
  have found : lookup Reimbursement.id r.id (shareholders w.db cid) = some r :=
    (lookup_eq_some (keyed.filter _)).mpr ⟨hr, rfl⟩
  unfold splitAudit
  rw [found]

private theorem splitAudit_of_other {id : Uuid} (other : ∀ r ∈ shareholders w.db cid, r.id ≠ id)
    (payout : Cents) : splitAudit w cid payout id = w.audit id := by
  have missing : lookup Reimbursement.id id (shareholders w.db cid) = none :=
    lookup_eq_none.mpr other
  unfold splitAudit
  rw [missing]

/-- Proportional shares use up the payout, so the deltas miss the difference by the rounding. -/
private theorem sum_walletDelta (payout : Cents) (owing : 0 < owed w.db cid) :
    |((((shareholders w.db cid).map (walletDelta payout (owed w.db cid))).sum : Int) : ℚ) -
      (payout - owed w.db cid)| ≤ (shareholders w.db cid).length / 2 := by
  have total : (0 : ℚ) < owed w.db cid := by exact_mod_cast owing
  have shares : ((shareholders w.db cid).map fun r =>
      (payout : ℚ) * r.totalIsk / owed w.db cid).sum = payout := by
    have factor (rs : List Reimbursement) : (rs.map fun r =>
        (payout : ℚ) * r.totalIsk / owed w.db cid).sum =
          payout * ((rs.map (·.totalIsk)).sum : Int) / owed w.db cid := by
      induction rs with
      | nil => simp
      | cons r rs ih =>
        simp only [List.map_cons, List.sum_cons, Int.cast_add, ih]
        ring
    rw [factor]
    exact mul_div_cancel_right₀ _ total.ne'
  have apart (rs : List Reimbursement) : (rs.map (walletDelta payout (owed w.db cid))).sum =
      (rs.map fun r => roundHalfEven ((payout : ℚ) * r.totalIsk / owed w.db cid)).sum -
        (rs.map (·.totalIsk)).sum := by
    induction rs with
    | nil => rfl
    | cons r rs ih =>
      simp only [List.map_cons, List.sum_cons, ih, walletDelta, if_pos owing]
      ring
  have rounding := abs_sum_roundHalfEven_sub_le
    (fun r : Reimbursement => (payout : ℚ) * r.totalIsk / owed w.db cid) (shareholders w.db cid)
  rw [shares] at rounding
  rw [apart, Int.cast_sub]
  have sums : (((shareholders w.db cid).map (·.totalIsk)).sum : Int) = owed w.db cid := rfl
  rw [sums, sub_sub_sub_cancel_right]
  exact rounding

/-- A second verification that reads the same wallet writes what is there. -/
private theorem verify_again {pick' : List Payer → Option Payer} (hc : w.db.contract? cid = some c)
    (paid : 0 < payoutFor pick w c) (storable : Storable pick w c)
    (same : pick' (boundPayers w.db cid) = pick (boundPayers w.db cid)) {w' : Wallets}
    (h : verifyContractAgainstJournal pick w cid = .ok w') :
    verifyContractAgainstJournal pick' w' cid = .ok w' := by
  obtain rfl : c.id = cid := (lookup_mem hc).2
  rw [verify_split hc paid storable] at h
  obtain rfl := Except.ok.inj h
  have sum_eq : payoutFor pick' { w with
      payout := Function.update w.payout c.id (some (payoutFor pick w c))
      audit := splitAudit w c.id (payoutFor pick w c) } c = payoutFor pick w c := by
    unfold payoutFor scope
    rw [same]
  rw [verify_split (c := c) (by exact hc) (by rw [sum_eq]; exact paid)
    (by unfold Storable; rw [sum_eq]; exact storable), sum_eq]
  have audits : splitAudit { w with
      payout := Function.update w.payout c.id (some (payoutFor pick w c))
      audit := splitAudit w c.id (payoutFor pick w c) } c.id (payoutFor pick w c) =
        splitAudit w c.id (payoutFor pick w c) := by
    funext id
    cases found : lookup Reimbursement.id id (shareholders w.db c.id) <;>
      simp only [splitAudit, found]
  rw [audits, Function.update_idem]

/-- Payout split. With a positive payout and totals, a verification writes the payout and to each
bound reimbursement its rounded share less its total. The deltas add up to the payout less the
totals up to half a cent each, nothing else changes, and a second verification that reads the same
wallet writes the same. Where a value does not fit its column, nothing is written, and where no
entry counts, nothing changes. -/
theorem payout_split (hc : w.db.contract? cid = some c)
    (keyed : Keyed Reimbursement.id w.db.reimbursements) :
    (0 < payoutFor pick w c → 0 < owed w.db cid → Storable pick w c →
      ∃ w', verifyContractAgainstJournal pick w cid = .ok w' ∧ w'.db = w.db ∧
        w'.journal = w.journal ∧ w'.payout cid = some (payoutFor pick w c) ∧
        (∀ other, other ≠ cid → w'.payout other = w.payout other) ∧
        (∀ r ∈ shareholders w.db cid, w'.audit r.id =
          some (roundHalfEven ((payoutFor pick w c : ℚ) * r.totalIsk / owed w.db cid) -
            r.totalIsk)) ∧
        |((((shareholders w.db cid).map fun r => (w'.audit r.id).getD 0).sum : Int) : ℚ) -
          (payoutFor pick w c - owed w.db cid)| ≤ (shareholders w.db cid).length / 2 ∧
        (∀ id, (∀ r ∈ shareholders w.db cid, r.id ≠ id) → w'.audit id = w.audit id) ∧
        ∀ pick', pick' (boundPayers w.db cid) = pick (boundPayers w.db cid) →
          verifyContractAgainstJournal pick' w' cid = .ok w') ∧
    (0 < payoutFor pick w c → ¬ Storable pick w c →
      verifyContractAgainstJournal pick w cid = .error (.db .numericOverflow)) ∧
    ((∀ j ∈ w.journal, countsFor (scope pick w.db c) c.esiContractId j = false) →
      verifyContractAgainstJournal pick w cid = .ok w) := by
  refine ⟨fun paid owing storable => ?_, fun paid large => verify_overflow hc paid large,
    fun unpaid => verify_unpaid hc unpaid⟩
  have deltas : ∀ r ∈ shareholders w.db cid, splitAudit w cid (payoutFor pick w c) r.id =
      some (walletDelta (payoutFor pick w c) (owed w.db cid) r) :=
    fun r hr => splitAudit_of_mem keyed hr _
  refine ⟨_, verify_split hc paid storable, rfl, rfl, Function.update_self .., ?_, ?_, ?_, ?_, ?_⟩
  · exact fun other apart => Function.update_of_ne apart _ _
  · intro r hr
    refine (deltas r hr).trans ?_
    rw [walletDelta, if_pos owing]
  · have sums : ((shareholders w.db cid).map fun r =>
        (splitAudit w cid (payoutFor pick w c) r.id).getD 0) =
          (shareholders w.db cid).map (walletDelta (payoutFor pick w c) (owed w.db cid)) :=
      List.map_congr_left fun r hr => by rw [deltas r hr]; rfl
    rw [sums]
    exact sum_walletDelta _ owing
  · exact fun id other => splitAudit_of_other other _
  · exact fun pick' same => verify_again hc paid storable same (verify_split hc paid storable)

end Split

/-- One cent was paid for two debts of 1 ISK; a third debt is bound to another contract. -/
def oneCent : Wallets where
  db :=
    { directory := sampleDirectory
      lists := [⟨1, 1, 1, .open, 0, none⟩]
      contracts :=
        [{ ContractUpsert.row { sampleContract .finished with sourceCorpId := some 7 } 1 with
            expectedTotalIsk := some 200 },
          { ContractUpsert.row { sampleContract .outstanding with esiContractId := 10 } 2 with
            expectedTotalIsk := some 100 }]
      reimbursements :=
        [⟨1, 1, some 1, 1, 3, 3, 100, 0, 100, .settled, some 1, none, some 1, false⟩,
          ⟨2, 1, some 2, 2, 3, 3, 100, 0, 100, .settled, some 1, none, some 1, false⟩,
          ⟨3, 1, some 4, 4, 3, 3, 100, 0, 100, .pending, none, none, some 2, false⟩] }
  journal := [⟨7, 1, 100, "contract_price", -1, some 9, some "contract_id"⟩]

/-- Half a cent each rounds to nothing, and the deltas miss the difference by a whole cent. -/
theorem payout_split_oneCent :
    ∃ c w', oneCent.db.contract? 1 = some c ∧
      verifyContractAgainstJournal List.head? oneCent 1 = .ok w' ∧ w'.payout 1 = some 1 ∧
      w'.payout 2 = none ∧ w'.audit 1 = some (-100) ∧ w'.audit 2 = some (-100) ∧
      w'.audit 3 = none ∧ |((((shareholders oneCent.db 1).map fun r =>
        (w'.audit r.id).getD 0).sum : Int) : ℚ) - (1 - owed oneCent.db 1)| ≤ 1 := by
  have facts : ∃ c ∈ oneCent.db.contract? 1, payoutFor List.head? oneCent c = 1 ∧
      Storable List.head? oneCent c := by
    decide +kernel
  obtain ⟨c, hc, sum, storable⟩ := facts
  obtain ⟨w', h, -, -, payout, elsewhere, deltas, total, others, -⟩ :=
    (payout_split hc (by decide +kernel)).1 (by rw [sum]; decide) (by decide +kernel) storable
  rw [sum] at payout deltas total
  have share : ∀ r ∈ shareholders oneCent.db 1,
      roundHalfEven (((1 : Int) : ℚ) * r.totalIsk / owed oneCent.db 1) - r.totalIsk = -100 := by
    decide +kernel
  have audit (id : Uuid) (shares : ∃ r ∈ shareholders oneCent.db 1, r.id = id) :
      w'.audit id = some (-100) := by
    obtain ⟨r, hr, rfl⟩ := shares
    rw [deltas r hr, share r hr]
  refine ⟨c, w', hc, h, payout, elsewhere 2 (by decide), audit 1 (by decide +kernel),
    audit 2 (by decide +kernel), others 3 (by decide +kernel), ?_⟩
  have two : (shareholders oneCent.db 1).length = 2 := by decide +kernel
  rw [two] at total
  simpa using total

/-- A debt of ten quintillion ISK: most of the pieces are bought after the link. -/
def hugeDebt : List Event :=
  [.op (.directory sampleDirectory),
    .op (.create sampleLimits 1 1 [⟨34, "Tritanium", 20000000, 1⟩] 1 [1]),
    .op (.recordFulfillment 3 1 1 (samplePurchase 5 1) ⟨1, 1, 0⟩),
    .op (.upsertContract { sampleContract .outstanding with sourceCorpId := some 7 } 1),
    .op (.doManualLink 3 1 1 1 1),
    .op (.recordFulfillment 3 1 1 (samplePurchase 10000000 1000000000000) ⟨2, 1, 1⟩),
    .tick walletTick]

/-- Corp 9 paid 10 ISK from its first division and 30 ISK from its second. -/
def bothDivisionsTick : TickInput where
  polls := [⟨9, true, [⟨true, .ok [1, 2], true,
    fun d => .ok [({ priceEntry with amount := some (if d = 1 then -10 else -30) }, true)],
    true⟩]⟩]
  distinct := by decide
  commits := fun _ => true

/-- The delta of a huge debt does not fit its column and nothing is written; and where two
divisions paid, a second verification may read the other one. -/
theorem payout_split_not_always :
    (¬ ∀ limit1, Picks limit1 → ∀ events cid c,
      (run (step limit1) noWallets events).db.contract? cid = some c →
      0 < payoutFor limit1 (run (step limit1) noWallets events) c →
      0 < owed (run (step limit1) noWallets events).db cid →
      ∃ w', verifyContractAgainstJournal limit1 (run (step limit1) noWallets events) cid = .ok w') ∧
    ¬ ∀ limit1 pick pick' : List Payer → Option Payer, Picks limit1 → Picks pick → Picks pick' →
      ∀ events cid w' w'',
        verifyContractAgainstJournal pick (run (step limit1) noWallets events) cid = .ok w' →
        verifyContractAgainstJournal pick' w' cid = .ok w'' → w''.payout cid = w'.payout cid := by
  constructor
  · intro claim
    have facts : ∃ c ∈ (run (step (prefer ⟨9, 1⟩)) noWallets hugeDebt).db.contract? 1,
        0 < payoutFor (prefer ⟨9, 1⟩) (run (step (prefer ⟨9, 1⟩)) noWallets hugeDebt) c ∧
        ¬ Storable (prefer ⟨9, 1⟩) (run (step (prefer ⟨9, 1⟩)) noWallets hugeDebt) c := by
      decide +kernel
    obtain ⟨c, hc, paid, large⟩ := facts
    obtain ⟨w', h⟩ := claim (prefer ⟨9, 1⟩) (picks_prefer _) hugeDebt 1 c hc paid
      (by decide +kernel)
    rw [verify_overflow hc paid large] at h
    cases h
  · intro claim
    have twice : ((verifyContractAgainstJournal (prefer ⟨9, 1⟩) (run (step (prefer ⟨9, 1⟩))
          noWallets (twoDivisions ++ [.tick bothDivisionsTick])) 1).toOption.bind fun w' =>
        (verifyContractAgainstJournal (prefer ⟨9, 2⟩) w' 1).toOption.map fun w'' =>
          (w'.payout 1, w''.payout 1)) = some (some 1000, some 3000) := by
      decide +kernel
    cases first : verifyContractAgainstJournal (prefer ⟨9, 1⟩) (run (step (prefer ⟨9, 1⟩))
        noWallets (twoDivisions ++ [.tick bothDivisionsTick])) 1 with
    | error e =>
      rw [first] at twice
      cases twice
    | ok w' =>
      cases second : verifyContractAgainstJournal (prefer ⟨9, 2⟩) w' 1 with
      | error e =>
        simp [first, second, Except.toOption] at twice
      | ok w'' =>
        have same := claim _ _ _ (picks_prefer _) (picks_prefer _) (picks_prefer _) _ _ _ _ first
          second
        simp only [first, second, Except.toOption, Option.bind_some, Option.map_some, same,
          Option.some.injEq, Prod.mk.injEq] at twice
        have clash := twice.1.symm.trans twice.2
        cases clash

end JitaCart.Wallet
