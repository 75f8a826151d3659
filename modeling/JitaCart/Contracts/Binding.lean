/- module: JitaCart/Contracts/Binding
   source: backend/crates/api/src/contracts.rs, backend/crates/settlement/src/lib.rs (unbind_contract),
     backend/migrations/20260427000000_init.sql (one_confirmed_suggestion_per_reimbursement)
   digest: Confirmed suggestions against bindings, and when a valid manual link goes through. -/

import JitaCart.Contracts.LinkStep

/-!
`do_unlink` retires the confirmed suggestions of the contract it takes apart. `unbind_contract`
retires the pending ones only, so the confirmed suggestion of a reimbursement that it
detaches stays behind and blocks the next link.
-/

set_option autoImplicit false
set_option relaxedAutoImplicit false

namespace JitaCart.Contracts

open Schema Base.Table Base.Request Base.Numeric Directory Settlement Operations Books
open Api.Extract Api.Fulfillments Api.Contracts Worker.Match Worker.Terminal

/-- Every confirmed suggestion is the binding of its reimbursement. -/
structure Agreed (s : Db) : Prop where
  contracts : Keyed Contract.id s.contracts
  ids : Keyed Suggestion.id s.suggestions
  rows : Keyed Reimbursement.id s.reimbursements
  known : ∀ g ∈ s.suggestions, s.reimbursement? g.reimbursementId ≠ none
  bound : ∀ g ∈ s.suggestions, g.state = .confirmed → ∀ r ∈ s.reimbursements,
    r.id = g.reimbursementId → r.contractId = some g.contractId

/-- The request unbinds no pending reimbursement that has a confirmed suggestion. -/
def UnbindSafe (s : Db) (o : Op) : Prop :=
  ∀ cid ∈ unbinds o, ∀ g ∈ s.suggestions, g.contractId = cid → g.state = .confirmed →
    ∀ r ∈ s.reimbursements, r.id = g.reimbursementId → pendingOn cid r = false

instance (s : Db) (o : Op) : Decidable (UnbindSafe s o) := by
  unfold UnbindSafe
  infer_instance

section Steps
variable {s s' : Db}

private theorem reimbursement?_ne_none {id : Uuid} :
    s.reimbursement? id ≠ none ↔ ∃ r ∈ s.reimbursements, r.id = id := by
  unfold Db.reimbursement?
  rw [ne_eq, lookup_eq_none]
  push Not
  rfl

private theorem Agreed.kept (agreed : Agreed s) (rows : Keyed Reimbursement.id s'.reimbursements)
    (h : Kept s s') : Agreed s' := by
  have ids : s'.contracts.map (·.id) = s.contracts.map (·.id) := by
    have := congrArg (List.map Prod.fst) h.standings
    simpa [List.map_map, Function.comp_def, standing] using this
  refine ⟨agreed.contracts.of_map_eq ids, by rw [h.suggestions]; exact agreed.ids, rows, ?_, ?_⟩
  · intro g hg
    rw [h.suggestions] at hg
    obtain ⟨r, hr, hid⟩ := reimbursement?_ne_none.mp (agreed.known g hg)
    obtain ⟨r', hr', aged⟩ := h.image r hr
    exact reimbursement?_ne_none.mpr ⟨r', hr', aged.1.trans hid⟩
  · intro g hg confirmed r' hr' hid
    rw [h.suggestions] at hg
    rcases h.origin r' hr' with ⟨r, hr, aged⟩ | ⟨-, fresh⟩
    · rw [aged.2.1]
      exact agreed.bound g hg confirmed r hr (aged.1.symm.trans hid)
    · rw [hid] at fresh
      exact absurd fresh (agreed.known g hg)

private theorem Agreed.upsertContract {u : ContractUpsert} {newId : Uuid}
    {out : ContractUpsertOutcome}
    (agreed : Agreed s) (h : upsertContract s u newId = .ok (out, s')) : Agreed s' := by
  have keyed := keyed_upsertContract agreed.contracts h
  obtain ⟨contracts, rfl⟩ := upsertContract_shape h
  exact { agreed with contracts := keyed }

/-- New suggestion rows of which only the given pair may be confirmed anew, and its
reimbursement, unbound so far, bound to the contract. -/
private theorem Agreed.link (agreed : Agreed s) {cid : Uuid} {r : Reimbursement}
    {gs : List Suggestion} (hr : r ∈ s.reimbursements) (unbound : r.contractId = none)
    (ids : Keyed Suggestion.id gs)
    (own : ∀ g ∈ gs, (g.contractId = cid ∧ g.reimbursementId = r.id) ∨ g ∈ s.suggestions) :
    Agreed (bindReimbursement { s with suggestions := gs } cid r.id) := by
  refine ⟨agreed.contracts, ids, agreed.rows.updateWhere fun _ => rfl, ?_, ?_⟩
  · intro g hg
    have old : s.reimbursement? g.reimbursementId ≠ none := by
      rcases own g hg with ⟨-, hid⟩ | hg
      · exact reimbursement?_ne_none.mpr ⟨r, hr, hid.symm⟩
      · exact agreed.known g hg
    obtain ⟨x, hx, hid⟩ := reimbursement?_ne_none.mp old
    refine reimbursement?_ne_none.mpr ⟨_, mem_updateWhere_of_mem hx, ?_⟩
    rw [← hid]
    split <;> rfl
  · intro g hg confirmed r' hr' hid
    obtain ⟨x, hx, rfl⟩ := mem_updateWhere.mp hr'
    by_cases same : x.id = r.id
    · rw [if_pos (by simpa using same)] at hid ⊢
      rcases own g hg with ⟨hcid, -⟩ | old
      · exact congrArg some hcid.symm
      · have tied := agreed.bound g old confirmed x hx hid
        rw [agreed.rows.eq_of_key hx hr same, unbound] at tied
        cases tied
    · rw [if_neg (by simpa using same)] at hid ⊢
      rcases own g hg with ⟨-, hrid⟩ | hg
      · exact absurd (hid.trans hrid) same
      · exact agreed.bound g hg confirmed x hx hid

private theorem Agreed.confirmed (agreed : Agreed s) {gid : Uuid} {g : Suggestion}
    {r : Reimbursement}
    (hg : s.suggestion? gid = some g) (hr : s.reimbursement? g.reimbursementId = some r)
    (unbound : r.contractId = none) :
    Agreed (bindReimbursement (confirmWhere s fun x => decide (x.id = gid)) g.contractId r.id) := by
  obtain ⟨hgm, hgid⟩ := lookup_mem hg
  obtain ⟨hrm, hrid⟩ := lookup_mem hr
  refine agreed.link hrm unbound (agreed.ids.updateWhere fun _ => rfl) ?_
  intro x' hx'
  obtain ⟨x, hx, rfl⟩ := mem_updateWhere.mp hx'
  by_cases same : x.id = gid
  · obtain rfl := agreed.ids.eq_of_key hx hgm (same.trans hgid.symm)
    rw [if_pos (by simpa using same)]
    exact .inl ⟨rfl, hrid.symm⟩
  · rw [if_neg (by simpa using same)]
    exact .inr hx

private theorem Agreed.linked (agreed : Agreed s) {cid rid newId : Uuid} {r : Reimbursement}
    {m : Db} (hr : s.reimbursement? rid = some r) (unbound : r.contractId = none)
    (hup : upsertConfirmed s cid r.id newId = .ok m) : Agreed (bindReimbursement m cid r.id) := by
  obtain ⟨hrm, -⟩ := lookup_mem hr
  obtain ⟨-, ⟨-, rfl⟩ | ⟨-, fresh, rfl⟩⟩ := upsertConfirmed_ok hup
  · refine agreed.link hrm unbound (agreed.ids.updateWhere fun _ => rfl) ?_
    intro x' hx'
    obtain ⟨x, hx, rfl⟩ := mem_updateWhere.mp hx'
    split
    · rename_i hp
      simp only [pairOf, Bool.and_eq_true, decide_eq_true_eq] at hp
      exact .inl hp
    · exact .inr hx
  · refine agreed.link hrm unbound (agreed.ids.append (lookup_eq_none.mp fresh)) ?_
    intro x hx
    rcases List.mem_append.mp hx with hx | hx
    · exact .inr hx
    · rw [List.mem_singleton.mp hx]
      exact .inl ⟨rfl, rfl⟩

/-- Unbinding with some suggestions retired: those that stay confirmed must not lose their row. -/
private theorem Agreed.unbind (agreed : Agreed s) {cid : Uuid} {state : ContractMatchState}
    (safe : ∀ g ∈ s.suggestions, g.contractId = cid → g.state = .confirmed → state ≠ .confirmed →
      ∀ r ∈ s.reimbursements, r.id = g.reimbursementId → pendingOn cid r = false) :
    Agreed (supersede (unbindReimbursements s cid) cid state) := by
  refine ⟨agreed.contracts, agreed.ids.updateWhere fun _ => rfl,
    agreed.rows.updateWhere fun _ => rfl, ?_, ?_⟩
  · intro g' hg'
    obtain ⟨g, hg, rfl⟩ := mem_updateWhere.mp hg'
    obtain ⟨x, hx, hid⟩ := reimbursement?_ne_none.mp (agreed.known g hg)
    refine reimbursement?_ne_none.mpr ⟨_, mem_updateWhere_of_mem hx, ?_⟩
    have left : (if pendingOn cid x then { x with contractId := none } else x).id = x.id := by
      split <;> rfl
    rw [left, hid]
    split <;> rfl
  · intro g' hg' confirmed r' hr' hid
    obtain ⟨g, hg, rfl⟩ := mem_updateWhere.mp hg'
    obtain ⟨r, hr, rfl⟩ := mem_updateWhere.mp hr'
    split at confirmed
    · cases confirmed
    · rename_i stays
      rw [if_neg stays] at hid ⊢
      have hrid : r.id = g.reimbursementId := by
        split at hid <;> exact hid
      have tied := agreed.bound g hg confirmed r hr hrid
      split
      · rename_i hp
        have hcid : g.contractId = cid := by
          simp only [pendingOn, boundTo, tied, Bool.and_eq_true, decide_eq_true_eq,
            Option.some.injEq] at hp
          exact hp.1
        have other : state ≠ .confirmed := by
          rintro rfl
          exact stays (by simp [hcid, confirmed])
        rw [safe g hg hcid confirmed other r hr hrid] at hp
        cases hp
      · exact tied

private theorem Agreed.matched (agreed : Agreed s) {cid issuer assignee : Uuid}
    {newId : Uuid → Uuid}
    (nodup : ((newSuggestions s cid (suggestionsFor s cid issuer assignee) newId).map
      (·.id)).Nodup)
    (fresh : ∀ g ∈ newSuggestions s cid (suggestionsFor s cid issuer assignee) newId,
      s.suggestion? g.id = none) :
    Agreed { s with
      suggestions :=
        s.suggestions.map (refreshSuggestion cid (suggestionsFor s cid issuer assignee)) ++
          newSuggestions s cid (suggestionsFor s cid issuer assignee) newId } := by
  have origin : ∀ g' ∈ s.suggestions.map
        (refreshSuggestion cid (suggestionsFor s cid issuer assignee)) ++
      newSuggestions s cid (suggestionsFor s cid issuer assignee) newId,
      (∃ g ∈ s.suggestions, g'.contractId = g.contractId ∧
        g'.reimbursementId = g.reimbursementId ∧ g'.state = g.state) ∨
      (g'.state = .pending ∧ ∃ r ∈ s.reimbursements, r.id = g'.reimbursementId) := by
    intro g' hg'
    rcases List.mem_append.mp hg' with hg' | hg'
    · obtain ⟨g, hg, rfl⟩ := List.mem_map.mp hg'
      exact .inl ⟨g, hg, by simp⟩
    · obtain ⟨p, hp, rfl⟩ := List.mem_map.mp hg'
      obtain ⟨r, hr, -, hid⟩ := mem_suggestionsFor (List.mem_of_mem_filter hp)
      exact .inr ⟨rfl, r, hr, hid⟩
  refine ⟨agreed.contracts, ?_, agreed.rows, ?_, ?_⟩
  · have refreshed : Keyed Suggestion.id (s.suggestions.map
        (refreshSuggestion cid (suggestionsFor s cid issuer assignee))) :=
      agreed.ids.map fun _ => refreshSuggestion_id _ _ _
    refine refreshed.append_list nodup ?_
    intro g' hg' b hb same
    obtain ⟨g, hg, rfl⟩ := List.mem_map.mp hg'
    rw [refreshSuggestion_id] at same
    exact lookup_eq_none.mp (fresh b hb) g hg same
  · intro g' hg'
    rcases origin g' hg' with ⟨g, hg, -, hrid, -⟩ | ⟨-, r, hr, hid⟩
    · rw [hrid]
      exact agreed.known g hg
    · exact reimbursement?_ne_none.mpr ⟨r, hr, hid⟩
  · intro g' hg' confirmed r hr hid
    rcases origin g' hg' with ⟨g, hg, hcid, hrid, hstate⟩ | ⟨pending, -⟩
    · rw [hcid]
      exact agreed.bound g hg (hstate ▸ confirmed) r hr (hid.trans hrid)
    · rw [confirmed] at pending
      cases pending

end Steps

/-- The money of a link fits its columns: the new expected total, and on a finished contract the
delta that the settle writes. -/
def LinkFits (s : Db) (c : Contract) (rid : Uuid) : Prop :=
  ∀ total ∈ boundTotal (bindReimbursement s c.id rid) c.id,
    Fits 20 total ∧ (c.status.isTerminalSuccess = true → Fits 20 (c.priceIsk - total))

instance (s : Db) (c : Contract) (rid : Uuid) : Decidable (LinkFits s c rid) := by
  unfold LinkFits
  infer_instance

section Links
variable {s : Db}

private theorem settleViaContract_accepted {c : Contract} {total : Option Cents}
    (keyed : Keyed Contract.id s.contracts) (hc : c ∈ s.contracts)
    (fits : ∀ t ∈ total, Fits 20 (c.priceIsk - t)) (now : Timestamp) :
    ∃ out, settleViaContract (setExpectedTotal s c.id total) c.id now = .ok out := by
  have found : (setExpectedTotal s c.id total).contract? c.id =
      some { c with expectedTotalIsk := total } := by
    unfold Db.contract? setExpectedTotal
    rw [lookup_updateWhere]
    · rw [(lookup_eq_some keyed).mpr ⟨hc, rfl⟩]
      simp
    · exact fun _ => rfl
  have delta : ∀ x ∈ (setExpectedTotal s c.id total).contracts, x.id = c.id →
      ∀ d ∈ settlementDelta x, Fits 20 d := by
    intro x hx hid d hd
    obtain ⟨y, hy, rfl⟩ := mem_updateWhere.mp hx
    have hy' : y.id = c.id := by
      split at hid <;> exact hid
    obtain rfl := keyed.eq_of_key hy hc hy'
    rw [if_pos (by simp)] at hd
    obtain ⟨t, ht, rfl⟩ := Option.map_eq_some_iff.mp hd
    exact fits t ht
  unfold settleViaContract
  simp only [bind_eq_ok, fetch_eq_ok]
  by_cases idle : (setExpectedTotal s c.id total).reimbursements.filter (pendingOn c.id) = []
  · exact ⟨_, _, found, if_pos idle⟩
  · simp only [if_neg idle, writeSettlementDelta, bind_eq_ok, require_eq_ok]
    exact ⟨_, _, found, _, ⟨(), delta, rfl⟩, rfl⟩

private theorem finalizeLink_accepted {c : Contract} {rid : Uuid}
    (keyed : Keyed Contract.id s.contracts) (hc : c ∈ s.contracts) (fits : LinkFits s c rid)
    (now : Timestamp) : ∃ s', finalizeLink s c rid now = .ok s' := by
  have refreshed : recomputeContractExpectedTotal (bindReimbursement s c.id rid) c.id =
      .ok (setExpectedTotal (bindReimbursement s c.id rid) c.id
        (boundTotal (bindReimbursement s c.id rid) c.id)) := by
    simp only [recomputeContractExpectedTotal, bind_eq_ok, require_eq_ok]
    exact ⟨(), fun _ _ _ t ht => (fits t ht).1, trivial⟩
  unfold finalizeLink
  simp only [bind_eq_ok, mapError_eq_ok]
  by_cases finished : c.status.isTerminalSuccess = true
  · obtain ⟨out, settled⟩ := settleViaContract_accepted (s := bindReimbursement s c.id rid)
      keyed hc (fun t ht => (fits t ht).2 finished) now
    refine ⟨out.2, _, refreshed, ?_⟩
    rw [if_pos finished]
    simp only [bind_eq_ok, mapError_eq_ok, pure_eq_ok]
    exact ⟨out, settled, rfl⟩
  · exact ⟨_, _, refreshed, if_neg finished⟩

/-- In an agreeing state nothing is confirmed for an unbound reimbursement. -/
private theorem Agreed.unconfirmed (agreed : Agreed s) {r : Reimbursement}
    (hr : r ∈ s.reimbursements) (unbound : r.contractId = none) (self : Suggestion → Bool) :
    ¬ confirmedElsewhere s r.id self := by
  rintro ⟨g, hg, hrid, confirmed, -⟩
  have tied := agreed.bound g hg confirmed r hr hrid.symm
  rw [unbound] at tied
  cases tied

private theorem doManualLink_accepted (agreed : Agreed s) {userId cid rid newId : Uuid}
    {now : Timestamp}
    {c : Contract} {r : Reimbursement} {l : ListRow} (hc : s.contract? cid = some c)
    (hr : s.reimbursement? rid = some r) (hl : s.list? r.listId = some l)
    (valid : validateLink s c r l.groupId userId = .ok ()) (fresh : s.suggestion? newId = none)
    (fits : LinkFits s c r.id) : ∃ s', doManualLink s userId cid rid newId now = .ok s' := by
  obtain ⟨-, unbound, -⟩ := validateLink_ok valid
  have free := agreed.unconfirmed (lookup_mem hr).1 unbound (pairOf c.id r.id)
  obtain ⟨gs, hup⟩ : ∃ gs, upsertConfirmed s c.id r.id newId = .ok { s with suggestions := gs } := by
    simp only [upsertConfirmed, bind_eq_ok, require_eq_ok]
    by_cases known : s.suggestions.any (pairOf c.id r.id) = true
    · exact ⟨_, (), free, if_pos known⟩
    · simp only [if_neg known, bind_eq_ok, require_eq_ok]
      exact ⟨_, (), free, (), fresh, rfl⟩
  obtain ⟨s', linked⟩ := finalizeLink_accepted (s := { s with suggestions := gs })
    agreed.contracts (lookup_mem hc).1 fits now
  refine ⟨s', ?_⟩
  simp only [doManualLink, bind_eq_ok, fetch_eq_ok]
  exact ⟨c, hc, r, hr, l, hl, (), valid, _, hup, linked⟩

end Links

private theorem agreed_step (s : Db) (o : Op) (s' : Db) (inv : (ledger s).Ok ∧ Agreed s)
    (safe : UnbindSafe s o) (h : apply o s = .ok s') : (ledger s').Ok ∧ Agreed s' := by
  obtain ⟨books, agreed⟩ := inv
  have books' := ledgerOk_step s o s' books h
  have rows : Keyed Reimbursement.id s'.reimbursements := by
    have h := books'.dues
    unfold Keyed at h ⊢
    simp only [ledger, List.map_map] at h
    exact h
  refine ⟨books', ?_⟩
  cases linkStep_of_ok h with
  | kept h => exact agreed.kept rows h
  | upserted h => exact agreed.upsertContract h
  | rejected h =>
    subst h
    refine { agreed with ids := agreed.ids.updateWhere fun _ => rfl, known := ?_, bound := ?_ }
    · intro g' hg'
      obtain ⟨g, hg, rfl⟩ := mem_updateWhere.mp hg'
      have := agreed.known g hg
      split <;> exact this
    · intro g' hg' confirmed
      obtain ⟨g, hg, rfl⟩ := mem_updateWhere.mp hg'
      split at confirmed
      · cases confirmed
      · rename_i other
        rw [if_neg other]
        exact agreed.bound g hg confirmed
  | confirmed hg _ hr _ unbound h => exact (agreed.confirmed hg hr unbound).kept rows h
  | linked hr _ unbound hup h => exact (agreed.linked hr unbound hup).kept rows h
  | unlinked h => exact (agreed.unbind fun _ _ _ _ other => absurd rfl other).kept rows h
  | unbound call h =>
    refine (agreed.unbind ?_).kept rows h
    exact fun g hg hcid confirmed _ => safe _ call g hg hcid confirmed
  | matched _ nodup fresh h =>
    subst h
    exact agreed.matched nodup fresh

private theorem agreed_empty : Agreed empty :=
  ⟨List.nodup_nil, List.nodup_nil, List.nodup_nil, by simp [empty], by simp [empty]⟩

/-- Suggestion and binding: along every run that unbinds no pending reimbursement with a confirmed
suggestion, confirmed suggestions are bindings, the index refuses no valid manual link, and such
a link goes through when its amounts fit. -/
theorem suggestions_agree {ops : List Op} (safe : Meets apply UnbindSafe empty ops) :
    (∀ g ∈ (reached ops).suggestions, g.state = .confirmed →
      ∀ r ∈ (reached ops).reimbursements, r.id = g.reimbursementId →
        r.contractId = some g.contractId) ∧
    ∀ userId cid rid newId now c r l, (reached ops).contract? cid = some c →
      (reached ops).reimbursement? rid = some r → (reached ops).list? r.listId = some l →
      r.status = .pending → r.contractId = none →
      validateLink (reached ops) c r l.groupId userId = .ok () →
      ¬ confirmedElsewhere (reached ops) r.id (pairOf c.id r.id) ∧
      ((reached ops).suggestion? newId = none → LinkFits (reached ops) c r.id →
        ∃ s', doManualLink (reached ops) userId cid rid newId now = .ok s') := by
  obtain ⟨-, agreed⟩ : (ledger (reached ops)).Ok ∧ Agreed (reached ops) :=
    meets_invariant agreed_step ⟨ledgerOk_empty, agreed_empty⟩ safe
  refine ⟨agreed.bound, ?_⟩
  intro userId cid rid newId now c r l hc hr hl _ unbound valid
  exact ⟨agreed.unconfirmed (lookup_mem hr).1 unbound _, doManualLink_accepted agreed hc hr hl valid⟩

/-- A purchase that is linked to a contract, unlinked again, and the contract cancelled. -/
def unlinkedRun : List Op :=
  [.directory sampleDirectory,
    .create sampleLimits 1 1 [⟨34, "Tritanium", 10, 1⟩] 1 [1],
    .recordFulfillment 3 1 1 (samplePurchase 5 1) ⟨1, 1, 0⟩,
    .upsertContract (sampleContract .outstanding) 1,
    .doManualLink 3 1 1 1 1,
    .doUnlink 3 1,
    .handleContractTerminal ⟨1, .cancelled, true⟩ 2]

theorem suggestions_agree_unlinkedRun :
    Meets apply UnbindSafe empty unlinkedRun ∧
      (∀ g ∈ (reached unlinkedRun).suggestions, g.state = .confirmed →
        ∀ r ∈ (reached unlinkedRun).reimbursements, r.id = g.reimbursementId →
          r.contractId = some g.contractId) ∧
      ∃ s', doManualLink (reached unlinkedRun) 3 1 1 2 3 = .ok s' := by
  have safe : Meets apply UnbindSafe empty unlinkedRun := by decide +kernel
  obtain ⟨agree, accepted⟩ := suggestions_agree safe
  obtain ⟨c, -, r, -, l, -, hc, hr, hl, pending, unbound, valid, fits⟩ :
      ∃ c ∈ (reached unlinkedRun).contracts, ∃ r ∈ (reached unlinkedRun).reimbursements,
      ∃ l ∈ (reached unlinkedRun).lists, (reached unlinkedRun).contract? 1 = some c ∧
      (reached unlinkedRun).reimbursement? 1 = some r ∧
      (reached unlinkedRun).list? r.listId = some l ∧ r.status = .pending ∧
      r.contractId = none ∧ validateLink (reached unlinkedRun) c r l.groupId 3 = .ok () ∧
      LinkFits (reached unlinkedRun) c r.id := by
    decide +kernel
  exact ⟨safe, agree,
    (accepted 3 1 1 2 3 c r l hc hr hl pending unbound valid).2 (by decide +kernel) fits⟩

/-- The contract is cancelled while the purchase is linked to it. -/
def cancelledRun : List Op :=
  [.directory sampleDirectory,
    .create sampleLimits 1 1 [⟨34, "Tritanium", 10, 1⟩] 1 [1],
    .recordFulfillment 3 1 1 (samplePurchase 5 1) ⟨1, 1, 0⟩,
    .upsertContract (sampleContract .outstanding) 1,
    .doManualLink 3 1 1 1 1,
    .upsertContract (sampleContract .cancelled) 1,
    .handleContractTerminal ⟨1, .cancelled, true⟩ 2,
    .upsertContract { sampleContract .outstanding with esiContractId := 10 } 2]

/-- The confirmed suggestion outlives the binding, and the link to the next contract, which is
valid, is refused by the index. -/
theorem stale_confirmation_refuses_link :
    (∃ g ∈ (reached cancelledRun).suggestions, g.state = .confirmed ∧
      ∃ r ∈ (reached cancelledRun).reimbursements, r.id = g.reimbursementId ∧
        r.contractId = none ∧ r.status = .pending) ∧
    (∃ c ∈ (reached cancelledRun).contracts, c.id = 2 ∧
      ∃ r ∈ (reached cancelledRun).reimbursements, r.id = 1 ∧
        validateLink (reached cancelledRun) c r 1 3 = .ok ()) ∧
    doManualLink (reached cancelledRun) 3 2 1 2 3 = .error confirmedDup := by
  decide +kernel

end JitaCart.Contracts
