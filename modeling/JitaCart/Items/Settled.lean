/- module: JitaCart/Items/Settled
   source: backend/crates/settlement/src/lib.rs (settle_via_contract, sql_flip_personal,
     sql_flip_corp, settle_manual)
   digest: Settled items have only settled reimbursements; the four flips keep it so. -/

import JitaCart.Books.Conservation
import JitaCart.Items.Stock

set_option autoImplicit false
set_option relaxedAutoImplicit false

namespace JitaCart.Items

open Schema Base.Table Directory Settlement Books Api.Reimbursements

/-- The reimbursement covers the item: same list, its hauler has a live fulfillment on it, and
corp money or the requester's own item. -/
def coversItem (s : Db) (r : Reimbursement) (li : ListItem) : Bool :=
  decide (li.listId = r.listId) && supplied s li.id r.haulerUserId &&
    (r.isCorpFunded || decide (r.requesterUserId = some li.requestedByUserId))

def SettledSound (s : Db) : Prop :=
  ∀ li ∈ s.listItems, li.status = .settled →
    ∀ r ∈ s.reimbursements, coversItem s r li = true → r.status = .settled

def parties (r : Reimbursement) : Uuid × Uuid × Option Uuid × Bool :=
  (r.listId, r.haulerUserId, r.requesterUserId, r.isCorpFunded)

theorem supplied_eq_true {s : Db} {itemId userId : Uuid} :
    supplied s itemId userId = true ↔ ∃ f ∈ s.fulfillments,
      f.live = true ∧ f.listItemId = itemId ∧ f.haulerUserId = userId := by
  simp only [supplied, List.any_eq_true, Bool.and_eq_true, decide_eq_true_eq]
  constructor
  · rintro ⟨f, hf, ⟨hi, hu⟩, hl⟩
    exact ⟨f, hf, hl, hi, hu⟩
  · rintro ⟨f, hf, hl, hi, hu⟩
    exact ⟨f, hf, ⟨hi, hu⟩, hl⟩

theorem coversItem_eq_true {s : Db} {r : Reimbursement} {li : ListItem} :
    coversItem s r li = true ↔ li.listId = r.listId ∧ supplied s li.id r.haulerUserId = true ∧
      (r.isCorpFunded = true ∨ r.requesterUserId = some li.requestedByUserId) := by
  simp [coversItem, and_assoc]

theorem coversItem_congr {s s' : Db} {r r' : Reimbursement} {li li' : ListItem}
    (hr : parties r' = parties r) (hli : lineOf li' = lineOf li)
    (hs : supplied s li.id r.haulerUserId = true → supplied s' li.id r.haulerUserId = true)
    (h : coversItem s r li = true) : coversItem s' r' li' = true := by
  simp only [parties, Prod.mk.injEq] at hr
  simp only [lineOf, Line.mk.injEq] at hli
  obtain ⟨h1, h2, h3, h4⟩ := hr
  obtain ⟨i1, i2, i3⟩ := hli
  rw [coversItem_eq_true] at h ⊢
  rw [h1, h2, h3, h4, i1, i2, i3]
  exact ⟨h.1, hs h.2.1, h.2.2⟩

section Coverage
variable {s : Db} {li : ListItem} {r x : Reimbursement}

theorem keyed_items (ok : (ledger s).Ok) : Keyed ListItem.id s.listItems := by
  have h := ok.lines
  unfold Keyed at h ⊢
  simp only [ledger, List.map_map] at h
  exact h

theorem keyed_reimbursements (ok : (ledger s).Ok) : Keyed Reimbursement.id s.reimbursements := by
  have h := ok.dues
  unfold Keyed at h ⊢
  simp only [ledger, List.map_map] at h
  exact h

theorem item?_of_mem (ok : (ledger s).Ok) (hli : li ∈ s.listItems) :
    s.item? li.id = some li :=
  (lookup_eq_some (keyed_items ok)).mpr ⟨hli, rfl⟩

theorem covers_eq_true {f : Fulfillment} : covers s r f = true ↔ ∃ li, s.item? f.listItemId = some li ∧
    li.listId = r.listId ∧ f.haulerUserId = r.haulerUserId ∧
      (r.isCorpFunded = true ∨ r.requesterUserId = some li.requestedByUserId) := by
  unfold covers
  cases s.item? f.listItemId with
  | none => simp
  | some li => simp [and_assoc]

/-- A reimbursement covers an item through the live fulfillments on it that it covers. -/
private theorem coversItem_iff (ok : (ledger s).Ok) (hli : li ∈ s.listItems) :
    coversItem s r li = true ↔ ∃ f ∈ s.fulfillments,
      f.live = true ∧ f.listItemId = li.id ∧ covers s r f = true := by
  have item := item?_of_mem ok hli
  rw [coversItem_eq_true]
  constructor
  · rintro ⟨hl, hs, hw⟩
    obtain ⟨f, hf, live, hi, hu⟩ := supplied_eq_true.mp hs
    exact ⟨f, hf, live, hi, covers_eq_true.mpr ⟨li, hi ▸ item, hl, hu, hw⟩⟩
  · rintro ⟨f, hf, live, hi, hc⟩
    obtain ⟨x, hx, hl, hu, hw⟩ := covers_eq_true.mp hc
    rw [hi, item] at hx
    obtain rfl := Option.some.inj hx
    exact ⟨hl, supplied_eq_true.mpr ⟨f, hf, live, hi, hu⟩, hw⟩

/-- Every live fulfillment of an item comes with a reimbursement that covers the item. -/
theorem exists_coversItem (ok : (ledger s).Ok) (hli : li ∈ s.listItems) {f : Fulfillment}
    (hf : f ∈ s.fulfillments) (live : f.live = true) (hi : f.listItemId = li.id) :
    ∃ r ∈ s.reimbursements, coversItem s r li = true ∧ covers s r f = true := by
  obtain ⟨r, hr⟩ := covering_unique ok hf live
  have hmem : r ∈ s.reimbursements.filter (covers s · f) := hr ▸ List.mem_singleton.mpr rfl
  obtain ⟨hr, hc⟩ := List.mem_filter.mp hmem
  exact ⟨r, hr, (coversItem_iff ok hli).mpr ⟨f, hf, live, hi, hc⟩, hc⟩

private theorem covering_eq (ok : (ledger s).Ok) {f : Fulfillment} (hf : f ∈ s.fulfillments)
    (live : f.live = true) (hr : r ∈ s.reimbursements) (hx : x ∈ s.reimbursements)
    (hrf : covers s r f = true) (hxf : covers s x f = true) : x = r := by
  obtain ⟨y, hy⟩ := covering_unique ok hf live
  have hr' : r ∈ s.reimbursements.filter (covers s · f) := List.mem_filter.mpr ⟨hr, hrf⟩
  have hx' : x ∈ s.reimbursements.filter (covers s · f) := List.mem_filter.mpr ⟨hx, hxf⟩
  rw [hy, List.mem_singleton] at hr' hx'
  rw [hr', hx']

/-- Two reimbursements that cover one item differ at most in the hauler. -/
private theorem coversItem_same_hauler (ok : (ledger s).Ok) (hli : li ∈ s.listItems)
    (hr : r ∈ s.reimbursements) (hx : x ∈ s.reimbursements) (hrc : coversItem s r li = true)
    (hxc : coversItem s x li = true) (same : x.haulerUserId = r.haulerUserId) : x = r := by
  obtain ⟨f, hf, live, hi, hc⟩ := (coversItem_iff ok hli).mp hrc
  obtain ⟨y, hy, -, hu, -⟩ := covers_eq_true.mp hc
  rw [hi, item?_of_mem ok hli] at hy
  obtain rfl := Option.some.inj hy
  obtain ⟨hl, -, hw⟩ := coversItem_eq_true.mp hxc
  refine covering_eq ok hf live hr hx hc ?_
  exact covers_eq_true.mpr ⟨li, hi ▸ item?_of_mem ok hli, hl, hu.trans same.symm, hw⟩

theorem isCorpFunded_eq (ok : (ledger s).Ok) (hr : r ∈ s.reimbursements)
    (hx : x ∈ s.reimbursements) (same : x.listId = r.listId) :
    x.isCorpFunded = r.isCorpFunded := by
  obtain ⟨p, -, hp, hc, -⟩ := ok.due _ (List.mem_map_of_mem hr)
  obtain ⟨q, -, hq, hd, -⟩ := ok.due _ (List.mem_map_of_mem hx)
  have hpq : q = p := by
    simp only [dueOf] at hp hq
    rw [same, hp] at hq
    exact (Option.some.inj hq).symm
  simp only [dueOf] at hc hd
  rw [hd, hpq, ← hc]

private theorem requesterUserId_eq (ok : (ledger s).Ok) (hr : r ∈ s.reimbursements)
    (hx : x ∈ s.reimbursements) (hrc : coversItem s r li = true)
    (hxc : coversItem s x li = true) : x.requesterUserId = r.requesterUserId := by
  obtain ⟨hl, -, hw⟩ := coversItem_eq_true.mp hrc
  obtain ⟨hl', -, hw'⟩ := coversItem_eq_true.mp hxc
  have alike := isCorpFunded_eq ok hr hx (hl'.symm.trans hl)
  have corpNone : ∀ y ∈ s.reimbursements, y.isCorpFunded = true → y.requesterUserId = none := by
    intro y hy hc
    obtain ⟨p, _, -, hcp, hreq, -⟩ := ok.due _ (List.mem_map_of_mem hy)
    simp only [dueOf] at hcp hreq
    rw [hreq, ← hcp, hc]
    rfl
  by_cases hc : r.isCorpFunded = true
  · rw [corpNone r hr hc, corpNone x hx (alike.trans hc)]
  · rw [hw.resolve_left hc, hw'.resolve_left fun h => hc (alike ▸ h)]

/-- The status read of purchases and reversals finds the row that covers the item. -/
theorem reimbursementStatus_eq (ok : (ledger s).Ok) (hr : r ∈ s.reimbursements)
    (hlist : li.listId = r.listId)
    (who : r.isCorpFunded = true ∨ r.requesterUserId = some li.requestedByUserId) :
    reimbursementStatus s li.listId li.requestedByUserId r.haulerUserId = some r.status := by
  obtain ⟨payer, u, hpay, hcorp, hreq, hrp, hhp, -⟩ := ok.due _ (List.mem_map_of_mem hr)
  rw [payer?_ledger] at hpay
  obtain ⟨l, hl, rfl⟩ := Option.map_eq_some_iff.mp hpay
  simp only [dueOf, ledger] at hl hcorp hreq hrp hhp
  have hrp' : s.directory.requesterPrincipal l.payer li.requestedByUserId =
      some r.requesterPrincipalId := by
    cases hp : l.payer with
    | some p =>
      rw [hp] at hrp
      exact hrp
    | none =>
      simp only [hp, Option.isSome_none, Bool.false_eq_true, if_false] at hcorp hreq
      rw [hcorp, hreq] at who
      have hu : u = li.requestedByUserId := by simpa using who
      rw [hp, hu] at hrp
      exact hrp
  have found : lookup cycle (li.listId, r.requesterPrincipalId, r.haulerPrincipalId)
      s.reimbursements = some r :=
    (lookup_eq_some (keyed_cycle ok)).mpr ⟨hr, by rw [hlist]; rfl⟩
  rw [← hlist] at hl
  simp [reimbursementStatus, hl, hrp', hhp, found]

theorem reimbursementStatus_coversItem (ok : (ledger s).Ok) (hr : r ∈ s.reimbursements)
    (hc : coversItem s r li = true) :
    reimbursementStatus s li.listId li.requestedByUserId r.haulerUserId = some r.status := by
  obtain ⟨hlist, -, who⟩ := coversItem_eq_true.mp hc
  exact reimbursementStatus_eq ok hr hlist who

end Coverage

/-- Soundness survives a step that neither settles an item, nor buys on a settled one, nor
reopens a settled reimbursement. -/
theorem SettledSound.step {s s' : Db} (h : SettledSound s) (ok : (ledger s).Ok)
    (ok' : (ledger s').Ok)
    (items : ∀ li' ∈ s'.listItems, li'.status = .settled →
      ∃ li ∈ s.listItems, lineOf li' = lineOf li ∧ li.status = .settled)
    (purchases : ∀ li' ∈ s'.listItems, li'.status = .settled → ∀ f ∈ s'.fulfillments,
      f.live = true → f.listItemId = li'.id → f ∈ s.fulfillments)
    (dues : ∀ r ∈ s.reimbursements, r.status = .settled →
      ∃ r' ∈ s'.reimbursements, r'.status = .settled ∧ parties r' = parties r) :
    SettledSound s' := by
  intro li' hli' settled r' hr' hcov
  obtain ⟨f, hf, live, hi, hc⟩ := (coversItem_iff ok' hli').mp hcov
  obtain ⟨li, hli, hline, hset⟩ := items li' hli' settled
  have hid : li'.id = li.id := congrArg Line.id hline
  obtain ⟨r, hr, hrc, hrf⟩ :=
    exists_coversItem ok hli (purchases li' hli' settled f hf live hi) live (hi.trans hid)
  obtain ⟨x, hx, hxs, hxp⟩ := dues r hr (h li hli hset r hr hrc)
  have hxf : covers s' x f = true := by
    obtain ⟨y, hy, hl, hu, hw⟩ := covers_eq_true.mp hrf
    rw [hi, hid, item?_of_mem ok hli] at hy
    obtain rfl := Option.some.inj hy
    simp only [parties, Prod.mk.injEq] at hxp
    simp only [lineOf, Line.mk.injEq] at hline
    refine covers_eq_true.mpr ⟨li', hi ▸ item?_of_mem ok' hli', ?_, ?_, ?_⟩
    · rw [hline.2.1, hl, hxp.1]
    · rw [hu, hxp.2.1]
    · rw [hxp.2.2.1, hxp.2.2.2, hline.2.2]
      exact hw
  obtain rfl := covering_eq ok' hf live hx hr' hxf hc
  exact hxs

/-- Flipping keeps soundness when everything that covers a flipped item is settled. -/
theorem SettledSound.flip {s : Db} {p : ListItem → Bool} (h : SettledSound s)
    (flipped : ∀ li ∈ s.listItems, p li = true →
      ∀ r ∈ s.reimbursements, coversItem s r li = true → r.status = .settled) :
    SettledSound (flipItems s p) := by
  intro li' hli' settled r hr hcov
  obtain ⟨li, hli, rfl⟩ := mem_updateWhere.mp hli'
  by_cases hp : p li = true
  · rw [if_pos hp] at hcov
    exact flipped li hli hp r hr hcov
  · rw [if_neg hp] at hcov settled
    exact h li hli settled r hr hcov

section Settle
variable {s : Db} {p : Reimbursement → Bool} {settledAt : Timestamp} {settledBy : Option Uuid}

theorem mem_settleReimbursements {r' : Reimbursement}
    (h : r' ∈ (settleReimbursements s p settledAt settledBy).reimbursements) :
    ∃ r ∈ s.reimbursements, parties r' = parties r ∧ r'.contractId = r.contractId ∧
      ((p r = true ∧ r'.status = .settled) ∨ (p r = false ∧ r' = r)) := by
  obtain ⟨r, hr, rfl⟩ := mem_updateWhere.mp h
  refine ⟨r, hr, ?_⟩
  by_cases hp : p r = true
  · rw [if_pos hp]
    exact ⟨rfl, rfl, .inl ⟨hp, rfl⟩⟩
  · rw [if_neg hp]
    exact ⟨rfl, rfl, .inr ⟨by simpa using hp, rfl⟩⟩

theorem settleReimbursements_image {r : Reimbursement} (hr : r ∈ s.reimbursements)
    (p : Reimbursement → Bool) (settledAt : Timestamp) (settledBy : Option Uuid) :
    ∃ r' ∈ (settleReimbursements s p settledAt settledBy).reimbursements,
      parties r' = parties r ∧ r'.status = if p r then .settled else r.status := by
  refine ⟨_, mem_updateWhere_of_mem hr, ?_⟩
  split <;> exact ⟨rfl, rfl⟩

theorem SettledSound.settleReimbursements (h : SettledSound s) (ok : (ledger s).Ok) :
    SettledSound (settleReimbursements s p settledAt settledBy) := by
  have same : ledger (Settlement.settleReimbursements s p settledAt settledBy) = ledger s :=
    ledger_settleReimbursements (noCancelled ok)
  refine h.step ok (same ▸ ok) (fun li hli hs => ⟨li, hli, rfl, hs⟩)
    (fun _ _ _ f hf _ _ => hf) ?_
  intro r hr hs
  obtain ⟨r', hr', hp, hst⟩ := settleReimbursements_image hr p settledAt settledBy
  refine ⟨r', hr', ?_, hp⟩
  rw [hst, hs]
  split <;> rfl

end Settle

theorem settled_of_not_pending {s : Db} (ok : (ledger s).Ok) {r : Reimbursement}
    (hr : r ∈ s.reimbursements) (h : r.status ≠ .pending) : r.status = .settled := by
  have := noCancelled ok r hr
  cases hs : r.status <;> simp_all

/-- What a manual settle flips is covered by settled reimbursements only. -/
theorem flipHauler_covered {s : Db} (ok : (ledger s).Ok) {r : Reimbursement}
    (hr : r ∈ s.reimbursements) (settled : r.status = .settled) {mine : ListItem → Bool}
    {rival : Reimbursement → Bool} (mode : Mode r mine rival) {li : ListItem}
    (hli : li ∈ s.listItems) (hlist : li.listId = r.listId) (hmine : mine li = true)
    (hs : supplied s li.id r.haulerUserId = true)
    (unblocked : ∀ x ∈ s.reimbursements, x.listId = r.listId → rival x = true →
      x.haulerUserId ≠ r.haulerUserId → x.status = .pending →
        supplied s li.id x.haulerUserId = false) :
    ∀ x ∈ s.reimbursements, coversItem s x li = true → x.status = .settled := by
  have hrc : coversItem s r li = true := by
    refine coversItem_eq_true.mpr ⟨hlist, hs, ?_⟩
    rcases mode with ⟨corp, -, -⟩ | ⟨requester, -, hreq, rfl, -⟩
    · exact .inl corp
    · simp only [requestedBy, decide_eq_true_eq] at hmine
      exact .inr (hreq.trans (congrArg some hmine.symm))
  intro x hx hxc
  by_cases same : x.haulerUserId = r.haulerUserId
  · obtain rfl := coversItem_same_hauler ok hli hr hx hrc hxc same
    exact settled
  · apply settled_of_not_pending ok hx
    intro pending
    obtain ⟨hl, hxs, -⟩ := coversItem_eq_true.mp hxc
    have hrival : rival x = true := by
      rcases mode with ⟨-, -, rfl⟩ | ⟨requester, -, hreq, -, rfl⟩
      · rfl
      · simp [owedBy, requesterUserId_eq ok hr hx hrc hxc, hreq]
    rw [unblocked x hx (hl.symm.trans hlist) hrival same pending] at hxs
    exact Bool.false_ne_true hxs

-- The joins with `principals` in the contract flip, read through the directory.
private theorem suppliedByPrincipal_eq {s : Db} (ok : (ledger s).Ok) {r : Reimbursement}
    (hr : r ∈ s.reimbursements) (itemId : Uuid) :
    suppliedByPrincipal s itemId r.haulerPrincipalId = supplied s itemId r.haulerUserId := by
  obtain ⟨-, -, -, -, -, -, hhp, -⟩ := ok.due _ (List.mem_map_of_mem hr)
  have user := (principalUser_eq_some ok.directory).mpr hhp
  unfold suppliedByPrincipal
  change (Schema.Directory.principalUser (ledger s).directory (dueOf r).haulerPrincipal).any _ = _
  rw [user]
  rfl

private theorem requesterPrincipal_iff {s : Db} (ok : (ledger s).Ok) {r : Reimbursement}
    (hr : r ∈ s.reimbursements) (userId : Uuid) :
    (r.isCorpFunded = true ∨ s.directory.principalUser r.requesterPrincipalId = some userId) ↔
      (r.isCorpFunded = true ∨ r.requesterUserId = some userId) := by
  obtain ⟨payer, u, -, hcorp, hreq, hrp, -, -⟩ := ok.due _ (List.mem_map_of_mem hr)
  simp only [dueOf] at hcorp hreq hrp
  cases payer with
  | some p => simp [hcorp]
  | none =>
    have user := (principalUser_eq_some ok.directory).mpr hrp
    have user' : s.directory.principalUser r.requesterPrincipalId = some u := user
    rw [user', hreq]
    rfl

private theorem haulerPrincipal_ne {s : Db} (ok : (ledger s).Ok) {r x : Reimbursement}
    (hr : r ∈ s.reimbursements) (hx : x ∈ s.reimbursements)
    (h : x.haulerUserId ≠ r.haulerUserId) : x.haulerPrincipalId ≠ r.haulerPrincipalId := by
  obtain ⟨-, -, -, -, -, -, hr', -⟩ := ok.due _ (List.mem_map_of_mem hr)
  obtain ⟨-, -, -, -, -, -, hx', -⟩ := ok.due _ (List.mem_map_of_mem hx)
  intro same
  simp only [dueOf] at hr' hx'
  rw [← same] at hr'
  exact h (userPrincipal_inj ok.directory hx' hr')

/-- The item predicate of the contract flip, with users in place of principals. -/
theorem flipsOnContract_eq_true {s : Db} (ok : (ledger s).Ok) {cid : Uuid} {li : ListItem} :
    flipsOnContract s cid li = true ↔ ∃ r ∈ s.reimbursements, boundTo cid r = true ∧
      coversItem s r li = true ∧ (li.status = .bought ∨ li.status = .delivered) ∧
      blockedOnContract s r li.id = false := by
  simp only [flipsOnContract, List.any_eq_true]
  refine exists_congr fun r => and_congr_right fun hr => ?_
  simp only [Bool.and_eq_true, Bool.or_eq_true, decide_eq_true_eq, Bool.not_eq_true',
    suppliedByPrincipal_eq ok hr, requesterPrincipal_iff ok hr, coversItem_eq_true]
  tauto

theorem blockedOnContract_eq_true {s : Db} (ok : (ledger s).Ok) {r : Reimbursement}
    (hr : r ∈ s.reimbursements) {itemId : Uuid} :
    blockedOnContract s r itemId = true ↔ ∃ x ∈ s.reimbursements, x.listId = r.listId ∧
      x.haulerUserId ≠ r.haulerUserId ∧ x.status = .pending ∧
      supplied s itemId x.haulerUserId = true := by
  simp only [blockedOnContract, List.any_eq_true]
  refine exists_congr fun x => and_congr_right fun hx => ?_
  have ne : x.haulerPrincipalId ≠ r.haulerPrincipalId ↔ x.haulerUserId ≠ r.haulerUserId := by
    refine ⟨fun h same => h ?_, haulerPrincipal_ne ok hr hx⟩
    obtain ⟨-, -, -, -, -, -, hr', -⟩ := ok.due _ (List.mem_map_of_mem hr)
    obtain ⟨-, -, -, -, -, -, hx', -⟩ := ok.due _ (List.mem_map_of_mem hx)
    simp only [dueOf] at hr' hx'
    rw [same, hr'] at hx'
    exact (Option.some.inj hx').symm
  simp only [Bool.and_eq_true, decide_eq_true_eq, suppliedByPrincipal_eq ok hx, ne]
  tauto

/-- What a contract settle flips is covered by settled reimbursements only. -/
theorem flipsOnContract_covered {s : Db} (ok : (ledger s).Ok) {cid : Uuid}
    (bound : ∀ r ∈ s.reimbursements, boundTo cid r = true → r.status ≠ .pending) {li : ListItem}
    (hli : li ∈ s.listItems) (hflip : flipsOnContract s cid li = true) :
    ∀ x ∈ s.reimbursements, coversItem s x li = true → x.status = .settled := by
  obtain ⟨r, hr, hb, hrc, -, unblocked⟩ := (flipsOnContract_eq_true ok).mp hflip
  intro x hx hxc
  by_cases same : x.haulerUserId = r.haulerUserId
  · obtain rfl := coversItem_same_hauler ok hli hr hx hrc hxc same
    exact settled_of_not_pending ok hx (bound x hx hb)
  · apply settled_of_not_pending ok hx
    intro pending
    have hl := (coversItem_eq_true.mp hxc)
    have hl' := (coversItem_eq_true.mp hrc)
    have blocked := (blockedOnContract_eq_true ok hr).mpr
      ⟨x, hx, hl.1.symm.trans hl'.1, same, pending, hl.2.1⟩
    rw [unblocked] at blocked
    exact Bool.false_ne_true blocked

end JitaCart.Items
