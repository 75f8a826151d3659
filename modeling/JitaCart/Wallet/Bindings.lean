/- module: JitaCart/Wallet/Bindings
   source: backend/crates/api/src/contracts.rs, backend/crates/settlement/src/lib.rs
   digest: What wallet verification reads of the database, and which requests change it. -/

import JitaCart.Contracts.LinkStep
import JitaCart.Contracts.Totals
import JitaCart.Worker.CorpWallet

set_option autoImplicit false
set_option relaxedAutoImplicit false

namespace JitaCart.Wallet

open Schema Base.Table Base.Request Settlement Operations Books Contracts
open Api.Extract Api.ItemStatus Api.Claims Api.Fulfillments Api.Reimbursements Api.Lists
open Api.Contracts Worker.Match Worker.Terminal Worker.CorpWallet

def payerOf (s : Db) (listId : Uuid) : Option Payer := (s.list? listId).bind (·.payer)

/-- Identity and list of the reimbursements bound to a contract. -/
def boundRows (s : Db) (cid : Uuid) : List (Uuid × Uuid) :=
  (s.reimbursements.filter (boundTo cid)).map fun r => (r.id, r.listId)

def origin (c : Contract) : Uuid × Int × Option Uuid := (c.id, c.esiContractId, c.sourceCorpId)

/-- Outside the contracts `ex` the bindings are as before, and no debt changed its payer. -/
structure Tied (ex : Uuid → Prop) (s s' : Db) : Prop where
  rows : ∀ cid, ¬ ex cid → boundRows s' cid = boundRows s cid
  payers : ∀ r ∈ s.reimbursements, payerOf s' r.listId = payerOf s r.listId
  contracts : s'.contracts.map origin = s.contracts.map origin

def nowhere (_ : Uuid) : Prop := False

theorem boundPayers_eq (s : Db) (cid : Uuid) :
    boundPayers s cid = (boundRows s cid).filterMap fun b => payerOf s b.2 := by
  unfold boundPayers boundRows payerOf
  rw [List.filterMap_map]
  rfl

section Frames
variable {ex : Uuid → Prop} {s m s' : Db}

theorem Tied.boundPayers (h : Tied ex s s') {cid : Uuid} (hcid : ¬ ex cid) :
    boundPayers s' cid = boundPayers s cid := by
  rw [boundPayers_eq, boundPayers_eq, h.rows cid hcid]
  apply List.filterMap_congr
  intro b hb
  obtain ⟨r, hr, rfl⟩ := List.mem_map.mp hb
  exact h.payers r (List.mem_filter.mp hr).1

private theorem payerOf_of_accounts (h : s'.lists.map accountOf = s.lists.map accountOf)
    (id : Uuid) :
    payerOf s' id = payerOf s id := by
  have same : (ledger s').payer? id = (ledger s).payer? id := by
    unfold Ledger.payer? ledger
    simp only [h]
  rw [payer?_ledger, payer?_ledger] at same
  unfold payerOf
  cases hs' : s'.list? id <;> cases hs : s.list? id <;> simp_all

private theorem payerOf_of_ledger (h : ledger s' = ledger s) (id : Uuid) :
    payerOf s' id = payerOf s id :=
  payerOf_of_accounts (congrArg Ledger.accounts h) id

private theorem payerOf_append {id : Uuid} {l : ListRow} {new : List ListRow}
    (hl : s.list? id = some l)
    (lists : s'.lists = s.lists ++ new) : payerOf s' id = payerOf s id := by
  have found : s'.list? id = some l := by
    unfold Db.list? at hl ⊢
    rw [lists]
    exact lookup_append_of_some hl
  unfold payerOf
  rw [found, hl]

def binding (r : Reimbursement) : Uuid × Uuid × Option Uuid := (r.id, r.listId, r.contractId)

private theorem boundRows_of_bindings
    (h : s'.reimbursements.map binding = s.reimbursements.map binding)
    (cid : Uuid) : boundRows s' cid = boundRows s cid := by
  have view : ∀ t : Db, boundRows t cid =
      ((t.reimbursements.map binding).filter fun b => decide (b.2.2 = some cid)).map
        fun b => (b.1, b.2.1) := by
    intro t
    rw [List.filter_map, List.map_map]
    rfl
  rw [view, view, h]

/-- The reimbursements keep their bindings and the lists their payers. -/
private theorem Tied.of_bindings
    (rows : s'.reimbursements.map binding = s.reimbursements.map binding)
    (books : ledger s' = ledger s) (contracts : s'.contracts.map origin = s.contracts.map origin) :
    Tied ex s s' :=
  ⟨fun cid _ => boundRows_of_bindings rows cid, fun r _ => payerOf_of_ledger books r.listId,
    contracts⟩

private theorem Tied.of_eq (rows : s'.reimbursements = s.reimbursements)
    (lists : s'.lists = s.lists)
    (contracts : s'.contracts.map origin = s.contracts.map origin) : Tied ex s s' := by
  refine ⟨fun cid _ => boundRows_of_bindings (by rw [rows]) cid, fun r _ => ?_, contracts⟩
  unfold payerOf Db.list?
  rw [lists]

private theorem Tied.mono {ex' : Uuid → Prop} (h : Tied ex s s') (wider : ∀ cid, ex cid → ex' cid) :
    Tied ex' s s' :=
  ⟨fun cid hcid => h.rows cid fun hex => hcid (wider cid hex), h.payers, h.contracts⟩

private theorem Tied.trans (h : Tied ex s m) (h' : Tied ex m s')
    (known : ∀ r ∈ s.reimbursements, ∃ r' ∈ m.reimbursements, r'.listId = r.listId) :
    Tied ex s s' := by
  refine ⟨fun cid hcid => (h'.rows cid hcid).trans (h.rows cid hcid), fun r hr => ?_,
    h'.contracts.trans h.contracts⟩
  obtain ⟨r', hr', hlist⟩ := known r hr
  rw [← hlist, h'.payers r' hr', hlist]
  exact h.payers r hr

private theorem tied_upsert {listId requester hauler newId : Uuid}
    (h : upsertReimbursement m listId requester hauler newId = .ok s')
    (rows : m.reimbursements = s.reimbursements) (lists : m.lists = s.lists)
    (contracts : m.contracts = s.contracts) : Tied ex s s' := by
  have payers : ∀ t : Db, t.lists = m.lists → ∀ r ∈ s.reimbursements,
      payerOf t r.listId = payerOf s r.listId := by
    intro t ht r _
    unfold payerOf Db.list?
    rw [ht, lists]
  rcases upsertReimbursement_ok h with
    ⟨-, rfl⟩ | ⟨l, rp, hp, -, -, -, -, -, ⟨-, rfl⟩ | ⟨-, -, rfl⟩⟩
  · exact .of_eq rows lists (by rw [contracts])
  · refine ⟨fun cid _ => boundRows_of_bindings ?_ cid, payers _ rfl, by rw [contracts]⟩
    rw [← rows]
    exact map_updateWhere binding _ fun _ _ _ => rfl
  · refine ⟨fun cid _ => ?_, payers _ rfl, by rw [contracts]⟩
    unfold boundRows
    simp only [List.filter_append, List.map_append, rows]
    exact List.append_nil _

private theorem tied_settleManual (books : (ledger s).Ok) {rid settledBy : Uuid} {now : Timestamp}
    (h : settleManual s rid settledBy now = .ok s') : Tied ex s s' := by
  have same := ledger_settleManual (noCancelled books) h
  obtain ⟨r, mine, rival, lists, -, -, -, -, rfl⟩ := settleManual_ok h
  exact .of_bindings (map_updateWhere binding _ fun _ _ _ => rfl) same rfl

theorem tied_settleViaContract (books : (ledger s).Ok) {cid : Uuid} {now : Timestamp}
    {infos : List ContractSettledReimbursement}
    (h : settleViaContract s cid now = .ok (infos, s')) : Tied ex s s' := by
  have same := ledger_settleViaContract (noCancelled books) h
  obtain ⟨c, -, ⟨-, rfl⟩ | ⟨-, at_, s₁, lists, rfl, rfl⟩⟩ := settleViaContract_ok h
  · exact .of_eq rfl rfl rfl
  · exact .of_bindings (map_updateWhere binding _ fun _ _ _ => rfl) same
      (map_updateWhere origin _ fun _ _ _ => rfl)

/-- Rewriting rows bound to `cid` alone, or not bound at all, shows at no other contract. -/
private theorem tied_rebind {cid : Uuid} {p : Reimbursement → Bool}
    {f : Reimbursement → Reimbursement}
    (rows : s'.reimbursements = updateWhere p f s.reimbursements) (lists : s'.lists = s.lists)
    (contracts : s'.contracts.map origin = s.contracts.map origin)
    (off : ∀ r ∈ s.reimbursements, p r = true → ∀ other, other ≠ cid →
      boundTo other r = false ∧ boundTo other (f r) = false) : Tied (· = cid) s s' := by
  refine ⟨fun other hother => ?_, fun r _ => ?_, contracts⟩
  · unfold boundRows
    rw [rows, filter_updateWhere_off fun r hr hp => off r hr hp other hother]
  · unfold payerOf Db.list?
    rw [lists]

private theorem tied_bind {cid rid : Uuid}
    (rows : s'.reimbursements = (bindReimbursement s cid rid).reimbursements)
    (lists : s'.lists = s.lists) (contracts : s'.contracts.map origin = s.contracts.map origin)
    (unbound : ∀ r ∈ s.reimbursements, r.id = rid → r.contractId = none) :
    Tied (· = cid) s s' := by
  refine tied_rebind rows lists contracts ?_
  intro r hr hp other hother
  have free : r.contractId = none := unbound r hr (by simpa using hp)
  refine ⟨by simp [boundTo, free], by simpa [boundTo] using hother.symm⟩

private theorem tied_unbind {cid : Uuid}
    (rows : s'.reimbursements = (unbindReimbursements s cid).reimbursements)
    (lists : s'.lists = s.lists) (contracts : s'.contracts.map origin = s.contracts.map origin) :
    Tied (· = cid) s s' := by
  refine tied_rebind rows lists contracts ?_
  intro r _ hp other hother
  have bound : r.contractId = some cid := by
    simp only [pendingOn, boundTo, Bool.and_eq_true, decide_eq_true_eq] at hp
    exact hp.1
  refine ⟨by simpa [boundTo, bound] using hother.symm, by simp [boundTo]⟩

private theorem tied_finalizeLink (books : (ledger s).Ok) {c : Contract} {rid : Uuid}
    {now : Timestamp} (unbound : ∀ r ∈ s.reimbursements, r.id = rid → r.contractId = none)
    (h : finalizeLink s c rid now = .ok s') : Tied (· = c.id) s s' := by
  have bound : Tied (· = c.id) s (setExpectedTotal (bindReimbursement s c.id rid) c.id
      (boundTotal (bindReimbursement s c.id rid) c.id)) :=
    tied_bind rfl rfl (map_updateWhere origin _ fun _ _ _ => rfl) unbound
  rcases finalizeLink_ok h with ⟨-, infos, hsettle⟩ | ⟨-, rfl⟩
  · refine bound.trans (tied_settleViaContract ?_ hsettle) fun r hr => ?_
    · exact (ledger_bindReimbursement s c.id rid).symm ▸ books
    · refine ⟨_, mem_updateWhere_of_mem hr, ?_⟩
      split <;> rfl
  · exact bound

end Frames

/-- The contract whose reimbursements an accepted request detaches. -/
def detaches : Op → Option Uuid
  | .doUnlink _ cid => some cid
  | o => unbinds o

def upserts : Op → Option ContractUpsert
  | .upsertContract u _ => some u
  | _ => none

section Requests
variable {ex : Uuid → Prop} {s s' : Db} {cid : Uuid} {now : Timestamp}

private theorem listed_of_books (books : (ledger s).Ok) {r : Reimbursement}
    (hr : r ∈ s.reimbursements) :
    ∃ l, s.list? r.listId = some l := by
  obtain ⟨payer, _, hpayer, _⟩ := books.due (dueOf r) (List.mem_map_of_mem hr)
  rw [payer?_ledger] at hpayer
  obtain ⟨l, hl, _⟩ := Option.map_eq_some_iff.mp hpayer
  exact ⟨l, hl⟩

private theorem Tied.aside (h : Aside s s') : Tied ex s s' :=
  .of_eq h.reimbursements h.lists (by rw [h.contracts])

private theorem tied_create {limits : Limits} {userId groupId listId : Uuid} {lines : List NewLine}
    {itemIds : List Uuid} (books : (ledger s).Ok)
    (h : create s limits userId groupId lines listId itemIds = .ok s') : Tied ex s s' := by
  obtain ⟨role, g, -, -, -, -, h⟩ := create_ok h
  obtain ⟨-, -, -, rfl⟩ := insertItems_ok h
  refine ⟨fun _ _ => rfl, fun r hr => ?_, rfl⟩
  obtain ⟨l, hl⟩ := listed_of_books books hr
  exact payerOf_append hl rfl

private theorem tied_setListTip {userId listId : Uuid} {tipPct : ℚ}
    (h : setListTip s userId listId tipPct = .ok s') : Tied ex s s' := by
  obtain ⟨-, -, rfl⟩ := setListTip_ok h
  refine ⟨fun cid _ => boundRows_of_bindings ?_ cid, fun r _ => payerOf_of_accounts ?_ _, rfl⟩
  · exact map_updateWhere binding _ fun _ _ _ => rfl
  · exact map_updateWhere accountOf _ fun _ _ _ => rfl

private theorem tied_patchListPayer {userId listId : Uuid} {body : PatchListPayerBody}
    (books : (ledger s).Ok) (h : patchListPayer s userId listId body = .ok s') : Tied ex s s' := by
  obtain ⟨payer, l, -, unused, -, rfl⟩ := patchListPayer_ok h
  refine ⟨fun _ _ => rfl, fun r hr => ?_, rfl⟩
  obtain ⟨l', hl'⟩ := listed_of_books books hr
  have hid : l'.id = r.listId := (lookup_mem hl').2
  have same : (setPayer s listId payer).list? r.listId = some l' := by
    unfold setPayer Db.list? at *
    rw [lookup_updateWhere (by exact fun _ => rfl), hl', Option.map_some, if_neg]
    simpa [hid] using unused r hr
  unfold payerOf
  rw [same, hl']

private theorem tied_doConfirm {userId gid : Uuid} (books : (ledger s).Ok)
    (h : doConfirm s userId gid now = .ok s') :
    Tied (fun cid => links s (.doConfirm userId gid now) = some cid) s s' := by
  obtain ⟨g, c, r, hg, hc, hr, -, -, unbound, h⟩ := doConfirm_ok h
  have hid : c.id = g.contractId := (lookup_mem hc).2
  have tied := tied_finalizeLink (by exact books)
    (by exact unbound_of_lookup books hr unbound) h
  refine Tied.mono ⟨tied.rows, tied.payers, tied.contracts⟩ ?_
  rintro _ rfl
  simp [links, hg, hid]

private theorem tied_doManualLink {userId rid newId : Uuid} (books : (ledger s).Ok)
    (h : doManualLink s userId cid rid newId now = .ok s') : Tied (· = cid) s s' := by
  obtain ⟨c, r, m, hc, hr, -, unbound, hup, hlink⟩ := doManualLink_ok h
  obtain rfl : c.id = cid := (lookup_mem hc).2
  obtain ⟨suggestions, rfl⟩ := upsertConfirmed_shape hup
  have tied := tied_finalizeLink (by exact books) (by exact unbound_of_lookup books hr unbound)
    hlink
  exact ⟨tied.rows, tied.payers, tied.contracts⟩

private theorem tied_handleContractTerminal {u : UpsertedContract} (books : (ledger s).Ok)
    (h : handleContractTerminal s u now = .ok s') :
    Tied (fun cid => detaches (.handleContractTerminal u now) = some cid) s s' := by
  rcases handleContractTerminal_ok h with ⟨-, infos, h⟩ | ⟨failure, rfl⟩ | ⟨-, -, rfl⟩
  · exact tied_settleViaContract books h
  · refine Tied.mono (tied_unbind rfl rfl (map_updateWhere origin _ fun _ _ _ => rfl)) ?_
    rintro _ rfl
    exact if_pos failure
  · exact .of_eq rfl rfl rfl

end Requests

/-- Only links and unlinks touch bindings, and only at their own contract. -/
theorem tied_of_ok {s s' : Db} {o : Op} (books : (ledger s).Ok) (notUpsert : upserts o = none)
    (h : apply o s = .ok s') :
    Tied (fun cid => links s o = some cid ∨ detaches o = some cid) s s' := by
  cases plain : isAside o with
  | true => exact .aside (aside_of_ok plain h)
  | false =>
    cases o <;> simp only [apply, mapError_eq_ok, map_eq_ok, Prod.exists, exists_eq_right] at h
    case create => exact tied_create books h
    case patchListStatus =>
      obtain ⟨p, rfl⟩ := patchListStatus_ok h
      exact .of_bindings rfl (ledger_lists s _ _ fun _ => rfl) rfl
    case recordFulfillment =>
      obtain ⟨items, claims, claimItems, purchases, li, -, hup⟩ := recordFulfillment_upserts h
      exact tied_upsert hup rfl rfl rfl
    case reverseFulfillment =>
      obtain ⟨items, purchases, f, li, -, -, hup⟩ := reverseFulfillment_upserts h
      exact tied_upsert hup rfl rfl rfl
    case setListTip => exact tied_setListTip h
    case patchListPayer => exact tied_patchListPayer books h
    case doConfirm => exact (tied_doConfirm books h).mono fun _ => .inl
    case doReject =>
      obtain ⟨g, -, -, rfl⟩ := doReject_ok h
      exact .of_eq rfl rfl rfl
    case doManualLink =>
      refine (tied_doManualLink books h).mono ?_
      rintro _ rfl
      exact .inl rfl
    case doUnlink =>
      obtain ⟨c, -, -, rfl⟩ := doUnlink_ok h
      refine Tied.mono (tied_unbind rfl rfl (map_updateWhere origin _ fun _ _ _ => rfl)) ?_
      rintro _ rfl
      exact .inr rfl
    case settleReimbursement =>
      obtain ⟨r, -, -, h⟩ := settleReimbursement_ok h
      exact tied_settleManual books h
    case settleManual => exact tied_settleManual books h
    case settleViaContract =>
      obtain ⟨infos, h⟩ := h
      exact tied_settleViaContract books h
    case unbindContract =>
      obtain rfl := (Except.ok.inj h).symm
      refine Tied.mono (tied_unbind rfl rfl (map_updateWhere origin _ fun _ _ _ => rfl)) ?_
      rintro _ rfl
      exact .inr rfl
    case handleContractTerminal => exact (tied_handleContractTerminal books h).mono fun _ => .inr
    case upsertContract => cases notUpsert
    case syncItemsFor =>
      obtain ⟨rows, rfl⟩ := syncItemsFor_ok h
      exact .of_eq rfl rfl (map_updateWhere origin _ fun _ _ _ => rfl)
    case runOne =>
      rcases runOne_ok h with rfl | ⟨issuer, assignee, parties, nodup, fresh, rfl⟩
      · exact .of_eq rfl rfl rfl
      · exact .of_eq rfl rfl rfl
    all_goals cases plain

/-- The payers of the pending reimbursements bound to a contract. -/
def pendingPayers (s : Db) (cid : Uuid) : List Payer :=
  (s.reimbursements.filter (pendingOn cid)).filterMap fun r => payerOf s r.listId

section Detach
variable {s s' : Db} {cid : Uuid}

theorem detached_of_ok {o : Op} (detach : detaches o = some cid) (h : apply o s = .ok s') :
    s'.reimbursements = (unbindReimbursements s cid).reimbursements ∧ s'.lists = s.lists := by
  cases o <;> simp only [apply, mapError_eq_ok, map_eq_ok, Prod.exists, exists_eq_right] at h
  case doUnlink userId other =>
    obtain rfl := Option.some.inj detach
    obtain ⟨c, -, -, rfl⟩ := doUnlink_ok h
    exact ⟨rfl, rfl⟩
  case unbindContract other =>
    obtain rfl := Option.some.inj detach
    obtain rfl := (Except.ok.inj h).symm
    exact ⟨rfl, rfl⟩
  case handleContractTerminal u now =>
    simp only [detaches, unbinds] at detach
    split at detach
    · rename_i failure
      obtain rfl := Option.some.inj detach
      rcases handleContractTerminal_ok h with ⟨success, -⟩ | ⟨-, rfl⟩ | ⟨-, alive, -⟩
      · cases hu : u.status <;>
          simp [hu, ContractStatus.isTerminalSuccess, ContractStatus.isTerminalFailure]
            at success failure
      · exact ⟨rfl, rfl⟩
      · rw [failure] at alive
        cases alive
    · cases detach
  all_goals cases detach

theorem boundRows_unbind (rows : s'.reimbursements = (unbindReimbursements s cid).reimbursements) :
    ∀ b ∈ boundRows s' cid, b ∈ boundRows s cid := by
  intro b hb
  obtain ⟨r', hr', rfl⟩ := List.mem_map.mp hb
  obtain ⟨hmem, bound⟩ := List.mem_filter.mp hr'
  rw [rows] at hmem
  obtain ⟨r, hr, rfl⟩ := mem_updateWhere.mp hmem
  by_cases hp : pendingOn cid r = true
  · rw [if_pos hp] at bound
    simp [boundTo] at bound
  · rw [if_neg hp] at bound ⊢
    exact List.mem_map.mpr ⟨r, List.mem_filter.mpr ⟨hr, bound⟩, rfl⟩

private theorem filterMap_unbind {g : Reimbursement → Option Payer} {t : List Reimbursement}
    (free : ∀ r ∈ t, pendingOn cid r = true → g r = none) :
    ((updateWhere (pendingOn cid) (fun r => { r with contractId := none }) t).filter
        (boundTo cid)).filterMap g =
      (t.filter (boundTo cid)).filterMap g := by
  induction t with
  | nil => rfl
  | cons r t ih =>
    have tail := ih fun x hx => free x (List.mem_cons_of_mem r hx)
    unfold updateWhere at tail ⊢
    rw [List.map_cons]
    by_cases hp : pendingOn cid r = true
    · have bound : boundTo cid r = true := (Bool.and_eq_true_iff.mp hp).1
      rw [if_pos hp, List.filter_cons_of_neg (by simp [boundTo]), tail,
        List.filter_cons_of_pos bound, List.filterMap_cons_none (free r List.mem_cons_self hp)]
    · rw [if_neg hp]
      by_cases bound : boundTo cid r = true
      · rw [List.filter_cons_of_pos bound, List.filter_cons_of_pos bound, List.filterMap_cons,
          List.filterMap_cons, tail]
      · rw [List.filter_cons_of_neg bound, List.filter_cons_of_neg bound, tail]

/-- Detaching rows without a payer does not show in the payer query. -/
theorem boundPayers_unbind (rows : s'.reimbursements = (unbindReimbursements s cid).reimbursements)
    (lists : s'.lists = s.lists) (personal : pendingPayers s cid = []) :
    boundPayers s' cid = boundPayers s cid := by
  have unpaid : ∀ r ∈ s.reimbursements, pendingOn cid r = true → payerOf s r.listId = none := by
    intro r hr hp
    rw [pendingPayers, List.filterMap_eq_nil_iff] at personal
    exact personal r (List.mem_filter.mpr ⟨hr, hp⟩)
  have same : boundPayers s' cid =
      (s'.reimbursements.filter (boundTo cid)).filterMap fun r => payerOf s r.listId := by
    unfold boundPayers payerOf Db.list?
    rw [lists]
  rw [same, rows]
  exact filterMap_unbind unpaid

end Detach

end JitaCart.Wallet
