/- module: JitaCart/Concurrent/PayerAgreement
   source: backend/crates/api/src/corps.rs (patch_list_payer),
     backend/crates/api/src/fulfillment/fulfillments.rs,
     backend/crates/api/src/fulfillment/reimbursements.rs (upsert_reimbursement)
   digest: Whether the reimbursements of a list agree with its payer, under interleaved requests. -/

import JitaCart.Books.Projection
import JitaCart.Concurrent.SettledRows

/-!
`patch_list_payer` reads that the list has no reimbursements before it holds the
list. A purchase that commits between that read and the update is billed to the
payer that the update replaces.
-/

set_option autoImplicit false
set_option relaxedAutoImplicit false

namespace JitaCart.Concurrent.Trade

open Schema Base.Table Base.Request Base.ReadCommitted

/-- The reimbursement is billed as the list's payer says. -/
structure BilledTo (d : Directory) (l : ListRow) (r : Reimbursement) : Prop where
  funded : r.isCorpFunded = l.payer.isSome
  corp : ∀ p ∈ l.payer, d.corpPrincipal p.corpId = some r.requesterPrincipalId
  personal : l.payer = none →
    ∃ userId ∈ r.requesterUserId, d.userPrincipal userId = some r.requesterPrincipalId

instance (d : Directory) (l : ListRow) (r : Reimbursement) : Decidable (BilledTo d l r) :=
  decidable_of_iff (r.isCorpFunded = l.payer.isSome ∧
    (∀ p ∈ l.payer, d.corpPrincipal p.corpId = some r.requesterPrincipalId) ∧
    (l.payer = none →
      ∃ userId ∈ r.requesterUserId, d.userPrincipal userId = some r.requesterPrincipalId))
    ⟨fun h => ⟨h.1, h.2.1, h.2.2⟩, fun h => ⟨h.funded, h.corp, h.personal⟩⟩

def PayersAgree (s : Shop) : Prop :=
  ∀ r ∈ s.reimbursements, ∀ l ∈ s.list? r.listId, BilledTo s.directory l r

instance (s : Shop) : Decidable (PayersAgree s) := by
  unfold PayersAgree
  infer_instance

def TradeRequest.patches : TradeRequest → Option Uuid
  | .patchListPayer _ listId _ => some listId
  | _ => none

/-- A purchase, a reversal, or a change of a list's payer. -/
def TradeRequest.bills (q : TradeRequest) : Bool := q.buys || q.patches.isSome

/-- When the statement of a `patch_list_payer` that locks the list runs, the list has still no
reimbursement. -/
def StillUnbilled (q : TradeRequest) (c : Shop) (st : Statement Shop Row) : Prop :=
  ∀ listId ∈ q.patches, .list listId ∈ st.planned → ∀ r ∈ c.reimbursements, r.listId ≠ listId

instance (q : TradeRequest) (c : Shop) (st : Statement Shop Row) :
    Decidable (StillUnbilled q c st) := by
  unfold StillUnbilled
  infer_instance

/-- The payer of a list is changed while it has no reimbursement. -/
def Unraced (w : Store Shop Write Row TradeRequest) : Action Row TradeRequest → Prop
  | .exec id => ∀ t ∈ w.active, t.id = id → ∀ p ∈ t.waiting,
      StillUnbilled t.request w.committed p.toStatement
  | _ => True

instance (w : Store Shop Write Row TradeRequest) (a : Action Row TradeRequest) :
    Decidable (Unraced w a) :=
  match a with
  | .exec id => inferInstanceAs (Decidable (∀ t ∈ w.active, t.id = id → ∀ p ∈ t.waiting,
      StillUnbilled t.request w.committed p.toStatement))
  | .begin _ _ | .start _ | .acquire _ _ | .commit _ | .abort _ => .isTrue trivial

def Bills : Assertion Shop Write Row := fun c log _ =>
  (∀ groupId, .dropGroup groupId ∉ log) ∧
    ∀ r, .putReimbursement none r ∈ log → ∀ l ∈ c.list? r.listId, BilledTo c.directory l r

/-- Lists whose payer was changed have no reimbursements. -/
def Unbilled : Assertion Shop Write Row := fun c log _ =>
  ∀ l, .put (.list l) ∈ log → ∀ r ∈ c.reimbursements, r.listId ≠ l.id

private theorem frozen_billed {d : Directory} {l : ListRow} {r r' : Reimbursement}
    (same : frozen r = frozen r') (h : BilledTo d l r) : BilledTo d l r' := by
  simp only [frozen, Prod.mk.injEq] at same
  obtain ⟨-, -, requester, principal, -, -, funded⟩ := same
  exact ⟨funded ▸ h.funded, principal ▸ h.corp, requester ▸ principal ▸ h.personal⟩

/-- A list that a transaction holds has no reimbursements but those it had. -/
private theorem unbilled_untouched {locks : List Row} {c c' : Shop} {log : List Write}
    {q : TradeRequest} (own : ∀ w ∈ log, Owned q locks w) (same : Untouched locks c c')
    (h : Unbilled c log locks) : Unbilled c' log locks := by
  intro l hl r' hr' onList
  have held : .list l.id ∈ locks := ((own _ hl).listed _ rfl).1
  obtain ⟨r, hr, hfrozen⟩ := same.old r' hr' (onList ▸ held)
  exact h l hl r hr ((congrArg (·.2.1) hfrozen).trans onList)

private theorem bills_untouched {locks : List Row} {c c' : Shop} {log : List Write}
    {q : TradeRequest} (own : ∀ w ∈ log, Owned q locks w) (same : Untouched locks c c')
    (directory : c'.directory = c.directory) (h : Bills c log locks) : Bills c' log locks := by
  refine ⟨h.1, fun r hr l hl => ?_⟩
  rw [same.lists _ ((own _ hr).new r rfl).1] at hl
  rw [directory]
  exact h.2 r hr l hl

/-- The promise that payers agree, where no list is billed while its payer is changed. -/
def agreeing : Promise (debts True) where
  inv := PayersAgree
  leaves _ c c' := c'.directory = c.directory
  done _ c log locks := Bills c log locks ∧ Unbilled c log locks
  cond q c _ st := StillUnbilled q c st
  ready _ _ := True
  clear _ _ := True
  refl _ _ := rfl
  trans h h' := h'.trans h
  done_rely right _ _ same directory h :=
    ⟨bills_untouched right.own same directory h.1, unbilled_untouched right.own same h.2⟩

section Programs
variable {q : TradeRequest}

private theorem steady_bills : Steady agreeing q Bills where
  stable := by
    have right : Stable agreeing.terms ((debts True).Right q) := Promise.stable_right
    exact ⟨fun good good' h change => ⟨right.rely good good' h.1 change,
      bills_untouched h.1.own change.1 change.2 h.2⟩, fun same h => ⟨right.same same h.1, h.2⟩⟩
  plain c log locks held ws h _ plain := by
    refine ⟨fun groupId hg => ?_, fun r hr l hl => ?_⟩
    · rcases List.mem_append.mp hg with old | new
      · exact h.2.1 groupId old
      · exact (plain _ new).group groupId rfl
    · rcases List.mem_append.mp hr with old | new
      · exact h.2.2 r old l hl
      · cases (plain _ new).due

private theorem directory_view {log : List Write} {s : Shop}
    (kept : ∀ groupId, .dropGroup groupId ∉ log) : (engine.view s log).directory = s.directory := by
  induction log generalizing s with
  | nil => rfl
  | cons w log ih =>
    have first : (redo w s).directory = s.directory := by
      cases w with
      | put x => cases x <;> rfl
      | drop x => cases x <;> rfl
      | dropGroup groupId => exact absurd List.mem_cons_self (kept groupId)
      | _ => rfl
    exact (ih fun groupId hg => kept groupId (List.mem_cons_of_mem w hg)).trans first

private theorem listed_buying {log : List Write} {locks : List Row} (buys : q.buys = true)
    (own : ∀ w ∈ log, Owned q locks w) : ∀ w ∈ log, w.listed = none := by
  intro w hw
  cases h : w.listed with
  | none => rfl
  | some x => cases buys.symm.trans ((own w hw).listed x h).2

private theorem keeps_upsert_billed {listId requesterUserId haulerUserId newId : Uuid}
    (buys : q.buys = true) :
    agreeing.Keeps q (Locked (.list listId) Bills)
      (upsertReimbursement listId requesterUserId haulerUserId newId) fun _ => Bills := by
  refine keeps_upsertReimbursement (steady_bills.locked _).stable buys (fun _ _ _ h => h.2) ?_
  intro c₁ c₂ log locks held ws h₁ h₂ change _ upserts nothing
  have same : Untouched locks c₁ c₂ := change.1
  have directory : c₂.directory = c₁.directory := change.2
  have lists : (engine.view c₁ log).lists = c₁.lists :=
    view_lists (listed_buying buys h₁.1.own)
  have fair : ∀ new, .putReimbursement none new ∈ ws → ∀ l ∈ c₂.list? new.listId,
      BilledTo c₂.directory l new := by
    intro new hw l hl
    cases hnew : proposal (engine.view c₁ log).toDb listId requesterUserId haulerUserId newId with
    | none =>
      rw [nothing hnew] at hw
      cases hw
    | some x =>
      obtain ⟨l', rp, hp, hl', id, hrp, -, shape⟩ := proposal_eq hnew
      have row : .putReimbursement none new ∈ ws → new = x := by
        rcases upserts x hnew with ⟨_, -, -, rfl⟩ | ⟨_, -, -, rfl⟩ | ⟨-, rfl⟩ <;> simp
      obtain rfl := row hw
      have onList : new.listId = listId := by rw [shape, ← id]; rfl
      have found : c₁.list? listId = some l' := by
        rw [← hl']
        exact congrArg (lookup ListRow.id listId) lists.symm
      rw [onList, same.lists _ h₂.2.2, found] at hl
      obtain rfl := Option.some.inj hl
      rw [directory_view h₁.2.1.1] at hrp
      rw [directory]
      refine ⟨by rw [shape]; rfl, fun p hp => ?_, fun personal => ?_⟩
      · have payer : l'.payer = some p := hp
        rw [payer] at hrp
        rw [shape]
        exact hrp
      · rw [personal] at hrp
        rw [shape]
        refine ⟨requesterUserId, ?_, hrp⟩
        simp [Api.Reimbursements.proposed, personal]
  refine ⟨fun groupId hg => ?_, fun r hr l hl => ?_⟩
  · rcases List.mem_append.mp hg with old | new
    · exact h₂.2.1.1 groupId old
    · cases hnew : proposal (engine.view c₁ log).toDb listId requesterUserId haulerUserId newId with
      | none =>
        rw [nothing hnew] at new
        cases new
      | some x =>
        rcases upserts x hnew with ⟨_, -, -, rfl⟩ | ⟨_, -, -, rfl⟩ | ⟨-, rfl⟩ <;> simp at new
  · rcases List.mem_append.mp hr with old | new
    · exact h₂.2.1.2 r old l hl
    · exact fair r new l hl

def Unwritten : Assertion Shop Write Row := fun _ log _ => log = []

private theorem keeps_unwritten {α : Type} {p : Program α} (emits : p.Emits fun _ => False) :
    agreeing.Keeps q Unwritten p fun _ => Unwritten := by
  refine Promise.keeps_emits (Promise.stable_with ⟨fun _ _ h _ => h, fun _ h => h⟩)
    (fun _ _ _ h => h.elim) (fun c log locks held ws h _ silent => ?_) emits
  have nothing : ws = [] := List.eq_nil_iff_forall_not_mem.mpr silent
  exact List.append_eq_nil_iff.mpr ⟨h.2, nothing⟩

private theorem keeps_patchListPayer_unbilled (userId listId : Uuid)
    (body : Api.Lists.PatchListPayerBody) :
    agreeing.Keeps (.patchListPayer userId listId body) Unwritten
      (patchListPayer userId listId body) fun _ c log locks =>
        Bills c log locks ∧ Unbilled c log locks := by
  refine triple_checked fun payer _ => (keeps_unwritten (Prog.emits_select _)).bind fun groupId =>
    (keeps_unwritten (Prog.emits_select _)).bind fun _ =>
    (keeps_unwritten (Prog.emits_select _)).bind fun _ => Triple.bind
    (keeps_changeLists (Promise.stable_with ⟨fun _ _ h _ => h, fun _ h => h⟩) rfl
      (by exact fun _ => rfl) ?_) fun _ => triple_pure fun _ _ _ _ h => h
  rintro snapshot c log locks held planned found ⟨-, rfl⟩ - unbilled rows
  refine ⟨⟨by simp, by simp⟩, fun l hl r hr => ?_⟩
  obtain ⟨x, hx, hw⟩ := List.mem_map.mp hl
  obtain rfl := Record.list.inj (Write.put.inj hw)
  obtain ⟨same, locked⟩ := rows x hx
  have id : x.id = listId := of_decide_eq_true same
  have free := unbilled listId rfl (id ▸ locked) r hr
  exact id ▸ free

private theorem keeps_bills (q : TradeRequest) (bills : q.bills = true) :
    agreeing.Keeps q Unwritten (program q) fun _ c log locks =>
      Bills c log locks ∧ Unbilled c log locks := by
  have buying {p : Program Unit} (buys : q.buys = true)
      (h : agreeing.Keeps q Bills p fun _ => Bills) :
      agreeing.Keeps q Unwritten p fun _ c log locks => Bills c log locks ∧ Unbilled c log locks := by
    refine h.imp (fun c log locks _ h => ⟨h.1, ?_⟩) fun _ c log locks _ h => ⟨h.1, h.2, ?_⟩
    · obtain rfl := h.2
      exact ⟨by simp, by simp⟩
    · intro l hl
      cases listed_buying buys h.1.own _ hl
  cases q with
  | recordFulfillment userId listId itemId body gen =>
    exact buying rfl (keeps_recordFulfillment steady_bills fun _ => keeps_upsert_billed rfl)
  | reverseFulfillment userId fulfillmentId newId now =>
    exact buying rfl (keeps_reverseFulfillment steady_bills fun _ _ _ => keeps_upsert_billed rfl)
  | patchListPayer userId listId body => exact keeps_patchListPayer_unbilled userId listId body
  | _ => cases bills

end Programs

/-- What a log makes of the reimbursements keeps their frozen columns or is new. -/
private theorem mem_view {s : Shop} {log : List Write} {r' : Reimbursement}
    (replays : (debts True).Replays log s) (hr' : r' ∈ (engine.view s log).reimbursements) :
    (∃ r ∈ s.reimbursements, frozen r = frozen r') ∨
      ∃ r, .putReimbursement none r ∈ log ∧ frozen r = frozen r' := by
  induction log generalizing s with
  | nil => exact .inl ⟨r', hr', rfl⟩
  | cons w log ih =>
    rcases ih replays.2 hr' with ⟨r, hr, same⟩ | ⟨r, hr, same⟩
    · rcases mem_redo hr with ⟨old, -⟩ | ⟨before, rfl⟩
      · exact .inl ⟨r, old, same⟩
      · cases before with
        | none => exact .inr ⟨r, List.mem_cons_self, same⟩
        | some b =>
          obtain ⟨current, -, next⟩ := replays.1
          exact .inl ⟨b, (lookup_mem current).1, next.symm.trans same⟩
    · exact .inr ⟨r, List.mem_cons_of_mem w hr, same⟩

private theorem list?_view {s : Shop} {log : List Write} {listId : Uuid}
    (replays : (debts True).Replays log s) (other : ∀ l, .put (.list l) ∈ log → l.id ≠ listId) :
    (engine.view s log).list? listId = s.list? listId := by
  induction log generalizing s with
  | nil => rfl
  | cons w log ih =>
    have rest := ih replays.2 fun l hl => other l (List.mem_cons_of_mem w hl)
    refine rest.trans ?_
    show (redo w s).list? listId = s.list? listId
    rw [list?_redo]
    cases h : w.listed with
    | none => rfl
    | some x =>
      have differs : x.1 ≠ listId := by
        cases w with
        | put y =>
          cases y with
          | list l =>
            obtain rfl := Option.some.inj h
            exact other l List.mem_cons_self
          | _ => cases h
        | drop y =>
          cases y with
          | list l => exact absurd trivial replays.1
          | _ => cases h
        | _ => cases h
      simp [Option.filter, differs]

private theorem agreeing_commit {q : TradeRequest} {c : Shop} {log : List Write} {locks : List Row}
    (agree : PayersAgree c)
    (done : (debts True).With q (agreeing.done q) c log locks) : PayersAgree (engine.view c log) := by
  obtain ⟨right, bills, unbilled⟩ := done
  intro r' hr' l hl
  rw [directory_view bills.1]
  rcases mem_view right.replays hr' with ⟨r, hr, same⟩ | ⟨r, hr, same⟩
  · have onList : r.listId = r'.listId := congrArg (·.2.1) same
    have kept : (engine.view c log).list? r'.listId = c.list? r'.listId :=
      list?_view right.replays fun x hx eq => unbilled x hx r hr (onList.trans eq.symm)
    rw [kept, ← onList] at hl
    exact frozen_billed same (agree r hr l hl)
  · have onList : r.listId = r'.listId := congrArg (·.2.1) same
    have own : Owned q locks _ := right.own _ hr
    have kept : (engine.view c log).list? r'.listId = c.list? r'.listId :=
      congrArg (lookup ListRow.id r'.listId) (view_lists (listed_buying (own.new r rfl).2 right.own))
    rw [kept, ← onList] at hl
    exact frozen_billed same (bills.2 r hr l hl)

private theorem sound_agreeing : Sound engine agreeing.terms fun q => q.bills = true := by
  refine Promise.sound _ (fun q bills => ?_) fun q c log locks agree done _ =>
    ⟨agreeing_commit agree done, fun _ _ => directory_view done.2.1.1⟩
  refine (keeps_bills q bills).imp (fun c log locks good h => ?_) fun _ _ _ _ _ h => h
  obtain ⟨rfl, rfl⟩ := h
  exact ⟨.nil good.1, rfl⟩

/-- In every run of purchases, reversals and changes of payers where no list is billed between the
check and the update of `patch_list_payer`, every reimbursement of every committed state agrees with
the payer of its list, and no purchase is covered by a personal and a corp-funded reimbursement. -/
theorem payers_agree_unless_raced {s : Shop} (good : Sorted True s) (start : PayersAgree s)
    {as : List (Action Row TradeRequest)}
    (known : ∀ id q, .begin id q ∈ as → q.bills = true)
    (unraced : Meets (step engine) Unraced ⟨s, []⟩ as) :
    (∀ r ∈ (run (step engine) ⟨s, []⟩ as).committed.reimbursements, ∃ l,
      (run (step engine) ⟨s, []⟩ as).committed.list? r.listId = some l ∧
        BilledTo (run (step engine) ⟨s, []⟩ as).committed.directory l r) ∧
    ∀ r ∈ (run (step engine) ⟨s, []⟩ as).committed.reimbursements,
      ∀ r' ∈ (run (step engine) ⟨s, []⟩ as).committed.reimbursements, ∀ f,
        Books.covers (run (step engine) ⟨s, []⟩ as).committed.toDb r f = true →
        Books.covers (run (step engine) ⟨s, []⟩ as).committed.toDb r' f = true →
          r.isCorpFunded = r'.isCorpFunded := by
  have allowed : Meets (step engine) (Allowed agreeing.terms fun q => q.bills = true) ⟨s, []⟩ as := by
    have begins : Meets (step engine) (fun _ a => ∀ id q, a = .begin id q → q.bills = true)
        ⟨s, []⟩ as := meets_of_forall fun before a after split id q h =>
      known id q (split ▸ h ▸ List.mem_append_right _ List.mem_cons_self)
    refine (begins.and unraced).imp fun w a h => ?_
    cases a with
    | begin id q => exact h.1 id q rfl
    | exec id => exact fun t ht hid p hp _ => h.2 t ht hid p hp
    | commit id => exact fun _ _ _ _ => ⟨trivial, fun _ _ _ => trivial⟩
    | _ => trivial
  have ok := Promise.kept_run sound_agreeing good start allowed
  have agree : PayersAgree (run (step engine) ⟨s, []⟩ as).committed := ok.good.2
  have billed (r : Reimbursement)
      (hr : r ∈ (run (step engine) ⟨s, []⟩ as).committed.reimbursements) : ∃ l,
      (run (step engine) ⟨s, []⟩ as).committed.list? r.listId = some l ∧
        BilledTo (run (step engine) ⟨s, []⟩ as).committed.directory l r := by
    obtain ⟨l, hl⟩ := Option.isSome_iff_exists.mp (ok.good.1.refs trivial r hr)
    exact ⟨l, hl, agree r hr l hl⟩
  refine ⟨billed, fun r hr r' hr' f covers covers' => ?_⟩
  have same : r.listId = r'.listId := by
    unfold Books.covers at covers covers'
    obtain ⟨li, hli, h⟩ := (Option.any_eq_true _ _).mp covers
    obtain ⟨li', hli', h'⟩ := (Option.any_eq_true _ _).mp covers'
    obtain rfl := Option.some.inj (hli.symm.trans hli')
    simp only [Bool.and_eq_true, decide_eq_true_eq] at h h'
    exact h.1.1.symm.trans h'.1.1
  obtain ⟨l, hl, funded, -, -⟩ := billed r hr
  obtain ⟨l', hl', funded', -, -⟩ := billed r' hr'
  rw [same, hl'] at hl
  obtain rfl := Option.some.inj hl
  exact funded.trans funded'.symm

def openShop : Shop where
  directory := fairGroup
  lists := [fairList]
  listItems := [⟨1, 1, 34, "Tritanium", 10, 0, 1, .open, 1⟩]

def buying (fulfillmentId reimbursementId : Uuid) : TradeRequest :=
  .recordFulfillment 3 1 1 ⟨2, 5, none, some "Jita", none, none⟩
    ⟨fulfillmentId, reimbursementId, 0⟩

def toCorp : TradeRequest := .patchListPayer 1 1 ⟨some 7, some 1⟩

/-- The statements of a purchase up to the upsert, which locks these rows. -/
def purchaseTurns (id : Nat) (fulfillmentId : Uuid) (upsert : List Row) :
    List (Action Row TradeRequest) :=
  List.flatten [Action.turn id [], Action.turn id [.list 1], Action.turn id [.item 1],
    Action.turn id [], Action.turn id [], Action.turn id [],
    Action.turn id [.fulfillment fulfillmentId], Action.turn id [], Action.turn id [],
    Action.turn id [.item 1], Action.turn id upsert]

/-- The payer is changed, then the list is bought for. -/
def patchThenBuy : List (Action Row TradeRequest) :=
  List.flatten [[.begin 1 toCorp], Action.turn 1 [], Action.turn 1 [], Action.turn 1 [],
    Action.turn 1 [.list 1], [.commit 1, .begin 2 (buying 1 1)],
    purchaseTurns 2 1 [.cycle (1, 7, 3), .reimbursement 1], [.commit 2]]

theorem payers_agree_patch_then_buy :
    (run (step engine) ⟨openShop, []⟩ patchThenBuy).committed.reimbursements.map
        (fun r => (r.isCorpFunded, r.subtotalIsk)) = [(true, 1000)] ∧
      ∀ r ∈ (run (step engine) ⟨openShop, []⟩ patchThenBuy).committed.reimbursements, ∃ l,
        (run (step engine) ⟨openShop, []⟩ patchThenBuy).committed.list? r.listId = some l ∧
          BilledTo (run (step engine) ⟨openShop, []⟩ patchThenBuy).committed.directory l r := by
  have good : Sorted True openShop := ⟨by decide, by decide, by simp [openShop]⟩
  have known : ∀ id q, .begin id q ∈ patchThenBuy → q.bills = true := by
    intro id q h
    simp only [patchThenBuy, purchaseTurns, Action.turn, List.flatten_cons, List.flatten_nil,
      List.map_nil, List.map_cons, List.nil_append, List.cons_append, List.append_nil, List.mem_cons,
      Action.begin.injEq, reduceCtorEq, List.not_mem_nil, false_or, or_false] at h
    rcases h with ⟨-, rfl⟩ | ⟨-, rfl⟩ <;> rfl
  exact ⟨by decide +kernel,
    (payers_agree_unless_raced good (by decide) known (by decide +kernel)).1⟩

/-- The first purchase commits between the check and the update, the second one after it. -/
def buyThenPatch : List (Action Row TradeRequest) :=
  List.flatten [[.begin 1 toCorp], Action.turn 1 [], Action.turn 1 [], [.begin 2 (buying 1 1)],
    purchaseTurns 2 1 [.cycle (1, 1, 3), .reimbursement 1], [.commit 2], Action.turn 1 [],
    Action.turn 1 [.list 1], [.commit 1, .begin 3 (buying 2 2)],
    purchaseTurns 3 2 [.cycle (1, 7, 3), .reimbursement 2], [.commit 3]]

/-- Both requests commit; the list is corp-funded, its first reimbursement is not, and the first
purchase is in both bills. -/
private theorem payers_disagree_when_raced :
    PayersAgree openShop ∧ Sorted True openShop ∧
      (∀ a ∈ buyThenPatch, ∀ id q, a = .begin id q → q.bills = true) ∧
      (run (step engine) ⟨openShop, []⟩ buyThenPatch).active.length = 0 ∧
      ¬ PayersAgree (run (step engine) ⟨openShop, []⟩ buyThenPatch).committed ∧
      ∃ f ∈ (run (step engine) ⟨openShop, []⟩ buyThenPatch).committed.fulfillments,
        ((run (step engine) ⟨openShop, []⟩ buyThenPatch).committed.reimbursements.filter fun r =>
          Books.covers (run (step engine) ⟨openShop, []⟩ buyThenPatch).committed.toDb r f).map
            (fun r => (r.isCorpFunded, r.subtotalIsk)) = [(false, 1000), (true, 2000)] := by
  refine ⟨by decide, ⟨by decide, by decide, by simp [openShop]⟩, ?_, by decide +kernel,
    by decide +kernel, by decide +kernel⟩
  rintro a ha id q rfl
  simp only [buyThenPatch, purchaseTurns, Action.turn, List.flatten_cons, List.flatten_nil,
    List.map_nil, List.map_cons, List.nil_append, List.cons_append, List.append_nil, List.mem_cons,
    Action.begin.injEq, reduceCtorEq, List.not_mem_nil, false_or, or_false] at ha
  rcases ha with ⟨-, rfl⟩ | ⟨-, rfl⟩ | ⟨-, rfl⟩ <;> rfl

end JitaCart.Concurrent.Trade
