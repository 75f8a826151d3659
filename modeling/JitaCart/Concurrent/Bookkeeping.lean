/- module: JitaCart/Concurrent/Bookkeeping
   source: backend/crates/api/src/fulfillment/fulfillments.rs,
     backend/crates/api/src/fulfillment/reimbursements.rs (upsert_reimbursement),
     backend/crates/api/src/lists/items.rs
   digest: Money conservation under interleaved requests. -/

import JitaCart.Concurrent.PayerAgreement
import JitaCart.Concurrent.Uncharged

/-!
A purchase first breaks the account of its cycle and then mends it by its upsert,
all under the lock of the list. The upsert leaves a settled row alone, so the
account stays broken where the row is settled after its status was read.
-/

set_option autoImplicit false
set_option relaxedAutoImplicit false

namespace JitaCart.Concurrent.Postings

open Schema Base.Table Base.Request Base.Balance Base.ReadCommitted Base.ReadCommitted.Guard
open Books Trade Directory
open Api.Reimbursements (cycle takeAmounts moneyFits moneyNonneg proposed)

/-- A statement of a purchase or a reversal that locks a reimbursement finds it unsettled. -/
def Unsettled (q : TradeRequest) (c : Shop) (log : List Write) (st : Statement Shop Row) : Prop :=
  q.buys = true → ∀ r ∈ (engine.view c log).reimbursements, .reimbursement r.id ∈ st.planned →
    r.status ≠ .settled

section Rules
variable {plan : Ledger} {q : TradeRequest} {rows : List Row} {φ : Shop → Prop}
  {broken : Cycle → Prop}

variable (plan) in
/-- The promise that every account is right, where purchases find their reimbursements unsettled. -/
abbrev conserving : Promise (postings plan) := (accounts plan).promise Unsettled

private theorem lasting_true : Lasting (postings plan) fun _ => True := fun _ _ _ _ _ _ => trivial

private theorem lasting_list (listId : Uuid) :
    Lasting (postings plan) fun s => (s.list? listId).isSome :=
  fun _ _ _ _ same h => Agree.lists same listId h

private theorem lasting_item (itemId : Uuid) :
    Lasting (postings plan) fun s => (s.item? itemId).isSome :=
  fun _ _ _ _ same h => Agree.items same itemId h

/-- The purchase under this id, which is of this item and by this hauler. -/
def BoughtBy (fulfillmentId itemId haulerUserId : Uuid) (s : Shop) : Prop :=
  ∃ g ∈ s.fulfillment? fulfillmentId, g.listItemId = itemId ∧ g.haulerUserId = haulerUserId

private theorem lasting_bought (fulfillmentId itemId haulerUserId : Uuid) :
    Lasting (postings plan) (BoughtBy fulfillmentId itemId haulerUserId) := by
  rintro s s' - - same ⟨g, hg, item, hauler⟩
  obtain ⟨k, hk, item', hauler'⟩ := Agree.bought same _ g hg
  exact ⟨k, hk, item'.trans item, hauler'.trans hauler⟩

def Parties (plan : Ledger) (listId requesterUserId haulerUserId : Uuid) (k : Cycle) : Prop :=
  ∃ payer rp hp, plan.payer? listId = some payer ∧
    plan.directory.requesterPrincipal payer requesterUserId = some rp ∧
    plan.directory.userPrincipal haulerUserId = some hp ∧ k = (listId, rp, hp)

private theorem cycleOf_of_parties {f : Fulfillment} {li : Line} {k : Cycle}
    (line : plan.line? f.listItemId = some li)
    (parties : Parties plan li.listId li.requester f.haulerUserId k) :
    plan.cycleOf f = some k := by
  obtain ⟨payer, rp, hp, hpayer, hrp, hhp, rfl⟩ := parties
  exact Ledger.cycleOf_eq_some.mpr ⟨li, payer, rp, hp, line, hpayer, hrp, hhp, rfl⟩

/-- Every item of the plan can be bought by whoever has a principal. -/
private theorem parties_of_line (ok : plan.Ok) {itemId haulerUserId : Uuid} {li : Line}
    (line : plan.line? itemId = some li)
    (hauler : plan.directory.userPrincipal haulerUserId ≠ none) :
    ∃ k, Parties plan li.listId li.requester haulerUserId k := by
  have mem := (lookup_mem line).1
  obtain ⟨payer, hpayer⟩ := Option.ne_none_iff_exists'.mp (ok.lineAccount li mem)
  obtain ⟨hp, hhp⟩ := Option.ne_none_iff_exists'.mp hauler
  obtain ⟨rp, hrp⟩ : ∃ rp, plan.directory.requesterPrincipal payer li.requester = some rp := by
    cases payer with
    | none => exact Option.ne_none_iff_exists'.mp (ok.lineRequester li mem)
    | some p =>
      obtain ⟨a, ha, same⟩ := Option.map_eq_some_iff.mp hpayer
      exact Option.ne_none_iff_exists'.mp (ok.payerCorp a (lookup_mem ha).1 p same)
  exact ⟨_, payer, rp, hp, hpayer, hrp, hhp, rfl⟩

private theorem keeps_lockOne {α : Type} {find : Shop → Option α} {row : α → Row} (fact : α → Prop)
    (lasting : Lasting (postings plan) φ)
    (facts : ∀ s a, Planned plan s → find s = some a → fact a) :
    (conserving plan).Keeps q ((accounts plan).Holding broken rows φ) (lockOne find row)
      fun x c log locks => (accounts plan).Holding broken ((x.map row).toList ++ rows)
        (fun s => φ s ∧ ∀ a ∈ x, find s = some a) c log locks ∧ ∀ a ∈ x, fact a := by
  refine keeps_found _ _ lasting ?_
  rintro st s ws x - good - - - hact -
  obtain ⟨rfl, rfl⟩ := Prod.mk.inj (Option.some.inj hact)
  refine ⟨rfl, fun r hr => ?_, fun a ha => ?_, fun a ha => ?_⟩
  · simp only [Option.mem_toList, Option.map_eq_some_iff, Option.filter_eq_some_iff,
      decide_eq_true_eq] at hr
    obtain ⟨a, ⟨-, planned⟩, rfl⟩ := hr
    exact planned
  · exact (Option.filter_eq_some_iff.mp ha).1
  · exact facts s a good (Option.filter_eq_some_iff.mp ha).1

private theorem keeps_lockList (listId : Uuid) (lasting : Lasting (postings plan) φ) :
    (conserving plan).Keeps q ((accounts plan).Holding broken rows φ) (lockList listId)
      fun _ => (accounts plan).Holding broken (.list listId :: rows)
        fun s => φ s ∧ (s.list? listId).isSome := by
  refine (keeps_lockOne (fun _ => True) lasting fun _ _ _ _ => trivial).bind fun x =>
    triple_check fun l hl c log locks _ h => ?_
  obtain rfl := fetch_eq_ok.mp hl
  obtain ⟨right, ⟨mended, held, seen, found⟩, -⟩ := h
  have current := found l rfl
  have id : l.id = listId := (lookup_mem current).2
  exact ⟨right, mended, id ▸ held, seen, by simp [current]⟩

private theorem keeps_lockItem (listId itemId : Uuid) (lasting : Lasting (postings plan) φ) :
    (conserving plan).Keeps q ((accounts plan).Holding broken rows φ) (lockItem listId itemId)
      fun li c log locks => (accounts plan).Holding broken rows
        (fun s => φ s ∧ (s.item? itemId).isSome) c log locks ∧
        (plan.line? itemId = some (lineOf li) ∧ li.listId = listId) := by
  refine (keeps_lockOne (fun li => plan.line? itemId = some (lineOf li) ∧
    li.listId = listId) lasting fun s li good hli => ?_).bind fun x =>
    triple_check fun li hli c log locks _ h => ?_
  · obtain ⟨found, on⟩ := Option.filter_eq_some_iff.mp hli
    obtain ⟨mem, id⟩ := lookup_mem found
    exact ⟨id ▸ (good.line li mem).1, of_decide_eq_true on⟩
  · obtain rfl := fetch_eq_ok.mp hli
    obtain ⟨right, ⟨mended, held, seen, found⟩, facts⟩ := h
    have current := (Option.filter_eq_some_iff.mp (found li rfl)).1
    exact ⟨right, ⟨mended, fun r hr => held r (List.mem_append_right _ hr), seen,
      by simp [current]⟩, facts li rfl⟩

private theorem keeps_query {ε α : Type} {query : Shop → Except ε α} {ψ : α → Shop → Prop}
    {fact : α → Prop} (lasting : Lasting (postings plan) φ)
    (seen : ∀ a, Lasting (postings plan) (ψ a))
    (reads : ∀ s a, Planned plan s → query s = .ok a → ψ a s ∧ fact a) :
    (conserving plan).Keeps q ((accounts plan).Holding broken rows φ) (Prog.select query)
      fun a c log locks => (accounts plan).Holding broken rows (fun s => φ s ∧ ψ a s) c log locks ∧
        fact a := by
  refine keeps_found _ (fun _ => []) lasting ?_
  rintro st s ws a good good' same - - hact -
  obtain ⟨b, hb, pair⟩ := Option.map_eq_some_iff.mp hact
  obtain ⟨rfl, rfl⟩ := Prod.mk.inj pair
  have found : query st.snapshot = .ok b := by
    cases hq : query st.snapshot with
    | error _ => simp [hq, Except.toOption] at hb
    | ok x =>
      rw [hq] at hb
      exact congrArg Except.ok (Option.some.inj hb)
  obtain ⟨hψ, hfact⟩ := reads _ b good found
  exact ⟨rfl, by simp, seen b _ _ good good' same hψ, hfact⟩

/-- One purchase is put under the locks of its row and of its list. -/
private theorem holding_purchase {c : Shop} {log : List Write} {locks held : List Row}
    {f : Fulfillment} {k : Cycle} (lasting : Lasting (postings plan) φ)
    (h : (postings plan).With q ((accounts plan).Holding (fun _ => False) rows φ) c log locks)
    (more : ∀ r ∈ locks, r ∈ held) (charged : plan.cycleOf f = some k)
    (old : ∀ g ∈ (engine.view c log).fulfillments, g.id = f.id → plan.cycleOf g = some k)
    (posts : Posts plan (.put (.fulfillment f)) (engine.view c log))
    (own : Entitled plan held (.put (.fulfillment f))) :
    (postings plan).Replays [.put (.fulfillment f)] (engine.view c log) ∧
      (∀ w ∈ [Write.put (.fulfillment f)], (postings plan).own q held w) ∧
      (accounts plan).Holding (fun x => x = k) rows φ c (log ++ [.put (.fulfillment f)]) held := by
  have good : Planned plan (engine.view c log) := h.1.view
  have replays : (postings plan).Replays [.put (.fulfillment f)] (engine.view c log) :=
    ⟨posts, trivial⟩
  have owned : ∀ w ∈ [Write.put (.fulfillment f)], (postings plan).own q held w := fun w hw => by
    obtain rfl := List.mem_singleton.mp hw
    exact own
  refine ⟨replays, owned, fun x hx => ?_, fun r hr => more r (h.2.2.1 r hr), ?_⟩
  · rw [view_append]
    exact charged_purchase good charged old hx (h.2.1 x id)
  · rw [view_append]
    exact seen_after lasting good replays owned h.2.2.2

private theorem keeps_insertFulfillment {f : Fulfillment} {li : Line} {k : Cycle}
    (lasting : Lasting (postings plan) φ) (line : plan.line? f.listItemId = some li)
    (parties : Parties plan li.listId li.requester f.haulerUserId k)
    (list : .list li.listId ∈ rows) (item : ∀ s, φ s → (s.item? f.listItemId).isSome) :
    (conserving plan).Keeps q ((accounts plan).Holding (fun _ => False) rows φ)
      (insertFulfillment f) fun _ => (accounts plan).Holding (fun x => x = k) rows φ := by
  refine keeps_holding _ lasting ?_
  intro c₁ c₂ log locks held ws a _ h₂ _ more planned _ hact
  have charged := cycleOf_of_parties line parties
  split at hact
  · rename_i free
    obtain ⟨rfl, -⟩ := Prod.mk.inj (Option.some.inj hact)
    have new : (engine.view c₂ log).fulfillment? f.id = none := (of_decide_eq_true free).2.2.2
    refine holding_purchase lasting h₂ more charged (fun g hg id => ?_)
      ⟨item _ h₂.2.2.2, by simp [charged], by simp [new]⟩ ⟨planned _ (by simp), fun x hx => ?_⟩
    · exact absurd id (lookup_eq_none.mp new g hg)
    · obtain rfl := Option.some.inj (line.symm.trans hx)
      exact more _ (h₂.2.2.1 _ list)
  · cases hact

/-- A reversed purchase is no longer charged; at most one row has its id. -/
private theorem keeps_reverseRow {fulfillmentId itemId haulerUserId : Uuid} {now : Timestamp}
    {li : Line}
    {k : Cycle} (lasting : Lasting (postings plan) φ) (line : plan.line? itemId = some li)
    (parties : Parties plan li.listId li.requester haulerUserId k) (list : .list li.listId ∈ rows)
    (bought : ∀ s, φ s → BoughtBy fulfillmentId itemId haulerUserId s) :
    (conserving plan).Keeps q ((accounts plan).Holding (fun _ => False) rows φ)
      (reverseRow fulfillmentId now) fun _ => (accounts plan).Holding (fun x => x = k) rows φ := by
  refine keeps_holding _ lasting ?_
  intro c₁ c₂ log locks held ws a _ h₂ _ more planned _ hact
  obtain ⟨rfl, rfl⟩ := change_eq_some hact
  have good : Planned plan (engine.view c₂ log) := h₂.1.view
  obtain ⟨g, hg, item, hauler⟩ := bought _ h₂.2.2.2
  obtain ⟨mem, id⟩ := lookup_mem hg
  have only (x : Fulfillment) (hx : x ∈ (engine.view c₂ log).fulfillments)
      (hid : x.id = fulfillmentId) : x = g :=
    good.purchases.eq_of_key hx mem (hid.trans id.symm)
  have charged : plan.cycleOf g = some k :=
    cycleOf_of_parties (item.symm ▸ line) (hauler.symm ▸ parties)
  generalize hfound : (engine.view c₂ log).fulfillments.filter _ = found
  have each (x : Fulfillment) (hx : x ∈ found) : x = g ∧ .fulfillment g.id ∈ held := by
    rw [← hfound] at hx
    obtain ⟨hx, p⟩ := List.mem_filter.mp hx
    simp only [Bool.and_eq_true, decide_eq_true_eq] at p
    obtain rfl := only x hx p.1.1
    exact ⟨rfl, planned _ p.2⟩
  have keyed : Keyed Fulfillment.id found := hfound ▸ good.purchases.filter _
  match found, each, keyed with
  | [], _, _ =>
    rw [List.map_nil, List.append_nil]
    exact ⟨trivial, by simp, fun x _ => h₂.2.1 x not_false, fun r hr => more r (h₂.2.2.1 r hr),
      h₂.2.2.2⟩
  | [x], each, _ =>
    obtain ⟨rfl, heldRow⟩ := each x List.mem_cons_self
    refine holding_purchase lasting h₂ more charged (fun y hy hid => ?_)
      ⟨(good.bought x mem).1, fun missing => absurd (missing.symm.trans charged) (by simp), ?_⟩
      ⟨heldRow, fun y hy => ?_⟩
    · rw [only y hy (hid.trans id)]
      exact charged
    · intro y hy
      obtain rfl := Option.some.inj (((congrArg _ id).trans hg).symm.trans hy)
      exact ⟨rfl, rfl⟩
    · obtain rfl := Option.some.inj ((item.symm ▸ line).symm.trans hy)
      exact more _ (h₂.2.2.1 _ list)
  | x :: y :: _, each, keyed =>
    refine absurd ?_ (List.nodup_cons.mp keyed).1
    rw [(each x (by simp)).1, ← (each y (by simp)).1]
    simp

private theorem upsertRow_ok {s₁ s : Db} {new : Reimbursement} {ws : List Write}
    (h : upsertRow (upsertRows s₁ new) new s = some ws) :
    (∃ r, taken s new = some r ∧ .reimbursement r.id ∈ upsertRows s₁ new ∧
      (r.status = .pending → ws = [.putReimbursement (some r) (takeAmounts new r)])) ∨
    (taken s new = none ∧ .reimbursement new.id ∈ upsertRows s₁ new ∧
      s.reimbursement? new.id = none ∧ ws = [.putReimbursement none new]) := by
  unfold upsertRow at h
  cases htaken : taken s new with
  | some r =>
    simp only [htaken] at h
    split at h
    · rename_i planned
      refine .inl ⟨r, rfl, planned, fun pending => ?_⟩
      rw [if_pos pending] at h
      exact (Option.some.inj h).symm
    · cases h
  | none =>
    simp only [htaken] at h
    split at h
    · rename_i planned
      refine .inr ⟨rfl, ?_, planned.2, (Option.some.inj h).symm⟩
      have key := planned.1
      unfold upsertRows at key ⊢
      split at key <;> simp_all
    · cases h

private theorem amount_proposed (ok : plan.Ok) {s : Shop} (good : Planned plan s) {l : ListRow}
    {requester rp hauler hp : Uuid} (newId : Uuid) (hl : s.list? l.id = some l)
    (hrp : s.directory.requesterPrincipal l.payer requester = some rp)
    (hhp : s.directory.userPrincipal hauler = some hp) :
    (proposed s.toDb l requester rp hauler hp newId).subtotalIsk =
      sumWhere (onKey plan.cycleOf Fulfillment.live (some (l.id, rp, hp))) Fulfillment.cost
        s.fulfillments := by
  have users : DirectoryOk (ledger s.toDb).directory := by
    rw [show (ledger s.toDb).directory = plan.directory from good.directory]
    exact ok.directory
  rw [subtotal_proposed, Ledger.coveredCost_eq users (dueOk_proposed hl hrp hhp)]
  refine sumWhere_congr (fun f hf => ?_) fun _ _ => rfl
  unfold onKey
  rw [cycleOf_ledger good hf]
  rfl

/-- The reimbursement of a cycle that was broken gets the amount of its purchases. -/
private theorem holding_due {c : Shop} {log : List Write} {locks held : List Row}
    {before : Option Reimbursement} (r' : Reimbursement)
    (h : (postings plan).With q ((accounts plan).Holding (fun x => x = cycle r') rows φ) c log locks)
    (own : ∀ r ∈ (engine.view c log).reimbursements, r.id = r'.id ↔ cycle r = cycle r')
    (amount : r'.subtotalIsk = sumWhere
      (onKey plan.cycleOf Fulfillment.live (some (cycle r'))) Fulfillment.cost
        (engine.view c log).fulfillments)
    (posts : Posts plan (.putReimbursement before r') (engine.view c log))
    (row : .reimbursement r'.id ∈ held) (list : .list r'.listId ∈ held) :
    (postings plan).Replays [.putReimbursement before r'] (engine.view c log) ∧
      (∀ w ∈ [Write.putReimbursement before r'], (postings plan).own q held w) ∧
      (accounts plan).Mended (fun _ => False) c (log ++ [.putReimbursement before r']) held := by
  refine ⟨⟨posts, trivial⟩, fun w hw => ?_, fun k _ => ?_⟩
  · obtain rfl := List.mem_singleton.mp hw
    exact ⟨row, fun _ => list⟩
  · rw [view_append]
    have account : Charged plan k (redo (.putReimbursement before r') (engine.view c log)) :=
      charged_due own amount (fun k hk => h.2.1 k hk) k
    exact account

private theorem keeps_upsert (ok : plan.Ok) {listId requesterUserId haulerUserId newId : Uuid}
    {k : Cycle}
    (lasting : Lasting (postings plan) φ) (buys : q.buys = true) (list : .list listId ∈ rows)
    (parties : Parties plan listId requesterUserId haulerUserId k)
    (listed : ∀ s, φ s → (s.list? listId).isSome) :
    (conserving plan).Keeps q ((accounts plan).Holding (fun x => x = k) rows φ)
      (upsertReimbursement listId requesterUserId haulerUserId newId)
      fun _ => (accounts plan).Mended fun _ => False := by
  refine keeps_holding _ lasting ?_
  intro c₁ c₂ log locks held ws a h₁ h₂ same more planned unsettled hact
  have good₁ : Planned plan (engine.view c₁ log) := h₁.1.view
  have good₂ : Planned plan (engine.view c₂ log) := h₂.1.view
  obtain ⟨payer, rp, hp, hpayer, hrp, hhp, rfl⟩ := parties
  obtain ⟨l, hl⟩ := Option.isSome_iff_exists.mp (listed _ h₁.2.2.2)
  obtain ⟨mem, rfl⟩ := lookup_mem hl
  obtain rfl := Option.some.inj ((good₁.payer l mem).symm.trans hpayer)
  rw [← good₁.directory] at hrp hhp
  have hnew : proposal (engine.view c₁ log).toDb l.id requesterUserId haulerUserId newId =
      some (proposed (engine.view c₁ log).toDb l requesterUserId rp haulerUserId hp newId) := by
    have row : (engine.view c₁ log).toDb.list? l.id = some l := hl
    simp [proposal, row, hrp, hhp]
  have amount := amount_proposed ok good₁ newId hl hrp hhp
  have dueOk : plan.DueOk
      (dueOf (proposed (engine.view c₁ log).toDb l requesterUserId rp haulerUserId hp newId)) :=
    ⟨l.payer, requesterUserId, hpayer, rfl, rfl, good₁.directory ▸ hrp, good₁.directory ▸ hhp, rfl⟩
  have charged : cycle (proposed (engine.view c₁ log).toDb l requesterUserId rp haulerUserId hp
      newId) = (l.id, rp, hp) := rfl
  simp only [hnew] at hact planned unsettled
  generalize proposed (engine.view c₁ log).toDb l requesterUserId rp haulerUserId hp newId = new
    at hact planned unsettled amount dueOk charged
  have onList : new.listId = l.id := congrArg (·.1) charged
  have heldList : .list l.id ∈ locks := h₂.2.2.1 _ list
  -- The purchases of the list are those that the snapshot counted.
  have current : new.subtotalIsk = sumWhere (onKey plan.cycleOf Fulfillment.live
      (some (cycle new))) Fulfillment.cost (engine.view c₂ log).fulfillments := by
    rw [amount, charged]
    refine (sumWhere_of_mem_iff good₁.purchases.nodup good₂.purchases.nodup fun f on => ?_).symm
    simp only [onKey, Bool.and_eq_true, decide_eq_true_eq] at on
    exact Agree.purchases same l.id heldList f (onList_of_cycleOf on.2)
  have live (r : Reimbursement) (hr : r ∈ (engine.view c₂ log).reimbursements) :
      r.status ≠ .cancelled := by
    obtain ⟨-, -, -, -, -, -, -, live⟩ := (good₂.due r hr).1
    exact of_decide_eq_false live
  rw [← charged] at h₂
  split at hact
  · obtain ⟨ws', hws, pair⟩ := Option.map_eq_some_iff.mp hact
    obtain ⟨rfl, -⟩ := Prod.mk.inj pair
    rcases upsertRow_ok hws with ⟨r, taken, row, pending⟩ | ⟨taken, row, fresh, rfl⟩
    · have hr := List.mem_of_find?_eq_some taken
      have found := List.find?_some taken
      simp only [Bool.and_eq_true, decide_eq_true_eq] at found
      have status : r.status = .pending := by
        cases hs : r.status with
        | pending => rfl
        | settled => exact absurd hs (unsettled buys r hr row)
        | cancelled => exact absurd hs (live r hr)
      obtain rfl := pending status
      have cyc : cycle (takeAmounts new r) = cycle new := found.1
      refine holding_due (takeAmounts new r) (cyc.symm ▸ h₂) (fun x hx => ?_)
        (cyc.symm ▸ current) ⟨(lookup_eq_some good₂.dues).mpr ⟨hr, rfl⟩, rfl⟩ (planned _ row) ?_
      · exact ⟨fun eq => good₂.dues.eq_of_key hx hr eq ▸ rfl,
          fun eq => good₂.cycles.eq_of_key hx hr eq ▸ rfl⟩
      · have list : (takeAmounts new r).listId = l.id := (congrArg (·.1) cyc).trans onList
        exact list.symm ▸ more _ heldList
    · have apart (r : Reimbursement) (hr : r ∈ (engine.view c₂ log).reimbursements) :
          cycle r ≠ cycle new := by
        have differs := List.find?_eq_none.mp taken r hr
        simp only [Bool.and_eq_true, decide_eq_true_eq] at differs
        exact fun eq => differs ⟨eq, live r hr⟩
      refine holding_due new h₂ (fun x hx => ?_) current
        ⟨fresh, apart, dueOk, onList ▸ listed _ h₂.2.2.2⟩ (planned _ row) (onList ▸ more _ heldList)
      exact ⟨fun eq => absurd eq (lookup_eq_none.mp fresh x hx),
        fun eq => absurd eq (apart x hx)⟩
  · cases hact

private theorem mended_holding {p : Program Unit} (h : (conserving plan).Keeps q
    ((accounts plan).Holding (fun _ => False) [] fun _ => True) p
      fun _ => (accounts plan).Mended fun _ => False) :
    (conserving plan).Keeps q ((accounts plan).Mended fun _ => False) p
      fun _ => (accounts plan).Mended fun _ => False :=
  h.imp (fun _ _ _ _ h => ⟨h.1, h.2, by simp, trivial⟩) fun _ _ _ _ _ h => h

private theorem holding_mended {p : Program Unit} {F : Assertion Shop Write Row}
    (h : (conserving plan).Keeps q
    F p fun _ => (accounts plan).Holding (fun _ => False) rows φ) :
    (conserving plan).Keeps q F p fun _ => (accounts plan).Mended fun _ => False :=
  h.imp (fun _ _ _ _ h => h) fun _ _ _ _ _ h => ⟨h.1, h.2.1⟩

private theorem keeps_currentList (ok : plan.Ok) (userId listId : Uuid)
    (lasting : Lasting (postings plan) φ) :
    (conserving plan).Keeps q ((accounts plan).Holding broken rows φ)
      (Prog.select fun s => Api.Extract.currentList s.toDb userId listId)
      fun _ c log locks => (accounts plan).Holding broken rows (fun s => φ s ∧ True) c log locks ∧
        plan.directory.userPrincipal userId ≠ none := by
  refine keeps_query lasting (fun _ => lasting_true) fun s a good h => ⟨trivial, ?_⟩
  obtain ⟨l, role, -, hrole, -⟩ := Api.Extract.currentList_ok h
  rw [good.directory] at hrole
  obtain ⟨p, hp⟩ := roleOf_userPrincipal ok.directory hrole
  exact Option.ne_none_iff_exists'.mpr ⟨p, hp⟩

private theorem keeps_recordFulfillment (ok : plan.Ok) (buys : q.buys = true)
    (userId listId itemId : Uuid) (body : Api.Fulfillments.RecordFulfillmentBody)
    (gen : Api.Fulfillments.Generated) :
    (conserving plan).Keeps q ((accounts plan).Mended fun _ => False)
      (recordFulfillment userId listId itemId body gen)
      fun _ => (accounts plan).Mended fun _ => False := by
  refine mended_holding ((keeps_currentList ok userId listId lasting_true).bind fun cur =>
    keeps_given fun hauler => ?_)
  have whole : Lasting (postings plan) fun _ => True := lasting_true
  have first := whole.and whole
  refine triple_checked fun _ _ => triple_checked fun _ _ =>
    (keeps_lockList listId first).bind fun _ => ?_
  have second := first.and (lasting_list listId)
  refine (keeps_lockItem listId itemId second).bind fun li => keeps_given fun facts => ?_
  have third := second.and (lasting_item itemId)
  obtain ⟨line, rfl⟩ := facts
  obtain ⟨k, parties⟩ := parties_of_line ok line hauler
  have list : .list li.listId ∈ [Row.list li.listId] := List.mem_cons_self
  refine triple_checked fun _ _ => (keeps_calm third (uncharged_read _)).bind fun status =>
    triple_checked fun _ _ => (keeps_calm third (calm_select _)).bind fun _ =>
    (keeps_calm third (uncharged_read _)).bind fun active => triple_checked fun _ _ =>
    (keeps_insertFulfillment third line parties list fun _ h => h.2).bind fun _ => ?_
  exact (keeps_calm third (uncharged_recomputeItemStatus _ _)).bind fun newStatus =>
    (keeps_calm third (uncharged_completeClaim _ _)).bind fun _ =>
    keeps_upsert ok third buys list parties fun _ h => h.1.2

private theorem keeps_purchaseOf (fulfillmentId : Uuid) (lasting : Lasting (postings plan) φ) :
    (conserving plan).Keeps q ((accounts plan).Holding broken rows φ)
      (Prog.select fun s => fetch ApiError.missing (purchaseOf s.toDb fulfillmentId))
      fun x c log locks => (accounts plan).Holding broken rows (fun s => φ s ∧
        BoughtBy fulfillmentId x.1.listItemId x.1.haulerUserId s) c log locks ∧
        (plan.line? x.1.listItemId = some (lineOf x.2) ∧
          plan.directory.userPrincipal x.1.haulerUserId ≠ none) := by
  refine keeps_query (ψ := fun (x : Fulfillment × ListItem) =>
    BoughtBy fulfillmentId x.1.listItemId x.1.haulerUserId) lasting (fun x => lasting_bought _ _ _)
    fun s x good h => ?_
  have found := fetch_eq_ok.mp h
  simp only [purchaseOf, Option.bind_eq_bind, Option.bind_eq_some_iff, Option.some.injEq] at found
  obtain ⟨f, hf, li, hli, rfl⟩ := found
  obtain ⟨mem, id⟩ := lookup_mem hli
  obtain ⟨k, hk⟩ := Option.ne_none_iff_exists'.mp (good.bought f (lookup_mem hf).1).2
  obtain ⟨-, -, -, hp, -, -, -, hhp, -⟩ := Ledger.cycleOf_eq_some.mp hk
  exact ⟨⟨f, hf, rfl, rfl⟩, id ▸ (good.line li mem).1, Option.ne_none_iff_exists'.mpr ⟨hp, hhp⟩⟩

private theorem keeps_reverseFulfillment (ok : plan.Ok) (buys : q.buys = true)
    (userId fulfillmentId newId : Uuid) (now : Timestamp) :
    (conserving plan).Keeps q ((accounts plan).Mended fun _ => False)
      (reverseFulfillment userId fulfillmentId newId now)
      fun _ => (accounts plan).Mended fun _ => False := by
  refine mended_holding ((keeps_purchaseOf fulfillmentId lasting_true).bind fun x =>
    keeps_given fun facts => ?_)
  obtain ⟨line, hauler⟩ := facts
  obtain ⟨k, parties⟩ := parties_of_line ok line hauler
  have whole : Lasting (postings plan) fun _ => True := lasting_true
  have first := whole.and (lasting_bought fulfillmentId x.1.listItemId x.1.haulerUserId)
  have second := first.and (lasting_list x.2.listId)
  have list : .list x.2.listId ∈ [Row.list x.2.listId] := List.mem_cons_self
  refine (keeps_lockList x.2.listId first).bind fun _ =>
    (keeps_calm second (calm_select _)).bind fun again => triple_checked fun _ _ =>
    triple_checked fun _ _ => (keeps_calm second (calm_select _)).bind fun role =>
    triple_checked fun _ _ => (keeps_calm second (uncharged_read _)).bind fun status =>
    triple_checked fun _ _ =>
    (keeps_reverseRow second line parties list fun _ h => h.1.2).bind fun changed =>
    triple_checked fun row _ => ?_
  exact (keeps_calm second (uncharged_recomputeItemStatus _ _)).bind fun _ =>
    keeps_upsert ok second buys list parties fun _ h => h.2

private theorem keeps_addItems (limits : Api.Lists.Limits) (userId listId : Uuid)
    (lines : List Api.Lists.NewLine) (itemIds : List Uuid)
    (new : ∀ id ∈ itemIds, plan.line? id = some ⟨id, listId, userId⟩) :
    (conserving plan).Keeps q ((accounts plan).Mended fun _ => False)
      (addItems limits userId listId lines itemIds)
      fun _ => (accounts plan).Mended fun _ => False := by
  have whole : Lasting (postings plan) fun _ => True := lasting_true
  have second := whole.and (lasting_list listId)
  refine mended_holding ((keeps_calm lasting_true (calm_select _)).bind fun cur =>
    triple_checked fun _ _ => triple_checked fun _ _ => (keeps_lockList listId lasting_true).bind
    fun _ => (keeps_calm second (uncharged_read _)).bind fun count => triple_checked fun _ _ =>
    holding_mended (keeps_silent second fun st s ws u good seen hact => ?_))
  split at hact
  · obtain ⟨rfl, -⟩ := Prod.mk.inj (Option.some.inj hact)
    refine silent_items fun li hli => ?_
    obtain ⟨id, hid, n, -, rfl⟩ := Api.Lists.mem_newItems hli
    exact ⟨new id hid, seen.2⟩
  · cases hact

end Rules

/-- Requests that neither delete nor change a payer. The ids of new items are used for nothing
else. -/
def KeepsBooks (lines : List Line) : TradeRequest → Prop
  | .addItems _ userId listId _ itemIds => ∀ id ∈ itemIds, ⟨id, listId, userId⟩ ∈ lines
  | .deleteItem .. => False
  | .patchListPayer .. => False
  | .deleteList .. => False
  | .deleteGroup .. => False
  | _ => True

private theorem keeps_books {plan : Ledger} {lines : List Line} (ok : plan.Ok)
    (planned : ∀ li ∈ lines, li ∈ plan.lines) (q : TradeRequest) (known : KeepsBooks lines q) :
    (conserving plan).Keeps q ((accounts plan).Mended fun _ => False) (engine.program q)
      fun _ => (accounts plan).Mended fun _ => False := by
  cases q with
  | recordFulfillment userId listId itemId body gen =>
    exact keeps_recordFulfillment ok rfl userId listId itemId body gen
  | reverseFulfillment userId fulfillmentId newId now =>
    exact keeps_reverseFulfillment ok rfl userId fulfillmentId newId now
  | addItems limits userId listId newLines itemIds =>
    exact keeps_addItems limits userId listId newLines itemIds fun id hid =>
      (lookup_eq_some ok.lines).mpr ⟨planned _ (known id hid), rfl⟩
  | markDelivered userId listId itemId lastHauler =>
    exact keeps_calm_mended (uncharged_markDelivered userId listId itemId lastHauler)
  | createClaim userId listId itemIds claimId =>
    exact keeps_calm_mended (uncharged_createClaim userId listId itemIds claimId)
  | addClaimItems userId claimId itemIds =>
    exact keeps_calm_mended (uncharged_addClaimItems userId claimId itemIds)
  | removeClaimItem userId claimId itemId =>
    exact keeps_calm_mended (uncharged_removeClaimItem userId claimId itemId)
  | releaseClaim userId claimId => exact keeps_calm_mended (uncharged_releaseClaim userId claimId)
  | patchItem userId listId itemId body =>
    exact keeps_calm_mended (uncharged_patchItem userId listId itemId body)
  | setListTip userId listId tipPct =>
    exact keeps_calm_mended (uncharged_setListTip userId listId tipPct)
  | doConfirm userId suggestionId now =>
    exact keeps_calm_mended (uncharged_doConfirm userId suggestionId now)
  | doReject userId suggestionId =>
    exact keeps_calm_mended (uncharged_doReject userId suggestionId)
  | doManualLink userId contractId reimbursementId newId now =>
    exact keeps_calm_mended (uncharged_doManualLink userId contractId reimbursementId newId now)
  | doUnlink userId contractId => exact keeps_calm_mended (uncharged_doUnlink userId contractId)
  | settleReimbursement userId rid now =>
    exact keeps_calm_mended (uncharged_settleReimbursement userId rid now)
  | handleContractTerminal u now =>
    exact keeps_calm_mended (uncharged_handleContractTerminal u now)
  | upsertContract u newId => exact keeps_calm_mended (uncharged_upsertContract u newId)
  | verifyContractAgainstJournal limit1 cid =>
    exact keeps_calm_mended (uncharged_verifyContract limit1 cid)
  | _ => exact known.elim

/-- Every live purchase is in one reimbursement, every reimbursement amounts to the live purchases
in it, and so do those of a list together. -/
structure Conserved (s : Db) : Prop where
  covered : ∀ f ∈ s.fulfillments, f.live = true → ∃ r, s.reimbursements.filter (covers s · f) = [r]
  amounts : ∀ r ∈ s.reimbursements, r.subtotalIsk =
    sumWhere (fun f => f.live && covers s r f) Fulfillment.cost s.fulfillments
  totals : ∀ listId, sumWhere (fun r => decide (r.listId = listId)) Reimbursement.subtotalIsk
      s.reimbursements =
    sumWhere (fun f => f.live && (s.item? f.listItemId).any fun li => decide (li.listId = listId))
      Fulfillment.cost s.fulfillments

private theorem conserved_of_ledger {s : Db} (ok : (ledger s).Ok) : Conserved s :=
  ⟨fun _ hf live => covering_unique ok hf live, fun _ hr => subtotal_eq_coveredCost ok hr,
    subtotals_eq_cost ok⟩

/-- Statements of purchases and reversals find the reimbursements that they lock unsettled. -/
def FindsUnsettled (w : Store Shop Write Row TradeRequest) : Action Row TradeRequest → Prop
  | .exec id => ∀ t ∈ w.active, t.id = id → ∀ p ∈ t.waiting,
      Unsettled t.request w.committed t.log p.toStatement
  | _ => True

instance (q : TradeRequest) (c : Shop) (log : List Write) (st : Statement Shop Row) :
    Decidable (Unsettled q c log st) := by
  unfold Unsettled
  infer_instance

instance (w : Store Shop Write Row TradeRequest) (a : Action Row TradeRequest) :
    Decidable (FindsUnsettled w a) :=
  match a with
  | .exec id => inferInstanceAs (Decidable (∀ t ∈ w.active, t.id = id → ∀ p ∈ t.waiting,
      Unsettled t.request w.committed t.log p.toStatement))
  | .begin _ _ | .start _ | .acquire _ _ | .commit _ | .abort _ => .isTrue trivial

/-- In every run of purchases, reversals, claims, item edits, tips, links and settlements in which
no purchase comes upon a settled reimbursement, every committed state conserves money. -/
theorem books_balance_unless_settled {s : Shop} {lines : List Line} (ok : (ledger s.toDb).Ok)
    (new : ((ledger s.toDb).addLines lines).Ok) {as : List (Action Row TradeRequest)}
    (known : ∀ id q, .begin id q ∈ as → KeepsBooks lines q)
    (unsettled : Meets (step engine) FindsUnsettled ⟨s, []⟩ as) :
    Conserved (run (step engine) ⟨s, []⟩ as).committed.toDb := by
  have sound : Sound engine (conserving ((ledger s.toDb).addLines lines)).terms
      (KeepsBooks lines) :=
    Guard.sound _ (keeps_books new fun li hli => List.mem_append_right _ hli)
  have allowed : Meets (step engine)
      (Allowed (conserving ((ledger s.toDb).addLines lines)).terms (KeepsBooks lines))
      ⟨s, []⟩ as := by
    have begins : Meets (step engine) (fun _ a => ∀ id q, a = .begin id q → KeepsBooks lines q)
        ⟨s, []⟩ as := meets_of_forall fun before a after split id q h =>
      known id q (split ▸ h ▸ List.mem_append_right _ List.mem_cons_self)
    refine (begins.and unsettled).imp fun w a h => ?_
    cases a with
    | begin id q => exact h.1 id q rfl
    | exec id => exact fun t ht hid p hp _ => h.2 t ht hid p hp
    | commit id => exact fun _ _ _ _ => ⟨trivial, fun _ _ _ => trivial⟩
    | _ => trivial
  have kept := Promise.kept_run sound (planned_of_ledger ok new) (charged_of_ledger ok) allowed
  exact conserved_of_ledger (ledgerOk_of_charged new kept.good.1 kept.good.2)

/-- The statements of a purchase after the check of the reimbursement's status. -/
def afterStatus (id : Nat) (fulfillmentId : Uuid) (upsert : List Row) :
    List (Action Row TradeRequest) :=
  List.flatten [Action.turn id [], Action.turn id [],
    Action.turn id [.fulfillment fulfillmentId], Action.turn id [], Action.turn id [],
    Action.turn id [.item 1], Action.turn id upsert]

/-- The second buyer waits for the list until the first one commits. -/
def buyTwice : List (Action Row TradeRequest) :=
  List.flatten [[.begin 1 (buying 1 1), .begin 2 (buying 2 2)], Action.turn 1 [], Action.turn 2 [],
    Action.turn 1 [.list 1], [.start 2], Action.turn 1 [.item 1], Action.turn 1 [],
    afterStatus 1 1 [.cycle (1, 1, 3), .reimbursement 1], [.commit 1],
    [.acquire 2 (.list 1), .exec 2], Action.turn 2 [.item 1], Action.turn 2 [],
    afterStatus 2 2 [.reimbursement 1], [.commit 2]]

private theorem ledgerOk_openShop : (ledger openShop.toDb).Ok where
  directory := by decide
  accounts := by decide
  lines := by decide
  purchases := by decide
  dues := by decide
  lineAccount := by decide
  lineRequester := by decide
  payerCorp := by decide
  purchaseLine := by decide
  purchaseHauler := by decide
  due := by simp [ledger, openShop]
  balanced := balanced_nil

theorem books_balance_buy_twice :
    (run (step engine) ⟨openShop, []⟩ buyTwice).committed.reimbursements.map
        (fun r => (r.id, r.subtotalIsk)) = [(1, 2000)] ∧
      Conserved (run (step engine) ⟨openShop, []⟩ buyTwice).committed.toDb := by
  have known : ∀ id q, .begin id q ∈ buyTwice → KeepsBooks [] q := by
    intro id q h
    simp only [buyTwice, afterStatus, Action.turn, List.flatten_cons, List.flatten_nil,
      List.map_nil, List.map_cons, List.nil_append, List.cons_append, List.append_nil, List.mem_cons,
      Action.begin.injEq, reduceCtorEq, List.not_mem_nil, or_false] at h
    rcases h with ⟨-, rfl⟩ | ⟨-, rfl⟩ <;> trivial
  have new : ((ledger openShop.toDb).addLines []).Ok := ledgerOk_openShop
  exact ⟨by decide +kernel,
    books_balance_unless_settled ledgerOk_openShop new known (by decide +kernel)⟩

/-- A list that is half bought, owed for by a finished contract. -/
def halfBought : Shop where
  directory := fairGroup
  lists := [fairList]
  listItems := [⟨1, 1, 34, "Tritanium", 10, 2, 1, .open, 1⟩]
  fulfillments := [⟨1, 1, none, 3, none, 2, 250, none, some "Jita", 0, none⟩]
  contracts := [⟨1, 900, some 3, some 3, some 1, some 1, .itemExchange, .finished, 500, some 500,
    none, some 5, none, none⟩]
  reimbursements := [fairDue 1 .pending (some 1)]

/-- The worker settles the contract after the buyer has read that its reimbursement is pending. -/
def settledMeanwhile : List (Action Row TradeRequest) :=
  List.flatten [[.begin 1 (buying 2 2), .begin 2 (.handleContractTerminal ⟨1, .finished, true⟩ 9)],
    Action.turn 1 [], Action.turn 1 [.list 1], Action.turn 1 [.item 1], Action.turn 1 [],
    Action.turn 2 [.contract 1], Action.turn 2 [.reimbursement 1], Action.turn 2 [],
    Action.turn 2 [.contract 1], Action.turn 2 [], Action.turn 2 [], Action.turn 2 [],
    Action.turn 2 [], [.commit 2], afterStatus 1 2 [.reimbursement 1], [.commit 1]]

/-- Both commit, and the second purchase is in no amount that is owed. -/
private theorem books_unbalanced_when_settled :
    (ledger halfBought.toDb).Ok ∧
      (∀ id q, .begin id q ∈ settledMeanwhile → KeepsBooks [] q) ∧
      (run (step engine) ⟨halfBought, []⟩ settledMeanwhile).active.length = 0 ∧
      ¬ Conserved (run (step engine) ⟨halfBought, []⟩ settledMeanwhile).committed.toDb := by
  refine ⟨?_, fun id q h => ?_, by decide +kernel, fun conserved => ?_⟩
  · refine ⟨by decide, by decide, by decide, by decide, by decide, by decide, by decide, by decide,
      by decide, by decide, fun d hd => ?_, by decide, fun f hf _ => ?_, fun d hd => ?_⟩
    · obtain rfl := List.mem_singleton.mp hd
      exact ⟨none, 1, by decide, by decide, by decide, by decide, by decide, by decide⟩
    · obtain rfl := List.mem_singleton.mp hf
      exact ⟨dueOf (fairDue 1 .pending (some 1)), List.mem_cons_self, by decide⟩
    · obtain rfl := List.mem_singleton.mp hd
      decide
  · simp only [settledMeanwhile, afterStatus, Action.turn, List.flatten_cons, List.flatten_nil,
      List.map_nil, List.map_cons, List.nil_append, List.cons_append, List.append_nil, List.mem_cons,
      Action.begin.injEq, reduceCtorEq, List.not_mem_nil, or_false] at h
    rcases h with ⟨-, rfl⟩ | ⟨-, rfl⟩ <;> trivial
  · have short : ∃ r ∈ (run (step engine) ⟨halfBought, []⟩ settledMeanwhile).committed.reimbursements,
        r.subtotalIsk ≠ sumWhere (fun f => f.live && covers
          (run (step engine) ⟨halfBought, []⟩ settledMeanwhile).committed.toDb r f) Fulfillment.cost
          (run (step engine) ⟨halfBought, []⟩ settledMeanwhile).committed.fulfillments := by
      decide +kernel
    obtain ⟨r, hr, wrong⟩ := short
    exact wrong (conserved.amounts r hr)

end JitaCart.Concurrent.Postings
