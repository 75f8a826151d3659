/- module: JitaCart/Concurrent/Settled
   source: backend/crates/settlement/src/lib.rs,
     backend/crates/api/src/fulfillment/reimbursements.rs (settle_reimbursement),
     backend/crates/api/src/contracts.rs, backend/crates/worker/src/jobs/contracts_common.rs
   digest: Reimbursements settle once and for good, and each settlement is told once. -/

import JitaCart.Concurrent.TradeSteps

/-!
A transaction owes a notice for every row that it has settled, and has paid them
all when it commits.
-/

set_option autoImplicit false
set_option relaxedAutoImplicit false

namespace JitaCart.Concurrent.Trade

open Schema Base.Table Base.Request Base.ReadCommitted
open Settlement (pendingOn)

def settledIn : Write → Option Uuid
  | .putReimbursement _ r => if r.status = .settled then some r.id else none
  | _ => none

def toldIn : Write → Option Uuid
  | .notify n => some n.reimbursementId
  | _ => none

def TradeRequest.removes : TradeRequest → ListRow → Bool
  | .deleteList _ listId, l => decide (l.id = listId)
  | .deleteGroup _ groupId, l => decide (l.groupId = groupId)
  | _, _ => false

/-- Of the settled rows, these have not been told of. -/
def Owes (lasting : Prop) (ids : List Uuid) : Assertion Shop Write Row := fun _ log _ =>
  lasting → (log.filterMap settledIn).Perm (log.filterMap toldIn ++ ids)

/-- Reimbursements go with their list only. -/
def Goes (q : TradeRequest) : Assertion Shop Write Row := fun c log locks =>
  ∀ r, .dropReimbursement r ∈ log → .list r.listId ∈ locks ∧
    ∃ l, c.list? r.listId = some l ∧ q.removes l = true ∧
      (engine.view c log).list? r.listId = none

/-- Nothing is asked; every settlement is told, and reimbursements go with their list. -/
def settling (lasting : Prop) : Promise (debts lasting) where
  inv _ := True
  leaves _ _ _ := True
  done q c log locks := Owes lasting [] c log locks ∧ Goes q c log locks
  cond _ _ _ _ := True
  ready _ _ := True
  clear _ _ := True
  refl _ _ := trivial
  trans _ _ := trivial
  done_rely := by
    intro q log locks c c' right good' _ same _ h
    refine ⟨h.1, fun r hr => ?_⟩
    obtain ⟨held, l, hl, removes, gone⟩ := h.2 r hr
    have view : Untouched locks _ _ := right.view_same good' same
    have row : Untouched locks c c' := same
    exact ⟨held, l, (row.lists _ held).trans hl, removes, (view.lists _ held).trans gone⟩

section Programs
variable {lasting : Prop} {q : TradeRequest}

private theorem steady_owes (ids : List Uuid) : Steady (settling lasting) q (Owes lasting ids) where
  stable := Promise.stable_with ⟨fun _ _ h _ => h, fun _ h => h⟩
  plain c log locks held ws h _ plain last := by
    have nothing : ws.filterMap settledIn = [] ∧ ws.filterMap toldIn = [] := by
      refine ⟨List.filterMap_eq_nil_iff.mpr fun w hw => ?_,
        List.filterMap_eq_nil_iff.mpr fun w hw => ?_⟩
      · have due := (plain w hw).due
        cases w with
        | putReimbursement before r => cases due
        | _ => rfl
      · have told := (plain w hw).told
        cases w with
        | notify n => exact absurd rfl (told n)
        | _ => rfl
    rw [List.filterMap_append, List.filterMap_append, nothing.1, nothing.2, List.append_nil,
      List.append_nil]
    exact h.2 last

/-- Rows that are not settled by their new versions leave nothing to tell. -/
private theorem owes_refresh {ids : List Uuid} {c c' : Shop} {log : List Write}
    {locks held : List Row} {set : Reimbursement → Reimbursement} {found : List Reimbursement}
    (h : Owes lasting ids c log locks) (pending : ∀ r ∈ found, (set r).status ≠ .settled) :
    Owes lasting ids c' (log ++ found.map fun r => .putReimbursement (some r) (set r)) held := by
  intro last
  have settles : (found.map fun r => Write.putReimbursement (some r) (set r)).filterMap settledIn =
      [] := by
    rw [List.filterMap_map, List.filterMap_eq_nil_iff]
    exact fun r hr => if_neg (pending r hr)
  have tells : (found.map fun r => Write.putReimbursement (some r) (set r)).filterMap toldIn =
      [] := by
    rw [List.filterMap_map, List.filterMap_eq_nil_iff]
    exact fun _ _ => rfl
  rw [List.filterMap_append, List.filterMap_append, settles, tells, List.append_nil,
    List.append_nil]
  exact h last

private theorem owes_settled {c c' : Shop} {log : List Write} {locks held : List Row}
    {settledAt : Timestamp} {settledBy : Option Uuid} {found : List Reimbursement}
    (h : Owes lasting [] c log locks) :
    Owes lasting (found.map (·.id)) c'
      (log ++ found.map fun r => .putReimbursement (some r) (settled settledAt settledBy r))
      held := by
  intro last
  have settles : (found.map fun r =>
      Write.putReimbursement (some r) (settled settledAt settledBy r)).filterMap settledIn =
      found.map (·.id) := by
    rw [List.filterMap_map]
    exact congrFun List.filterMap_eq_map found
  have tells : (found.map fun r =>
      Write.putReimbursement (some r) (settled settledAt settledBy r)).filterMap toldIn = [] := by
    rw [List.filterMap_map, List.filterMap_eq_nil_iff]
    exact fun _ _ => rfl
  have before := h last
  rw [List.append_nil] at before
  rw [List.filterMap_append, List.filterMap_append, settles, tells, List.append_nil]
  exact before.append_right _

private theorem present_updates {set : Reimbursement → Reimbursement} {rid : Uuid} {s : Shop}
    {found : List Reimbursement} (h : (s.reimbursement? rid).isSome) :
    ((engine.view s (found.map fun r =>
      .putReimbursement (some r) (set r))).reimbursement? rid).isSome := by
  induction found generalizing s with
  | nil => exact h
  | cons r found ih =>
    refine ih ?_
    show ((redo (.putReimbursement (some r) (set r)) s).reimbursement? rid).isSome
    rw [reimbursement?_redo]
    by_cases same : (set r).id = rid
    · simp [Write.due, Option.filter, same]
    · simpa [Write.due, Option.filter, same] using h

private theorem keeps_fireWebhook (n : Notice) (ids : List Uuid) :
    (settling lasting).Keeps q (Owes lasting (n.reimbursementId :: ids)) (fireWebhook n)
      fun _ => Owes lasting ids := by
  refine Promise.keeps_write (steady_owes _).stable ?_
  intro c₁ c₂ log locks held ws u _ h₂ m hact
  obtain ⟨rfl, -⟩ := Prod.mk.inj (Option.some.inj hact)
  refine ⟨⟨trivial, trivial⟩, fun w hw => ?_, fun last => ?_⟩
  · obtain rfl := List.mem_singleton.mp hw
    exact ⟨by simp [Write.due], by simp [Write.listed], by simp, by simp, by simp⟩
  · have told : (log ++ [Write.notify n]).filterMap toldIn =
        log.filterMap toldIn ++ [n.reimbursementId] := by simp [toldIn]
    have settles : (log ++ [Write.notify n]).filterMap settledIn = log.filterMap settledIn := by
      simp [settledIn]
    rw [told, settles, List.append_assoc]
    exact h₂.2 last

private theorem keeps_fireAll (infos : List Notice) :
    (settling lasting).Keeps q (Owes lasting (infos.map (·.reimbursementId)))
      (infos.forM fireWebhook) fun _ => Owes lasting [] := by
  induction infos with
  | nil => exact triple_pure fun _ _ _ _ h => h
  | cons n infos ih =>
    show (settling lasting).Keeps q _ (fireWebhook n >>= fun _ => infos.forM fireWebhook) _
    exact (keeps_fireWebhook n _).bind fun _ => ih

/-- Rows that were settled and not told of yet are there, and stay locked. -/
def Settling (lasting : Prop) (ids : List Uuid) : Assertion Shop Write Row := fun c log locks =>
  Owes lasting ids c log locks ∧ ids.Nodup ∧ ∀ id ∈ ids, .reimbursement id ∈ locks ∧
    ((engine.view c log).reimbursement? id).isSome

private theorem steady_settling (ids : List Uuid) :
    Steady (settling lasting) q (Settling lasting ids) where
  stable := by
    have right : Stable (settling lasting).terms ((debts lasting).Right q) := Promise.stable_right
    refine ⟨fun good good' h change => ⟨right.rely good good' h.1 change, h.2.1, h.2.2.1,
      fun id hid => ?_⟩, fun same h => ⟨right.same same h.1, h.2.1, h.2.2.1, fun id hid =>
      ⟨(same _).mpr (h.2.2.2 id hid).1, (h.2.2.2 id hid).2⟩⟩⟩
    obtain ⟨held, present⟩ := h.2.2.2 id hid
    have view : Untouched _ _ _ := h.1.view_same good'.1 change.1
    exact ⟨held, (view.dues id held).symm ▸ present⟩
  plain c log locks held ws h more plain := by
    refine ⟨(steady_owes ids).plain c log locks held ws ⟨h.1, h.2.1⟩ more plain, h.2.2.1,
      fun id hid => ⟨more _ (h.2.2.2 id hid).1, ?_⟩⟩
    rw [view_append]
    have same := congrArg (lookup Reimbursement.id id) (view_plain (s := engine.view c log) plain)
    exact (congrArg Option.isSome same).trans (h.2.2.2 id hid).2

/-- Where every list is there, the rows that were settled are told of, each once. -/
private theorem webhookInfo_ids {s : Shop} {ids : List Uuid} (good : Sorted lasting s)
    (last : lasting) (nodup : ids.Nodup) (present : ∀ id ∈ ids, (s.reimbursement? id).isSome) :
    ((webhookInfo s.toDb ids).map (·.reimbursementId)).Perm ids := by
  have rows (found : List Reimbursement) (h : ∀ r ∈ found, (s.list? r.listId).isSome) :
      (found.filterMap fun r => (s.list? r.listId).map fun l =>
        (⟨r.id, l.groupId, r.totalIsk⟩ : Notice)).map (·.reimbursementId) = found.map (·.id) := by
    induction found with
    | nil => rfl
    | cons r found ih =>
      obtain ⟨l, hl⟩ := Option.isSome_iff_exists.mp (h r List.mem_cons_self)
      have rest := ih fun x hx => h x (List.mem_cons_of_mem r hx)
      simp only [List.filterMap_cons, hl, Option.map_some, List.map_cons, rest]
  have all : (webhookInfo s.toDb ids).map (·.reimbursementId) =
      (s.reimbursements.filter fun r => decide (r.id ∈ ids)).map (·.id) :=
    rows _ fun r hr => good.refs last r (List.mem_filter.mp hr).1
  rw [all]
  have distinct : ((s.reimbursements.filter fun r => decide (r.id ∈ ids)).map (·.id)).Nodup :=
    good.dues.filter _
  refine (List.perm_ext_iff_of_nodup distinct nodup).mpr fun id => ⟨fun h => ?_, fun h => ?_⟩
  · obtain ⟨r, hr, rfl⟩ := List.mem_map.mp h
    exact of_decide_eq_true (List.mem_filter.mp hr).2
  · obtain ⟨r, hr⟩ := Option.isSome_iff_exists.mp (present id h)
    obtain ⟨mem, rfl⟩ := lookup_mem hr
    exact List.mem_map.mpr ⟨r, List.mem_filter.mpr ⟨mem, decide_eq_true h⟩, rfl⟩

private theorem keeps_autoClose (listId : Uuid) {F : Assertion Shop Write Row}
    (steady : Steady (settling lasting) q F) (sells : q.buys = false) :
    (settling lasting).Keeps q F (autoCloseListIfComplete listId) fun _ => F :=
  Triple.bind (keeps_updateLists steady sells (by exact fun _ => rfl)) fun _ =>
    triple_pure fun _ _ _ _ h => h

private theorem inert_flipItems (p : Shop → ListItem → Bool) : (flipItems p).Emits Inert :=
  emits_change fun _ _ => ⟨⟨rfl, by simp, by simp⟩, rfl⟩

private theorem keeps_afterSettling (cid : Uuid) (ids : List Uuid) (sells : q.buys = false) :
    (settling lasting).Keeps q (Settling lasting ids) (afterSettling cid ids)
      fun infos => Owes lasting (infos.map (·.reimbursementId)) := by
  have steady : Steady (settling lasting) q (Settling lasting ids) := steady_settling ids
  refine (keeps_inert steady (inert_flipItems _)).bind fun _ =>
    (keeps_inert steady inert_updateContract).bind fun _ =>
    (keeps_read _ steady).bind fun listIds =>
    (triple_forM (fun listId => keeps_autoClose listId steady sells) listIds).bind fun _ => ?_
  have reads : (settling lasting).Keeps q (Settling lasting ids)
      (read fun s => webhookInfo s.toDb ids) fun infos c log locks =>
        Settling lasting ids c log locks ∧
          Owes lasting (infos.map (·.reimbursementId)) c log locks := by
    refine Promise.keeps_query steady.stable (fun _ => ⟨fun _ _ h _ => h, fun _ h => h⟩) ?_
    intro infos c log locks h hinfos last
    obtain rfl := Except.ok.inj hinfos
    have told := webhookInfo_ids h.1.view last h.2.2.1 fun id hid => (h.2.2.2 id hid).2
    exact (h.2.1 last).trans (told.symm.append_left _)
  exact reads.imp (fun _ _ _ _ h => h) fun _ _ _ _ _ h => ⟨h.1, h.2.2⟩

private theorem keeps_settleViaContract (cid : Uuid) (now : Timestamp) (sells : q.buys = false) :
    (settling lasting).Keeps q (Owes lasting []) (settleViaContract cid now)
      fun infos => Owes lasting (infos.map (·.reimbursementId)) := by
  have steady : Steady (settling lasting) q (Owes lasting []) := steady_owes []
  refine (keeps_inert steady (emits_lockOne _ _)).bind fun locked => triple_checked fun x _ => ?_
  refine Triple.bind (B := fun rows => (debts lasting).With q
    (Settling lasting (rows.map (·.id)))) (keeps_updateReimbursements steady.stable ?_ ?_)
    fun rows => ?_
  · intro c log locks r _ _ hp
    simp only [pendingOn, Bool.and_eq_true, decide_eq_true_eq] at hp
    exact ⟨hp.2, rfl, fun _ => sells⟩
  · intro c₁ c₂ log locks held found _ h₂ more keyed rows _
    refine ⟨owes_settled h₂.2, keyed, fun id hid => ?_⟩
    obtain ⟨r, hr, rfl⟩ := List.mem_map.mp hid
    refine ⟨(rows r hr).2.2, ?_⟩
    rw [view_append]
    exact present_updates (by rw [(rows r hr).1]; rfl)
  · split
    · rename_i empty
      subst empty
      exact triple_pure fun _ _ _ _ h => ⟨h.1, h.2.1⟩
    · exact keeps_afterSettling cid _ sells

private theorem linkRows_current {snapshot s : Shop} {cid rid : Uuid} {x : LinkRows}
    (h : linkRows snapshot.toDb s.toDb cid rid = some x) :
    s.reimbursement? x.reimbursement.id = some x.reimbursement := by
  simp only [linkRows, Option.bind_eq_bind, Option.bind_eq_some_iff, Option.some.injEq] at h
  obtain ⟨c, -, r, hr, l, -, rfl⟩ := h
  obtain rfl := (lookup_mem hr).2
  exact hr

private theorem keeps_lockLink (cid rid : Uuid) :
    (settling lasting).Keeps q (Owes lasting []) (lockLink cid rid)
      fun x => Current x.reimbursement (Owes lasting []) := by
  refine Promise.keeps_write (steady_owes []).stable ?_
  intro c₁ c₂ log locks held ws x _ h₂ m hact
  simp only [Option.bind_eq_bind, Option.bind_eq_some_iff, Option.ite_none_right_eq_some,
    Option.some.injEq, Prod.mk.injEq] at hact
  obtain ⟨y, hy, planned, rfl, rfl⟩ := hact
  refine ⟨trivial, by simp, ?_⟩
  rw [List.append_nil]
  exact ⟨h₂.2, (m.held _).mpr (.inr planned.2), linkRows_current hy⟩

private theorem keeps_lockSuggested (suggestionId : Uuid) :
    (settling lasting).Keeps q (Owes lasting []) (lockSuggested suggestionId)
      fun x => Current x.2.reimbursement (Owes lasting []) := by
  refine Promise.keeps_write (steady_owes []).stable ?_
  intro c₁ c₂ log locks held ws x _ h₂ m hact
  simp only [Option.bind_eq_bind, Option.bind_eq_some_iff, Option.ite_none_right_eq_some,
    Option.some.injEq, Prod.mk.injEq] at hact
  obtain ⟨g, -, y, hy, planned, rfl, rfl⟩ := hact
  refine ⟨trivial, by simp, ?_⟩
  rw [List.append_nil]
  exact ⟨h₂.2, (m.held _).mpr (.inr planned.2.2), linkRows_current hy⟩

private theorem keeps_checkLink (x : LinkRows) (userId : Uuid) {F : Assertion Shop Write Row}
    (steady : Steady (settling lasting) q F) :
    (settling lasting).Keeps q F (checkLink x userId) fun _ c log locks =>
      F c log locks ∧ x.reimbursement.status = .pending := by
  refine Promise.keeps_query (G := fun _ _ _ _ => x.reimbursement.status = .pending) steady.stable
    (fun _ => ⟨fun _ _ h _ => h, fun _ h => h⟩) fun u c log locks _ hu => ?_
  simp only [Api.Contracts.validateLink, bind_eq_ok, require_eq_ok] at hu
  obtain ⟨-, -, -, ⟨pending, -⟩, -⟩ := hu
  exact pending

private theorem keeps_finalizeLink (x : LinkRows) (now : Timestamp) (sells : q.buys = false)
    (pending : x.reimbursement.status = .pending) :
    (settling lasting).Keeps q (Current x.reimbursement (Owes lasting [])) (finalizeLink x now)
      fun infos => Owes lasting (infos.map (·.reimbursementId)) := by
  have steady : Steady (settling lasting) q (Owes lasting []) := steady_owes []
  refine Triple.bind (B := fun _ => (debts lasting).With q (Owes lasting []))
    (keeps_updateReimbursements (steady.current _).stable ?_ ?_) fun _ =>
    (keeps_inert steady inert_updateContract).bind fun _ => ?_
  · intro c log locks r h current same
    have row : r = x.reimbursement := by
      have mine := h.2.2.2
      rw [← of_decide_eq_true same] at mine
      exact Option.some.inj (current.symm.trans mine)
    subst row
    exact ⟨pending, rfl, fun settled => absurd settled (by simp [pending])⟩
  · intro c₁ c₂ log locks held found _ h₂ _ _ rows _
    refine owes_refresh h₂.2.1 fun r hr settled => ?_
    have mine := h₂.2.2.2
    rw [← of_decide_eq_true (rows r hr).2.1] at mine
    obtain rfl := Option.some.inj ((rows r hr).1.symm.trans mine)
    exact absurd settled (by simp [pending])
  · split
    · exact keeps_settleViaContract _ now sells
    · exact triple_pure fun _ _ _ _ h => h

private theorem inert_confirmSuggestion (g : Suggestion) : (confirmSuggestion g).Emits Inert := by
  refine Prog.emits_statement fun st s ws u hact w hw => ?_
  split at hact
  · split at hact
    · cases hact
    · obtain ⟨rfl, -⟩ := Prod.mk.inj (Option.some.inj hact)
      obtain rfl := List.mem_singleton.mp hw
      exact ⟨⟨rfl, by simp, by simp⟩, rfl⟩
  · obtain ⟨rfl, -⟩ := Prod.mk.inj (Option.some.inj hact)
    cases hw

private theorem inert_upsertConfirmed (cid rid newId : Uuid) :
    (upsertConfirmed cid rid newId).Emits Inert := by
  refine Prog.emits_statement fun st s ws u hact w hw => ?_
  split at hact
  · cases hact
  · split at hact <;> split at hact
    · obtain ⟨rfl, -⟩ := Prod.mk.inj (Option.some.inj hact)
      obtain rfl := List.mem_singleton.mp hw
      exact ⟨⟨rfl, by simp, by simp⟩, rfl⟩
    · cases hact
    · obtain ⟨rfl, -⟩ := Prod.mk.inj (Option.some.inj hact)
      obtain rfl := List.mem_singleton.mp hw
      exact ⟨⟨rfl, by simp, by simp⟩, rfl⟩
    · cases hact

private theorem triple_known {α : Type} {φ : Prop} {F : Assertion Shop Write Row} {p : Program α}
    {G : α → Assertion Shop Write Row} (h : φ → (settling lasting).Keeps q F p G) :
    (settling lasting).Keeps q (fun c log locks => F c log locks ∧ φ) p G :=
  fun c log locks good hA => h hA.2.2 c log locks good ⟨hA.1, hA.2.1⟩

/-- Once the rows are locked, a link is checked, confirmed and finalized. -/
private theorem keeps_link (x : LinkRows) (userId : Uuid) (now : Timestamp) (sells : q.buys = false)
    {confirm : Program Unit} (inert : confirm.Emits Inert) :
    (settling lasting).Keeps q (Current x.reimbursement (Owes lasting []))
      (do checkLink x userId
          confirm
          let infos ← finalizeLink x now
          infos.forM fireWebhook) fun _ => Owes lasting [] := by
  have steady : Steady (settling lasting) q (Current x.reimbursement (Owes lasting [])) :=
    (steady_owes []).current _
  refine (keeps_checkLink x userId steady).bind fun _ => triple_known fun pending => ?_
  exact (keeps_inert steady inert).bind fun _ =>
    (keeps_finalizeLink x now sells pending).bind keeps_fireAll

private theorem keeps_doConfirm (userId suggestionId : Uuid) (now : Timestamp)
    (sells : q.buys = false) :
    (settling lasting).Keeps q (Owes lasting []) (doConfirm userId suggestionId now)
      fun _ => Owes lasting [] := by
  refine (keeps_lockSuggested suggestionId).bind fun x => triple_checked fun _ _ => ?_
  exact keeps_link x.2 userId now sells (inert_confirmSuggestion x.1)

private theorem keeps_doManualLink (userId contractId reimbursementId newId : Uuid)
    (now : Timestamp) (sells : q.buys = false) :
    (settling lasting).Keeps q (Owes lasting [])
      (doManualLink userId contractId reimbursementId newId now) fun _ => Owes lasting [] :=
  (keeps_lockLink contractId reimbursementId).bind fun x =>
    keeps_link x userId now sells (inert_upsertConfirmed _ _ newId)

private theorem keeps_settleRow (r : Reimbursement) (settledByUserId : Uuid) (now : Timestamp)
    (mine : ListItem → Bool) (rival : Reimbursement → Bool) (sells : q.buys = false)
    (pending : r.status = .pending) :
    (settling lasting).Keeps q (Current r (Owes lasting []))
      (settleRow r settledByUserId now mine rival) fun _ => Owes lasting [r.id] := by
  have steady : Steady (settling lasting) q (Current r (Owes lasting [])) :=
    (steady_owes []).current r
  have after : Steady (settling lasting) q (Owes lasting [r.id]) := steady_owes _
  refine (keeps_read _ steady).bind fun owed => triple_checked fun _ _ => ?_
  refine Triple.bind (B := fun _ => (debts lasting).With q (Owes lasting [r.id]))
    (keeps_updateReimbursements steady.stable ?_ ?_) fun _ =>
    (keeps_inert after (inert_flipItems _)).bind fun _ => keeps_autoClose _ after sells
  · intro c log locks x h current same
    have held := h.2.2.2
    rw [← of_decide_eq_true same] at held
    obtain rfl := Option.some.inj (current.symm.trans held)
    exact ⟨pending, rfl, fun _ => sells⟩
  · intro c₁ c₂ log locks held found h₁ h₂ _ keyed rows all
    have one : found.map (·.id) = [r.id] := by
      have mem : r ∈ found := all r h₁.2.2.2 h₂.2.2.2 (by simp)
      have same : ∀ x ∈ found, x.id = r.id := fun x hx => of_decide_eq_true (rows x hx).2.1
      match found, keyed, mem, same with
      | [x], _, _, same => exact congrArg (fun id => [id]) (same x List.mem_cons_self)
      | x :: y :: _, keyed, _, same =>
        refine absurd ?_ (List.nodup_cons.mp keyed).1
        rw [same x List.mem_cons_self, ← same y (by simp)]
        simp
    rw [← one]
    exact owes_settled h₂.2.1

private theorem keeps_fetchLocked {ε α : Type} (rid : Uuid) (e : ε) {F : Assertion Shop Write Row}
    (steady : Steady (settling lasting) q F) {k : Reimbursement → Program α}
    {G : α → Assertion Shop Write Row}
    (rest : ∀ r, r.id = rid → (settling lasting).Keeps q (Current r F) (k r) G) :
    (settling lasting).Keeps q F
      (do let locked ← lockReimbursement rid
          let r ← .check (fetch e locked)
          k r) G := by
  refine (keeps_lockOne _ _ steady).bind fun locked => triple_checked fun r hr => ?_
  obtain rfl := fetch_eq_ok.mp hr
  intro c log locks good h
  obtain ⟨held, current⟩ := h.2.2 r rfl
  have id : r.id = rid := (lookup_mem current).2
  exact rest r id c log locks good ⟨h.1, h.2.1, held, id ▸ current⟩

private theorem keeps_settleManual (rid settledByUserId : Uuid) (now : Timestamp)
    (sells : q.buys = false) :
    (settling lasting).Keeps q (Owes lasting []) (settleManual rid settledByUserId now)
      fun _ => Owes lasting [rid] := by
  refine keeps_fetchLocked rid _ (steady_owes []) fun r id => triple_checked fun _ pending => ?_
  subst id
  have pending := require_eq_ok.mp pending
  split
  · exact keeps_settleRow r settledByUserId now _ _ sells pending
  · exact triple_checked fun _ _ => keeps_settleRow r settledByUserId now _ _ sells pending

private theorem keeps_settleReimbursement (userId rid : Uuid) (now : Timestamp)
    (sells : q.buys = false) :
    (settling lasting).Keeps q (Owes lasting []) (settleReimbursement userId rid now)
      fun _ => Owes lasting [] := by
  have steady : Steady (settling lasting) q (Owes lasting []) := steady_owes []
  have after : Steady (settling lasting) q (Owes lasting [rid]) := steady_owes _
  have forget {α : Type} {r : Reimbursement} {row : Row} {p : Program α}
      {G : α → Assertion Shop Write Row} (h : (settling lasting).Keeps q (Owes lasting []) p G) :
      (settling lasting).Keeps q (Current r (Locked row (Owes lasting []))) p G :=
    h.imp (fun _ _ _ _ hA => ⟨hA.1, hA.2.1.1⟩) fun _ _ _ _ _ hA => hA
  refine (keeps_read _ steady).bind fun pre => triple_checked fun pre _ =>
    (keeps_lockList pre.listId steady).bind fun _ =>
    keeps_fetchLocked rid _ (steady.locked _) fun r _ => triple_checked fun _ _ =>
    triple_checked fun _ _ => forget ?_
  exact (keeps_select _ steady).bind fun role => triple_checked fun _ _ =>
    (keeps_settleManual rid userId now sells).bind fun _ =>
    (keeps_select _ after).bind fun groupId => (keeps_select _ after).bind fun total =>
    keeps_fireWebhook ⟨rid, groupId, total⟩ []

private theorem keeps_unbindReimbursements (cid : Uuid) :
    (settling lasting).Keeps q (Owes lasting []) (unbindReimbursements cid)
      fun _ => Owes lasting [] := by
  have pending (r : Reimbursement) (hp : pendingOn cid r = true) : r.status = .pending := by
    simp only [pendingOn, Bool.and_eq_true, decide_eq_true_eq] at hp
    exact hp.2
  refine keeps_updateReimbursements (steady_owes []).stable (fun c log locks r _ _ hp =>
    ⟨pending r hp, rfl, fun settled => absurd settled (by simp [pending r hp])⟩) ?_
  intro c₁ c₂ log locks held found _ h₂ _ _ rows _
  exact owes_refresh h₂.2 fun r hr => by simp [pending r (rows r hr).2.1]

private theorem keeps_unbindContract (cid : Uuid) :
    (settling lasting).Keeps q (Owes lasting []) (unbindContract cid) fun _ => Owes lasting [] :=
  have steady : Steady (settling lasting) q (Owes lasting []) := steady_owes []
  (keeps_unbindReimbursements cid).bind fun _ =>
    (keeps_inert steady inert_updateSuggestions).bind fun _ =>
    (keeps_inert steady inert_updateContract).bind fun _ => triple_pure fun _ _ _ _ h => h

private theorem keeps_handleContractTerminal (u : Worker.Terminal.UpsertedContract)
    (now : Timestamp) (sells : q.buys = false) :
    (settling lasting).Keeps q (Owes lasting []) (handleContractTerminal u now)
      fun _ => Owes lasting [] := by
  unfold handleContractTerminal
  split
  · exact (keeps_settleViaContract _ now sells).bind keeps_fireAll
  · split
    · exact keeps_unbindContract _
    · exact triple_pure fun _ _ _ _ h => h

private theorem keeps_doUnlink (userId contractId : Uuid) :
    (settling lasting).Keeps q (Owes lasting []) (doUnlink userId contractId)
      fun _ => Owes lasting [] := by
  have steady : Steady (settling lasting) q (Owes lasting []) := steady_owes []
  refine (keeps_inert steady (emits_lockOne _ _)).bind fun locked => triple_checked fun c _ =>
    (keeps_select _ steady).bind fun _ => (keeps_select _ steady).bind fun _ =>
    triple_checked fun _ _ => (keeps_unbindReimbursements contractId).bind fun _ =>
    (keeps_inert steady inert_updateSuggestions).bind fun _ =>
    (keeps_inert steady inert_updateContract).bind fun _ => triple_pure fun _ _ _ _ h => h

private theorem keeps_setListTip (userId listId : Uuid) (tipPct : ℚ) (sells : q.buys = false) :
    (settling lasting).Keeps q (Owes lasting []) (setListTip userId listId tipPct)
      fun _ => Owes lasting [] := by
  have steady : Steady (settling lasting) q (Owes lasting []) := steady_owes []
  have pending (r : Reimbursement) (hp : Api.Lists.pendingOnList listId r = true) :
      r.status = .pending := by
    simp only [Api.Lists.pendingOnList, Bool.and_eq_true, decide_eq_true_eq] at hp
    exact hp.2
  have updates : (settling lasting).Keeps q (Owes lasting [])
      (do let _ ← updateLists (fun _ l => decide (l.id = listId))
            fun l => { l with tipPct := Api.Lists.storedTip tipPct }
          let _ ← updateReimbursements (Api.Lists.pendingOnList listId)
            (fun r => decide (Base.Numeric.Fits 24 (Api.Lists.retip tipPct r).tipIsk ∧
              Base.Numeric.Fits 24 (Api.Lists.retip tipPct r).totalIsk)) (Api.Lists.retip tipPct)
          pure ()) fun _ => Owes lasting [] := by
    refine (keeps_updateLists steady sells (by exact fun _ => rfl)).bind fun _ => ?_
    refine Triple.bind (B := fun _ => (debts lasting).With q (Owes lasting []))
      (keeps_updateReimbursements steady.stable ?_ ?_) fun _ => triple_pure fun _ _ _ _ h => h
    · intro c log locks r _ _ hp
      exact ⟨pending r hp, rfl, fun settled =>
        absurd settled (by simp [Api.Lists.retip, pending r hp])⟩
    · intro c₁ c₂ log locks held found _ h₂ _ _ rows _
      exact owes_refresh h₂.2 fun r hr => by simp [Api.Lists.retip, pending r (rows r hr).2.1]
  have unlocked {p : Program Unit} {row : Row}
      (h : (settling lasting).Keeps q (Owes lasting []) p fun _ => Owes lasting []) :
      (settling lasting).Keeps q (Locked row (Owes lasting [])) p fun _ => Owes lasting [] :=
    h.imp (fun _ _ _ _ hA => ⟨hA.1, hA.2.1⟩) fun _ _ _ _ _ hA => hA
  refine (keeps_select _ steady).bind fun cur => triple_checked fun _ _ =>
    triple_checked fun _ _ => triple_checked fun _ _ => (keeps_lockList listId steady).bind
    fun _ => unlocked ?_
  simp only
  split
  · exact (keeps_select _ steady).bind fun _ => updates
  · exact updates

private theorem keeps_patchListPayer (userId listId : Uuid) (body : Api.Lists.PatchListPayerBody)
    (sells : q.buys = false) :
    (settling lasting).Keeps q (Owes lasting []) (patchListPayer userId listId body)
      fun _ => Owes lasting [] := by
  have steady : Steady (settling lasting) q (Owes lasting []) := steady_owes []
  exact triple_checked fun payer _ => (keeps_select _ steady).bind fun groupId =>
    (keeps_select _ steady).bind fun _ => (keeps_select _ steady).bind fun _ =>
    (keeps_updateLists steady sells (by exact fun _ => rfl)).bind fun _ =>
    triple_pure fun _ _ _ _ h => h

private theorem keeps_upsert {listId requesterUserId haulerUserId newId : Uuid}
    (buys : q.buys = true) : (settling lasting).Keeps q (Locked (.list listId) (Owes lasting []))
      (upsertReimbursement listId requesterUserId haulerUserId newId) fun _ => Owes lasting [] := by
  refine keeps_upsertReimbursement ((steady_owes []).locked _).stable buys (fun _ _ _ h => h.2) ?_
  intro c₁ c₂ log locks held ws _ h₂ _ _ upserts nothing last
  have quiet : ws.filterMap settledIn = [] ∧ ws.filterMap toldIn = [] := by
    cases hnew : proposal (engine.view c₁ log).toDb listId requesterUserId haulerUserId newId with
    | none =>
      rw [nothing hnew]
      exact ⟨rfl, rfl⟩
    | some new =>
      obtain ⟨l, rp, hp, -, -, -, -, shape⟩ := proposal_eq hnew
      have fresh : new.status = .pending := by rw [shape]; rfl
      rcases upserts new hnew with ⟨r, -, pending, rfl⟩ | ⟨r, -, -, rfl⟩ | ⟨-, rfl⟩
      · simp [settledIn, toldIn, Api.Reimbursements.takeAmounts, pending]
      · exact ⟨rfl, rfl⟩
      · simp [settledIn, toldIn, fresh]
  rw [List.filterMap_append, List.filterMap_append, quiet.1, quiet.2, List.append_nil,
    List.append_nil]
  exact h₂.2.1 last

theorem keeps_owes (q : TradeRequest) (keeps : q.deletes = false) :
    (settling lasting).Keeps q (Owes lasting []) (program q) fun _ => Owes lasting [] := by
  have steady : Steady (settling lasting) q (Owes lasting []) := steady_owes []
  cases q with
  | recordFulfillment userId listId itemId body gen =>
    exact keeps_recordFulfillment steady fun _ => keeps_upsert rfl
  | reverseFulfillment userId fulfillmentId newId now =>
    exact keeps_reverseFulfillment steady fun _ _ _ => keeps_upsert rfl
  | markDelivered userId listId itemId lastHauler =>
    exact keeps_inert steady (inert_markDelivered _ _ _ _)
  | createClaim userId listId itemIds claimId => exact keeps_inert steady (inert_createClaim _ _ _ _)
  | addClaimItems userId claimId itemIds => exact keeps_inert steady (inert_addClaimItems _ _ _)
  | removeClaimItem userId claimId itemId => exact keeps_inert steady (inert_removeClaimItem _ _ _)
  | releaseClaim userId claimId => exact keeps_inert steady (inert_releaseClaim _ _)
  | addItems limits userId listId lines itemIds => exact keeps_inert steady (inert_addItems _ _ _ _ _)
  | patchItem userId listId itemId body => exact keeps_inert steady (inert_patchItem _ _ _ _)
  | deleteItem userId listId itemId => exact keeps_inert steady (inert_deleteItem _ _ _)
  | setListTip userId listId tipPct => exact keeps_setListTip _ _ _ rfl
  | patchListPayer userId listId body => exact keeps_patchListPayer _ _ _ rfl
  | doConfirm userId suggestionId now => exact keeps_doConfirm _ _ now rfl
  | doReject userId suggestionId => exact keeps_inert steady (inert_doReject _ _)
  | doManualLink userId contractId reimbursementId newId now =>
    exact keeps_doManualLink _ _ _ _ now rfl
  | doUnlink userId contractId => exact keeps_doUnlink _ _
  | settleReimbursement userId reimbursementId now => exact keeps_settleReimbursement _ _ now rfl
  | handleContractTerminal u now => exact keeps_handleContractTerminal u now rfl
  | upsertContract u newId => exact keeps_inert steady (inert_upsertContract _ _)
  | verifyContractAgainstJournal limit1 contractId =>
    exact keeps_inert steady (inert_verifyContract _ _)
  | deleteList userId listId => cases keeps
  | deleteGroup userId groupId => cases keeps

end Programs

end JitaCart.Concurrent.Trade
