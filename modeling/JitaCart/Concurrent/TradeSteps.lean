/- module: JitaCart/Concurrent/TradeSteps
   source: backend/crates/api/src/fulfillment/reimbursements.rs (upsert_reimbursement),
     backend/crates/settlement/src/lib.rs
   digest: Rules for the statements that lock and write reimbursements and lists. -/

import JitaCart.Concurrent.Debts

set_option autoImplicit false
set_option relaxedAutoImplicit false

namespace JitaCart.Concurrent.Trade

open Schema Base.Table Base.Request Base.ReadCommitted
open Api.Reimbursements (cycle takeAmounts moneyFits moneyNonneg)

/-- Writes that neither concern a reimbursement, nor tell of one, nor delete a group. -/
structure Plain (w : Write) : Prop where
  due : w.due = none
  told : ∀ n, w ≠ .notify n
  group : ∀ groupId, w ≠ .dropGroup groupId

/-- Writes of neither a reimbursement nor a list. -/
def Bare (w : Write) : Prop := w.due = none ∧ w.listed = none

def Inert (w : Write) : Prop := Plain w ∧ w.listed = none

theorem Inert.bare {w : Write} (h : Inert w) : Bare w := ⟨h.1.due, h.2⟩

private theorem Clerical.inert {w : Write} (h : Clerical w) : Inert w := by
  cases w with
  | put x =>
    cases x with
    | list l => exact h.elim
    | _ => exact ⟨⟨rfl, by simp, by simp⟩, rfl⟩
  | _ => exact h.elim

section Rules
variable {lasting : Prop} {P : Promise (debts lasting)} {q : TradeRequest}
  {F : Assertion Shop Write Row}

theorem Bare.lands {w : Write} (h : Bare w) (s : Shop) : Lands lasting w s := by
  cases w with
  | putReimbursement before r => cases h.1
  | dropReimbursement r => cases h.1
  | drop x =>
    cases x with
    | list l => cases h.2
    | _ => trivial
  | put x => trivial
  | _ => trivial

theorem Bare.owned {w : Write} (h : Bare w) (held : List Row) : Owned q held w where
  due := by simp [h.1]
  listed := by simp [h.2]
  new r hw := by
    subst hw
    cases h.1
  settles before r hw := by
    subst hw
    cases h.1
  drops r hw := by
    subst hw
    cases h.1

variable (P q F) in
/-- Neither what others commit nor plain writes make the assertion false. -/
structure Steady : Prop where
  stable : Stable P.terms ((debts lasting).With q F)
  plain : ∀ c log locks held ws, (debts lasting).With q F c log locks → (∀ r ∈ locks, r ∈ held) →
    (∀ w ∈ ws, Plain w) → F c (log ++ ws) held

def Locked (row : Row) (F : Assertion Shop Write Row) : Assertion Shop Write Row :=
  fun c log locks => F c log locks ∧ row ∈ locks

/-- The reimbursement is locked, and this is its version that the transaction sees. -/
def Current (r : Reimbursement) (F : Assertion Shop Write Row) : Assertion Shop Write Row :=
  fun c log locks => F c log locks ∧ .reimbursement r.id ∈ locks ∧
    (engine.view c log).reimbursement? r.id = some r

theorem view_plain {s : Shop} {ws : List Write} (plain : ∀ w ∈ ws, Plain w) :
    (engine.view s ws).reimbursements = s.reimbursements := by
  induction ws generalizing s with
  | nil => rfl
  | cons w ws ih =>
    have first := reimbursements_redo_none (s := s) (plain w List.mem_cons_self).due
    exact (ih fun x hx => plain x (List.mem_cons_of_mem w hx)).trans first

private theorem steady_true : Steady P q fun _ _ _ => True :=
  ⟨Promise.stable_with ⟨fun _ _ h _ => h, fun _ h => h⟩, fun _ _ _ _ _ _ _ _ => trivial⟩

theorem Steady.locked (h : Steady P q F) (row : Row) : Steady P q (Locked row F) where
  stable := by
    refine ⟨fun good good' hA change => ?_, fun same hA => ?_⟩
    · have rest := h.stable.rely good good' ⟨hA.1, hA.2.1⟩ change
      exact ⟨rest.1, rest.2, hA.2.2⟩
    · have rest := h.stable.same same ⟨hA.1, hA.2.1⟩
      exact ⟨rest.1, rest.2, (same row).mpr hA.2.2⟩
  plain c log locks held ws hA more plain :=
    ⟨h.plain c log locks held ws ⟨hA.1, hA.2.1⟩ more plain, more row hA.2.2⟩

theorem Steady.current (h : Steady P q F) (r : Reimbursement) : Steady P q (Current r F) where
  stable := by
    refine ⟨fun good good' hA change => ?_, fun same hA => ?_⟩
    · have rest := h.stable.rely good good' ⟨hA.1, hA.2.1⟩ change
      have view : Untouched _ _ _ := hA.1.view_same good'.1 change.1
      exact ⟨rest.1, rest.2, hA.2.2.1, (view.dues _ hA.2.2.1).trans hA.2.2.2⟩
    · have rest := h.stable.same same ⟨hA.1, hA.2.1⟩
      exact ⟨rest.1, rest.2, (same _).mpr hA.2.2.1, hA.2.2.2⟩
  plain c log locks held ws hA more plain := by
    refine ⟨h.plain c log locks held ws ⟨hA.1, hA.2.1⟩ more plain, more _ hA.2.2.1, ?_⟩
    rw [view_append]
    exact (congrArg (lookup Reimbursement.id r.id) (view_plain plain)).trans hA.2.2.2

theorem keeps_inert {α : Type} {p : Program α} (steady : Steady P q F) (emits : p.Emits Inert) :
    P.Keeps q F p fun _ => F :=
  Promise.keeps_emits steady.stable (fun _ s held h => ⟨h.bare.lands s, h.bare.owned held⟩)
    (fun c log locks held ws h more inert =>
      steady.plain c log locks held ws h more fun w hw => (inert w hw).1) emits

theorem keeps_select {ε α : Type} (query : Shop → Except ε α) (steady : Steady P q F) :
    P.Keeps q F (Prog.select query) fun _ => F :=
  keeps_inert steady (Prog.emits_select query)

theorem keeps_read {α : Type} (query : Shop → α) (steady : Steady P q F) :
    P.Keeps q F (read query) fun _ => F :=
  keeps_inert steady (emits_read query)

theorem keeps_lockOne {α : Type} (find : Shop → Option α) (row : α → Row) (steady : Steady P q F) :
    P.Keeps q F (lockOne find row) fun x c log locks =>
      F c log locks ∧ ∀ a ∈ x, row a ∈ locks ∧ find (engine.view c log) = some a := by
  refine Promise.keeps_write steady.stable ?_
  intro c₁ c₂ log locks held ws a _ h₂ m hact
  obtain ⟨rfl, rfl⟩ := Prod.mk.inj (Option.some.inj hact)
  have more : ∀ r ∈ locks, r ∈ held := fun r hr => (m.held r).mpr (.inl hr)
  refine ⟨trivial, by simp, steady.plain c₂ log locks held [] h₂ more (by simp), fun a ha => ?_⟩
  rw [List.append_nil]
  obtain ⟨found, planned⟩ := Option.filter_eq_some_iff.mp ha
  exact ⟨(m.held _).mpr (.inr (of_decide_eq_true planned)), found⟩

theorem keeps_lockList (listId : Uuid) (steady : Steady P q F) :
    P.Keeps q F (lockList listId) fun _ => Locked (.list listId) F := by
  refine (keeps_lockOne _ _ steady).bind fun found => triple_check fun l hl c log locks good h => ?_
  obtain rfl := (fetch_eq_ok.mp hl)
  obtain ⟨held, current⟩ := h.2.2 l rfl
  have id : l.id = listId := (lookup_mem current).2
  exact ⟨h.1, h.2.1, id ▸ held⟩

private theorem replays_lists {set : ListRow → ListRow} (found : List ListRow) (s : Shop) :
    (debts lasting).Replays (found.map fun l => .put (.list (set l))) s := by
  induction found generalizing s with
  | nil => trivial
  | cons l found ih => exact ⟨trivial, ih _⟩

/-- Lists are updated under their locks, by requests that do not buy. -/
theorem keeps_changeLists {p : Shop → ListRow → Bool} {set : ListRow → ListRow}
    {G : Assertion Shop Write Row} (stable : Stable P.terms ((debts lasting).With q F))
    (sells : q.buys = false) (ids : ∀ l, (set l).id = l.id)
    (after : ∀ snapshot c log locks held planned (found : List ListRow),
      (debts lasting).With q F c log locks →
      (∀ r ∈ locks, r ∈ held) → P.cond q c log ⟨snapshot, planned⟩ →
      (∀ l ∈ found, p snapshot l = true ∧ .list l.id ∈ planned) →
      G c (log ++ found.map fun l => .put (.list (set l))) held) :
    P.Keeps q F (updateLists p set) fun _ => G := by
  refine Promise.keeps_write stable ?_
  intro c₁ c₂ log locks held ws a _ h₂ m hact
  obtain ⟨rfl, rfl⟩ := change_eq_some hact
  refine ⟨replays_lists _ _, fun w hw => ?_, after (engine.view c₁ log) c₂ log locks held _ _ h₂
    (fun r hr => (m.held r).mpr (.inl hr)) m.cond fun l hl => ?_⟩
  · obtain ⟨l, hl, rfl⟩ := List.mem_map.mp hw
    have planned := (List.mem_filter.mp hl).2
    simp only [Bool.and_eq_true, decide_eq_true_eq] at planned
    refine ⟨by simp [Write.due], fun x hx => ?_, by simp, by simp, by simp⟩
    obtain rfl := Option.some.inj hx
    exact ⟨(m.held _).mpr (.inr ((ids l).symm ▸ planned.2)), sells⟩
  · have planned := (List.mem_filter.mp hl).2
    simp only [Bool.and_eq_true, decide_eq_true_eq] at planned
    exact planned

theorem keeps_updateLists {p : Shop → ListRow → Bool} {set : ListRow → ListRow}
    (steady : Steady P q F) (sells : q.buys = false) (ids : ∀ l, (set l).id = l.id) :
    P.Keeps q F (updateLists p set) fun _ => F := by
  refine keeps_changeLists steady.stable sells ids fun _ c log locks held _ found h more _ _ =>
    steady.plain c log locks held _ h more fun w hw => ?_
  obtain ⟨l, -, rfl⟩ := List.mem_map.mp hw
  exact ⟨rfl, by simp, by simp⟩

/-- New versions of different current rows land one after the other. -/
private theorem replays_updates {set : Reimbursement → Reimbursement} {s : Shop}
    {found : List Reimbursement} (keyed : Keyed Reimbursement.id found)
    (current : ∀ r ∈ found, s.reimbursement? r.id = some r)
    (next : ∀ r ∈ found, r.status = .pending ∧ frozen (set r) = frozen r) :
    (debts lasting).Replays (found.map fun r => .putReimbursement (some r) (set r)) s := by
  induction found generalizing s with
  | nil => trivial
  | cons r found ih =>
    obtain ⟨fresh, keyed⟩ := List.nodup_cons.mp keyed
    obtain ⟨pending, same⟩ := next r List.mem_cons_self
    refine ⟨⟨current r List.mem_cons_self, pending, same⟩, ih keyed (fun x hx => ?_) fun x hx =>
      next x (List.mem_cons_of_mem r hx)⟩
    have other : r.id ≠ x.id := fun eq => fresh (eq ▸ List.mem_map_of_mem hx)
    show (redo (.putReimbursement (some r) (set r)) s).reimbursement? x.id = some x
    rw [reimbursement?_redo]
    simp only [Write.due, Option.filter, frozen_id same, other, decide_false, Bool.false_eq_true,
      if_false, Option.map_none, Option.getD_none]
    exact current x (List.mem_cons_of_mem r hx)

/-- An update of pending rows. `found` are the current versions of rows that the snapshot had. -/
theorem keeps_updateReimbursements {p fits : Reimbursement → Bool}
    {set : Reimbursement → Reimbursement} {G : List Reimbursement → Assertion Shop Write Row}
    (stable : Stable P.terms ((debts lasting).With q F))
    (next : ∀ c log locks r, (debts lasting).With q F c log locks →
      (engine.view c log).reimbursement? r.id = some r → p r = true →
      r.status = .pending ∧ frozen (set r) = frozen r ∧ ((set r).status = .settled → q.buys = false))
    (after : ∀ c₁ c₂ log locks held found, (debts lasting).With q F c₁ log locks →
      (debts lasting).With q F c₂ log locks → (∀ r ∈ locks, r ∈ held) →
      Keyed Reimbursement.id found →
      (∀ r ∈ found, (engine.view c₂ log).reimbursement? r.id = some r ∧ p r = true ∧
        .reimbursement r.id ∈ held) →
      (∀ r, (engine.view c₁ log).reimbursement? r.id = some r →
        (engine.view c₂ log).reimbursement? r.id = some r → p r = true → r ∈ found) →
      G found c₂ (log ++ found.map fun r => .putReimbursement (some r) (set r)) held) :
    P.Keeps q F (updateReimbursements p fits set) G := by
  refine Promise.keeps_write stable ?_
  intro c₁ c₂ log locks held ws a h₁ h₂ m hact
  obtain ⟨rfl, rfl⟩ := change_eq_some hact
  have good : Sorted lasting (engine.view c₂ log) := h₂.1.view
  have current (r : Reimbursement) (hr : r ∈ (engine.view c₂ log).reimbursements) :
      (engine.view c₂ log).reimbursement? r.id = some r :=
    (lookup_eq_some good.dues).mpr ⟨hr, rfl⟩
  have rows : ∀ r ∈ (engine.view c₂ log).reimbursements.filter (fun x => p x &&
      decide (Row.reimbursement x.id ∈ ((engine.view c₁ log).reimbursements.filter p).map
        fun x => Row.reimbursement x.id)),
      (engine.view c₂ log).reimbursement? r.id = some r ∧ p r = true ∧
        .reimbursement r.id ∈ held := by
    intro r hr
    obtain ⟨hr, hp⟩ := List.mem_filter.mp hr
    simp only [Bool.and_eq_true, decide_eq_true_eq] at hp
    exact ⟨current r hr, hp.1, (m.held _).mpr (.inr hp.2)⟩
  have keyed : Keyed Reimbursement.id ((engine.view c₂ log).reimbursements.filter (fun x => p x &&
      decide (Row.reimbursement x.id ∈ ((engine.view c₁ log).reimbursements.filter p).map
        fun x => Row.reimbursement x.id))) := good.dues.filter _
  refine ⟨replays_updates keyed (fun r hr => (rows r hr).1) (fun r hr => ?_), fun w hw => ?_,
    after c₁ c₂ log locks held _ h₁ h₂ (fun r hr => (m.held r).mpr (.inl hr)) keyed rows ?_⟩
  · obtain ⟨pending, same, -⟩ := next c₂ log locks r h₂ (rows r hr).1 (rows r hr).2.1
    exact ⟨pending, same⟩
  · obtain ⟨r, hr, rfl⟩ := List.mem_map.mp hw
    obtain ⟨cur, hp, hheld⟩ := rows r hr
    obtain ⟨-, same, sells⟩ := next c₂ log locks r h₂ cur hp
    refine ⟨fun x hx => ?_, by simp [Write.listed], by simp, fun _ r' hw settled => ?_, by simp⟩
    · obtain rfl := Option.some.inj hx
      exact (frozen_id same).symm ▸ hheld
    · obtain ⟨-, rfl⟩ := Write.putReimbursement.inj hw
      exact sells settled
  · intro r before cur hp
    refine List.mem_filter.mpr ⟨(lookup_mem cur).1, ?_⟩
    simp only [Bool.and_eq_true, decide_eq_true_eq]
    exact ⟨hp, List.mem_map.mpr ⟨r, List.mem_filter.mpr ⟨(lookup_mem before).1, hp⟩, rfl⟩⟩

theorem proposal_eq {s : Db} {listId requesterUserId haulerUserId newId : Uuid}
    {new : Reimbursement}
    (h : proposal s listId requesterUserId haulerUserId newId = some new) :
    ∃ l rp hp, s.list? listId = some l ∧ l.id = listId ∧
      s.directory.requesterPrincipal l.payer requesterUserId = some rp ∧
      s.directory.userPrincipal haulerUserId = some hp ∧
      new = Api.Reimbursements.proposed s l requesterUserId rp haulerUserId hp newId := by
  simp only [proposal, Option.bind_eq_bind, Option.bind_eq_some_iff, Option.some.injEq] at h
  obtain ⟨l, hl, rp, hrp, hp, hhp, rfl⟩ := h
  exact ⟨l, rp, hp, hl, (lookup_mem hl).2, hrp, hhp, rfl⟩

/-- What the upsert writes for the row that was proposed on its snapshot. -/
def Upserts (s : Shop) (new : Reimbursement) (ws : List Write) : Prop :=
  (∃ r, taken s.toDb new = some r ∧ r.status = .pending ∧
    ws = [.putReimbursement (some r) (takeAmounts new r)]) ∨
  (∃ r, taken s.toDb new = some r ∧ r.status ≠ .pending ∧ ws = []) ∨
  (taken s.toDb new = none ∧ ws = [.putReimbursement none new])

private theorem upserts_of_row {s₁ s : Shop} {new : Reimbursement} {held : List Row}
    {ws : List Write}
    (good : Sorted lasting s) (buys : q.buys = true) (fresh : new.status = .pending)
    (list : (s.list? new.listId).isSome) (listHeld : .list new.listId ∈ held)
    (planned : ∀ r ∈ upsertRows s₁.toDb new, r ∈ held)
    (h : upsertRow (upsertRows s₁.toDb new) new s.toDb = some ws) :
    Upserts s new ws ∧ (debts lasting).Replays ws s ∧ ∀ w ∈ ws, Owned q held w := by
  unfold upsertRow at h
  cases htaken : taken s.toDb new with
  | some r =>
    simp only [htaken] at h
    split at h
    · rename_i hplanned
      split at h
      · rename_i pending
        obtain rfl := Option.some.inj h
        have current : s.reimbursement? r.id = some r :=
          (lookup_eq_some good.dues).mpr ⟨List.mem_of_find?_eq_some htaken, rfl⟩
        refine ⟨.inl ⟨r, htaken, pending, rfl⟩, ⟨⟨current, pending, rfl⟩, trivial⟩, fun w hw => ?_⟩
        obtain rfl := List.mem_singleton.mp hw
        refine ⟨fun x hx => ?_, by simp [Write.listed], by simp, fun _ r' hw settled => ?_, by simp⟩
        · obtain rfl := Option.some.inj hx
          exact planned _ hplanned
        · obtain ⟨-, rfl⟩ := Write.putReimbursement.inj hw
          cases pending.symm.trans settled
      · rename_i other
        obtain rfl := Option.some.inj h
        exact ⟨.inr (.inl ⟨r, htaken, other, rfl⟩), trivial, by simp⟩
    · cases h
  | none =>
    simp only [htaken] at h
    split at h
    · rename_i hplanned
      obtain rfl := Option.some.inj h
      have own : .reimbursement new.id ∈ held := by
        refine planned _ ?_
        unfold upsertRows at hplanned ⊢
        split at hplanned <;> simp_all
      refine ⟨.inr (.inr ⟨htaken, rfl⟩), ⟨⟨hplanned.2, fresh, fun _ => list⟩, trivial⟩,
        fun w hw => ?_⟩
      obtain rfl := List.mem_singleton.mp hw
      refine ⟨fun x hx => ?_, by simp [Write.listed], fun r hw => ?_, fun _ r' hw settled => ?_,
        by simp⟩
      · obtain rfl := Option.some.inj hx
        exact own
      · obtain ⟨-, rfl⟩ := Write.putReimbursement.inj hw
        exact ⟨listHeld, buys⟩
      · obtain ⟨-, rfl⟩ := Write.putReimbursement.inj hw
        cases fresh.symm.trans settled
    · cases h

theorem keeps_upsertReimbursement {listId requesterUserId haulerUserId newId : Uuid}
    {G : Assertion Shop Write Row} (stable : Stable P.terms ((debts lasting).With q F))
    (buys : q.buys = true) (listed : ∀ c log locks, F c log locks → .list listId ∈ locks)
    (after : ∀ c₁ c₂ log locks held ws, (debts lasting).With q F c₁ log locks →
      (debts lasting).With q F c₂ log locks → P.terms.rely log locks c₁ c₂ →
      (∀ r ∈ locks, r ∈ held) → (∀ new, proposal (engine.view c₁ log).toDb listId requesterUserId haulerUserId newId =
        some new → Upserts (engine.view c₂ log) new ws) →
      (proposal (engine.view c₁ log).toDb listId requesterUserId haulerUserId newId = none →
        ws = []) → G c₂ (log ++ ws) held) :
    P.Keeps q F (upsertReimbursement listId requesterUserId haulerUserId newId) fun _ => G := by
  refine Promise.keeps_write stable ?_
  intro c₁ c₂ log locks held ws u h₁ h₂ m hact
  have more : ∀ r ∈ locks, r ∈ held := fun r hr => (m.held r).mpr (.inl hr)
  have view : Untouched locks (engine.view c₁ log) (engine.view c₂ log) :=
    h₁.1.view_same m.good₂.1 m.during.1
  have good : Sorted lasting (engine.view c₂ log) := h₂.1.view
  have finish := after c₁ c₂ log locks held ws h₁ h₂ m.during more
  have planned := m.held
  cases hnew : proposal (engine.view c₁ log).toDb listId requesterUserId haulerUserId newId with
  | none =>
    simp only [hnew, Option.some.injEq, Prod.mk.injEq] at hact
    obtain ⟨rfl, -⟩ := hact
    exact ⟨trivial, by simp, finish (by simp [hnew]) fun _ => rfl⟩
  | some new =>
    simp only [hnew] at hact planned
    obtain ⟨l, rp, hp, hl, id, -, -, shape⟩ := proposal_eq hnew
    have onList : new.listId = listId := by rw [shape, ← id]; rfl
    have fresh : new.status = .pending := by rw [shape]; rfl
    have hheld : .list listId ∈ held := more _ (listed c₂ log locks h₂.2)
    have hlist : ((engine.view c₂ log).list? new.listId).isSome := by
      rw [onList, view.lists _ (listed c₂ log locks h₂.2), hl]
      rfl
    split at hact
    · rename_i hmoney
      obtain ⟨ws', hws, same⟩ := Option.map_eq_some_iff.mp hact
      obtain ⟨rfl, -⟩ := Prod.mk.inj same
      obtain ⟨upserts, replays, own⟩ := upserts_of_row good buys fresh
        hlist (onList ▸ hheld) (fun r hr => (planned r).mpr (.inr hr)) hws
      refine ⟨replays, own, finish (fun x hx => ?_) fun h => ?_⟩
      · obtain rfl := Option.some.inj (hnew.symm.trans hx)
        exact upserts
      · simp [hnew] at h
    · cases hact

private theorem inert_insertFulfillment (f : Fulfillment) : (insertFulfillment f).Emits Inert := by
  refine emits_insert fun w hw => ?_
  obtain rfl := List.mem_singleton.mp hw
  exact ⟨⟨rfl, by simp, by simp⟩, rfl⟩

private theorem inert_reverseRow (fulfillmentId : Uuid) (now : Timestamp) :
    (reverseRow fulfillmentId now).Emits Inert :=
  emits_change fun _ _ => ⟨⟨rfl, by simp, by simp⟩, rfl⟩

theorem keeps_recordFulfillment {userId listId itemId : Uuid}
    {body : Api.Fulfillments.RecordFulfillmentBody} {gen : Api.Fulfillments.Generated}
    (steady : Steady P q F)
    (upsert : ∀ requesterUserId, P.Keeps q (Locked (.list listId) F)
      (upsertReimbursement listId requesterUserId userId gen.reimbursementId) fun _ => F) :
    P.Keeps q F (recordFulfillment userId listId itemId body gen) fun _ => F := by
  have held : Steady P q (Locked (.list listId) F) := steady.locked _
  refine (keeps_select _ steady).bind fun cur => triple_checked fun _ _ =>
    triple_checked fun _ _ => (keeps_lockList listId steady).bind fun _ =>
    (keeps_inert held (emits_lockItem listId itemId)).bind fun li => triple_checked fun _ _ => ?_
  refine (keeps_read _ held).bind fun status => triple_checked fun _ _ =>
    (keeps_select _ held).bind fun _ => (keeps_read _ held).bind fun active =>
    triple_checked fun _ _ => (keeps_inert held (inert_insertFulfillment _)).bind fun _ => ?_
  exact (keeps_inert held ((clerical_recomputeItemStatus _ _).imp fun _ => Clerical.inert)).bind
    fun newStatus =>
    (keeps_inert held ((clerical_completeClaim _ _).imp fun _ => Clerical.inert)).bind fun _ =>
    upsert _

theorem keeps_reverseFulfillment {userId fulfillmentId newId : Uuid} {now : Timestamp}
    (steady : Steady P q F)
    (upsert : ∀ listId requesterUserId haulerUserId, P.Keeps q (Locked (.list listId) F)
      (upsertReimbursement listId requesterUserId haulerUserId newId) fun _ => F) :
    P.Keeps q F (reverseFulfillment userId fulfillmentId newId now) fun _ => F := by
  refine (keeps_select _ steady).bind fun found => (keeps_lockList _ steady).bind fun _ => ?_
  have held : Steady P q (Locked (.list found.2.listId) F) := steady.locked _
  refine (keeps_select _ held).bind fun again => triple_checked fun _ _ =>
    triple_checked fun _ _ => (keeps_select _ held).bind fun role => triple_checked fun _ _ =>
    (keeps_read _ held).bind fun status => triple_checked fun _ _ => ?_
  exact (keeps_inert held (inert_reverseRow _ _)).bind fun changed => triple_checked fun row _ =>
    (keeps_inert held ((clerical_recomputeItemStatus _ _).imp fun _ => Clerical.inert)).bind
    fun _ => upsert _ _ _

end Rules

section Others

private theorem inert_updateItems {p : Shop → ListItem → Bool} {set : Shop → ListItem → ListItem} :
    (updateItems p set).Emits Inert :=
  emits_change fun _ _ => ⟨⟨rfl, by simp, by simp⟩, rfl⟩

theorem inert_markDelivered (userId listId itemId : Uuid) (lastHauler : Option Uuid) :
    (markDelivered userId listId itemId lastHauler).Emits Inert := by
  refine Prog.emits_bind (Prog.emits_select _) fun cur => Prog.emits_bind (Prog.emits_check _)
    fun _ => Prog.emits_bind (emits_lockList _) fun _ => Prog.emits_bind ?_ fun status =>
    Prog.emits_bind (Prog.emits_check _) fun _ => Prog.emits_bind (Prog.emits_check _) fun _ =>
    Prog.emits_bind inert_updateItems fun _ => Prog.emits_pure _
  refine Prog.emits_statement fun st s ws a hact => ?_
  simp only [Option.bind_eq_bind, Option.bind_eq_some_iff, Option.ite_none_right_eq_some,
    Option.some.injEq, Prod.mk.injEq] at hact
  obtain ⟨_, -, -, rfl, -⟩ := hact
  simp

private theorem inert_insertClaimItems (claimId : Uuid) (itemIds : List Uuid) :
    (insertClaimItems claimId itemIds).Emits Inert := by
  refine Prog.emits_bind (emits_insert fun w hw => ?_) fun _ =>
    Prog.emits_bind ((clerical_recomputeItemStatusesBulk _).imp fun _ => Clerical.inert)
    fun _ => Prog.emits_pure _
  obtain ⟨_, -, rfl⟩ := List.mem_map.mp hw
  exact ⟨⟨rfl, by simp, by simp⟩, rfl⟩

theorem inert_createClaim (userId listId : Uuid) (itemIds : List Uuid) (claimId : Uuid) :
    (createClaim userId listId itemIds claimId).Emits Inert := by
  refine Prog.emits_bind (Prog.emits_select _) fun cur => Prog.emits_bind (Prog.emits_check _)
    fun _ => Prog.emits_bind (Prog.emits_check _) fun _ => Prog.emits_bind (emits_lockList _)
    fun _ => Prog.emits_bind (Prog.emits_select _) fun _ =>
    Prog.emits_bind (emits_insert fun w hw => ?_) fun _ => inert_insertClaimItems _ _
  obtain rfl := List.mem_singleton.mp hw
  exact ⟨⟨rfl, by simp, by simp⟩, rfl⟩

private theorem emits_openClaim {Q : Write → Prop} (userId claimId : Uuid) :
    (openClaim userId claimId).Emits Q :=
  Prog.emits_bind (Prog.emits_select _) fun _ => Prog.emits_bind (Prog.emits_check _) fun _ =>
    Prog.emits_bind (Prog.emits_check _) fun _ => Prog.emits_pure _

theorem inert_addClaimItems (userId claimId : Uuid) (itemIds : List Uuid) :
    (addClaimItems userId claimId itemIds).Emits Inert :=
  Prog.emits_bind (emits_openClaim _ _) fun _ => Prog.emits_bind (Prog.emits_check _) fun _ =>
    Prog.emits_bind (emits_lockList _) fun _ => Prog.emits_bind (Prog.emits_select _) fun _ =>
    inert_insertClaimItems _ _

theorem inert_deleteClaimItems (p : ClaimItem → Bool) : (deleteClaimItems p).Emits Inert :=
  emits_change fun _ _ => ⟨⟨rfl, by simp, by simp⟩, rfl⟩

theorem inert_removeClaimItem (userId claimId itemId : Uuid) :
    (removeClaimItem userId claimId itemId).Emits Inert :=
  Prog.emits_bind (emits_openClaim _ _) fun _ => Prog.emits_bind (emits_lockList _) fun _ =>
    Prog.emits_bind (inert_deleteClaimItems _) fun _ => Prog.emits_bind (Prog.emits_check _)
    fun _ => Prog.emits_bind ((clerical_recomputeItemStatus _ _).imp fun _ => Clerical.inert)
    fun _ => Prog.emits_pure _

theorem inert_releaseClaim (userId claimId : Uuid) : (releaseClaim userId claimId).Emits Inert :=
  Prog.emits_bind (emits_openClaim _ _) fun _ => Prog.emits_bind (emits_lockList _) fun _ =>
    Prog.emits_bind (emits_read _) fun _ =>
    Prog.emits_bind ((clerical_updateClaimStatus _ _ _).imp fun _ => Clerical.inert) fun _ =>
    Prog.emits_bind ((clerical_recomputeItemStatusesBulk _).imp fun _ => Clerical.inert) fun _ =>
    Prog.emits_pure _

theorem inert_addItems (limits : Api.Lists.Limits) (userId listId : Uuid)
    (lines : List Api.Lists.NewLine) (itemIds : List Uuid) :
    (addItems limits userId listId lines itemIds).Emits Inert := by
  refine Prog.emits_bind (Prog.emits_select _) fun cur => Prog.emits_bind (Prog.emits_check _)
    fun _ => Prog.emits_bind (Prog.emits_check _) fun _ => Prog.emits_bind (emits_lockList _)
    fun _ => Prog.emits_bind (emits_read _) fun _ => Prog.emits_bind (Prog.emits_check _) fun _ =>
    emits_insert fun w hw => ?_
  obtain ⟨_, -, rfl⟩ := List.mem_map.mp hw
  exact ⟨⟨rfl, by simp, by simp⟩, rfl⟩

private theorem emits_lockEditable {Q : Write → Prop} (listId itemId : Uuid) (action : String) :
    (lockEditable listId itemId action).Emits Q :=
  Prog.emits_bind (emits_lockList _) fun _ => Prog.emits_bind (emits_lockItem _ _) fun _ =>
    Prog.emits_check _

theorem inert_patchItem (userId listId itemId : Uuid) (body : Api.Lists.PatchItemBody) :
    (patchItem userId listId itemId body).Emits Inert := by
  refine Prog.emits_bind (Prog.emits_select _) fun _ => Prog.emits_bind (Prog.emits_check _)
    fun _ => Prog.emits_bind (Prog.emits_check _) fun _ => Prog.emits_bind (Prog.emits_check _)
    fun _ => Prog.emits_bind (emits_lockEditable _ _ _) fun _ => ?_
  have set : (updateItems (fun _ => Api.Lists.onItem listId itemId) fun _ =>
      Api.Lists.PatchItemBody.assign { body with qtyRequested := none }).Emits Inert :=
    inert_updateItems
  have last {b : Prop} [Decidable b] : (if b then (do
      let _ ← updateItems (fun _ => Api.Lists.onItem listId itemId) fun _ =>
        Api.Lists.PatchItemBody.assign { body with qtyRequested := none }
      pure ()) else pure () : Program Unit).Emits Inert := by
    split
    · exact Prog.emits_bind set fun _ => Prog.emits_pure _
    · exact Prog.emits_pure _
  simp only
  split
  · exact Prog.emits_bind inert_updateItems fun _ => Prog.emits_bind (Prog.emits_pure _) fun _ => last
  · exact Prog.emits_bind (Prog.emits_pure _) fun _ => last

theorem inert_deleteItems (p : ListItem → Bool) : (deleteItems p).Emits Inert :=
  emits_change fun _ _ => ⟨⟨rfl, by simp, by simp⟩, rfl⟩

theorem inert_deleteFulfillments (p : Fulfillment → Bool) :
    (deleteFulfillments p).Emits Inert :=
  emits_change fun _ _ => ⟨⟨rfl, by simp, by simp⟩, rfl⟩

theorem inert_deleteItem (userId listId itemId : Uuid) :
    (deleteItem userId listId itemId).Emits Inert :=
  Prog.emits_bind (Prog.emits_select _) fun _ => Prog.emits_bind (Prog.emits_check _) fun _ =>
    Prog.emits_bind (emits_lockEditable _ _ _) fun _ => Prog.emits_bind (inert_deleteItems _)
    fun _ => Prog.emits_bind (Prog.emits_check _) fun _ =>
    Prog.emits_bind (inert_deleteClaimItems _) fun _ =>
    Prog.emits_bind (inert_deleteFulfillments _) fun _ => Prog.emits_pure _

theorem inert_updateSuggestions {p : Shop → Suggestion → Bool} {set : Suggestion → Suggestion} :
    (change (·.suggestions) (fun g => Row.suggestion g.id) p (fun _ _ => true)
      fun _ g => .put (.suggestion (set g))).Emits Inert :=
  emits_change fun _ _ => ⟨⟨rfl, by simp, by simp⟩, rfl⟩

theorem inert_doReject (userId suggestionId : Uuid) :
    (doReject userId suggestionId).Emits Inert := by
  refine Prog.emits_bind ?_ fun x => Prog.emits_bind (Prog.emits_check _) fun _ =>
    Prog.emits_bind (Prog.emits_check _) fun _ => Prog.emits_bind (Prog.emits_select _) fun _ =>
    Prog.emits_bind inert_updateSuggestions fun _ => Prog.emits_pure _
  refine Prog.emits_statement fun st s ws a hact => ?_
  simp only [Option.bind_eq_bind, Option.bind_eq_some_iff, Option.ite_none_right_eq_some,
    Option.some.injEq, Prod.mk.injEq] at hact
  obtain ⟨_, -, _, -, -, rfl, -⟩ := hact
  simp

theorem inert_updateContract {cid : Uuid} {fits : Shop → Contract → Bool}
    {set : Shop → Contract → Contract} : (updateContract cid fits set).Emits Inert :=
  emits_change fun _ _ => ⟨⟨rfl, by simp, by simp⟩, rfl⟩

theorem inert_upsertContract (u : Settlement.ContractUpsert) (newId : Uuid) :
    (upsertContract u newId).Emits Inert := by
  refine Prog.emits_bind (emits_lockOne _ _) fun prior => ?_
  cases prior with
  | some c => exact Prog.emits_bind inert_updateContract fun _ => Prog.emits_pure _
  | none =>
    refine emits_insert fun w hw => ?_
    obtain rfl := List.mem_singleton.mp hw
    exact ⟨⟨rfl, by simp, by simp⟩, rfl⟩

private theorem inert_stampReimbursements (payout : Cents) (rows : List Reimbursement) :
    (stampReimbursements payout rows).Emits Inert := by
  unfold stampReimbursements
  exact emits_change fun _ _ => ⟨⟨rfl, by simp, by simp⟩, rfl⟩

theorem inert_verifyContract (limit1 : List Payer → Option Payer) (cid : Uuid) :
    (verifyContractAgainstJournal limit1 cid).Emits Inert := by
  refine Prog.emits_bind (emits_lockOne _ _) fun locked => ?_
  cases locked with
  | none => exact Prog.emits_pure _
  | some c =>
    refine Prog.emits_bind (emits_read _) fun _ => Prog.emits_bind (emits_read _) fun _ => ?_
    split
    · exact Prog.emits_bind (emits_change fun _ _ => ⟨⟨rfl, by simp, by simp⟩, rfl⟩) fun _ =>
        Prog.emits_bind (emits_read _) fun _ =>
        Prog.emits_bind (inert_stampReimbursements _ _) fun _ => Prog.emits_pure _
    · exact Prog.emits_pure _

end Others

end JitaCart.Concurrent.Trade
