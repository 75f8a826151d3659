/- module: JitaCart/Concurrent/SettledRows
   source: backend/crates/settlement/src/lib.rs, backend/crates/api/src/contracts.rs,
     backend/crates/api/src/fulfillment/reimbursements.rs, backend/crates/api/src/fulfillment/tips.rs,
     backend/crates/api/src/lists/crud.rs (delete_list), backend/crates/api/src/groups.rs (delete_group)
   digest: A settled reimbursement stays as it is until its list is deleted. -/

import JitaCart.Concurrent.Settled

set_option autoImplicit false
set_option relaxedAutoImplicit false

namespace JitaCart.Concurrent.Trade

open Schema Base.Table Base.Request Base.ReadCommitted

section Deletions
variable {q : TradeRequest}

/-- The lists go with this transaction, which holds them, and take their reimbursements along. -/
def Gone (q : TradeRequest) (gone : List ListRow) : Assertion Shop Write Row := fun c log locks =>
  Goes q c log locks ∧ ∀ l ∈ gone, .list l.id ∈ locks ∧ c.list? l.id = some l ∧
    q.removes l = true ∧ (engine.view c log).list? l.id = none

def Untold : Assertion Shop Write Row := fun _ log _ => ∀ w ∈ log, Bare w

theorem view_lists {s : Shop} {ws : List Write} (h : ∀ w ∈ ws, w.listed = none) :
    (engine.view s ws).lists = s.lists := by
  induction ws generalizing s with
  | nil => rfl
  | cons w ws ih =>
    have first := lists_redo_none (s := s) (h w List.mem_cons_self)
    exact (ih fun x hx => h x (List.mem_cons_of_mem w hx)).trans first

private theorem stable_untold : Stable (settling False).terms ((debts False).With q Untold) :=
  Promise.stable_with ⟨fun _ _ h _ => h, fun _ h => h⟩

private theorem stable_gone (gone : List ListRow) :
    Stable (settling False).terms ((debts False).With q (Gone q gone)) where
  rely {c c' log locks} good good' h change := by
    have right := Promise.stable_right.rely good good' h.1 change
    have view : Untouched locks _ _ := h.1.view_same good'.1 change.1
    have row : Untouched locks c c' := change.1
    refine ⟨right, fun r hr => ?_, fun l hl => ?_⟩
    · obtain ⟨held, l, hl, removes, gone⟩ := h.2.1 r hr
      exact ⟨held, l, (row.lists _ held).trans hl, removes, (view.lists _ held).trans gone⟩
    · obtain ⟨held, hl, removes, gone⟩ := h.2.2 l hl
      exact ⟨held, (row.lists _ held).trans hl, removes, (view.lists _ held).trans gone⟩
  same same h := by
    have right : Stable (settling False).terms ((debts False).Right q) := Promise.stable_right
    refine ⟨right.same same h.1, fun r hr => ?_, fun l hl => ?_⟩
    · exact ⟨(same _).mpr (h.2.1 r hr).1, (h.2.1 r hr).2⟩
    · exact ⟨(same _).mpr (h.2.2 l hl).1, (h.2.2 l hl).2⟩

/-- The assertion survives writes that leave the lists alone and drop rows of these lists only. -/
private theorem gone_append {gone : List ListRow} {c : Shop} {log : List Write}
    {locks held : List Row}
    {ws : List Write} (h : Gone q gone c log locks) (more : ∀ r ∈ locks, r ∈ held)
    (unlisted : ∀ w ∈ ws, w.listed = none)
    (drops : ∀ r, .dropReimbursement r ∈ ws → ∃ l ∈ gone, l.id = r.listId) :
    Gone q gone c (log ++ ws) held := by
  have same (listId : Uuid) : (engine.view c (log ++ ws)).list? listId =
      (engine.view c log).list? listId := by
    rw [view_append]
    exact congrArg (lookup ListRow.id listId) (view_lists unlisted)
  refine ⟨fun r hr => ?_, fun l hl => ?_⟩
  · rcases List.mem_append.mp hr with old | new
    · obtain ⟨locked, l, hl, removes, missing⟩ := h.1 r old
      exact ⟨more _ locked, l, hl, removes, (same _).trans missing⟩
    · obtain ⟨l, hl, id⟩ := drops r new
      obtain ⟨locked, current, removes, missing⟩ := h.2 l hl
      exact ⟨id ▸ more _ locked, l, id ▸ current, removes, id ▸ (same _).trans missing⟩
  · obtain ⟨locked, current, removes, missing⟩ := h.2 l hl
    exact ⟨more _ locked, current, removes, (same _).trans missing⟩

private theorem keeps_gone {α : Type} {gone : List ListRow} {p : Program α}
    (emits : p.Emits Inert) : (settling False).Keeps q (Gone q gone) p fun _ => Gone q gone := by
  refine Promise.keeps_emits (stable_gone gone)
    (fun _ s held h => ⟨h.bare.lands s, h.bare.owned held⟩) (fun c log locks held ws h more inert => ?_) emits
  refine gone_append h.2 more (fun w hw => (inert w hw).2) fun r hr => ?_
  cases (inert _ hr).1.due

private theorem list?_drops {found : List ListRow} {listId : Uuid} {s : Shop}
    (h : s.list? listId = none ∨ ∃ l ∈ found, l.id = listId) :
    (engine.view s (found.map fun l => .drop (.list l))).list? listId = none := by
  induction found generalizing s with
  | nil => simpa [Engine.view] using h
  | cons l found ih =>
    refine ih (s := redo (.drop (.list l)) s) ?_
    rw [list?_redo]
    by_cases same : l.id = listId
    · exact .inl (by simp [Write.listed, Option.filter, same])
    · refine h.imp (fun missing => by simpa [Write.listed, Option.filter, same] using missing) ?_
      rintro ⟨x, hx, rfl⟩
      rcases List.mem_cons.mp hx with rfl | hx
      · exact absurd rfl same
      · exact ⟨x, hx, rfl⟩

private theorem replays_drops (found : List ListRow) (s : Shop) :
    (debts False).Replays (found.map fun l => .drop (.list l)) s := by
  induction found generalizing s with
  | nil => trivial
  | cons l found ih => exact ⟨fun h => h, ih _⟩

private theorem keeps_deleteLists {p : ListRow → Bool} (sells : q.buys = false)
    (removes : ∀ l, p l = true → q.removes l = true) :
    (settling False).Keeps q Untold (deleteLists p) fun gone => Gone q gone := by
  refine Promise.keeps_write stable_untold ?_
  intro c₁ c₂ log locks held ws gone _ h₂ m hact
  obtain ⟨rfl, rfl⟩ := change_eq_some hact
  have same : (engine.view c₂ log).lists = c₂.lists := view_lists fun w hw => (h₂.2 w hw).2
  have good : Sorted False c₂ := h₂.1.good
  refine ⟨?_, fun w hw => ?_, fun r hr => ?_, fun l hl => ?_⟩
  · exact replays_drops _ _
  · obtain ⟨l, hl, rfl⟩ := List.mem_map.mp hw
    have planned := (List.mem_filter.mp hl).2
    simp only [Bool.and_eq_true, decide_eq_true_eq] at planned
    refine ⟨by simp [Write.due], fun x hx => ?_, by simp, by simp, by simp⟩
    obtain rfl := Option.some.inj hx
    exact ⟨(m.held _).mpr (.inr planned.2), sells⟩
  · rcases List.mem_append.mp hr with old | new
    · cases (h₂.2 _ old).1
    · obtain ⟨l, -, hw⟩ := List.mem_map.mp new
      cases hw
  · have hrow := List.mem_filter.mp hl
    have planned := hrow.2
    simp only [Bool.and_eq_true, decide_eq_true_eq] at planned
    refine ⟨(m.held _).mpr (.inr planned.2), ?_, removes l planned.1, ?_⟩
    · exact (lookup_eq_some good.lists).mpr ⟨same ▸ hrow.1, rfl⟩
    · rw [view_append]
      exact list?_drops (.inr ⟨l, hl, rfl⟩)

private theorem replays_removals {found : List Reimbursement} {s : Shop}
    (keyed : Keyed Reimbursement.id found)
    (current : ∀ r ∈ found, s.reimbursement? r.id = some r) :
    (debts False).Replays (found.map fun r => .dropReimbursement r) s := by
  induction found generalizing s with
  | nil => trivial
  | cons r found ih =>
    obtain ⟨fresh, keyed⟩ := List.nodup_cons.mp keyed
    refine ⟨⟨current r List.mem_cons_self, fun h => h⟩, ih keyed fun x hx => ?_⟩
    have other : r.id ≠ x.id := fun eq => fresh (eq ▸ List.mem_map_of_mem hx)
    show (redo (.dropReimbursement r) s).reimbursement? x.id = some x
    rw [reimbursement?_redo]
    simpa [Write.due, Option.filter, other] using current x (List.mem_cons_of_mem r hx)

private theorem keeps_cascadeLists (gone : List ListRow) (deletes : q.deletes = true) :
    (settling False).Keeps q (Gone q gone) (cascadeLists (gone.map (·.id)))
      fun _ => Gone q gone := by
  refine (keeps_gone (inert_deleteItems _)).bind fun items =>
    (keeps_gone (emits_change fun _ _ => ⟨⟨rfl, by simp, by simp⟩, rfl⟩)).bind fun claims =>
    (keeps_gone (inert_deleteClaimItems _)).bind fun _ =>
    (keeps_gone (inert_deleteFulfillments _)).bind fun _ => Triple.bind
    (B := fun _ => (debts False).With q (Gone q gone)) (Promise.keeps_write (stable_gone gone) ?_)
    fun dues => (keeps_gone (emits_change fun _ _ => ⟨⟨rfl, by simp, by simp⟩, rfl⟩)).bind fun _ =>
    triple_pure fun _ _ _ _ h => h
  intro c₁ c₂ log locks held ws dues _ h₂ m hact
  obtain ⟨rfl, rfl⟩ := change_eq_some hact
  have good : Sorted False (engine.view c₂ log) := h₂.1.view
  refine ⟨replays_removals (good.dues.filter _) fun r hr => ?_, fun w hw => ?_,
    gone_append h₂.2 (fun r hr => (m.held r).mpr (.inl hr)) (fun w hw => ?_) fun r hr => ?_⟩
  · exact (lookup_eq_some good.dues).mpr ⟨(List.mem_filter.mp hr).1, rfl⟩
  · obtain ⟨r, hr, rfl⟩ := List.mem_map.mp hw
    have planned := (List.mem_filter.mp hr).2
    simp only [Bool.and_eq_true, decide_eq_true_eq] at planned
    refine ⟨fun x hx => ?_, by simp [Write.listed], by simp, by simp, fun _ _ => deletes⟩
    obtain rfl := Option.some.inj hx
    exact (m.held _).mpr (.inr planned.2)
  · obtain ⟨r, -, rfl⟩ := List.mem_map.mp hw
    rfl
  · obtain ⟨x, hx, hw⟩ := List.mem_map.mp hr
    obtain rfl := Write.dropReimbursement.inj hw
    have onList := (List.mem_filter.mp hx).2
    simp only [Bool.and_eq_true, decide_eq_true_eq] at onList
    obtain ⟨l, hl, id⟩ := List.mem_map.mp onList.1
    exact ⟨l, hl, id⟩

private theorem keeps_untold {α : Type} {p : Program α} (emits : p.Emits Bare) :
    (settling False).Keeps q Untold p fun _ => Untold := by
  refine Promise.keeps_emits stable_untold (fun _ s held h => ⟨h.lands s, h.owned held⟩)
    (fun c log locks held ws h _ inert w hw => ?_) emits
  exact (List.mem_append.mp hw).elim (h.2 w) (inert w)

private theorem keeps_deleteList (userId listId : Uuid) :
    (settling False).Keeps (.deleteList userId listId) Untold (deleteList userId listId)
      fun _ => Goes (.deleteList userId listId) := by
  refine (keeps_untold (Prog.emits_select _)).bind fun cur => triple_checked fun _ _ =>
    (keeps_deleteLists rfl fun l hl => ?_).bind fun gone => triple_checked fun _ _ =>
    (keeps_cascadeLists gone rfl).imp (fun _ _ _ _ h => h) fun _ _ _ _ _ h => ⟨h.1, h.2.1⟩
  simp only [Bool.and_eq_true] at hl
  exact hl.1

private theorem bare_dropGroup (groupId : Uuid) : (dropGroup groupId).Emits Bare := by
  refine Prog.emits_statement fun st s ws u hact w hw => ?_
  split at hact
  · cases hact
  · obtain ⟨rfl, -⟩ := Prod.mk.inj (Option.some.inj hact)
    obtain rfl := List.mem_singleton.mp hw
    exact ⟨rfl, rfl⟩

private theorem keeps_deleteGroup (userId groupId : Uuid) :
    (settling False).Keeps (.deleteGroup userId groupId) Untold (deleteGroup userId groupId)
      fun _ => Goes (.deleteGroup userId groupId) :=
  (keeps_untold (Prog.emits_select _)).bind fun _ => triple_checked fun _ _ =>
    (keeps_untold (bare_dropGroup _)).bind fun _ =>
    (keeps_deleteLists rfl fun _ hl => hl).bind fun gone =>
    (keeps_cascadeLists gone rfl).imp (fun _ _ _ _ h => h) fun _ _ _ _ _ h => ⟨h.1, h.2.1⟩

end Deletions

/-- The whole system keeps the promise; lists last where no request deletes them. -/
theorem sound_settling (lasting : Prop) :
    Sound engine (settling lasting).terms fun q => lasting → q.deletes = false := by
  refine Promise.sound _ (fun q known => ?_) fun _ _ _ _ _ _ _ => ⟨trivial, fun _ _ => trivial⟩
  cases deletes : q.deletes with
  | false =>
    refine (keeps_owes q deletes).imp (fun c log locks good h => ?_) fun _ c log locks _ h => ?_
    · obtain ⟨rfl, rfl⟩ := h
      exact ⟨.nil good.1, fun _ => List.Perm.refl _⟩
    · refine ⟨h.1, h.2, fun r hr => ?_⟩
      have own : Owned q locks (.dropReimbursement r) := h.1.own _ hr
      cases deletes.symm.trans (own.drops r rfl)
  | true =>
    obtain rfl : lasting = False := eq_false fun last => by simp [known last] at deletes
    have fresh {p : Program Unit} (h : (settling False).Keeps q Untold p fun _ => Goes q) :
        Triple engine (settling False).terms q (fun _ log locks => log = [] ∧ locks = []) p
          fun _ => (debts False).With q ((settling False).done q) :=
      h.imp (fun c log locks good h => ⟨h.1 ▸ .nil good.1, by simp [Untold, h.1]⟩)
        fun _ _ _ _ _ h => ⟨h.1, False.elim, h.2⟩
    cases q with
    | deleteList userId listId => exact fresh (keeps_deleteList _ _)
    | deleteGroup userId groupId => exact fresh (keeps_deleteGroup _ _)
    | _ => cases deletes

theorem ok_settling {lasting : Prop} {s : Shop} (good : Sorted lasting s)
    {as : List (Action Row TradeRequest)}
    (known : ∀ id q, .begin id q ∈ as → lasting → q.deletes = false) :
    Ok engine (settling lasting).terms (fun q => lasting → q.deletes = false)
      (run (step engine) ⟨s, []⟩ as) :=
  Promise.kept_run (sound_settling lasting) good trivial
    (Promise.allowed_always (fun _ _ _ _ => trivial) (fun _ _ => trivial) (fun _ _ => trivial) known)

/-- A settled row is in what the log makes of the state, or the log drops it. -/
private theorem settled_view {lasting : Prop} {s : Shop} {log : List Write} {r : Reimbursement}
    (good : Sorted lasting s) (replays : (debts lasting).Replays log s)
    (hr : r ∈ s.reimbursements) (settled : r.status = .settled) :
    r ∈ (engine.view s log).reimbursements ∨ .dropReimbursement r ∈ log := by
  induction log generalizing s with
  | nil => exact .inl hr
  | cons w log ih =>
    obtain ⟨lands, rest⟩ := replays
    have current : s.reimbursement? r.id = some r := (lookup_eq_some good.dues).mpr ⟨hr, rfl⟩
    by_cases mine : ∃ row, w.due = some (r.id, row)
    · obtain ⟨row, due⟩ := mine
      cases w with
      | putReimbursement before after =>
        obtain ⟨id, -⟩ := Prod.mk.inj (Option.some.inj due)
        cases before with
        | none =>
          have free : s.reimbursement? after.id = none := lands.1
          rw [id, current] at free
          cases free
        | some b =>
          obtain ⟨now, pending, same⟩ := lands
          rw [← frozen_id same, id, current] at now
          obtain rfl := Option.some.inj now
          cases settled.symm.trans pending
      | dropReimbursement b =>
        obtain ⟨id, -⟩ := Prod.mk.inj (Option.some.inj due)
        have now : s.reimbursement? b.id = some b := lands.1
        rw [id, current] at now
        exact .inr (Option.some.inj now ▸ List.mem_cons_self)
      | _ => cases due
    · have stays : r ∈ (redo w s).reimbursements := mem_redo_of_ne hr fun x hx same =>
        mine ⟨x.2, by rw [same]; exact hx⟩
      exact (ih (sorted_redo good lands) rest stays).imp id (List.mem_cons_of_mem w)

/-- The action commits a transaction that deletes the list of the reimbursement, or its group. -/
def RemovesListOf (r : Reimbursement) (w : Store Shop Write Row TradeRequest)
    (a : Action Row TradeRequest) (w' : Store Shop Write Row TradeRequest) : Prop :=
  ∃ t ∈ w.active, a = .commit t.id ∧ ∃ l ∈ w.committed.lists, l.id = r.listId ∧
    t.request.removes l = true ∧ w'.committed.list? r.listId = none

/-- From any state that interleaved requests reach, a settled reimbursement stays as it is, unless
a transaction commits that deletes its list or the group of its list. -/
theorem settled_reimbursement_immutable {s : Shop} (dues : Keyed Reimbursement.id s.reimbursements)
    (lists : Keyed ListRow.id s.lists) {as : List (Action Row TradeRequest)}
    {r : Reimbursement}
    (hr : r ∈ (run (step engine) ⟨s, []⟩ as).committed.reimbursements)
    (settled : r.status = .settled) {a : Action Row TradeRequest}
    {w' : Store Shop Write Row TradeRequest}
    (h : step engine a (run (step engine) ⟨s, []⟩ as) = .ok w') :
    r ∈ w'.committed.reimbursements ∨ RemovesListOf r (run (step engine) ⟨s, []⟩ as) a w' := by
  have ok : Ok engine (settling False).terms _ (run (step engine) ⟨s, []⟩ as) :=
    ok_settling ⟨dues, lists, False.elim⟩ fun _ _ _ => False.elim
  have good : Sorted False (run (step engine) ⟨s, []⟩ as).committed := ok.good.1
  rcases committed_step ok h with ⟨-, same⟩ | ⟨t, ht, rfl, done, committed⟩
  · exact .inl (same ▸ hr)
  · rcases settled_view good done.1.replays hr settled with stays | dropped
    · exact .inl (committed ▸ stays)
    · obtain ⟨-, l, hl, removes, missing⟩ := done.2.2 r dropped
      exact .inr ⟨t, ht, rfl, l, (lookup_mem hl).1, (lookup_mem hl).2, removes, committed ▸ missing⟩

/-- A group of an owner and a hauler, with a list of one item. -/
def fairGroup : Directory where
  principals := [⟨1, .user 1⟩, ⟨3, .user 3⟩, ⟨7, .corp 7⟩]
  groups := [⟨1, 0⟩]
  groupMemberships := [⟨1, 1, .owner⟩, ⟨3, 1, .member⟩]
  groupCorps := [⟨1, 7, none⟩]

def fairList : ListRow := ⟨1, 1, 1, .open, 0, none⟩

def fairDue (id : Uuid) (status : ReimbursementStatus) (contractId : Option Uuid) :
    Reimbursement :=
  ⟨id, 1, some id, id, 3, 3, 500, 0, 500, status, none, none, contractId, false⟩

/-- One debt of the list is paid, another is not. -/
def halfPaid : Shop where
  directory := fairGroup
  lists := [fairList]
  reimbursements := [fairDue 1 .settled none, fairDue 2 .pending none]

def retipping : List (Action Row TradeRequest) :=
  List.flatten [[.begin 1 (.setListTip 1 1 (1 / 10))], Action.turn 1 [], Action.turn 1 [.list 1],
    Action.turn 1 [.list 1], Action.turn 1 [.reimbursement 2]]

theorem settled_reimbursement_immutable_retip :
    ∃ w', step engine (.commit 1) (run (step engine) ⟨halfPaid, []⟩ retipping) = .ok w' ∧
      w'.committed.reimbursements.map (·.tipIsk) = [0, 50] ∧
      (fairDue 1 .settled none ∈ w'.committed.reimbursements ∨
        RemovesListOf (fairDue 1 .settled none) (run (step engine) ⟨halfPaid, []⟩ retipping)
          (.commit 1) w') := by
  have commits : ((step engine (.commit 1) (run (step engine) ⟨halfPaid, []⟩ retipping)).toOption.map
      fun w' => w'.committed.reimbursements.map (·.tipIsk)) = some [0, 50] := by decide +kernel
  cases h : step engine (.commit 1) (run (step engine) ⟨halfPaid, []⟩ retipping) with
  | error _ => simp [h, Except.toOption] at commits
  | ok w' =>
    rw [h] at commits
    refine ⟨w', rfl, Option.some.inj commits, ?_⟩
    have paid : fairDue 1 .settled none ∈
        (run (step engine) ⟨halfPaid, []⟩ retipping).committed.reimbursements := by decide +kernel
    exact settled_reimbursement_immutable (by decide) (by decide) paid rfl h

end JitaCart.Concurrent.Trade
