/- module: JitaCart/Concurrent/Debts
   source: backend/crates/api/src/fulfillment/reimbursements.rs, backend/crates/settlement/src/lib.rs,
     backend/crates/api/src/contracts.rs
   digest: What every statement may do to the rows of reimbursements and lists. -/

import JitaCart.Base.Replay
import JitaCart.Concurrent.Settling

/-!
A row changes under its lock only, a settled one never, and a list gets a new
reimbursement under the lock of the list only.
-/

set_option autoImplicit false
set_option relaxedAutoImplicit false

namespace JitaCart.Concurrent.Trade

open Schema Base.Table Base.Request Base.ReadCommitted
open Api.Reimbursements (cycle takeAmounts)

/-- The reimbursement that a write replaces, with its new version if it stays. -/
def Write.due : Write → Option (Uuid × Option Reimbursement)
  | .putReimbursement _ r => some (r.id, some r)
  | .dropReimbursement r => some (r.id, none)
  | _ => none

/-- The list that a write replaces, with its new version if it stays. -/
def Write.listed : Write → Option (Uuid × Option ListRow)
  | .put (.list l) => some (l.id, some l)
  | .drop (.list l) => some (l.id, none)
  | _ => none

/-- The columns that no statement changes. -/
def frozen (r : Reimbursement) : Uuid × Uuid × Option Uuid × Uuid × Uuid × Uuid × Bool :=
  (r.id, r.listId, r.requesterUserId, r.requesterPrincipalId, r.haulerUserId, r.haulerPrincipalId,
    r.isCorpFunded)

/-- The ids are keys; where lists last, every reimbursement has its list. -/
structure Sorted (lasting : Prop) (s : Shop) : Prop where
  dues : Keyed Reimbursement.id s.reimbursements
  lists : Keyed ListRow.id s.lists
  refs : lasting → ∀ r ∈ s.reimbursements, (s.list? r.listId).isSome

/-- What others leave alone: the locked rows, and a locked list gets no new reimbursement. -/
structure Untouched (locks : List Row) (s s' : Shop) : Prop where
  dues : ∀ rid, .reimbursement rid ∈ locks → s'.reimbursement? rid = s.reimbursement? rid
  lists : ∀ listId, .list listId ∈ locks → s'.list? listId = s.list? listId
  old : ∀ r' ∈ s'.reimbursements, .list r'.listId ∈ locks →
    ∃ r ∈ s.reimbursements, frozen r = frozen r'

structure Owned (q : TradeRequest) (locks : List Row) (w : Write) : Prop where
  due : ∀ x ∈ w.due, .reimbursement x.1 ∈ locks
  listed : ∀ x ∈ w.listed, .list x.1 ∈ locks ∧ q.buys = false
  new : ∀ r, w = .putReimbursement none r → .list r.listId ∈ locks ∧ q.buys = true
  settles : ∀ before r, w = .putReimbursement before r → r.status = .settled → q.buys = false
  drops : ∀ r, w = .dropReimbursement r → q.deletes = true

/-- A new version replaces the current one, which is pending. -/
def Lands (lasting : Prop) (w : Write) (s : Shop) : Prop :=
  match w with
  | .putReimbursement (some r) r' =>
    s.reimbursement? r.id = some r ∧ r.status = .pending ∧ frozen r' = frozen r
  | .putReimbursement none r' =>
    s.reimbursement? r'.id = none ∧ r'.status = .pending ∧ (lasting → (s.list? r'.listId).isSome)
  | .dropReimbursement r => s.reimbursement? r.id = some r ∧ ¬ lasting
  | .drop (.list _) => ¬ lasting
  | _ => True

theorem frozen_id {r r' : Reimbursement} (h : frozen r' = frozen r) : r'.id = r.id :=
  congrArg (·.1) h

private theorem frozen_listId {r r' : Reimbursement} (h : frozen r' = frozen r) :
    r'.listId = r.listId :=
  congrArg (·.2.1) h

section Redo
variable {lasting : Prop} {w : Write} {s s' : Shop}

private theorem due_key {k : Uuid} {row : Option Reimbursement} (h : w.due = some (k, row)) :
    ∀ r ∈ row, r.id = k := by
  cases w with
  | putReimbursement before r =>
    obtain ⟨rfl, rfl⟩ := Prod.mk.inj (Option.some.inj h)
    simp
  | dropReimbursement r =>
    obtain ⟨rfl, rfl⟩ := Prod.mk.inj (Option.some.inj h)
    simp
  | _ => cases h

private theorem listed_key {k : Uuid} {row : Option ListRow} (h : w.listed = some (k, row)) :
    ∀ l ∈ row, l.id = k := by
  cases w with
  | put x =>
    cases x with
    | list l =>
      obtain ⟨rfl, rfl⟩ := Prod.mk.inj (Option.some.inj h)
      simp
    | _ => cases h
  | drop x =>
    cases x with
    | list l =>
      obtain ⟨rfl, rfl⟩ := Prod.mk.inj (Option.some.inj h)
      simp
    | _ => cases h
  | _ => cases h

theorem reimbursements_redo_none (h : w.due = none) :
    (redo w s).reimbursements = s.reimbursements := by
  cases w with
  | put x => cases x <;> rfl
  | drop x => cases x <;> rfl
  | putReimbursement before r => cases h
  | dropReimbursement r => cases h
  | _ => rfl

private theorem reimbursements_redo {k : Uuid} {row : Option Reimbursement}
    (h : w.due = some (k, row)) :
    (redo w s).reimbursements = replace Reimbursement.id k row s.reimbursements := by
  cases w with
  | putReimbursement before r =>
    obtain ⟨rfl, rfl⟩ := Prod.mk.inj (Option.some.inj h)
    rfl
  | dropReimbursement r =>
    obtain ⟨rfl, rfl⟩ := Prod.mk.inj (Option.some.inj h)
    rfl
  | _ => cases h

theorem lists_redo_none (h : w.listed = none) : (redo w s).lists = s.lists := by
  cases w with
  | put x =>
    cases x with
    | list l => cases h
    | _ => rfl
  | drop x =>
    cases x with
    | list l => cases h
    | _ => rfl
  | _ => rfl

private theorem lists_redo {k : Uuid} {row : Option ListRow} (h : w.listed = some (k, row)) :
    (redo w s).lists = replace ListRow.id k row s.lists := by
  cases w with
  | put x =>
    cases x with
    | list l =>
      obtain ⟨rfl, rfl⟩ := Prod.mk.inj (Option.some.inj h)
      rfl
    | _ => cases h
  | drop x =>
    cases x with
    | list l =>
      obtain ⟨rfl, rfl⟩ := Prod.mk.inj (Option.some.inj h)
      rfl
    | _ => cases h
  | _ => cases h

theorem reimbursement?_redo (rid : Uuid) : (redo w s).reimbursement? rid =
    ((w.due.filter fun x => decide (x.1 = rid)).map (·.2)).getD (s.reimbursement? rid) := by
  cases h : w.due with
  | none => exact congrArg (lookup Reimbursement.id rid) (reimbursements_redo_none h)
  | some x =>
    obtain ⟨k, row⟩ := x
    refine (congrArg (lookup Reimbursement.id rid) (reimbursements_redo h)).trans ?_
    rw [lookup_replace (due_key h)]
    by_cases same : rid = k
    · simp [same, Option.filter]
    · simp only [same, Ne.symm same, Option.filter, decide_false, if_false, Bool.false_eq_true,
        Option.map_none, Option.getD_none]
      rfl

theorem list?_redo (listId : Uuid) : (redo w s).list? listId =
    ((w.listed.filter fun x => decide (x.1 = listId)).map (·.2)).getD (s.list? listId) := by
  cases h : w.listed with
  | none => exact congrArg (lookup ListRow.id listId) (lists_redo_none h)
  | some x =>
    obtain ⟨k, row⟩ := x
    refine (congrArg (lookup ListRow.id listId) (lists_redo h)).trans ?_
    rw [lookup_replace (listed_key h)]
    by_cases same : listId = k
    · simp [same, Option.filter]
    · simp only [same, Ne.symm same, Option.filter, decide_false, if_false, Bool.false_eq_true,
        Option.map_none, Option.getD_none]
      rfl

/-- A reimbursement after a write is an old one, or the one that was put. -/
theorem mem_redo {r : Reimbursement} (h : r ∈ (redo w s).reimbursements) :
    (r ∈ s.reimbursements ∧ ∀ x ∈ w.due, r.id ≠ x.1) ∨ ∃ before, w = .putReimbursement before r := by
  cases hdue : w.due with
  | none =>
    rw [reimbursements_redo_none hdue] at h
    exact .inl ⟨h, by simp⟩
  | some x =>
    obtain ⟨k, row⟩ := x
    rw [reimbursements_redo hdue] at h
    rcases mem_replace.mp h with ⟨old, other⟩ | rfl
    · exact .inl ⟨old, by simpa using other⟩
    · refine .inr ?_
      cases w with
      | putReimbursement before r' =>
        obtain ⟨rfl, same⟩ := Prod.mk.inj (Option.some.inj hdue)
        exact ⟨before, by rw [Option.some.inj same]⟩
      | dropReimbursement r' => cases (Prod.mk.inj (Option.some.inj hdue)).2
      | _ => cases hdue

theorem mem_redo_of_ne {r : Reimbursement} (h : r ∈ s.reimbursements)
    (other : ∀ x ∈ w.due, r.id ≠ x.1) : r ∈ (redo w s).reimbursements := by
  cases hdue : w.due with
  | none => exact (reimbursements_redo_none hdue).symm ▸ h
  | some x =>
    rw [reimbursements_redo hdue]
    exact mem_replace.mpr (.inl ⟨h, other x hdue⟩)

private theorem mem_redo_put (before : Option Reimbursement) (r : Reimbursement) :
    r ∈ (redo (.putReimbursement before r) s).reimbursements :=
  mem_replace.mpr (.inr rfl)

theorem sorted_redo (good : Sorted lasting s) (h : Lands lasting w s) :
    Sorted lasting (redo w s) where
  dues := by
    cases hdue : w.due with
    | none => exact (reimbursements_redo_none hdue).symm ▸ good.dues
    | some x => exact (reimbursements_redo hdue).symm ▸ keyed_replace good.dues (due_key hdue)
  lists := by
    cases hlist : w.listed with
    | none => exact (lists_redo_none hlist).symm ▸ good.lists
    | some x => exact (lists_redo hlist).symm ▸ keyed_replace good.lists (listed_key hlist)
  refs := by
    intro last r hr
    have stays (listId : Uuid) (h' : (s.list? listId).isSome) : ((redo w s).list? listId).isSome := by
      rw [list?_redo]
      cases w with
      | put x =>
        cases x with
        | list l => by_cases same : l.id = listId <;> simp [Write.listed, Option.filter_some, same, h']
        | _ => exact h'
      | drop x =>
        cases x with
        | list l => exact absurd last h
        | _ => exact h'
      | _ => exact h'
    refine stays _ ?_
    rcases mem_redo hr with ⟨old, -⟩ | ⟨before, rfl⟩
    · exact good.refs last r old
    · cases before with
      | none => exact h.2.2 last
      | some b => exact frozen_listId h.2.2 ▸ good.refs last b (lookup_mem h.1).1

end Redo

private theorem Untouched.refl (locks : List Row) (s : Shop) : Untouched locks s s :=
  ⟨fun _ _ => rfl, fun _ _ => rfl, fun r hr _ => ⟨r, hr, rfl⟩⟩

private theorem Untouched.trans {locks : List Row} {s s' s'' : Shop} (h : Untouched locks s s')
    (h' : Untouched locks s' s'') : Untouched locks s s'' where
  dues rid held := (h'.dues rid held).trans (h.dues rid held)
  lists listId held := (h'.lists listId held).trans (h.lists listId held)
  old r'' hr'' held := by
    obtain ⟨r', hr', same'⟩ := h'.old r'' hr'' held
    obtain ⟨r, hr, same⟩ := h.old r' hr' (frozen_listId same' ▸ held)
    exact ⟨r, hr, same.trans same'⟩

private theorem lands_untouched {lasting : Prop} {q : TradeRequest} {locks : List Row} {w : Write}
    {s s' : Shop} (own : Owned q locks w) (h : Lands lasting w s) (same : Untouched locks s s') :
    Lands lasting w s' := by
  cases w with
  | putReimbursement before r =>
    have held := own.due _ rfl
    cases before with
    | some b => exact ⟨(same.dues _ (frozen_id h.2.2 ▸ held)).trans h.1, h.2⟩
    | none =>
      refine ⟨(same.dues _ held).trans h.1, h.2.1, fun last => ?_⟩
      rw [same.lists _ (own.new r rfl).1]
      exact h.2.2 last
  | dropReimbursement r => exact ⟨(same.dues _ (own.due _ rfl)).trans h.1, h.2⟩
  | drop x => cases x <;> exact h
  | put x => trivial
  | _ => trivial

private theorem untouched_redo {lasting : Prop} {q : TradeRequest} {locks others : List Row}
    {w : Write}
    {s : Shop} (own : Owned q locks w) (h : Lands lasting w s) (apart : ∀ r ∈ others, r ∉ locks) :
    Untouched others s (redo w s) where
  dues rid held := by
    rw [reimbursement?_redo]
    cases hdue : w.due with
    | none => rfl
    | some x =>
      have other : x.1 ≠ rid := fun same => apart _ held (same ▸ own.due x hdue)
      simp [Option.filter_some, other]
  lists listId held := by
    rw [list?_redo]
    cases hlist : w.listed with
    | none => rfl
    | some x =>
      have other : x.1 ≠ listId := fun same => apart _ held (same ▸ (own.listed x hlist).1)
      simp [Option.filter_some, other]
  old r hr held := by
    rcases mem_redo hr with ⟨old, -⟩ | ⟨before, rfl⟩
    · exact ⟨r, old, rfl⟩
    · cases before with
      | none => exact absurd (own.new r rfl).1 (apart _ held)
      | some b => exact ⟨b, (lookup_mem h.1).1, h.2.2.symm⟩

private theorem untouched_both {locks : List Row} {w : Write} {s s' : Shop}
    (same : Untouched locks s s') : Untouched locks (redo w s) (redo w s') where
  dues rid held := by rw [reimbursement?_redo, reimbursement?_redo, same.dues rid held]
  lists listId held := by rw [list?_redo, list?_redo, same.lists listId held]
  old r' hr' held := by
    rcases mem_redo hr' with ⟨old, other⟩ | ⟨before, rfl⟩
    · obtain ⟨r, hr, hfrozen⟩ := same.old r' old held
      exact ⟨r, mem_redo_of_ne hr fun x hx => frozen_id hfrozen ▸ other x hx, hfrozen⟩
    · exact ⟨r', mem_redo_put before r', rfl⟩

/-- The discipline of the reimbursements, with or without requests that delete lists. -/
def debts (lasting : Prop) : Discipline engine where
  good := Sorted lasting
  same := Untouched
  own := Owned
  ok := Lands lasting
  refl := Untouched.refl
  trans := Untouched.trans
  mono sub h := ⟨fun rid held => h.dues rid (sub _ held), fun listId held => h.lists listId (sub _ held),
    fun r' hr' held => h.old r' hr' (sub _ held)⟩
  own_mono sub h := ⟨fun x hx => sub _ (h.due x hx), fun x hx => ⟨sub _ (h.listed x hx).1,
    (h.listed x hx).2⟩, fun r hr => ⟨sub _ (h.new r hr).1, (h.new r hr).2⟩, h.settles, h.drops⟩
  ok_same _ _ own ok same := lands_untouched own ok same
  redo_same _ _ _ _ same := untouched_both same
  good_redo := sorted_redo
  frame _ own ok apart := untouched_redo own ok apart

end JitaCart.Concurrent.Trade
