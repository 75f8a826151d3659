/- module: JitaCart/Concurrent/Postings
   source: backend/crates/api/src/fulfillment/fulfillments.rs,
     backend/crates/api/src/fulfillment/reimbursements.rs, backend/crates/settlement/src/lib.rs
   digest: What every statement may do to the purchases and the amounts of a list. -/

import JitaCart.Base.Guarded
import JitaCart.Books.Conservation
import JitaCart.Concurrent.Settling

/-!
Purchases change under the lock of their row and of their list, and so do the
amounts of reimbursements. Everything else about a reimbursement changes under
the lock of its row only, and is nothing that the books depend on.
-/

set_option autoImplicit false
set_option relaxedAutoImplicit false

namespace JitaCart.Concurrent.Postings

open Schema Base.Table Base.Request Base.ReadCommitted Books Trade
open Api.Reimbursements (cycle)

/-- `plan` has the lists, and the items that there are or will be. -/
structure Planned (plan : Ledger) (s : Shop) : Prop where
  directory : s.directory = plan.directory
  lists : Keyed ListRow.id s.lists
  items : Keyed ListItem.id s.listItems
  purchases : Keyed Fulfillment.id s.fulfillments
  dues : Keyed Reimbursement.id s.reimbursements
  cycles : Keyed cycle s.reimbursements
  payer : ∀ l ∈ s.lists, plan.payer? l.id = some l.payer
  line : ∀ li ∈ s.listItems, plan.line? li.id = some (lineOf li) ∧ (s.list? li.listId).isSome
  bought : ∀ f ∈ s.fulfillments, (s.item? f.listItemId).isSome ∧ plan.cycleOf f ≠ none
  due : ∀ r ∈ s.reimbursements, plan.DueOk (dueOf r) ∧ (s.list? r.listId).isSome

def OnList (plan : Ledger) (listId : Uuid) (f : Fulfillment) : Prop :=
  ∃ li, plan.line? f.listItemId = some li ∧ li.listId = listId

/-- Rows last, and a purchase keeps its item and its hauler. Locked rows stay as they are, and so do
the purchases and the amounts of a locked list. -/
structure Agree (plan : Ledger) (locks : List Row) (s s' : Shop) : Prop where
  lists : ∀ id, (s.list? id).isSome → (s'.list? id).isSome
  items : ∀ id, (s.item? id).isSome → (s'.item? id).isSome
  bought : ∀ id, ∀ f ∈ s.fulfillment? id, ∃ g ∈ s'.fulfillment? id,
    g.listItemId = f.listItemId ∧ g.haulerUserId = f.haulerUserId
  purchase : ∀ id, .fulfillment id ∈ locks → s'.fulfillment? id = s.fulfillment? id
  due : ∀ id, .reimbursement id ∈ locks → s'.reimbursement? id = s.reimbursement? id
  purchases : ∀ listId, .list listId ∈ locks → ∀ f, OnList plan listId f →
    (f ∈ s'.fulfillments ↔ f ∈ s.fulfillments)
  dues : ∀ listId, .list listId ∈ locks → ∀ d : Due, d.listId = listId →
    (d ∈ s'.reimbursements.map dueOf ↔ d ∈ s.reimbursements.map dueOf)

/-- The rows that a write may put, and those it may replace. -/
def Posts (plan : Ledger) (w : Write) (s : Shop) : Prop :=
  match w with
  | .put (.list l) => plan.payer? l.id = some l.payer
  | .put (.item li) => plan.line? li.id = some (lineOf li) ∧ (s.list? li.listId).isSome
  | .put (.fulfillment f) => (s.item? f.listItemId).isSome ∧ plan.cycleOf f ≠ none ∧
    ∀ g ∈ s.fulfillment? f.id, f.listItemId = g.listItemId ∧ f.haulerUserId = g.haulerUserId
  | .putReimbursement (some r) r' => s.reimbursement? r.id = some r ∧
    dueOf r' = { dueOf r with subtotal := r'.subtotalIsk }
  | .putReimbursement none r' => s.reimbursement? r'.id = none ∧
    (∀ r ∈ s.reimbursements, cycle r ≠ cycle r') ∧ plan.DueOk (dueOf r') ∧
    (s.list? r'.listId).isSome
  | .drop (.list _) | .drop (.item _) | .drop (.fulfillment _) | .dropReimbursement _ |
    .dropGroup _ => False
  | _ => True

def Entitled (plan : Ledger) (locks : List Row) : Write → Prop
  | .put (.fulfillment f) => .fulfillment f.id ∈ locks ∧
    ∀ li ∈ plan.line? f.listItemId, .list li.listId ∈ locks
  | .putReimbursement before r => .reimbursement r.id ∈ locks ∧
    (before.map dueOf ≠ some (dueOf r) → .list r.listId ∈ locks)
  | _ => True

structure Still (s s' : Shop) : Prop where
  directory : s'.directory = s.directory
  lists : s'.lists = s.lists
  items : s'.listItems = s.listItems
  purchases : s'.fulfillments = s.fulfillments
  dues : s'.reimbursements = s.reimbursements

section Redo
variable {plan : Ledger} {w : Write} {s s' : Shop} {locks others : List Row}

private theorem posts_cases (h : Posts plan w s) :
    (∃ l, w = .put (.list l) ∧ plan.payer? l.id = some l.payer) ∨
    (∃ li, w = .put (.item li) ∧ plan.line? li.id = some (lineOf li) ∧
      (s.list? li.listId).isSome) ∨
    (∃ f, w = .put (.fulfillment f) ∧ (s.item? f.listItemId).isSome ∧ plan.cycleOf f ≠ none ∧
      ∀ g ∈ s.fulfillment? f.id, f.listItemId = g.listItemId ∧ f.haulerUserId = g.haulerUserId) ∨
    (∃ r r', w = .putReimbursement (some r) r' ∧ s.reimbursement? r.id = some r ∧
      dueOf r' = { dueOf r with subtotal := r'.subtotalIsk }) ∨
    (∃ r', w = .putReimbursement none r' ∧ s.reimbursement? r'.id = none ∧
      (∀ r ∈ s.reimbursements, cycle r ≠ cycle r') ∧ plan.DueOk (dueOf r') ∧
      (s.list? r'.listId).isSome) ∨
    ∀ t : Shop, Still t (redo w t) := by
  cases w with
  | put x =>
    cases x with
    | list l => exact .inl ⟨l, rfl, h⟩
    | item li => exact .inr (.inl ⟨li, rfl, h⟩)
    | fulfillment f => exact .inr (.inr (.inl ⟨f, rfl, h⟩))
    | _ => exact .inr (.inr (.inr (.inr (.inr fun t => ⟨rfl, rfl, rfl, rfl, rfl⟩))))
  | drop x =>
    cases x with
    | list l => exact h.elim
    | item li => exact h.elim
    | fulfillment f => exact h.elim
    | _ => exact .inr (.inr (.inr (.inr (.inr fun t => ⟨rfl, rfl, rfl, rfl, rfl⟩))))
  | putReimbursement before r' =>
    cases before with
    | some r => exact .inr (.inr (.inr (.inl ⟨r, r', rfl, h⟩)))
    | none => exact .inr (.inr (.inr (.inr (.inl ⟨r', rfl, h⟩))))
  | dropReimbursement r => exact h.elim
  | dropGroup groupId => exact h.elim
  | _ => exact .inr (.inr (.inr (.inr (.inr fun t => ⟨rfl, rfl, rfl, rfl, rfl⟩))))

private theorem Still.list? (h : Still s s') (id : Uuid) : s'.list? id = s.list? id :=
  congrArg (lookup ListRow.id id) h.lists

private theorem Still.item? (h : Still s s') (id : Uuid) : s'.item? id = s.item? id :=
  congrArg (lookup ListItem.id id) h.items

private theorem Still.fulfillment? (h : Still s s') (id : Uuid) :
    s'.fulfillment? id = s.fulfillment? id :=
  congrArg (lookup Fulfillment.id id) h.purchases

private theorem Still.reimbursement? (h : Still s s') (id : Uuid) :
    s'.reimbursement? id = s.reimbursement? id :=
  congrArg (lookup Reimbursement.id id) h.dues

private theorem Still.planned (h : Still s s') (good : Planned plan s) : Planned plan s' where
  directory := h.directory.trans good.directory
  lists := h.lists ▸ good.lists
  items := h.items ▸ good.items
  purchases := h.purchases ▸ good.purchases
  dues := h.dues ▸ good.dues
  cycles := h.dues ▸ good.cycles
  payer := h.lists ▸ good.payer
  line li hli := by
    rw [h.items] at hli
    rw [h.list?]
    exact good.line li hli
  bought f hf := by
    rw [h.purchases] at hf
    rw [h.item?]
    exact good.bought f hf
  due r hr := by
    rw [h.dues] at hr
    rw [h.list?]
    exact good.due r hr

private theorem isSome_put {α κ : Type} [DecidableEq κ] {key : α → κ} {a : α} {t : List α} {k : κ}
    (h : (lookup key k t).isSome) : (lookup key k (replace key (key a) (some a) t)).isSome := by
  rw [lookup_replace (by simp)]
  split
  · rfl
  · exact h

private theorem dueOk_subtotal {d : Due} {subtotal : Cents} (h : plan.DueOk d) :
    plan.DueOk { d with subtotal := subtotal } := by
  obtain ⟨payer, requester, rest⟩ := h
  exact ⟨payer, requester, rest⟩

private theorem cycle_of_due {r r' : Reimbursement} (h : dueOf r = dueOf r') : cycle r = cycle r' :=
  congrArg Due.cycle h

theorem mem_dues_put {before : Option Reimbursement} {r : Reimbursement} {d : Due} :
    d ∈ (redo (.putReimbursement before r) s).reimbursements.map dueOf ↔
      (d ∈ s.reimbursements.map dueOf ∧ d.id ≠ r.id) ∨ d = dueOf r := by
  constructor
  · intro h
    obtain ⟨x, hx, rfl⟩ := List.mem_map.mp h
    rcases mem_replace.mp hx with ⟨old, other⟩ | new
    · exact .inl ⟨List.mem_map_of_mem old, other⟩
    · exact .inr (congrArg dueOf (Option.some.inj new).symm)
  · rintro (⟨h, other⟩ | rfl)
    · obtain ⟨x, hx, rfl⟩ := List.mem_map.mp h
      exact List.mem_map_of_mem (mem_replace.mpr (.inl ⟨hx, other⟩))
    · exact List.mem_map_of_mem (mem_replace.mpr (.inr rfl))

theorem planned_redo (good : Planned plan s) (h : Posts plan w s) : Planned plan (redo w s) := by
  rcases posts_cases h with ⟨l, rfl, hl⟩ | ⟨li, rfl, hli, list⟩ | ⟨f, rfl, item, cyc, -⟩ |
    ⟨r, r', rfl, current, next⟩ | ⟨r', rfl, fresh, apart, ok, list⟩ | still
  · have stays (id : Uuid) (h : (s.list? id).isSome) :
        ((redo (.put (.list l)) s).list? id).isSome := isSome_put (a := l) h
    refine ⟨good.directory, keyed_replace good.lists (by simp), good.items, good.purchases,
      good.dues, good.cycles, fun x hx => ?_, fun x hx => ?_, good.bought, fun r hr => ?_⟩
    · rcases mem_replace.mp hx with ⟨old, -⟩ | new
      · exact good.payer x old
      · exact Option.some.inj new ▸ hl
    · exact ⟨(good.line x hx).1, stays _ (good.line x hx).2⟩
    · exact ⟨(good.due r hr).1, stays _ (good.due r hr).2⟩
  · refine ⟨good.directory, good.lists, keyed_replace good.items (by simp), good.purchases,
      good.dues, good.cycles, good.payer, fun x hx => ?_, fun f hf => ?_, good.due⟩
    · rcases mem_replace.mp hx with ⟨old, -⟩ | new
      · exact good.line x old
      · exact Option.some.inj new ▸ ⟨hli, list⟩
    · exact ⟨isSome_put (a := li) (good.bought f hf).1, (good.bought f hf).2⟩
  · refine ⟨good.directory, good.lists, good.items, keyed_replace good.purchases (by simp),
      good.dues, good.cycles, good.payer, good.line, fun x hx => ?_, good.due⟩
    rcases mem_replace.mp hx with ⟨old, -⟩ | new
    · exact good.bought x old
    · exact Option.some.inj new ▸ ⟨item, cyc⟩
  · have id : r'.id = r.id := congrArg Due.id next
    have same : cycle r' = cycle r := congrArg Due.cycle next
    have mem : r ∈ s.reimbursements := (lookup_mem current).1
    refine ⟨good.directory, good.lists, good.items, good.purchases,
      keyed_replace good.dues (by simp), ?_, good.payer, good.line, good.bought, fun x hx => ?_⟩
    · refine (good.cycles.filter _).append_list (by simp [Keyed]) fun a ha b hb => ?_
      obtain ⟨old, other⟩ := List.mem_filter.mp ha
      obtain rfl : r' = b := by simpa [eq_comm] using hb
      intro eq
      have := good.cycles.eq_of_key old mem (eq.trans same)
      subst this
      simp [id] at other
    · rcases mem_replace.mp hx with ⟨old, -⟩ | new
      · exact good.due x old
      · obtain rfl := Option.some.inj new
        have onList : r'.listId = r.listId := congrArg Due.listId next
        exact ⟨next ▸ dueOk_subtotal (good.due r mem).1, onList ▸ (good.due r mem).2⟩
  · refine ⟨good.directory, good.lists, good.items, good.purchases,
      keyed_replace good.dues (by simp), ?_, good.payer, good.line, good.bought, fun x hx => ?_⟩
    · refine (good.cycles.filter _).append_list (by simp [Keyed]) fun a ha b hb => ?_
      obtain rfl : r' = b := by simpa [eq_comm] using hb
      exact apart a (List.mem_of_mem_filter ha)
    · rcases mem_replace.mp hx with ⟨old, -⟩ | new
      · exact good.due x old
      · obtain rfl := Option.some.inj new
        exact ⟨ok, list⟩
  · exact (still s).planned good

end Redo

private theorem Agree.refl {plan : Ledger} (locks : List Row) (s : Shop) :
    Agree plan locks s s where
  lists _ h := h
  items _ h := h
  bought _ f hf := ⟨f, hf, rfl, rfl⟩
  purchase _ _ := rfl
  due _ _ := rfl
  purchases _ _ _ _ := Iff.rfl
  dues _ _ _ _ := Iff.rfl

private theorem Agree.trans {plan : Ledger} {locks : List Row} {s s' s'' : Shop}
    (h : Agree plan locks s s') (h' : Agree plan locks s' s'') : Agree plan locks s s'' where
  lists id hs := h'.lists id (h.lists id hs)
  items id hs := h'.items id (h.items id hs)
  bought id f hf := by
    obtain ⟨g, hg, item, hauler⟩ := h.bought id f hf
    obtain ⟨k, hk, item', hauler'⟩ := h'.bought id g hg
    exact ⟨k, hk, item'.trans item, hauler'.trans hauler⟩
  purchase id held := (h'.purchase id held).trans (h.purchase id held)
  due id held := (h'.due id held).trans (h.due id held)
  purchases listId held f on :=
    (h'.purchases listId held f on).trans (h.purchases listId held f on)
  dues listId held d on := (h'.dues listId held d on).trans (h.dues listId held d on)

private theorem Agree.mono {plan : Ledger} {few many : List Row} {s s' : Shop}
    (sub : ∀ r ∈ few, r ∈ many) (h : Agree plan many s s') : Agree plan few s s' where
  lists := h.lists
  items := h.items
  bought := h.bought
  purchase id held := h.purchase id (sub _ held)
  due id held := h.due id (sub _ held)
  purchases listId held := h.purchases listId (sub _ held)
  dues listId held := h.dues listId (sub _ held)

section Discipline
variable {plan : Ledger} {w : Write} {s s' : Shop} {locks others : List Row}

private theorem Still.agree (h : Still s s') : Agree plan locks s s' where
  lists id hs := h.list? id ▸ hs
  items id hs := h.item? id ▸ hs
  bought id f hf := ⟨f, (h.fulfillment? id).trans hf, rfl, rfl⟩
  purchase id _ := h.fulfillment? id
  due id _ := h.reimbursement? id
  purchases _ _ f _ := by rw [h.purchases]
  dues _ _ d _ := by rw [h.dues]

/-- What a transaction may write does not depend on what the others write meanwhile. -/
private theorem posts_agree (own : Entitled plan locks w) (h : Posts plan w s)
    (same : Agree plan locks s s') : Posts plan w s' := by
  cases w with
  | put x =>
    cases x with
    | item li => exact ⟨h.1, same.lists _ h.2⟩
    | fulfillment f =>
      refine ⟨same.items _ h.1, h.2.1, fun g hg => h.2.2 g ?_⟩
      rwa [same.purchase _ own.1] at hg
    | _ => exact h
  | drop x => cases x <;> exact h
  | putReimbursement before r' =>
    cases before with
    | some r =>
      have id : r'.id = r.id := congrArg Due.id h.2
      exact ⟨(same.due _ (id ▸ own.1)).trans h.1, h.2⟩
    | none =>
      obtain ⟨fresh, apart, ok, list⟩ := h
      refine ⟨(same.due _ own.1).trans fresh, fun r hr eq => ?_, ok, same.lists _ list⟩
      have held : .list r'.listId ∈ locks := own.2 (by simp)
      have onList : (dueOf r).listId = r'.listId := congrArg (·.1) eq
      obtain ⟨x, hx, hxr⟩ := List.mem_map.mp
        ((same.dues _ held _ onList).mp (List.mem_map_of_mem hr))
      exact apart x hx ((cycle_of_due hxr).trans eq)
  | _ => exact h

private theorem onList_replaced {f g : Fulfillment} {listId : Uuid} (good : Planned plan s)
    (h : Posts plan (.put (.fulfillment f)) s) (hg : g ∈ s.fulfillments) (id : g.id = f.id)
    (on : OnList plan listId g) : OnList plan listId f := by
  have found : s.fulfillment? f.id = some g := (lookup_eq_some good.purchases).mpr ⟨hg, id⟩
  unfold OnList
  rw [(h.2.2 g found).1]
  exact on

private theorem agree_redo (good : Planned plan s) (own : Entitled plan locks w)
    (h : Posts plan w s) (apart : ∀ r ∈ others, r ∉ locks) : Agree plan others s (redo w s) := by
  have base : Agree plan others s s := Agree.refl others s
  rcases posts_cases h with ⟨l, rfl, hl⟩ | ⟨li, rfl, hli, list⟩ | ⟨f, rfl, item, cyc, old⟩ |
    ⟨r, r', rfl, current, next⟩ | ⟨r', rfl, fresh, -, -, -⟩ | still
  · exact { base with lists := fun id hs => isSome_put (a := l) hs }
  · exact { base with items := fun id hs => isSome_put (a := li) hs }
  · have row (id : Uuid) : (redo (.put (.fulfillment f)) s).fulfillment? id =
        if id = f.id then some f else s.fulfillment? id := lookup_replace (by simp) id
    refine { base with bought := ?_, purchase := ?_, purchases := ?_ }
    · intro id g hg
      by_cases same : id = f.id
      · obtain ⟨sameItem, sameHauler⟩ := old g (same ▸ hg)
        exact ⟨f, by rw [row, if_pos same]; rfl, sameItem, sameHauler⟩
      · exact ⟨g, by rw [row, if_neg same]; exact hg, rfl, rfl⟩
    · intro id held
      have other : id ≠ f.id := fun same => apart _ held (same ▸ own.1)
      exact (row id).trans (if_neg other)
    · intro listId held g on
      have off : ¬ OnList plan listId f := by
        rintro ⟨li, hli, rfl⟩
        exact apart _ held (own.2 li hli)
      refine mem_replace.trans ⟨fun hg => ?_, fun hg => .inl ⟨hg, fun id => ?_⟩⟩
      · rcases hg with ⟨hg, -⟩ | new
        · exact hg
        · exact absurd (Option.some.inj new ▸ on) off
      · exact off (onList_replaced good h hg id on)
  · have id : r'.id = r.id := congrArg Due.id next
    have mem : r ∈ s.reimbursements := (lookup_mem current).1
    refine { base with due := ?_, dues := ?_ }
    · intro rid held
      refine (lookup_replace (by simp) rid).trans (if_neg fun same => ?_)
      exact apart _ held (same ▸ own.1)
    · intro listId held d on
      have kept : dueOf r' = dueOf r ∨ r'.listId ≠ listId := by
        by_cases same : dueOf r = dueOf r'
        · exact .inl same.symm
        · refine .inr fun eq => apart _ held (eq ▸ own.2 fun h => same ?_)
          exact Option.some.inj h
      rw [mem_dues_put]
      rcases kept with same | off
      · constructor
        · rintro (⟨old, -⟩ | rfl)
          · exact old
          · exact same ▸ List.mem_map_of_mem mem
        · intro hd
          by_cases other : d.id = r'.id
          · obtain ⟨x, hx, rfl⟩ := List.mem_map.mp hd
            have := good.dues.eq_of_key hx mem (Eq.trans other id)
            exact .inr (this ▸ same.symm)
          · exact .inl ⟨hd, other⟩
      · constructor
        · rintro (⟨old, -⟩ | rfl)
          · exact old
          · exact absurd on off
        · intro hd
          refine .inl ⟨hd, fun other => off ?_⟩
          obtain ⟨x, hx, rfl⟩ := List.mem_map.mp hd
          obtain rfl := good.dues.eq_of_key hx mem (Eq.trans other id)
          exact (congrArg Due.listId next).trans on
  · refine { base with due := ?_, dues := ?_ }
    · intro rid held
      refine (lookup_replace (by simp) rid).trans (if_neg fun same => ?_)
      exact apart _ held (same ▸ own.1)
    · intro listId held d on
      have off : r'.listId ≠ listId := fun eq => apart _ held (eq ▸ own.2 (by simp))
      rw [mem_dues_put]
      constructor
      · rintro (⟨old, -⟩ | rfl)
        · exact old
        · exact absurd on off
      · intro hd
        refine .inl ⟨hd, fun other => ?_⟩
        obtain ⟨x, hx, rfl⟩ := List.mem_map.mp hd
        exact lookup_eq_none.mp fresh x hx other
  · exact (still s).agree

private theorem agree_both (h : Posts plan w s) (same : Agree plan locks s s') :
    Agree plan locks (redo w s) (redo w s') := by
  rcases posts_cases h with ⟨l, rfl, hl⟩ | ⟨li, rfl, hli, list⟩ | ⟨f, rfl, item, cyc, old⟩ |
    ⟨r, r', rfl, current, next⟩ | ⟨r', rfl, fresh, -, -, -⟩ | still
  · refine { same with lists := fun id hs => ?_ }
    have row (t : Shop) : (redo (.put (.list l)) t).list? id =
        if id = l.id then some l else t.list? id := lookup_replace (by simp) id
    rw [row] at hs ⊢
    split
    · rfl
    · rename_i other
      rw [if_neg other] at hs
      exact same.lists id hs
  · refine { same with items := fun id hs => ?_ }
    have row (t : Shop) : (redo (.put (.item li)) t).item? id =
        if id = li.id then some li else t.item? id := lookup_replace (by simp) id
    rw [row] at hs ⊢
    split
    · rfl
    · rename_i other
      rw [if_neg other] at hs
      exact same.items id hs
  · have row (t : Shop) (id : Uuid) : (redo (.put (.fulfillment f)) t).fulfillment? id =
        if id = f.id then some f else t.fulfillment? id := lookup_replace (by simp) id
    refine { same with bought := fun id g hg => ?_, purchase := fun id held => ?_, purchases := ?_ }
    · rw [row] at hg
      by_cases this : id = f.id
      · rw [if_pos this] at hg
        exact ⟨f, by rw [row, if_pos this]; rfl, by rw [Option.some.inj hg], by
          rw [Option.some.inj hg]⟩
      · rw [if_neg this] at hg
        obtain ⟨k, hk, rest⟩ := same.bought id g hg
        exact ⟨k, by rw [row, if_neg this]; exact hk, rest⟩
    · rw [row, row, same.purchase id held]
    · intro listId held g on
      refine mem_replace.trans (Iff.trans ?_ mem_replace.symm)
      rw [same.purchases listId held g on]
  · refine { same with due := fun rid held => ?_, dues := fun listId held d on => ?_ }
    · have row (t : Shop) : (redo (.putReimbursement (some r) r') t).reimbursement? rid =
          if rid = r'.id then some r' else t.reimbursement? rid := lookup_replace (by simp) rid
      rw [row, row, same.due rid held]
    · rw [mem_dues_put, mem_dues_put, same.dues listId held d on]
  · refine { same with due := fun rid held => ?_, dues := fun listId held d on => ?_ }
    · have row (t : Shop) : (redo (.putReimbursement none r') t).reimbursement? rid =
          if rid = r'.id then some r' else t.reimbursement? rid := lookup_replace (by simp) rid
      rw [row, row, same.due rid held]
    · rw [mem_dues_put, mem_dues_put, same.dues listId held d on]
  · have one := still s
    have two := still s'
    refine ⟨fun id hs => ?_, fun id hs => ?_, fun id f hf => ?_, fun id held => ?_,
      fun id held => ?_, fun listId held f on => ?_, fun listId held d on => ?_⟩
    · rw [one.list?] at hs
      rw [two.list?]
      exact same.lists id hs
    · rw [one.item?] at hs
      rw [two.item?]
      exact same.items id hs
    · rw [one.fulfillment?] at hf
      rw [two.fulfillment?]
      exact same.bought id f hf
    · rw [one.fulfillment?, two.fulfillment?]
      exact same.purchase id held
    · rw [one.reimbursement?, two.reimbursement?]
      exact same.due id held
    · rw [one.purchases, two.purchases]
      exact same.purchases listId held f on
    · rw [one.dues, two.dues]
      exact same.dues listId held d on

private theorem entitled_mono {few many : List Row} (sub : ∀ r ∈ few, r ∈ many)
    (h : Entitled plan few w) : Entitled plan many w := by
  cases w with
  | put x =>
    cases x with
    | fulfillment f => exact ⟨sub _ h.1, fun li hli => sub _ (h.2 li hli)⟩
    | _ => trivial
  | putReimbursement before r => exact ⟨sub _ h.1, fun new => sub _ (h.2 new)⟩
  | _ => trivial

end Discipline

/-- The discipline of the purchases and of the amounts that are due for them. -/
def postings (plan : Ledger) : Discipline engine where
  good := Planned plan
  same := Agree plan
  own _ := Entitled plan
  ok := Posts plan
  refl := Agree.refl
  trans := Agree.trans
  mono := Agree.mono
  own_mono := entitled_mono
  ok_same _ _ own ok same := posts_agree own ok same
  redo_same _ _ _ ok same := agree_both ok same
  good_redo := planned_redo
  frame good own ok apart := agree_redo good own ok apart

end JitaCart.Concurrent.Postings
