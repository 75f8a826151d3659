/- module: JitaCart/Concurrent/EstimateTotals
   source: backend/crates/api/src/lists/pricing.rs (recompute_estimates),
     backend/crates/api/src/lists/crud.rs (create, replace_markets),
     backend/crates/api/src/lists/items.rs (add_items, patch_item, delete_item)
   digest: Totals are the sums of the stored estimates in every interleaving of list requests. -/

import JitaCart.Base.Aggregate
import JitaCart.Concurrent.Estimates

/-!
A list with its items and its markets is written only under the lock of the list's
row, so each request works on its list alone.
-/

set_option autoImplicit false
set_option relaxedAutoImplicit false

namespace JitaCart.Concurrent.Estimates

open Schema Base.Table Base.Request Base.Strings Base.ReadCommitted Domain.Multibuy
open Markets.Types Markets.Pricing Api.Extract Api.Naming
open Api.Lists (NewLine newItem)
open Concurrent.Lists (Caps)

structure Tables (s : Shop) : Prop where
  lists : Keyed (fun l : PricedList => l.id) s.lists
  items : Keyed (fun it : PricedItem => it.id) s.items
  itemLists : ∀ it ∈ s.items, s.list? it.listId ≠ none
  marketLists : ∀ m ∈ s.listMarkets, s.list? m.listId ≠ none
  markets : ∀ m ∈ s.listMarkets, lookup Market.id m.marketId s.catalog.markets ≠ none

instance (s : Shop) : Decidable (Tables s) :=
  decidable_of_iff
    (Keyed (fun l : PricedList => l.id) s.lists ∧ Keyed (fun it : PricedItem => it.id) s.items ∧
      (∀ it ∈ s.items, s.list? it.listId ≠ none) ∧
      (∀ m ∈ s.listMarkets, s.list? m.listId ≠ none) ∧
      ∀ m ∈ s.listMarkets, lookup Market.id m.marketId s.catalog.markets ≠ none)
    ⟨fun ⟨a, b, c, d, e⟩ => ⟨a, b, c, d, e⟩,
      fun h => ⟨h.lists, h.items, h.itemLists, h.marketLists, h.markets⟩⟩

structure Part where
  list : Option PricedList
  items : List PricedItem
  markets : List ListMarket

def Shop.part (listId : Uuid) (s : Shop) : Part :=
  ⟨s.list? listId, s.itemsOf listId, s.marketsOf listId⟩

def Write.root : Write → Uuid
  | .insertList l => l.id
  | .updateList l => l.id
  | .insertItem it => it.listId
  | .updateItem it => it.listId
  | .deleteItem it => it.listId
  | .insertListMarket m => m.listId
  | .deleteListMarket m => m.listId

def Write.item : Write → Option Uuid
  | .insertItem it => some it.id
  | .updateItem it => some it.id
  | .deleteItem it => some it.id
  | _ => none

def Write.row : Write → Option PricedItem
  | .insertItem it => some it
  | .updateItem it => some it
  | _ => none

def Write.act : Write → Part → Part
  | .insertList l, a => { a with list := some l }
  | .updateList l, a => { a with list := some l }
  | .insertItem it, a => { a with items := a.items ++ [it] }
  | .updateItem it, a => { a with items := overwrite (fun r => r.id) it a.items }
  | .deleteItem it, a => { a with items := a.items.filter fun r => decide (r.id ≠ it.id) }
  | .insertListMarket m, a => { a with markets := a.markets ++ [m] }
  | .deleteListMarket m, a => { a with markets := a.markets.filter fun r => decide (r ≠ m) }

def Lands : Write → Shop → Prop
  | .insertList l, s => s.list? l.id = none
  | .updateList l, s => s.list? l.id ≠ none
  | .insertItem it, s => s.list? it.listId ≠ none ∧ s.item? it.id = none
  | .updateItem it, s => ∃ r, s.item? it.id = some r ∧ r.listId = it.listId
  | .deleteItem it, s => s.item? it.id = some it
  | .insertListMarket m, s => s.list? m.listId ≠ none ∧
      lookup Market.id m.marketId s.catalog.markets ≠ none
  | .deleteListMarket _, _ => True

section Landing
variable {s : Shop} {w : Write}

private theorem list?_redo (h : Lands w s) (id : Uuid) :
    (redo w s).list? id =
      match w with
      | .insertList l => if id = l.id then some l else s.list? id
      | .updateList l => if id = l.id then some l else s.list? id
      | _ => s.list? id := by
  cases w with
  | insertList l => exact lookup_append_singleton h id
  | updateList l =>
    refine (lookup_overwrite l s.lists id).trans ?_
    obtain ⟨r, hr⟩ := Option.ne_none_iff_exists'.mp h
    by_cases own : id = l.id
    · subst own
      simp only [if_true]
      rw [show lookup (fun r : PricedList => r.id) l.id s.lists = some r from hr]
      rfl
    · simp only [if_neg own]
      rfl
  | _ => rfl

theorem item?_redo (h : Lands w s) (id : Uuid) :
    (redo w s).item? id = if w.item = some id then w.row else s.item? id := by
  cases w with
  | insertItem it =>
    refine (lookup_append_singleton h.2 id).trans ?_
    simp only [Write.item, Write.row, Option.some.injEq, eq_comm (a := it.id)]
    rfl
  | updateItem it =>
    refine (lookup_overwrite it s.items id).trans ?_
    obtain ⟨r, hr, -⟩ := h
    simp only [Write.item, Write.row, Option.some.injEq, eq_comm (a := it.id)]
    by_cases own : id = it.id
    · subst own
      simp only [if_true]
      rw [show lookup (fun r : PricedItem => r.id) it.id s.items = some r from hr]
      rfl
    · simp only [if_neg own]
      rfl
  | deleteItem it =>
    refine (lookup_filter_ne s.items it.id id).trans ?_
    simp only [Write.item, Write.row, Option.some.injEq, eq_comm (a := it.id)]
    rfl
  | insertList l => rfl
  | updateList l => rfl
  | insertListMarket m => rfl
  | deleteListMarket m => rfl

private theorem list?_redo_ne_none (h : Lands w s) {id : Uuid} (there : s.list? id ≠ none) :
    (redo w s).list? id ≠ none := by
  rw [list?_redo h]
  cases w with
  | insertList l =>
    dsimp only
    split
    · exact Option.some_ne_none l
    · exact there
  | updateList l =>
    dsimp only
    split
    · exact Option.some_ne_none l
    · exact there
  | _ => exact there

private theorem mem_overwrite {α κ : Type} [DecidableEq κ] {key : α → κ} {a r : α} {t : List α}
    (h : r ∈ overwrite key a t) : r = a ∨ (r ∈ t ∧ key r ≠ key a) := by
  obtain ⟨x, hx, rfl⟩ := mem_updateWhere.mp h
  by_cases same : key x = key a
  · exact .inl (by simp [same])
  · exact .inr (by simp [same, hx])

private theorem tables_redo (tables : Tables s) (h : Lands w s) : Tables (redo w s) := by
  have stays : ∀ id, s.list? id ≠ none → (redo w s).list? id ≠ none :=
    fun _ => list?_redo_ne_none h
  cases w with
  | insertList l =>
    refine ⟨tables.lists.append (lookup_eq_none.mp h), tables.items,
      fun it hit => stays _ (tables.itemLists it hit),
      fun m hm => stays _ (tables.marketLists m hm), tables.markets⟩
  | updateList l =>
    exact ⟨tables.lists.overwrite l, tables.items,
      fun it hit => stays _ (tables.itemLists it hit),
      fun m hm => stays _ (tables.marketLists m hm), tables.markets⟩
  | insertItem it =>
    refine ⟨tables.lists, tables.items.append (lookup_eq_none.mp h.2), fun r hr => ?_,
      tables.marketLists, tables.markets⟩
    rcases List.mem_append.mp hr with old | new
    · exact tables.itemLists r old
    · obtain rfl := List.mem_singleton.mp new
      exact h.1
  | updateItem it =>
    refine ⟨tables.lists, tables.items.overwrite it, fun r hr => ?_, tables.marketLists,
      tables.markets⟩
    rcases mem_overwrite hr with rfl | ⟨old, -⟩
    · obtain ⟨before, hb, same⟩ := h
      exact same ▸ tables.itemLists before (lookup_mem hb).1
    · exact tables.itemLists r old
  | deleteItem it =>
    exact ⟨tables.lists, tables.items.filter _,
      fun r hr => tables.itemLists r (List.mem_filter.mp hr).1, tables.marketLists, tables.markets⟩
  | insertListMarket m =>
    refine ⟨tables.lists, tables.items, tables.itemLists, fun r hr => ?_, fun r hr => ?_⟩
    · rcases List.mem_append.mp hr with old | new
      · exact tables.marketLists r old
      · obtain rfl := List.mem_singleton.mp new
        exact h.1
    · rcases List.mem_append.mp hr with old | new
      · exact tables.markets r old
      · obtain rfl := List.mem_singleton.mp new
        exact h.2
  | deleteListMarket m =>
    exact ⟨tables.lists, tables.items, tables.itemLists,
      fun r hr => tables.marketLists r (List.mem_filter.mp hr).1,
      fun r hr => tables.markets r (List.mem_filter.mp hr).1⟩

private theorem filter_overwrite {α κ : Type} [DecidableEq κ] {key : α → κ} {a : α} {t : List α}
    {p : α → Bool} (keep : ∀ r ∈ t, key r = key a → p r = p a) :
    (overwrite key a t).filter p = if p a then overwrite key a (t.filter p) else t.filter p := by
  induction t with
  | nil => simp [overwrite, updateWhere]
  | cons r t ih =>
    have rest := ih fun x hx => keep x (List.mem_cons_of_mem r hx)
    have first := keep r List.mem_cons_self
    unfold overwrite updateWhere at rest ⊢
    rw [List.map_cons]
    by_cases same : key r = key a
    · cases hp : p a <;> simp [hp, first same, same] at rest ⊢ <;> exact rest
    · cases hp : p a <;> cases hr : p r <;> simp [hp, hr, same] at rest ⊢ <;> exact rest

theorem part_redo_root (tables : Tables s) (h : Lands w s) :
    (redo w s).part w.root = w.act (s.part w.root) := by
  unfold Shop.part
  rw [list?_redo h]
  cases w with
  | insertList l =>
    simp only [Write.root, if_true]
    rfl
  | updateList l =>
    simp only [Write.root, if_true]
    rfl
  | insertItem it => simp [redo, Write.root, Write.act, Shop.itemsOf, Shop.marketsOf]
  | updateItem it =>
    obtain ⟨before, hb, same⟩ := h
    have keep : ∀ r ∈ s.items, r.id = it.id →
        decide (r.listId = it.listId) = decide (it.listId = it.listId) := by
      intro r hr own
      obtain rfl := tables.items.eq_of_key hr (lookup_mem hb).1 (own.trans (lookup_mem hb).2.symm)
      simp [same]
    refine congrArg (fun items => Part.mk (s.list? it.listId) items (s.marketsOf it.listId)) ?_
    exact (filter_overwrite keep).trans (if_pos (decide_eq_true rfl))
  | deleteItem it =>
    simp only [redo, Write.root, Write.act, Shop.itemsOf, Shop.marketsOf]
    rw [List.filter_filter, List.filter_filter]
    simp only [Bool.and_comm]
  | insertListMarket m => simp [redo, Write.root, Write.act, Shop.itemsOf, Shop.marketsOf]
  | deleteListMarket m =>
    simp only [redo, Write.root, Write.act, Shop.itemsOf, Shop.marketsOf]
    rw [List.filter_filter, List.filter_filter]
    simp only [Bool.and_comm]

theorem part_redo_other (tables : Tables s) (h : Lands w s) {listId : Uuid}
    (other : listId ≠ w.root) : (redo w s).part listId = s.part listId := by
  unfold Shop.part
  rw [list?_redo h]
  cases w with
  | insertList l =>
    simp only [if_neg (show listId ≠ l.id from other)]
    rfl
  | updateList l =>
    simp only [if_neg (show listId ≠ l.id from other)]
    rfl
  | insertItem it =>
    simp [redo, Shop.itemsOf, Shop.marketsOf, show it.listId ≠ listId from Ne.symm other]
  | updateItem it =>
    obtain ⟨before, hb, same⟩ := h
    have keep : ∀ r ∈ s.items, r.id = it.id →
        decide (r.listId = listId) = decide (it.listId = listId) := by
      intro r hr own
      obtain rfl := tables.items.eq_of_key hr (lookup_mem hb).1 (own.trans (lookup_mem hb).2.symm)
      simp [same]
    simp only [redo, Shop.itemsOf, Shop.marketsOf]
    rw [filter_overwrite keep]
    simp [show it.listId ≠ listId from Ne.symm other]
  | deleteItem it =>
    have keep : ∀ r ∈ s.items, r.listId = listId → r.id ≠ it.id := by
      intro r hr here own
      obtain rfl := tables.items.eq_of_key hr (lookup_mem h).1 own
      exact other here.symm
    simp only [redo, Shop.itemsOf, Shop.marketsOf]
    rw [List.filter_filter]
    refine congrArg (fun items => Part.mk _ items _) (List.filter_congr fun r hr => ?_)
    by_cases here : r.listId = listId
    · simp [here, keep r hr here]
    · simp [here]
  | insertListMarket m =>
    simp [redo, Shop.itemsOf, Shop.marketsOf, show m.listId ≠ listId from Ne.symm other]
  | deleteListMarket m =>
    simp only [redo, Shop.itemsOf, Shop.marketsOf]
    rw [List.filter_filter]
    refine congrArg (fun markets => Part.mk _ _ markets) (List.filter_congr fun r hr => ?_)
    by_cases here : r.listId = listId
    · have : r ≠ m := by
        rintro rfl
        exact other here.symm
      simp [here, this]
    · simp [here]

end Landing

-- The discipline: writes are done under the lock of their list, and under that of their item.
structure Kept (locks : List Row) (s s' : Shop) : Prop where
  catalog : s'.catalog = s.catalog
  parts : ∀ listId, .list listId ∈ locks → s'.part listId = s.part listId
  items : ∀ id, .item id ∈ locks → s'.item? id = s.item? id

def Owned (locks : List Row) (w : Write) : Prop :=
  .list w.root ∈ locks ∧ ∀ id, w.item = some id → .item id ∈ locks

private theorem catalog_redo (w : Write) (s : Shop) : (redo w s).catalog = s.catalog := by
  cases w <;> rfl

private theorem lands_kept {locks : List Row} {w : Write} {s s' : Shop} (own : Owned locks w)
    (h : Lands w s) (kept : Kept locks s s') : Lands w s' := by
  have list : s'.list? w.root = s.list? w.root := congrArg Part.list (kept.parts _ own.1)
  cases w with
  | insertList l => exact list.trans h
  | updateList l => exact fun missing => h (list.symm.trans missing)
  | insertItem it => exact ⟨list ▸ h.1, (kept.items _ (own.2 _ rfl)).trans h.2⟩
  | updateItem it =>
    obtain ⟨r, hr, same⟩ := h
    exact ⟨r, (kept.items _ (own.2 _ rfl)).trans hr, same⟩
  | deleteItem it => exact (kept.items _ (own.2 _ rfl)).trans h
  | insertListMarket m => exact ⟨list ▸ h.1, kept.catalog ▸ h.2⟩
  | deleteListMarket m => trivial

private theorem kept_redo {locks : List Row} {w : Write} {s s' : Shop} (tables : Tables s)
    (tables' : Tables s') (own : Owned locks w) (h : Lands w s) (kept : Kept locks s s') :
    Kept locks (redo w s) (redo w s') := by
  have h' := lands_kept own h kept
  refine ⟨?_, fun listId held => ?_, fun id held => ?_⟩
  · rw [catalog_redo, catalog_redo, kept.catalog]
  · by_cases mine : listId = w.root
    · subst mine
      rw [part_redo_root tables h, part_redo_root tables' h', kept.parts _ held]
    · rw [part_redo_other tables h mine, part_redo_other tables' h' mine, kept.parts _ held]
  · rw [item?_redo h, item?_redo h', kept.items id held]

private theorem kept_frame {locks others : List Row} {w : Write} {s : Shop} (tables : Tables s)
    (own : Owned locks w) (h : Lands w s) (apart : ∀ r ∈ others, r ∉ locks) :
    Kept others s (redo w s) := by
  refine ⟨catalog_redo w s, fun listId held => ?_, fun id held => ?_⟩
  · refine part_redo_other tables h ?_
    rintro rfl
    exact apart _ held own.1
  · rw [item?_redo h, if_neg]
    exact fun mine => apart _ held (own.2 id mine)

/-- `est_unit_price_isk * qty_requested`; an item without an estimate counts nothing. -/
def PricedItem.value (it : PricedItem) : Cents :=
  (it.estUnitPriceIsk.map fun price => price * it.qtyRequested).getD 0

/-- The total of every list is the sum over its items. -/
def Totals (s : Shop) : Prop :=
  ∀ l ∈ s.lists, l.totalEstimateIsk = ((s.itemsOf l.id).map PricedItem.value).sum

/-- Every item of the list has the least of these quotes, from one of the list's markets. -/
def PricedBy (quotes : Quotes Cents) (s : Shop) (listId : Uuid) : Prop :=
  ∀ it ∈ s.itemsOf listId, Cheapest ((s.marketsOf listId).map ListMarket.marketId) quotes it.typeId
    it.estUnitPriceIsk it.estPricedMarketId

structure Part.Settled (quotes : Quotes Cents) (a : Part) : Prop where
  total : ∀ l ∈ a.list, l.totalEstimateIsk = (a.items.map PricedItem.value).sum
  priced : ∀ it ∈ a.items, Cheapest (a.markets.map ListMarket.marketId) quotes it.typeId
    it.estUnitPriceIsk it.estPricedMarketId

variable (u : CaseTables) (caps : Caps)

def discipline : Discipline (engine u caps) where
  good := Tables
  same := Kept
  own _ := Owned
  ok := Lands
  refl _ _ := ⟨rfl, fun _ _ => rfl, fun _ _ => rfl⟩
  trans h h' := ⟨h'.catalog.trans h.catalog,
    fun listId held => (h'.parts listId held).trans (h.parts listId held),
    fun id held => (h'.items id held).trans (h.items id held)⟩
  mono sub h := ⟨h.catalog, fun listId held => h.parts listId (sub _ held),
    fun id held => h.items id (sub _ held)⟩
  own_mono sub h := ⟨sub _ h.1, fun id mine => sub _ (h.2 id mine)⟩
  ok_same _ _ own h kept := lands_kept own h kept
  redo_same tables tables' own h kept := kept_redo tables tables' own h kept
  good_redo := tables_redo
  frame tables own h apart := kept_frame tables own h apart

def aggregate : Aggregate (discipline u caps) Uuid Part where
  part := Shop.part
  root := Write.root
  lock := .list
  act := Write.act
  part_same held kept := kept.parts _ held
  part_redo tables h := part_redo_root tables h
  part_other tables h other := part_redo_other tables h other

/-- A call ends with its list settled by the quotes of its first fetch. -/
def promise : Promise (discipline u caps) where
  inv := Totals
  leaves _ _ _ := True
  done call := (aggregate u caps).Holds call.op.listId (Part.Settled (call.quotes 0))
  cond _ _ _ _ := True
  ready _ _ := True
  clear _ _ := True
  refl _ _ := trivial
  trans _ _ := trivial
  done_rely right good' _ same _ h := by
    obtain ⟨held, mine, settled⟩ := h
    refine ⟨held, mine, ?_⟩
    rw [(aggregate u caps).part_same held (right.view_same good' same)]
    exact settled

section Commits
variable {u caps}

theorem totals_commit {call : Call} {c : Shop} {log : List Write} {locks : List Row}
    (totals : Totals c)
    (h : (discipline u caps).With call ((promise u caps).done call) c log locks) :
    Totals ((engine u caps).view c log) := by
  obtain ⟨right, held, mine, settled⟩ := h
  have tables := right.view
  intro l hl
  by_cases own : l.id = call.op.listId
  · have found : ((engine u caps).view c log).list? call.op.listId = some l :=
      (lookup_eq_some tables.lists).mpr ⟨hl, own⟩
    rw [own]
    exact settled.total l found
  · have same : ((engine u caps).view c log).part l.id = c.part l.id :=
      Aggregate.part_view_other (G := aggregate u caps) right.good right.replays mine own
    have found : ((engine u caps).view c log).list? l.id = some l :=
      (lookup_eq_some tables.lists).mpr ⟨hl, rfl⟩
    have items : ((engine u caps).view c log).itemsOf l.id = c.itemsOf l.id :=
      congrArg Part.items same
    rw [show ((engine u caps).view c log).list? l.id = c.list? l.id from
      congrArg Part.list same] at found
    rw [items]
    exact totals l (lookup_mem found).1

end Commits

end JitaCart.Concurrent.Estimates
