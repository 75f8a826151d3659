/- module: JitaCart/Concurrent/EstimateRuns
   source: backend/crates/api/src/lists/pricing.rs (recompute_estimates),
     backend/crates/api/src/lists/crud.rs (create, replace_markets),
     backend/crates/api/src/lists/items.rs (add_items, patch_item, delete_item)
   digest: Every list request leaves its list settled, whatever runs beside it. -/

import JitaCart.Concurrent.EstimateTotals

set_option autoImplicit false
set_option relaxedAutoImplicit false

namespace JitaCart.Concurrent.Estimates

open Schema Base.Table Base.Request Base.Strings Base.ReadCommitted Domain.Multibuy
open Markets.Types Markets.Pricing Api.Extract Api.Naming
open Api.Lists (NewLine newItem)
open Concurrent.Lists (Caps)

variable {u : CaseTables} {caps : Caps} {call : Call} {listId : Uuid}

def Part.Listed (a : Part) : Prop := a.list ≠ none

variable (u caps call) in
abbrev Does {α : Type} (A : Assertion Shop Write Row) (p : Program α)
    (B : α → Assertion Shop Write Row) : Prop :=
  (promise u caps).Keeps call A p B

variable (u caps) in
abbrev On (listId : Uuid) (F : Part → Prop) : Assertion Shop Write Row :=
  (aggregate u caps).Holds listId F

section Statements
variable {a : Part}

private theorem planned_list {s : Shop} (h : s.part listId = a) (listed : a.Listed) :
    ((s.list? listId).map fun l => Row.list l.id).toList = [.list listId] := by
  subst h
  obtain ⟨l, hl⟩ := Option.ne_none_iff_exists'.mp listed
  have hl : s.list? listId = some l := hl
  rw [hl, ← (lookup_mem hl).2]
  rfl

private theorem does_lockList :
    Does u caps call Aggregate.Unwritten (lockList listId) fun _ => On u caps listId Part.Listed := by
  refine Aggregate.keeps_enter fun s₁ s ws r good₁ good h => ?_
  split at h
  · cases h
  · rename_i there
    rw [not_or] at there
    simp only [Option.some.injEq, Prod.mk.injEq] at h
    obtain ⟨rfl, -⟩ := h
    refine ⟨?_, trivial, by simp, there.2⟩
    cases found : s₁.list? listId with
    | none => simp [found] at there
    | some l => simp [aggregate, (lookup_mem found).2]

private theorem acts_list {ws : List Write} (a : Part)
    (each : ∀ w ∈ ws, ∀ b : Part, (w.act b).list = b.list) :
    ((aggregate u caps).acts ws a).list = a.list := by
  induction ws generalizing a with
  | nil => rfl
  | cons w ws ih =>
    refine (ih (w.act a) fun x hx => each x (List.mem_cons_of_mem w hx)).trans ?_
    exact each w List.mem_cons_self a

/-- A statement that edits rows of the list, and leaves the list's own row as it is. -/
private theorem does_edit {α : Type} {wants : Shop → List Row}
    {stmt : Statement Shop Row → Shop → Option (List Write × α)}
    (h : ∀ s₁ s ws r, Tables s₁ → Tables s → s₁.part listId = s.part listId →
      stmt ⟨s₁, wants s₁⟩ s = some (ws, r) →
      (discipline u caps).Replays ws s ∧ ∀ w ∈ ws, w.root = listId ∧
        (∀ id, w.item = some id → .item id ∈ wants s₁) ∧
        ∀ b : Part, (w.act b).list = b.list) :
    Does u caps call (On u caps listId Part.Listed) (.statement wants stmt) fun _ =>
      On u caps listId Part.Listed := by
  refine Aggregate.keeps_fixed fun a listed => ?_
  refine Aggregate.keeps_under fun s₁ s ws r good₁ good part₁ part hstmt => ?_
  obtain ⟨replays, own⟩ := h s₁ s ws r good₁ good (part₁.trans part.symm) hstmt
  refine ⟨replays, fun w hw => ⟨(own w hw).1, fun held locked wanted => ?_⟩, ?_⟩
  · refine ⟨?_, fun id mine => wanted _ ((own w hw).2.1 id mine)⟩
    rw [(own w hw).1]
    exact locked
  · have kept := @acts_list u caps ws a fun w hw => (own w hw).2.2
    exact fun missing => listed (kept.symm.trans missing)

private theorem itemIn_eq_some {s : Shop} {itemId : Uuid} {it : PricedItem}
    (h : itemIn s listId itemId = some it) :
    s.item? itemId = some it ∧ it.id = itemId ∧ it.listId = listId := by
  obtain ⟨found, here⟩ := Option.filter_eq_some_iff.mp h
  exact ⟨found, (lookup_mem found).2, of_decide_eq_true here⟩

private theorem itemIn_part {s s' : Shop} {itemId : Uuid} {it : PricedItem} (tables' : Tables s')
    (same : s'.part listId = s.part listId) (h : itemIn s listId itemId = some it) :
    itemIn s' listId itemId = some it := by
  obtain ⟨found, id, here⟩ := itemIn_eq_some h
  have mem : it ∈ s.itemsOf listId :=
    List.mem_filter.mpr ⟨(lookup_mem found).1, decide_eq_true here⟩
  rw [← show s'.itemsOf listId = s.itemsOf listId from congrArg Part.items same] at mem
  refine Option.filter_eq_some_iff.mpr ⟨?_, decide_eq_true here⟩
  exact (lookup_eq_some tables'.items).mpr ⟨(List.mem_filter.mp mem).1, id⟩

private theorem does_lockItem {itemId : Uuid} :
    Does u caps call (On u caps listId Part.Listed) (lockItem listId itemId) fun _ =>
      On u caps listId Part.Listed := by
  refine does_edit fun s₁ s ws r good₁ good same h => ?_
  split at h
  · cases h
  · obtain ⟨it, -, h⟩ := Option.map_eq_some_iff.mp h
    obtain ⟨rfl, -⟩ := Prod.mk.inj h
    exact ⟨trivial, by simp⟩

private theorem does_assignItem {itemId : Uuid} {assign : PricedItem → PricedItem}
    (id : ∀ it, (assign it).id = it.id) (list : ∀ it, (assign it).listId = it.listId) :
    Does u caps call (On u caps listId Part.Listed) (assignItem listId itemId assign) fun _ =>
      On u caps listId Part.Listed := by
  refine does_edit fun s₁ s ws r good₁ good same h => ?_
  simp only [Option.some.injEq, Prod.mk.injEq] at h
  obtain ⟨rfl, -⟩ := h
  cases found : itemIn s listId itemId with
  | none => exact ⟨trivial, by simp⟩
  | some it =>
    obtain ⟨row, own, here⟩ := itemIn_eq_some found
    have before := itemIn_part good₁ same found
    simp only [Option.filter_some, before, Option.map_some, Option.toList_some]
    refine ⟨⟨⟨it, ?_, (list it).symm⟩, trivial⟩, ?_⟩
    · rw [id, own]
      exact row
    · intro w hw
      obtain rfl := List.mem_singleton.mp hw
      refine ⟨(list it).trans here, fun i hi => ?_, fun b => rfl⟩
      obtain rfl := Option.some.inj hi
      simp [id]

private theorem does_dropItem {itemId : Uuid} :
    Does u caps call (On u caps listId Part.Listed) (dropItem listId itemId) fun _ =>
      On u caps listId Part.Listed := by
  refine does_edit fun s₁ s ws r good₁ good same h => ?_
  split at h
  · cases h
  · obtain ⟨it, found, h⟩ := Option.map_eq_some_iff.mp h
    obtain ⟨rfl, -⟩ := Prod.mk.inj h
    obtain ⟨row, own, here⟩ := itemIn_eq_some found
    have before := itemIn_part good₁ same found
    refine ⟨⟨?_, trivial⟩, ?_⟩
    · subst own
      exact row
    · intro w hw
      obtain rfl := List.mem_singleton.mp hw
      refine ⟨here, fun i hi => ?_, fun b => rfl⟩
      obtain rfl := Option.some.inj hi
      simp [before]

private theorem does_insertItems {items : List ListItem} (mine : ∀ li ∈ items, li.listId = listId) :
    Does u caps call (On u caps listId Part.Listed) (insertItems listId items) fun _ =>
      On u caps listId Part.Listed := by
  refine does_edit fun s₁ s ws r good₁ good same h => ?_
  split at h
  · rename_i fits
    obtain ⟨keyed, fresh, there⟩ := fits
    simp only [Option.some.injEq, Prod.mk.injEq] at h
    obtain ⟨rfl, -⟩ := h
    refine ⟨Discipline.replays_of_pairwise good ?_ ?_, ?_⟩
    · intro w hw
      obtain ⟨li, hli, rfl⟩ := List.mem_map.mp hw
      refine ⟨?_, fresh li hli⟩
      show s.list? li.listId ≠ none
      rw [mine li hli]
      exact there
    · rw [List.pairwise_map]
      refine (List.pairwise_map.mp keyed).imp fun {x y} other s _ hx hy => ⟨hy.1, ?_⟩
      have hx : Lands (.insertItem ⟨x, none, none⟩) s := hx
      have item := item?_redo hx y.id
      rw [if_neg (by simpa [Write.item] using other)] at item
      exact item.trans hy.2
    · intro w hw
      obtain ⟨li, hli, rfl⟩ := List.mem_map.mp hw
      refine ⟨mine li hli, fun i hi => ?_, fun b => rfl⟩
      obtain rfl := Option.some.inj hi
      exact List.mem_map_of_mem hli
  · cases h

private theorem does_insertListMarket {m : ListMarket} (mine : m.listId = listId) :
    Does u caps call (On u caps listId Part.Listed) (insertListMarket m) fun _ =>
      On u caps listId Part.Listed := by
  refine does_edit fun s₁ s ws r good₁ good same h => ?_
  split at h
  · rename_i fits
    simp only [Option.some.injEq, Prod.mk.injEq] at h
    obtain ⟨rfl, -⟩ := h
    refine ⟨⟨fits.2, trivial⟩, fun w hw => ?_⟩
    obtain rfl := List.mem_singleton.mp hw
    exact ⟨mine, by simp [Write.item], fun b => rfl⟩
  · cases h

private theorem does_deleteListMarkets :
    Does u caps call (On u caps listId Part.Listed) (deleteListMarkets listId) fun _ =>
      On u caps listId Part.Listed := by
  refine does_edit fun s₁ s ws r good₁ good same h => ?_
  simp only [Option.some.injEq, Prod.mk.injEq] at h
  obtain ⟨rfl, -⟩ := h
  refine ⟨Discipline.replays_of_pairwise good ?_ ?_, ?_⟩
  · intro w hw
    obtain ⟨m, -, rfl⟩ := List.mem_map.mp hw
    trivial
  · rw [List.pairwise_map]
    exact List.pairwise_of_forall fun x y s _ _ _ => trivial
  · intro w hw
    obtain ⟨m, hm, rfl⟩ := List.mem_map.mp hw
    have here := (List.mem_filter.mp (List.mem_filter.mp hm).1).2
    exact ⟨of_decide_eq_true here, by simp [Write.item], fun b => rfl⟩

private theorem does_checkItemsQuota {new : Nat} {cap : Int} :
    Does u caps call (On u caps listId Part.Listed) (checkItemsQuota listId new cap) fun _ =>
      On u caps listId Part.Listed := by
  refine does_edit fun s₁ s ws r good₁ good same h => ?_
  obtain ⟨_, -, h⟩ := Option.map_eq_some_iff.mp h
  obtain ⟨rfl, -⟩ := Prod.mk.inj h
  exact ⟨trivial, by simp⟩

/-- The list's `updated_at` is what the statement returned. -/
def Part.Updated (at_ : Timestamp) (a : Part) : Prop := ∃ l, a.list = some l ∧ l.updatedAt = at_

private theorem does_touchList {now : Timestamp} :
    Does u caps call (On u caps listId Part.Listed) (touchList listId now) fun at_ =>
      On u caps listId (Part.Updated at_) := by
  refine Aggregate.keeps_fixed fun a listed => ?_
  refine Aggregate.keeps_under fun s₁ s ws r good₁ good part₁ part h => ?_
  split at h
  · cases h
  · obtain ⟨l, found, h⟩ := Option.map_eq_some_iff.mp h
    obtain ⟨rfl, rfl⟩ := Prod.mk.inj h
    have id : l.id = listId := (lookup_mem found).2
    refine ⟨⟨?_, trivial⟩, fun w hw => ?_, ⟨_, rfl, rfl⟩⟩
    · show s.list? l.id ≠ none
      rw [id, found]
      exact Option.some_ne_none l
    · obtain rfl := List.mem_singleton.mp hw
      refine ⟨id, fun held locked _ => ⟨?_, by simp [Write.item]⟩⟩
      show Row.list l.id ∈ held
      rw [id]
      exact locked

end Statements

section Recompute
variable {a : Part} {markets : List Market} {quotes : Quotes Cents}

def reprice (markets : List Market) (quotes : Quotes Cents) (it : PricedItem) : PricedItem :=
  (estimate markets quotes (it.id, it.typeId)).assign it

/-- The estimates that are computed for a list of items. -/
def estimates (markets : List Market) (quotes : Quotes Cents) (items : List PricedItem) :
    List Estimate :=
  (items.map fun it => (it.id, it.typeId)).map (estimate markets quotes)

private theorem lookup_estimates {items : List PricedItem} (keyed : Keyed (fun it => it.id) items)
    {it : PricedItem} (hit : it ∈ items) :
    lookup Estimate.itemId it.id (estimates markets quotes items) =
      some (estimate markets quotes (it.id, it.typeId)) := by
  have found : lookup (fun it : PricedItem => it.id) it.id items = some it :=
    (lookup_eq_some keyed).mpr ⟨hit, rfl⟩
  unfold estimates
  rw [List.map_map]
  refine (@lookup_map _ _ _ _ (fun it : PricedItem => it.id) it.id items _ Estimate.itemId
    fun _ => rfl).trans ?_
  rw [found]
  rfl

private theorem lookup_estimates_of_not_mem {items : List PricedItem} {id : Uuid}
    (other : ∀ it ∈ items, it.id ≠ id) :
    lookup Estimate.itemId id (estimates markets quotes items) = none := by
  rw [lookup_eq_none]
  intro e he
  obtain ⟨x, hx, rfl⟩ := List.mem_map.mp he
  obtain ⟨it, hit, rfl⟩ := List.mem_map.mp hx
  exact other it hit

private theorem foldl_overwrite {α κ : Type} [DecidableEq κ] {key : α → κ} {g : α → α}
    (same : ∀ r, key (g r) = key r) {t : List α} (keyed : Keyed key t) :
    (t.map g).foldl (fun t r => overwrite key r t) t = t.map g := by
  suffices general : ∀ xs ys : List α, Keyed key (xs ++ ys) →
      (ys.map g).foldl (fun t r => overwrite key r t) (xs.map g ++ ys) = (xs ++ ys).map g from
    general [] t keyed
  intro xs ys
  induction ys generalizing xs with
  | nil => simp
  | cons y ys ih =>
    intro keyed
    have apart : ∀ r ∈ xs ++ ys, key r ≠ key y := by
      unfold Keyed at keyed
      rw [List.map_append, List.map_cons, List.nodup_middle, ← List.map_append] at keyed
      exact fun r hr own => (List.nodup_cons.mp keyed).1 (own ▸ List.mem_map_of_mem hr)
    have here : overwrite key (g y) (xs.map g ++ y :: ys) = xs.map g ++ g y :: ys := by
      have left : ∀ r ∈ xs.map g, decide (key r = key (g y)) = false := by
        intro r hr
        obtain ⟨x, hx, rfl⟩ := List.mem_map.mp hr
        rw [same, same]
        exact decide_eq_false (apart x (List.mem_append_left _ hx))
      have right : ∀ r ∈ ys, decide (key r = key (g y)) = false := by
        intro r hr
        rw [same]
        exact decide_eq_false (apart r (List.mem_append_right _ hr))
      unfold overwrite
      rw [show updateWhere (fun r => decide (key r = key (g y))) (fun _ => g y) (xs.map g ++ y :: ys)
        = updateWhere (fun r => decide (key r = key (g y))) (fun _ => g y) (xs.map g) ++
          (if decide (key y = key (g y)) = true then g y else y) ::
          updateWhere (fun r => decide (key r = key (g y))) (fun _ => g y) ys by
            simp [updateWhere], updateWhere_eq_self left, updateWhere_eq_self right,
        if_pos (decide_eq_true (same y).symm)]
    have rest := ih (xs ++ [y]) (by simpa using keyed)
    rw [List.map_cons, List.foldl_cons, here]
    simpa using rest

private theorem items_keyed {s : Shop} (tables : Tables s) (h : s.part listId = a) :
    Keyed (fun it => it.id) a.items := by
  subst h
  exact tables.items.filter _

private theorem rows_updateEstimates {s₁ s : Shop} (tables : Tables s) (part₁ : s₁.part listId = a)
    (part : s.part listId = a) : (s.items.filterMap fun it =>
      if .item it.id ∈ ((s₁.items.filter fun it =>
          (lookup Estimate.itemId it.id (estimates markets quotes a.items)).isSome).map fun it =>
            Row.item it.id) then
        (lookup Estimate.itemId it.id (estimates markets quotes a.items)).map fun e => e.assign it
      else none) = a.items.map (reprice markets quotes) := by
  have mine : s.itemsOf listId = a.items := congrArg Part.items part
  have mine₁ : s₁.itemsOf listId = a.items := congrArg Part.items part₁
  have keyed := items_keyed tables part
  have image : a.items.map (reprice markets quotes) = s.items.filterMap fun it =>
      if decide (it.listId = listId) = true then some (reprice markets quotes it) else none := by
    rw [← mine, Shop.itemsOf, ← List.filterMap_eq_map', List.filterMap_filter]
  rw [image]
  refine List.filterMap_congr fun it hit => ?_
  by_cases here : it.listId = listId
  · have mem : it ∈ a.items := mine ▸ List.mem_filter.mpr ⟨hit, decide_eq_true here⟩
    have found := @lookup_estimates markets quotes _ keyed it mem
    have old : it ∈ s₁.items := (List.mem_filter.mp (mine₁.symm ▸ mem)).1
    have planned : Row.item it.id ∈ ((s₁.items.filter fun it =>
        (lookup Estimate.itemId it.id (estimates markets quotes a.items)).isSome).map fun it =>
          Row.item it.id) :=
      List.mem_map.mpr ⟨it, List.mem_filter.mpr ⟨old, by rw [found]; rfl⟩, rfl⟩
    rw [if_pos planned, found, if_pos (decide_eq_true here)]
    rfl
  · have none_found : lookup Estimate.itemId it.id (estimates markets quotes a.items) = none := by
      refine lookup_estimates_of_not_mem fun r hr own => here ?_
      have hr : r ∈ s.itemsOf listId := mine.symm ▸ hr
      obtain ⟨mem, there⟩ := List.mem_filter.mp hr
      obtain rfl := tables.items.eq_of_key mem hit own
      exact of_decide_eq_true there
    rw [none_found, Option.map_none, ite_self, decide_eq_false here]
    rfl

/-- The items of the list, each with its new estimate. -/
def Part.repriced (markets : List Market) (quotes : Quotes Cents) (a : Part) : Part :=
  { a with items := a.items.map (reprice markets quotes) }

private theorem acts_updateItems (keyed : Keyed (fun it => it.id) a.items) :
    (aggregate u caps).acts ((a.items.map (reprice markets quotes)).map .updateItem) a =
      a.repriced markets quotes := by
  have general : ∀ (rows items : List PricedItem),
      (aggregate u caps).acts (rows.map .updateItem) { a with items := items } =
        { a with items := rows.foldl (fun t r => overwrite (fun it => it.id) r t) items } := by
    intro rows
    induction rows with
    | nil => exact fun _ => rfl
    | cons r rows ih => exact fun items => ih _
  refine (general _ a.items).trans ?_
  rw [foldl_overwrite (g := reprice markets quotes) (fun _ => rfl) keyed]
  rfl

/-- The rows that the update returns, by the list's items. -/
def returned (a : Part) : List (Uuid × Int) := a.items.map fun it => (it.id, it.qtyRequested)

private theorem does_updateEstimates :
    Does u caps call (On u caps listId (· = a)) (updateEstimates (estimates markets quotes a.items))
      fun updated => On u caps listId fun b => b = a.repriced markets quotes ∧
        updated = returned a := by
  refine Aggregate.keeps_under fun s₁ s ws r good₁ good part₁ part h => ?_
  simp only [Option.some.injEq, Prod.mk.injEq] at h
  rw [rows_updateEstimates good part₁ part] at h
  obtain ⟨rfl, rfl⟩ := h
  have mine : s.itemsOf listId = a.items := congrArg Part.items part
  have mine₁ : s₁.itemsOf listId = a.items := congrArg Part.items part₁
  have keyed := items_keyed good part
  refine ⟨Discipline.replays_of_pairwise good ?_ ?_, ?_, acts_updateItems keyed, ?_⟩
  · intro w hw
    obtain ⟨x, hx, rfl⟩ := List.mem_map.mp hw
    obtain ⟨it, hit, rfl⟩ := List.mem_map.mp hx
    have mem : it ∈ s.items := (List.mem_filter.mp (mine.symm ▸ hit)).1
    exact ⟨it, (lookup_eq_some good.items).mpr ⟨mem, rfl⟩, rfl⟩
  · rw [List.pairwise_map]
    refine List.pairwise_of_forall fun x y s _ hx hy => ?_
    have hx : Lands (.updateItem x) s := hx
    have item : (redo (.updateItem x) s).item? y.id =
        if some x.id = some y.id then some x else s.item? y.id := item?_redo hx y.id
    obtain ⟨r, hr, same⟩ := hx
    obtain ⟨r', hr', same'⟩ := hy
    by_cases own : x.id = y.id
    · rw [own] at hr
      obtain rfl := Option.some.inj (hr.symm.trans hr')
      rw [if_pos (congrArg some own)] at item
      exact ⟨x, item, same.symm.trans same'⟩
    · rw [if_neg fun h => own (Option.some.inj h)] at item
      exact ⟨r', item.trans hr', same'⟩
  · intro w hw
    obtain ⟨x, hx, rfl⟩ := List.mem_map.mp hw
    obtain ⟨it, hit, rfl⟩ := List.mem_map.mp hx
    have mem : it ∈ s.itemsOf listId := mine.symm ▸ hit
    have here : it.listId = listId := of_decide_eq_true (List.mem_filter.mp mem).2
    refine ⟨here, fun held locked wanted => ⟨?_, fun i hi => ?_⟩⟩
    · show Row.list it.listId ∈ held
      rw [here]
      exact locked
    · obtain rfl := Option.some.inj hi
      refine wanted _ (List.mem_map.mpr ⟨it, List.mem_filter.mpr ⟨?_, ?_⟩, rfl⟩)
      · exact (List.mem_filter.mp (mine₁.symm ▸ hit)).1
      · rw [lookup_estimates keyed hit]
        rfl
  · rw [List.map_map]
    rfl

private theorem addEstimate_eq (total : Cents) (it : PricedItem) :
    addEstimate total it.estUnitPriceIsk it.qtyRequested = total + it.value := by
  unfold addEstimate PricedItem.value
  cases it.estUnitPriceIsk <;> simp

private theorem foldTotal_eq (keyed : Keyed (fun it => it.id) a.items) :
    foldTotal (estimates markets quotes a.items) (returned a) =
      ((a.repriced markets quotes).items.map PricedItem.value).sum := by
  have general : ∀ (items : List PricedItem) (total : Cents), (∀ it ∈ items, it ∈ a.items) →
      (items.map fun it => (it.id, it.qtyRequested)).foldl (fun total r =>
        (lookup Estimate.itemId r.1 (estimates markets quotes a.items)).elim total fun e =>
          addEstimate total e.estUnit r.2) total =
      total + ((items.map (reprice markets quotes)).map PricedItem.value).sum := by
    intro items
    induction items with
    | nil => simp
    | cons it items ih =>
      intro total mine
      have step := addEstimate_eq total (reprice markets quotes it)
      rw [List.map_cons, List.foldl_cons, lookup_estimates keyed (mine it List.mem_cons_self)]
      refine (ih _ fun x hx => mine x (List.mem_cons_of_mem it hx)).trans ?_
      rw [List.map_cons, List.map_cons, List.sum_cons, ← add_assoc, ← step]
      rfl
  refine (List.foldl_ext _ _ 0 fun total r _ => ?_).trans
    ((general a.items 0 fun it hit => hit).trans ?_)
  · cases lookup Estimate.itemId r.1 (estimates markets quotes a.items) <;> rfl
  · rw [zero_add]
    rfl

private theorem does_storeTotal {total : Cents} {now : Timestamp} (listed : a.Listed) :
    Does u caps call (On u caps listId (· = a)) (storeTotal listId total now) fun _ =>
      On u caps listId fun b => ∃ l, b = { a with list := some l } ∧ l.totalEstimateIsk = total := by
  refine Aggregate.keeps_under fun s₁ s ws r good₁ good part₁ part h => ?_
  simp only [Option.some.injEq, Prod.mk.injEq, planned_list part₁ listed] at h
  obtain ⟨rfl, -⟩ := h
  obtain ⟨l, hl⟩ := Option.ne_none_iff_exists'.mp listed
  have found : s.list? listId = some l := (congrArg Part.list part).trans hl
  have id : l.id = listId := (lookup_mem found).2
  simp only [found, Option.filter_some, ne_eq, List.cons_ne_self, not_false_eq_true, decide_true,
    if_true, Option.map_some, Option.toList_some]
  refine ⟨⟨?_, trivial⟩, fun w hw => ?_, ⟨_, rfl, rfl⟩⟩
  · show s.list? l.id ≠ none
    rw [id, found]
    exact Option.some_ne_none l
  · obtain rfl := List.mem_singleton.mp hw
    refine ⟨id, fun held locked _ => ⟨?_, by simp [Write.item]⟩⟩
    show Row.list l.id ∈ held
    rw [id]
    exact locked

private theorem does_lockUpdatedAt {at_ : Timestamp} (updated : a.Updated at_) :
    Does u caps call (On u caps listId (· = a)) (lockUpdatedAt listId) fun current =>
      On u caps listId fun b => b = a ∧ current = at_ := by
  refine Aggregate.keeps_under fun s₁ s ws r good₁ good part₁ part h => ?_
  split at h
  · cases h
  · obtain ⟨l, found, h⟩ := Option.map_eq_some_iff.mp h
    obtain ⟨rfl, rfl⟩ := Prod.mk.inj h
    obtain ⟨l', hl', rfl⟩ := updated
    have same : some l = some l' := found.symm.trans ((congrArg Part.list part).trans hl')
    exact ⟨trivial, by simp, rfl, congrArg _ (Option.some.inj same)⟩

private theorem joinedMarkets_ids {s : Shop} (tables : Tables s) (part : s.part listId = a)
    (id : Uuid) :
    id ∈ a.markets.map ListMarket.marketId ↔ id ∈ (joinedMarkets s listId).map Market.id := by
  subst part
  simp only [List.mem_map, joinedMarkets, List.mem_filterMap]
  constructor
  · rintro ⟨lm, hlm, rfl⟩
    obtain ⟨m, hm⟩ := Option.ne_none_iff_exists'.mp
      (tables.markets lm (List.mem_filter.mp hlm).1)
    exact ⟨m, ⟨lm, hlm, hm⟩, (lookup_mem hm).2⟩
  · rintro ⟨m, ⟨lm, hlm, hm⟩, rfl⟩
    exact ⟨lm, hlm, (lookup_mem hm).2.symm⟩

private theorem settled_repriced {typeIds : List Int} {l : PricedList}
    (types : ∀ it ∈ a.items, it.typeId ∈ typeIds)
    (ids : ∀ id, id ∈ a.markets.map ListMarket.marketId ↔ id ∈ markets.map Market.id)
    (total : l.totalEstimateIsk =
      ((a.repriced markets (fetchPrices quotes typeIds)).items.map PricedItem.value).sum) :
    Part.Settled quotes { a.repriced markets (fetchPrices quotes typeIds) with list := some l } := by
  refine ⟨fun x hx => ?_, fun x hx => ?_⟩
  · obtain rfl := Option.some.inj hx
    exact total
  · obtain ⟨it, hit, rfl⟩ := List.mem_map.mp hx
    have cheapest := cheapest_pickCheapest markets (fetchPrices quotes typeIds) it.typeId
    refine cheapest.congr ids fun id => ?_
    exact (if_pos (types it hit)).symm

/-- The last statement stores the sum of what the one before it wrote. -/
private theorem does_storeTotal_repriced {typeIds : List Int} {now : Timestamp}
    {updated : List (Uuid × Int)} (listed : a.Listed) (keyed : Keyed (fun it => it.id) a.items)
    (types : ∀ it ∈ a.items, it.typeId ∈ typeIds)
    (ids : ∀ id, id ∈ a.markets.map ListMarket.marketId ↔ id ∈ markets.map Market.id) :
    Does u caps call
      (On u caps listId fun b =>
        b = a.repriced markets (fetchPrices quotes typeIds) ∧ updated = returned a)
      (storeTotal listId
        (foldTotal (estimates markets (fetchPrices quotes typeIds) a.items) updated) now)
      fun _ => On u caps listId (Part.Settled quotes) := by
  refine Aggregate.keeps_fixed fun b written => ?_
  obtain ⟨rfl, rfl⟩ := written
  have stored := fun total => @does_storeTotal u caps call listId
    (a.repriced markets (fetchPrices quotes typeIds)) total now listed
  refine (stored _).imp (fun _ _ _ _ h => h) fun _ _ _ _ _ h => ⟨h.1, h.2.imp ?_⟩
  rintro _ ⟨l, rfl, total⟩
  exact settled_repriced types ids (total.trans (foldTotal_eq keyed))

/-- No other request can have moved `updated_at`, so the first round settles the list. -/
private theorem does_recompute {now at_ : Timestamp} {later : List (Quotes Cents)} :
    Does u caps call (On u caps listId (Part.Updated at_))
      (recomputeEstimates listId now (quotes :: later) at_) fun _ =>
      On u caps listId (Part.Settled quotes) := by
  refine Aggregate.keeps_fixed fun a updated => ?_
  have listed : a.Listed := by
    obtain ⟨l, hl, -⟩ := updated
    exact fun missing => Option.some_ne_none l (hl.symm.trans missing)
  unfold recomputeEstimates
  refine (Aggregate.keeps_read (F := fun _ => True) fun _ _ _ _ _ => trivial).bind fun _ => ?_
  refine Aggregate.keeps_fixed fun b read => ?_
  obtain rfl := read.1.symm
  refine (Aggregate.keeps_read (F := fun markets : List Market =>
    ∀ id, id ∈ a.markets.map ListMarket.marketId ↔ id ∈ markets.map Market.id) ?_).bind
    fun markets => ?_
  · intro s markets tables part h
    obtain rfl := Except.ok.inj h
    exact joinedMarkets_ids tables part
  refine Aggregate.keeps_fixed fun b read => ?_
  obtain ⟨same, ids⟩ := read
  obtain rfl := same.symm
  refine (Aggregate.keeps_read (F := fun items => items = (a.items.map fun it =>
    (it.id, it.typeId)) ∧ Keyed (fun it => it.id) a.items) ?_).bind fun items => ?_
  · intro s items tables part h
    obtain rfl := Except.ok.inj h
    refine ⟨?_, items_keyed tables part⟩
    exact congrArg (List.map fun it : PricedItem => (it.id, it.typeId)) (congrArg Part.items part)
  refine Aggregate.keeps_fixed fun b read => ?_
  obtain ⟨same, rfl, keyed⟩ := read
  obtain rfl := same.symm
  refine (does_lockUpdatedAt updated).bind fun current => ?_
  refine Aggregate.keeps_fixed fun b read => ?_
  obtain ⟨same, rfl⟩ := read
  obtain rfl := same.symm
  rw [if_neg (not_not.mpr rfl)]
  have types : ∀ it ∈ a.items,
      it.typeId ∈ (a.items.map fun it => (it.id, it.typeId)).map Prod.snd := by
    intro it hit
    exact List.mem_map_of_mem (f := Prod.snd) (List.mem_map_of_mem hit)
  have stores := fun updated => @does_storeTotal_repriced u caps call listId a markets quotes _ now
    updated listed keyed types ids
  by_cases empty : (a.items.map fun it => (it.id, it.typeId)) = []
  · have none_left := List.map_eq_nil_iff.mp empty
    simp only [if_pos empty]
    refine (triple_pure fun c log locks _ h => ⟨h.1, h.2.imp ?_⟩).bind stores
    rintro b rfl
    refine ⟨?_, by simp [returned, none_left]⟩
    unfold Part.repriced
    rw [none_left, List.map_nil, ← none_left]
  · simp only [if_neg empty]
    exact does_updateEstimates.bind stores

end Recompute

section Requests

private theorem does_finish :
    Does u caps call (On u caps listId Part.Listed)
      (touchList listId call.now >>= call.recompute listId) fun _ =>
      On u caps listId (Part.Settled (call.quotes 0)) :=
  does_touchList.bind fun _ => does_recompute

private theorem does_addItems {userId : Uuid} {body : AddItemsBody} {itemIds : List Uuid} :
    Does u caps call Aggregate.Unwritten (addItems u caps call userId listId body itemIds) fun _ =>
      On u caps listId (Part.Settled (call.quotes 0)) := by
  refine Aggregate.keeps_unwritten.bind fun cur => triple_checked fun _ _ => ?_
  refine triple_checked fun lines _ => triple_checked fun _ _ => ?_
  refine triple_checked fun r _ => triple_checked fun _ _ => ?_
  refine does_lockList.bind fun _ => does_checkItemsQuota.bind fun _ => ?_
  refine triple_checked fun rows _ => triple_checked fun _ _ => ?_
  refine (does_insertItems fun li hli => ?_).bind fun _ => does_finish
  obtain ⟨id, -, n, -, rfl⟩ := Api.Lists.mem_newItems hli
  rfl

private theorem does_assignGiven {α : Type} {itemId : Uuid} {assign : α → PricedItem → PricedItem}
    (id : ∀ a it, (assign a it).id = it.id) (list : ∀ a it, (assign a it).listId = it.listId)
    (given : Option α) :
    Does u caps call (On u caps listId Part.Listed) (assignGiven listId itemId assign given)
      fun _ => On u caps listId Part.Listed := by
  cases given with
  | none => exact triple_pure fun _ _ _ _ h => h
  | some a => exact does_assignItem (id a) (list a)

private theorem does_patchItem {userId itemId : Uuid} {body : PatchItemBody} :
    Does u caps call Aggregate.Unwritten (patchItem u call userId listId itemId body) fun _ =>
      On u caps listId (Part.Settled (call.quotes 0)) := by
  refine Aggregate.keeps_unwritten.bind fun cur => triple_checked fun _ _ => ?_
  refine triple_checked fun _ _ => triple_checked fun type _ => triple_checked fun _ _ => ?_
  refine does_lockList.bind fun _ => does_lockItem.bind fun status => ?_
  refine triple_checked fun _ _ => ?_
  have qty : Does u caps call (On u caps listId Part.Listed)
      (assignGiven listId itemId withQty body.qtyRequested) fun _ => On u caps listId Part.Listed :=
    @does_assignGiven _ _ _ _ _ _ withQty (fun _ _ => rfl) (fun _ _ => rfl) _
  have name : Does u caps call (On u caps listId Part.Listed)
      (assignGiven listId itemId withType type) fun _ => On u caps listId Part.Listed :=
    @does_assignGiven _ _ _ _ _ _ withType (fun _ _ => rfl) (fun _ _ => rfl) _
  exact qty.bind fun _ => name.bind fun _ => does_finish

private theorem does_deleteItem {userId itemId : Uuid} :
    Does u caps call Aggregate.Unwritten (deleteItem call userId listId itemId) fun _ =>
      On u caps listId (Part.Settled (call.quotes 0)) := by
  refine Aggregate.keeps_unwritten.bind fun cur => triple_checked fun _ _ => ?_
  refine does_lockList.bind fun _ => does_lockItem.bind fun status => ?_
  exact triple_checked fun _ _ => does_dropItem.bind fun _ => does_finish

private theorem does_replaceMarkets {userId : Uuid} {body : ReplaceMarketsBody} :
    Does u caps call Aggregate.Unwritten (replaceMarkets call userId listId body) fun _ =>
      On u caps listId (Part.Settled (call.quotes 0)) := by
  refine Aggregate.keeps_unwritten.bind fun cur => triple_checked fun _ _ => ?_
  refine triple_checked fun _ _ => triple_checked fun _ _ => ?_
  refine Aggregate.keeps_unwritten.bind fun markets => Aggregate.keeps_unwritten.bind fun _ => ?_
  refine does_lockList.bind fun _ => does_deleteListMarkets.bind fun _ => ?_
  have insert : ∀ m : Market, Does u caps call (On u caps listId Part.Listed)
      (insertListMarket ⟨listId, m.id, decide (m.id = body.primaryMarketId)⟩) fun _ =>
      On u caps listId Part.Listed := fun m => does_insertListMarket rfl
  exact (triple_forM insert markets).bind fun _ => does_finish

private theorem does_insertList {userId groupId : Uuid} {total : Cents} {now : Timestamp} :
    Does u caps call Aggregate.Unwritten (insertList userId groupId listId total now) fun _ =>
      On u caps listId fun b => ∃ l, b = ⟨some l, [], []⟩ ∧ l.totalEstimateIsk = total := by
  refine Aggregate.keeps_enter fun s₁ s ws r good₁ good h => ?_
  obtain ⟨g, -, h⟩ := Option.bind_eq_some_iff.mp h
  split at h
  · rename_i fresh
    simp only [Option.some.injEq, Prod.mk.injEq] at h
    obtain ⟨rfl, -⟩ := h
    have items : s.itemsOf listId = [] := by
      refine List.filter_eq_nil_iff.mpr fun it hit here => ?_
      exact good.itemLists it hit (of_decide_eq_true here ▸ fresh)
    have markets : s.marketsOf listId = [] := by
      refine List.filter_eq_nil_iff.mpr fun m hm here => ?_
      exact good.marketLists m hm (of_decide_eq_true here ▸ fresh)
    refine ⟨List.mem_singleton.mpr rfl, ⟨fresh, trivial⟩, fun w hw => ?_,
      ⟨⟨⟨listId, groupId, userId, .open, g.defaultTipPct, none⟩, total, now⟩, ?_, rfl⟩⟩
    · obtain rfl := List.mem_singleton.mp hw
      exact ⟨rfl, fun held wanted => ⟨wanted _ (List.mem_singleton.mpr rfl), by simp [Write.item]⟩⟩
    · show Part.mk _ (s.itemsOf listId) (s.marketsOf listId) = _
      rw [items, markets]
  · cases h

private theorem does_appendMarkets {a : Part} {markets : List Market} {primary : Uuid} :
    Does u caps call (On u caps listId (· = a))
      (markets.forM fun m => insertListMarket ⟨listId, m.id, decide (m.id = primary)⟩) fun _ =>
      On u caps listId (· = { a with
        markets := a.markets ++ markets.map fun m => ⟨listId, m.id, decide (m.id = primary)⟩ }) := by
  induction markets generalizing a with
  | nil =>
    refine triple_pure fun c log locks _ h => ⟨h.1, h.2.imp ?_⟩
    rintro b rfl
    simp
  | cons m ms ih =>
    have first : Does u caps call (On u caps listId (· = a))
        (insertListMarket ⟨listId, m.id, decide (m.id = primary)⟩) fun _ =>
        On u caps listId (· = { a with
          markets := a.markets ++ [⟨listId, m.id, decide (m.id = primary)⟩] }) := by
      refine Aggregate.keeps_under fun s₁ s ws r good₁ good part₁ part h => ?_
      split at h
      · rename_i fits
        simp only [Option.some.injEq, Prod.mk.injEq] at h
        obtain ⟨rfl, -⟩ := h
        refine ⟨⟨fits.2, trivial⟩, fun w hw => ?_, rfl⟩
        obtain rfl := List.mem_singleton.mp hw
        exact ⟨rfl, fun held locked _ => ⟨locked, by simp [Write.item]⟩⟩
      · cases h
    refine (first.bind fun _ => ih).imp (fun _ _ _ _ h => h) fun _ _ _ _ _ h => ⟨h.1, h.2.imp ?_⟩
    rintro b rfl
    simp

private theorem does_appendItems {a : Part} {items : List PricedItem}
    (mine : ∀ it ∈ items, it.listId = listId) :
    Does u caps call (On u caps listId (· = a)) (items.forM insertItem) fun _ =>
      On u caps listId (· = { a with items := a.items ++ items }) := by
  induction items generalizing a with
  | nil =>
    refine triple_pure fun c log locks _ h => ⟨h.1, h.2.imp ?_⟩
    rintro b rfl
    simp
  | cons it items ih =>
    have here := mine it List.mem_cons_self
    have first : Does u caps call (On u caps listId (· = a)) (insertItem it) fun _ =>
        On u caps listId (· = { a with items := a.items ++ [it] }) := by
      refine Aggregate.keeps_under fun s₁ s ws r good₁ good part₁ part h => ?_
      split at h
      · rename_i fits
        simp only [Option.some.injEq, Prod.mk.injEq] at h
        obtain ⟨rfl, -⟩ := h
        refine ⟨⟨⟨fits.2, fits.1⟩, trivial⟩, fun w hw => ?_, rfl⟩
        obtain rfl := List.mem_singleton.mp hw
        refine ⟨here, fun held locked wanted => ⟨?_, fun i hi => ?_⟩⟩
        · show Row.list it.listId ∈ held
          rw [here]
          exact locked
        · obtain rfl := Option.some.inj hi
          exact wanted _ (List.mem_singleton.mpr rfl)
      · cases h
    have rest := fun a => ih (a := a) fun x hx => mine x (List.mem_cons_of_mem it hx)
    refine (first.bind fun _ => rest _).imp (fun _ _ _ _ h => h)
      fun _ _ _ _ _ h => ⟨h.1, h.2.imp ?_⟩
    rintro b rfl
    simp

private theorem createTotal_eq (items : List PricedItem) :
    createTotal items = (items.map PricedItem.value).sum := by
  have general : ∀ total : Cents,
      items.foldl (fun total it => addEstimate total it.estUnitPriceIsk it.qtyRequested) total =
        total + (items.map PricedItem.value).sum := by
    induction items with
    | nil => simp
    | cons it items ih =>
      intro total
      rw [List.foldl_cons, ih, addEstimate_eq, List.map_cons, List.sum_cons, add_assoc]
  exact (general 0).trans (zero_add _)

private theorem does_create {userId groupId : Uuid} {body : CreateBody} {itemIds : List Uuid} :
    Does u caps call Aggregate.Unwritten (create u caps call userId groupId body listId itemIds)
      fun _ => On u caps listId (Part.Settled (call.quotes 0)) := by
  refine Aggregate.keeps_unwritten.bind fun role => triple_checked fun _ _ => ?_
  refine triple_checked fun _ _ => triple_checked fun _ _ => ?_
  refine triple_checked fun lines _ => triple_checked fun _ _ => triple_checked fun _ _ => ?_
  refine Aggregate.keeps_unwritten.bind fun _ => Aggregate.keeps_unwritten.bind fun markets => ?_
  refine Aggregate.keeps_unwritten.bind fun _ => triple_checked fun r _ => ?_
  refine triple_checked fun _ _ => triple_checked fun rows _ => triple_checked fun _ _ => ?_
  refine does_insertList.bind fun _ => Aggregate.keeps_fixed fun a new => ?_
  refine does_appendMarkets.bind fun _ => ?_
  have mine : ∀ li ∈ List.zipWith (newItem listId userId) itemIds rows,
      li.listId = listId ∧ li.typeId ∈ rows.map NewLine.typeId := by
    intro li hli
    obtain ⟨id, -, n, hn, rfl⟩ := Api.Lists.mem_newItems hli
    exact ⟨rfl, List.mem_map_of_mem hn⟩
  refine (does_appendItems fun it hit => ?_).imp (fun _ _ _ _ h => h)
    fun _ _ _ _ _ h => ⟨h.1, h.2.imp ?_⟩
  · obtain ⟨li, hli, rfl⟩ := List.mem_map.mp hit
    exact (mine li hli).1
  rintro b rfl
  obtain ⟨l, rfl, total⟩ := new
  refine ⟨fun x hx => ?_, fun x hx => ?_⟩
  · obtain rfl := Option.some.inj hx
    exact total.trans (createTotal_eq _)
  · obtain ⟨li, hli, rfl⟩ := List.mem_map.mp hx
    have cheapest := cheapest_pickCheapest markets
      (fetchPrices (call.quotes 0) (rows.map NewLine.typeId)) li.typeId
    refine cheapest.congr (fun id => ?_) fun id => (if_pos (mine li hli).2).symm
    simp

private theorem does_program :
    Does u caps call Aggregate.Unwritten (program u caps call) fun _ =>
      On u caps call.op.listId (Part.Settled (call.quotes 0)) := by
  unfold program
  cases call.op with
  | create userId groupId body listId itemIds => exact does_create
  | addItems userId listId body itemIds => exact does_addItems
  | patchItem userId listId itemId body => exact does_patchItem
  | deleteItem userId listId itemId => exact does_deleteItem
  | replaceMarkets userId listId body => exact does_replaceMarkets

end Requests

variable (u caps) in
private theorem sound : Sound (engine u caps) (promise u caps).terms fun _ => True := by
  refine (promise u caps).sound (fun call _ => ?_) fun call c log locks totals h _ => ?_
  · refine does_program.imp (fun c log locks good h => ?_) fun _ _ _ _ _ h => h
    obtain ⟨rfl, rfl⟩ := h
    exact ⟨Discipline.Right.nil good.1, rfl⟩
  · exact ⟨totals_commit totals h, fun _ _ => trivial⟩

/-- In every interleaving the total of each list is the sum over its items, and a request that
commits leaves the items of its list with the least quotes of its fetch. -/
theorem estimates_follow_items (u : CaseTables) (caps : Caps) {c : Shop} (tables : Tables c)
    (totals : Totals c) (as : List (Action Row Call)) :
    Totals (run (step (engine u caps)) ⟨c, []⟩ as).committed ∧
      ∀ id s', step (engine u caps) (.commit id) (run (step (engine u caps)) ⟨c, []⟩ as) = .ok s' →
        ∃ t ∈ (run (step (engine u caps)) ⟨c, []⟩ as).active, t.id = id ∧
          PricedBy (t.request.quotes 0) s'.committed t.request.op.listId := by
  have allowed : Meets (step (engine u caps)) (Allowed (promise u caps).terms fun _ => True)
      ⟨c, []⟩ as := by
    refine meets_of_always (fun s a => ?_) _ _
    cases a with
    | begin id call => trivial
    | start id => trivial
    | acquire id r => trivial
    | exec id => exact fun _ _ _ _ _ _ => trivial
    | commit id => exact fun _ _ _ _ => ⟨trivial, fun _ _ _ => trivial⟩
    | abort id => trivial
  have ok := Promise.kept_run (sound u caps) tables totals allowed
  refine ⟨ok.good.2, fun id s' h => ?_⟩
  rcases step_ok h with ⟨_, _, h, -⟩ | ⟨_, _, _, h, -⟩ | ⟨_, _, _, _, h, -⟩ |
    ⟨_, _, _, _, _, h, -⟩ | ⟨t, ht, same, idle, finished, rfl⟩ | ⟨_, h, -⟩
  any_goals cases h
  obtain rfl := Action.commit.inj same
  have safe := (ok.going t ht).idle idle
  cases hprog : t.prog with
  | fail => simp [hprog, Prog.finished] at finished
  | stmt _ _ _ => simp [hprog, Prog.finished] at finished
  | done a =>
    rw [hprog] at safe
    obtain ⟨-, -, -, settled⟩ := safe
    exact ⟨t, ht, rfl, settled.priced⟩

def hub (id : Uuid) : Market := ⟨id, .npcHub, none, true, true⟩

def emptyShop : Shop where
  directory := { groups := [⟨1, 0⟩], groupMemberships := [⟨1, 1, .member⟩] }
  catalog := { markets := [hub 1, hub 2] }

def ores : World :=
  ⟨[⟨"tritanium".toList, "Tritanium".toList, 34, "Tritanium".toList⟩,
    ⟨"pyerite".toList, "Pyerite".toList, 35, "Pyerite".toList⟩], true, fun _ => none, true⟩

/-- Each fetch finds other prices; Pyerite is sold at one of the markets. -/
def orePrices (base : Int) : Nat → Quotes Cents := fun fetch market typeId =>
  if typeId = 34 then some (base + fetch + market)
  else if market = 2 then some 900 else none

def newList : Call :=
  ⟨.create 1 1 ⟨[1, 2], 1, "Tritanium 10\nPyerite 3".toList⟩ 1 [1, 2], ores, orePrices 500, 1⟩

def moreItems : Call :=
  ⟨.addItems 1 1 ⟨none, some "Tritanium".toList, some 5⟩ [3], ores, orePrices 400, 2⟩

def fewerItems : Call := ⟨.patchItem 1 1 1 ⟨some 2, none⟩, ores, orePrices 300, 3⟩

/-- The second request adds an item while the third waits for the list. -/
def sampleRun : List (Action Row Call) :=
  List.flatten
    [[.begin 1 newList], Action.turn 1 [], Action.turn 1 [], Action.turn 1 [], Action.turn 1 [],
      Action.turn 1 [.list 1], Action.turn 1 [.listMarket 1 1], Action.turn 1 [.listMarket 1 2],
      Action.turn 1 [.item 1], Action.turn 1 [.item 2], [.commit 1],
      [.begin 2 moreItems, .begin 3 fewerItems], Action.turn 3 [], Action.turn 2 [],
      Action.turn 2 [.list 1], [.start 3], Action.turn 2 [], Action.turn 2 [.item 3],
      Action.turn 2 [.list 1], Action.turn 2 [], Action.turn 2 [], Action.turn 2 [],
      Action.turn 2 [.list 1], Action.turn 2 [.item 1, .item 2, .item 3], Action.turn 2 [.list 1],
      [.commit 2, .acquire 3 (.list 1), .exec 3], Action.turn 3 [.item 1], Action.turn 3 [.item 1],
      Action.turn 3 [.list 1], Action.turn 3 [], Action.turn 3 [], Action.turn 3 [],
      Action.turn 3 [.list 1], Action.turn 3 [.item 1, .item 2, .item 3], Action.turn 3 [.list 1],
      [.commit 3]]

theorem estimates_follow_items_sampleRun :
    Totals (run (step (engine asciiTables ⟨5, 5⟩)) ⟨emptyShop, []⟩ sampleRun).committed ∧
      (run (step (engine asciiTables ⟨5, 5⟩)) ⟨emptyShop, []⟩ sampleRun).committed.lists.map
        (fun l => (l.totalEstimateIsk, l.updatedAt)) = [(2 * 301 + 3 * 900 + 5 * 301, 3)] := by
  refine ⟨(estimates_follow_items asciiTables ⟨5, 5⟩ (by decide) ?_ sampleRun).1, ?_⟩
  · intro l hl
    cases hl
  · decide +kernel

end JitaCart.Concurrent.Estimates
