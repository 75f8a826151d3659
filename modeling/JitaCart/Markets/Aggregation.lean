/- module: JitaCart/Markets/Aggregation
   source: backend/crates/market/src/prices.rs (refresh_one, refresh_many_for_citadel)
   digest: The prices and volumes that the two market endpoints are folded into. -/

import JitaCart.Base.Numeric
import JitaCart.Base.Saturation
import Mathlib.Data.Finset.Basic
import Mathlib.Data.List.Dedup
import Mathlib.Logic.Function.Basic

/-!
What an endpoint answers is a list of orders; the fetch, the permit and the row of
`market_prices` that an aggregate is stored in are left out.
-/

set_option autoImplicit false
set_option relaxedAutoImplicit false

namespace JitaCart.Markets.Aggregation

open Base.Numeric Base.Saturation

structure Order (P : Type) where
  orderId : Int
  typeId : Int
  locationId : Int
  isBuyOrder : Bool
  volumeRemain : Int
  price : P
  deriving DecidableEq

def i64Min : Int := -i64Max - 1

/-- `i64::saturating_add`. -/
def saturatingAdd (a b : Int) : Int := clamp i64Min i64Max (a + b)

structure PriceAggregate (P : Type) where
  bestSell : Option P
  bestBuy : Option P
  sellVolume : Int
  buyVolume : Int
  deriving DecidableEq

def PriceAggregate.empty {P : Type} : PriceAggregate P := ⟨none, none, 0, 0⟩

section Folds
variable {P : Type} [LinearOrder P]

def PriceAggregate.add (acc : PriceAggregate P) (o : Order P) : PriceAggregate P :=
  if o.isBuyOrder then
    { acc with
      buyVolume := saturatingAdd acc.buyVolume o.volumeRemain
      bestBuy := some (match acc.bestBuy with
        | some c => max c o.price
        | none => o.price) }
  else
    { acc with
      sellVolume := saturatingAdd acc.sellVolume o.volumeRemain
      bestSell := some (match acc.bestSell with
        | some c => min c o.price
        | none => o.price) }

/-- The orders of one type in a region, of which those at the location count. -/
def refreshOne (locationId : Int) (orders : List (Order P)) : PriceAggregate P :=
  (orders.filter fun o => decide (o.locationId = locationId)).foldl .add .empty

structure Buckets (P : Type) where
  seen : List Int
  byType : Int → Option (PriceAggregate P)

/-- One order of a structure: skipped when its id was seen, and when its type is not wanted. -/
def Buckets.put (wanted : List Int) (b : Buckets P) (o : Order P) : Buckets P :=
  if o.orderId ∈ b.seen then b
  else
    let seen := o.orderId :: b.seen
    if o.typeId ∉ wanted then { b with seen := seen }
    else
      let acc := (b.byType o.typeId).getD .empty
      ⟨seen, Function.update b.byType o.typeId (some (acc.add o))⟩

/-- The aggregates by type; a wanted type without orders has an empty one. -/
def refreshManyForCitadel (typeIds : List Int) (orders : List (Order P)) :
    Int → Option (PriceAggregate P) :=
  let buckets : Buckets P := orders.foldl (Buckets.put typeIds) ⟨[], fun _ => none⟩
  fun typeId => if typeId ∈ typeIds then some ((buckets.byType typeId).getD .empty) else none

end Folds

inductive Side
  | sell | buy
  deriving DecidableEq

def Order.side {P : Type} (o : Order P) : Side := if o.isBuyOrder then .buy else .sell

def PriceAggregate.volume {P : Type} (a : PriceAggregate P) : Side → Int
  | .sell => a.sellVolume
  | .buy => a.buyVolume

def PriceAggregate.best {P : Type} (a : PriceAggregate P) : Side → Option P
  | .sell => a.bestSell
  | .buy => a.bestBuy

/-- The volumes of one side, one for each row. -/
def volumes {P : Type} (side : Side) (rows : List (Order P)) : List Int :=
  (rows.filter fun o => decide (o.side = side)).map Order.volumeRemain

private theorem PriceAggregate.ext_sides {P : Type} {a b : PriceAggregate P}
    (volume : ∀ side, a.volume side = b.volume side) (best : ∀ side, a.best side = b.best side) :
    a = b := by
  have sellVolume : a.sellVolume = b.sellVolume := volume .sell
  have buyVolume : a.buyVolume = b.buyVolume := volume .buy
  have bestSell : a.bestSell = b.bestSell := best .sell
  have bestBuy : a.bestBuy = b.bestBuy := best .buy
  cases a
  cases b
  simp_all

section Loop
variable {P : Type} [LinearOrder P]

private theorem foldl_add_volume (side : Side) (acc : PriceAggregate P) (rows : List (Order P)) :
    (rows.foldl .add acc).volume side =
      saturatingSum i64Min i64Max (acc.volume side) (volumes side rows) := by
  induction rows generalizing acc with
  | nil => rfl
  | cons o rows ih =>
    rw [List.foldl_cons, ih]
    unfold volumes
    by_cases own : o.side = side
    · rw [List.filter_cons_of_pos (by simpa using own), List.map_cons]
      have step : (acc.add o).volume side =
          clamp i64Min i64Max (acc.volume side + o.volumeRemain) := by
        subst own
        unfold PriceAggregate.add Order.side
        cases o.isBuyOrder <;> rfl
      rw [step]
      rfl
    · rw [List.filter_cons_of_neg (by simpa using own)]
      have step : (acc.add o).volume side = acc.volume side := by
        unfold PriceAggregate.add
        unfold Order.side at own
        cases buy : o.isBuyOrder <;> cases side <;> simp_all [PriceAggregate.volume]
      rw [step]

def Better : Side → P → P → Prop
  | .sell, a, b => a ≤ b
  | .buy, a, b => b ≤ a

/-- The best price of one side of the rows. -/
def Best (side : Side) (rows : List (Order P)) : Option P → Prop
  | none => ∀ o ∈ rows, o.side ≠ side
  | some p => (∃ o ∈ rows, o.side = side ∧ o.price = p) ∧
      ∀ o ∈ rows, o.side = side → Better side p o.price

private theorem Best.unique {side : Side} {rows rows' : List (Order P)} {a b : Option P}
    (same : ∀ o, o ∈ rows ↔ o ∈ rows') (ha : Best side rows a) (hb : Best side rows' b) :
    a = b := by
  cases a with
  | none =>
    cases b with
    | none => rfl
    | some q =>
      obtain ⟨⟨o, ho, own, -⟩, -⟩ := hb
      exact absurd own (ha o ((same o).mpr ho))
  | some p =>
    obtain ⟨⟨o, ho, own, rfl⟩, least⟩ := ha
    cases b with
    | none => exact absurd own (hb o ((same o).mp ho))
    | some q =>
      obtain ⟨⟨o', ho', own', rfl⟩, least'⟩ := hb
      have one := least o' ((same o').mpr ho') own'
      have two := least' o ((same o).mp ho) own
      cases side with
      | sell => exact congrArg some (le_antisymm one two)
      | buy => exact congrArg some (le_antisymm two one)

/-- The better one of a price and the best one so far. -/
def pick (side : Side) (best : Option P) (p : P) : P :=
  match best, side with
  | none, _ => p
  | some c, .sell => min c p
  | some c, .buy => max c p

private theorem add_best (side : Side) (acc : PriceAggregate P) (o : Order P) :
    (acc.add o).best side =
      if o.side = side then some (pick side (acc.best side) o.price) else acc.best side := by
  unfold PriceAggregate.add Order.side
  cases o.isBuyOrder <;> cases side
  · show some _ = some _
    unfold pick PriceAggregate.best
    cases acc.bestSell <;> rfl
  · rfl
  · rfl
  · show some _ = some _
    unfold pick PriceAggregate.best
    cases acc.bestBuy <;> rfl

private theorem Better.trans {side : Side} {a b c : P} (ab : Better side a b)
    (bc : Better side b c) :
    Better side a c := by
  cases side with
  | sell => exact le_trans ab bc
  | buy => exact le_trans bc ab

private theorem pick_better (side : Side) (best : Option P) (p : P) :
    Better side (pick side best p) p ∧ ∀ c ∈ best, Better side (pick side best p) c := by
  cases best with
  | none => cases side <;> exact ⟨le_refl p, fun c hc => by cases hc⟩
  | some c =>
    cases side
    · refine ⟨min_le_right c p, fun d hd => ?_⟩
      obtain rfl := Option.some.inj hd
      exact min_le_left c p
    · refine ⟨le_max_right c p, fun d hd => ?_⟩
      obtain rfl := Option.some.inj hd
      exact le_max_left c p

private theorem pick_choice (side : Side) (best : Option P) (p : P) :
    pick side best p = p ∨ best = some (pick side best p) := by
  cases best with
  | none => exact .inl rfl
  | some c =>
    cases side
    · rcases min_choice c p with h | h
      · exact .inr (congrArg some h.symm)
      · exact .inl h
    · rcases max_choice c p with h | h
      · exact .inr (congrArg some h.symm)
      · exact .inl h

private theorem best_add {side : Side} {rows : List (Order P)} {acc : PriceAggregate P}
    (o : Order P)
    (h : Best side rows (acc.best side)) : Best side (rows ++ [o]) ((acc.add o).best side) := by
  rw [add_best]
  by_cases own : o.side = side
  · rw [if_pos own]
    obtain ⟨here, before⟩ := pick_better side (acc.best side) o.price
    refine ⟨?_, fun x hx mine => ?_⟩
    · rcases pick_choice side (acc.best side) o.price with new | old
      · exact ⟨o, by simp, own, new.symm⟩
      · rw [old] at h
        obtain ⟨x, hx, mine, price⟩ := h.1
        exact ⟨x, List.mem_append_left _ hx, mine, price⟩
    · rcases List.mem_append.mp hx with old | new
      · cases prior : acc.best side with
        | none =>
          rw [prior] at h
          exact absurd mine (h x old)
        | some q =>
          rw [prior] at h
          rw [prior] at before
          exact (before q rfl).trans (h.2 x old mine)
      · obtain rfl := List.mem_singleton.mp new
        exact here
  · rw [if_neg own]
    have other : ∀ x ∈ rows ++ [o], x.side = side → x ∈ rows := by
      intro x hx mine
      rcases List.mem_append.mp hx with old | new
      · exact old
      · obtain rfl := List.mem_singleton.mp new
        exact absurd mine own
    cases prior : acc.best side with
    | none =>
      rw [prior] at h
      exact fun x hx mine => h x (other x hx mine) mine
    | some q =>
      rw [prior] at h
      obtain ⟨⟨x, hx, mine, price⟩, least⟩ := h
      exact ⟨⟨x, List.mem_append_left _ hx, mine, price⟩,
        fun y hy owny => least y (other y hy owny) owny⟩

private theorem foldl_add_best (side : Side) (rows : List (Order P)) :
    Best side rows ((rows.foldl .add .empty : PriceAggregate P).best side) := by
  induction rows using List.reverseRecOn with
  | nil => cases side <;> exact fun o ho => absurd ho List.not_mem_nil
  | append_singleton rows o ih =>
    rw [List.foldl_append]
    exact best_add o ih

private theorem foldl_add_best_congr (side : Side) {rows rows' : List (Order P)}
    (same : ∀ o, o ∈ rows ↔ o ∈ rows') :
    (rows.foldl .add .empty : PriceAggregate P).best side =
      (rows'.foldl .add .empty : PriceAggregate P).best side :=
  (foldl_add_best side rows).unique same (foldl_add_best side rows')

end Loop

section Kept
variable {P : Type}

def kept : List Int → List (Order P) → List (Order P)
  | _, [] => []
  | seen, o :: os => if o.orderId ∈ seen then kept seen os else o :: kept (o.orderId :: seen) os

private theorem kept_cons (seen : List Int) (o : Order P) (os : List (Order P)) :
    kept seen (o :: os) =
    if o.orderId ∈ seen then kept seen os else o :: kept (o.orderId :: seen) os := rfl

private theorem mem_kept {seen : List Int} {os : List (Order P)}
    (keyed : ∀ a ∈ os, ∀ b ∈ os, a.orderId = b.orderId → a = b) {o : Order P} :
    o ∈ kept seen os ↔ o ∈ os ∧ o.orderId ∉ seen := by
  induction os generalizing seen with
  | nil => simp [kept]
  | cons a os ih =>
    have rest : ∀ x ∈ os, ∀ y ∈ os, x.orderId = y.orderId → x = y := fun x hx y hy =>
      keyed x (List.mem_cons_of_mem a hx) y (List.mem_cons_of_mem a hy)
    rw [kept_cons]
    by_cases old : a.orderId ∈ seen
    · rw [if_pos old, ih rest]
      constructor
      · exact fun h => ⟨List.mem_cons_of_mem a h.1, h.2⟩
      · rintro ⟨h, fresh⟩
        rcases List.mem_cons.mp h with rfl | h
        · exact absurd old fresh
        · exact ⟨h, fresh⟩
    · rw [if_neg old, List.mem_cons, ih rest, List.mem_cons, List.mem_cons]
      constructor
      · rintro (rfl | ⟨h, fresh⟩)
        · exact ⟨.inl rfl, old⟩
        · exact ⟨.inr h, fun inSeen => fresh (.inr inSeen)⟩
      · rintro ⟨rfl | h, fresh⟩
        · exact .inl rfl
        · by_cases again : o.orderId = a.orderId
          · exact .inl (keyed o (List.mem_cons_of_mem a h) a List.mem_cons_self again)
          · exact .inr ⟨h, fun either => either.elim again fresh⟩

private theorem orderId_not_mem_of_mem_kept {seen : List Int} {os : List (Order P)} {o : Order P}
    (h : o ∈ kept seen os) : o.orderId ∉ seen := by
  induction os generalizing seen with
  | nil => cases h
  | cons a os ih =>
    rw [kept_cons] at h
    split at h
    · exact ih h
    · rename_i fresh
      rcases List.mem_cons.mp h with rfl | h
      · exact fresh
      · exact fun inSeen => ih h (List.mem_cons_of_mem _ inSeen)

private theorem nodup_kept (seen : List Int) (os : List (Order P)) : (kept seen os).Nodup := by
  induction os generalizing seen with
  | nil => exact List.nodup_nil
  | cons o os ih =>
    rw [kept_cons]
    split
    · exact ih seen
    · rename_i fresh
      refine List.nodup_cons.mpr ⟨fun h => ?_, ih _⟩
      exact orderId_not_mem_of_mem_kept h List.mem_cons_self

/-- The bucket of a wanted type holds the fold of the rows of the type that were kept. -/
private theorem foldl_put [LinearOrder P] {wanted : List Int} {typeId : Int}
    (want : typeId ∈ wanted) (os : List (Order P)) (b : Buckets P) :
    ((os.foldl (.put wanted) b).byType typeId).getD .empty =
      ((kept b.seen os).filter fun o => decide (o.typeId = typeId)).foldl .add
        ((b.byType typeId).getD .empty) := by
  induction os generalizing b with
  | nil => rfl
  | cons o os ih =>
    rw [List.foldl_cons, ih, kept_cons]
    unfold Buckets.put
    by_cases old : o.orderId ∈ b.seen
    · rw [if_pos old, if_pos old]
    · rw [if_neg old, if_neg old]
      by_cases own : o.typeId = typeId
      · rw [List.filter_cons_of_pos (by simpa using own)]
        simp [own, want]
      · rw [List.filter_cons_of_neg (by simpa using own)]
        by_cases other : o.typeId ∈ wanted
        · simp [other, Function.update_of_ne (Ne.symm own)]
        · simp [other]

private theorem refreshManyForCitadel_eq [LinearOrder P] {typeIds : List Int} {typeId : Int}
    (want : typeId ∈ typeIds) (os : List (Order P)) :
    refreshManyForCitadel typeIds os typeId =
      some (((kept [] os).filter fun o => decide (o.typeId = typeId)).foldl .add .empty) := by
  unfold refreshManyForCitadel
  simp only [if_pos want]
  exact congrArg some (foldl_put want os ⟨[], fun _ => none⟩)

end Kept

/-- The distinct orders of a region; an id names one order. -/
structure Book (P : Type) where
  orders : List (Order P)
  keyed : ∀ a ∈ orders, ∀ b ∈ orders, a.orderId = b.orderId → a = b

section Walks
variable {P : Type}

/-- What the region's endpoint may answer for a type: its orders in any order, each of them any
number of times. -/
def HubWalk (book : Book P) (typeId : Int) (rows : List (Order P)) : Prop :=
  ∀ o, o ∈ rows ↔ o ∈ book.orders ∧ o.typeId = typeId

/-- What the endpoint of the structure may answer. -/
def CitadelWalk (book : Book P) (locationId : Int) (rows : List (Order P)) : Prop :=
  ∀ o, o ∈ rows ↔ o ∈ book.orders ∧ o.locationId = locationId

end Walks

/-- On each side the volumes have one sign or those of each sign fit, and the repeated rows add
nothing to the distinct ones or the limit is reached without them. -/
def Harmless {P : Type} [DecidableEq P] (rows : List (Order P)) : Prop :=
  ∀ side, Steady i64Min i64Max (volumes side rows) ∧
    ((volumes side rows).sum = (volumes side rows.dedup).sum ∨
      (i64Max ≤ (volumes side rows).sum ∧ i64Max ≤ (volumes side rows.dedup).sum) ∨
      ((volumes side rows).sum ≤ i64Min ∧ (volumes side rows.dedup).sum ≤ i64Min))

section Orders
variable {P : Type}

/-- The rows that sell or buy something, before the others. -/
def winnersFirst (rows : List (Order P)) : List (Order P) :=
  rows.filter (fun o => decide (0 < o.volumeRemain)) ++
    rows.filter fun o => !decide (0 < o.volumeRemain)

def winnersLast (rows : List (Order P)) : List (Order P) :=
  rows.filter (fun o => !decide (0 < o.volumeRemain)) ++
    rows.filter fun o => decide (0 < o.volumeRemain)

private theorem volumes_winners (side : Side) (rows : List (Order P)) (p : Order P → Bool) :
    volumes side ((winnersFirst rows).filter p) =
        winning (volumes side (rows.filter p)) ++ losing (volumes side (rows.filter p)) ∧
      volumes side ((winnersLast rows).filter p) =
        losing (volumes side (rows.filter p)) ++ winning (volumes side (rows.filter p)) := by
  have swap : ∀ q : Int → Bool,
      volumes side ((rows.filter fun o => q o.volumeRemain).filter p) =
        (volumes side (rows.filter p)).filter q := by
    intro q
    unfold volumes
    rw [List.filter_map, List.filter_filter, List.filter_filter, List.filter_filter,
      List.filter_filter]
    congr 1
    refine List.filter_congr fun o _ => ?_
    simp only [Function.comp_apply]
    cases p o <;> simp [Bool.and_comm]
  have gain := swap fun v => decide (0 < v)
  have loss := swap fun v => !decide (0 < v)
  have append : ∀ a b : List (Order P), volumes side (a ++ b) = volumes side a ++ volumes side b :=
    fun a b => by simp [volumes]
  unfold winnersFirst winnersLast winning losing
  rw [List.filter_append, List.filter_append, append, append, gain, loss]
  exact ⟨rfl, rfl⟩

private theorem winnersFirst_perm (rows : List (Order P)) : (winnersFirst rows).Perm rows :=
  List.filter_append_perm _ rows

private theorem winnersLast_perm (rows : List (Order P)) : (winnersLast rows).Perm rows :=
  List.perm_append_comm.trans (List.filter_append_perm _ rows)

private theorem volumes_perm (side : Side) {rows rows' : List (Order P)} (h : rows.Perm rows') :
    (volumes side rows).Perm (volumes side rows') :=
  (h.filter _).map _

private theorem volumes_sublist (side : Side) {rows rows' : List (Order P)}
    (h : rows.Sublist rows') : (volumes side rows).Sublist (volumes side rows') :=
  (h.filter _).map _

end Orders

section Agreement
variable {P : Type} [LinearOrder P]

def atLocation (locationId : Int) (o : Order P) : Bool := decide (o.locationId = locationId)

private theorem refreshOne_volume (locationId : Int) (xs : List (Order P)) (side : Side) :
    (refreshOne locationId xs).volume side =
      saturatingSum i64Min i64Max 0 (volumes side (xs.filter (atLocation locationId))) := by
  unfold refreshOne
  rw [foldl_add_volume]
  cases side <;> rfl

private theorem foldl_add_volume_steady {side : Side} {rows : List (Order P)}
    (steady : Steady i64Min i64Max (volumes side rows)) :
    (rows.foldl .add .empty : PriceAggregate P).volume side =
      clamp i64Min i64Max (volumes side rows).sum := by
  rw [foldl_add_volume, ← saturatingSum_of_steady i64Min i64Max (by decide) (by decide) steady]
  cases side <;> rfl

private theorem kept_perm {book : Book P} {typeId locationId : Int} {xs ys : List (Order P)}
    (hub : HubWalk book typeId xs) (citadel : CitadelWalk book locationId ys) :
    ((kept [] ys).filter fun o => decide (o.typeId = typeId)).Perm
      (xs.filter (atLocation locationId)).dedup := by
  have keyed : ∀ a ∈ ys, ∀ b ∈ ys, a.orderId = b.orderId → a = b := fun a ha b hb =>
    book.keyed a ((citadel a).mp ha).1 b ((citadel b).mp hb).1
  refine (List.perm_ext_iff_of_nodup ((nodup_kept [] ys).filter _) (List.nodup_dedup _)).mpr
    fun o => ?_
  rw [List.mem_filter, mem_kept keyed, List.mem_dedup, List.mem_filter, hub o, citadel o]
  unfold atLocation
  simp only [List.not_mem_nil, not_false_eq_true, and_true, decide_eq_true_eq]
  tauto

end Agreement

/-- In whatever order the rows of both endpoints arrive, and whichever of them the structure's
endpoint repeats, the two aggregates are the same exactly when the rows that the region's
endpoint repeats are harmless. -/
theorem aggregates_agree_iff {P : Type} [LinearOrder P] (book : Book P) (typeId locationId : Int)
    (typeIds : List Int) (want : typeId ∈ typeIds) (xs : List (Order P))
    (hub : HubWalk book typeId xs) :
    (∀ xs' ys : List (Order P), xs'.Perm xs → CitadelWalk book locationId ys →
      refreshManyForCitadel typeIds ys typeId = some (refreshOne locationId xs')) ↔
      Harmless (xs.filter (atLocation locationId)) := by
  constructor
  · intro agree side
    obtain ⟨ys, hys⟩ : ∃ ys, ys = book.orders.filter (atLocation locationId) := ⟨_, rfl⟩
    have citadel : CitadelWalk book locationId ys := by
      intro o
      rw [hys, List.mem_filter]
      unfold atLocation
      simp
    have first := agree _ ys (winnersFirst_perm xs) citadel
    have last := agree _ ys (winnersLast_perm xs) citadel
    have same := congrArg (fun a => a.volume side) (Option.some.inj (first.symm.trans last))
    have steady : Steady i64Min i64Max (volumes side (xs.filter (atLocation locationId))) := by
      obtain ⟨winners, losers⟩ := volumes_winners side xs (atLocation locationId)
      refine steady_of_parts (by decide) (by decide) (by decide) ?_
      rw [← winners, ← losers, ← refreshOne_volume, ← refreshOne_volume]
      exact same
    have perm := volumes_perm side (kept_perm hub citadel)
    have once := steady.sublist
      (volumes_sublist side (List.dedup_sublist (xs.filter (atLocation locationId))))
    refine ⟨steady, ?_⟩
    have equal := agree xs ys (List.Perm.refl xs) citadel
    rw [refreshManyForCitadel_eq want] at equal
    have volume := congrArg (fun a => a.volume side) (Option.some.inj equal)
    have left := foldl_add_volume_steady ((steady_perm perm).mpr once)
    have right := foldl_add_volume_steady steady
    rw [perm.sum_eq] at left
    exact (clamp_eq_clamp_iff (by decide)).mp (right.symm.trans (volume.symm.trans left))
  · intro harmless xs' ys arrived citadel
    have rows : (xs'.filter (atLocation locationId)).Perm (xs.filter (atLocation locationId)) :=
      arrived.filter _
    have keep := kept_perm hub citadel
    rw [refreshManyForCitadel_eq want]
    refine congrArg some (PriceAggregate.ext_sides (fun side => ?_) fun side => ?_)
    · obtain ⟨steady, sums⟩ := harmless side
      have perm := volumes_perm side keep
      have once := steady.sublist
        (volumes_sublist side (List.dedup_sublist (xs.filter (atLocation locationId))))
      have arrival := volumes_perm side rows
      rw [foldl_add_volume_steady ((steady_perm perm).mpr once), perm.sum_eq]
      refine Eq.trans ?_ (foldl_add_volume_steady ((steady_perm arrival).mpr steady)).symm
      rw [arrival.sum_eq]
      exact ((clamp_eq_clamp_iff (by decide)).mpr sums).symm
    · refine foldl_add_best_congr side fun o => ?_
      rw [keep.mem_iff, List.mem_dedup, ← rows.mem_iff]
      rfl

def stationBook : Book ℚ where
  orders := [⟨1, 34, 60003760, false, 5, 100⟩, ⟨2, 34, 60003760, false, 7, 90⟩]
  keyed := by
    intro a ha b hb same
    simp only [List.mem_cons, List.not_mem_nil, or_false] at ha hb
    rcases ha with rfl | rfl <;> rcases hb with rfl | rfl <;> first | rfl | cases same

theorem aggregates_agree_stationBook :
    refreshManyForCitadel [34] stationBook.orders 34 =
      some (refreshOne 60003760 stationBook.orders.reverse) := by
  have all : ∀ o ∈ stationBook.orders, o.typeId = 34 ∧ o.locationId = 60003760 := by
    intro o ho
    simp only [stationBook, List.mem_cons, List.not_mem_nil, or_false] at ho
    rcases ho with rfl | rfl <;> exact ⟨rfl, rfl⟩
  have hub : HubWalk stationBook 34 stationBook.orders :=
    fun o => ⟨fun ho => ⟨ho, (all o ho).1⟩, And.left⟩
  have citadel : CitadelWalk stationBook 60003760 stationBook.orders :=
    fun o => ⟨fun ho => ⟨ho, (all o ho).2⟩, And.left⟩
  refine (aggregates_agree_iff stationBook 34 60003760 [34] (by decide) _ hub).mpr (fun side => ?_)
    _ _ (List.reverse_perm _) citadel
  cases side <;> decide +kernel

def offer : Order ℚ := ⟨1, 34, 60003760, false, 5, 100⟩

def offerBook : Book ℚ where
  orders := [offer]
  keyed := by
    intro a ha b hb _
    exact (List.mem_singleton.mp ha).trans (List.mem_singleton.mp hb).symm

/-- An offer that both endpoints repeat is counted twice for the region and once for the
structure. -/
theorem repeated_offer_counted_twice :
    HubWalk offerBook 34 [offer, offer] ∧ CitadelWalk offerBook 60003760 [offer, offer] ∧
    (refreshOne 60003760 [offer, offer]).sellVolume = 10 ∧
    (refreshManyForCitadel [34] [offer, offer] 34).map PriceAggregate.sellVolume = some 5 ∧
    refreshManyForCitadel [34] [offer, offer] 34 ≠ some (refreshOne 60003760 [offer, offer]) := by
  have twice : ∀ o, o ∈ [offer, offer] ↔ o = offer := by simp
  have once : ∀ o, o ∈ offerBook.orders ↔ o = offer := by simp [offerBook]
  refine ⟨fun o => ?_, fun o => ?_, by decide +kernel, by decide +kernel, by decide +kernel⟩
  · rw [twice, once, iff_self_and]
    rintro rfl
    rfl
  · rw [twice, once, iff_self_and]
    rintro rfl
    rfl

end JitaCart.Markets.Aggregation
