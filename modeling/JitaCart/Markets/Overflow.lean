/- module: JitaCart/Markets/Overflow
   source: backend/crates/api/src/lists/crud.rs (create), backend/crates/api/src/lists/pricing.rs
     (recompute_estimates), backend/crates/api/src/lists/items.rs (add_items, patch_item)
   digest: For which quantities the estimate of a list can be computed and stored at any price. -/

import JitaCart.Base.Decimals
import JitaCart.Markets.Requests

set_option autoImplicit false
set_option relaxedAutoImplicit false

namespace JitaCart.Markets.Overflow

open Schema Base.Table Base.Request Base.Strings Base.Numeric Base.Decimals Domain.Multibuy
open Types Pricing Requests Api.Naming Api.Extract
open Api.Lists (Limits NewLine)

/-- What ends a request from inside: a panic of the arithmetic, or an error of the column. -/
inductive Fault
  | panic | numericFieldOverflow
  deriving DecidableEq

/-- A value of `market_prices.best_sell`, a `numeric(20, 2)`, in cents. -/
abbrev StoredPrice := { c : Int // Fits 20 c }

def StoredPrice.decimal (p : StoredPrice) : Decimal where
  mantissa := p.1
  scale := 2
  bounded := lt_trans p.2 (by norm_num)
  scaled := by decide

private theorem scale_integer : 0 ≤ 28 := by decide

/-- `Decimal::from` of an `i64`. -/
def ofI64 (q : Int) : Decimal where
  mantissa := wrapI64 q
  scale := 0
  bounded := by
    have low := @Int.le_bmod q (2 ^ 64) (by norm_num)
    have high := @Int.bmod_lt q (2 ^ 64) (by norm_num)
    unfold wrapI64
    norm_num at low high ⊢
    omega
  scaled := scale_integer

def orPanic : Option Decimal → Except Fault Decimal
  | some d => .ok d
  | none => .error .panic

section Arithmetic
variable (A : Arithmetic)

/-- `if let Some(u) = unit { total += u * Decimal::from(qty) }`. -/
def addEstimate (total : Decimal) (unit : Option StoredPrice) (qty : Int) :
    Except Fault Decimal :=
  match unit with
  | some price => do
    let product ← orPanic (A.mul price.decimal (ofI64 qty))
    orPanic (A.add total product)
  | none => .ok total

/-- The loop over the rows, each with its price and its quantity. -/
def foldEstimates : Decimal → List (Option StoredPrice × Int) → Except Fault Decimal
  | total, [] => .ok total
  | total, (unit, qty) :: rows => do
    let total ← addEstimate A total unit qty
    foldEstimates total rows

/-- The column `total_estimate_isk` is a `numeric(24, 2)`. -/
def storeTotal (total : Decimal) : Except Fault Cents :=
  let cents := toScale 2 total.value
  if Fits 24 cents then .ok cents else .error .numericFieldOverflow

def estimateTotal (rows : List (Option StoredPrice × Int)) : Except Fault Cents := do
  let total ← foldEstimates A .zero rows
  storeTotal total

/-- `create` adds up its lines in their order. -/
def createTotal (markets : List Market) (quotes : Quotes StoredPrice) (lines : List NewLine) :
    Except Fault Cents :=
  estimateTotal A (lines.map fun n => ((pickCheapest markets quotes n.typeId).1, n.qty))

/-- `recompute_estimates` adds up the rows that its update returns. -/
def recomputeTotal (markets : List Market) (quotes : Quotes StoredPrice) (items : List ListItem) :
    Except Fault Cents :=
  estimateTotal A (items.map fun it =>
    ((pickCheapest markets quotes it.typeId).1, it.qtyRequested))

end Arithmetic

section Small
variable {A : Arithmetic}

def exactCents (rows : List (Option StoredPrice × Int)) : Int :=
  (rows.map fun r => (r.1.map fun p => p.1 * r.2).getD 0).sum

def maxCents : Int := 10 ^ 20 - 1

def quantity (rows : List (Option StoredPrice × Int)) : Int := (rows.map Prod.snd).sum

private theorem room_of_cents {m : Int} {scale : Nat} (bound : |m| ≤ maxCents * 10000)
    (small : scale ≤ 2) : Room ((m : ℚ) / 100) scale := by
  have cast : |(m : ℚ)| ≤ (maxCents * 10000 : ℤ) := by exact_mod_cast bound
  have power : (10 : ℚ) ^ scale ≤ 10 ^ 2 := pow_le_pow_right₀ (by norm_num) small
  unfold Room
  rw [abs_div]
  calc |(m : ℚ)| / |(100 : ℚ)| * 10 ^ scale
      ≤ |(m : ℚ)| / |(100 : ℚ)| * 10 ^ 2 := by gcongr
    _ = |(m : ℚ)| := by norm_num
    _ ≤ (maxCents * 10000 : ℤ) := cast
    _ < 2 ^ 96 := by norm_num [maxCents]

private theorem value_decimal (p : StoredPrice) : p.decimal.value = (p.1 : ℚ) / 100 := by
  simp only [Decimal.value, StoredPrice.decimal]
  norm_num

private theorem value_ofI64 {q : Int} (h : FitsBigint q) : (ofI64 q).value = q := by
  simp only [Decimal.value, ofI64, wrapI64_of_fits h, pow_zero, div_one]

private theorem abs_price (p : StoredPrice) : |p.1| ≤ maxCents := by
  have := p.2
  unfold Fits at this
  unfold maxCents
  rw [Int.abs_eq_natAbs]
  omega

private theorem addEstimate_exact (doc : A.Documented) {total : Decimal} {m k : Int}
    {unit : Option StoredPrice} {q : Int} (small : total.scale ≤ 2)
    (value : total.value = (m : ℚ) / 100) (bound : |m| ≤ maxCents * k) (positive : 0 < q)
    (few : k + q ≤ 10000) (started : 0 ≤ k) :
    ∃ next, addEstimate A total unit q = .ok next ∧ next.scale ≤ 2 ∧
      next.value = ((m + (unit.map fun p => p.1 * q).getD 0 : ℤ) : ℚ) / 100 ∧
      |m + (unit.map fun p => p.1 * q).getD 0| ≤ maxCents * (k + q) := by
  cases unit with
  | none =>
    refine ⟨total, rfl, small, by simpa using value, ?_⟩
    simp only [Option.map_none, Option.getD_none, add_zero]
    have : 0 ≤ maxCents * q := by unfold maxCents; positivity
    linarith
  | some p =>
    have fits : FitsBigint q := ⟨by unfold i64Max; omega, by unfold i64Max; omega⟩
    have size : |p.1 * q| ≤ maxCents * q := by
      rw [abs_mul, abs_of_pos positive]
      exact mul_le_mul_of_nonneg_right (abs_price p) positive.le
    have whole : ∀ j ≤ (10000 : Int), maxCents * j ≤ maxCents * 10000 := fun j hj =>
      mul_le_mul_of_nonneg_left hj (by unfold maxCents; norm_num)
    have product : p.decimal.value * (ofI64 q).value = ((p.1 * q : ℤ) : ℚ) / 100 := by
      rw [value_decimal, value_ofI64 fits]
      push_cast
      ring
    obtain ⟨r, mul, rvalue, rscale⟩ := doc.mul_exact p.decimal (ofI64 q)
      (by
        rw [product]
        exact room_of_cents (size.trans (whole q (by omega))) (le_refl 2))
      (show 2 + 0 ≤ 28 by decide)
    have rsmall : r.scale ≤ 2 := rscale
    have rval : r.value = ((p.1 * q : ℤ) : ℚ) / 100 := rvalue.trans product
    have sum : total.value + r.value = ((m + p.1 * q : ℤ) : ℚ) / 100 := by
      rw [value, rval]
      push_cast
      ring
    have next : |m + p.1 * q| ≤ maxCents * (k + q) := by
      refine (abs_add_le m (p.1 * q)).trans ?_
      rw [mul_add]
      exact add_le_add bound size
    have scale : max total.scale r.scale ≤ 2 := max_le small rsmall
    obtain ⟨t, add, tvalue, tscale⟩ := doc.add_exact total r
      (value ▸ room_of_cents (bound.trans (whole k (by omega))) scale)
      (rval ▸ room_of_cents (size.trans (whole q (by omega))) scale)
      (sum ▸ room_of_cents (next.trans (whole _ few)) scale)
    refine ⟨t, ?_, tscale.trans scale, tvalue.trans sum, next⟩
    simp [addEstimate, mul, add, orPanic, bind, Except.bind]

private theorem foldEstimates_exact (doc : A.Documented) {rows : List (Option StoredPrice × Int)}
    {total : Decimal} {m k : Int} (small : total.scale ≤ 2) (value : total.value = (m : ℚ) / 100)
    (bound : |m| ≤ maxCents * k) (positive : ∀ r ∈ rows, 0 < r.2)
    (few : k + quantity rows ≤ 10000) (started : 0 ≤ k) :
    ∃ last, foldEstimates A total rows = .ok last ∧
      last.value = ((m + exactCents rows : ℤ) : ℚ) / 100 ∧
      |m + exactCents rows| ≤ maxCents * 10000 := by
  induction rows generalizing total m k with
  | nil =>
    refine ⟨total, rfl, by simpa [exactCents] using value, ?_⟩
    simp only [exactCents, List.map_nil, List.sum_nil, add_zero]
    simp only [quantity, List.map_nil, List.sum_nil, add_zero] at few
    refine bound.trans (mul_le_mul_of_nonneg_left few ?_)
    unfold maxCents
    norm_num
  | cons r rows ih =>
    obtain ⟨unit, q⟩ := r
    have pos : 0 < q := positive (unit, q) List.mem_cons_self
    have rest : ∀ r ∈ rows, 0 < r.2 := fun r hr => positive r (List.mem_cons_of_mem _ hr)
    have nonneg : 0 ≤ quantity rows := by
      refine List.sum_nonneg fun x hx => ?_
      obtain ⟨r, hr, rfl⟩ := List.mem_map.mp hx
      exact (rest r hr).le
    have split : quantity ((unit, q) :: rows) = q + quantity rows := by simp [quantity]
    have cents : exactCents ((unit, q) :: rows) =
        (unit.map fun p => p.1 * q).getD 0 + exactCents rows := by simp [exactCents]
    rw [split] at few
    obtain ⟨next, added, nsmall, nvalue, nbound⟩ :=
      @addEstimate_exact A doc _ _ _ unit _ small value bound pos (by omega) started
    obtain ⟨last, folded, lvalue, lbound⟩ :=
      ih nsmall nvalue nbound rest (by omega) (by omega)
    rw [cents, ← add_assoc]
    refine ⟨last, ?_, lvalue, lbound⟩
    simp [foldEstimates, added, folded, bind, Except.bind]

private theorem estimateTotal_exact (doc : A.Documented) {rows : List (Option StoredPrice × Int)}
    (positive : ∀ r ∈ rows, 0 < r.2) (few : quantity rows ≤ 10000) :
    estimateTotal A rows = .ok (exactCents rows) := by
  obtain ⟨last, folded, value, bound⟩ := @foldEstimates_exact A doc rows .zero 0 0 (by decide)
    (by simp) (by simp) positive (by simpa using few) (le_refl 0)
  rw [zero_add] at value bound
  have cents : toScale 2 last.value = exactCents rows := by
    unfold toScale
    rw [value, show ((exactCents rows : ℤ) : ℚ) / 100 * 10 ^ 2 = ((exactCents rows : ℤ) : ℚ) by
      ring]
    exact roundHalfAway_intCast _
  have fits : Fits 24 (exactCents rows) := by
    unfold Fits
    unfold maxCents at bound
    rw [Int.abs_eq_natAbs] at bound
    omega
  simp only [estimateTotal, folded, storeTotal, cents, if_pos fits, bind, Except.bind]

private theorem foldEstimates_unpriced {rows : List (Option StoredPrice × Int)}
    (none_priced : ∀ r ∈ rows, r.1 = none) (total : Decimal) :
    foldEstimates A total rows = .ok total := by
  induction rows with
  | nil => rfl
  | cons r rows ih =>
    obtain ⟨unit, q⟩ := r
    obtain rfl : unit = none := none_priced _ List.mem_cons_self
    exact ih fun r hr => none_priced r (List.mem_cons_of_mem _ hr)

private theorem estimateTotal_unpriced {rows : List (Option StoredPrice × Int)}
    (none_priced : ∀ r ∈ rows, r.1 = none) : estimateTotal A rows = .ok 0 := by
  have cents : toScale 2 Decimal.zero.value = 0 := by
    unfold toScale
    rw [value_zero, zero_mul]
    exact roundHalfAway_intCast 0
  simp only [estimateTotal, foldEstimates_unpriced none_priced, storeTotal, cents, bind,
    Except.bind]
  rfl

end Small

section Large
variable {A : Arithmetic}

def maxPrice : StoredPrice := ⟨maxCents, by decide⟩

private theorem foldEstimates_large (doc : A.Documented) {rows : List (Option StoredPrice × Int)}
    (dear : ∀ r ∈ rows, r.1 = some maxPrice ∧ 0 < r.2 ∧ r.2 ≤ i64Max) {total last : Decimal}
    (h : foldEstimates A total rows = .ok last) :
    total.value + ((maxCents : ℚ) / 100 - 1) * quantity rows ≤ last.value := by
  induction rows generalizing total with
  | nil =>
    obtain rfl := Except.ok.inj h
    simp [quantity]
  | cons r rows ih =>
    obtain ⟨unit, q⟩ := r
    obtain ⟨rfl, pos, fits⟩ := dear (unit, q) List.mem_cons_self
    have rest : ∀ r ∈ rows, r.1 = some maxPrice ∧ 0 < r.2 ∧ r.2 ≤ i64Max :=
      fun r hr => dear r (List.mem_cons_of_mem _ hr)
    have split : quantity ((some maxPrice, q) :: rows) = q + quantity rows := by simp [quantity]
    simp only [foldEstimates, addEstimate, bind_eq_ok] at h
    obtain ⟨next, ⟨product, mul, add⟩, h⟩ := h
    have mul : A.mul maxPrice.decimal (ofI64 q) = some product := by
      cases found : A.mul maxPrice.decimal (ofI64 q) with
      | none => simp [found, orPanic] at mul
      | some d => simpa [found, orPanic] using mul
    have add : A.add total product = some next := by
      cases found : A.add total product with
      | none => simp [found, orPanic] at add
      | some d => simpa [found, orPanic] using add
    have bigint : FitsBigint q := ⟨by unfold i64Max; omega, fits⟩
    have first := (abs_le.mp (doc.mul_near _ _ _ mul)).1
    have second := (abs_le.mp (doc.add_near _ _ _ add)).1
    have later := ih rest h
    rw [value_decimal, value_ofI64 bigint] at first
    have one : (1 : ℚ) ≤ q := by exact_mod_cast pos
    have price : ((maxPrice.1 : ℤ) : ℚ) = (maxCents : ℚ) := rfl
    rw [price] at first
    rw [split]
    push_cast
    linarith

private theorem estimateTotal_large (doc : A.Documented) {rows : List (Option StoredPrice × Int)}
    (dear : ∀ r ∈ rows, r.1 = some maxPrice ∧ 0 < r.2 ∧ r.2 ≤ i64Max)
    (many : 10000 < quantity rows) (cents : Cents) : estimateTotal A rows ≠ .ok cents := by
  intro h
  simp only [estimateTotal, bind_eq_ok] at h
  obtain ⟨last, folded, stored⟩ := h
  have large := foldEstimates_large doc dear folded
  rw [value_zero, zero_add] at large
  have units : (10001 : ℚ) ≤ quantity rows := by exact_mod_cast many
  have top : (10 : ℚ) ^ 24 ≤ last.value * 10 ^ 2 := by
    have : ((maxCents : ℚ) / 100 - 1) * 10001 ≤ last.value :=
      (mul_le_mul_of_nonneg_left units (by norm_num [maxCents])).trans large
    norm_num [maxCents] at this ⊢
    linarith
  have beyond : (10 : Int) ^ 24 ≤ toScale 2 last.value := by
    unfold toScale roundHalfAway
    rw [if_pos (le_trans (by norm_num) top), Int.le_floor]
    push_cast
    linarith
  unfold storeTotal at stored
  dsimp only at stored
  split at stored
  · rename_i fits
    unfold Fits at fits
    omega
  · cases stored

end Large

section Requests
variable {A : Arithmetic} {u : CaseTables} {w : World}

private theorem pickCheapest_constant {markets : List Market} (some_market : markets ≠ [])
    (price : StoredPrice) (typeId : Int) :
    (pickCheapest markets (fun _ _ => some price) typeId).1 = some price := by
  have cheapest := cheapest_pickCheapest markets (fun _ _ => some price) typeId
  obtain ⟨m, hm⟩ := List.exists_mem_of_ne_nil markets some_market
  cases unit : (pickCheapest markets (fun _ _ => some price) typeId).1 with
  | none =>
    cases market : (pickCheapest markets (fun _ _ => some price) typeId).2 with
    | none =>
      rw [unit, market] at cheapest
      exact absurd (cheapest m.id (List.mem_map_of_mem hm)) (Option.some_ne_none price)
    | some _ =>
      rw [unit, market] at cheapest
      exact absurd cheapest id
  | some p =>
    cases market : (pickCheapest markets (fun _ _ => some price) typeId).2 with
    | none =>
      rw [unit, market] at cheapest
      exact absurd cheapest id
    | some _ =>
      rw [unit, market] at cheapest
      exact cheapest.1.2.symm

/-- At any price the rows, given by type and quantity, are added up and stored. -/
private theorem stored_iff (doc : A.Documented) (markets : List Market) {rows : List (Int × Int)}
    (stored : ∀ r ∈ rows, 0 < r.2 ∧ r.2 ≤ i64Max) :
    (∀ quotes : Quotes StoredPrice, ∃ cents, estimateTotal A (rows.map
      fun r => ((pickCheapest markets quotes r.1).1, r.2)) = .ok cents) ↔
      markets = [] ∨ (rows.map Prod.snd).sum ≤ 10000 := by
  have quantities : ∀ quotes : Quotes StoredPrice,
      quantity (rows.map fun r => ((pickCheapest markets quotes r.1).1, r.2)) =
        (rows.map Prod.snd).sum := by
    intro quotes
    unfold quantity
    rw [List.map_map]
    rfl
  constructor
  · intro always
    by_contra large
    obtain ⟨some_market, many⟩ := not_or.mp large
    obtain ⟨cents, h⟩ := always fun _ _ => some maxPrice
    refine estimateTotal_large doc (fun r hr => ?_) ?_ cents h
    · obtain ⟨x, hx, rfl⟩ := List.mem_map.mp hr
      exact ⟨pickCheapest_constant some_market maxPrice x.1, stored x hx⟩
    · rw [quantities]
      exact not_le.mp many
  · rintro (rfl | few) quotes
    · exact ⟨0, estimateTotal_unpriced fun r hr => by
        obtain ⟨x, -, rfl⟩ := List.mem_map.mp hr
        rfl⟩
    · refine ⟨_, estimateTotal_exact doc (fun r hr => ?_) ((quantities quotes).trans_le few)⟩
      obtain ⟨x, hx, rfl⟩ := List.mem_map.mp hr
      exact (stored x hx).1

private theorem createTotal_iff (doc : A.Documented) (markets : List Market) {rows : List NewLine}
    (stored : ∀ n ∈ rows, 0 < n.qty ∧ n.qty ≤ i64Max) :
    (∀ quotes, ∃ cents, createTotal A markets quotes rows = .ok cents) ↔
      markets = [] ∨ (rows.map NewLine.qty).sum ≤ 10000 := by
  have pairs : ∀ r ∈ rows.map fun n => (n.typeId, n.qty), 0 < r.2 ∧ r.2 ≤ i64Max := by
    intro r hr
    obtain ⟨n, hn, rfl⟩ := List.mem_map.mp hr
    exact stored n hn
  have h := stored_iff doc markets pairs
  simp only [List.map_map] at h
  exact h

/-- In whatever order the update returns the rows, and at any price. -/
def RecomputeStores (A : Arithmetic) (markets : List Market) (items : List ListItem) : Prop :=
  ∀ order, order.Perm items → ∀ quotes, ∃ cents, recomputeTotal A markets quotes order = .ok cents

private theorem recomputeStores_iff (doc : A.Documented) (markets : List Market)
    {items : List ListItem}
    (stored : ∀ it ∈ items, 0 < it.qtyRequested ∧ it.qtyRequested ≤ i64Max) :
    RecomputeStores A markets items ↔
      markets = [] ∨ (items.map ListItem.qtyRequested).sum ≤ 10000 := by
  have each : ∀ order : List ListItem, order.Perm items →
      ((∀ quotes, ∃ cents, recomputeTotal A markets quotes order = .ok cents) ↔
        markets = [] ∨ (items.map ListItem.qtyRequested).sum ≤ 10000) := by
    intro order perm
    have pairs : ∀ r ∈ order.map fun it => (it.typeId, it.qtyRequested),
        0 < r.2 ∧ r.2 ≤ i64Max := by
      intro r hr
      obtain ⟨it, hit, rfl⟩ := List.mem_map.mp hr
      exact stored it (perm.mem_iff.mp hit)
    have h := stored_iff doc markets pairs
    simp only [List.map_map] at h
    rw [← (perm.map ListItem.qtyRequested).sum_eq]
    exact h
  exact ⟨fun always => (each items (List.Perm.refl _)).mp (always items (List.Perm.refl _)),
    fun few order perm => (each order perm).mpr few⟩

def itemsOf (s : Db) (listId : Uuid) : List ListItem :=
  s.listItems.filter fun li => decide (li.listId = listId)

/-- The column is a `bigint` that is checked to be positive. -/
def StoredQuantities (s : Db) : Prop :=
  ∀ li ∈ s.listItems, 0 < li.qtyRequested ∧ li.qtyRequested ≤ i64Max

private theorem parsedLines_range {mb : Text} {lines : List NamedLine}
    (h : parsedLines u mb = .ok lines) : ∀ l ∈ lines, 0 < l.qty ∧ l.qty ≤ i64Max := by
  simp only [parsedLines, bind_eq_ok, require_eq_ok, pure_eq_ok] at h
  obtain ⟨-, -, -, -, -, -, rfl⟩ := h
  intro l hl
  obtain ⟨p, hp, rfl⟩ := List.mem_map.mp hl
  rw [Multibuy.parseMultibuy_eq] at hp
  exact (Multibuy.summary_sound hp).2

private theorem newLines_range {body : AddItemsBody} (bigint : ∀ q ∈ body.qty, q ≤ i64Max)
    {lines : List NamedLine} (h : body.newLines u = .ok lines) :
    ∀ l ∈ lines, 0 < l.qty ∧ l.qty ≤ i64Max := by
  unfold AddItemsBody.newLines at h
  split at h
  · simp only [bind_eq_ok] at h
    obtain ⟨-, -, h⟩ := h
    exact parsedLines_range h
  · rename_i name qty paste single amount
    simp only [bind_eq_ok, require_eq_ok, pure_eq_ok] at h
    obtain ⟨-, pos, rfl⟩ := h
    intro l hl
    obtain rfl := List.mem_singleton.mp hl
    exact ⟨pos, bigint qty amount⟩
  · cases h

private theorem range_of_typed {rows : List NewLine} {lines : List NamedLine}
    (typed : rows.map NewLine.qty = lines.map NamedLine.qty)
    (range : ∀ l ∈ lines, 0 < l.qty ∧ l.qty ≤ i64Max) :
    ∀ n ∈ rows, 0 < n.qty ∧ n.qty ≤ i64Max := by
  intro n hn
  obtain ⟨l, hl, same⟩ := List.mem_map.mp (typed ▸ List.mem_map_of_mem hn)
  exact same ▸ range l hl

private theorem map_qty_newItems {listId userId : Uuid} {rows : List NewLine} {ids : List Uuid}
    (len : ids.length = rows.length) :
    (Api.Lists.newItems listId userId rows ids).map ListItem.qtyRequested =
      rows.map NewLine.qty := by
  induction ids generalizing rows with
  | nil =>
    obtain rfl := List.length_eq_zero_iff.mp len.symm
    rfl
  | cons id ids ih =>
    cases rows with
    | nil => simp at len
    | cons n rows => exact congrArg (n.qty :: ·) (ih (by simpa using len))

private theorem itemsOf_addItems {s s' : Db} {limits : Limits} {userId listId : Uuid}
    {rows : List NewLine} {itemIds : List Uuid}
    (h : Api.Lists.addItems s limits userId listId rows itemIds = .ok s') :
    ∃ new, itemsOf s' listId = itemsOf s listId ++ new ∧
      new.map ListItem.qtyRequested = rows.map NewLine.qty := by
  obtain ⟨-, -, -, -, -, inserted⟩ := Api.Lists.addItems_ok h
  obtain ⟨len, -, -, rfl⟩ := Api.Lists.insertItems_ok inserted
  refine ⟨Api.Lists.newItems listId userId rows itemIds, ?_, map_qty_newItems len⟩
  unfold itemsOf
  rw [List.filter_append]
  congr 1
  refine List.filter_eq_self.mpr fun li hli => ?_
  obtain ⟨id, -, n, -, rfl⟩ := Api.Lists.mem_newItems hli
  exact decide_eq_true rfl

/-- The quantities of a list after one of its items is patched. -/
def patchedQty (itemId : Uuid) (qty : Option Int) (li : ListItem) : Int :=
  if li.id = itemId then qty.getD li.qtyRequested else li.qtyRequested

private theorem itemsOf_patchItem {s s' : Db} {userId listId itemId : Uuid}
    {body : Api.Lists.PatchItemBody}
    (h : Api.Lists.patchItem s userId listId itemId body = .ok s') :
    (itemsOf s' listId).map ListItem.qtyRequested =
      (itemsOf s listId).map (patchedQty itemId body.qtyRequested) := by
  obtain ⟨-, -, -, -, -, rfl⟩ := Api.Lists.patchItem_ok h
  unfold itemsOf updateWhere
  rw [List.filter_map, List.map_map]
  have same : (fun li : ListItem => decide (li.listId = listId)) ∘
      (fun li => if Api.Lists.onItem listId itemId li = true then body.assign li else li) =
      fun li => decide (li.listId = listId) := by
    funext li
    simp only [Function.comp_apply]
    split <;> rfl
  rw [same]
  refine List.map_congr_left fun li hli => ?_
  have own : li.listId = listId := by simpa using (List.mem_filter.mp hli).2
  by_cases hit : li.id = itemId <;>
    simp [Api.Lists.onItem, patchedQty, Api.Lists.PatchItemBody.assign, own, hit]

/-- At any prices of its markets the total of the request is added up and stored. -/
def CreateStores (A : Arithmetic) (u : CaseTables) (w : World) (c : Catalog) (body : CreateBody) :
    Prop :=
  ∀ rows markets, createRows u w body.multibuy = .ok rows →
    loadMarkets c body.marketIds = .ok markets →
    ∀ quotes, ∃ cents, createTotal A markets quotes rows = .ok cents

private theorem createStores_iff (doc : A.Documented) {s s' : Db} {c : Catalog} {limits : Limits}
    {userId groupId : Uuid} {body : CreateBody} {listId : Uuid} {itemIds : List Uuid}
    (h : create u w s c limits userId groupId body listId itemIds = .ok s') :
    CreateStores A u w c body ↔
      ((parseMultibuy u body.multibuy).lines.map ParsedLine.qty).sum ≤ 10000 := by
  obtain ⟨rows, hrows, -⟩ := create_resolved h
  have range : ∀ n ∈ rows, 0 < n.qty ∧ n.qty ≤ i64Max := by
    have found := hrows
    simp only [createRows, bind_eq_ok] at found
    obtain ⟨lines, parsed, r, -, -, -, typed⟩ := found
    exact range_of_typed (typedLines_ok typed) (parsedLines_range parsed)
  simp only [create, bind_eq_ok, validateMarketIdsSize, require_eq_ok] at h
  obtain ⟨-, -, -, -, -, ⟨-, ids, -⟩, -, -, -, -, -, -, -, -, -, -, markets, loaded, -⟩ := h
  have some_market : markets ≠ [] := by
    rintro rfl
    simp only [loadMarkets, bind_eq_ok, require_eq_ok, pure_eq_ok] at loaded
    obtain ⟨-, len, empty⟩ := loaded
    rw [empty] at len
    exact ids (List.length_eq_zero_iff.mp len.symm)
  have h := createTotal_iff doc markets range
  rw [createRows_ok hrows, or_iff_right some_market] at h
  refine Iff.trans ⟨fun always => always rows markets hrows loaded, ?_⟩ h
  intro always rows' markets' hrows' loaded'
  obtain rfl := Except.ok.inj (hrows.symm.trans hrows')
  obtain rfl := Except.ok.inj (loaded.symm.trans loaded')
  exact always

private theorem addItems_stores_iff (doc : A.Documented) {s s' : Db} {limits : Limits}
    {userId listId : Uuid} {body : AddItemsBody} {itemIds : List Uuid}
    (h : addItems u w s limits userId listId body itemIds = .ok s') (column : StoredQuantities s)
    (bigint : ∀ q ∈ body.qty, q ≤ i64Max) {lines : List NamedLine}
    (parsed : body.newLines u = .ok lines) (markets : List Market) :
    RecomputeStores A markets (itemsOf s' listId) ↔ markets = [] ∨
      ((itemsOf s listId).map ListItem.qtyRequested).sum + (lines.map NamedLine.qty).sum
        ≤ 10000 := by
  obtain ⟨lines', rows, parsed', typed, added⟩ := addItems_resolved h
  obtain rfl := Except.ok.inj (parsed.symm.trans parsed')
  obtain ⟨new, items, qtys⟩ := itemsOf_addItems added
  have range := range_of_typed typed (newLines_range bigint parsed)
  have stored : ∀ it ∈ itemsOf s' listId, 0 < it.qtyRequested ∧ it.qtyRequested ≤ i64Max := by
    intro it hit
    rw [items, List.mem_append] at hit
    rcases hit with old | fresh
    · exact column it (List.mem_filter.mp old).1
    · obtain ⟨n, hn, same⟩ := List.mem_map.mp (qtys ▸ List.mem_map_of_mem fresh)
      exact same ▸ range n hn
  rw [recomputeStores_iff doc markets stored, items, List.map_append, List.sum_append, qtys, typed]

private theorem patchItem_stores_iff (doc : A.Documented) {s s' : Db} {userId listId itemId : Uuid}
    {body : PatchItemBody} (h : patchItem u w s userId listId itemId body = .ok s')
    (column : StoredQuantities s) (bigint : ∀ q ∈ body.qtyRequested, q ≤ i64Max)
    (markets : List Market) :
    RecomputeStores A markets (itemsOf s' listId) ↔ markets = [] ∨
      ((itemsOf s listId).map (patchedQty itemId body.qtyRequested)).sum ≤ 10000 := by
  obtain ⟨type, patched⟩ := patchItem_resolved h
  have qtys := itemsOf_patchItem patched
  obtain ⟨-, -, -, -, positive, -⟩ := Api.Lists.patchItem_ok patched
  have stored : ∀ it ∈ itemsOf s' listId, 0 < it.qtyRequested ∧ it.qtyRequested ≤ i64Max := by
    intro it hit
    obtain ⟨li, hli, same⟩ := List.mem_map.mp (qtys ▸ List.mem_map_of_mem hit)
    have old := column li (List.mem_filter.mp hli).1
    rw [← same]
    unfold patchedQty
    split
    · cases given : body.qtyRequested with
      | none => exact old
      | some q => exact ⟨positive q given, bigint q given⟩
    · exact old
  rw [recomputeStores_iff doc markets stored, qtys]

end Requests

/-- A request that is accepted has an estimate that is computed and stored at any prices exactly
when its list asks for at most ten thousand units, or has no market to price them. -/
theorem estimate_stored_iff (A : Arithmetic) (doc : A.Documented) (u : CaseTables) (w : World) :
    (∀ s c limits userId groupId body listId itemIds s',
      create u w s c limits userId groupId body listId itemIds = .ok s' →
      (CreateStores A u w c body ↔
        ((parseMultibuy u body.multibuy).lines.map ParsedLine.qty).sum ≤ 10000)) ∧
    (∀ s limits userId listId body itemIds s' lines,
      addItems u w s limits userId listId body itemIds = .ok s' → StoredQuantities s →
      (∀ q ∈ body.qty, q ≤ i64Max) → body.newLines u = .ok lines →
      ∀ markets, (RecomputeStores A markets (itemsOf s' listId) ↔ markets = [] ∨
        ((itemsOf s listId).map ListItem.qtyRequested).sum + (lines.map NamedLine.qty).sum
          ≤ 10000)) ∧
    ∀ s userId listId itemId body s',
      patchItem u w s userId listId itemId body = .ok s' → StoredQuantities s →
      (∀ q ∈ body.qtyRequested, q ≤ i64Max) →
      ∀ markets, (RecomputeStores A markets (itemsOf s' listId) ↔ markets = [] ∨
        ((itemsOf s listId).map (patchedQty itemId body.qtyRequested)).sum ≤ 10000) := by
  refine ⟨?_, ?_, ?_⟩
  · intro s c limits userId groupId body listId itemIds s' h
    exact createStores_iff doc h
  · intro s limits userId listId body itemIds s' lines h column bigint parsed markets
    exact addItems_stores_iff doc h column bigint parsed markets
  · intro s userId listId itemId body s' h column bigint markets
    exact patchItem_stores_iff doc h column bigint markets

def knownType : World :=
  ⟨[⟨"tritanium".toList, "Tritanium".toList, 34, "Tritanium".toList⟩], true, fun _ => none, true⟩

def hub : Market := ⟨1, .npcHub, none, true, true⟩

/-- A group with one member and one list, of one item. -/
def pricedList : Db where
  directory := { groups := [⟨1, 0⟩], groupMemberships := [⟨1, 1, .member⟩] }
  lists := [⟨1, 1, 1, .open, 0, none⟩]
  listItems := [⟨1, 1, 34, "Tritanium", 9999, 0, 1, .open, 1⟩]

/-- Ten thousand units are stored, one unit more is not. -/
theorem estimate_stored_iff_pricedList :
    CreateStores reference asciiTables knownType ⟨[hub], []⟩ ⟨[1], 1, "Tritanium 10000".toList⟩ ∧
    (∃ s', addItems asciiTables knownType pricedList ⟨2, 2⟩ 1 1
        ⟨none, some "Tritanium".toList, some 1⟩ [2] = .ok s' ∧
      RecomputeStores reference [hub] (itemsOf s' 1)) ∧
    ∃ s', patchItem asciiTables knownType pricedList 1 1 1 ⟨some 10001, none⟩ = .ok s' ∧
      ¬ RecomputeStores reference [hub] (itemsOf s' 1) := by
  have column : StoredQuantities pricedList := by
    unfold StoredQuantities
    decide +kernel
  have accepted {x : Except ApiError Db} (ok : x.isOk = true) : ∃ s', x = .ok s' := by
    cases x with
    | ok s' => exact ⟨s', rfl⟩
    | error e => cases ok
  obtain ⟨created, added, patched⟩ :=
    estimate_stored_iff reference documented_reference asciiTables knownType
  refine ⟨?_, ?_, ?_⟩
  · obtain ⟨s', h⟩ := @accepted (create asciiTables knownType pricedList ⟨[hub], []⟩ ⟨2, 2⟩ 1 1
      ⟨[1], 1, "Tritanium 10000".toList⟩ 2 [2]) (by decide +kernel)
    refine (created _ _ _ _ _ _ _ _ _ h).mpr ?_
    decide +kernel
  · obtain ⟨s', h⟩ := @accepted (addItems asciiTables knownType pricedList ⟨2, 2⟩ 1 1
        ⟨none, some "Tritanium".toList, some 1⟩ [2]) (by decide +kernel)
    refine ⟨s', h, (added _ _ _ _ _ _ _ _ h column (by decide +kernel) rfl _).mpr (.inr ?_)⟩
    decide +kernel
  · obtain ⟨s', h⟩ := @accepted (patchItem asciiTables knownType pricedList 1 1 1
      ⟨some 10001, none⟩) (by decide +kernel)
    refine ⟨s', h, ?_⟩
    rw [patched _ _ _ _ _ _ h column (by decide +kernel)]
    decide +kernel

/-- A quantity that the parser accepts panics in the product; another one, whose total is still a
decimal, does not fit the column. -/
theorem huge_quantity_fails :
    let request (mb : String) := create asciiTables knownType pricedList ⟨[hub], []⟩ ⟨2, 2⟩ 1 1
      ⟨[1], 1, mb.toList⟩ 2 [2]
    let total (mb : String) := (createRows asciiTables knownType mb.toList).toOption.map
      (createTotal reference [hub] fun _ _ => some maxPrice)
    (request "Tritanium 9223372036854775807").isOk = true ∧
    total "Tritanium 9223372036854775807" = some (.error .panic) ∧
    (request "Tritanium 10001").isOk = true ∧
    total "Tritanium 10001" = some (.error .numericFieldOverflow) := by
  decide +kernel
end JitaCart.Markets.Overflow
