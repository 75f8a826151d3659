/- module: JitaCart/Books/Ledger
   source: none (abstract model of the money side of the database)
   digest: Accounts, lines, purchases and dues, and the steps that keep them balanced. -/

import JitaCart.Base.Balance
import JitaCart.Directory

/-!
The ledger keeps of the database what decides who owes whom: the payer of each
list, the requester of each item, the purchases, and for each reimbursement its
parties and subtotal. Statuses, claims, tips and contracts are not part of it, so
most requests do not change it at all.
-/

set_option autoImplicit false
set_option relaxedAutoImplicit false

namespace JitaCart.Books

open Schema Base.Table Base.Balance Directory

structure Account where
  id : Uuid
  payer : Option Payer

structure Line where
  id : Uuid
  listId : Uuid
  requester : Uuid

structure Due where
  id : Uuid
  listId : Uuid
  requester : Option Uuid
  requesterPrincipal : Uuid
  hauler : Uuid
  haulerPrincipal : Uuid
  subtotal : Cents
  corpFunded : Bool
  cancelled : Bool

structure Ledger where
  directory : Schema.Directory
  accounts : List Account
  lines : List Line
  purchases : List Fulfillment
  dues : List Due

/-- List, requester principal and hauler principal. -/
abbrev Cycle := Uuid × Uuid × Uuid

def Due.cycle (d : Due) : Cycle := (d.listId, d.requesterPrincipal, d.haulerPrincipal)

namespace Ledger

variable (L : Ledger)

def payer? (listId : Uuid) : Option (Option Payer) :=
  (lookup Account.id listId L.accounts).map (·.payer)

def line? (itemId : Uuid) : Option Line := lookup Line.id itemId L.lines

def cycleOf (f : Fulfillment) : Option Cycle := do
  let li ← L.line? f.listItemId
  let payer ← L.payer? li.listId
  let rp ← L.directory.requesterPrincipal payer li.requester
  let hp ← L.directory.userPrincipal f.haulerUserId
  return (li.listId, rp, hp)

/-- Same list, same hauler, and corp money or the requester's own item. -/
def covers (d : Due) (f : Fulfillment) : Bool :=
  (L.line? f.listItemId).any fun li =>
    decide (li.listId = d.listId) && decide (f.haulerUserId = d.hauler) &&
      (d.corpFunded || decide (d.requester = some li.requester))

def coveredCost (d : Due) : Cents :=
  sumWhere (fun f => f.live && L.covers d f) Fulfillment.cost L.purchases

/-- The parties of a due agree with the payer of its list and with the directory. -/
def DueOk (d : Due) : Prop :=
  ∃ payer requester, L.payer? d.listId = some payer ∧ d.corpFunded = payer.isSome ∧
    d.requester = (if payer.isSome then none else some requester) ∧
    L.directory.requesterPrincipal payer requester = some d.requesterPrincipal ∧
    L.directory.userPrincipal d.hauler = some d.haulerPrincipal ∧ d.cancelled = false

structure Ok : Prop where
  directory : DirectoryOk L.directory
  accounts : Keyed Account.id L.accounts
  lines : Keyed Line.id L.lines
  purchases : Keyed Fulfillment.id L.purchases
  dues : Keyed Due.id L.dues
  lineAccount : ∀ li ∈ L.lines, L.payer? li.listId ≠ none
  lineRequester : ∀ li ∈ L.lines, L.directory.userPrincipal li.requester ≠ none
  payerCorp : ∀ a ∈ L.accounts, ∀ p ∈ a.payer, L.directory.corpPrincipal p.corpId ≠ none
  purchaseLine : ∀ f ∈ L.purchases, L.line? f.listItemId ≠ none
  purchaseHauler : ∀ f ∈ L.purchases, L.directory.userPrincipal f.haulerUserId ≠ none
  due : ∀ d ∈ L.dues, L.DueOk d
  balanced : Balanced L.cycleOf Fulfillment.live Fulfillment.cost (fun d => some d.cycle)
    Due.subtotal L.purchases L.dues

/-- Set the subtotal of the cycle's due, or open it. -/
def charge (new : Due) (dues : List Due) : List Due :=
  if dues.any fun d => decide (d.cycle = new.cycle) then
    updateWhere (fun d => decide (d.cycle = new.cycle)) (fun d => { d with subtotal := new.subtotal })
      dues
  else dues ++ [new]

def addAccount (id : Uuid) : Ledger := { L with accounts := L.accounts ++ [⟨id, none⟩] }

def addLines (lines : List Line) : Ledger := { L with lines := L.lines ++ lines }

def setPayer (listId : Uuid) (payer : Option Payer) : Ledger :=
  { L with
    accounts := updateWhere (fun a => decide (a.id = listId)) (fun a => { a with payer := payer })
      L.accounts }

def buy (f : Fulfillment) (new : Due) : Ledger :=
  { L with purchases := L.purchases ++ [f], dues := charge new L.dues }

def reverse (fulfillmentId : Uuid) (now : Timestamp) (new : Due) : Ledger :=
  { L with
    purchases := updateWhere (fun f => decide (f.id = fulfillmentId) && f.live)
      (fun f => { f with reversedAt := some now }) L.purchases
    dues := charge new L.dues }

variable {L}

theorem cycleOf_eq_some {f : Fulfillment} {k : Cycle} :
    L.cycleOf f = some k ↔ ∃ li payer rp hp, L.line? f.listItemId = some li ∧
      L.payer? li.listId = some payer ∧
      L.directory.requesterPrincipal payer li.requester = some rp ∧
      L.directory.userPrincipal f.haulerUserId = some hp ∧ (li.listId, rp, hp) = k := by
  simp only [cycleOf, Option.bind_eq_bind, Option.bind_eq_some_iff, Option.pure_def,
    Option.some.injEq]
  constructor
  · rintro ⟨li, hli, payer, hpayer, rp, hrp, hp, hhp, hk⟩
    exact ⟨li, payer, rp, hp, hli, hpayer, hrp, hhp, hk⟩
  · rintro ⟨li, payer, rp, hp, hli, hpayer, hrp, hhp, hk⟩
    exact ⟨li, hli, payer, hpayer, rp, hrp, hp, hhp, hk⟩

theorem covers_eq_true {d : Due} {f : Fulfillment} :
    L.covers d f = true ↔ ∃ li, L.line? f.listItemId = some li ∧ li.listId = d.listId ∧
      f.haulerUserId = d.hauler ∧ (d.corpFunded = true ∨ d.requester = some li.requester) := by
  unfold covers
  cases L.line? f.listItemId with
  | none => simp
  | some li => simp [and_assoc]

/-- A due with consistent parties covers exactly the purchases charged to its cycle. -/
theorem covers_iff_cycleOf (dir : DirectoryOk L.directory) {d : Due} (hd : L.DueOk d)
    {f : Fulfillment} : L.covers d f = true ↔ L.cycleOf f = some d.cycle := by
  obtain ⟨payer, requester, hpayer, hcorp, hreq, hrp, hhp, -⟩ := hd
  rw [covers_eq_true, cycleOf_eq_some]
  constructor
  · rintro ⟨li, hli, hlist, hhauler, hwho⟩
    refine ⟨li, payer, d.requesterPrincipal, d.haulerPrincipal, hli, hlist ▸ hpayer, ?_,
      hhauler ▸ hhp, by rw [hlist]; rfl⟩
    cases payer with
    | some p => exact hrp
    | none =>
      have own : requester = li.requester := by
        rcases hwho with hwho | hwho
        · rw [hcorp] at hwho
          simp at hwho
        · rw [hreq] at hwho
          simpa using hwho
      exact own ▸ hrp
  · rintro ⟨li, payer', rp, hp, hli, hpayer', hrp', hhp', hk⟩
    obtain ⟨hlist, hr, hh⟩ : li.listId = d.listId ∧ rp = d.requesterPrincipal ∧
        hp = d.haulerPrincipal := by simpa [Due.cycle] using hk
    subst hr hh
    have same : payer' = payer := by
      rw [hlist, hpayer] at hpayer'
      exact (Option.some.inj hpayer').symm
    subst same
    refine ⟨li, hli, hlist, userPrincipal_inj dir hhp' hhp, ?_⟩
    cases payer' with
    | some p => exact .inl (by simpa using hcorp)
    | none =>
      have own : li.requester = requester := userPrincipal_inj dir hrp' hrp
      exact .inr (by rw [hreq, own]; rfl)

theorem coveredCost_eq (dir : DirectoryOk L.directory) {d : Due} (hd : L.DueOk d) :
    L.coveredCost d =
      sumWhere (onKey L.cycleOf Fulfillment.live (some d.cycle)) Fulfillment.cost L.purchases := by
  apply sumWhere_congr
  · intro f _
    unfold onKey
    congr 1
    rw [Bool.eq_iff_iff, decide_eq_true_iff]
    exact covers_iff_cycleOf dir hd
  · intro f _
    rfl

theorem Ok.subtotal_eq (ok : L.Ok) {d : Due} (hd : d ∈ L.dues) : d.subtotal = L.coveredCost d := by
  rw [coveredCost_eq ok.directory (ok.due d hd)]
  exact ok.balanced.exact d hd

theorem Ok.cycleOf_some (ok : L.Ok) {f : Fulfillment} (hf : f ∈ L.purchases) :
    ∃ k, L.cycleOf f = some k := by
  obtain ⟨li, hli⟩ := Option.ne_none_iff_exists'.mp (ok.purchaseLine f hf)
  have hmem := (lookup_mem hli).1
  obtain ⟨payer, hpayer⟩ := Option.ne_none_iff_exists'.mp (ok.lineAccount li hmem)
  obtain ⟨hp, hhp⟩ := Option.ne_none_iff_exists'.mp (ok.purchaseHauler f hf)
  obtain ⟨rp, hrp⟩ : ∃ rp, L.directory.requesterPrincipal payer li.requester = some rp := by
    cases payer with
    | none => exact Option.ne_none_iff_exists'.mp (ok.lineRequester li hmem)
    | some p =>
      obtain ⟨a, ha, hap⟩ := Option.map_eq_some_iff.mp hpayer
      exact Option.ne_none_iff_exists'.mp (ok.payerCorp a (lookup_mem ha).1 p hap)
  exact ⟨_, cycleOf_eq_some.mpr ⟨li, payer, rp, hp, hli, hpayer, hrp, hhp, rfl⟩⟩

private theorem Ok.covering (ok : L.Ok) {f : Fulfillment} (hf : f ∈ L.purchases)
    (hl : f.live = true) :
    ∃ d ∈ L.dues, L.covers d f = true := by
  obtain ⟨d, hd, hk⟩ := ok.balanced.covered f hf hl
  exact ⟨d, hd, (covers_iff_cycleOf ok.directory (ok.due d hd)).mpr hk.symm⟩

theorem Ok.directory_extends (ok : L.Ok) {e : Schema.Directory} (ok' : DirectoryOk e)
    (ext : Extends L.directory e) : Ok { L with directory := e } := by
  have user : ∀ u, L.directory.userPrincipal u ≠ none → e.userPrincipal u ≠ none := by
    intro u hu
    obtain ⟨p, hp⟩ := Option.ne_none_iff_exists'.mp hu
    simp [userPrincipal_extends ok.directory ok' ext hp]
  have corp : ∀ c, L.directory.corpPrincipal c ≠ none → e.corpPrincipal c ≠ none := by
    intro c hc
    obtain ⟨p, hp⟩ := Option.ne_none_iff_exists'.mp hc
    simp [corpPrincipal_extends ok.directory ok' ext hp]
  refine ⟨ok', ok.accounts, ok.lines, ok.purchases, ok.dues, ok.lineAccount,
    fun li hli => user _ (ok.lineRequester li hli),
    fun a ha p hp => corp _ (ok.payerCorp a ha p hp), ok.purchaseLine,
    fun f hf => user _ (ok.purchaseHauler f hf), ?_, ?_⟩
  · intro d hd
    obtain ⟨payer, requester, hpayer, hcorp, hreq, hrp, hhp, hc⟩ := ok.due d hd
    exact ⟨payer, requester, hpayer, hcorp, hreq,
      requesterPrincipal_extends ok.directory ok' ext hrp,
      userPrincipal_extends ok.directory ok' ext hhp, hc⟩
  · apply ok.balanced.congr_key
    intro f hf _
    obtain ⟨k, hk⟩ := ok.cycleOf_some hf
    rw [hk]
    obtain ⟨li, payer, rp, hp, hli, hpayer, hrp, hhp, hkey⟩ := cycleOf_eq_some.mp hk
    exact cycleOf_eq_some.mpr ⟨li, payer, rp, hp, hli, hpayer,
      requesterPrincipal_extends ok.directory ok' ext hrp,
      userPrincipal_extends ok.directory ok' ext hhp, hkey⟩

/-- What the ledger says about existing lists, items and purchases survives more rows. -/
private theorem Ok.grow (ok : L.Ok) (accounts : List Account) (lines : List Line)
    (hpayer : ∀ id payer, L.payer? id = some payer →
      (lookup Account.id id accounts).map (·.payer) = some payer)
    (hline : ∀ id li, L.line? id = some li → lookup Line.id id lines = some li)
    (haccounts : Keyed Account.id accounts) (hlines : Keyed Line.id lines)
    (hcorp : ∀ a ∈ accounts, ∀ p ∈ a.payer, L.directory.corpPrincipal p.corpId ≠ none)
    (hnew : ∀ li ∈ lines, (lookup Account.id li.listId accounts).map (·.payer) ≠ none ∧
      L.directory.userPrincipal li.requester ≠ none) :
    Ok { L with accounts := accounts, lines := lines } := by
  refine ⟨ok.directory, haccounts, hlines, ok.purchases, ok.dues, fun li hli => (hnew li hli).1,
    fun li hli => (hnew li hli).2, hcorp, ?_, ok.purchaseHauler, ?_, ?_⟩
  · intro f hf
    obtain ⟨li, hli⟩ := Option.ne_none_iff_exists'.mp (ok.purchaseLine f hf)
    exact Option.ne_none_iff_exists'.mpr ⟨li, hline _ li hli⟩
  · intro d hd
    obtain ⟨payer, requester, hp, rest⟩ := ok.due d hd
    exact ⟨payer, requester, hpayer _ _ hp, rest⟩
  · apply ok.balanced.congr_key
    intro f hf _
    obtain ⟨k, hk⟩ := ok.cycleOf_some hf
    rw [hk]
    obtain ⟨li, payer, rp, hp, hli, hpay, hrp, hhp, hkey⟩ := cycleOf_eq_some.mp hk
    exact cycleOf_eq_some.mpr ⟨li, payer, rp, hp, hline _ li hli, hpayer _ _ hpay, hrp, hhp, hkey⟩

theorem Ok.addAccount (ok : L.Ok) {id : Uuid} (fresh : L.payer? id = none) :
    (L.addAccount id).Ok := by
  have hfresh : ∀ a ∈ L.accounts, a.id ≠ id := by
    simpa [payer?, lookup_eq_none] using fresh
  have kept : ∀ i payer, L.payer? i = some payer →
      (lookup Account.id i (L.accounts ++ [⟨id, none⟩])).map (·.payer) = some payer := by
    intro i payer h
    obtain ⟨a, ha, rfl⟩ := Option.map_eq_some_iff.mp h
    rw [lookup_append_of_some ha]
    rfl
  apply ok.grow _ L.lines kept (fun _ _ h => h) (ok.accounts.append hfresh) ok.lines
  · intro a ha p hp
    rcases List.mem_append.mp ha with ha | ha
    · exact ok.payerCorp a ha p hp
    · obtain rfl := List.mem_singleton.mp ha
      simp at hp
  · intro li hli
    obtain ⟨payer, h⟩ := Option.ne_none_iff_exists'.mp (ok.lineAccount li hli)
    exact ⟨by rw [kept _ _ h]; simp, ok.lineRequester li hli⟩

theorem Ok.addLines (ok : L.Ok) {lines : List Line} (hkeyed : Keyed Line.id lines)
    (fresh : ∀ li ∈ lines, L.line? li.id = none)
    (hnew : ∀ li ∈ lines, L.payer? li.listId ≠ none ∧
      L.directory.userPrincipal li.requester ≠ none) : (L.addLines lines).Ok := by
  apply ok.grow L.accounts _ (fun _ _ h => h)
    (fun _ _ h => lookup_append_of_some h) ok.accounts
  · apply ok.lines.append_list hkeyed
    intro a ha b hb
    exact lookup_eq_none.mp (fresh b hb) a ha
  · exact ok.payerCorp
  · intro li hli
    rcases List.mem_append.mp hli with hli | hli
    · exact ⟨ok.lineAccount li hli, ok.lineRequester li hli⟩
    · exact hnew li hli

theorem Ok.dropLine (ok : L.Ok) (itemId : Uuid)
    (free : ∀ f ∈ L.purchases, f.listItemId = itemId → f.live = true → f.cost = 0) :
    Ok { L with
      lines := L.lines.filter fun li => decide (li.id ≠ itemId)
      purchases := L.purchases.filter fun f => decide (f.listItemId ≠ itemId) } := by
  have keyed := ok.lines.filter fun li => decide (li.id ≠ itemId)
  have hline : ∀ id li, id ≠ itemId → L.line? id = some li →
      lookup Line.id id (L.lines.filter fun li => decide (li.id ≠ itemId)) = some li := by
    intro id li hid hli
    obtain ⟨hmem, rfl⟩ := lookup_mem hli
    exact (lookup_eq_some keyed).mpr ⟨List.mem_filter.mpr ⟨hmem, by simpa using hid⟩, rfl⟩
  have kept : ∀ f ∈ L.purchases.filter fun f => decide (f.listItemId ≠ itemId),
      f ∈ L.purchases ∧ f.listItemId ≠ itemId := by
    intro f hf
    simpa using hf
  refine ⟨ok.directory, ok.accounts, keyed, ok.purchases.filter _, ok.dues,
    fun li hli => ok.lineAccount li (List.mem_of_mem_filter hli),
    fun li hli => ok.lineRequester li (List.mem_of_mem_filter hli), ok.payerCorp, ?_,
    fun f hf => ok.purchaseHauler f (kept f hf).1, ok.due, ?_⟩
  · intro f hf
    obtain ⟨hmem, hid⟩ := kept f hf
    obtain ⟨li, hli⟩ := Option.ne_none_iff_exists'.mp (ok.purchaseLine f hmem)
    exact Option.ne_none_iff_exists'.mpr ⟨li, hline _ li hid hli⟩
  · have smaller : Balanced L.cycleOf Fulfillment.live Fulfillment.cost (fun d => some d.cycle)
        Due.subtotal (L.purchases.filter fun f => decide (f.listItemId ≠ itemId)) L.dues := by
      apply ok.balanced.drop_free
      intro f hf hid hlive
      exact free f hf (by simpa using hid) hlive
    apply smaller.congr_key
    intro f hf _
    obtain ⟨hmem, hid⟩ := kept f hf
    obtain ⟨k, hk⟩ := ok.cycleOf_some hmem
    rw [hk]
    obtain ⟨li, payer, rp, hp, hli, hpay, hrp, hhp, hkey⟩ := cycleOf_eq_some.mp hk
    exact cycleOf_eq_some.mpr ⟨li, payer, rp, hp, hline _ li hid hli, hpay, hrp, hhp, hkey⟩

/-- A list without dues has no live purchases, so its payer may change. -/
theorem Ok.setPayer (ok : L.Ok) {listId : Uuid} {payer : Option Payer}
    (unused : ∀ d ∈ L.dues, d.listId ≠ listId)
    (hcorp : ∀ p ∈ payer, L.directory.corpPrincipal p.corpId ≠ none) :
    (L.setPayer listId payer).Ok := by
  have lookups : ∀ id, (L.setPayer listId payer).payer? id =
      if id = listId then (L.payer? id).map fun _ => payer else L.payer? id := by
    intro id
    unfold Ledger.setPayer payer?
    simp only
    rw [lookup_updateWhere]
    · cases h : lookup Account.id id L.accounts with
      | none => simp
      | some a =>
        obtain ⟨-, rfl⟩ := lookup_mem h
        by_cases hid : a.id = listId <;> simp [hid]
    · intro a
      rfl
  have elsewhere : ∀ id, id ≠ listId → (L.setPayer listId payer).payer? id = L.payer? id :=
    fun id hid => by rw [lookups, if_neg hid]
  have present : ∀ id, L.payer? id ≠ none → (L.setPayer listId payer).payer? id ≠ none := by
    intro id hid
    rw [lookups]
    split
    · simpa using hid
    · exact hid
  refine ⟨ok.directory, ok.accounts.updateWhere fun _ => rfl, ok.lines, ok.purchases, ok.dues,
    fun li hli => present _ (ok.lineAccount li hli), ok.lineRequester, ?_, ok.purchaseLine,
    ok.purchaseHauler, ?_, ?_⟩
  · intro a ha p hp
    obtain ⟨b, hb, rfl⟩ := mem_updateWhere.mp ha
    split at hp
    · exact hcorp p hp
    · exact ok.payerCorp b hb p hp
  · intro d hd
    obtain ⟨q, requester, hq, rest⟩ := ok.due d hd
    exact ⟨q, requester, by rw [elsewhere _ (unused d hd)]; exact hq, rest⟩
  · apply ok.balanced.congr_key
    intro f hf hl
    obtain ⟨d, hd, hcov⟩ := ok.covering hf hl
    obtain ⟨li, hli, hlist, -, -⟩ := covers_eq_true.mp hcov
    have off : li.listId ≠ listId := hlist ▸ unused d hd
    have line : (L.setPayer listId payer).line? f.listItemId = some li := hli
    unfold cycleOf
    rw [line, hli]
    simp only [Option.bind_eq_bind, Option.bind_some, elsewhere _ off]
    rfl

/-- Purchases change under one cycle, and its due is charged with what it now covers. -/
private theorem Ok.charged (ok : L.Ok) {ps : List Fulfillment} {new : Due} (hnew : L.DueOk new)
    (fresh : (∀ d ∈ L.dues, d.cycle ≠ new.cycle) → ∀ d ∈ L.dues, d.id ≠ new.id)
    (hkeyed : Keyed Fulfillment.id ps) (hline : ∀ f ∈ ps, L.line? f.listItemId ≠ none)
    (hhauler : ∀ f ∈ ps, L.directory.userPrincipal f.haulerUserId ≠ none)
    (within : ∀ f ∈ ps, f.live = true → L.cycleOf f ≠ some new.cycle → f ∈ L.purchases)
    (same : ∀ k ≠ some new.cycle,
      sumWhere (onKey L.cycleOf Fulfillment.live k) Fulfillment.cost ps =
        sumWhere (onKey L.cycleOf Fulfillment.live k) Fulfillment.cost L.purchases)
    (amount : new.subtotal = Ledger.coveredCost { L with purchases := ps } new) :
    Ok { L with purchases := ps, dues := charge new L.dues } := by
  have sum : new.subtotal =
      sumWhere (onKey L.cycleOf Fulfillment.live (some new.cycle)) Fulfillment.cost ps := by
    rw [amount]
    exact coveredCost_eq (L := { L with purchases := ps }) ok.directory hnew
  unfold charge
  split
  · rename_i known
    rw [List.any_eq_true] at known
    obtain ⟨d₀, hd₀, hk₀⟩ := known
    refine ⟨ok.directory, ok.accounts, ok.lines, hkeyed, ok.dues.updateWhere fun _ => rfl,
      ok.lineAccount, ok.lineRequester, ok.payerCorp, hline, hhauler, ?_, ?_⟩
    · intro e he
      obtain ⟨d, hd, rfl⟩ := mem_updateWhere.mp he
      obtain ⟨payer, requester, rest⟩ := ok.due d hd
      split
      · exact ⟨payer, requester, rest⟩
      · exact ⟨payer, requester, rest⟩
    · refine ok.balanced.refresh same within ⟨d₀, hd₀, ?_⟩ ?_ (fun _ => rfl) fun _ => sum
      · simpa using hk₀
      · intro d _
        simp
  · rename_i unknown
    have apart : ∀ d ∈ L.dues, d.cycle ≠ new.cycle := by
      intro d hd hk
      exact unknown (List.any_eq_true.mpr ⟨d, hd, by simpa using hk⟩)
    refine ⟨ok.directory, ok.accounts, ok.lines, hkeyed, ok.dues.append (fresh apart),
      ok.lineAccount, ok.lineRequester, ok.payerCorp, hline, hhauler, ?_, ?_⟩
    · intro d hd
      rcases List.mem_append.mp hd with hd | hd
      · exact ok.due d hd
      · obtain rfl := List.mem_singleton.mp hd
        exact hnew
    · exact ok.balanced.opened same within (fun d hd h => apart d hd (Option.some.inj h)) rfl sum

theorem Ok.buy (ok : L.Ok) {f : Fulfillment} {new : Due} (hnew : L.DueOk new)
    (fresh : (∀ d ∈ L.dues, d.cycle ≠ new.cycle) → ∀ d ∈ L.dues, d.id ≠ new.id)
    (hid : ∀ g ∈ L.purchases, g.id ≠ f.id) (hcov : L.covers new f = true)
    (amount : new.subtotal =
      Ledger.coveredCost { L with purchases := L.purchases ++ [f] } new) : (L.buy f new).Ok := by
  have hcycle := (covers_iff_cycleOf ok.directory hnew).mp hcov
  obtain ⟨li, payer, rp, hp, hli, -, -, hhp, -⟩ := cycleOf_eq_some.mp hcycle
  have each : ∀ g ∈ L.purchases ++ [f], g ∈ L.purchases ∨ g = f := by simp
  apply ok.charged hnew fresh (ok.purchases.append hid)
  · intro g hg
    rcases each g hg with hg | rfl
    · exact ok.purchaseLine g hg
    · simp [hli]
  · intro g hg
    rcases each g hg with hg | rfl
    · exact ok.purchaseHauler g hg
    · simp [hhp]
  · intro g hg _ hk
    rcases each g hg with hg | rfl
    · exact hg
    · exact absurd hcycle hk
  · intro k hk
    rw [sumWhere_append]
    have off : onKey L.cycleOf Fulfillment.live k f = false := by
      simp [onKey, hcycle, Ne.symm hk]
    simp [sumWhere_cons, off]
  · exact amount

theorem Ok.reverse (ok : L.Ok) {f : Fulfillment} {now : Timestamp} {new : Due}
    (hnew : L.DueOk new)
    (fresh : (∀ d ∈ L.dues, d.cycle ≠ new.cycle) → ∀ d ∈ L.dues, d.id ≠ new.id)
    (hf : f ∈ L.purchases) (hcov : L.covers new f = true)
    (amount : new.subtotal = Ledger.coveredCost
      { L with
        purchases := updateWhere (fun g => decide (g.id = f.id) && g.live)
          (fun g => { g with reversedAt := some now }) L.purchases } new) :
    (L.reverse f.id now new).Ok := by
  have hcycle := (covers_iff_cycleOf ok.directory hnew).mp hcov
  have self : ∀ g ∈ L.purchases, g.id = f.id → g = f := fun g hg hid =>
    ok.purchases.eq_of_key hg hf hid
  refine ok.charged hnew fresh (ok.purchases.updateWhere fun _ => rfl) ?_ ?_ ?_ ?_ amount
  · intro g hg
    obtain ⟨a, ha, rfl⟩ := mem_updateWhere.mp hg
    have := ok.purchaseLine a ha
    split <;> exact this
  · intro g hg
    obtain ⟨a, ha, rfl⟩ := mem_updateWhere.mp hg
    have := ok.purchaseHauler a ha
    split <;> exact this
  · intro g hg hl _
    obtain ⟨a, ha, rfl⟩ := mem_updateWhere.mp hg
    split at hl
    · simp [Fulfillment.live] at hl
    · rename_i keep
      rw [if_neg keep]
      exact ha
  · intro k hk
    apply sumWhere_updateWhere_congr
    · intro g hg hsel
      simp only [Bool.and_eq_true, decide_eq_true_eq] at hsel
      obtain rfl := self g hg hsel.1
      have off : onKey L.cycleOf Fulfillment.live k g = false := by
        simp [onKey, hcycle, Ne.symm hk]
      rw [off]
      simp [onKey, Fulfillment.live]
    · intro g _ _
      rfl

end Ledger

end JitaCart.Books
