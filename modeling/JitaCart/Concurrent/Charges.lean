/- module: JitaCart/Concurrent/Charges
   source: backend/crates/api/src/fulfillment/fulfillments.rs,
     backend/crates/api/src/fulfillment/reimbursements.rs (upsert_reimbursement)
   digest: The account of each cycle, guarded by its list, and what statements do to it. -/

import JitaCart.Concurrent.Postings

set_option autoImplicit false
set_option relaxedAutoImplicit false

namespace JitaCart.Concurrent.Postings

open Schema Base.Table Base.Request Base.Balance Base.ReadCommitted Books Trade
open Api.Reimbursements (cycle takeAmounts moneyFits moneyNonneg proposed)

/-- The reimbursement of the cycle amounts to the purchases that are charged to it. -/
def Charged (plan : Ledger) (k : Cycle) (s : Shop) : Prop :=
  BalancedAt plan.cycleOf Fulfillment.live Fulfillment.cost (fun d => some d.cycle) Due.subtotal
    s.fulfillments (s.reimbursements.map dueOf) (some k)

section Accounts
variable {plan : Ledger} {s s' : Shop} {k : Cycle}

theorem onList_of_cycleOf {f : Fulfillment} (h : plan.cycleOf f = some k) :
    OnList plan k.1 f := by
  obtain ⟨li, payer, rp, hp, hli, -, -, -, rfl⟩ := Ledger.cycleOf_eq_some.mp h
  exact ⟨li, hli, rfl⟩

private theorem charged_agree {locks : List Row} (good : Planned plan s) (good' : Planned plan s')
    (same : Agree plan locks s s') (held : .list k.1 ∈ locks) (h : Charged plan k s) :
    Charged plan k s' := by
  refine h.congr good.purchases.nodup good'.purchases.nodup (fun f hf => ?_) fun d hd => ?_
  · exact same.purchases k.1 held f (onList_of_cycleOf hf)
  · exact same.dues k.1 held d (congrArg (·.1) (Option.some.inj hd))

/-- The accounts of a list are guarded by the list. -/
def accounts (plan : Ledger) : Guard (postings plan) Cycle where
  row k := .list k.1
  holds := Charged plan
  same := charged_agree

theorem cycleOf_ledger (good : Planned plan s) {f : Fulfillment} (hf : f ∈ s.fulfillments) :
    (ledger s.toDb).cycleOf f = plan.cycleOf f := by
  obtain ⟨li, hli⟩ := Option.isSome_iff_exists.mp (good.bought f hf).1
  obtain ⟨mem, id⟩ := lookup_mem hli
  obtain ⟨planned, list⟩ := good.line li mem
  obtain ⟨l, hl⟩ := Option.isSome_iff_exists.mp list
  obtain ⟨lmem, lid⟩ := lookup_mem hl
  have line : (ledger s.toDb).line? f.listItemId = plan.line? f.listItemId := by
    rw [line?_ledger]
    exact (congrArg (Option.map lineOf) hli).trans (id ▸ planned.symm)
  have payer : (ledger s.toDb).payer? li.listId = plan.payer? li.listId := by
    rw [payer?_ledger]
    exact (congrArg (Option.map ListRow.payer) hl).trans (lid ▸ (good.payer l lmem).symm)
  have found : plan.line? f.listItemId = some (lineOf li) := id ▸ planned
  have users : (ledger s.toDb).directory = plan.directory := good.directory
  unfold Ledger.cycleOf
  rw [line, found, users]
  simp only [Option.bind_eq_bind, Option.bind_some]
  rw [show (lineOf li).listId = li.listId from rfl, payer]

theorem ledgerOk_of_charged (ok : plan.Ok) (good : Planned plan s) (h : ∀ k, Charged plan k s) :
    (ledger s.toDb).Ok := by
  have users : (ledger s.toDb).directory = plan.directory := good.directory
  have payer (l : ListRow) (hl : l ∈ s.lists) : plan.payer? l.id = some l.payer := good.payer l hl
  have known (id : Uuid) (hs : (s.list? id).isSome) :
      (ledger s.toDb).payer? id = plan.payer? id ∧ (ledger s.toDb).payer? id ≠ none := by
    obtain ⟨l, hl⟩ := Option.isSome_iff_exists.mp hs
    obtain ⟨mem, rfl⟩ := lookup_mem hl
    rw [payer?_ledger, payer l mem]
    exact ⟨congrArg (Option.map ListRow.payer) hl, by simp [show s.list? l.id = some l from hl]⟩
  refine ⟨users ▸ ok.directory, good.lists.map fun _ => rfl, good.items.map fun _ => rfl,
    good.purchases, good.dues.map fun _ => rfl, ?_, ?_, ?_, ?_, ?_, ?_, ?_⟩
  · intro x hx
    obtain ⟨li, hli, rfl⟩ := List.mem_map.mp hx
    exact (known _ (good.line li hli).2).2
  · intro x hx
    obtain ⟨li, hli, rfl⟩ := List.mem_map.mp hx
    rw [users]
    exact ok.lineRequester _ (lookup_mem (good.line li hli).1).1
  · intro x hx p hp
    obtain ⟨l, hl, rfl⟩ := List.mem_map.mp hx
    obtain ⟨a, ha, same⟩ := Option.map_eq_some_iff.mp (payer l hl)
    rw [users]
    exact ok.payerCorp a (lookup_mem ha).1 p (same ▸ hp)
  · intro f hf
    obtain ⟨li, hli⟩ := Option.isSome_iff_exists.mp (good.bought f hf).1
    rw [line?_ledger]
    simp [hli]
  · intro f hf
    obtain ⟨k, hk⟩ := Option.ne_none_iff_exists'.mp (good.bought f hf).2
    obtain ⟨-, -, -, hp, -, -, -, hhp, -⟩ := Ledger.cycleOf_eq_some.mp hk
    rw [users, hhp]
    simp
  · intro d hd
    obtain ⟨r, hr, rfl⟩ := List.mem_map.mp hd
    obtain ⟨⟨payer, requester, hpayer, funded, who, rest⟩, list⟩ := good.due r hr
    refine ⟨payer, requester, (known _ list).1.trans hpayer, funded, who, ?_⟩
    rw [users]
    exact rest
  · refine Balanced.congr_key (?_ : Balanced plan.cycleOf _ _ _ _ _ _) fun f hf _ =>
      cycleOf_ledger good hf
    refine balanced_of_at ?_ fun k => ?_
    · have keyed : Keyed Due.cycle (s.reimbursements.map dueOf) := good.cycles.map fun _ => rfl
      have each := List.Nodup.map (Option.some_injective Cycle) keyed
      rw [List.map_map] at each
      exact each
    · cases k with
      | some k => exact h k
      | none =>
        refine ⟨fun f hf _ missing => absurd missing (good.bought f hf).2, fun d _ missing => ?_⟩
        cases missing

private theorem cycleOf_addLines {L : Ledger} {lines : List Line} {f : Fulfillment}
    (line : L.line? f.listItemId ≠ none) : (L.addLines lines).cycleOf f = L.cycleOf f := by
  obtain ⟨li, hli⟩ := Option.ne_none_iff_exists'.mp line
  have same : (L.addLines lines).line? f.listItemId = some li := lookup_append_of_some hli
  unfold Ledger.cycleOf
  rw [same, hli]
  rfl

theorem planned_of_ledger {lines : List Line} (ok : (ledger s.toDb).Ok)
    (new : ((ledger s.toDb).addLines lines).Ok) :
    Planned ((ledger s.toDb).addLines lines) s := by
  have listed (id : Uuid) (h : (ledger s.toDb).payer? id ≠ none) : (s.list? id).isSome := by
    rw [payer?_ledger] at h
    simpa [Option.isSome_iff_ne_none] using h
  have row {id : Uuid} {l : ListRow} (h : s.list? id = some l) :
      (ledger s.toDb).payer? id = some l.payer := by
    rw [payer?_ledger, h]
    rfl
  have lists : Keyed ListRow.id s.lists :=
    Keyed.of_map (g := accountOf) (fun _ => rfl) ok.accounts
  have items : Keyed ListItem.id s.listItems := Keyed.of_map (g := lineOf) (fun _ => rfl) ok.lines
  have dues : Keyed Reimbursement.id s.reimbursements :=
    Keyed.of_map (g := dueOf) (fun _ => rfl) ok.dues
  refine ⟨rfl, lists, items, ok.purchases, dues, keyed_cycle ok, fun l hl => ?_, fun li hli => ?_,
    fun f hf => ?_, fun r hr => ?_⟩
  · exact row ((lookup_eq_some lists).mpr ⟨hl, rfl⟩)
  · have mem : lineOf li ∈ (ledger s.toDb).lines := List.mem_map_of_mem hli
    exact ⟨(lookup_eq_some new.lines).mpr ⟨List.mem_append_left _ mem, rfl⟩,
      listed _ (ok.lineAccount _ mem)⟩
  · have line := ok.purchaseLine f hf
    refine ⟨?_, ?_⟩
    · rw [line?_ledger] at line
      simpa [Option.isSome_iff_ne_none] using line
    · obtain ⟨k, hk⟩ := ok.cycleOf_some hf
      rw [cycleOf_addLines line, hk]
      simp
  · have due := ok.due (dueOf r) (List.mem_map_of_mem hr)
    refine ⟨due, listed _ fun missing => ?_⟩
    obtain ⟨payer, -, hpayer, -⟩ := due
    cases missing.symm.trans hpayer

theorem charged_of_ledger {lines : List Line} (ok : (ledger s.toDb).Ok) (k : Cycle) :
    Charged ((ledger s.toDb).addLines lines) k s := by
  refine Balanced.under (Balanced.congr_key ok.balanced fun f hf _ => ?_) (some k)
  exact cycleOf_addLines (ok.purchaseLine f hf)

end Accounts

section Writes
variable {plan : Ledger} {s : Shop} {k : Cycle}

theorem charged_purchase (good : Planned plan s) {f : Fulfillment} {own : Cycle}
    (hf : plan.cycleOf f = some own)
    (old : ∀ g ∈ s.fulfillments, g.id = f.id → plan.cycleOf g = some own) (other : k ≠ own)
    (h : Charged plan k s) : Charged plan k (redo (.put (.fulfillment f)) s) := by
  have keyed : Keyed Fulfillment.id (replace Fulfillment.id f.id (some f) s.fulfillments) :=
    keyed_replace good.purchases (by simp)
  refine h.congr good.purchases.nodup keyed.nodup (fun g hg => ?_) fun _ _ => Iff.rfl
  refine mem_replace.trans ⟨fun hm => ?_, fun hm => .inl ⟨hm, fun id => ?_⟩⟩
  · rcases hm with ⟨hm, -⟩ | new
    · exact hm
    · obtain rfl := Option.some.inj new
      exact absurd (Option.some.inj (hg.symm.trans hf)) other
  · exact other (Option.some.inj (hg.symm.trans (old g hm id)))

/-- The account of a cycle is right once its reimbursement has the right amount. -/
theorem charged_due {before : Option Reimbursement} {r' : Reimbursement}
    (own : ∀ r ∈ s.reimbursements, r.id = r'.id ↔ cycle r = cycle r')
    (amount : r'.subtotalIsk = sumWhere
      (onKey plan.cycleOf Fulfillment.live (some (cycle r'))) Fulfillment.cost s.fulfillments)
    (rest : ∀ k, k ≠ cycle r' → Charged plan k s) (k : Cycle) :
    Charged plan k (redo (.putReimbursement before r') s) := by
  by_cases mine : k = cycle r'
  · subst mine
    refine ⟨fun _ _ _ _ => ⟨dueOf r', mem_dues_put.mpr (.inr rfl), rfl⟩, fun d hd hk => ?_⟩
    rcases mem_dues_put.mp hd with ⟨hd, id⟩ | rfl
    · obtain ⟨r, hr, rfl⟩ := List.mem_map.mp hd
      exact absurd ((own r hr).mpr (Option.some.inj hk)) id
    · exact amount
  · have h := rest k mine
    refine ⟨fun f hf live hk => ?_, fun d hd hk => ?_⟩
    · obtain ⟨d, hd, hdk⟩ := h.covered f hf live hk
      refine ⟨d, mem_dues_put.mpr (.inl ⟨hd, fun id => mine ?_⟩), hdk⟩
      obtain ⟨r, hr, rfl⟩ := List.mem_map.mp hd
      exact (Option.some.inj hdk).symm.trans ((own r hr).mp id)
    · rcases mem_dues_put.mp hd with ⟨hd, -⟩ | rfl
      · exact h.exact d hd hk
      · exact absurd (Option.some.inj hk).symm mine

private theorem charged_same {r r' : Reimbursement} (good : Planned plan s)
    (current : s.reimbursement? r.id = some r) (same : dueOf r' = dueOf r)
    (h : Charged plan k s) : Charged plan k (redo (.putReimbursement (some r) r') s) := by
  have mem : r ∈ s.reimbursements := (lookup_mem current).1
  have id : r'.id = r.id := congrArg Due.id same
  refine h.congr good.purchases.nodup good.purchases.nodup (fun _ _ => Iff.rfl) fun d _ => ?_
  rw [mem_dues_put]
  constructor
  · rintro (⟨hd, -⟩ | rfl)
    · exact hd
    · exact same ▸ List.mem_map_of_mem mem
  · intro hd
    by_cases own : d.id = r'.id
    · obtain ⟨x, hx, rfl⟩ := List.mem_map.mp hd
      have : x = r := good.dues.eq_of_key hx mem (Eq.trans own id)
      exact .inr (this ▸ same.symm)
    · exact .inl ⟨hd, own⟩

private theorem charged_still {s' : Shop} (still : Still s s') (h : Charged plan k s) :
    Charged plan k s' := by
  unfold Charged at h ⊢
  rw [still.purchases, still.dues]
  exact h

end Writes

section Silent
variable {plan : Ledger} {s : Shop} {q : TradeRequest} {st : Statement Shop Row}

/-- Writes of rows that the books do not depend on. -/
structure Remote (w : Write) : Prop where
  still : ∀ t : Shop, Still t (redo w t)
  posts : ∀ plan t, Posts plan w t
  entitled : ∀ plan locks, Entitled plan locks w

theorem silent_remote {ws : List Write} (h : ∀ w ∈ ws, Remote w) :
    (accounts plan).Silent q st s ws := by
  induction ws generalizing s with
  | nil => exact Guard.silent_nil
  | cons w ws ih =>
    have first := h w List.mem_cons_self
    exact Guard.silent_cons (first.posts plan s) (fun held _ => first.entitled plan held)
      (fun _ hk => charged_still (first.still s) hk) (ih fun x hx => h x (List.mem_cons_of_mem w hx))

theorem silent_items {α : Type} {set : α → ListItem} {found : List α}
    (h : ∀ x ∈ found, plan.line? (set x).id = some (lineOf (set x)) ∧
      (s.list? (set x).listId).isSome) :
    (accounts plan).Silent q st s (found.map fun x => .put (.item (set x))) := by
  induction found generalizing s with
  | nil => exact Guard.silent_nil
  | cons x found ih =>
    exact Guard.silent_cons (h x List.mem_cons_self) (fun _ _ => trivial) (fun _ hk => hk)
      (ih fun y hy => h y (List.mem_cons_of_mem x hy))

theorem silent_lists {set : ListRow → ListRow} {found : List ListRow}
    (h : ∀ l ∈ found, plan.payer? (set l).id = some (set l).payer) :
    (accounts plan).Silent q st s (found.map fun l => .put (.list (set l))) := by
  induction found generalizing s with
  | nil => exact Guard.silent_nil
  | cons l found ih =>
    exact Guard.silent_cons (h l List.mem_cons_self) (fun _ _ => trivial) (fun _ hk => hk)
      (ih fun y hy => h y (List.mem_cons_of_mem l hy))

theorem silent_dues {set : Reimbursement → Reimbursement} {found : List Reimbursement}
    (good : Planned plan s) (keyed : Keyed Reimbursement.id found)
    (h : ∀ r ∈ found, s.reimbursement? r.id = some r ∧ dueOf (set r) = dueOf r ∧
      .reimbursement r.id ∈ st.planned) :
    (accounts plan).Silent q st s (found.map fun r => .putReimbursement (some r) (set r)) := by
  induction found generalizing s with
  | nil => exact Guard.silent_nil
  | cons r found ih =>
    obtain ⟨fresh, keyed⟩ := List.nodup_cons.mp keyed
    obtain ⟨current, same, planned⟩ := h r List.mem_cons_self
    have id : (set r).id = r.id := congrArg Due.id same
    have amount : (set r).subtotalIsk = r.subtotalIsk := congrArg Due.subtotal same
    have posts : Posts plan (.putReimbursement (some r) (set r)) s :=
      ⟨current, by rw [same, amount]; rfl⟩
    refine Guard.silent_cons posts (fun held sub => ?_)
      (fun _ hk => charged_same good current same hk)
      (ih (planned_redo good posts) keyed fun x hx => ?_)
    · exact ⟨id ▸ sub _ planned, fun new => absurd (congrArg some same.symm) new⟩
    · obtain ⟨currentx, rest⟩ := h x (List.mem_cons_of_mem r hx)
      have other : x.id ≠ r.id := fun eq => fresh (eq ▸ List.mem_map_of_mem hx)
      refine ⟨?_, rest⟩
      refine (lookup_replace (by simp) x.id).trans ?_
      rw [if_neg (id ▸ other)]
      exact currentx

end Silent

end JitaCart.Concurrent.Postings
