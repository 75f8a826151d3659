/- module: JitaCart/Tenancy/Views
   source: backend/migrations/20260427000000_init.sql (foreign keys of the list tables)
   digest: The rows of one list, and which lists a write to each table can reach. -/

import JitaCart.Schema

/-!
Every row of the list tables belongs to one list: items, claims and
reimbursements by their own column, claim rows and fulfillments through their
item, suggestions through their reimbursement. `Within L M s s'` says that a
step stayed inside the lists `L`, and that its suggestions are on the lists `M`.
-/

set_option autoImplicit false
set_option relaxedAutoImplicit false

namespace JitaCart.Tenancy

open Schema Base.Table

def onList (s : Db) (listId itemId : Uuid) : Bool :=
  (s.item? itemId).any fun li => decide (li.listId = listId)

def owedOn (s : Db) (listId reimbursementId : Uuid) : Bool :=
  (s.reimbursement? reimbursementId).any fun r => decide (r.listId = listId)

structure ListView where
  rows : List ListRow
  items : List ListItem
  claims : List Claim
  claimItems : List ClaimItem
  fulfillments : List Fulfillment
  reimbursements : List Reimbursement
  deriving DecidableEq

def view (s : Db) (listId : Uuid) : ListView where
  rows := s.lists.filter fun l => decide (l.id = listId)
  items := s.listItems.filter fun li => decide (li.listId = listId)
  claims := s.claims.filter fun c => decide (c.listId = listId)
  claimItems := s.claimItems.filter fun ci => onList s listId ci.listItemId
  fulfillments := s.fulfillments.filter fun f => onList s listId f.listItemId
  reimbursements := s.reimbursements.filter fun r => decide (r.listId = listId)

def suggestionsOn (s : Db) (listId : Uuid) : List Suggestion :=
  s.suggestions.filter fun g => owedOn s listId g.reimbursementId

/-- Keys, and claim rows whose claim and item are on one list. -/
structure Placed (s : Db) : Prop where
  lists : Keyed ListRow.id s.lists
  items : Keyed ListItem.id s.listItems
  claims : Keyed Claim.id s.claims
  fulfillments : Keyed Fulfillment.id s.fulfillments
  reimbursements : Keyed Reimbursement.id s.reimbursements
  suggestions : Keyed Suggestion.id s.suggestions
  claimItems : ∀ ci ∈ s.claimItems, ∃ c li, s.claim? ci.claimId = some c ∧
    s.item? ci.listItemId = some li ∧ li.listId = c.listId

/-- No claim is deleted or moves to another list, and no list is created. -/
structure Stays (s s' : Db) : Prop where
  claims : ∀ id c, s.claim? id = some c → ∃ c', s'.claim? id = some c' ∧ c'.listId = c.listId
  lists : ∀ id, s.list? id = none → s'.list? id = none

/-- The lists outside `L`, and the suggestions outside `M`, are as they were. -/
structure Apart (L M : Uuid → Prop) (s s' : Db) : Prop where
  placed : Placed s'
  apart : ∀ l, ¬ L l → view s' l = view s l
  suggestions : ∀ l, ¬ M l → suggestionsOn s' l = suggestionsOn s l

structure Within (L M : Uuid → Prop) (s s' : Db) : Prop where
  placed : Placed s'
  apart : ∀ l, ¬ L l → view s' l = view s l
  suggestions : ∀ l, ¬ M l → suggestionsOn s' l = suggestionsOn s l
  stays : Stays s s'

section Composition
variable {L M L' M' : Uuid → Prop} {s m s' : Db}

theorem Stays.rfl (claims : s'.claims = s.claims) (lists : s'.lists = s.lists) :
    Stays s s' := by
  refine ⟨fun id c hc => ⟨c, ?_, Eq.refl _⟩, fun id hid => ?_⟩
  · unfold Db.claim?
    rwa [claims]
  · unfold Db.list?
    rwa [lists]

private theorem Stays.trans (h : Stays s m) (k : Stays m s') : Stays s s' := by
  refine ⟨fun id c hc => ?_, fun id hid => k.lists id (h.lists id hid)⟩
  obtain ⟨c₁, hc₁, same⟩ := h.claims id c hc
  obtain ⟨c₂, hc₂, same'⟩ := k.claims id c₁ hc₁
  exact ⟨c₂, hc₂, same'.trans same⟩

theorem Placed.refl (ok : Placed s) : Within L M s s :=
  ⟨ok, fun _ _ => rfl, fun _ _ => rfl, .rfl rfl rfl⟩

theorem Within.trans (h : Within L M s m) (k : Within L M m s') : Within L M s s' :=
  ⟨k.placed, fun l hl => (k.apart l hl).trans (h.apart l hl),
    fun l hl => (k.suggestions l hl).trans (h.suggestions l hl), h.stays.trans k.stays⟩

theorem Apart.trans (h : Apart L M s m) (k : Within L M m s') : Apart L M s s' :=
  ⟨k.placed, fun l hl => (k.apart l hl).trans (h.apart l hl),
    fun l hl => (k.suggestions l hl).trans (h.suggestions l hl)⟩

private theorem Within.mono (h : Within L M s s') (hL : ∀ l, L l → L' l) (hM : ∀ l, M l → M' l) :
    Within L' M' s s' :=
  ⟨h.placed, fun l hl => h.apart l fun hl' => hl (hL l hl'),
    fun l hl => h.suggestions l fun hl' => hl (hM l hl'), h.stays⟩

private theorem Within.toApart (h : Within L M s s') : Apart L M s s' :=
  ⟨h.placed, h.apart, h.suggestions⟩

end Composition

theorem view_ext {s s' : Db} {l : Uuid}
    (rows : s'.lists.filter (fun x => decide (x.id = l)) = s.lists.filter fun x => decide (x.id = l))
    (items : s'.listItems.filter (fun x => decide (x.listId = l)) =
      s.listItems.filter fun x => decide (x.listId = l))
    (claims : s'.claims.filter (fun x => decide (x.listId = l)) =
      s.claims.filter fun x => decide (x.listId = l))
    (claimItems : s'.claimItems.filter (fun x => onList s' l x.listItemId) =
      s.claimItems.filter fun x => onList s l x.listItemId)
    (fulfillments : s'.fulfillments.filter (fun x => onList s' l x.listItemId) =
      s.fulfillments.filter fun x => onList s l x.listItemId)
    (reimbursements : s'.reimbursements.filter (fun x => decide (x.listId = l)) =
      s.reimbursements.filter fun x => decide (x.listId = l)) : view s' l = view s l := by
  unfold view
  rw [ListView.mk.injEq]
  exact ⟨rows, items, claims, claimItems, fulfillments, reimbursements⟩

-- How the list of an item and of a reimbursement is found after a write.
private theorem onList_congr {s s' : Db} {listId : Uuid}
    (columns : ∀ id, (s'.item? id).map (·.listId) = (s.item? id).map (·.listId)) (id : Uuid) :
    onList s' listId id = onList s listId id := by
  have h := columns id
  unfold onList
  cases ha : s'.item? id <;> cases hb : s.item? id <;> simp_all

private theorem owedOn_congr {s s' : Db} {listId : Uuid}
    (columns : ∀ id, (s'.reimbursement? id).map (·.listId) =
      (s.reimbursement? id).map (·.listId)) (id : Uuid) :
    owedOn s' listId id = owedOn s listId id := by
  have h := columns id
  unfold owedOn
  cases ha : s'.reimbursement? id <;> cases hb : s.reimbursement? id <;> simp_all

private theorem column_updateWhere {α : Type} {key column : α → Uuid} {p : α → Bool} {g : α → α}
    {t : List α} (keep : ∀ r, key (g r) = key r ∧ column (g r) = column r) (id : Uuid) :
    (lookup key id (updateWhere p g t)).map column = (lookup key id t).map column := by
  rw [lookup_updateWhere fun r => (keep r).1, Option.map_map]
  congr 1
  funext r
  simp only [Function.comp_apply]
  split
  · exact (keep r).2
  · rfl

private theorem claimItems_congr {s s' : Db} (ok : Placed s)
    (rows : ∀ ci' ∈ s'.claimItems, ∃ ci ∈ s.claimItems, ci'.claimId = ci.claimId ∧
      ci'.listItemId = ci.listItemId)
    (items : ∀ id, (s'.item? id).map (·.listId) = (s.item? id).map (·.listId))
    (claims : ∀ id, (s'.claim? id).map (·.listId) = (s.claim? id).map (·.listId)) :
    ∀ ci ∈ s'.claimItems, ∃ c li, s'.claim? ci.claimId = some c ∧
      s'.item? ci.listItemId = some li ∧ li.listId = c.listId := by
  intro ci' hci'
  obtain ⟨ci, hci, hclaim, hitem⟩ := rows ci' hci'
  obtain ⟨c, li, hc, hli, placed⟩ := ok.claimItems ci hci
  have hc' := claims ci.claimId
  have hli' := items ci.listItemId
  rw [hc, Option.map_some] at hc'
  rw [hli, Option.map_some] at hli'
  obtain ⟨c', hc', hcl⟩ := Option.map_eq_some_iff.mp hc'
  obtain ⟨li', hli', hll⟩ := Option.map_eq_some_iff.mp hli'
  exact ⟨c', li', hclaim ▸ hc', hitem ▸ hli', hll.trans (placed.trans hcl.symm)⟩

section Writes
variable {L M : Uuid → Prop} {s : Db}

theorem Placed.elsewhere {s' : Db} (ok : Placed s) (lists : s'.lists = s.lists)
    (items : s'.listItems = s.listItems) (claims : s'.claims = s.claims)
    (claimItems : s'.claimItems = s.claimItems) (fulfillments : s'.fulfillments = s.fulfillments)
    (reimbursements : s'.reimbursements = s.reimbursements)
    (suggestions : s'.suggestions = s.suggestions) : Within L M s s' := by
  have item : ∀ id, s'.item? id = s.item? id := fun id => by unfold Db.item?; rw [items]
  have claim : ∀ id, s'.claim? id = s.claim? id := fun id => by unfold Db.claim?; rw [claims]
  have owed : ∀ id, s'.reimbursement? id = s.reimbursement? id := fun id => by
    unfold Db.reimbursement?
    rw [reimbursements]
  refine ⟨⟨lists ▸ ok.lists, items ▸ ok.items, claims ▸ ok.claims, fulfillments ▸ ok.fulfillments,
    reimbursements ▸ ok.reimbursements, suggestions ▸ ok.suggestions, ?_⟩, fun l _ => ?_,
    fun l _ => ?_, .rfl claims lists⟩
  · refine claimItems_congr ok (fun ci hci => ⟨ci, claimItems ▸ hci, rfl, rfl⟩) ?_ ?_
    · intro id
      rw [item]
    · intro id
      rw [claim]
  · simp only [view, onList, lists, items, claims, claimItems, fulfillments, reimbursements, item]
  · simp only [suggestionsOn, owedOn, suggestions, owed]

theorem Placed.updateLists (ok : Placed s) {p : ListRow → Bool} {g : ListRow → ListRow}
    (keep : ∀ l, (g l).id = l.id) (on : ∀ l ∈ s.lists, p l = true → L l.id) :
    Within L M s { s with lists := updateWhere p g s.lists } := by
  refine ⟨⟨ok.lists.updateWhere keep, ok.items, ok.claims, ok.fulfillments, ok.reimbursements,
    ok.suggestions, ok.claimItems⟩, fun l hl => ?_, fun _ _ => rfl,
    ⟨fun _ c hc => ⟨c, hc, rfl⟩, fun id hid => ?_⟩⟩
  · have rows := filter_updateWhere_off (p := fun x : ListRow => decide (x.id = l)) (q := p)
      (f := g) (t := s.lists) fun x hx hp => by
        have hne : x.id ≠ l := fun h => hl (h ▸ on x hx hp)
        simp [keep, hne]
    exact view_ext rows rfl rfl rfl rfl rfl
  · unfold Db.list? at hid ⊢
    rw [lookup_updateWhere keep, hid, Option.map_none]

theorem Placed.insertList (ok : Placed s) {row : ListRow} (fresh : s.list? row.id = none)
    (on : L row.id) : Apart L M s { s with lists := s.lists ++ [row] } := by
  refine ⟨⟨ok.lists.append fun a ha => lookup_eq_none.mp fresh a ha, ok.items, ok.claims,
    ok.fulfillments, ok.reimbursements, ok.suggestions, ok.claimItems⟩, fun l hl => ?_,
    fun _ _ => rfl⟩
  have hne : row.id ≠ l := fun h => hl (h ▸ on)
  have rows : (s.lists ++ [row]).filter (fun x => decide (x.id = l)) =
      s.lists.filter fun x => decide (x.id = l) := by
    simp [List.filter_append, hne]
  exact view_ext rows rfl rfl rfl rfl rfl

theorem Placed.updateItems (ok : Placed s) {p : ListItem → Bool} {g : ListItem → ListItem}
    (keep : ∀ li, (g li).id = li.id ∧ (g li).listId = li.listId)
    (on : ∀ li ∈ s.listItems, p li = true → L li.listId) :
    Within L M s { s with listItems := updateWhere p g s.listItems } := by
  have columns := column_updateWhere (p := p) (t := s.listItems) keep
  refine ⟨⟨ok.lists, ok.items.updateWhere fun li => (keep li).1, ok.claims, ok.fulfillments,
    ok.reimbursements, ok.suggestions,
    claimItems_congr ok (fun ci hci => ⟨ci, hci, rfl, rfl⟩) columns fun _ => rfl⟩,
    fun l hl => ?_, fun _ _ => rfl, .rfl rfl rfl⟩
  have rows := filter_updateWhere_off (p := fun x : ListItem => decide (x.listId = l)) (q := p)
    (f := g) (t := s.listItems) fun x hx hp => by
      have hne : x.listId ≠ l := fun h => hl (h ▸ on x hx hp)
      simp [(keep x).2, hne]
  have same : ∀ id, onList { s with listItems := updateWhere p g s.listItems } l id =
      onList s l id := onList_congr columns
  simp only [view, rows, same]

theorem Placed.insertItems (ok : Placed s) {new : List ListItem} (keyed : Keyed ListItem.id new)
    (fresh : ∀ li ∈ new, s.item? li.id = none) (on : ∀ li ∈ new, L li.listId) :
    Within L M s { s with listItems := s.listItems ++ new } := by
  have apart : ∀ a ∈ s.listItems, ∀ b ∈ new, a.id ≠ b.id := fun a ha b hb =>
    lookup_eq_none.mp (fresh b hb) a ha
  refine ⟨⟨ok.lists, ok.items.append_list keyed apart, ok.claims, ok.fulfillments,
    ok.reimbursements, ok.suggestions, fun ci hci => ?_⟩, fun l hl => ?_, fun _ _ => rfl,
    .rfl rfl rfl⟩
  · obtain ⟨c, li, hc, hli, placed⟩ := ok.claimItems ci hci
    exact ⟨c, li, hc, lookup_append_of_some hli, placed⟩
  · have rows : (s.listItems ++ new).filter (fun x => decide (x.listId = l)) =
        s.listItems.filter fun x => decide (x.listId = l) := by
      have none_new : new.filter (fun x => decide (x.listId = l)) = [] := by
        refine List.filter_eq_nil_iff.mpr fun li hli h => hl ?_
        exact of_decide_eq_true h ▸ on li hli
      rw [List.filter_append, none_new, List.append_nil]
    -- A new item is found under its own id only, and is not on this list.
    have same : ∀ id, onList { s with listItems := s.listItems ++ new } l id = onList s l id := by
      intro id
      unfold onList Db.item?
      cases h : lookup ListItem.id id s.listItems with
      | some li => rw [lookup_append_of_some h]
      | none =>
        unfold lookup at h ⊢
        rw [List.find?_append, h, Option.none_or]
        cases hnew : new.find? fun r => decide (r.id = id) with
        | none => rfl
        | some li =>
          have hne : li.listId ≠ l := fun heq => hl (heq ▸ on li (List.mem_of_find?_eq_some hnew))
          simp [hne]
    simp only [view, rows, same]

theorem Placed.updateClaims (ok : Placed s) {p : Claim → Bool} {g : Claim → Claim}
    (keep : ∀ c, (g c).id = c.id ∧ (g c).listId = c.listId)
    (on : ∀ c ∈ s.claims, p c = true → L c.listId) :
    Within L M s { s with claims := updateWhere p g s.claims } := by
  have columns := column_updateWhere (p := p) (t := s.claims) keep
  refine ⟨⟨ok.lists, ok.items, ok.claims.updateWhere fun c => (keep c).1, ok.fulfillments,
    ok.reimbursements, ok.suggestions,
    claimItems_congr ok (fun ci hci => ⟨ci, hci, rfl, rfl⟩) (fun _ => rfl) columns⟩,
    fun l hl => ?_, fun _ _ => rfl, fun id c hc => ?_, fun _ h => h⟩
  · have rows := filter_updateWhere_off (p := fun x : Claim => decide (x.listId = l)) (q := p)
      (f := g) (t := s.claims) fun x hx hp => by
        have hne : x.listId ≠ l := fun h => hl (h ▸ on x hx hp)
        simp [(keep x).2, hne]
    exact view_ext rfl rfl rows rfl rfl rfl
  · have column := columns id
    change _ = (s.claim? id).map (·.listId) at column
    rw [hc, Option.map_some, Option.map_eq_some_iff] at column
    exact column

theorem Placed.insertClaim (ok : Placed s) {c : Claim} (fresh : s.claim? c.id = none)
    (on : L c.listId) : Within L M s { s with claims := s.claims ++ [c] } := by
  refine ⟨⟨ok.lists, ok.items, ok.claims.append fun a ha => lookup_eq_none.mp fresh a ha,
    ok.fulfillments, ok.reimbursements, ok.suggestions, fun ci hci => ?_⟩, fun l hl => ?_,
    fun _ _ => rfl,
    fun _ c hc => ⟨c, lookup_append_of_some hc, rfl⟩, fun _ h => h⟩
  · obtain ⟨x, li, hx, hli, placed⟩ := ok.claimItems ci hci
    exact ⟨x, li, lookup_append_of_some hx, hli, placed⟩
  · have hne : c.listId ≠ l := fun h => hl (h ▸ on)
    have rows : (s.claims ++ [c]).filter (fun x => decide (x.listId = l)) =
        s.claims.filter fun x => decide (x.listId = l) := by
      simp [List.filter_append, hne]
    simp only [view, rows]
    rfl

theorem Placed.onList_claimItem (ok : Placed s) {ci : ClaimItem} (hci : ci ∈ s.claimItems)
    {c : Claim} (hc : s.claim? ci.claimId = some c) {l : Uuid} :
    onList s l ci.listItemId = true ↔ c.listId = l := by
  obtain ⟨x, li, hx, hli, placed⟩ := ok.claimItems ci hci
  obtain rfl : x = c := Option.some.inj (hx.symm.trans hc)
  simp [onList, hli, placed]

theorem Placed.updateClaimItems (ok : Placed s) {p : ClaimItem → Bool}
    {g : ClaimItem → ClaimItem}
    (keep : ∀ ci, (g ci).claimId = ci.claimId ∧ (g ci).listItemId = ci.listItemId)
    (on : ∀ ci ∈ s.claimItems, p ci = true → ∀ l, onList s l ci.listItemId = true → L l) :
    Within L M s { s with claimItems := updateWhere p g s.claimItems } := by
  refine ⟨⟨ok.lists, ok.items, ok.claims, ok.fulfillments, ok.reimbursements, ok.suggestions, ?_⟩,
    fun l hl => ?_, fun _ _ => rfl, .rfl rfl rfl⟩
  · refine claimItems_congr ok (fun ci' hci' => ?_) (fun _ => rfl) fun _ => rfl
    obtain ⟨ci, hci, rfl⟩ := mem_updateWhere.mp hci'
    refine ⟨ci, hci, ?_⟩
    split
    · exact keep ci
    · exact ⟨rfl, rfl⟩
  · have rows := filter_updateWhere_off (p := fun x : ClaimItem => onList s l x.listItemId)
      (q := p) (f := g) (t := s.claimItems) fun x hx hp => by
        have off : onList s l x.listItemId = false := by
          by_contra h
          exact hl (on x hx hp l (by simpa using h))
        simp [(keep x).2, off]
    exact view_ext rfl rfl rfl rows rfl rfl

theorem Placed.insertClaimItems (ok : Placed s) {new : List ClaimItem}
    (placed : ∀ ci ∈ new, ∃ c li, s.claim? ci.claimId = some c ∧
      s.item? ci.listItemId = some li ∧ li.listId = c.listId ∧ L li.listId) :
    Within L M s { s with claimItems := s.claimItems ++ new } := by
  refine ⟨⟨ok.lists, ok.items, ok.claims, ok.fulfillments, ok.reimbursements, ok.suggestions, ?_⟩,
    fun l hl => ?_, fun _ _ => rfl, .rfl rfl rfl⟩
  · intro ci hci
    rcases List.mem_append.mp hci with hci | hci
    · exact ok.claimItems ci hci
    · obtain ⟨c, li, hc, hli, same, -⟩ := placed ci hci
      exact ⟨c, li, hc, hli, same⟩
  · have none_new : new.filter (fun x => onList s l x.listItemId) = [] := by
      refine List.filter_eq_nil_iff.mpr fun ci hci h => hl ?_
      obtain ⟨c, li, -, hli, -, on⟩ := placed ci hci
      have : li.listId = l := by simpa [onList, hli] using h
      exact this ▸ on
    have rows : (s.claimItems ++ new).filter (fun x => onList s l x.listItemId) =
        s.claimItems.filter fun x => onList s l x.listItemId := by
      rw [List.filter_append, none_new, List.append_nil]
    exact view_ext rfl rfl rfl rows rfl rfl

theorem Placed.deleteClaimItems (ok : Placed s) {p : ClaimItem → Bool}
    (on : ∀ ci ∈ s.claimItems, p ci = false → ∀ l, onList s l ci.listItemId = true → L l) :
    Within L M s { s with claimItems := s.claimItems.filter p } := by
  refine ⟨⟨ok.lists, ok.items, ok.claims, ok.fulfillments, ok.reimbursements, ok.suggestions,
    fun ci hci => ok.claimItems ci (List.mem_filter.mp hci).1⟩, fun l hl => ?_, fun _ _ => rfl,
    .rfl rfl rfl⟩
  have rows : (s.claimItems.filter p).filter (fun x => onList s l x.listItemId) =
      s.claimItems.filter fun x => onList s l x.listItemId := by
    rw [List.filter_filter]
    refine List.filter_congr fun ci hci => ?_
    by_cases hon : onList s l ci.listItemId = true
    · have kept : p ci = true := by
        by_contra h
        exact hl (on ci hci (by simpa using h) l hon)
      simp [hon, kept]
    · simp [hon]
  exact view_ext rfl rfl rfl rows rfl rfl

theorem Placed.insertFulfillment (ok : Placed s) {f : Fulfillment} {li : ListItem}
    (fresh : s.fulfillment? f.id = none) (hli : s.item? f.listItemId = some li)
    (on : L li.listId) : Within L M s { s with fulfillments := s.fulfillments ++ [f] } := by
  refine ⟨⟨ok.lists, ok.items, ok.claims,
    ok.fulfillments.append fun a ha => lookup_eq_none.mp fresh a ha, ok.reimbursements,
    ok.suggestions, ok.claimItems⟩, fun l hl => ?_, fun _ _ => rfl, .rfl rfl rfl⟩
  have off : onList s l f.listItemId = false := by
    have hne : li.listId ≠ l := fun h => hl (h ▸ on)
    simp [onList, hli, hne]
  have rows : (s.fulfillments ++ [f]).filter (fun x => onList s l x.listItemId) =
      s.fulfillments.filter fun x => onList s l x.listItemId := by
    simp [List.filter_append, off]
  exact view_ext rfl rfl rfl rfl rows rfl

theorem Placed.updateFulfillments (ok : Placed s) {p : Fulfillment → Bool}
    {g : Fulfillment → Fulfillment}
    (keep : ∀ f, (g f).id = f.id ∧ (g f).listItemId = f.listItemId)
    (on : ∀ f ∈ s.fulfillments, p f = true → ∀ l, onList s l f.listItemId = true → L l) :
    Within L M s { s with fulfillments := updateWhere p g s.fulfillments } := by
  refine ⟨⟨ok.lists, ok.items, ok.claims, ok.fulfillments.updateWhere fun f => (keep f).1,
    ok.reimbursements, ok.suggestions, ok.claimItems⟩, fun l hl => ?_, fun _ _ => rfl, .rfl rfl rfl⟩
  have rows := filter_updateWhere_off (p := fun x : Fulfillment => onList s l x.listItemId)
    (q := p) (f := g) (t := s.fulfillments) fun x hx hp => by
      have off : onList s l x.listItemId = false := by
        by_contra h
        exact hl (on x hx hp l (by simpa using h))
      simp [(keep x).2, off]
  exact view_ext rfl rfl rfl rfl rows rfl

theorem Placed.updateReimbursements (ok : Placed s) {p : Reimbursement → Bool}
    {g : Reimbursement → Reimbursement}
    (keep : ∀ r, (g r).id = r.id ∧ (g r).listId = r.listId)
    (on : ∀ r ∈ s.reimbursements, p r = true → L r.listId) :
    Within L M s { s with reimbursements := updateWhere p g s.reimbursements } := by
  refine ⟨⟨ok.lists, ok.items, ok.claims, ok.fulfillments,
    ok.reimbursements.updateWhere fun r => (keep r).1, ok.suggestions, ok.claimItems⟩,
    fun l hl => ?_, fun l _ => ?_, .rfl rfl rfl⟩
  · have rows := filter_updateWhere_off (p := fun x : Reimbursement => decide (x.listId = l))
      (q := p) (f := g) (t := s.reimbursements) fun x hx hp => by
        have hne : x.listId ≠ l := fun h => hl (h ▸ on x hx hp)
        simp [(keep x).2, hne]
    exact view_ext rfl rfl rfl rfl rfl rows
  · have same : ∀ id, owedOn { s with reimbursements := updateWhere p g s.reimbursements } l id =
        owedOn s l id := owedOn_congr (column_updateWhere keep)
    simp only [suggestionsOn, same]

theorem Placed.insertReimbursement (ok : Placed s) {r : Reimbursement}
    (fresh : s.reimbursement? r.id = none) (on : L r.listId) (onM : M r.listId) :
    Within L M s { s with reimbursements := s.reimbursements ++ [r] } := by
  refine ⟨⟨ok.lists, ok.items, ok.claims, ok.fulfillments,
    ok.reimbursements.append fun a ha => lookup_eq_none.mp fresh a ha, ok.suggestions,
    ok.claimItems⟩, fun l hl => ?_, fun l hl => ?_, .rfl rfl rfl⟩
  · have hne : r.listId ≠ l := fun h => hl (h ▸ on)
    have rows : (s.reimbursements ++ [r]).filter (fun x => decide (x.listId = l)) =
        s.reimbursements.filter fun x => decide (x.listId = l) := by
      simp [List.filter_append, hne]
    exact view_ext rfl rfl rfl rfl rfl rows
  · have hne : r.listId ≠ l := fun h => hl (h ▸ onM)
    have same : ∀ id, owedOn { s with reimbursements := s.reimbursements ++ [r] } l id =
        owedOn s l id := by
      intro id
      unfold owedOn Db.reimbursement?
      cases h : lookup Reimbursement.id id s.reimbursements with
      | some x => rw [lookup_append_of_some h]
      | none =>
        unfold lookup at h ⊢
        rw [List.find?_append, h, Option.none_or]
        by_cases hid : r.id = id <;> simp [hid, hne]
    simp only [suggestionsOn, same]

theorem Placed.updateSuggestions (ok : Placed s) {p : Suggestion → Bool}
    {g : Suggestion → Suggestion}
    (keep : ∀ x, (g x).id = x.id ∧ (g x).reimbursementId = x.reimbursementId)
    (on : ∀ x ∈ s.suggestions, p x = true → ∀ l, owedOn s l x.reimbursementId = true → M l) :
    Within L M s { s with suggestions := updateWhere p g s.suggestions } := by
  refine ⟨⟨ok.lists, ok.items, ok.claims, ok.fulfillments, ok.reimbursements,
    ok.suggestions.updateWhere fun x => (keep x).1, ok.claimItems⟩, fun _ _ => rfl,
    fun l hl => ?_, .rfl rfl rfl⟩
  exact filter_updateWhere_off (p := fun x : Suggestion => owedOn s l x.reimbursementId)
    (q := p) (f := g) (t := s.suggestions) fun x hx hp => by
      have off : owedOn s l x.reimbursementId = false := by
        by_contra h
        exact hl (on x hx hp l (by simpa using h))
      simp [(keep x).2, off]

theorem Placed.insertSuggestions (ok : Placed s) {new : List Suggestion}
    (keyed : Keyed Suggestion.id new) (fresh : ∀ x ∈ new, s.suggestion? x.id = none)
    (on : ∀ x ∈ new, ∀ l, owedOn s l x.reimbursementId = true → M l) :
    Within L M s { s with suggestions := s.suggestions ++ new } := by
  refine ⟨⟨ok.lists, ok.items, ok.claims, ok.fulfillments, ok.reimbursements,
    ok.suggestions.append_list keyed fun a ha b hb => lookup_eq_none.mp (fresh b hb) a ha,
    ok.claimItems⟩, fun _ _ => rfl, fun l hl => ?_, .rfl rfl rfl⟩
  have none_new : new.filter (fun x => owedOn s l x.reimbursementId) = [] :=
    List.filter_eq_nil_iff.mpr fun x hx h => hl (on x hx l h)
  change (s.suggestions ++ new).filter _ = _
  rw [List.filter_append]
  exact (congrArg (_ ++ ·) none_new).trans (List.append_nil _)

end Writes

end JitaCart.Tenancy
