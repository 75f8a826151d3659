/- module: JitaCart/Claiming/Rows
   source: backend/crates/api/src/fulfillment/claims.rs,
     backend/crates/api/src/fulfillment/fulfillments.rs,
     backend/migrations/20260427000000_init.sql (claims, claim_items)
   digest: What claims, claim rows and items keep under every request, stale snapshots included. -/

import JitaCart.Api.Handlers
import JitaCart.Items.Invariant

set_option autoImplicit false
set_option relaxedAutoImplicit false

namespace JitaCart.Claiming

open Schema Base.Table Base.Request Base.Numeric Settlement Operations
open Api.Extract Api.ItemStatus Api.Fulfillments Api.Reimbursements Api.Lists
open Api.Contracts Worker.Match Worker.Terminal
open Api.Claims (withoutClaimRow updateClaimStatus syncClaimItemsActive)
open Items (hasActiveClaim_congr liveQty_append liveQty_reverseRow_other)

/-- A claimed item has an active claim row, and an item that can still move has a quantity that
its column can hold. -/
structure ItemOk (s : Db) (li : ListItem) : Prop where
  held : li.status = .claimed → hasActiveClaim s li.id = true
  fits : li.status ≠ .delivered → li.status ≠ .settled → FitsBigint (liveQty s li.id)

/-- Keys and references, and at most one active claim row for each item. -/
structure Tables (s : Db) : Prop where
  claims : Keyed Claim.id s.claims
  listed : ∀ c ∈ s.claims, (s.list? c.listId).isSome = true
  owned : ∀ ci ∈ s.claimItems, (s.claim? ci.claimId).isSome = true
  single : ∀ a ∈ s.claimItems, ∀ b ∈ s.claimItems, a.active = true → b.active = true →
    a.listItemId = b.listItemId → a = b
  items : Keyed ListItem.id s.listItems
  fulfillments : Keyed Fulfillment.id s.fulfillments
  bought : ∀ f ∈ s.fulfillments, (s.item? f.listItemId).isSome = true

structure Rows (s : Db) : Prop extends Tables s where
  item : ∀ li ∈ s.listItems, ItemOk s li

theorem hasActiveClaim_eq_true {s : Db} {itemId : Uuid} :
    hasActiveClaim s itemId = true ↔
      ∃ ci ∈ s.claimItems, ci.listItemId = itemId ∧ ci.active = true := by
  simp [hasActiveClaim]

private theorem ItemOk.congr {s s' : Db} {li : ListItem} (h : ItemOk s li)
    (claimed : hasActiveClaim s li.id = true → hasActiveClaim s' li.id = true)
    (qty : liveQty s' li.id = liveQty s li.id) : ItemOk s' li :=
  ⟨fun hs => claimed (h.held hs), fun hd hs => qty ▸ h.fits hd hs⟩

private theorem ItemOk.frozen {s : Db} {li : ListItem}
    (h : li.status = .delivered ∨ li.status = .settled) : ItemOk s li := by
  refine ⟨fun hc => ?_, fun hd hs => ?_⟩
  · rcases h with h | h <;> simp [h] at hc
  · rcases h with h | h
    · exact absurd h hd
    · exact absurd h hs

theorem list?_updateWhere {s : Db} {p : ListRow → Bool} {g : ListRow → ListRow}
    (keep : ∀ l, (g l).id = l.id) (id : Uuid) :
    (({ s with lists := updateWhere p g s.lists } : Db).list? id).isSome =
      (s.list? id).isSome := by
  unfold Db.list?
  rw [lookup_updateWhere keep, Option.isSome_map]

private theorem list?_closedOn {s s' : Db} {ids : List Uuid} (h : ClosedOn ids s.lists s'.lists)
    (id : Uuid) : (s'.list? id).isSome = (s.list? id).isSome := by
  obtain ⟨p, -, hlists⟩ := h
  unfold Db.list?
  rw [hlists, lookup_updateWhere (by exact fun _ => rfl), Option.isSome_map]

theorem Rows.frame {s s' : Db} (rows : Rows s) (claims : s'.claims = s.claims)
    (claimItems : s'.claimItems = s.claimItems) (items : s'.listItems = s.listItems)
    (fulfillments : s'.fulfillments = s.fulfillments)
    (lists : ∀ id, (s.list? id).isSome = true → (s'.list? id).isSome = true) : Rows s' where
  claims := claims ▸ rows.claims
  listed := fun c hc => lists _ (rows.listed c (claims ▸ hc))
  owned := fun ci hci => by
    have := rows.owned ci (claimItems ▸ hci)
    unfold Db.claim? at this ⊢
    rwa [claims]
  single := claimItems ▸ rows.single
  items := items ▸ rows.items
  fulfillments := fulfillments ▸ rows.fulfillments
  bought := fun f hf => by
    have := rows.bought f (fulfillments ▸ hf)
    unfold Db.item? at this ⊢
    rwa [items]
  item := fun li hli => by
    refine (rows.item li (items ▸ hli)).congr ?_ ?_
    · unfold hasActiveClaim
      rw [claimItems]
      exact id
    · unfold liveQty
      rw [fulfillments]

private theorem Tables.reitem {s : Db} {p : ListItem → Bool} {g : ListItem → ListItem}
    (tables : Tables s) (keep : ∀ li, (g li).id = li.id) :
    Tables { s with listItems := updateWhere p g s.listItems } where
  claims := tables.claims
  listed := tables.listed
  owned := tables.owned
  single := tables.single
  items := tables.items.updateWhere keep
  fulfillments := tables.fulfillments
  bought := fun f hf => by
    have := tables.bought f hf
    unfold Db.item? at this ⊢
    rwa [lookup_updateWhere keep, Option.isSome_map]

private theorem Tables.rows {s : Db} {p : ListItem → Bool} {g : ListItem → ListItem}
    (tables : Tables s) (keep : ∀ li, (g li).id = li.id)
    (moved : ∀ li ∈ s.listItems, p li = true → ItemOk s (g li))
    (others : ∀ li ∈ s.listItems, p li = false → ItemOk s li) :
    Rows { s with listItems := updateWhere p g s.listItems } where
  toTables := tables.reitem keep
  item := fun li' hli' => by
    obtain ⟨li, hli, rfl⟩ := mem_updateWhere.mp hli'
    have ok : ItemOk s (if p li then g li else li) := by
      split
      · exact moved li hli ‹_›
      · exact others li hli (by simpa using ‹¬ p li = true›)
    exact ok.congr id rfl

theorem Rows.restatus {s : Db} {p : ListItem → Bool} {status : ListItemStatus} (rows : Rows s)
    (final : status = .delivered ∨ status = .settled) :
    Rows { s with
      listItems := updateWhere p (fun li => { li with status := status }) s.listItems } :=
  rows.toTables.rows (fun _ => rfl) (fun _ _ _ => .frozen final) fun li hli _ => rows.item li hli

theorem Rows.insertItems {s s' : Db} {listId userId : Uuid} {lines : List NewLine}
    {ids : List Uuid} (rows : Rows s) (h : insertItems s listId userId lines ids = .ok s') :
    Rows s' := by
  obtain ⟨len, nodup, fresh, rfl⟩ := insertItems_ok h
  have keyed : Keyed ListItem.id (newItems listId userId lines ids) := by
    unfold Keyed
    rw [map_id_newItems len]
    exact nodup
  refine ⟨⟨rows.claims, rows.listed, rows.owned, rows.single, ?_, rows.fulfillments, ?_⟩, ?_⟩
  · refine rows.items.append_list keyed fun a ha b hb hab => ?_
    obtain ⟨id, hid, n, -, rfl⟩ := mem_newItems hb
    exact lookup_eq_none.mp (fresh id hid) a ha hab
  · intro f hf
    obtain ⟨li, hli⟩ := Option.isSome_iff_exists.mp (rows.bought f hf)
    unfold Db.item? at hli ⊢
    rw [lookup_append_of_some hli]
    rfl
  · intro li hli
    rcases List.mem_append.mp hli with hli | hli
    · exact (rows.item li hli).congr id rfl
    · obtain ⟨id, hid, n, -, rfl⟩ := mem_newItems hli
      refine ⟨fun hs => by simp [newItem] at hs, fun _ _ => ?_⟩
      have unbought : liveQty s id = 0 := by
        apply sumWhere_eq_zero
        intro f hf
        have hne : f.listItemId ≠ id := by
          rintro rfl
          simpa [fresh _ hid] using rows.bought f hf
        simp [hne]
      change FitsBigint (liveQty s id)
      rw [unbought]
      decide

private theorem Tables.recompute {m s' : Db} {itemId : Uuid} {demotion : DeliveredDemotion}
    {status : ListItemStatus} (tables : Tables m)
    (others : ∀ li ∈ m.listItems, li.id ≠ itemId → ItemOk m li)
    (h : recomputeItemStatus m itemId demotion = .ok (status, s')) : Rows s' := by
  obtain ⟨li, hli, ⟨frozen, -, rfl⟩ | ⟨-, -, fits, hstatus, rfl⟩⟩ := recomputeItemStatus_ok h
  · refine ⟨tables, fun x hx => ?_⟩
    by_cases hid : x.id = itemId
    · obtain ⟨hmem, hk⟩ := lookup_mem hli
      obtain rfl := tables.items.eq_of_key hx hmem (hid.trans hk.symm)
      refine .frozen ?_
      rcases frozen with hs | ⟨hd, -⟩
      · exact .inr hs
      · exact .inl hd
    · exact others x hx hid
  · refine tables.rows (fun _ => rfl) (fun x _ hid => ?_) fun x hx hid => ?_
    · obtain rfl : x.id = itemId := by simpa using hid
      refine ⟨fun claimed => ?_, fun _ _ => fits⟩
      have claimed : status = .claimed := claimed
      rw [hstatus] at claimed
      split at claimed
      · cases claimed
      · unfold baseStatus at claimed
        split at claimed
        · cases claimed
        · split at claimed
          · assumption
          · cases claimed
    · exact others x hx (by simpa using hid)

private theorem Tables.recomputeBulk {m s' : Db} {itemIds : List Uuid} (tables : Tables m)
    (fits : ∀ li ∈ m.listItems, li.status ≠ .delivered → li.status ≠ .settled →
      FitsBigint (liveQty m li.id))
    (others : ∀ li ∈ m.listItems, li.id ∉ itemIds → ItemOk m li)
    (h : recomputeItemStatusesBulk m itemIds = .ok s') : Rows s' := by
  obtain rfl := recomputeItemStatusesBulk_ok h
  refine tables.rows (fun _ => rfl) (fun li hli _ => ?_) fun li hli hid => ?_
  · by_cases frozen : li.status = .delivered ∨ li.status = .settled
    · refine .frozen ?_
      simp [recomputedRow, frozen]
    · refine ⟨fun claimed => ?_, fun _ _ => ?_⟩
      · simp only [recomputedRow, if_neg frozen, baseStatus] at claimed
        split at claimed
        · cases claimed
        · split at claimed
          · assumption
          · cases claimed
      · push Not at frozen
        exact fits li hli frozen.1 frozen.2
  · exact others li hli (by simpa using hid)

theorem Rows.withoutClaimRow {s s' : Db} {claimId itemId : Uuid} {status : ListItemStatus}
    (rows : Rows s)
    (h : recomputeItemStatus (withoutClaimRow s claimId itemId) itemId .forbid =
      .ok (status, s')) : Rows s' := by
  have sub : ∀ ci ∈ (Api.Claims.withoutClaimRow s claimId itemId).claimItems,
      ci ∈ s.claimItems := fun ci hci => (List.mem_filter.mp hci).1
  have tables : Tables (Api.Claims.withoutClaimRow s claimId itemId) :=
    ⟨rows.claims, rows.listed, fun ci hci => rows.owned ci (sub ci hci),
      fun a ha b hb => rows.single a (sub a ha) b (sub b hb), rows.items, rows.fulfillments,
      rows.bought⟩
  refine tables.recompute (fun li hli hne => (rows.item li hli).congr (fun hact => ?_) rfl) h
  obtain ⟨ci, hci, hid, hact⟩ := hasActiveClaim_eq_true.mp hact
  refine hasActiveClaim_eq_true.mpr ⟨ci, List.mem_filter.mpr ⟨hci, ?_⟩, hid, hact⟩
  have : ci.listItemId ≠ itemId := fun heq => hne (hid.symm.trans heq)
  simp [this]

/-- A claim leaves `active`: its row changes, and the trigger clears its rows if it was active. -/
theorem updateClaimStatus_cases (s : Db) (claimId : Uuid) (guard : Claim → Bool)
    {status : ClaimStatus} (inactive : status ≠ .active) :
    updateClaimStatus s claimId guard status = s ∨
      ∃ c, s.claim? claimId = some c ∧ guard c = true ∧
        updateClaimStatus s claimId guard status = { s with
          claims := updateWhere (fun c => decide (c.id = claimId))
            (fun c => { c with status := status }) s.claims
          claimItems := updateWhere
            (fun ci => decide (ci.claimId = claimId) && decide (c.status = .active))
            (fun ci => { ci with active := false }) s.claimItems } := by
  unfold updateClaimStatus
  split
  · exact .inl rfl
  · rename_i c hc
    split
    · rename_i hguard
      refine .inr ⟨c, hc, hguard, ?_⟩
      unfold syncClaimItemsActive
      by_cases hact : c.status = .active
      · rw [if_pos ⟨inactive, hact⟩]
        simp [hact]
      · rw [if_neg (fun h => hact h.2), if_neg fun h => inactive h.1]
        simp [hact, updateWhere_eq_self]
    · exact .inl rfl

private theorem Tables.updateClaimStatus {s : Db} {claimId : Uuid} {guard : Claim → Bool}
    {status : ClaimStatus} (tables : Tables s) (inactive : status ≠ .active) :
    Tables (updateClaimStatus s claimId guard status) := by
  rcases updateClaimStatus_cases s claimId guard inactive with same | ⟨c, -, -, moved⟩
  · rw [same]
    exact tables
  · rw [moved]
    refine ⟨tables.claims.updateWhere fun _ => rfl, ?_, ?_, ?_, tables.items,
      tables.fulfillments, tables.bought⟩
    · intro x' hx'
      obtain ⟨x, hx, rfl⟩ := mem_updateWhere.mp hx'
      have := tables.listed x hx
      split <;> exact this
    · intro ci' hci'
      obtain ⟨ci, hci, rfl⟩ := mem_updateWhere.mp hci'
      have := tables.owned ci hci
      unfold Db.claim? at this ⊢
      rw [lookup_updateWhere (by exact fun _ => rfl), Option.isSome_map]
      split <;> exact this
    · intro a' ha' b' hb' hact hbct hab
      obtain ⟨a, ha, rfl⟩ := mem_updateWhere.mp ha'
      obtain ⟨b, hb, rfl⟩ := mem_updateWhere.mp hb'
      split at hact
      · simp at hact
      · split at hbct
        · simp at hbct
        · rename_i hna hnb
          simp only [if_neg hna, if_neg hnb] at hab ⊢
          exact tables.single a ha b hb hact hbct hab

private theorem hasActiveClaim_updateClaimStatus {s : Db} {claimId itemId : Uuid}
    {guard : Claim → Bool} {status : ClaimStatus} (inactive : status ≠ .active)
    (other : ∀ ci ∈ s.claimItems, ci.listItemId = itemId → ci.claimId ≠ claimId)
    (h : hasActiveClaim s itemId = true) :
    hasActiveClaim (updateClaimStatus s claimId guard status) itemId = true := by
  rcases updateClaimStatus_cases s claimId guard inactive with same | ⟨c, -, -, moved⟩
  · rw [same]
    exact h
  · rw [moved]
    obtain ⟨ci, hci, hid, hact⟩ := hasActiveClaim_eq_true.mp h
    refine hasActiveClaim_eq_true.mpr ⟨_, mem_updateWhere_of_mem hci, ?_⟩
    simp [other ci hci hid, hid, hact]

theorem updateClaimStatus_frame (s : Db) (claimId : Uuid) (guard : Claim → Bool)
    (status : ClaimStatus) :
    (updateClaimStatus s claimId guard status).listItems = s.listItems ∧
      (updateClaimStatus s claimId guard status).fulfillments = s.fulfillments := by
  obtain ⟨claims, claimItems, h⟩ := Books.updateClaimStatus_shape s claimId guard status
  rw [h]
  exact ⟨rfl, rfl⟩

theorem Rows.releaseClaim {s s' : Db} {claimId : Uuid} (rows : Rows s)
    (h : recomputeItemStatusesBulk (updateClaimStatus s claimId (fun _ => true) .released)
      ((s.claimItems.filter fun ci => decide (ci.claimId = claimId)).map (·.listItemId)) =
        .ok s') : Rows s' := by
  obtain ⟨items, fulfillments⟩ := updateClaimStatus_frame s claimId (fun _ => true) .released
  have qty : ∀ id, liveQty (Api.Claims.updateClaimStatus s claimId (fun _ => true) .released) id =
      liveQty s id := fun id => by
    unfold liveQty
    rw [fulfillments]
  refine (rows.toTables.updateClaimStatus (by decide)).recomputeBulk ?_ ?_ h
  · intro li hli hd hs
    rw [qty]
    exact (rows.item li (items ▸ hli)).fits hd hs
  · intro li hli hout
    refine (rows.item li (items ▸ hli)).congr
      (hasActiveClaim_updateClaimStatus (by decide) fun ci hci hid hclaim => ?_) (qty li.id)
    exact hout (List.mem_map.mpr ⟨ci, List.mem_filter.mpr ⟨hci, by simpa using hclaim⟩, hid⟩)

theorem Rows.completeClaim {s : Db} {active : Option Claim} {status : ListItemStatus}
    (rows : Rows s) : Rows (completeClaim s active status) := by
  unfold Api.Fulfillments.completeClaim
  split
  · exact rows
  · rename_i c
    split
    · rename_i finished
      obtain ⟨items, fulfillments⟩ := updateClaimStatus_frame s c.id
        (fun x => decide (x.status = .active)) .completed
      refine ⟨rows.toTables.updateClaimStatus (by decide), fun li hli => ?_⟩
      have hli : li ∈ s.listItems := items ▸ hli
      by_cases claimed : li.status = .claimed
      · -- No row of the finished claim is on a claimed item.
        refine (rows.item li hli).congr (hasActiveClaim_updateClaimStatus (by decide)
          fun ci hci hid hclaim => ?_) (by unfold liveQty; rw [fulfillments])
        have hitem : s.item? ci.listItemId = some li :=
          (lookup_eq_some rows.items).mpr ⟨hli, hid.symm⟩
        have := finished.2 ci hci hclaim li hitem
        simp [claimed] at this
      · refine ⟨fun hs => absurd hs claimed, fun hd hs => ?_⟩
        have := (rows.item li hli).fits hd hs
        unfold liveQty at this ⊢
        rwa [fulfillments]
    · exact rows

theorem upsertReimbursement_shape {s s' : Db} {listId requester hauler newId : Uuid}
    (h : upsertReimbursement s listId requester hauler newId = .ok s') :
    ∃ reimbursements, s' = { s with reimbursements := reimbursements } := by
  rcases upsertReimbursement_ok h with ⟨-, rfl⟩ |
    ⟨l, rp, hp, -, -, -, -, -, ⟨-, rfl⟩ | ⟨-, -, rfl⟩⟩
  · exact ⟨s'.reimbursements, rfl⟩
  · exact ⟨_, rfl⟩
  · exact ⟨_, rfl⟩

theorem Rows.upsertReimbursement {s s' : Db} {listId requester hauler newId : Uuid}
    (rows : Rows s) (h : upsertReimbursement s listId requester hauler newId = .ok s') :
    Rows s' := by
  obtain ⟨reimbursements, rfl⟩ := upsertReimbursement_shape h
  exact rows.frame rfl rfl rfl rfl fun _ h => h

theorem Rows.purchased {s s₂ : Db} {f : Fulfillment} {li : ListItem} {status : ListItemStatus}
    (rows : Rows s) (hli : s.item? f.listItemId = some li) (fresh : s.fulfillment? f.id = none)
    (live : f.live = true)
    (h : recomputeItemStatus { s with fulfillments := s.fulfillments ++ [f] } f.listItemId
      .forbid = .ok (status, s₂)) : Rows s₂ := by
  have tables : Tables { s with fulfillments := s.fulfillments ++ [f] } := by
    refine ⟨rows.claims, rows.listed, rows.owned, rows.single, rows.items,
      rows.fulfillments.append fun g hg => lookup_eq_none.mp fresh g hg, fun g hg => ?_⟩
    rcases List.mem_append.mp hg with hg | hg
    · exact rows.bought g hg
    · obtain rfl := List.mem_singleton.mp hg
      change (s.item? g.listItemId).isSome = true
      rw [hli]
      rfl
  refine tables.recompute (fun x hx hne => (rows.item x hx).congr id ?_) h
  rw [liveQty_append live, if_neg (fun h => hne h.symm), add_zero]

theorem Rows.reverseFulfillment {s s' : Db} {userId fulfillmentId newId : Uuid} {now : Timestamp}
    (rows : Rows s) (h : reverseFulfillment s userId fulfillmentId newId now = .ok s') :
    Rows s' := by
  obtain ⟨f, li, l, role, status, s₂, hf, -, -, -, -, -, hrec, hup⟩ := reverseFulfillment_ok h
  obtain ⟨hmem, rfl⟩ := lookup_mem hf
  have tables : Tables (reverseRow s f.id now) := by
    refine ⟨rows.claims, rows.listed, rows.owned, rows.single, rows.items,
      rows.fulfillments.updateWhere fun _ => rfl, fun g' hg' => ?_⟩
    obtain ⟨g, hg, rfl⟩ := mem_updateWhere.mp hg'
    have := rows.bought g hg
    split <;> exact this
  refine Rows.upsertReimbursement (tables.recompute (fun x hx hne => ?_) hrec) hup
  exact (rows.item x hx).congr id (liveQty_reverseRow_other rows.fulfillments hmem hne)

theorem Rows.settleViaContract {s s' : Db} {cid : Uuid} {now : Timestamp}
    {infos : List ContractSettledReimbursement} (rows : Rows s)
    (h : settleViaContract s cid now = .ok (infos, s')) : Rows s' := by
  have lists := list?_closedOn (settleViaContract_lists h)
  obtain ⟨c, -, ⟨-, rfl⟩ | ⟨-, at_, m, closed, rfl, rfl⟩⟩ := settleViaContract_ok h
  · exact rows
  · have flipped := rows.restatus (p := flipsOnContract
      (settleReimbursements s (pendingOn cid) at_ none) cid) (.inr rfl)
    exact flipped.frame rfl rfl rfl rfl fun id hid => (lists id).trans hid

theorem Rows.settleManual {s s' : Db} {rid settledBy : Uuid} {now : Timestamp} (rows : Rows s)
    (h : settleManual s rid settledBy now = .ok s') : Rows s' := by
  obtain ⟨r, mine, rival, closed, hr, -, -, -, hs'⟩ := settleManual_ok h
  have lists := list?_closedOn (settleManual_lists hr h)
  subst hs'
  exact (rows.restatus (.inr rfl)).frame rfl rfl rfl rfl fun id hid => (lists id).trans hid

end JitaCart.Claiming
