/- module: JitaCart/Tenancy/Reach
   source: backend/crates/api/src/fulfillment/claims.rs,
     backend/crates/api/src/fulfillment/fulfillments.rs, backend/crates/api/src/lists/items.rs,
     backend/crates/api/src/contracts.rs, backend/crates/settlement/src/lib.rs
   digest: The lists that each handler and each settlement function reaches. -/

import JitaCart.Api.Deletion
import JitaCart.Claiming.Agreement
import JitaCart.Tenancy.Views

set_option autoImplicit false
set_option relaxedAutoImplicit false

namespace JitaCart.Tenancy

open Schema Base.Table Base.Request Settlement Operations
open Api.Extract Api.ItemStatus Api.Fulfillments Api.Reimbursements Api.Lists Api.Deletion
open Api.Contracts Worker.Match Worker.Terminal
open Api.Claims (validateClaimableItems insertClaimItems withClaimRows withoutClaimRow
  updateClaimStatus)
open Claiming (updateClaimStatus_cases completeClaim_cases)
open Items (claimable_onList)

variable {L M : Uuid → Prop} {s m s' : Db}

private theorem Placed.item_eq (ok : Placed s) {li : ListItem} {id : Uuid}
    (hli : s.item? id = some li)
    {x : ListItem} (hx : x ∈ s.listItems) (hid : x.id = id) : x = li := by
  obtain ⟨hmem, hk⟩ := lookup_mem hli
  exact ok.items.eq_of_key hx hmem (hid.trans hk.symm)

private theorem within_recomputeItemStatus (ok : Placed m) {itemId : Uuid}
    {demotion : DeliveredDemotion}
    {status : ListItemStatus} (h : recomputeItemStatus m itemId demotion = .ok (status, s'))
    (on : ∀ l, onList m l itemId = true → L l) : Within L M m s' := by
  obtain ⟨li, hli, ⟨-, -, rfl⟩ | ⟨-, -, -, -, rfl⟩⟩ := recomputeItemStatus_ok h
  · exact ok.refl
  · refine ok.updateItems (fun _ => ⟨rfl, rfl⟩) fun x hx hid => on _ ?_
    obtain rfl := ok.item_eq hli hx (by simpa using hid)
    simp [onList, hli]

private theorem within_recomputeBulk (ok : Placed m) {itemIds : List Uuid}
    (h : recomputeItemStatusesBulk m itemIds = .ok s')
    (on : ∀ id ∈ itemIds, ∀ l, onList m l id = true → L l) : Within L M m s' := by
  obtain rfl := recomputeItemStatusesBulk_ok h
  refine ok.updateItems (fun _ => ⟨rfl, rfl⟩) fun x hx hid => ?_
  have hitem : m.item? x.id = some x := (lookup_eq_some ok.items).mpr ⟨hx, rfl⟩
  exact on x.id (by simpa using hid) _ (by simp [onList, hitem])

theorem within_addLines (ok : Placed s) {listId userId : Uuid} {lines : List NewLine}
    {ids : List Uuid} (h : Api.Lists.insertItems s listId userId lines ids = .ok s')
    (on : L listId) : Within L M s s' := by
  obtain ⟨len, nodup, fresh, rfl⟩ := insertItems_ok h
  refine ok.insertItems ?_ (fun li hli => ?_) fun li hli => ?_
  · unfold Keyed
    rw [map_id_newItems len]
    exact nodup
  · obtain ⟨id, hid, n, -, rfl⟩ := mem_newItems hli
    exact fresh id hid
  · obtain ⟨id, -, n, -, rfl⟩ := mem_newItems hli
    exact on

private theorem within_dropItem (ok : Placed s) {listId itemId : Uuid} {li : ListItem}
    (hli : s.item? itemId = some li) (hlist : li.listId = listId) (on : L listId) :
    Within L M s (dropItem s listId itemId) := by
  have onlyLi : ∀ x ∈ s.listItems, x.id = itemId → x = li := fun x hx hid =>
    ok.item_eq hli hx hid
  have lookups : ∀ id, (Api.Lists.dropItem s listId itemId).item? id =
      if id = itemId then none else s.item? id := by
    intro id
    unfold Api.Lists.dropItem Db.item? lookup
    rw [List.find?_filter]
    split
    · subst id
      refine List.find?_eq_none.mpr fun x hx hsel => ?_
      simp only [decide_eq_true_eq] at hsel
      obtain rfl := onlyLi x hx hsel.2
      simp [Api.Lists.onItem, hsel.2, hlist] at hsel
    · rename_i hne
      congr 1
      funext x
      by_cases hx : x.id = id
      · simp [Api.Lists.onItem, hx, hne]
      · simp [hx]
  have same : ∀ l, ¬ L l → ∀ id, onList (Api.Lists.dropItem s listId itemId) l id =
      onList s l id := by
    intro l hl id
    unfold onList
    rw [lookups]
    split
    · subst id
      have hne : li.listId ≠ l := fun h => hl (by rw [← h, hlist]; exact on)
      simp [hli, hne]
    · rfl
  refine ⟨⟨ok.lists, ok.items.filter _, ok.claims, ok.fulfillments.filter _, ok.reimbursements,
    ok.suggestions, fun ci hci => ?_⟩, fun l hl => ?_, fun _ _ => rfl, .rfl rfl rfl⟩
  · obtain ⟨hci, hkeep⟩ := List.mem_filter.mp hci
    obtain ⟨c, x, hc, hx, placed⟩ := ok.claimItems ci hci
    refine ⟨c, x, hc, ?_, placed⟩
    rw [lookups, if_neg (by simpa using hkeep)]
    exact hx
  · have off : onList s l itemId = false := by
      have hne : li.listId ≠ l := fun h => hl (by rw [← h, hlist]; exact on)
      simp [onList, hli, hne]
    refine view_ext rfl ?_ rfl ?_ ?_ rfl
    · change (s.listItems.filter _).filter _ = _
      rw [List.filter_filter]
      refine List.filter_congr fun x hx => ?_
      have hne : listId ≠ l := fun h => hl (h ▸ on)
      by_cases hx : x.listId = l
      · simp [Api.Lists.onItem, hx, hne.symm]
      · simp [hx]
    · simp only [same l hl]
      change (s.claimItems.filter _).filter _ = _
      rw [List.filter_filter]
      refine List.filter_congr fun ci _ => ?_
      by_cases hid : ci.listItemId = itemId
      · simp [hid, off]
      · simp [hid]
    · simp only [same l hl]
      change (s.fulfillments.filter _).filter _ = _
      rw [List.filter_filter]
      refine List.filter_congr fun f _ => ?_
      by_cases hid : f.listItemId = itemId
      · simp [hid, off]
      · simp [hid]

private theorem within_updateClaimStatus (ok : Placed s) {claimId : Uuid} {guard : Claim → Bool}
    {status : ClaimStatus} (inactive : status ≠ .active)
    (on : ∀ c, s.claim? claimId = some c → L c.listId) :
    Within L M s (updateClaimStatus s claimId guard status) := by
  rcases updateClaimStatus_cases s claimId guard inactive with same | ⟨c, hc, -, moved⟩
  · rw [same]
    exact ok.refl
  · rw [moved]
    have claims : Within L M s { s with
        claims := updateWhere (fun c => decide (c.id = claimId))
          (fun c => { c with status := status }) s.claims } := by
      refine ok.updateClaims (fun _ => ⟨rfl, rfl⟩) fun x hx hid => ?_
      obtain ⟨hmem, hk⟩ := lookup_mem hc
      obtain rfl := ok.claims.eq_of_key hx hmem ((of_decide_eq_true hid).trans hk.symm)
      exact on x hc
    refine claims.trans (claims.placed.updateClaimItems (fun _ => ⟨rfl, rfl⟩) ?_)
    intro ci hci hsel l hl
    simp only [Bool.and_eq_true, decide_eq_true_eq] at hsel
    have := (ok.onList_claimItem hci (hsel.1 ▸ hc)).mp hl
    exact this ▸ on c hc

private theorem within_completeClaim (ok : Placed s) {active : Option Claim}
    {status : ListItemStatus} (on : ∀ c ∈ active, ∀ x, s.claim? c.id = some x → L x.listId) :
    Within L M s (completeClaim s active status) := by
  rcases completeClaim_cases s active status with same | ⟨c, hc, moved⟩
  · rw [same]
    exact ok.refl
  · rw [moved]
    exact within_updateClaimStatus ok (by decide) (on c hc)

private theorem within_claimRows (ok : Placed s) {listId claimId : Uuid} {itemIds : List Uuid}
    {c : Claim} (valid : ∀ id ∈ itemIds, ∃ li ∈ s.listItems, li.id = id ∧ li.listId = listId)
    (hc : s.claim? claimId = some c) (hlist : c.listId = listId)
    (h : insertClaimItems s claimId itemIds = .ok s') (on : L listId) : Within L M s s' := by
  have h := Api.Claims.insertClaimItems_ok h
  have found : ∀ id ∈ itemIds, ∃ li, s.item? id = some li ∧ li.listId = listId := by
    intro id hid
    obtain ⟨li, hli, rfl, onIt⟩ := valid id hid
    exact ⟨li, (lookup_eq_some ok.items).mpr ⟨hli, rfl⟩, onIt⟩
  have inserted : Within L M s (withClaimRows s claimId itemIds) := by
    refine ok.insertClaimItems fun ci hci => ?_
    obtain ⟨id, hid, rfl⟩ := List.mem_map.mp hci
    obtain ⟨li, hli, onIt⟩ := found id hid
    exact ⟨c, li, hc, hli, onIt.trans hlist.symm, onIt ▸ on⟩
  refine inserted.trans (within_recomputeBulk inserted.placed h fun id hid l hl => ?_)
  obtain ⟨li, hli, onIt⟩ := found id hid
  have hl : onList s l id = true := hl
  have : li.listId = l := by simpa [onList, hli] using hl
  rw [← this, onIt]
  exact on

theorem within_createClaim (ok : Placed s) {cur : CurrentList} {itemIds : List Uuid}
    {claimId : Uuid} (h : Api.Handlers.createClaim s cur itemIds claimId = .ok s')
    (on : L cur.listId) : Within L M s s' := by
  obtain ⟨-, -, -, valid, fresh, h⟩ := Api.Handlers.createClaim_ok h
  have claimed : Within L M s _ :=
    ok.insertClaim (c := ⟨claimId, cur.listId, cur.userId, .active⟩) fresh on
  refine claimed.trans (within_claimRows (c := ⟨claimId, cur.listId, cur.userId, .active⟩)
    claimed.placed (claimable_onList valid) ?_ rfl h on)
  exact (lookup_eq_some claimed.placed.claims).mpr ⟨by simp, rfl⟩

section Snapshot
variable {cur : CurrentClaim} (ok : Placed s)
  (known : ∃ c, s.claim? cur.claimId = some c ∧ c.listId = cur.listId) (on : L cur.listId)
include ok known on

theorem within_addClaimItems {itemIds : List Uuid}
    (h : Api.Handlers.addClaimItems s cur itemIds = .ok s') : Within L M s s' := by
  obtain ⟨-, -, -, -, valid, h⟩ := Api.Handlers.addClaimItems_ok h
  obtain ⟨c, hc, hlist⟩ := known
  exact within_claimRows ok (claimable_onList valid) hc hlist h on

theorem within_removeClaimItem {itemId : Uuid}
    (h : Api.Handlers.removeClaimItem s cur itemId = .ok s') : Within L M s s' := by
  obtain ⟨-, -, ⟨ci, hci, hclaim, rfl⟩, status, h⟩ := Api.Handlers.removeClaimItem_ok h
  obtain ⟨c, hc, hlist⟩ := known
  have onIt : ∀ l, onList s l ci.listItemId = true → L l := fun l hl => by
    rw [← (ok.onList_claimItem hci (hclaim ▸ hc)).mp hl, hlist]
    exact on
  have removed : Within L M s (withoutClaimRow s cur.claimId ci.listItemId) := by
    refine ok.deleteClaimItems fun cj hcj hout l hl => ?_
    simp only [Bool.not_eq_false', Bool.and_eq_true, decide_eq_true_eq] at hout
    rw [← (ok.onList_claimItem hcj (hout.1 ▸ hc)).mp hl, hlist]
    exact on
  exact removed.trans (within_recomputeItemStatus removed.placed h onIt)

theorem within_releaseClaim (h : Api.Handlers.releaseClaim s cur = .ok s') : Within L M s s' := by
  obtain ⟨-, -, h⟩ := Api.Handlers.releaseClaim_ok h
  obtain ⟨c, hc, hlist⟩ := known
  have released : Within L M s (updateClaimStatus s cur.claimId (fun _ => true) .released) := by
    refine within_updateClaimStatus ok (by decide) fun x hx => ?_
    obtain rfl : x = c := Option.some.inj (hx.symm.trans hc)
    exact hlist ▸ on
  refine released.trans (within_recomputeBulk released.placed h fun id hid l hl => ?_)
  obtain ⟨ci, hci, rfl⟩ := List.mem_map.mp hid
  obtain ⟨hci, hclaim⟩ := List.mem_filter.mp hci
  have hclaim : ci.claimId = cur.claimId := of_decide_eq_true hclaim
  have hl : onList s l ci.listItemId = true := by
    have items := (Claiming.updateClaimStatus_frame s cur.claimId (fun _ => true) .released).1
    unfold onList Db.item? at hl ⊢
    rwa [items] at hl
  rw [← (ok.onList_claimItem hci (hclaim ▸ hc)).mp hl, hlist]
  exact on

end Snapshot

private theorem within_upsertReimbursement (ok : Placed s) {listId requester hauler newId : Uuid}
    (h : upsertReimbursement s listId requester hauler newId = .ok s') (on : L listId)
    (onM : M listId) : Within L M s s' := by
  rcases upsertReimbursement_ok h with ⟨-, rfl⟩ |
    ⟨l, rp, hp, hl, -, -, -, -, ⟨-, rfl⟩ | ⟨-, fresh, rfl⟩⟩
  · exact ok.refl
  · have hlid : l.id = listId := (lookup_mem hl).2
    refine ok.updateReimbursements (fun _ => ⟨rfl, rfl⟩) fun r _ hsel => ?_
    simp only [cycle, Bool.and_eq_true, decide_eq_true_eq, Prod.mk.injEq] at hsel
    rw [hsel.1.1.1, hlid]
    exact on
  · have hlid : l.id = listId := (lookup_mem hl).2
    exact ok.insertReimbursement fresh (by change L l.id; rwa [hlid]) (by change M l.id; rwa [hlid])

theorem activeClaim_row {itemId : Uuid} {c : Claim} (h : activeClaim s itemId = some c) :
    ∃ ci ∈ s.claimItems, ci.listItemId = itemId ∧ s.claim? ci.claimId = some c := by
  unfold activeClaim at h
  obtain ⟨ci, hci, h⟩ := List.exists_of_findSome?_eq_some h
  split at h
  · rename_i hsel
    exact ⟨ci, hci, hsel.1, h⟩
  · cases h

theorem within_recordFulfillment (ok : Placed s) {cur : CurrentList} {itemId : Uuid}
    {body : RecordFulfillmentBody} {gen : Generated}
    (h : Api.Handlers.recordFulfillment s cur itemId body gen = .ok s') (on : L cur.listId)
    (onM : M cur.listId) : Within L M s s' := by
  obtain ⟨-, -, li, f, s₁, status, s₂, hli, hlist, hf, fresh, rfl, hrec, hup⟩ :=
    Api.Handlers.recordFulfillment_ok h
  obtain rfl : f.listItemId = itemId := by rw [hf]; rfl
  have bought : Within L M s { s with fulfillments := s.fulfillments ++ [f] } :=
    ok.insertFulfillment fresh hli (hlist ▸ on)
  have recomputed : Within L M s s₂ := by
    refine bought.trans (within_recomputeItemStatus bought.placed hrec fun l hl => ?_)
    have hl : onList s l f.listItemId = true := hl
    have : li.listId = l := by simpa [onList, hli] using hl
    rw [← this, hlist]
    exact on
  -- The active claim of the item is on the item's list.
  have completed : Within L M s₂ (completeClaim s₂ (activeClaim s f.listItemId) status) := by
    refine within_completeClaim recomputed.placed fun c hc x hx => ?_
    obtain ⟨ci, hci, hitem, hc'⟩ := activeClaim_row hc
    have hx : s.claim? c.id = some x := by
      rw [← hx]
      unfold Db.claim?
      rw [(Claiming.claimItems_recompute hrec).1]
    have hcid : c.id = ci.claimId := (lookup_mem hc').2
    obtain rfl : c = x := Option.some.inj (hc'.symm.trans (hcid ▸ hx))
    have : c.listId = cur.listId := by
      refine (ok.onList_claimItem hci hc').mp ?_
      simp [onList, hitem, hli, hlist]
    rw [this]
    exact on
  have done := recomputed.trans completed
  exact done.trans (within_upsertReimbursement done.placed hup on onM)

theorem within_reverseFulfillment (ok : Placed s) {userId fulfillmentId newId : Uuid}
    {now : Timestamp} (h : reverseFulfillment s userId fulfillmentId newId now = .ok s') :
    ∃ f li l, s.fulfillment? fulfillmentId = some f ∧ s.item? f.listItemId = some li ∧
      s.list? li.listId = some l ∧ l.status ≠ .archived ∧ isMember s l.groupId userId ∧
      ∀ {L M : Uuid → Prop}, L li.listId → M li.listId → Within L M s s' := by
  have unarchived := h
  simp only [Api.Fulfillments.reverseFulfillment, bind_eq_ok, fetch_eq_ok, require_eq_ok]
    at unarchived
  obtain ⟨f, hf, li, hli, l, hl, -, unarchived, -, -, role, hrole, -⟩ := unarchived
  obtain ⟨f', li', l', role', status, s₂, hf', hli', hl', -, -, -, hrec, hup⟩ :=
    reverseFulfillment_ok h
  obtain rfl : f = f' := Option.some.inj (hf.symm.trans hf')
  obtain rfl : li = li' := Option.some.inj (hli.symm.trans hli')
  refine ⟨f, li, l, hf, hli, hl, unarchived, by simp [isMember, hrole], fun {L M} on onM => ?_⟩
  have onIt : ∀ l, onList s l f.listItemId = true → L l := fun l hl => by
    have : li.listId = l := by simpa [onList, hli] using hl
    exact this ▸ on
  have reversed : Within L M s (reverseRow s fulfillmentId now) := by
    refine ok.updateFulfillments (fun _ => ⟨rfl, rfl⟩) fun g hg hsel => ?_
    simp only [Bool.and_eq_true, decide_eq_true_eq] at hsel
    obtain ⟨hmem, hk⟩ := lookup_mem hf
    obtain rfl := ok.fulfillments.eq_of_key hg hmem (hsel.1.trans hk.symm)
    exact onIt
  have recomputed := reversed.trans (within_recomputeItemStatus reversed.placed hrec onIt)
  exact recomputed.trans (within_upsertReimbursement recomputed.placed hup on onM)

theorem within_markDelivered (ok : Placed s) {cur : CurrentList} {itemId : Uuid}
    {lastHauler : Option Uuid} (h : Api.Handlers.markDelivered s cur itemId lastHauler = .ok s')
    (on : L cur.listId) : Within L M s s' := by
  obtain ⟨-, -, li, hli, hlist, rfl⟩ := Api.Handlers.markDelivered_ok h
  refine ok.updateItems (fun _ => ⟨rfl, rfl⟩) fun x hx hid => ?_
  obtain rfl := ok.item_eq hli hx (of_decide_eq_true hid)
  exact hlist ▸ on

theorem within_patchItem (ok : Placed s) {cur : CurrentList} {itemId : Uuid} {body : PatchItemBody}
    (h : Api.Handlers.patchItem s cur itemId body = .ok s') (on : L cur.listId) :
    Within L M s s' := by
  obtain ⟨-, -, rfl⟩ := Api.Handlers.patchItem_ok h
  refine ok.updateItems (fun _ => ⟨rfl, rfl⟩) fun x _ hsel => ?_
  simp only [Api.Lists.onItem, Bool.and_eq_true, decide_eq_true_eq] at hsel
  exact hsel.2 ▸ on

theorem within_deleteItem (ok : Placed s) {cur : CurrentList} {itemId : Uuid}
    (h : Api.Handlers.deleteItem s cur itemId = .ok s') (on : L cur.listId) : Within L M s s' := by
  obtain ⟨-, -, li, hli, hlist, rfl⟩ := Api.Handlers.deleteItem_ok h
  exact within_dropItem ok hli hlist on

theorem within_setListTip (ok : Placed s) {cur : CurrentList} {tipPct : ℚ}
    (h : Api.Handlers.setListTip s cur tipPct = .ok s') (on : L cur.listId) : Within L M s s' := by
  obtain ⟨-, -, rfl⟩ := Api.Handlers.setListTip_ok h
  have tipped : Within L M s { s with
      lists := updateWhere (fun l => decide (l.id = cur.listId))
        (fun l => { l with tipPct := storedTip tipPct }) s.lists } :=
    ok.updateLists (fun _ => rfl) fun l _ hid => of_decide_eq_true hid ▸ on
  refine tipped.trans (tipped.placed.updateReimbursements (fun _ => ⟨rfl, rfl⟩) fun r _ hsel => ?_)
  simp only [pendingOnList, Bool.and_eq_true, decide_eq_true_eq] at hsel
  exact hsel.1 ▸ on

theorem within_patchListPayer (ok : Placed s) {userId listId : Uuid} {body : PatchListPayerBody}
    (h : patchListPayer s userId listId body = .ok s') (on : L listId) : Within L M s s' := by
  obtain ⟨payer, l, -, -, -, rfl⟩ := patchListPayer_ok h
  exact ok.updateLists (fun _ => rfl) fun x _ hid => of_decide_eq_true hid ▸ on

theorem apart_create (ok : Placed s) {limits : Limits} {userId groupId : Uuid}
    {lines : List NewLine} {listId : Uuid} {itemIds : List Uuid}
    (h : Api.Handlers.create s limits userId groupId lines listId itemIds = .ok s')
    (on : L listId) : Apart L M s s' := by
  obtain ⟨fresh, g, h⟩ := Api.Handlers.create_ok h
  have listed : Apart L M s { s with
      lists := s.lists ++ [⟨listId, groupId, userId, .open, g.defaultTipPct, none⟩] } :=
    ok.insertList fresh on
  exact listed.trans (within_addLines listed.placed h on)

theorem create_stays {limits : Limits} {userId groupId : Uuid}
    {lines : List NewLine} {listId : Uuid} {itemIds : List Uuid}
    (h : Api.Handlers.create s limits userId groupId lines listId itemIds = .ok s') :
    (∀ id, s'.claim? id = s.claim? id) ∧
      ∀ id, id ≠ listId → s'.list? id = s.list? id := by
  obtain ⟨-, g, h⟩ := Api.Handlers.create_ok h
  obtain ⟨-, -, -, rfl⟩ := insertItems_ok h
  refine ⟨fun _ => rfl, fun id hid => ?_⟩
  unfold Db.list? lookup
  rw [List.find?_append]
  cases s.lists.find? fun l => decide (l.id = id) with
  | some l => rfl
  | none => simp [hid.symm]

theorem lookup_filter_of_keyed {α κ : Type} [DecidableEq κ] {key : α → κ} {t : List α}
    (keyed : Keyed key t) (p : α → Bool) (k : κ) :
    lookup key k (t.filter p) = (lookup key k t).filter p := by
  ext r
  rw [Option.filter_eq_some_iff]
  constructor
  · intro h
    obtain ⟨hr, hk⟩ := lookup_mem h
    obtain ⟨hr, hp⟩ := List.mem_filter.mp hr
    exact ⟨(lookup_eq_some keyed).mpr ⟨hr, hk⟩, hp⟩
  · rintro ⟨h, hp⟩
    obtain ⟨hr, hk⟩ := lookup_mem h
    exact (lookup_eq_some (keyed.filter p)).mpr ⟨List.mem_filter.mpr ⟨hr, hp⟩, hk⟩

theorem filter_off {α : Type} {p q : α → Bool} {t : List α}
    (off : ∀ r ∈ t, p r = true → q r = true) : (t.filter q).filter p = t.filter p := by
  rw [List.filter_filter]
  refine List.filter_congr fun r hr => ?_
  by_cases hp : p r = true
  · simp [hp, off r hr hp]
  · simp [hp]

theorem apart_dropLists (ok : Placed s) {gone : List Uuid} (on : ∀ l ∈ gone, L l)
    (onM : ∀ l ∈ gone, M l) : Apart L M s (dropLists s gone) := by
  have item : ∀ id, (dropLists s gone).item? id =
      (s.item? id).filter fun li => decide (li.listId ∉ gone) := fun id =>
    lookup_filter_of_keyed ok.items _ id
  have claim : ∀ id, (dropLists s gone).claim? id =
      (s.claim? id).filter fun c => decide (c.listId ∉ gone) := fun id =>
    lookup_filter_of_keyed ok.claims _ id
  have owed : ∀ id, (dropLists s gone).reimbursement? id =
      (s.reimbursement? id).filter fun r => decide (r.listId ∉ gone) := fun id =>
    lookup_filter_of_keyed ok.reimbursements _ id
  refine ⟨⟨ok.lists.filter _, ok.items.filter _, ok.claims.filter _, ok.fulfillments.filter _,
    ok.reimbursements.filter _, ok.suggestions.filter _, fun ci hci => ?_⟩, fun l hl => ?_,
    fun l hl => ?_⟩
  · obtain ⟨hci, hkeep⟩ := List.mem_filter.mp hci
    obtain ⟨c, li, hc, hli, placed⟩ := ok.claimItems ci hci
    simp only [claimOn, itemOn, hc, hli, Option.any_some, Bool.not_eq_true', Bool.or_eq_false_iff,
      decide_eq_false_iff_not] at hkeep
    refine ⟨c, li, ?_, ?_, placed⟩
    · rw [claim, hc]
      simp [Option.filter, hkeep.1]
    · rw [item, hli]
      simp [Option.filter, hkeep.2]
  · have kept : l ∉ gone := fun h => hl (on l h)
    have same : ∀ id, onList (dropLists s gone) l id = onList s l id := by
      intro id
      unfold onList
      rw [item]
      cases h : s.item? id with
      | none => rfl
      | some li =>
        by_cases hlist : li.listId = l
        · simp [Option.filter, hlist, kept]
        · by_cases hgone : li.listId ∈ gone <;> simp [Option.filter, hlist, hgone]
    have stays : ∀ id, onList s l id = true → itemOn s gone id = false := by
      intro id hid
      unfold onList at hid
      unfold itemOn
      cases h : s.item? id with
      | none => rfl
      | some li =>
        have : li.listId = l := by simpa [h] using hid
        simp [this, kept]
    refine view_ext ?_ ?_ ?_ ?_ ?_ ?_
    · refine filter_off fun x _ hx => ?_
      simpa [of_decide_eq_true hx] using kept
    · refine filter_off fun x _ hx => ?_
      simpa [of_decide_eq_true hx] using kept
    · refine filter_off fun x _ hx => ?_
      simpa [of_decide_eq_true hx] using kept
    · simp only [same]
      refine filter_off fun ci hci hon => ?_
      obtain ⟨c, li, hc, -, -⟩ := ok.claimItems ci hci
      have : c.listId = l := (ok.onList_claimItem hci hc).mp hon
      simp [claimOn, hc, this, kept, stays _ hon]
    · simp only [same]
      refine filter_off fun f _ hon => ?_
      simp [stays _ hon]
    · refine filter_off fun x _ hx => ?_
      simpa [of_decide_eq_true hx] using kept
  · have kept : l ∉ gone := fun h => hl (onM l h)
    have same : ∀ id, owedOn (dropLists s gone) l id = owedOn s l id := by
      intro id
      unfold owedOn
      rw [owed]
      cases h : s.reimbursement? id with
      | none => rfl
      | some r =>
        by_cases hlist : r.listId = l
        · simp [Option.filter, hlist, kept]
        · by_cases hgone : r.listId ∈ gone <;> simp [Option.filter, hlist, hgone]
    unfold suggestionsOn
    simp only [same]
    refine filter_off fun g _ hon => ?_
    unfold owedOn at hon
    unfold dueOn
    cases h : s.reimbursement? g.reimbursementId with
    | none => rfl
    | some r =>
      have : r.listId = l := by simpa [h] using hon
      simp [this, kept]

private theorem within_closed (ok : Placed s) {ids : List Uuid} {lists : List ListRow}
    (h : ClosedOn ids s.lists lists) (on : ∀ l ∈ ids, L l) :
    Within L M s { s with lists := lists } := by
  obtain ⟨p, hp, rfl⟩ := h
  exact ok.updateLists (fun _ => rfl) fun l _ hsel => on _ (hp l hsel).1

/-- A settle reaches the lists of the reimbursements bound to its contract. -/
theorem within_settleViaContract (ok : Placed s) {cid : Uuid} {now : Timestamp}
    {infos : List ContractSettledReimbursement}
    (h : settleViaContract s cid now = .ok (infos, s'))
    (on : ∀ r ∈ s.reimbursements, boundTo cid r = true → L r.listId) : Within L M s s' := by
  have closed := settleViaContract_lists h
  have onLists : ∀ l ∈ boundLists s cid, L l := by
    intro l hl
    unfold boundLists at hl
    obtain ⟨r, hr, rfl⟩ := List.mem_map.mp (List.mem_dedup.mp hl)
    obtain ⟨hr, hbound⟩ := List.mem_filter.mp hr
    exact on r hr hbound
  obtain ⟨c, -, ⟨-, rfl⟩ | ⟨-, at_, m, lists, rfl, rfl⟩⟩ := settleViaContract_ok h
  · exact ok.refl
  · have settled : Within L M s (settleReimbursements s (pendingOn cid) at_ none) := by
      refine ok.updateReimbursements (fun _ => ⟨rfl, rfl⟩) fun r hr hsel => on r hr ?_
      simp only [pendingOn, Bool.and_eq_true] at hsel
      exact hsel.1
    have flipped : Within L M s (flipItems (settleReimbursements s (pendingOn cid) at_ none)
        (flipsOnContract (settleReimbursements s (pendingOn cid) at_ none) cid)) := by
      refine settled.trans (settled.placed.updateItems (fun _ => ⟨rfl, rfl⟩) fun li _ hsel => ?_)
      obtain ⟨r', hr', hsel⟩ := List.any_eq_true.mp hsel
      simp only [Bool.and_eq_true, decide_eq_true_eq] at hsel
      obtain ⟨r, hr, rfl⟩ := mem_updateWhere.mp hr'
      have bound : boundTo cid r = true ∧ li.listId = r.listId := by
        obtain ⟨⟨⟨⟨⟨hb, hl⟩, -⟩, -⟩, -⟩, -⟩ := hsel
        split at hb <;> split at hl <;> exact ⟨hb, hl⟩
      exact bound.2 ▸ on r hr bound.1
    have closed' := flipped.trans (within_closed (L := L) flipped.placed closed onLists)
    exact closed'.trans (closed'.placed.elsewhere rfl rfl rfl rfl rfl rfl rfl)

theorem within_settleManual (ok : Placed s) {rid settledBy : Uuid} {now : Timestamp}
    {r : Reimbursement} (hr : s.reimbursement? rid = some r)
    (h : settleManual s rid settledBy now = .ok s') (on : L r.listId) : Within L M s s' := by
  have closed := settleManual_lists hr h
  obtain ⟨x, mine, rival, lists, hx, -, -, -, rfl⟩ := settleManual_ok h
  obtain rfl : x = r := Option.some.inj (hx.symm.trans hr)
  obtain ⟨hmem, -⟩ := lookup_mem hr
  have settled : Within L M s
      (settleReimbursements s (fun y => decide (y.id = x.id)) now (some settledBy)) := by
    refine ok.updateReimbursements (fun _ => ⟨rfl, rfl⟩) fun y hy hid => ?_
    obtain rfl := ok.reimbursements.eq_of_key hy hmem (of_decide_eq_true hid)
    exact on
  have flipped : Within L M s (flipHaulerItems
      (settleReimbursements s (fun y => decide (y.id = x.id)) now (some settledBy))
      x.listId x.haulerUserId false mine rival) := by
    refine settled.trans (settled.placed.updateItems (fun _ => ⟨rfl, rfl⟩) fun li _ hsel => ?_)
    simp only [Bool.and_eq_true, decide_eq_true_eq] at hsel
    exact hsel.1.1.1.1 ▸ on
  refine flipped.trans (within_closed flipped.placed closed fun l hl => ?_)
  rw [List.mem_singleton.mp hl]
  exact on

private theorem within_finalizeLink (ok : Placed m) {c : Contract} {r : Reimbursement}
    {now : Timestamp}
    (hr : r ∈ m.reimbursements) (h : finalizeLink m c r.id now = .ok s') (on : L r.listId)
    (onBound : c.status.isTerminalSuccess = true →
      ∀ x ∈ m.reimbursements, boundTo c.id x = true → L x.listId) : Within L M m s' := by
  have bound : Within L M m (bindReimbursement m c.id r.id) := by
    refine ok.updateReimbursements (fun _ => ⟨rfl, rfl⟩) fun x hx hid => ?_
    obtain rfl := ok.reimbursements.eq_of_key hx hr (of_decide_eq_true hid)
    exact on
  have totalled : Within L M m (setExpectedTotal (bindReimbursement m c.id r.id) c.id
      (boundTotal (bindReimbursement m c.id r.id) c.id)) :=
    bound.trans (bound.placed.elsewhere rfl rfl rfl rfl rfl rfl rfl)
  rcases finalizeLink_ok h with ⟨finished, infos, hsettle⟩ | ⟨-, rfl⟩
  · refine totalled.trans (within_settleViaContract totalled.placed hsettle fun x' hx' hb => ?_)
    obtain ⟨x, hx, rfl⟩ := mem_updateWhere.mp hx'
    by_cases hid : x.id = r.id
    · obtain rfl := ok.reimbursements.eq_of_key hx hr hid
      simpa using on
    · simp only [decide_eq_true_eq, if_neg hid] at hb ⊢
      exact onBound finished x hx hb
  · exact totalled

theorem within_doConfirm (ok : Placed s) {userId gid : Uuid} {now : Timestamp}
    (h : doConfirm s userId gid now = .ok s') :
    ∃ g c r l, s.suggestion? gid = some g ∧ s.contract? g.contractId = some c ∧
      s.reimbursement? g.reimbursementId = some r ∧ s.list? r.listId = some l ∧
      isMember s l.groupId userId ∧ ∀ {L M : Uuid → Prop}, L r.listId → M r.listId →
        (c.status.isTerminalSuccess = true →
          ∀ x ∈ s.reimbursements, boundTo c.id x = true → L x.listId) → Within L M s s' := by
  simp only [doConfirm, bind_eq_ok, fetch_eq_ok, require_eq_ok] at h
  obtain ⟨g, hg, c, hc, r, hr, l, hl, -, -, _, valid, -, -, h⟩ := h
  simp only [validateLink, bind_eq_ok, require_eq_ok] at valid
  obtain ⟨-, -, -, -, -, -, -, -, -, -, -, -, member⟩ := valid
  refine ⟨g, c, r, l, hg, hc, hr, hl, member, fun {L M} on onM onBound => ?_⟩
  have confirmed : Within L M s (confirmWhere s fun x => decide (x.id = gid)) := by
    refine ok.updateSuggestions (fun _ => ⟨rfl, rfl⟩) fun x hx hid l' hl' => ?_
    obtain ⟨hmem, hk⟩ := lookup_mem hg
    obtain rfl := ok.suggestions.eq_of_key hx hmem ((of_decide_eq_true hid).trans hk.symm)
    have : r.listId = l' := by simpa [owedOn, hr] using hl'
    exact this ▸ onM
  exact confirmed.trans (within_finalizeLink confirmed.placed (lookup_mem hr).1 h on onBound)

theorem within_doManualLink (ok : Placed s) {userId cid rid newId : Uuid} {now : Timestamp}
    (h : doManualLink s userId cid rid newId now = .ok s') :
    ∃ c r l, s.contract? cid = some c ∧ s.reimbursement? rid = some r ∧
      s.list? r.listId = some l ∧
      isMember s l.groupId userId ∧ ∀ {L M : Uuid → Prop}, L r.listId → M r.listId →
        (c.status.isTerminalSuccess = true →
          ∀ x ∈ s.reimbursements, boundTo c.id x = true → L x.listId) → Within L M s s' := by
  simp only [doManualLink, bind_eq_ok, fetch_eq_ok] at h
  obtain ⟨c, hc, r, hr, l, hl, _, valid, s₁, hup, h⟩ := h
  simp only [validateLink, bind_eq_ok, require_eq_ok] at valid
  obtain ⟨-, -, -, -, -, -, -, -, -, -, -, -, member⟩ := valid
  refine ⟨c, r, l, hc, hr, hl, member, fun {L M} on onM onBound => ?_⟩
  have hr' : s.reimbursement? r.id = some r := by
    rw [(lookup_mem hr).2]
    exact hr
  have owed : ∀ l', owedOn s l' r.id = true → M l' := fun l' hl' => by
    have : r.listId = l' := by simpa [owedOn, hr'] using hl'
    exact this ▸ onM
  have confirmed : Within L M s s₁ := by
    obtain ⟨-, ⟨-, rfl⟩ | ⟨-, fresh, rfl⟩⟩ := upsertConfirmed_ok hup
    · refine ok.updateSuggestions (fun _ => ⟨rfl, rfl⟩) fun x _ hsel => ?_
      simp only [pairOf, Bool.and_eq_true, decide_eq_true_eq] at hsel
      rw [hsel.2]
      exact owed
    · refine ok.insertSuggestions (by simp [Keyed]) (fun x hx => ?_) fun x hx => ?_
      · rw [List.mem_singleton.mp hx]
        exact fresh
      · rw [List.mem_singleton.mp hx]
        exact owed
  have rows : s₁.reimbursements = s.reimbursements := by
    obtain ⟨-, ⟨-, rfl⟩ | ⟨-, -, rfl⟩⟩ := upsertConfirmed_ok hup <;> rfl
  refine confirmed.trans (within_finalizeLink confirmed.placed (rows ▸ (lookup_mem hr).1) h on ?_)
  rw [rows]
  exact onBound

theorem within_doReject (ok : Placed s) {userId gid : Uuid}
    (h : doReject s userId gid = .ok s') :
    ∃ g r l, s.suggestion? gid = some g ∧ s.reimbursement? g.reimbursementId = some r ∧
      s.list? r.listId = some l ∧ isMember s l.groupId userId ∧
      ∀ {L M : Uuid → Prop}, M r.listId → Within L M s s' := by
  simp only [doReject, bind_eq_ok, fetch_eq_ok, require_eq_ok] at h
  obtain ⟨g, hg, c, -, r, hr, l, hl, -, -, -, -, -, member, h⟩ := h
  refine ⟨g, r, l, hg, hr, hl, member, fun {L M} onM => ?_⟩
  obtain rfl := (Except.ok.inj h).symm
  refine ok.updateSuggestions (fun _ => ⟨rfl, rfl⟩) fun x hx hid l' hl' => ?_
  obtain ⟨hmem, hk⟩ := lookup_mem hg
  obtain rfl := ok.suggestions.eq_of_key hx hmem ((of_decide_eq_true hid).trans hk.symm)
  have : r.listId = l' := by simpa [owedOn, hr] using hl'
  exact this ▸ onM

/-- Unbinding reaches the pending reimbursements of the contract, and suggestions in one state. -/
theorem within_unbind (ok : Placed s) {cid : Uuid} {state : ContractMatchState}
    {total : Option Cents}
    (on : ∀ r ∈ s.reimbursements, pendingOn cid r = true → L r.listId)
    (onM : ∀ g ∈ s.suggestions, g.contractId = cid → g.state = state →
      ∀ l, owedOn s l g.reimbursementId = true → M l) :
    Within L M s
      (setExpectedTotal (supersede (unbindReimbursements s cid) cid state) cid total) := by
  have superseded : Within L M s (supersede s cid state) := by
    refine ok.updateSuggestions (fun _ => ⟨rfl, rfl⟩) fun g hg hsel => ?_
    simp only [Bool.and_eq_true, decide_eq_true_eq] at hsel
    exact onM g hg hsel.1 hsel.2
  have unbound : Within L M s (supersede (unbindReimbursements s cid) cid state) :=
    superseded.trans (superseded.placed.updateReimbursements (fun _ => ⟨rfl, rfl⟩) on)
  exact unbound.trans (unbound.placed.elsewhere rfl rfl rfl rfl rfl rfl rfl)

theorem within_upsertContract (ok : Placed s) {u : ContractUpsert} {newId : Uuid}
    {o : ContractUpsertOutcome} (h : upsertContract s u newId = .ok (o, s')) : Within L M s s' := by
  simp only [upsertContract, bind_eq_ok, require_eq_ok] at h
  obtain ⟨-, -, h⟩ := h
  split at h
  · obtain ⟨-, rfl⟩ := Prod.mk.inj (Except.ok.inj h)
    exact ok.elsewhere rfl rfl rfl rfl rfl rfl rfl
  · simp only [bind_eq_ok, require_eq_ok] at h
    obtain ⟨-, -, h⟩ := h
    obtain ⟨-, rfl⟩ := Prod.mk.inj (Except.ok.inj h)
    exact ok.elsewhere rfl rfl rfl rfl rfl rfl rfl

theorem within_runOne (ok : Placed s) {cid : Uuid} {newId : Uuid → Uuid}
    (h : runOne s cid newId = .ok s') (onM : ∀ l, M l) : Within L M s s' := by
  rcases runOne_ok h with rfl | ⟨issuer, assignee, -, nodup, fresh, rfl⟩
  · exact ok.refl
  · have refreshed : Within L M s { s with
        suggestions := updateWhere (fun _ => true)
          (refreshSuggestion cid (suggestionsFor s cid issuer assignee)) s.suggestions } :=
      ok.updateSuggestions (fun x => by simp) fun _ _ _ l _ => onM l
    have rows : updateWhere (fun _ => true)
        (refreshSuggestion cid (suggestionsFor s cid issuer assignee)) s.suggestions =
          s.suggestions.map (refreshSuggestion cid (suggestionsFor s cid issuer assignee)) := by
      simp [updateWhere]
    rw [rows] at refreshed
    refine refreshed.trans (refreshed.placed.insertSuggestions nodup (fun x hx => ?_)
      fun _ _ l _ => onM l)
    refine lookup_eq_none.mpr fun a ha => ?_
    obtain ⟨g, hg, rfl⟩ := List.mem_map.mp ha
    rw [refreshSuggestion_id]
    exact lookup_eq_none.mp (fresh x hx) g hg

end JitaCart.Tenancy
