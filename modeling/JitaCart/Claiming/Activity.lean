/- module: JitaCart/Claiming/Activity
   source: backend/crates/api/src/extract.rs (CurrentClaim, CurrentList),
     backend/crates/api/src/fulfillment/claims.rs,
     backend/crates/api/src/fulfillment/fulfillments.rs (record_fulfillment)
   digest: Claim requests as an unlocked snapshot read and a body under the list lock. -/

import JitaCart.Base.InFlight
import JitaCart.Claiming.Agreement

set_option autoImplicit false
set_option relaxedAutoImplicit false

namespace JitaCart.Claiming

open Schema Base.Table Base.Request Base.InFlight Base.Numeric Operations
open Api.Extract Api.ItemStatus Api.Fulfillments
open Api.Claims (withoutClaimRow)

/-- A claim request or a purchase as the client sends it. -/
inductive Request
  | createClaim (userId listId : Uuid) (itemIds : List Uuid) (claimId : Uuid)
  | addClaimItems (userId claimId : Uuid) (itemIds : List Uuid)
  | removeClaimItem (userId claimId itemId : Uuid)
  | releaseClaim (userId claimId : Uuid)
  | recordFulfillment (userId listId itemId : Uuid) (body : RecordFulfillmentBody)
      (gen : Generated)

/-- The same request with the snapshot of its extractor. -/
inductive Prepared
  | createClaim (cur : CurrentList) (itemIds : List Uuid) (claimId : Uuid)
  | addClaimItems (cur : CurrentClaim) (itemIds : List Uuid)
  | removeClaimItem (cur : CurrentClaim) (itemId : Uuid)
  | releaseClaim (cur : CurrentClaim)
  | recordFulfillment (cur : CurrentList) (itemId : Uuid) (body : RecordFulfillmentBody)
      (gen : Generated)

def read : Request → Db → Except Refusal Prepared
  | .createClaim userId listId itemIds claimId, s =>
    ((currentList s userId listId).map (.createClaim · itemIds claimId)).mapError .api
  | .addClaimItems userId claimId itemIds, s =>
    ((currentClaim s userId claimId).map (.addClaimItems · itemIds)).mapError .api
  | .removeClaimItem userId claimId itemId, s =>
    ((currentClaim s userId claimId).map (.removeClaimItem · itemId)).mapError .api
  | .releaseClaim userId claimId, s =>
    ((currentClaim s userId claimId).map .releaseClaim).mapError .api
  | .recordFulfillment userId listId itemId body gen, s =>
    ((currentList s userId listId).map (.recordFulfillment · itemId body gen)).mapError .api

/-- The handler, atomic under the lock of the list row. -/
def handle : Prepared → Db → Except Refusal Db
  | .createClaim cur itemIds claimId, s =>
    (Api.Handlers.createClaim s cur itemIds claimId).mapError .api
  | .addClaimItems cur itemIds, s => (Api.Handlers.addClaimItems s cur itemIds).mapError .api
  | .removeClaimItem cur itemId, s => (Api.Handlers.removeClaimItem s cur itemId).mapError .api
  | .releaseClaim cur, s => (Api.Handlers.releaseClaim s cur).mapError .api
  | .recordFulfillment cur itemId body gen, s =>
    (Api.Handlers.recordFulfillment s cur itemId body gen).mapError .api

/-- Claim requests and purchases in two steps each; every other request is one step. -/
abbrev step : Move Request Op → Pool Db Prepared → Except Refusal (Pool Db Prepared) :=
  move read handle apply

def start : Pool Db Prepared := { store := empty }

def Freed (s : Db) (itemId : Uuid) : Prop :=
  ∃ li, s.item? itemId = some li ∧ li.status ≠ .claimed

/-- The claim that holds the item is active, and unless the list is archived its hauler and the
owners of the group can free the item through it. -/
def CanBeFreed (s : Db) (li : ListItem) : Prop :=
  ∃ ci ∈ s.claimItems, ∃ c l, ci.listItemId = li.id ∧ ci.active = true ∧
    s.claim? ci.claimId = some c ∧ c.status = .active ∧ s.list? c.listId = some l ∧
    ∀ userId role, s.directory.roleOf userId l.groupId = some role →
      (userId = c.haulerUserId ∨ role = .owner) → l.status ≠ .archived →
      (∃ s', Api.Claims.removeClaimItem s userId c.id li.id = .ok s' ∧ Freed s' li.id) ∨
        ∃ s', Api.Claims.releaseClaim s userId c.id = .ok s' ∧ Freed s' li.id

/-- Claim rows are active exactly with their claims, and no claimed item is stuck. -/
def ClaimsHold (s : Db) : Prop :=
  (∀ ci ∈ s.claimItems, ∃ c, s.claim? ci.claimId = some c ∧
    (ci.active = true ↔ c.status = .active)) ∧
  ∀ li ∈ s.listItems, li.status = .claimed → CanBeFreed s li

/-- Removing the one active row of a claimed item gives its status to the quantities. -/
private theorem removeClaimItem_frees {s : Db} (rows : Rows s) {li : ListItem} {ci : ClaimItem}
    {c : Claim} {l : ListRow} {userId : Uuid} {role : GroupRole} (hli : li ∈ s.listItems)
    (claimed : li.status = .claimed) (hci : ci ∈ s.claimItems) (onItem : ci.listItemId = li.id)
    (active : ci.active = true) (hc : s.claim? ci.claimId = some c) (running : c.status = .active)
    (hl : s.list? c.listId = some l) (hrole : s.directory.roleOf userId l.groupId = some role)
    (allowed : userId = c.haulerUserId ∨ role = .owner) (unarchived : l.status ≠ .archived) :
    ∃ s', Api.Claims.removeClaimItem s userId c.id li.id = .ok s' ∧ Freed s' li.id := by
  have hcid : c.id = ci.claimId := (lookup_mem hc).2
  have hitem : s.item? li.id = some li := (lookup_eq_some rows.items).mpr ⟨hli, rfl⟩
  -- The row is found, so the handler goes on to the recompute.
  have shorter : (withoutClaimRow s c.id li.id).claimItems.length ≠ s.claimItems.length := by
    apply Nat.ne_of_lt
    refine List.length_filter_lt_length_iff_exists.mpr ⟨ci, hci, ?_⟩
    simp [hcid, onItem]
  have free : hasActiveClaim (withoutClaimRow s c.id li.id) li.id = false := by
    by_contra busy
    obtain ⟨cj, hcj, onIt, act⟩ := hasActiveClaim_eq_true.mp (by simpa using busy)
    obtain ⟨hcj, hout⟩ := List.mem_filter.mp hcj
    obtain rfl := rows.single cj hcj ci hci act active (onIt.trans onItem.symm)
    simp [hcid, onItem] at hout
  have fits : FitsBigint (liveQty (withoutClaimRow s c.id li.id) li.id) :=
    (rows.item li hli).fits (by simp [claimed]) (by simp [claimed])
  set qty := liveQty (withoutClaimRow s c.id li.id) li.id with hqty
  have base : baseStatus qty li.qtyRequested false ≠ .claimed := by
    unfold baseStatus
    split <;> simp
  refine ⟨setStatus (withoutClaimRow s c.id li.id) li.id
    (baseStatus qty li.qtyRequested false) qty, ?_, ?_⟩
  · refine Api.Handlers.removeClaimItem_iff.mpr
      ⟨⟨userId, l.groupId, c.listId, c.id, c.haulerUserId, role, c.status, l.status⟩, ?_, ?_⟩
    · have hc' : s.claim? c.id = some c := by rw [hcid]; exact hc
      simp only [currentClaim, bind_eq_ok, fetch_eq_ok, pure_eq_ok]
      exact ⟨c, hc', l, hl, role, hrole, rfl⟩
    · have hitem' : (withoutClaimRow s c.id li.id).item? li.id = some li := hitem
      simp only [Api.Handlers.removeClaimItem, CurrentClaim.requireListMutable,
        ensureClaimWritable, lockList, recomputeItemStatus, bind_eq_ok, require_eq_ok,
        fetch_eq_ok, pure_eq_ok]
      refine ⟨(), unarchived, (), ⟨(), allowed, running⟩, (), by simp [hl], (), shorter,
        (baseStatus qty li.qtyRequested false, _), ⟨li, hitem', ?_⟩, rfl⟩
      rw [if_neg (by simp [claimed]), bind_eq_ok, free, ← hqty]
      refine ⟨(), require_eq_ok.mpr fits, ?_⟩
      rw [if_neg (by simp [claimed])]
      rfl
  · refine ⟨{ li with status := baseStatus qty li.qtyRequested false, qtyFulfilled := qty },
      ?_, base⟩
    unfold setStatus Db.item?
    rw [lookup_updateWhere (by exact fun _ => rfl)]
    change (s.item? li.id).map _ = _
    rw [hitem]
    simp

private theorem claimsHold_iff {s : Db} (rows : Rows s) : ClaimsHold s ↔ Agrees s := by
  constructor
  · rintro ⟨h, -⟩ ci hci c hc
    obtain ⟨x, hx, agree⟩ := h ci hci
    obtain rfl : x = c := Option.some.inj (hx.symm.trans hc)
    exact agree
  · intro agrees
    refine ⟨fun ci hci => ?_, fun li hli claimed => ?_⟩
    · obtain ⟨c, hc⟩ := Option.isSome_iff_exists.mp (rows.owned ci hci)
      exact ⟨c, hc, agrees ci hci c hc⟩
    · obtain ⟨ci, hci, onItem, active⟩ :=
        hasActiveClaim_eq_true.mp ((rows.item li hli).held claimed)
      obtain ⟨c, hc⟩ := Option.isSome_iff_exists.mp (rows.owned ci hci)
      obtain ⟨l, hl⟩ := Option.isSome_iff_exists.mp (rows.listed c (lookup_mem hc).1)
      have running := (agrees ci hci c hc).mp active
      refine ⟨ci, hci, c, l, onItem, active, hc, running, hl, fun userId role hrole allowed un => ?_⟩
      exact .inl (removeClaimItem_frees rows hli claimed hci onItem active hc running hl hrole
        allowed un)

private theorem kept_handle {p : Prepared} {s s' : Db} (rows : Rows s) (h : handle p s = .ok s') :
    Kept s s' := by
  cases p with
  | createClaim cur itemIds claimId =>
    exact absurd (mapError_eq_ok.mp h) Api.Handlers.createClaim_ne_ok
  | addClaimItems cur itemIds =>
    exact absurd (mapError_eq_ok.mp h) Api.Handlers.addClaimItems_ne_ok
  | removeClaimItem cur itemId => exact kept_removeClaimItem rows (mapError_eq_ok.mp h)
  | releaseClaim cur => exact kept_releaseClaim rows (mapError_eq_ok.mp h)
  | recordFulfillment cur itemId body gen =>
    exact kept_recordFulfillment rows (mapError_eq_ok.mp h)

private theorem claimsHold_run {s : Db} (rows : Rows s) (agrees : Agrees s)
    (moves : List (Move Request Op)) : ClaimsHold (run step { store := s } moves).store := by
  -- No promise is needed about what a waiting request has read.
  have valid : Valid (fun s => Rows s ∧ Agrees s) (fun _ _ => True)
      (run step { store := s } moves) := by
    refine valid_run (fun _ _ _ _ _ => trivial) (fun p s s' ok _ h => ?_) (fun o s s' ok h => ?_)
      ⟨⟨rows, agrees⟩, by simp⟩ moves
    · have kept := kept_handle ok.1 h
      exact ⟨⟨kept.rows, kept.agrees ok.2⟩, fun _ => id⟩
    · have kept := kept_of_ok ok.1 h
      exact ⟨⟨kept.rows, kept.agrees ok.2⟩, fun _ => id⟩
  obtain ⟨rows', agrees'⟩ := valid.store
  exact (claimsHold_iff rows').mpr agrees'

/-- Under every interleaving of snapshots and bodies, claim rows agree with their claims and
claimed items can be freed: from the empty database, and from any whose tables are in order. -/
theorem claims_hold :
    (∀ moves, ClaimsHold (run step start moves).store) ∧
      ∀ s, Rows s → Agrees s → ∀ moves, ClaimsHold (run step { store := s } moves).store :=
  ⟨claimsHold_run rows_empty (by simp [Agrees, empty]),
    fun _ rows agrees => claimsHold_run rows agrees⟩

/-- Member 2 holds the first item of a list with a claim; the second is open. -/
def heldItem : Db where
  directory := sampleDirectory
  lists := [⟨1, 1, 1, .open, 0, none⟩]
  listItems :=
    [⟨1, 1, 34, "Tritanium", 5, 0, 2, .claimed, 1⟩, ⟨2, 1, 35, "Pyerite", 5, 0, 2, .open, 2⟩]
  claims := [⟨1, 1, 2, .active⟩]
  claimItems := [⟨1, 1, true⟩]

/-- Member 2 extends the claim, and it is released between the snapshot and the body. -/
def staleExtension : List (Move Request Op) :=
  [.arrive 0 (.addClaimItems 2 1 [2]), .arrive 1 (.releaseClaim 2 1), .finish 1, .finish 0]

theorem claims_hold_staleExtension :
    ClaimsHold (run step { store := heldItem } staleExtension).store :=
  claims_hold.2 heldItem
    { claims := by decide, listed := by decide, owned := by decide, single := by decide
      items := by decide, fulfillments := by decide, bought := by decide
      item := fun li hli => by
        have items : li ∈ heldItem.listItems := hli
        simp only [heldItem, List.mem_cons, List.not_mem_nil, or_false] at items
        rcases items with rfl | rfl
        · exact ⟨by decide, by decide⟩
        · exact ⟨by decide, by decide⟩ }
    (by unfold Agrees; decide) staleExtension

end JitaCart.Claiming
