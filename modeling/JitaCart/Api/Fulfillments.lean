/- module: JitaCart/Api/Fulfillments
   source: backend/crates/api/src/fulfillment/fulfillments.rs
   digest: Recording a purchase, reversing it, and marking an item delivered. -/

import JitaCart.Api.Claims
import JitaCart.Api.Reimbursements
import JitaCart.Base.Strings

set_option autoImplicit false
set_option relaxedAutoImplicit false

namespace JitaCart.Api.Fulfillments

open Schema Base.Table Base.Request Base.Numeric Extract ItemStatus Claims Reimbursements
open Base.Strings (isWhitespace)

structure RecordFulfillmentBody where
  qty : Int
  unitPriceIsk : ℚ
  boughtAtMarketId : Option Uuid
  boughtAtNote : Option String
  haulerCharacterId : Option Uuid
  claimId : Option Uuid
  deriving DecidableEq

/-- `note.trim().is_empty()`. -/
def isBlank (note : String) : Bool := note.toList.all isWhitespace

/-- Where it was bought: a market, or a note that is not blank. -/
def validateBoughtAt (body : RecordFulfillmentBody) : Except ApiError Unit :=
  match body.boughtAtMarketId, body.boughtAtNote with
  | some _, _ => .ok ()
  | none, none =>
    .error (.badRequest "bought_at_note is required when no market is specified")
  | none, some note => require (isBlank note = false) (.badRequest "bought_at_note must not be blank")

def validateBody (body : RecordFulfillmentBody) : Except ApiError Unit := do
  require (0 < body.qty) (.badRequest "qty must be positive")
  require (body.qty ≤ 10000000) (.badRequest "qty must be at most 10,000,000")
  require (0 ≤ body.unitPriceIsk) (.badRequest "unit_price_isk must be >= 0")
  validateBoughtAt body

/-- Market and character, each checked only when given. -/
def validateRefs (s : Db) (userId : Uuid) (body : RecordFulfillmentBody) :
    Except ApiError Unit := do
  require (∀ m ∈ body.boughtAtMarketId, m ∈ s.directory.markets)
    (.badRequest "bought_at_market_id does not exist")
  require (∀ c ∈ body.haulerCharacterId,
      ∃ ch ∈ s.directory.characters, ch.id = c ∧ ch.userId = userId)
    (.badRequest "hauler_character_id does not belong to you")

/-- The claim whose active row holds the item; `claim_items_one_active` allows one. -/
def activeClaim (s : Db) (itemId : Uuid) : Option Claim :=
  s.claimItems.findSome? fun ci =>
    if ci.listItemId = itemId ∧ ci.active = true then s.claim? ci.claimId else none

def checkActiveClaim (active : Option Claim) (userId : Uuid) (role : GroupRole)
    (claimId : Option Uuid) : Except ApiError Unit :=
  match active with
  | none => .ok ()
  | some c => do
    require (userId = c.haulerUserId ∨ role = .owner) .noAccess
    require (∀ explicit ∈ claimId, explicit = c.id)
      (.badRequest "claim_id does not match the active claim for this item")

/-- Go on when the cycle has no reimbursement yet or a pending one. -/
def requirePending (status : Option ReimbursementStatus) (e : ReimbursementStatus → ApiError) :
    Except ApiError Unit :=
  match status with
  | none => .ok ()
  | some rs => require (rs = .pending) (e rs)

@[simp] theorem requirePending_eq_ok {status : Option ReimbursementStatus}
    {e : ReimbursementStatus → ApiError} {u : Unit} :
    requirePending status e = .ok u ↔ ∀ rs ∈ status, rs = .pending := by
  cases status <;> simp [requirePending]

def insertFulfillment (s : Db) (f : Fulfillment) : Except ApiError Db := do
  require (Fits 20 f.unitPriceIsk) DbError.numericOverflow.toApi
  require (0 < f.qty ∧ 0 ≤ f.unitPriceIsk) DbError.checkViolation.toApi
  require (s.fulfillment? f.id = none) DbError.duplicateKey.toApi
  .ok { s with fulfillments := s.fulfillments ++ [f] }

/-- Complete the claim once none of its items is short of bought. -/
def completeClaim (s : Db) (active : Option Claim) (newStatus : ListItemStatus) : Db :=
  match active with
  | none => s
  | some c =>
    if (newStatus = .bought ∨ newStatus = .settled) ∧
        ∀ ci ∈ s.claimItems, ci.claimId = c.id → ∀ li ∈ s.item? ci.listItemId,
          li.status = .bought ∨ li.status = .delivered ∨ li.status = .settled then
      updateClaimStatus s c.id (fun x => decide (x.status = .active)) .completed
    else s

/-- The inserted row; the price is stored in hundredths. -/
def newFulfillment (body : RecordFulfillmentBody) (id userId itemId : Uuid)
    (active : Option Claim) (now : Timestamp) : Fulfillment where
  id := id
  listItemId := itemId
  claimId := active.map (·.id)
  haulerUserId := userId
  haulerCharacterId := body.haulerCharacterId
  qty := body.qty
  unitPriceIsk := toScale 2 body.unitPriceIsk
  boughtAtMarketId := body.boughtAtMarketId
  boughtAtNote := body.boughtAtNote
  boughtAt := now
  reversedAt := none

/-- Ids and instants that the database generates during the request. -/
structure Generated where
  fulfillmentId : Uuid
  reimbursementId : Uuid
  now : Timestamp
  deriving DecidableEq

def recordFulfillment (s : Db) (userId listId itemId : Uuid) (body : RecordFulfillmentBody)
    (gen : Generated) : Except ApiError Db := do
  let cur ← currentList s userId listId
  cur.requireMutable
  validateBody body
  lockList s listId
  let li ← fetch .missing ((s.item? itemId).filter fun li => decide (li.listId = listId))
  -- A 64-bit addition of the release build: it wraps.
  require (wrapI64 (body.qty + li.qtyFulfilled) ≤ li.qtyRequested)
    (.conflict (s!"fulfillment qty {body.qty} would exceed requested {li.qtyRequested} " ++
      s!"(already fulfilled: {li.qtyFulfilled})"))
  requirePending (reimbursementStatus s listId li.requestedByUserId userId) fun rs =>
    .conflict (s!"reimbursement for this requester is already {rs}; " ++
      "cannot record additional fulfillments")
  validateRefs s userId body
  let active := activeClaim s itemId
  checkActiveClaim active userId cur.role body.claimId
  let s₁ ← insertFulfillment s
    (newFulfillment body gen.fulfillmentId userId itemId active gen.now)
  let (newStatus, s₂) ← recomputeItemStatus s₁ itemId .forbid
  let s₃ := completeClaim s₂ active newStatus
  upsertReimbursement s₃ listId li.requestedByUserId userId gen.reimbursementId

def reverseRow (s : Db) (fulfillmentId : Uuid) (now : Timestamp) : Db :=
  { s with
    fulfillments := updateWhere (fun f => decide (f.id = fulfillmentId) && f.live)
      (fun f => { f with reversedAt := some now }) s.fulfillments }

def reverseFulfillment (s : Db) (userId fulfillmentId newReimbursementId : Uuid)
    (now : Timestamp) : Except ApiError Db := do
  let f ← fetch .missing (s.fulfillment? fulfillmentId)
  let li ← fetch .missing (s.item? f.listItemId)
  let l ← fetch .missing (s.list? li.listId)
  require (l.status ≠ .archived) (.conflict "list is archived; no changes can be made")
  require (f.live = true) (.badRequest "fulfillment is already reversed")
  let role ← fetch .noAccess (s.directory.roleOf userId l.groupId)
  require (userId = f.haulerUserId ∨ role = .owner) .noAccess
  requirePending (reimbursementStatus s li.listId li.requestedByUserId f.haulerUserId) fun _ =>
    .conflict "cannot reverse a fulfillment whose reimbursement is already settled"
  let (_, s₂) ← recomputeItemStatus (reverseRow s fulfillmentId now) f.listItemId .allow
  upsertReimbursement s₂ li.listId li.requestedByUserId f.haulerUserId newReimbursementId

/-- `hauler_user_id ... ORDER BY bought_at DESC LIMIT 1`: which of several latest purchases the
query returns is open. -/
def IsLastHauler (s : Db) (itemId : Uuid) (last : Option Uuid) : Prop :=
  let onItem := s.fulfillments.filter fun f => decide (f.listItemId = itemId) && f.live
  match last with
  | none => onItem = []
  | some h => ∃ f ∈ onItem, f.haulerUserId = h ∧ ∀ g ∈ onItem, g.boughtAt ≤ f.boughtAt

instance (s : Db) (itemId : Uuid) (last : Option Uuid) : Decidable (IsLastHauler s itemId last) :=
  match last with
  | none => inferInstanceAs (Decidable (_ = []))
  | some _ => inferInstanceAs (Decidable (∃ f ∈ _, _))

def setDelivered (s : Db) (itemId : Uuid) : Db :=
  { s with
    listItems := updateWhere (fun li => decide (li.id = itemId))
      (fun li => { li with status := .delivered }) s.listItems }

/-- `Uuid::nil()`. -/
def nilUuid : Uuid := 0

def markDelivered (s : Db) (userId listId itemId : Uuid) (lastHauler : Option Uuid) :
    Except ApiError Db := do
  let cur ← currentList s userId listId
  cur.requireMutable
  lockList s listId
  let li ← fetch .missing ((s.item? itemId).filter fun li => decide (li.listId = listId))
  require (IsLastHauler s itemId lastHauler) (.internal "last_hauler is not a result of the query")
  require (li.status = .bought) (.badRequest
    s!"item must be in 'bought' status to mark delivered (currently: {li.status})")
  require (userId = lastHauler.getD nilUuid ∨ cur.role = .owner) .noAccess
  .ok (setDelivered s itemId)

theorem item_filter_eq_some {s : Db} {itemId listId : Uuid} {li : ListItem} :
    ((s.item? itemId).filter fun li => decide (li.listId = listId)) = some li ↔
      s.item? itemId = some li ∧ li.listId = listId := by
  simp [Option.filter_eq_some_iff]

private theorem validateBody_ok {body : RecordFulfillmentBody} {u : Unit}
    (h : validateBody body = .ok u) :
    0 < body.qty ∧ body.qty ≤ 10000000 ∧ 0 ≤ body.unitPriceIsk := by
  simp only [validateBody, bind_eq_ok, require_eq_ok] at h
  obtain ⟨-, pos, -, atMost, -, price, -⟩ := h
  exact ⟨pos, atMost, price⟩

theorem recordFulfillment_ok {s s' : Db} {userId listId itemId : Uuid}
    {body : RecordFulfillmentBody} {gen : Generated}
    (h : recordFulfillment s userId listId itemId body gen = .ok s') :
    ∃ l role li f s₁ status s₂ active,
      s.list? listId = some l ∧ s.directory.roleOf userId l.groupId = some role ∧
      l.status ≠ .archived ∧ s.item? itemId = some li ∧ li.listId = listId ∧
      0 < body.qty ∧ body.qty ≤ 10000000 ∧ 0 ≤ body.unitPriceIsk ∧
      wrapI64 (body.qty + li.qtyFulfilled) ≤ li.qtyRequested ∧
      (∀ rs ∈ reimbursementStatus s listId li.requestedByUserId userId, rs = .pending) ∧
      f = newFulfillment body gen.fulfillmentId userId itemId active gen.now ∧
      s.fulfillment? f.id = none ∧ s₁ = { s with fulfillments := s.fulfillments ++ [f] } ∧
      recomputeItemStatus s₁ itemId .forbid = .ok (status, s₂) ∧
      upsertReimbursement (completeClaim s₂ active status) listId li.requestedByUserId userId
        gen.reimbursementId = .ok s' := by
  simp only [recordFulfillment, bind_eq_ok, fetch_eq_ok, require_eq_ok,
    requirePending_eq_ok] at h
  obtain ⟨cur, hcur, _, mutable, _, hbody, -, -, li, hli, -, room, -, hstatus, -, -, -, -, s₁, hins,
    ⟨status, s₂⟩, hrec, hup⟩ := h
  obtain ⟨l, role, hl, hrole, rfl⟩ := currentList_ok hcur
  obtain ⟨hitem, hlist⟩ := item_filter_eq_some.mp hli
  obtain ⟨pos, atMost, price⟩ := validateBody_ok hbody
  simp only [CurrentList.requireMutable, require_eq_ok] at mutable
  simp only [insertFulfillment, bind_eq_ok, require_eq_ok] at hins
  obtain ⟨-, -, -, -, -, fresh, hins⟩ := hins
  exact ⟨l, role, li, _, s₁, status, s₂, _, hl, hrole, mutable, hitem, hlist, pos, atMost, price,
    room, hstatus, rfl, fresh, (Except.ok.inj hins).symm, hrec, hup⟩

theorem reverseFulfillment_ok {s s' : Db} {userId fulfillmentId newReimbursementId : Uuid}
    {now : Timestamp}
    (h : reverseFulfillment s userId fulfillmentId newReimbursementId now = .ok s') :
    ∃ f li l role status s₂, s.fulfillment? fulfillmentId = some f ∧
      s.item? f.listItemId = some li ∧ s.list? li.listId = some l ∧
      s.directory.roleOf userId l.groupId = some role ∧ f.live = true ∧
      (∀ rs ∈ reimbursementStatus s li.listId li.requestedByUserId f.haulerUserId,
        rs = .pending) ∧
      recomputeItemStatus (reverseRow s fulfillmentId now) f.listItemId .allow = .ok (status, s₂) ∧
      upsertReimbursement s₂ li.listId li.requestedByUserId f.haulerUserId newReimbursementId =
        .ok s' := by
  simp only [reverseFulfillment, bind_eq_ok, fetch_eq_ok, require_eq_ok,
    requirePending_eq_ok] at h
  obtain ⟨f, hf, li, hli, l, hl, -, -, -, live, role, hrole, -, -, -, hstatus, ⟨status, s₂⟩, hrec,
    hup⟩ := h
  exact ⟨f, li, l, role, status, s₂, hf, hli, hl, hrole, live, hstatus, hrec, hup⟩

theorem markDelivered_ok {s s' : Db} {userId listId itemId : Uuid} {lastHauler : Option Uuid}
    (h : markDelivered s userId listId itemId lastHauler = .ok s') :
    ∃ li, s.item? itemId = some li ∧ li.listId = listId ∧ li.status = .bought ∧
      s' = setDelivered s itemId := by
  simp only [markDelivered, bind_eq_ok, fetch_eq_ok, require_eq_ok] at h
  obtain ⟨-, -, -, -, -, -, li, hli, -, -, -, bought, -, -, h⟩ := h
  obtain ⟨hitem, hlist⟩ := item_filter_eq_some.mp hli
  exact ⟨li, hitem, hlist, bought, (Except.ok.inj h).symm⟩

end JitaCart.Api.Fulfillments
