/- module: JitaCart/Webhooks/Events
   source: backend/crates/webhook-dispatch/src/lib.rs
   digest: What Discord is told, how an event is stored, and where a group wants it posted. -/

import JitaCart.Base.Json
import JitaCart.Base.Request
import JitaCart.Schema

set_option autoImplicit false
set_option relaxedAutoImplicit false

namespace JitaCart.Webhooks

open Base.Table Base.Request Base.Json Schema

structure WebhookConfig where
  webhookUrl : String
  notifyListCreated : Bool
  notifyListClaimed : Bool
  notifyListDelivered : Bool
  notifyReimbursementSettled : Bool
  deriving DecidableEq

structure WebhookRow where
  groupId : Uuid
  config : WebhookConfig
  deriving DecidableEq

inductive Error
  | badRequest (message : String)
  | forbidden
  deriving DecidableEq

def fetchRow (rows : List WebhookRow) (groupId : Uuid) : Option WebhookConfig :=
  (lookup WebhookRow.groupId groupId rows).map WebhookRow.config

def isDiscordUrl (url : String) : Bool :=
  url.startsWith "https://discord.com/api/webhooks/" ||
    url.startsWith "https://discordapp.com/api/webhooks/"

def doUpsertWebhook (rows : List WebhookRow) (groupId : Uuid) (role : GroupRole)
    (body : WebhookConfig) : Except Error (List WebhookRow) := do
  require (role = .owner) .forbidden
  require (body.webhookUrl.utf8ByteSize ≤ 512) (.badRequest "webhook_url is too long")
  require (isDiscordUrl body.webhookUrl = true)
    (.badRequest "webhook_url must be a Discord webhook URL")
  .ok (replace WebhookRow.groupId groupId (some ⟨groupId, body⟩) rows)

def doDeleteWebhook (rows : List WebhookRow) (groupId : Uuid) (role : GroupRole) :
    Except Error (List WebhookRow) := do
  require (role = .owner) .forbidden
  .ok (replace WebhookRow.groupId groupId none rows)

/-- What `do_upsert_webhook` lets through. -/
def Allowed (url : String) : Prop := url.utf8ByteSize ≤ 512 ∧ isDiscordUrl url = true

private theorem doUpsertWebhook_ok {rows rows' : List WebhookRow} {groupId : Uuid}
    {role : GroupRole}
    {body : WebhookConfig} (h : doUpsertWebhook rows groupId role body = .ok rows') :
    role = .owner ∧ Allowed body.webhookUrl ∧
      rows' = replace WebhookRow.groupId groupId (some ⟨groupId, body⟩) rows := by
  simp only [doUpsertWebhook, bind_eq_ok, require_eq_ok, Except.ok.injEq] at h
  obtain ⟨-, owner, -, short, -, discord, rfl⟩ := h
  exact ⟨owner, ⟨short, discord⟩, rfl⟩

private theorem doDeleteWebhook_ok {rows rows' : List WebhookRow} {groupId : Uuid}
    {role : GroupRole} (h : doDeleteWebhook rows groupId role = .ok rows') :
    role = .owner ∧ rows' = replace WebhookRow.groupId groupId none rows := by
  simp only [doDeleteWebhook, bind_eq_ok, require_eq_ok, Except.ok.injEq] at h
  obtain ⟨-, owner, rfl⟩ := h
  exact ⟨owner, rfl⟩

theorem allowed_upsert {rows rows' : List WebhookRow} {groupId : Uuid} {role : GroupRole}
    {body : WebhookConfig} (h : doUpsertWebhook rows groupId role body = .ok rows')
    (allowed : ∀ row ∈ rows, Allowed row.config.webhookUrl) :
    ∀ row ∈ rows', Allowed row.config.webhookUrl := by
  obtain ⟨-, new, rfl⟩ := doUpsertWebhook_ok h
  intro row hrow
  rcases mem_replace.mp hrow with ⟨old, -⟩ | own
  · exact allowed row old
  · obtain rfl := Option.some.inj own
    exact new

theorem allowed_delete {rows rows' : List WebhookRow} {groupId : Uuid} {role : GroupRole}
    (h : doDeleteWebhook rows groupId role = .ok rows')
    (allowed : ∀ row ∈ rows, Allowed row.config.webhookUrl) :
    ∀ row ∈ rows', Allowed row.config.webhookUrl := by
  obtain ⟨-, rfl⟩ := doDeleteWebhook_ok h
  intro row hrow
  rcases mem_replace.mp hrow with ⟨old, -⟩ | none
  · exact allowed row old
  · cases none

theorem fetchRow_mem {rows : List WebhookRow} {groupId : Uuid} {config : WebhookConfig}
    (h : fetchRow rows groupId = some config) : ⟨groupId, config⟩ ∈ rows := by
  obtain ⟨row, found, rfl⟩ := Option.map_eq_some_iff.mp h
  obtain ⟨mem, rfl⟩ := lookup_mem found
  exact mem

inductive WebhookEvent
  | listCreated (listDestination : String) (itemCount : Int64) (estimateIsk creatorName : String)
  | listClaimed (listDestination haulerName : String) (itemCount : UInt64)
  | listDelivered (listDestination haulerName : String)
  | reimbursementSettled (listDestination requesterName haulerName totalIsk : String)
  deriving DecidableEq

namespace WebhookEvent

def isEnabled (row : WebhookConfig) : WebhookEvent → Bool
  | listCreated .. => row.notifyListCreated
  | listClaimed .. => row.notifyListClaimed
  | listDelivered .. => row.notifyListDelivered
  | reimbursementSettled .. => row.notifyReimbursementSettled

def embedColor : WebhookEvent → Nat
  | listCreated .. => 0x2f81f7
  | listClaimed .. => 0xd29922
  | listDelivered .. => 0x3fb950
  | reimbursementSettled .. => 0x8b949e

def title : WebhookEvent → String
  | listCreated listDestination .. => s!"New list: {listDestination}"
  | listClaimed listDestination haulerName _ =>
    s!"{haulerName} claimed items on {listDestination}"
  | listDelivered listDestination haulerName => s!"{haulerName} delivered {listDestination}"
  | reimbursementSettled listDestination .. => s!"Reimbursement settled: {listDestination}"

def description : WebhookEvent → String
  | listCreated _ itemCount estimateIsk creatorName =>
    s!"{creatorName} created a list with {itemCount} items (est. {estimateIsk} ISK)"
  | listClaimed _ _ itemCount => s!"{itemCount} item(s) claimed"
  | listDelivered .. => "All items delivered/settled"
  | reimbursementSettled _ requesterName haulerName totalIsk =>
    s!"{requesterName} → {haulerName}: {totalIsk} ISK"

end WebhookEvent

def buildPayload (event : WebhookEvent) : Value :=
  .object [("embeds", .array [.object [
    ("title", .string event.title),
    ("description", .string event.description),
    ("color", .number event.embedColor)]])]

namespace WebhookEvent

/-- `#[serde(tag = "kind")]`. -/
def kind : WebhookEvent → String
  | listCreated .. => "ListCreated"
  | listClaimed .. => "ListClaimed"
  | listDelivered .. => "ListDelivered"
  | reimbursementSettled .. => "ReimbursementSettled"

def fields : WebhookEvent → Object
  | listCreated listDestination itemCount estimateIsk creatorName => [
      ("list_destination", Field.write listDestination),
      ("item_count", Field.write itemCount),
      ("estimate_isk", Field.write estimateIsk),
      ("creator_name", Field.write creatorName)]
  | listClaimed listDestination haulerName itemCount => [
      ("list_destination", Field.write listDestination),
      ("hauler_name", Field.write haulerName),
      ("item_count", Field.write itemCount)]
  | listDelivered listDestination haulerName => [
      ("list_destination", Field.write listDestination),
      ("hauler_name", Field.write haulerName)]
  | reimbursementSettled listDestination requesterName haulerName totalIsk => [
      ("list_destination", Field.write listDestination),
      ("requester_name", Field.write requesterName),
      ("hauler_name", Field.write haulerName),
      ("total_isk", Field.write totalIsk)]

/-- `serde_json::to_value`. -/
def toObject (event : WebhookEvent) : Object := ("kind", Field.write event.kind) :: event.fields

def ofKind (o : Object) (kind : String) : Option WebhookEvent :=
  if kind = "ListCreated" then do
    some (listCreated (← o.read "list_destination") (← o.read "item_count")
      (← o.read "estimate_isk") (← o.read "creator_name"))
  else if kind = "ListClaimed" then do
    some (listClaimed (← o.read "list_destination") (← o.read "hauler_name")
      (← o.read "item_count"))
  else if kind = "ListDelivered" then do
    some (listDelivered (← o.read "list_destination") (← o.read "hauler_name"))
  else if kind = "ReimbursementSettled" then do
    some (reimbursementSettled (← o.read "list_destination") (← o.read "requester_name")
      (← o.read "hauler_name") (← o.read "total_isk"))
  else none

/-- `serde_json::from_value`. -/
def fromValue : Value → Option WebhookEvent
  | .object o => (Object.read o "kind").bind (ofKind o)
  | _ => none

private theorem keyed_toObject (event : WebhookEvent) : Keyed Prod.fst event.toObject := by
  unfold Keyed
  cases event <;> simp [toObject, fields]

private theorem ofKind_perm {o o' : Object} (keyed : Keyed Prod.fst o) (same : o'.Perm o)
    (kind : String) : ofKind o' kind = ofKind o kind := by
  simp only [ofKind, Object.read_perm keyed same]

private theorem ofKind_toObject (event : WebhookEvent) :
    ofKind event.toObject event.kind = some event := by
  cases event with
  | listCreated listDestination itemCount estimateIsk creatorName =>
    simp [ofKind, kind, toObject, fields, Object.read_cons_self, Object.read_cons_ne]
  | listClaimed listDestination haulerName itemCount =>
    simp [ofKind, kind, toObject, fields, Object.read_cons_self, Object.read_cons_ne]
  | listDelivered listDestination haulerName =>
    simp [ofKind, kind, toObject, fields, Object.read_cons_self, Object.read_cons_ne]
  | reimbursementSettled listDestination requesterName haulerName totalIsk =>
    simp [ofKind, kind, toObject, fields, Object.read_cons_self, Object.read_cons_ne]

/-- A stored event reads back, in whatever order the database keeps its fields. -/
theorem fromValue_perm {event : WebhookEvent} {o : Object} (same : o.Perm event.toObject) :
    fromValue (.object o) = some event := by
  have tag : (event.toObject.read "kind" : Option String) = some event.kind :=
    Object.read_cons_self "kind" event.kind event.fields
  simp only [fromValue]
  rw [Object.read_perm (keyed_toObject event) same, tag, Option.bind_some,
    ofKind_perm (keyed_toObject event) same, ofKind_toObject]

end WebhookEvent

end JitaCart.Webhooks
