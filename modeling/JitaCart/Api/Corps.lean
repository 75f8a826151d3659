/- module: JitaCart/Api/Corps
   source: backend/crates/api/src/corps.rs, backend/crates/api/src/groups.rs (delete_group),
     backend/migrations/20260427000000_init.sql (corps, group_corps, corp_ambassadors)
   digest: Linking corps to groups and lending characters to them as ambassadors. -/

import JitaCart.Base.Request
import JitaCart.Schema

/-!
The tables of corp management. `Schema.Directory` shows the other requests only
what they read of them; here the rows keep what linking writes, above all the
group an ambassador was contributed through.
-/

set_option autoImplicit false
set_option relaxedAutoImplicit false

namespace JitaCart.Api.Corps

open Schema Base.Table Base.Request

/-- A row of `characters`; `characterId` is the number EVE knows it by. -/
structure CharacterRow where
  id : Uuid
  characterId : Int
  userId : Uuid
  scopes : List String
  deriving DecidableEq

structure Corp where
  id : Uuid
  esiCorporationId : Int
  name : String
  ticker : String
  disabledAt : Option Timestamp
  deriving DecidableEq

structure CorpLink where
  groupId : Uuid
  corpId : Uuid
  linkedAt : Timestamp
  linkedByUserId : Uuid
  unlinkedAt : Option Timestamp
  deriving DecidableEq

structure Ambassador where
  corpId : Uuid
  characterId : Uuid
  grantedScopes : List String
  lastAuthErrorAt : Option Timestamp
  disabledAt : Option Timestamp
  contributedViaGroupId : Option Uuid
  deriving DecidableEq

structure Registry where
  groups : List Uuid := []
  groupMemberships : List GroupMembership := []
  characters : List CharacterRow := []
  principals : List Principal := []
  corps : List Corp := []
  groupCorps : List CorpLink := []
  corpAmbassadors : List Ambassador := []
  deriving DecidableEq

def CorpLink.key (l : CorpLink) : Uuid × Uuid := (l.groupId, l.corpId)

def Ambassador.key (a : Ambassador) : Uuid × Uuid := (a.corpId, a.characterId)

def CorpLink.active (l : CorpLink) : Bool := l.unlinkedAt.isNone

/-- The pollers skip a disabled ambassador. -/
def Ambassador.enabled (a : Ambassador) : Bool := a.disabledAt.isNone

/-- `CurrentGroup`: the caller's role in the group. -/
def currentGroup (r : Registry) (userId groupId : Uuid) : Except ApiError GroupRole :=
  fetch (.forbidden "you are not a member of this group")
    ((r.groupMemberships.find? fun m => m.userId = userId ∧ m.groupId = groupId).map (·.role))

/-- `app.is_group_member`: what the policies of `group_corps` ask of the caller. -/
def isGroupMember (r : Registry) (userId groupId : Uuid) : Bool :=
  r.groupMemberships.any fun m => decide (m.userId = userId) && decide (m.groupId = groupId)

/-- `app.is_corp_member`: some group of the caller has an active link to the corp. The policy of
`corp_ambassadors` asks it of every row that a statement of the api touches. -/
def isCorpMember (r : Registry) (userId corpId : Uuid) : Bool :=
  r.groupCorps.any fun l =>
    decide (l.corpId = corpId) && l.active && isGroupMember r userId l.groupId

/-- `SELECT EXISTS(… group_corps … AND unlinked_at IS NULL)`. -/
def linked (r : Registry) (groupId corpId : Uuid) : Bool :=
  r.groupCorps.any fun l => l.groupId = groupId ∧ l.corpId = corpId ∧ l.active

def requireCorpInGroup (r : Registry) (groupId corpId : Uuid) : Except ApiError Unit :=
  require (linked r groupId corpId) .missing

/-- `SELECT id, scopes FROM characters WHERE character_id = $1 AND user_id = $2`. -/
def ownCharacter (r : Registry) (characterId : Int) (userId : Uuid) :
    Except ApiError CharacterRow :=
  fetch (.badRequest "character not found or not yours")
    (r.characters.find? fun c => c.characterId = characterId ∧ c.userId = userId)

structure Affiliation where
  characterId : Int
  corporationId : Int
  deriving DecidableEq

structure CorpInfo where
  name : String
  ticker : String
  deriving DecidableEq

/-- What EVE's API answers while a corp is being linked; every call may fail. -/
structure Esi where
  authedClient : Except String Unit
  characterAffiliation : Except String (List Affiliation)
  getCorporation : Int → Except String CorpInfo

/-- The corporation the character is in, with its public name. -/
def lookUpCorporation (esi : Esi) (characterId : Int) : Except ApiError (Int × CorpInfo) := do
  esi.authedClient.mapError .internal
  let affiliations ← esi.characterAffiliation.mapError .internal
  let affiliation ← fetch (.internal "affiliation not found")
    (affiliations.find? fun a => a.characterId = characterId)
  let info ← (esi.getCorporation affiliation.corporationId).mapError .internal
  .ok (affiliation.corporationId, info)

/-- `INSERT INTO corps … ON CONFLICT (esi_corporation_id) DO UPDATE … RETURNING id`. -/
def upsertCorp (r : Registry) (esiCorporationId : Int) (info : CorpInfo) (newId : Uuid) :
    Except ApiError (Uuid × Registry) :=
  match lookup Corp.esiCorporationId esiCorporationId r.corps with
  | some corp => .ok (corp.id, { r with
      corps := updateWhere (fun c => c.esiCorporationId = esiCorporationId)
        (fun c => { c with name := info.name, ticker := info.ticker, disabledAt := none }) r.corps })
  | none => do
    require (lookup Corp.id newId r.corps = none) DbError.duplicateKey.toApi
    .ok (newId, { r with corps := r.corps ++ [⟨newId, esiCorporationId, info.name, info.ticker, none⟩] })

/-- `INSERT INTO principals … ON CONFLICT DO NOTHING`. -/
def upsertCorpPrincipal (r : Registry) (corpId newId : Uuid) : Registry :=
  if lookup Principal.owner (.corp corpId) r.principals = none ∧
      lookup Principal.id newId r.principals = none then
    { r with principals := r.principals ++ [⟨newId, .corp corpId⟩] }
  else r

/-- `INSERT INTO group_corps … ON CONFLICT DO UPDATE`: a relink clears `unlinked_at`. -/
def upsertLink (r : Registry) (groupId corpId userId : Uuid) (now : Timestamp) :
    Except ApiError Registry :=
  match lookup CorpLink.key (groupId, corpId) r.groupCorps with
  | some _ => .ok { r with
      groupCorps := updateWhere (fun l => l.key = (groupId, corpId))
        (fun l => { l with
          unlinkedAt := none
          linkedAt := if l.unlinkedAt.isSome then now else l.linkedAt
          linkedByUserId := userId }) r.groupCorps }
  | none => do
    require (groupId ∈ r.groups) (.internal "violates foreign key constraint")
    .ok { r with groupCorps := r.groupCorps ++ [⟨groupId, corpId, now, userId, none⟩] }

/-- `INSERT INTO corp_ambassadors … ON CONFLICT DO UPDATE`; `via` says what becomes of
`contributed_via_group_id` from what the row had. -/
def upsertAmbassador (r : Registry) (corpId characterId : Uuid) (scopes : List String)
    (via : Option Uuid → Option Uuid) : Registry :=
  match lookup Ambassador.key (corpId, characterId) r.corpAmbassadors with
  | some _ => { r with
      corpAmbassadors := updateWhere (fun a => a.key = (corpId, characterId))
        (fun a => { a with
          grantedScopes := scopes
          contributedViaGroupId := via a.contributedViaGroupId
          disabledAt := none
          lastAuthErrorAt := none }) r.corpAmbassadors }
  | none => { r with
      corpAmbassadors := r.corpAmbassadors ++ [⟨corpId, characterId, scopes, none, none, via none⟩] }

/-- Returns the linked corp. The ambassador upsert has no `contributed_via_group_id`
column, so a new row gets NULL and an old row keeps its group. -/
def linkCorp (r : Registry) (userId groupId : Uuid) (characterId : Int) (esi : Esi)
    (newCorpId newPrincipalId : Uuid) (now : Timestamp) : Except ApiError (Uuid × Registry) := do
  let role ← currentGroup r userId groupId
  require (role = .owner) .noAccess
  let character ← ownCharacter r characterId userId
  let (esiCorporationId, info) ← lookUpCorporation esi characterId
  let (corpId, r) ← upsertCorp r esiCorporationId info newCorpId
  let r := upsertCorpPrincipal r corpId newPrincipalId
  let r ← upsertLink r groupId corpId userId now
  let r := upsertAmbassador r corpId character.id character.scopes id
  require (linked r groupId corpId) (.internal "corp not found after link")
  .ok (corpId, r)

def addAmbassador (r : Registry) (userId groupId corpId : Uuid) (characterId : Int) :
    Except ApiError Registry := do
  let role ← currentGroup r userId groupId
  require (role = .owner) .noAccess
  requireCorpInGroup r groupId corpId
  let character ← ownCharacter r characterId userId
  .ok (upsertAmbassador r corpId character.id character.scopes fun _ => some groupId)

/-- Disables every ambassador that `p` selects, that is still enabled and that the caller sees. -/
def disableAmbassadors (r : Registry) (userId : Uuid) (p : Ambassador → Bool) (now : Timestamp) :
    Registry :=
  { r with
    corpAmbassadors := updateWhere (fun a => p a && a.enabled && isCorpMember r userId a.corpId)
      (fun a => { a with disabledAt := some now }) r.corpAmbassadors }

def removeAmbassador (r : Registry) (userId groupId corpId characterId : Uuid) (now : Timestamp) :
    Except ApiError Registry := do
  let role ← currentGroup r userId groupId
  require (role = .owner) .noAccess
  requireCorpInGroup r groupId corpId
  .ok (disableAmbassadors r userId (fun a => a.key = (corpId, characterId)) now)

/-- `UPDATE group_corps SET unlinked_at = now() … AND unlinked_at IS NULL`. -/
def endLink (r : Registry) (groupId corpId : Uuid) (now : Timestamp) : Registry :=
  { r with
    groupCorps := updateWhere (fun l => l.key = (groupId, corpId) && l.active)
      (fun l => { l with unlinkedAt := some now }) r.groupCorps }

/-- The last lines of `unlink_corp`: the count sees the links of the caller's groups only, and
where there is none the corp is disabled. -/
def disableUnlinkedCorp (r : Registry) (userId corpId : Uuid) (now : Timestamp) : Registry :=
  let otherLinks := (r.groupCorps.filter fun l =>
    decide (l.corpId = corpId) && l.active && isGroupMember r userId l.groupId).length
  if otherLinks = 0 then
    { r with
      corps := updateWhere (fun c => c.id = corpId)
        (fun c => { c with disabledAt := some now }) r.corps }
  else r

def unlinkCorp (r : Registry) (userId groupId corpId : Uuid) (now : Timestamp) :
    Except ApiError Registry := do
  let role ← currentGroup r userId groupId
  require (role = .owner) .noAccess
  requireCorpInGroup r groupId corpId
  let r := endLink r groupId corpId now
  let r := disableAmbassadors r userId
    (fun a => a.corpId = corpId && a.contributedViaGroupId = some groupId) now
  .ok (disableUnlinkedCorp r userId corpId now)

/-- `DELETE FROM groups`: memberships and links cascade, the ambassadors' group is set NULL. -/
def deleteGroup (r : Registry) (userId groupId : Uuid) : Except ApiError Registry := do
  let role ← currentGroup r userId groupId
  require (role = .owner) (.forbidden "owner role required")
  require (groupId ∈ r.groups) (.notFound "group not found")
  .ok { r with
    groups := r.groups.filter (· ≠ groupId)
    groupMemberships := r.groupMemberships.filter (·.groupId ≠ groupId)
    groupCorps := r.groupCorps.filter (·.groupId ≠ groupId)
    corpAmbassadors := updateWhere (fun a => a.contributedViaGroupId = some groupId)
      (fun a => { a with contributedViaGroupId := none }) r.corpAmbassadors }

end JitaCart.Api.Corps
