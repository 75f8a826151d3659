/- module: JitaCart/Concurrent/Corps
   source: backend/crates/api/src/corps.rs (link_corp, unlink_corp, require_corp_in_group),
     backend/crates/api/src/groups.rs (delete_group)
   digest: Interleaved links and unlinks of corps and deletions of groups, statement by statement. -/

import JitaCart.Api.Corps
import JitaCart.Base.Identity
import JitaCart.Base.Replay

/-!
The corp row is locked under its EVE id, which an insert waits for too. The
share locks of the foreign keys are left out: without them more interleavings
are possible.
-/

set_option autoImplicit false
set_option relaxedAutoImplicit false

namespace JitaCart.Concurrent.Corps

open Schema Base.Table Base.Request Base.ReadCommitted Api.Corps

/-- Rows, and the keys of unique indexes that an insert waits for. -/
inductive Row
  | group (id : Uuid)
  | membership (key : Uuid × Uuid)
  | corp (esiCorporationId : Int)
  | corpPk (id : Uuid)
  | principal (id : Uuid)
  | link (key : Uuid × Uuid)
  | ambassador (key : Uuid × Uuid)
  deriving DecidableEq

/-- `counting` says that a user is going to count the active links of a corp. -/
inductive Write
  | deleteGroup (groupId : Uuid)
  | dropMembership (m : GroupMembership)
  | putCorp (before : Option Corp) (after : Corp)
  | insertPrincipal (p : Principal)
  | putLink (after : CorpLink)
  | dropLink (l : CorpLink)
  | putAmbassador (after : Ambassador)
  | counting (corpId userId : Uuid)
  deriving DecidableEq

def redo : Write → Registry → Registry
  | .deleteGroup groupId, s => { s with groups := s.groups.filter (· ≠ groupId) }
  | .dropMembership m, s => { s with groupMemberships := s.groupMemberships.filter (· ≠ m) }
  | .putCorp _ after, s => { s with
      corps := replace Corp.esiCorporationId after.esiCorporationId (some after) s.corps }
  | .insertPrincipal p, s => { s with principals := s.principals ++ [p] }
  | .putLink after, s => { s with
      groupCorps := replace CorpLink.key after.key (some after) s.groupCorps }
  | .dropLink l, s => { s with groupCorps := replace CorpLink.key l.key none s.groupCorps }
  | .putAmbassador after, s => { s with
      corpAmbassadors := replace Ambassador.key after.key (some after) s.corpAmbassadors }
  | .counting _ _, s => s

abbrev Program := Prog Registry Write Row

def corpOf (s : Registry) (esiCorporationId : Int) : Option Corp :=
  lookup Corp.esiCorporationId esiCorporationId s.corps

def linkOf (s : Registry) (key : Uuid × Uuid) : Option CorpLink :=
  lookup CorpLink.key key s.groupCorps

/-- The extractor, and the check of the owner's role. -/
def requireOwner (userId groupId : Uuid) (denied : ApiError) : Program Unit := do
  let role ← .select fun s => currentGroup s userId groupId
  .check (require (role = .owner) denied)

/-- What `ON CONFLICT (esi_corporation_id) DO UPDATE … RETURNING id` makes of the current row. -/
def enabledCorp (esiCorporationId : Int) (info : CorpInfo) (newId : Uuid)
    (st : Statement Registry Row) (s : Registry) : Option (List Write × Uuid) :=
  match corpOf s esiCorporationId with
  | some corp => some ([.putCorp (some corp)
      { corp with name := info.name, ticker := info.ticker, disabledAt := none }], corp.id)
  | none =>
    if .corpPk newId ∈ st.planned ∧ lookup Corp.id newId s.corps = none then
      some ([.putCorp none ⟨newId, esiCorporationId, info.name, info.ticker, none⟩], newId)
    else none

def upsertCorp (esiCorporationId : Int) (info : CorpInfo) (newId : Uuid) : Program Uuid :=
  .statement
    (fun s => .corp esiCorporationId ::
      if corpOf s esiCorporationId = none then [.corpPk newId] else [])
    (enabledCorp esiCorporationId info newId)

theorem enabledCorp_eq_some {esiCorporationId : Int} {info : CorpInfo} {newId : Uuid}
    {st : Statement Registry Row} {s : Registry} {ws : List Write} {corpId : Uuid}
    (h : enabledCorp esiCorporationId info newId st s = some (ws, corpId)) :
    ∃ after, ws = [.putCorp (corpOf s esiCorporationId) after] ∧ after.id = corpId ∧
      after.esiCorporationId = esiCorporationId ∧ after.disabledAt = none ∧
      Succeeds Corp.id Corp.esiCorporationId s.corps after ∧
      (corpOf s esiCorporationId = none → .corpPk after.id ∈ st.planned) := by
  unfold enabledCorp at h
  cases hc : corpOf s esiCorporationId with
  | some corp =>
    rw [hc] at h
    simp only [Option.some.injEq, Prod.mk.injEq] at h
    obtain ⟨-, rfl⟩ := lookup_mem hc
    exact ⟨_, h.1.symm, h.2, rfl, rfl, .of_some hc rfl, fun fresh => by simp at fresh⟩
  | none =>
    rw [hc] at h
    simp only [Option.ite_none_right_eq_some, Option.some.injEq, Prod.mk.injEq] at h
    obtain ⟨⟨planned, fresh⟩, rfl, rfl⟩ := h
    exact ⟨_, rfl, rfl, rfl, rfl, .of_none hc fresh, fun _ => planned⟩

def insertPrincipal (id corpId : Uuid) : Program Unit :=
  .statement (fun _ => [.principal id]) fun _ s =>
    if lookup Principal.owner (.corp corpId) s.principals = none ∧
        lookup Principal.id id s.principals = none then
      some ([.insertPrincipal ⟨id, .corp corpId⟩], ())
    else some ([], ())

/-- What `ON CONFLICT (group_id, corp_id) DO UPDATE` makes of the current link. -/
def activeLink (groupId corpId userId : Uuid) (now : Timestamp) (s : Registry) :
    Option (List Write × Unit) :=
  match linkOf s (groupId, corpId) with
  | some l => some ([.putLink { l with
      unlinkedAt := none
      linkedAt := if l.unlinkedAt.isSome then now else l.linkedAt
      linkedByUserId := userId }], ())
  | none =>
    if groupId ∈ s.groups ∧ lookup Corp.id corpId s.corps ≠ none then
      some ([.putLink ⟨groupId, corpId, now, userId, none⟩], ())
    else none

def upsertLink (groupId corpId userId : Uuid) (now : Timestamp) : Program Unit :=
  .statement (fun _ => [.link (groupId, corpId)]) fun _ => activeLink groupId corpId userId now

theorem activeLink_eq_some {groupId corpId userId : Uuid} {now : Timestamp} {s : Registry}
    {ws : List Write} {a : Unit} (h : activeLink groupId corpId userId now s = some (ws, a)) :
    ∃ l : CorpLink, ws = [.putLink l] ∧ l.key = (groupId, corpId) ∧ l.active = true := by
  unfold activeLink at h
  split at h
  · rename_i l hl
    simp only [Option.some.injEq, Prod.mk.injEq] at h
    exact ⟨_, h.1.symm, (lookup_mem hl).2, rfl⟩
  · simp only [Option.ite_none_right_eq_some, Option.some.injEq, Prod.mk.injEq] at h
    obtain ⟨-, rfl, -⟩ := h
    exact ⟨_, rfl, rfl, rfl⟩

/-- `INSERT INTO corp_ambassadors … ON CONFLICT (corp_id, character_id) DO UPDATE`. -/
def upsertAmbassador (corpId : Uuid) (character : CharacterRow) : Program Unit :=
  .statement (fun _ => [.ambassador (corpId, character.id)]) fun _ s =>
    match lookup Ambassador.key (corpId, character.id) s.corpAmbassadors with
    | some a => some ([.putAmbassador { a with
        grantedScopes := character.scopes
        disabledAt := none
        lastAuthErrorAt := none }], ())
    | none => some ([.putAmbassador ⟨corpId, character.id, character.scopes, none, none, none⟩], ())

/-- The input of `link_corp`, with the answers of EVE and the ids that it draws. -/
structure Linking where
  userId : Uuid
  groupId : Uuid
  characterId : Int
  esi : Esi
  newCorpId : Uuid
  newPrincipalId : Uuid
  now : Timestamp

def linkCorp (k : Linking) : Program Unit := do
  requireOwner k.userId k.groupId .noAccess
  let character ← .select fun s => ownCharacter s k.characterId k.userId
  let (esiCorporationId, info) ← .check (lookUpCorporation k.esi k.characterId)
  let corpId ← upsertCorp esiCorporationId info k.newCorpId
  insertPrincipal k.newPrincipalId corpId
  upsertLink k.groupId corpId k.userId k.now
  upsertAmbassador corpId character
  .select fun s => require (linked s k.groupId corpId)
    (ApiError.internal "corp not found after link")

/-- `UPDATE group_corps SET unlinked_at = now() … AND unlinked_at IS NULL`. -/
def endLink (groupId corpId : Uuid) (now : Timestamp) : Program Unit :=
  .statement
    (fun s => (((linkOf s (groupId, corpId)).filter (·.active)).map fun l => .link l.key).toList)
    fun st s =>
      let found := (linkOf s (groupId, corpId)).filter fun l =>
        l.active && decide (.link l.key ∈ st.planned)
      some ((found.map fun l => .putLink { l with unlinkedAt := some now }).toList, ())

/-- `UPDATE corp_ambassadors` of the rows that `p` selects, of the corps that `sees` lets through. -/
def updateAmbassadors (sees : Registry → Uuid → Bool) (p : Ambassador → Bool)
    (set : Ambassador → Ambassador) : Program Unit :=
  .statement
    (fun s => (s.corpAmbassadors.filter fun a => p a && sees s a.corpId).map fun a =>
      .ambassador a.key)
    fun st s => some ((s.corpAmbassadors.filter fun a =>
      p a && decide (.ambassador a.key ∈ st.planned)).map fun a => .putAmbassador (set a), ())

/-- `SELECT COUNT(*) FROM group_corps WHERE corp_id = $1 AND unlinked_at IS NULL`, under the policy
that shows a user the links of their own groups. -/
def countLinks (userId corpId : Uuid) : Program Nat := do
  .note (.counting corpId userId)
  .select fun s => (.ok (s.groupCorps.countP fun l =>
    decide (l.corpId = corpId) && l.active && isGroupMember s userId l.groupId) :
      Except ApiError Nat)

/-- `UPDATE corps SET disabled_at = now() WHERE id = $1`. -/
def disableCorp (corpId : Uuid) (now : Timestamp) : Program Unit :=
  .statement
    (fun s => ((lookup Corp.id corpId s.corps).map fun c => .corp c.esiCorporationId).toList)
    fun st s =>
      let found := (lookup Corp.id corpId s.corps).filter fun c =>
        decide (.corp c.esiCorporationId ∈ st.planned)
      some ((found.map fun c => .putCorp (some c) { c with disabledAt := some now }).toList, ())

def unlinkCorp (userId groupId corpId : Uuid) (now : Timestamp) : Program Unit := do
  requireOwner userId groupId .noAccess
  .select fun s => requireCorpInGroup s groupId corpId
  endLink groupId corpId now
  updateAmbassadors (isCorpMember · userId)
    (fun a => decide (a.corpId = corpId) && decide (a.contributedViaGroupId = some groupId) &&
      a.enabled) fun a => { a with disabledAt := some now }
  let otherLinks ← countLinks userId corpId
  if otherLinks = 0 then disableCorp corpId now else pure ()

def dropGroup (groupId : Uuid) : Program Unit :=
  .statement (fun s => if groupId ∈ s.groups then [.group groupId] else []) fun st s =>
    if st.planned = [] ∨ groupId ∉ s.groups then none else some ([.deleteGroup groupId], ())

/-- The memberships go with the group. -/
def dropMemberships (groupId : Uuid) : Program Unit :=
  .statement
    (fun s => (s.groupMemberships.filter fun m => decide (m.groupId = groupId)).map fun m =>
      .membership (m.userId, m.groupId))
    fun st s => some ((s.groupMemberships.filter fun m => decide (m.groupId = groupId) &&
      decide (.membership (m.userId, m.groupId) ∈ st.planned)).map .dropMembership, ())

def dropLinks (groupId : Uuid) : Program Unit :=
  .statement
    (fun s => (s.groupCorps.filter fun l => decide (l.groupId = groupId)).map fun l => .link l.key)
    fun st s => some ((s.groupCorps.filter fun l =>
      decide (l.groupId = groupId) && decide (.link l.key ∈ st.planned)).map .dropLink, ())

/-- Nothing here looks at `corps`. -/
def deleteGroup (userId groupId : Uuid) : Program Unit := do
  requireOwner userId groupId (.forbidden "owner role required")
  dropGroup groupId
  dropMemberships groupId
  dropLinks groupId
  -- The action of a foreign key is not under the policies.
  updateAmbassadors (fun _ _ => true) (fun a => decide (a.contributedViaGroupId = some groupId))
    fun a => { a with contributedViaGroupId := none }

inductive CorpRequest
  | link (k : Linking)
  | unlink (userId groupId corpId : Uuid) (now : Timestamp)
  | deleteGroup (userId groupId : Uuid)

def program : CorpRequest → Program Unit
  | .link k => linkCorp k
  | .unlink userId groupId corpId now => unlinkCorp userId groupId corpId now
  | .deleteGroup userId groupId => deleteGroup userId groupId

def engine : Engine Registry Write Row CorpRequest := ⟨redo, program⟩

end JitaCart.Concurrent.Corps
