/- module: JitaCart/Worker/Principals
   source: backend/crates/worker/src/jobs/contracts_common.rs (build_principal_index,
     find_user_for_principal), backend/crates/domain/src/principals.rs
   digest: Issuers and assignees of contracts, looked up in an index over one batch of ids. -/

import JitaCart.Api.Corps
import JitaCart.Base.Mapping
import JitaCart.Base.Select

/-!
The queries and the iteration over a hash map have no order, so each brings one.
-/

set_option autoImplicit false
set_option relaxedAutoImplicit false

namespace JitaCart.Worker.Principals

open Schema Base.Table Base.Mapping Base.Select Api.Corps

def Principal.userId? (p : Principal) : Option Uuid :=
  match p.owner with
  | .user userId => some userId
  | .corp _ => none

def Principal.corpId? (p : Principal) : Option Uuid :=
  match p.owner with
  | .user _ => none
  | .corp corpId => some corpId

/-- One half of the index: `user_by_character_id` and `principal_by_user_id`, or `corp_by_esi_id`
and `principal_by_corp_id`. -/
structure Half where
  byEveId : HashMap Int Uuid := []
  principalByOwner : HashMap Uuid Principal := []

/-- `add_user`, or `add_corp`. -/
def Half.add (h : Half) (eveId : Int) (ownerId : Uuid) (p : Principal) : Half :=
  ⟨insert h.byEveId (eveId, ownerId), insert h.principalByOwner (ownerId, p)⟩

structure PrincipalIndex where
  users : Half := {}
  corps : Half := {}

/-- The rows of a query without `ORDER BY`. -/
abbrev Unordered (α : Type) := OrderBy fun _ _ : α => True

/-- The orders in which the four queries answer. -/
structure Scans where
  characters : Unordered (Int × Uuid)
  userPrincipals : Unordered (Uuid × Uuid)
  corps : Unordered (Int × Uuid)
  corpPrincipals : Unordered (Uuid × Uuid)

/-- `SELECT id, … FROM principals WHERE kind = … AND … = ANY($1)`, and no query for no ids. -/
def principalsOf (column : Principal → Option Uuid) (scan : Unordered (Uuid × Uuid))
    (principals : List Principal) (ownerIds : List Uuid) : List (Uuid × Uuid) :=
  if ownerIds = [] then []
  else scan.sort (principals.filterMap fun p =>
    (column p).bind fun ownerId => if ownerId ∈ ownerIds then some (p.id, ownerId) else none)

/-- The loop over the rows of a half; `owner` makes the principal that is added. -/
def addRows (owner : Uuid → PrincipalOwner) (principalByOwner : HashMap Uuid Uuid) (h : Half)
    (rows : List (Int × Uuid)) : Half :=
  rows.foldl (fun h row => (valueAt row.2 principalByOwner).elim h fun id =>
    h.add row.1 row.2 ⟨id, owner row.2⟩) h

def buildHalf (column : Principal → Option Uuid) (owner : Uuid → PrincipalOwner)
    (scan : Unordered (Int × Uuid)) (scanPrincipals : Unordered (Uuid × Uuid))
    (tracked : List (Int × Uuid)) (principals : List Principal) (eveIds : List Int) : Half :=
  let rows := scan.sort (tracked.filter fun row => decide (row.1 ∈ eveIds))
  let found := principalsOf column scanPrincipals principals (rows.map (·.2))
  addRows owner (insertAll [] (found.map fun x => (x.2, x.1))) {} rows

/-- `SELECT character_id, user_id FROM characters`. -/
def trackedCharacters (r : Registry) : List (Int × Uuid) :=
  r.characters.map fun c => (c.characterId, c.userId)

/-- `SELECT esi_corporation_id, id FROM corps`. -/
def trackedCorps (r : Registry) : List (Int × Uuid) :=
  r.corps.map fun c => (c.esiCorporationId, c.id)

def buildPrincipalIndex (scans : Scans) (r : Registry) (eveIds : List Int) : PrincipalIndex :=
  if eveIds = [] then {}
  else
    { users := buildHalf Principal.userId? .user scans.characters scans.userPrincipals
        (trackedCharacters r) r.principals eveIds
      corps := buildHalf Principal.corpId? .corp scans.corps scans.corpPrincipals
        (trackedCorps r) r.principals eveIds }

def findUserForPrincipal (values : Unordered Principal) (idx : PrincipalIndex)
    (principalId : Uuid) : Option Uuid :=
  ((values.sort (idx.users.principalByOwner.map (·.2))).find? fun p =>
    decide (p.id = principalId)).bind Principal.userId?

structure EsiContractParties where
  issuerId : Int
  issuerCorporationId : Int
  forCorporation : Bool
  assigneeId : Option Int

structure ResolvedParties where
  issuerPrincipalId : Option Uuid
  assigneePrincipalId : Option Uuid
  assigneeUnknown : Bool
  deriving DecidableEq

/-- The id of the principal behind an EVE id. -/
def Half.principalId (h : Half) (eveId : Int) : Option Uuid :=
  (valueAt eveId h.byEveId).bind fun ownerId => (valueAt ownerId h.principalByOwner).map (·.id)

def resolveContractParties (c : EsiContractParties) (idx : PrincipalIndex) : ResolvedParties :=
  let issuer :=
    if c.forCorporation then idx.corps.principalId c.issuerCorporationId
    else idx.users.principalId c.issuerId
  let assignee : Option Uuid × Bool :=
    match c.assigneeId with
    | none => (none, false)
    | some esiId =>
      if (valueAt esiId idx.corps.byEveId).isSome then
        let id := idx.corps.principalId esiId
        (id, id.isNone)
      else if (valueAt esiId idx.users.byEveId).isSome then
        let id := idx.users.principalId esiId
        (id, id.isNone)
      else (none, true)
  ⟨issuer, assignee.1, assignee.2⟩

/-- The EVE ids of a batch of contracts, in any order and without regard to repetition. -/
def allEveIds (contracts : List EsiContractParties) : List Int :=
  contracts.flatMap fun c => c.issuerId :: c.assigneeId.toList ++ [c.issuerCorporationId]

/-- The principal of the user of a tracked character. -/
def userPrincipal (r : Registry) (characterId : Int) : Option Principal :=
  (lookup CharacterRow.characterId characterId r.characters).bind fun c =>
    lookup Principal.owner (.user c.userId) r.principals

def corpPrincipal (r : Registry) (esiCorporationId : Int) : Option Principal :=
  (lookup Corp.esiCorporationId esiCorporationId r.corps).bind fun c =>
    lookup Principal.owner (.corp c.id) r.principals

def issuerPrincipal (r : Registry) (c : EsiContractParties) : Option Principal :=
  if c.forCorporation then corpPrincipal r c.issuerCorporationId else userPrincipal r c.issuerId

/-- A tracked corp with this id comes first, then a tracked character. -/
def assigneePrincipal (r : Registry) (eveId : Int) : Option Principal :=
  if (lookup Corp.esiCorporationId eveId r.corps).isSome then corpPrincipal r eveId
  else userPrincipal r eveId

/-- An assignee is unknown when it is given and is nobody's principal. -/
def resolveOverDatabase (r : Registry) (c : EsiContractParties) : ResolvedParties :=
  let assignee := c.assigneeId.bind (assigneePrincipal r)
  ⟨(issuerPrincipal r c).map (·.id), assignee.map (·.id), c.assigneeId.isSome && assignee.isNone⟩

/-- The unique columns, and a principal for every user with a character and for every corp. -/
structure Consistent (r : Registry) : Prop where
  characters : Keyed CharacterRow.characterId r.characters
  corps : Keyed Corp.esiCorporationId r.corps
  ids : Keyed Principal.id r.principals
  owners : Keyed Principal.owner r.principals
  users : ∀ c ∈ r.characters, ∃ p ∈ r.principals, p.owner = .user c.userId
  corpOwned : ∀ c ∈ r.corps, ∃ p ∈ r.principals, p.owner = .corp c.id

section Halves
variable {column : Principal → Option Uuid} {owner : Uuid → PrincipalOwner}
  {scan : Unordered (Int × Uuid)} {scanPrincipals : Unordered (Uuid × Uuid)}
  {tracked : List (Int × Uuid)} {principals : List Principal} {eveIds : List Int}

private theorem mem_principalsOf {ownerIds : List Uuid} {id ownerId : Uuid} :
    (id, ownerId) ∈ principalsOf column scanPrincipals principals ownerIds ↔
      ownerId ∈ ownerIds ∧ ∃ p ∈ principals, p.id = id ∧ column p = some ownerId := by
  unfold principalsOf
  split
  · next none => simp [none]
  · rw [(scanPrincipals.perm _).mem_iff, List.mem_filterMap]
    constructor
    · rintro ⟨p, hp, h⟩
      obtain ⟨o, hcolumn, h⟩ := Option.bind_eq_some_iff.mp h
      obtain ⟨hmem, same⟩ := Option.ite_none_right_eq_some.mp h
      obtain ⟨rfl, rfl⟩ := Prod.mk.inj (Option.some.inj same)
      exact ⟨hmem, p, hp, rfl, hcolumn⟩
    · rintro ⟨hmem, p, hp, rfl, hcolumn⟩
      exact ⟨p, hp, by simp [hcolumn, hmem]⟩

/-- When every row has its principal, the loop adds every row, and only principals of the table. -/
private theorem addRows_spec {principalByOwner : HashMap Uuid Uuid} {rows : List (Int × Uuid)}
    (found : ∀ x ∈ rows, ∃ p ∈ principals, p.owner = owner x.2 ∧
      valueAt x.2 principalByOwner = some p.id) (h : Half) :
    (addRows owner principalByOwner h rows).byEveId = insertAll h.byEveId rows ∧
      ∃ added : List (Uuid × Principal),
        (∀ y ∈ added, y.2 ∈ principals ∧ y.2.owner = owner y.1) ∧
        (∀ x ∈ rows, ∃ y ∈ added, y.1 = x.2) ∧
        (addRows owner principalByOwner h rows).principalByOwner =
          insertAll h.principalByOwner added := by
  induction rows generalizing h with
  | nil => exact ⟨rfl, [], by simp, by simp, rfl⟩
  | cons x rows ih =>
    obtain ⟨p, hp, howner, hget⟩ := found x (List.mem_cons_self ..)
    have turn : addRows owner principalByOwner h (x :: rows) =
        addRows owner principalByOwner (h.add x.1 x.2 p) rows := by
      obtain ⟨id, _⟩ := p
      obtain rfl := howner
      rw [addRows, List.foldl_cons, hget]
      rfl
    rw [turn]
    obtain ⟨ids, added, table, covers, all⟩ :=
      ih (fun y hy => found y (List.mem_cons_of_mem _ hy)) (h.add x.1 x.2 p)
    refine ⟨ids, (x.2, p) :: added, fun y hy => ?_, fun y hy => ?_, all⟩
    · rcases List.mem_cons.mp hy with rfl | hy
      · exact ⟨hp, howner⟩
      · exact table y hy
    · rcases List.mem_cons.mp hy with rfl | hy
      · exact ⟨_, List.mem_cons_self .., rfl⟩
      · obtain ⟨z, hz, same⟩ := covers y hy
        exact ⟨z, List.mem_cons_of_mem _ hz, same⟩

/-- The half of an index, as the whole tables have it. -/
structure HalfSpec (owner : Uuid → PrincipalOwner) (tracked : List (Int × Uuid))
    (principals : List Principal) (eveIds : List Int) (h : Half) : Prop where
  ids : ∀ eveId ∈ eveIds, valueAt eveId h.byEveId = valueAt eveId tracked
  principal : ∀ eveId ∈ eveIds, ∀ ownerId, valueAt eveId tracked = some ownerId →
    ∃ p, valueAt ownerId h.principalByOwner = some p ∧
      lookup Principal.owner (owner ownerId) principals = some p
  values : ∀ x ∈ h.principalByOwner, x.2 ∈ principals ∧ x.2.owner = owner x.1

private theorem buildHalf_spec (keyed : Keyed Prod.fst tracked)
    (owners : Keyed Principal.owner principals)
    (columns : ∀ p ownerId, column p = some ownerId ↔ p.owner = owner ownerId)
    (owned : ∀ x ∈ tracked, ∃ p ∈ principals, p.owner = owner x.2) :
    HalfSpec owner tracked principals eveIds
      (buildHalf column owner scan scanPrincipals tracked principals eveIds) := by
  unfold buildHalf
  set rows := scan.sort (tracked.filter fun row => decide (row.1 ∈ eveIds)) with hrows
  set principalByOwner := insertAll [] ((principalsOf column scanPrincipals principals
    (rows.map (·.2))).map fun x => (x.2, x.1)) with hbyOwner
  have mem_rows : ∀ x, x ∈ rows ↔ x ∈ tracked ∧ x.1 ∈ eveIds := by
    intro x
    rw [hrows, (scan.perm _).mem_iff, List.mem_filter, decide_eq_true_eq]
  have unique : ∀ p ∈ principals, ∀ q ∈ principals, p.owner = q.owner → p = q :=
    fun p hp q hq same => owners.eq_of_key hp hq same
  have found : ∀ x ∈ rows, ∃ p ∈ principals, p.owner = owner x.2 ∧
      valueAt x.2 principalByOwner = some p.id := by
    intro x hx
    obtain ⟨p, hp, howner⟩ := owned x ((mem_rows x).mp hx).1
    refine ⟨p, hp, howner, valueAt_insertAll (fun y hy own => ?_) (.inr ?_)⟩
    · obtain ⟨⟨id, ownerId⟩, hfound, rfl⟩ := List.mem_map.mp hy
      obtain ⟨_, q, hq, rfl, hcolumn⟩ := mem_principalsOf.mp hfound
      obtain rfl : ownerId = x.2 := own
      rw [unique q hq p hp (((columns q x.2).mp hcolumn).trans howner.symm)]
    · refine List.mem_map.mpr ⟨(p.id, x.2), mem_principalsOf.mpr ⟨?_, p, hp, rfl, ?_⟩, rfl⟩
      · exact List.mem_map_of_mem hx
      · exact (columns p x.2).mpr howner
  obtain ⟨ids, added, table, covers, all⟩ := addRows_spec found {}
  refine ⟨fun eveId hid => ?_, fun eveId hid ownerId htracked => ?_, fun x hx => ?_⟩
  · rw [ids]
    cases htracked : valueAt eveId tracked with
    | some ownerId =>
      have hmem := mem_of_valueAt htracked
      refine valueAt_insertAll (fun x hx own => ?_) (.inr ((mem_rows _).mpr ⟨hmem, hid⟩))
      rw [keyed.eq_of_key ((mem_rows x).mp hx).1 hmem own]
    | none =>
      cases hget : valueAt eveId (insertAll ([] : HashMap Int Uuid) rows) with
      | none => rfl
      | some ownerId =>
        have hmem := ((mem_rows _).mp ((mem_insertAll (mem_of_valueAt hget)).resolve_left
          List.not_mem_nil)).1
        have listed : (lookup Prod.fst eveId tracked).isSome := lookup_isSome_of_mem hmem
        obtain ⟨y, hy⟩ := Option.isSome_iff_exists.mp listed
        rw [valueAt, hy] at htracked
        cases htracked
  · have hmem := mem_of_valueAt htracked
    obtain ⟨⟨_, p⟩, hp, rfl⟩ := covers _ ((mem_rows _).mpr ⟨hmem, hid⟩)
    obtain ⟨inTable, howner⟩ := table _ hp
    refine ⟨p, ?_, (lookup_eq_some owners).mpr ⟨inTable, howner⟩⟩
    rw [all]
    refine valueAt_insertAll (fun y hy own => ?_) (.inr hp)
    obtain ⟨hy, yowner⟩ := table y hy
    exact unique _ hy _ inTable (yowner.trans (own ▸ howner.symm))
  · rw [all] at hx
    exact table x ((mem_insertAll hx).resolve_left List.not_mem_nil)

variable {h : Half} {eveId : Int}

private theorem HalfSpec.principalId_eq (spec : HalfSpec owner tracked principals eveIds h)
    (hid : eveId ∈ eveIds) :
    h.principalId eveId = ((valueAt eveId tracked).bind fun ownerId =>
      lookup Principal.owner (owner ownerId) principals).map (·.id) := by
  unfold Half.principalId
  rw [spec.ids eveId hid]
  cases htracked : valueAt eveId tracked with
  | none => rfl
  | some ownerId =>
    obtain ⟨p, hvalue, hlookup⟩ := spec.principal eveId hid ownerId htracked
    rw [Option.bind_some, Option.bind_some, hvalue, hlookup]

private theorem HalfSpec.isSome_eq (spec : HalfSpec owner tracked principals eveIds h)
    (hid : eveId ∈ eveIds) :
    (valueAt eveId h.byEveId).isSome = ((valueAt eveId tracked).bind fun ownerId =>
      lookup Principal.owner (owner ownerId) principals).isSome := by
  rw [spec.ids eveId hid]
  cases htracked : valueAt eveId tracked with
  | none => rfl
  | some ownerId =>
    obtain ⟨p, _, hlookup⟩ := spec.principal eveId hid ownerId htracked
    rw [Option.bind_some, hlookup]
    rfl

end Halves

variable {r : Registry} {scans : Scans} {eveIds : List Int}

private theorem userId?_iff (p : Principal) (userId : Uuid) :
    Principal.userId? p = some userId ↔ p.owner = .user userId := by
  unfold Principal.userId?
  cases p.owner <;> simp

private theorem corpId?_iff (p : Principal) (corpId : Uuid) :
    Principal.corpId? p = some corpId ↔ p.owner = .corp corpId := by
  unfold Principal.corpId?
  cases p.owner <;> simp

private theorem valueAt_map {α : Type} {key : α → Int} {id : α → Uuid} {t : List α} (eveId : Int) :
    valueAt eveId (t.map fun a => (key a, id a)) = (lookup key eveId t).map id := by
  have same : ∀ a, ((key a, id a) : Int × Uuid).1 = key a := fun _ => rfl
  rw [valueAt, lookup_map same, Option.map_map]
  rfl

private theorem halfSpec_of_nil {owner : Uuid → PrincipalOwner} {tracked : List (Int × Uuid)}
    {principals : List Principal} : HalfSpec owner tracked principals [] {} :=
  ⟨by simp, by simp, by simp⟩

private theorem keyed_tracked {α : Type} {key : α → Int} {id : α → Uuid} {t : List α}
    (h : Keyed key t) : Keyed Prod.fst (t.map fun a => (key a, id a)) := by
  unfold Keyed at h ⊢
  rw [List.map_map]
  exact h

private theorem users_spec (ok : Consistent r) (scans : Scans) (eveIds : List Int) :
    HalfSpec .user (trackedCharacters r) r.principals eveIds
      (buildPrincipalIndex scans r eveIds).users := by
  unfold buildPrincipalIndex
  split
  · next none =>
    rw [none]
    exact halfSpec_of_nil
  · refine buildHalf_spec (keyed_tracked ok.characters) ok.owners userId?_iff fun x hx => ?_
    obtain ⟨c, hc, rfl⟩ := List.mem_map.mp hx
    exact ok.users c hc

private theorem corps_spec (ok : Consistent r) (scans : Scans) (eveIds : List Int) :
    HalfSpec .corp (trackedCorps r) r.principals eveIds
      (buildPrincipalIndex scans r eveIds).corps := by
  unfold buildPrincipalIndex
  split
  · next none =>
    rw [none]
    exact halfSpec_of_nil
  · refine buildHalf_spec (keyed_tracked ok.corps) ok.owners corpId?_iff fun x hx => ?_
    obtain ⟨c, hc, rfl⟩ := List.mem_map.mp hx
    exact ok.corpOwned c hc

private theorem userPrincipal_eq (eveId : Int) :
    userPrincipal r eveId = (valueAt eveId (trackedCharacters r)).bind fun userId =>
      lookup Principal.owner (.user userId) r.principals := by
  rw [trackedCharacters, valueAt_map]
  unfold userPrincipal
  cases lookup CharacterRow.characterId eveId r.characters <;> rfl

private theorem corpPrincipal_eq (eveId : Int) :
    corpPrincipal r eveId = (valueAt eveId (trackedCorps r)).bind fun corpId =>
      lookup Principal.owner (.corp corpId) r.principals := by
  rw [trackedCorps, valueAt_map]
  unfold corpPrincipal
  cases lookup Corp.esiCorporationId eveId r.corps <;> rfl

/-- Over any batch that has the ids of a contract, its parties are those of the whole database. -/
private theorem resolveContractParties_eq (ok : Consistent r) {c : EsiContractParties}
    (issuer : c.issuerId ∈ eveIds) (issuerCorporation : c.issuerCorporationId ∈ eveIds)
    (assignee : ∀ eveId ∈ c.assigneeId, eveId ∈ eveIds) :
    resolveContractParties c (buildPrincipalIndex scans r eveIds) = resolveOverDatabase r c := by
  have users := users_spec ok scans eveIds
  have corps := corps_spec ok scans eveIds
  have user (eveId : Int) (h : eveId ∈ eveIds) :=
    (users.principalId_eq h).trans (congrArg _ (userPrincipal_eq eveId).symm)
  have corp (eveId : Int) (h : eveId ∈ eveIds) :=
    (corps.principalId_eq h).trans (congrArg _ (corpPrincipal_eq eveId).symm)
  have hissuer : (if c.forCorporation then
      (buildPrincipalIndex scans r eveIds).corps.principalId c.issuerCorporationId
      else (buildPrincipalIndex scans r eveIds).users.principalId c.issuerId) =
      (issuerPrincipal r c).map (·.id) := by
    unfold issuerPrincipal
    cases c.forCorporation with
    | true => exact corp _ issuerCorporation
    | false => exact user _ issuer
  unfold resolveContractParties resolveOverDatabase
  rw [hissuer]
  cases hassignee : c.assigneeId with
  | none => rfl
  | some eveId =>
    have hid := assignee eveId hassignee
    have userKnown := users.isSome_eq hid
    rw [← userPrincipal_eq] at userKnown
    have corpKnown : (valueAt eveId (buildPrincipalIndex scans r eveIds).corps.byEveId).isSome =
        (lookup Corp.esiCorporationId eveId r.corps).isSome := by
      rw [corps.ids eveId hid, trackedCorps, valueAt_map, Option.isSome_map]
    simp only [corpKnown, userKnown, user eveId hid, corp eveId hid, Option.bind_some,
      assigneePrincipal]
    cases (lookup Corp.esiCorporationId eveId r.corps).isSome with
    | true => simp
    | false => cases userPrincipal r eveId <;> simp

private theorem find_user_principal (ok : Consistent r) {values : Unordered Principal}
    {p : Principal} (hp : p ∈ r.principals) (scans : Scans) (eveIds : List Int) :
    ∀ q ∈ (values.sort ((buildPrincipalIndex scans r eveIds).users.principalByOwner.map
      (·.2))), q.id = p.id → q = p ∧ ∃ userId, p.owner = .user userId := by
  intro q hq same
  obtain ⟨x, hx, rfl⟩ := List.mem_map.mp ((values.perm _).mem_iff.mp hq)
  obtain ⟨table, howner⟩ := (users_spec ok scans eveIds).values x hx
  obtain rfl := ok.ids.eq_of_key table hp same
  exact ⟨rfl, x.1, howner⟩

private theorem findUserForPrincipal_of_corp (ok : Consistent r) {values : Unordered Principal}
    {p : Principal} (hp : p ∈ r.principals) {corpId : Uuid} (howner : p.owner = .corp corpId) :
    findUserForPrincipal values (buildPrincipalIndex scans r eveIds) p.id = none := by
  have missing : (values.sort ((buildPrincipalIndex scans r eveIds).users.principalByOwner.map
      (·.2))).find? (fun q => decide (q.id = p.id)) = none := by
    refine List.find?_eq_none.mpr fun q hq same => ?_
    obtain ⟨_, userId, huser⟩ := find_user_principal ok hp scans eveIds q hq (of_decide_eq_true same)
    rw [howner] at huser
    cases huser
  rw [findUserForPrincipal, missing]
  rfl

private theorem findUserForPrincipal_of_user (ok : Consistent r) {values : Unordered Principal}
    {p : Principal} {eveId : Int} (hid : eveId ∈ eveIds) (hp : userPrincipal r eveId = some p) :
    findUserForPrincipal values (buildPrincipalIndex scans r eveIds) p.id =
      Principal.userId? p := by
  rw [userPrincipal_eq] at hp
  obtain ⟨userId, htracked, hlookup⟩ := Option.bind_eq_some_iff.mp hp
  obtain ⟨q, hvalue, hq⟩ := (users_spec ok scans eveIds).principal eveId hid userId htracked
  obtain rfl : q = p := Option.some.inj (hq.symm.trans hlookup)
  have present : q ∈ values.sort
      ((buildPrincipalIndex scans r eveIds).users.principalByOwner.map (·.2)) :=
    (values.perm _).mem_iff.mpr (List.mem_map.mpr ⟨_, mem_of_valueAt hvalue, rfl⟩)
  have found : (values.sort ((buildPrincipalIndex scans r eveIds).users.principalByOwner.map
      (·.2))).find? (fun p => decide (p.id = q.id)) = some q := by
    obtain ⟨p, hfind⟩ := Option.isSome_iff_exists.mp (List.find?_isSome.mpr
      (⟨q, present, by simp⟩ : ∃ x ∈ _, (fun p => decide (p.id = q.id)) x = true))
    rw [hfind, (find_user_principal ok (lookup_mem hlookup).1 scans eveIds p
      (List.mem_of_find?_eq_some hfind) (by simpa using List.find?_some hfind)).1]
  rw [findUserForPrincipal, found]
  rfl

private theorem resolved_cases (ok : Consistent r) {c : EsiContractParties} {p : Principal}
    (hp : p ∈ r.principals)
    (resolved : (resolveOverDatabase r c).issuerPrincipalId = some p.id ∨
      (resolveOverDatabase r c).assigneePrincipalId = some p.id) :
    (userPrincipal r c.issuerId = some p ∨ ∃ eveId ∈ c.assigneeId, userPrincipal r eveId = some p) ∨
      ∃ eveId, corpPrincipal r eveId = some p := by
  have same : ∀ {q : Principal}, q ∈ r.principals → q.id = p.id → q = p :=
    fun hq => ok.ids.eq_of_key hq hp
  have ofUser : ∀ {eveId : Int} {q : Principal}, userPrincipal r eveId = some q → q.id = p.id →
      userPrincipal r eveId = some p := by
    intro eveId q hq hid
    obtain ⟨_, _, hlookup⟩ := Option.bind_eq_some_iff.mp hq
    rw [← same (lookup_mem hlookup).1 hid]
    exact hq
  have ofCorp : ∀ {eveId : Int} {q : Principal}, corpPrincipal r eveId = some q → q.id = p.id →
      corpPrincipal r eveId = some p := by
    intro eveId q hq hid
    obtain ⟨_, _, hlookup⟩ := Option.bind_eq_some_iff.mp hq
    rw [← same (lookup_mem hlookup).1 hid]
    exact hq
  rcases resolved with issuer | assignee
  · obtain ⟨q, hq, hid⟩ := Option.map_eq_some_iff.mp issuer
    unfold issuerPrincipal at hq
    split at hq
    · exact .inr ⟨_, ofCorp hq hid⟩
    · exact .inl (.inl (ofUser hq hid))
  · obtain ⟨q, hq, hid⟩ := Option.map_eq_some_iff.mp assignee
    obtain ⟨eveId, hassignee, hq⟩ := Option.bind_eq_some_iff.mp hq
    unfold assigneePrincipal at hq
    split at hq
    · exact .inr ⟨_, ofCorp hq hid⟩
    · exact .inl (.inr ⟨eveId, hassignee, ofUser hq hid⟩)

/-- Resolution does not depend on the batch: over every set of ids that has those of a contract it
is the resolution over the whole database, and a resolved principal leads back to its user exactly
when it is a user's. -/
theorem resolution_independent_of_batch (r : Registry) (ok : Consistent r) (scans : Scans)
    (values : Unordered Principal) (eveIds : List Int) (c : EsiContractParties)
    (issuer : c.issuerId ∈ eveIds) (issuerCorporation : c.issuerCorporationId ∈ eveIds)
    (assignee : ∀ eveId ∈ c.assigneeId, eveId ∈ eveIds) :
    let idx := buildPrincipalIndex scans r eveIds
    let parties := resolveContractParties c idx
    parties = resolveOverDatabase r c ∧
      ∀ p ∈ r.principals,
        parties.issuerPrincipalId = some p.id ∨ parties.assigneePrincipalId = some p.id →
        (∀ userId, findUserForPrincipal values idx p.id = some userId ↔ p.owner = .user userId) ∧
        ((∃ corpId, p.owner = .corp corpId) → findUserForPrincipal values idx p.id = none) := by
  intro idx parties
  have whole : parties = resolveOverDatabase r c :=
    resolveContractParties_eq ok issuer issuerCorporation assignee
  refine ⟨whole, fun p hp resolved => ?_⟩
  rw [whole] at resolved
  have exact_ : findUserForPrincipal values idx p.id = Principal.userId? p := by
    rcases resolved_cases ok hp resolved with (user | ⟨eveId, hassignee, user⟩) | ⟨eveId, corp⟩
    · exact findUserForPrincipal_of_user ok issuer user
    · exact findUserForPrincipal_of_user ok (assignee eveId hassignee) user
    · obtain ⟨_, _, hlookup⟩ := Option.bind_eq_some_iff.mp corp
      have howner := (lookup_mem hlookup).2
      rw [findUserForPrincipal_of_corp ok hp howner, Principal.userId?, howner]
  refine ⟨fun userId => ?_, ?_⟩
  · rw [exact_]
    exact userId?_iff p userId
  · rintro ⟨corpId, howner⟩
    exact findUserForPrincipal_of_corp ok hp howner

/-- `poll_one_character` resolves every contract of its batch as over the whole database. -/
private theorem resolve_allEveIds (ok : Consistent r) {contracts : List EsiContractParties}
    {c : EsiContractParties} (hc : c ∈ contracts) :
    resolveContractParties c (buildPrincipalIndex scans r (allEveIds contracts)) =
      resolveOverDatabase r c := by
  have inBatch : ∀ eveId ∈ c.issuerId :: c.assigneeId.toList ++ [c.issuerCorporationId],
      eveId ∈ allEveIds contracts := fun eveId h => List.mem_flatMap.mpr ⟨c, hc, h⟩
  refine resolveContractParties_eq ok (inBatch _ (by simp)) (inBatch _ (by simp)) ?_
  intro eveId h
  exact inBatch _ (by simp [Option.mem_def.mp h])

/-- Two pilots of one user, and a corp whose EVE id is also that of a third pilot. -/
def alliance : Registry where
  characters := [⟨1, 100, 1, []⟩, ⟨2, 200, 1, []⟩, ⟨3, 900, 2, []⟩]
  principals := [⟨11, .user 1⟩, ⟨12, .user 2⟩, ⟨13, .corp 7⟩]
  corps := [⟨7, 900, "corp", "C", none⟩]

def asIs (α : Type) : Unordered α :=
  ⟨id, fun _ => .refl _, fun _ => List.pairwise_of_forall fun _ _ => trivial⟩

theorem resolution_independent_of_batch_alliance :
    resolveContractParties ⟨100, 5, false, some 900⟩ (buildPrincipalIndex
        ⟨asIs _, asIs _, asIs _, asIs _⟩ alliance [200, 900, 5, 100, 42]) =
      resolveOverDatabase alliance ⟨100, 5, false, some 900⟩ :=
  (resolution_independent_of_batch alliance
    ⟨by decide, by decide, by decide, by decide, by decide, by decide⟩
    ⟨asIs _, asIs _, asIs _, asIs _⟩ (asIs _) [200, 900, 5, 100, 42] ⟨100, 5, false, some 900⟩
    (by decide) (by decide) (by simp)).1

end JitaCart.Worker.Principals
