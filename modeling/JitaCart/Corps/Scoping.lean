/- module: JitaCart/Corps/Scoping
   source: backend/crates/api/src/corps.rs, backend/crates/api/src/groups.rs (delete_group)
   digest: Which group lent an enabled ambassador, and when revoking that group revokes it. -/

import JitaCart.Api.Corps

/-!
`corp_ambassadors.contributed_via_group_id` is meant to say through which group a
character was lent to a corp. The history of contributions says it for certain;
`Scoped` compares the enabled ambassadors with that history.
-/

set_option autoImplicit false
set_option relaxedAutoImplicit false

namespace JitaCart.Corps.Scoping

open Schema Base.Table Base.Request Api.Corps

/-- One character lent to a corp through a group. -/
structure Contribution where
  corpId : Uuid
  characterId : Uuid
  groupId : Uuid
  deriving DecidableEq

/-- The tables and everything contributed so far, the latest first. -/
structure World where
  registry : Registry
  contributions : List Contribution := []
  deriving DecidableEq

inductive Call
  | linkCorp (userId groupId : Uuid) (characterId : Int) (esi : Esi)
      (newCorpId newPrincipalId : Uuid) (now : Timestamp)
  | addAmbassador (userId groupId corpId : Uuid) (characterId : Int)
  | removeAmbassador (userId groupId corpId characterId : Uuid) (now : Timestamp)
  | unlinkCorp (userId groupId corpId : Uuid) (now : Timestamp)
  | deleteGroup (userId groupId : Uuid)

/-- One request; linking and adding leave a contribution in the history. -/
def apply : Call → World → Except ApiError World
  | .linkCorp userId groupId characterId esi newCorpId newPrincipalId now, w => do
    let (corpId, r) ←
      linkCorp w.registry userId groupId characterId esi newCorpId newPrincipalId now
    let character ← ownCharacter w.registry characterId userId
    .ok ⟨r, ⟨corpId, character.id, groupId⟩ :: w.contributions⟩
  | .addAmbassador userId groupId corpId characterId, w => do
    let r ← addAmbassador w.registry userId groupId corpId characterId
    let character ← ownCharacter w.registry characterId userId
    .ok ⟨r, ⟨corpId, character.id, groupId⟩ :: w.contributions⟩
  | .removeAmbassador userId groupId corpId characterId now, w => do
    let r ← removeAmbassador w.registry userId groupId corpId characterId now
    .ok { w with registry := r }
  | .unlinkCorp userId groupId corpId now, w => do
    let r ← unlinkCorp w.registry userId groupId corpId now
    .ok { w with registry := r }
  | .deleteGroup userId groupId, w => do
    let r ← deleteGroup w.registry userId groupId
    .ok { w with registry := r }

/-- Groups, members and characters as they happen to be; no corp is linked yet. -/
def start (groups : List Uuid) (members : List GroupMembership)
    (characters : List CharacterRow) : World where
  registry := { groups := groups, groupMemberships := members, characters := characters }

/-- The group through which the character was last lent to the corp. -/
def lastContributor (w : World) (corpId characterId : Uuid) : Option Uuid :=
  (w.contributions.find? fun c => c.corpId = corpId ∧ c.characterId = characterId).map (·.groupId)

/-- Every enabled ambassador was last lent through a group that still exists and links the corp. -/
def Scoped (w : World) : Prop :=
  ∀ a ∈ w.registry.corpAmbassadors, a.enabled = true →
    ∃ g ∈ w.registry.groups, lastContributor w a.corpId a.characterId = some g ∧
      linked w.registry g a.corpId = true

instance (w : World) : Decidable (Scoped w) :=
  inferInstanceAs (Decidable (∀ a ∈ w.registry.corpAmbassadors, a.enabled = true →
    ∃ g ∈ w.registry.groups, lastContributor w a.corpId a.characterId = some g ∧
      linked w.registry g a.corpId = true))

def isOwner (r : Registry) (userId groupId : Uuid) : Prop :=
  currentGroup r userId groupId = .ok .owner

/-- The user is a member of another group that links the corp. -/
def LinkedElsewhere (r : Registry) (userId groupId corpId : Uuid) : Prop :=
  ∃ l ∈ r.groupCorps, l.groupId ≠ groupId ∧ l.corpId = corpId ∧ l.active = true ∧
    isGroupMember r userId l.groupId = true

/-- When an owner unlinks a corp, the enabled ambassadors last lent through the group carry it
in `contributed_via_group_id`, and the owner still sees them through another group; when an owner
deletes a group, nothing enabled was last lent through it. -/
def Recorded (w : World) : Call → Prop
  | .unlinkCorp userId groupId corpId _ =>
    isOwner w.registry userId groupId →
      ∀ a ∈ w.registry.corpAmbassadors, a.enabled = true → a.corpId = corpId →
        lastContributor w a.corpId a.characterId = some groupId →
          a.contributedViaGroupId = some groupId ∧
            LinkedElsewhere w.registry userId groupId corpId
  | .deleteGroup userId groupId =>
    isOwner w.registry userId groupId →
      ∀ a ∈ w.registry.corpAmbassadors, a.enabled = true →
        lastContributor w a.corpId a.characterId ≠ some groupId
  | _ => True

/-- The foreign key of `group_corps`. -/
def LinksExist (w : World) : Prop := ∀ l ∈ w.registry.groupCorps, l.groupId ∈ w.registry.groups

section Statements
variable {r r' : Registry} {g k u c : Uuid} {now : Timestamp}

private theorem linked_iff :
    linked r g k = true ↔ ∃ l ∈ r.groupCorps, l.groupId = g ∧ l.corpId = k ∧ l.active = true := by
  simp [linked]

private theorem linked_congr (h : r'.groupCorps = r.groupCorps) : linked r' g k = linked r g k := by
  unfold linked
  rw [h]

private theorem upsertCorp_ok {e : Int} {info : CorpInfo} {n : Uuid}
    (h : upsertCorp r e info n = .ok (k, r')) :
    r'.groups = r.groups ∧ r'.groupCorps = r.groupCorps ∧
      r'.corpAmbassadors = r.corpAmbassadors := by
  unfold upsertCorp at h
  split at h
  · cases h
    exact ⟨rfl, rfl, rfl⟩
  · obtain ⟨_, _, h⟩ := bind_eq_ok.mp h
    cases h
    exact ⟨rfl, rfl, rfl⟩

private theorem upsertCorpPrincipal_frame (n : Uuid) :
    (upsertCorpPrincipal r k n).groups = r.groups ∧
      (upsertCorpPrincipal r k n).groupCorps = r.groupCorps ∧
      (upsertCorpPrincipal r k n).corpAmbassadors = r.corpAmbassadors := by
  unfold upsertCorpPrincipal
  split <;> exact ⟨rfl, rfl, rfl⟩

/-- The upsert of a link leaves it active, keeps the others and their foreign key. -/
private theorem upsertLink_ok (h : upsertLink r g k u now = .ok r') :
    r'.groups = r.groups ∧ r'.corpAmbassadors = r.corpAmbassadors ∧ linked r' g k = true ∧
      (∀ i j, linked r i j = true → linked r' i j = true) ∧
      ((∀ l ∈ r.groupCorps, l.groupId ∈ r.groups) → ∀ l ∈ r'.groupCorps, l.groupId ∈ r'.groups) := by
  unfold upsertLink at h
  split at h
  · rename_i old hold
    cases h
    obtain ⟨hmem, hkey⟩ := lookup_mem hold
    refine ⟨rfl, rfl, ?_, ?_, ?_⟩
    · refine linked_iff.mpr ⟨_, mem_updateWhere_of_mem hmem, ?_⟩
      obtain ⟨rfl, rfl⟩ : old.groupId = g ∧ old.corpId = k := by
        simpa [CorpLink.key] using hkey
      simp [CorpLink.key, CorpLink.active]
    · intro i j hij
      obtain ⟨l, hl, hi, hj, hactive⟩ := linked_iff.mp hij
      refine linked_iff.mpr ⟨_, mem_updateWhere_of_mem hl, ?_⟩
      split
      · exact ⟨hi, hj, rfl⟩
      · exact ⟨hi, hj, hactive⟩
    · intro exist l hl
      obtain ⟨l₀, hl₀, rfl⟩ := mem_updateWhere.mp hl
      have := exist l₀ hl₀
      split <;> exact this
  · obtain ⟨_, hg, h⟩ := bind_eq_ok.mp h
    cases h
    have hg : g ∈ r.groups := require_eq_ok.mp hg
    refine ⟨rfl, rfl, ?_, ?_, ?_⟩
    · exact linked_iff.mpr ⟨_, List.mem_append_right _ (List.mem_singleton.mpr rfl), rfl, rfl, rfl⟩
    · intro i j hij
      obtain ⟨l, hl, hrest⟩ := linked_iff.mp hij
      exact linked_iff.mpr ⟨l, List.mem_append_left _ hl, hrest⟩
    · intro exist l hl
      rcases List.mem_append.mp hl with hl | hl
      · exact exist l hl
      · rw [List.mem_singleton.mp hl]
        exact hg

private theorem upsertAmbassador_frame (scopes : List String) (via : Option Uuid → Option Uuid) :
    (upsertAmbassador r k c scopes via).groups = r.groups ∧
      (upsertAmbassador r k c scopes via).groupCorps = r.groupCorps := by
  unfold upsertAmbassador
  split <;> exact ⟨rfl, rfl⟩

private theorem mem_upsertAmbassador {scopes : List String} {via : Option Uuid → Option Uuid}
    {a : Ambassador} (h : a ∈ (upsertAmbassador r k c scopes via).corpAmbassadors) :
    a.key = (k, c) ∨ a ∈ r.corpAmbassadors := by
  unfold upsertAmbassador at h
  split at h
  · obtain ⟨a₀, ha₀, rfl⟩ := mem_updateWhere.mp h
    by_cases hk : a₀.key = (k, c)
    · left
      rw [if_pos (by simpa using hk)]
      exact hk
    · right
      rw [if_neg (by simpa using hk)]
      exact ha₀
  · rcases List.mem_append.mp h with h | h
    · exact .inr h
    · rw [List.mem_singleton.mp h]
      exact .inl rfl

private theorem mem_disableAmbassadors {p : Ambassador → Bool} {a : Ambassador}
    (ha : a.enabled = true) :
    a ∈ (disableAmbassadors r u p now).corpAmbassadors ↔
      a ∈ r.corpAmbassadors ∧ ¬ (p a = true ∧ isCorpMember r u a.corpId = true) := by
  constructor
  · intro h
    obtain ⟨a₀, ha₀, rfl⟩ := mem_updateWhere.mp h
    by_cases hp : (p a₀ && a₀.enabled && isCorpMember r u a₀.corpId) = true
    · rw [if_pos hp] at ha
      cases ha
    · rw [if_neg hp] at ha ⊢
      refine ⟨ha₀, ?_⟩
      simpa [ha] using hp
  · rintro ⟨hmem, hp⟩
    refine mem_updateWhere.mpr ⟨a, hmem, if_neg ?_⟩
    simpa [ha] using hp

end Statements

/-- What linking a corp and adding an ambassador have in common. -/
structure Lends (w w' : World) (g k c : Uuid) : Prop where
  groups : w'.registry.groups = w.registry.groups
  contributions : w'.contributions = ⟨k, c, g⟩ :: w.contributions
  others : ∀ a ∈ w'.registry.corpAmbassadors, a.key = (k, c) ∨ a ∈ w.registry.corpAmbassadors
  active : linked w'.registry g k = true
  keeps : ∀ i j, linked w.registry i j = true → linked w'.registry i j = true
  exist : LinksExist w → LinksExist w'

section Requests
variable {w w' : World} {g k u c : Uuid} {now : Timestamp}

private theorem linkCorp_lends {ch : Int} {esi : Esi} {n p : Uuid}
    (h : apply (.linkCorp u g ch esi n p now) w = .ok w') : ∃ k c, Lends w w' g k c := by
  obtain ⟨⟨k, r⟩, hlink, h⟩ := bind_eq_ok.mp h
  obtain ⟨character, hch, h⟩ := bind_eq_ok.mp h
  cases h
  refine ⟨k, character.id, ?_⟩
  unfold linkCorp at hlink
  obtain ⟨_, _, hlink⟩ := bind_eq_ok.mp hlink
  obtain ⟨_, _, hlink⟩ := bind_eq_ok.mp hlink
  obtain ⟨character', hch', hlink⟩ := bind_eq_ok.mp hlink
  obtain rfl : character = character' := by
    rw [hch] at hch'
    exact Except.ok.inj hch'
  obtain ⟨⟨e, info⟩, _, hlink⟩ := bind_eq_ok.mp hlink
  obtain ⟨⟨k', r₁⟩, hcorp, hlink⟩ := bind_eq_ok.mp hlink
  obtain ⟨r₂, hups, hlink⟩ := bind_eq_ok.mp hlink
  obtain ⟨_, hfound, hlink⟩ := bind_eq_ok.mp hlink
  cases hlink
  obtain ⟨groups₁, links₁, ambs₁⟩ := upsertCorp_ok hcorp
  obtain ⟨groupsP, linksP, ambsP⟩ := upsertCorpPrincipal_frame (r := r₁) (k := k) p
  obtain ⟨groups₂, ambs₂, _, keeps, exist⟩ := upsertLink_ok hups
  obtain ⟨groups₃, links₃⟩ := upsertAmbassador_frame (r := r₂) (k := k) (c := character.id)
    character.scopes id
  constructor
  case groups => exact groups₃.trans (groups₂.trans (groupsP.trans groups₁))
  case contributions => rfl
  case others =>
    intro a ha
    rcases mem_upsertAmbassador ha with hkey | ha
    · exact .inl hkey
    · right
      rw [ambs₂, ambsP, ambs₁] at ha
      exact ha
  case active => exact require_eq_ok.mp hfound
  case keeps =>
    intro i j hij
    rw [linked_congr links₃]
    apply keeps
    rw [linked_congr linksP, linked_congr links₁]
    exact hij
  case exist =>
    intro hw l hl
    rw [links₃] at hl
    rw [groups₃]
    refine exist (fun l₀ hl₀ => ?_) l hl
    rw [linksP, links₁] at hl₀
    rw [groupsP, groups₁]
    exact hw l₀ hl₀

private theorem addAmbassador_lends {ch : Int}
    (h : apply (.addAmbassador u g k ch) w = .ok w') : ∃ c, Lends w w' g k c := by
  obtain ⟨r, hadd, h⟩ := bind_eq_ok.mp h
  obtain ⟨character, hch, h⟩ := bind_eq_ok.mp h
  cases h
  refine ⟨character.id, ?_⟩
  unfold addAmbassador at hadd
  obtain ⟨_, _, hadd⟩ := bind_eq_ok.mp hadd
  obtain ⟨_, _, hadd⟩ := bind_eq_ok.mp hadd
  obtain ⟨_, hlinked, hadd⟩ := bind_eq_ok.mp hadd
  obtain ⟨character', hch', hadd⟩ := bind_eq_ok.mp hadd
  obtain rfl : character = character' := by
    rw [hch] at hch'
    exact Except.ok.inj hch'
  cases hadd
  obtain ⟨groups, links⟩ := upsertAmbassador_frame (r := w.registry) (k := k)
    (c := character.id) character.scopes fun _ => some g
  constructor
  case groups => exact groups
  case contributions => rfl
  case others => exact fun a ha => mem_upsertAmbassador ha
  case active =>
    rw [linked_congr links]
    exact require_eq_ok.mp hlinked
  case keeps =>
    intro i j hij
    rw [linked_congr links]
    exact hij
  case exist =>
    intro hw l hl
    rw [links] at hl
    rw [groups]
    exact hw l hl

private theorem lastContributor_cons {c₀ : Contribution} {r : Registry}
    (other : (k, c) ≠ (c₀.corpId, c₀.characterId)) :
    lastContributor ⟨r, c₀ :: w.contributions⟩ k c = lastContributor w k c := by
  unfold lastContributor
  rw [List.find?_cons_of_neg]
  rintro hmatch
  obtain ⟨rfl, rfl⟩ := of_decide_eq_true hmatch
  exact other rfl

/-- Lending a character through a linked group keeps the ambassadors scoped. -/
private theorem scoped_of_lends (h : Lends w w' g k c) (exist : LinksExist w) (hw : Scoped w) :
    Scoped w' := by
  obtain ⟨r', contributions'⟩ := w'
  obtain rfl : contributions' = ⟨k, c, g⟩ :: w.contributions := h.contributions
  intro a ha enabled
  by_cases hkey : a.key = (k, c)
  · obtain ⟨rfl, rfl⟩ : a.corpId = k ∧ a.characterId = c := by simpa [Ambassador.key] using hkey
    obtain ⟨l, hl, rfl, _⟩ := linked_iff.mp h.active
    refine ⟨l.groupId, h.exist exist l hl, ?_, h.active⟩
    simp [lastContributor]
  · obtain ⟨g', hg', hlast, hlinked⟩ := hw a ((h.others a ha).resolve_left hkey) enabled
    refine ⟨g', h.groups ▸ hg', ?_, h.keeps _ _ hlinked⟩
    rw [lastContributor_cons hkey]
    exact hlast

private theorem removeAmbassador_ok {r : Registry}
    (h : removeAmbassador w.registry u g k c now = .ok r) :
    r = disableAmbassadors w.registry u (fun a => a.key = (k, c)) now := by
  unfold removeAmbassador at h
  obtain ⟨_, _, h⟩ := bind_eq_ok.mp h
  obtain ⟨_, _, h⟩ := bind_eq_ok.mp h
  obtain ⟨_, _, h⟩ := bind_eq_ok.mp h
  exact (Except.ok.inj h).symm

private theorem isOwner_of_role {r : Registry} {role : GroupRole}
    (h : currentGroup r u g = .ok role) (owner : role = .owner) : isOwner r u g := by
  rw [owner] at h
  exact h

/-- Unlinking by an owner: the link ends, and with it the recorded ambassadors that the owner
sees then. -/
private theorem unlinkCorp_ok {r : Registry} (h : unlinkCorp w.registry u g k now = .ok r) :
    isOwner w.registry u g ∧ r.groups = w.registry.groups ∧
      r.groupCorps = (endLink w.registry g k now).groupCorps ∧
      r.corpAmbassadors = (disableAmbassadors (endLink w.registry g k now) u
        (fun a => a.corpId = k && a.contributedViaGroupId = some g) now).corpAmbassadors := by
  unfold unlinkCorp at h
  obtain ⟨role, hrole, h⟩ := bind_eq_ok.mp h
  obtain ⟨_, howner, h⟩ := bind_eq_ok.mp h
  obtain ⟨_, _, h⟩ := bind_eq_ok.mp h
  obtain rfl := Except.ok.inj h
  refine ⟨isOwner_of_role hrole (require_eq_ok.mp howner), ?_⟩
  unfold disableUnlinkedCorp
  dsimp only
  split <;> exact ⟨rfl, rfl, rfl⟩

private theorem isCorpMember_endLink {r : Registry} (t : Timestamp) :
    isCorpMember (endLink r g k t) u k = true ↔ LinkedElsewhere r u g k := by
  simp only [isCorpMember, List.any_eq_true, Bool.and_eq_true, decide_eq_true_eq]
  constructor
  · rintro ⟨l, hl, ⟨hk, hactive⟩, hmember⟩
    obtain ⟨l₀, hl₀, rfl⟩ := mem_updateWhere.mp hl
    by_cases hp : (decide (l₀.key = (g, k)) && l₀.active) = true
    · rw [if_pos hp] at hactive
      cases hactive
    · rw [if_neg hp] at hk hactive hmember
      refine ⟨l₀, hl₀, fun same => hp ?_, hk, hactive, hmember⟩
      simp [CorpLink.key, same, hk, hactive]
  · rintro ⟨l, hl, hne, hk, hactive, hmember⟩
    have kept : ¬ (decide (l.key = (g, k)) && l.active) = true := by
      simp [CorpLink.key, hne]
    refine ⟨l, mem_updateWhere.mpr ⟨l, hl, ?_⟩, ⟨hk, hactive⟩, hmember⟩
    rw [if_neg kept]

private theorem linked_endLink {r : Registry} (i j : Uuid) :
    linked (endLink r g k now) i j = true ↔ linked r i j = true ∧ (i, j) ≠ (g, k) := by
  rw [linked_iff, linked_iff]
  constructor
  · rintro ⟨l, hl, rfl, rfl, hactive⟩
    obtain ⟨l₀, hl₀, rfl⟩ := mem_updateWhere.mp hl
    by_cases hp : (decide (l₀.key = (g, k)) && l₀.active) = true
    · rw [if_pos hp] at hactive
      cases hactive
    · rw [if_neg hp] at hactive ⊢
      refine ⟨⟨l₀, hl₀, rfl, rfl, hactive⟩, ?_⟩
      simpa [hactive, CorpLink.key] using hp
  · rintro ⟨⟨l, hl, rfl, rfl, hactive⟩, hne⟩
    refine ⟨l, mem_updateWhere.mpr ⟨l, hl, ?_⟩, rfl, rfl, hactive⟩
    rw [if_neg]
    intro hp
    exact hne (by simpa [CorpLink.key] using (Bool.and_eq_true_iff.mp hp).1)

private theorem deleteGroup_ok {r : Registry} (h : deleteGroup w.registry u g = .ok r) :
    isOwner w.registry u g ∧ r.groups = w.registry.groups.filter (· ≠ g) ∧
      r.groupCorps = w.registry.groupCorps.filter (·.groupId ≠ g) ∧
      r.corpAmbassadors = updateWhere (fun a => a.contributedViaGroupId = some g)
        (fun a => { a with contributedViaGroupId := none }) w.registry.corpAmbassadors := by
  unfold deleteGroup at h
  obtain ⟨role, hrole, h⟩ := bind_eq_ok.mp h
  obtain ⟨_, howner, h⟩ := bind_eq_ok.mp h
  obtain ⟨_, _, h⟩ := bind_eq_ok.mp h
  cases h
  exact ⟨isOwner_of_role hrole (require_eq_ok.mp howner), rfl, rfl, rfl⟩

private theorem linked_deleteGroup {r r' : Registry}
    (h : r'.groupCorps = r.groupCorps.filter (·.groupId ≠ g)) (i j : Uuid) :
    linked r' i j = true ↔ linked r i j = true ∧ i ≠ g := by
  rw [linked_iff, linked_iff, h]
  constructor
  · rintro ⟨l, hl, rfl, rfl, hactive⟩
    obtain ⟨hl, hne⟩ := List.mem_filter.mp hl
    exact ⟨⟨l, hl, rfl, rfl, hactive⟩, by simpa using hne⟩
  · rintro ⟨⟨l, hl, rfl, rfl, hactive⟩, hne⟩
    exact ⟨l, List.mem_filter.mpr ⟨hl, by simpa using hne⟩, rfl, rfl, hactive⟩

private theorem linksExist_step {call : Call} (hw : LinksExist w) (h : apply call w = .ok w') :
    LinksExist w' := by
  cases call with
  | linkCorp u g ch esi n p now =>
    obtain ⟨k, c, lends⟩ := linkCorp_lends h
    exact lends.exist hw
  | addAmbassador u g k ch =>
    obtain ⟨c, lends⟩ := addAmbassador_lends h
    exact lends.exist hw
  | removeAmbassador u g k c now =>
    obtain ⟨r, hr, h⟩ := bind_eq_ok.mp h
    cases h
    obtain rfl := removeAmbassador_ok hr
    exact hw
  | unlinkCorp u g k now =>
    obtain ⟨r, hr, h⟩ := bind_eq_ok.mp h
    cases h
    obtain ⟨_, groups, links, _⟩ := unlinkCorp_ok hr
    intro l hl
    simp only [links, endLink] at hl
    obtain ⟨l₀, hl₀, rfl⟩ := mem_updateWhere.mp hl
    have : l₀.groupId ∈ r.groups := groups ▸ hw l₀ hl₀
    split <;> exact this
  | deleteGroup u g =>
    obtain ⟨r, hr, h⟩ := bind_eq_ok.mp h
    cases h
    obtain ⟨_, groups, links, _⟩ := deleteGroup_ok hr
    intro l hl
    simp only [links] at hl
    obtain ⟨hl, hne⟩ := List.mem_filter.mp hl
    simp only [groups]
    exact List.mem_filter.mpr ⟨hw l hl, hne⟩

/-- After an unlink the enabled ambassadors are the old ones that were not recorded or not seen. -/
private theorem scoped_unlinkCorp (hw : Scoped w) (h : apply (.unlinkCorp u g k now) w = .ok w') :
    Scoped w' ↔ Recorded w (.unlinkCorp u g k now) := by
  obtain ⟨r, hr, h⟩ := bind_eq_ok.mp h
  cases h
  obtain ⟨owner, groups, links, ambs⟩ := unlinkCorp_ok hr
  have survives : ∀ a, a.enabled = true → (a ∈ r.corpAmbassadors ↔
      a ∈ w.registry.corpAmbassadors ∧ ¬ (a.corpId = k ∧ a.contributedViaGroupId = some g ∧
        LinkedElsewhere w.registry u g k)) := by
    intro a enabled
    rw [ambs, mem_disableAmbassadors enabled, ← isCorpMember_endLink now]
    refine and_congr_right fun _ => not_congr ⟨?_, ?_⟩
    · rintro ⟨chosen, seen⟩
      obtain ⟨rfl, via⟩ : a.corpId = k ∧ a.contributedViaGroupId = some g := by simpa using chosen
      exact ⟨rfl, via, seen⟩
    · rintro ⟨rfl, via, seen⟩
      exact ⟨by simp [via], seen⟩
  have relinked : ∀ i j, linked r i j = true ↔ linked w.registry i j = true ∧ (i, j) ≠ (g, k) := by
    intro i j
    rw [linked_congr links, linked_endLink]
  constructor
  · intro after _ a ha enabled rfl hlast
    by_contra unrecorded
    obtain ⟨g', _, hlast', hlinked⟩ :=
      after a ((survives a enabled).mpr ⟨ha, fun both => unrecorded both.2⟩) enabled
    obtain rfl : g = g' := Option.some.inj (hlast.symm.trans hlast')
    exact ((relinked g a.corpId).mp hlinked).2 rfl
  · intro recorded a ha enabled
    obtain ⟨hmem, kept⟩ := (survives a enabled).mp ha
    obtain ⟨g', hg', hlast, hlinked⟩ := hw a hmem enabled
    refine ⟨g', groups ▸ hg', hlast, (relinked g' a.corpId).mpr ⟨hlinked, ?_⟩⟩
    intro same
    obtain ⟨rfl, hk⟩ : g' = g ∧ a.corpId = k := by simpa using same
    obtain ⟨via, seen⟩ := recorded owner a hmem enabled hk hlast
    exact kept ⟨hk, via, seen⟩

private theorem scoped_deleteGroup (hw : Scoped w) (h : apply (.deleteGroup u g) w = .ok w') :
    Scoped w' ↔ Recorded w (.deleteGroup u g) := by
  obtain ⟨r, hr, h⟩ := bind_eq_ok.mp h
  cases h
  obtain ⟨owner, groups, links, ambs⟩ := deleteGroup_ok hr
  constructor
  · intro after _ a ha enabled hlast
    have hmem := mem_updateWhere_of_mem (p := fun a => decide (a.contributedViaGroupId = some g))
      (f := fun a => { a with contributedViaGroupId := none }) ha
    rw [← ambs] at hmem
    obtain ⟨g', hg', hlast', _⟩ := after _ hmem (by split <;> exact enabled)
    have same : lastContributor w a.corpId a.characterId = some g' := by
      split at hlast' <;> exact hlast'
    obtain rfl : g = g' := Option.some.inj (hlast.symm.trans same)
    simp only [groups] at hg'
    simpa using (List.mem_filter.mp hg').2
  · intro recorded a ha enabled
    simp only [ambs] at ha
    obtain ⟨a₀, ha₀, rfl⟩ := mem_updateWhere.mp ha
    have enabled₀ : a₀.enabled = true := by split at enabled <;> exact enabled
    obtain ⟨g', hg', hlast, hlinked⟩ := hw a₀ ha₀ enabled₀
    have hne : g' ≠ g := by
      rintro rfl
      exact recorded owner a₀ ha₀ enabled₀ hlast
    have kept : g' ∈ r.groups := by
      rw [groups]
      exact List.mem_filter.mpr ⟨hg', by simpa using hne⟩
    have hlinked' : linked r g' a₀.corpId = true := (linked_deleteGroup links _ _).mpr ⟨hlinked, hne⟩
    refine ⟨g', kept, ?_⟩
    split
    · exact ⟨hlast, hlinked'⟩
    · exact ⟨hlast, hlinked'⟩

private theorem recorded_of_error {call : Call} {e : ApiError} (hw : Scoped w)
    (h : apply call w = .error e) : Recorded w call := by
  cases call with
  | unlinkCorp u g k now =>
    intro owner a ha enabled hk hlast
    obtain ⟨g', _, hlast', hlinked⟩ := hw a ha enabled
    obtain rfl : g = g' := Option.some.inj (hlast.symm.trans hlast')
    obtain rfl := hk
    simp [apply, unlinkCorp, requireCorpInGroup, require, hlinked, show
      currentGroup w.registry u g = .ok .owner from owner, bind, Except.bind] at h
  | deleteGroup u g =>
    intro owner a ha enabled hlast
    obtain ⟨g', hg', hlast', _⟩ := hw a ha enabled
    obtain rfl : g = g' := Option.some.inj (hlast.symm.trans hlast')
    simp [apply, deleteGroup, require, hg', show
      currentGroup w.registry u g = .ok .owner from owner, bind, Except.bind] at h
  | linkCorp | addAmbassador | removeAmbassador => trivial

/-- A request keeps the ambassadors scoped exactly when it meets the condition. -/
private theorem scoped_exec_iff (call : Call) (exist : LinksExist w) (hw : Scoped w) :
    Scoped (exec apply w call) ↔ Recorded w call := by
  cases h : apply call w with
  | error e =>
    rw [exec_of_error h]
    exact ⟨fun _ => recorded_of_error hw h, fun _ => hw⟩
  | ok w' =>
    rw [exec_of_ok h]
    cases call with
    | linkCorp u g ch esi n p now =>
      obtain ⟨k, c, lends⟩ := linkCorp_lends h
      exact ⟨fun _ => trivial, fun _ => scoped_of_lends lends exist hw⟩
    | addAmbassador u g k ch =>
      obtain ⟨c, lends⟩ := addAmbassador_lends h
      exact ⟨fun _ => trivial, fun _ => scoped_of_lends lends exist hw⟩
    | removeAmbassador u g k c now =>
      obtain ⟨r, hr, h⟩ := bind_eq_ok.mp h
      cases h
      obtain rfl := removeAmbassador_ok hr
      refine ⟨fun _ => trivial, fun _ a ha enabled => ?_⟩
      exact hw a ((mem_disableAmbassadors enabled).mp ha).1 enabled
    | unlinkCorp u g k now => exact scoped_unlinkCorp hw h
    | deleteGroup u g => exact scoped_deleteGroup hw h

end Requests

/-- In every state of a run the enabled ambassadors are scoped, exactly when every
unlink finds its ambassadors recorded and no deleted group was the last to lend one. -/
theorem ambassadors_scoped_iff (groups : List Uuid) (members : List GroupMembership)
    (characters : List CharacterRow) (calls : List Call) :
    (∀ before, before <+: calls → Scoped (run apply (start groups members characters) before)) ↔
      Meets apply Recorded (start groups members characters) calls := by
  apply forall_run_iff_meets (J := LinksExist)
  · intro w call w' hw h
    exact linksExist_step hw h
  · intro w call exist hw
    exact scoped_exec_iff call exist hw
  · intro l hl
    cases hl
  · intro a ha
    cases ha

def sampleEsi : Esi where
  authedClient := .ok ()
  characterAffiliation := .ok [⟨90, 98⟩]
  getCorporation _ := .ok ⟨"Haulers", "HAUL"⟩

/-- A group links a corp through its owner's character and unlinks it again: the character
stays an enabled ambassador of a corp that no group links. -/
theorem unlinked_group_keeps_ambassador :
    ¬ Scoped (run apply (start [1] [⟨1, 1, .owner⟩] [⟨5, 90, 1, []⟩])
      [.linkCorp 1 1 90 sampleEsi 7 8 0, .unlinkCorp 1 1 7 1]) := by
  decide +kernel

end JitaCart.Corps.Scoping
