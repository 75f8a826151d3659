/- module: JitaCart/Tenancy/Barrier
   source: backend/migrations/20260427000000_init.sql (row-level security)
   digest: What the policies keep apart, whatever statements the api role executes. -/

import JitaCart.Tenancy.RowSecurity

set_option autoImplicit false
set_option relaxedAutoImplicit false

namespace JitaCart.Tenancy.RowSecurity

open Schema Base.Table Base.Request Base.Cascade

variable {V : Type} {db db' : List (Row V)} {user : Option Uuid} {g : Uuid}

def ListIn (db : List (Row V)) (g listId : Uuid) : Prop := ∃ v, .list listId g v ∈ db

def ClaimIn (db : List (Row V)) (g claimId : Uuid) : Prop :=
  ∃ l a v, .claim claimId l a v ∈ db ∧ ListIn db g l

def ItemIn (db : List (Row V)) (g itemId : Uuid) : Prop :=
  ∃ l v, .listItem itemId l v ∈ db ∧ ListIn db g l

def DueIn (db : List (Row V)) (g reimbursementId : Uuid) : Prop :=
  ∃ l v, .reimbursement reimbursementId l v ∈ db ∧ ListIn db g l

/-- The rows of a group: its own, those of its lists, and those of what is on its lists. -/
def Belongs (db : List (Row V)) (g : Uuid) : Row V → Prop
  | .groupMembership _ h _ | .list _ h _ | .groupCorp h _ _ _ | .discordWebhook h _
  | .trackedMarket h _ _ | .pendingWebhook _ h _ => h = g
  | .listItem _ l _ | .listMarket l _ _ | .claim _ l _ _ | .reimbursement _ l _ => ListIn db g l
  | .claimItem c _ _ _ => ClaimIn db g c
  | .fulfillment _ i _ _ => ItemIn db g i
  | .suggestion _ _ r _ => DueIn db g r
  | _ => False

/-- What the rows of the group refer to is of the group. -/
structure Home (db : List (Row V)) (g : Uuid) : Prop where
  items : ∀ c i a v, .claimItem c i a v ∈ db → ClaimIn db g c → ItemIn db g i
  claims : ∀ f i c v, .fulfillment f i (some c) v ∈ db → ItemIn db g i → ClaimIn db g c

theorem isGroupMember_iff : isGroupMember db user g = true ↔
    ∃ u v, some u = user ∧ .groupMembership u g v ∈ db := by
  unfold isGroupMember
  rw [List.any_eq_true]
  constructor
  · rintro ⟨r, hr, h⟩
    cases r with
    | groupMembership u g' v =>
      simp only [Bool.and_eq_true, decide_eq_true_eq] at h
      obtain ⟨own, rfl⟩ := h
      exact ⟨u, v, own, hr⟩
    | _ => cases h
  · rintro ⟨u, v, own, hr⟩
    exact ⟨_, hr, by simp [own]⟩

theorem isListMember_iff {l : Uuid} : isListMember db user l = true ↔
    ∃ h, ListIn db h l ∧ isGroupMember db user h = true := by
  unfold isListMember
  rw [List.any_eq_true]
  constructor
  · rintro ⟨r, hr, h⟩
    cases r with
    | list id g' v =>
      simp only [Bool.and_eq_true, decide_eq_true_eq] at h
      obtain ⟨rfl, member⟩ := h
      exact ⟨g', ⟨v, hr⟩, member⟩
    | _ => cases h
  · rintro ⟨h, ⟨v, hr⟩, member⟩
    exact ⟨_, hr, by simp [member]⟩

theorem permits_claimItem {c i : Uuid} {a : Bool} {v : V} :
    permits db user (.claimItem c i a v) = true ↔
      ∃ h, ClaimIn db h c ∧ isGroupMember db user h = true := by
  unfold permits
  rw [List.any_eq_true]
  constructor
  · rintro ⟨r, hr, h⟩
    cases r with
    | claim id l a v =>
      simp only [Bool.and_eq_true, decide_eq_true_eq] at h
      obtain ⟨rfl, member⟩ := h
      obtain ⟨k, list, member⟩ := isListMember_iff.mp member
      exact ⟨k, ⟨l, a, v, hr, list⟩, member⟩
    | _ => cases h
  · rintro ⟨k, ⟨l, a, v, hr, list⟩, member⟩
    exact ⟨_, hr, by simp [isListMember_iff.mpr ⟨k, list, member⟩]⟩

theorem permits_fulfillment {f i : Uuid} {c : Option Uuid} {v : V} :
    permits db user (.fulfillment f i c v) = true ↔
      ∃ h, ItemIn db h i ∧ isGroupMember db user h = true := by
  unfold permits
  rw [List.any_eq_true]
  constructor
  · rintro ⟨r, hr, h⟩
    cases r with
    | listItem id l v =>
      simp only [Bool.and_eq_true, decide_eq_true_eq] at h
      obtain ⟨rfl, member⟩ := h
      obtain ⟨k, list, member⟩ := isListMember_iff.mp member
      exact ⟨k, ⟨l, v, hr, list⟩, member⟩
    | _ => cases h
  · rintro ⟨k, ⟨l, v, hr, list⟩, member⟩
    exact ⟨_, hr, by simp [isListMember_iff.mpr ⟨k, list, member⟩]⟩

theorem permits_suggestion {s c r : Uuid} {v : V} :
    permits db user (.suggestion s c r v) = true ↔
      ∃ h, DueIn db h r ∧ isGroupMember db user h = true := by
  unfold permits
  rw [List.any_eq_true]
  constructor
  · rintro ⟨x, hx, h⟩
    cases x with
    | reimbursement id l v =>
      simp only [Bool.and_eq_true, decide_eq_true_eq] at h
      obtain ⟨rfl, member⟩ := h
      obtain ⟨k, list, member⟩ := isListMember_iff.mp member
      exact ⟨k, ⟨l, v, hx, list⟩, member⟩
    | _ => cases h
  · rintro ⟨k, ⟨l, v, hx, list⟩, member⟩
    exact ⟨_, hx, by simp [isListMember_iff.mpr ⟨k, list, member⟩]⟩

def ofGroups : Table → Bool
  | .corpAmbassadors | .corpWalletDivisions | .corpWalletJournal | .contracts
  | .contractItems => false
  | _ => true

/-- A row of a group is permitted to the members of the group, and to nobody else; but a
membership is also permitted to the user it is of. -/
private theorem permits_iff {r : Row V} (tenant : ofGroups r.table = true) :
    permits db user r = true ↔ (∃ h, Belongs db h r ∧ isGroupMember db user h = true) ∨
      ∃ u h v, r = .groupMembership u h v ∧ some u = user := by
  cases r with
  | groupMembership u h v =>
    unfold permits Belongs
    simp only [Bool.or_eq_true, decide_eq_true_eq, exists_eq_left', Row.groupMembership.injEq]
    constructor
    · rintro (own | member)
      · exact .inr ⟨u, h, v, ⟨rfl, rfl, rfl⟩, own⟩
      · exact .inl member
    · rintro (member | ⟨u', h', v', ⟨rfl, rfl, rfl⟩, own⟩)
      · exact .inr member
      · exact .inl own
  | claimItem c i a v =>
    rw [permits_claimItem]
    simp [Belongs]
  | fulfillment f i c v =>
    rw [permits_fulfillment]
    simp [Belongs]
  | suggestion s c d v =>
    rw [permits_suggestion]
    simp [Belongs]
  | listItem i l v =>
    unfold permits
    rw [isListMember_iff]
    simp [Belongs]
  | listMarket l m v =>
    unfold permits
    rw [isListMember_iff]
    simp [Belongs]
  | claim c l a v =>
    unfold permits
    rw [isListMember_iff]
    simp [Belongs]
  | reimbursement d l v =>
    unfold permits
    rw [isListMember_iff]
    simp [Belongs]
  | list => simp [permits, Belongs]
  | groupCorp => simp [permits, Belongs]
  | discordWebhook => simp [permits, Belongs]
  | trackedMarket => simp [permits, Belongs]
  | pendingWebhook => simp [permits, Belongs]
  | _ => cases tenant

private theorem listIn_unique (keyed : Keyed Row.key db) {h l : Uuid} (a : ListIn db g l)
    (b : ListIn db h l) : g = h := by
  obtain ⟨v, hv⟩ := a
  obtain ⟨w, hw⟩ := b
  have same := keyed.eq_of_key hv hw rfl
  injection same

private theorem belongs_unique (keyed : Keyed Row.key db) {h : Uuid} {r : Row V}
    (a : Belongs db g r) (b : Belongs db h r) : g = h := by
  cases r with
  | claimItem c =>
    obtain ⟨l, _, v, hv, list⟩ := a
    obtain ⟨m, _, w, hw, list'⟩ := b
    have same := keyed.eq_of_key hv hw rfl
    injection same with _ lists
    exact listIn_unique keyed list (lists ▸ list')
  | fulfillment f i =>
    obtain ⟨l, v, hv, list⟩ := a
    obtain ⟨m, w, hw, list'⟩ := b
    have same := keyed.eq_of_key hv hw rfl
    injection same with _ lists
    exact listIn_unique keyed list (lists ▸ list')
  | suggestion s c d =>
    obtain ⟨l, v, hv, list⟩ := a
    obtain ⟨m, w, hw, list'⟩ := b
    have same := keyed.eq_of_key hv hw rfl
    injection same with _ lists
    exact listIn_unique keyed list (lists ▸ list')
  | listItem => exact listIn_unique keyed a b
  | listMarket => exact listIn_unique keyed a b
  | claim => exact listIn_unique keyed a b
  | reimbursement => exact listIn_unique keyed a b
  | groupMembership => exact a.symm.trans b
  | list => exact a.symm.trans b
  | groupCorp => exact a.symm.trans b
  | discordWebhook => exact a.symm.trans b
  | trackedMarket => exact a.symm.trans b
  | pendingWebhook => exact a.symm.trans b
  | _ => cases a

private theorem ofGroups_of_belongs {r : Row V} (h : Belongs db g r) : ofGroups r.table = true := by
  cases r <;> first | rfl | cases h

/-- The session's own membership of the group. -/
def Joins (user : Option Uuid) (g : Uuid) (r : Row V) : Prop :=
  ∃ u v, some u = user ∧ r = .groupMembership u g v

private theorem not_belongs (keyed : Keyed Row.key db) (stranger : isGroupMember db user g = false)
    {r : Row V} (outside : ¬Joins user g r) (h : permits db user r = true) : ¬Belongs db g r := by
  intro own
  rcases (permits_iff (ofGroups_of_belongs own)).mp h with ⟨k, theirs, member⟩ | ⟨u, k, v, rfl, me⟩
  · obtain rfl := belongs_unique keyed own theirs
    rw [stranger] at member
    cases member
  · obtain rfl : k = g := own
    exact outside ⟨u, v, me, rfl⟩

private theorem outside_of_stranger (stranger : isGroupMember db user g = false) {r : Row V}
    (hr : r ∈ db) :
    ¬Joins user g r := by
  rintro ⟨u, v, me, rfl⟩
  have member := isGroupMember_iff.mpr ⟨u, v, me, hr⟩
  rw [stranger] at member
  cases member

def Same (g : Uuid) (db db' : List (Row V)) : Prop :=
  ∀ r, r ∈ db' ∧ Belongs db' g r ↔ r ∈ db ∧ Belongs db g r

private theorem same_of_foreign (kept : ∀ r ∈ db, Belongs db g r → r ∈ db')
    (new : ∀ r ∈ db', r ∈ db ∨ ¬Belongs db g r) : Same g db db' := by
  have old {r : Row V} (hr : r ∈ db') (own : Belongs db g r) : r ∈ db :=
    (new r hr).resolve_right fun foreign => foreign own
  -- First the lists, then what is on them, then what refers to that.
  have lists (l : Uuid) : ListIn db' g l ↔ ListIn db g l :=
    ⟨fun ⟨v, hv⟩ => ⟨v, old hv rfl⟩, fun ⟨v, hv⟩ => ⟨v, kept _ hv rfl⟩⟩
  have on (l : Uuid) (r : Row V) (own : Belongs db g r ↔ ListIn db g l) :
      r ∈ db' ∧ ListIn db' g l ↔ r ∈ db ∧ ListIn db g l := by
    rw [lists]
    constructor
    · rintro ⟨hr, list⟩
      exact ⟨old hr (own.mpr list), list⟩
    · rintro ⟨hr, list⟩
      exact ⟨kept r hr (own.mpr list), list⟩
  have claims (c : Uuid) : ClaimIn db' g c ↔ ClaimIn db g c :=
    exists_congr fun l => exists₂_congr fun a v => on l (.claim c l a v) Iff.rfl
  have items (i : Uuid) : ItemIn db' g i ↔ ItemIn db g i :=
    exists₂_congr fun l v => on l (.listItem i l v) Iff.rfl
  have dues (d : Uuid) : DueIn db' g d ↔ DueIn db g d :=
    exists₂_congr fun l v => on l (.reimbursement d l v) Iff.rfl
  have whose (r : Row V) : Belongs db' g r ↔ Belongs db g r := by
    cases r <;> simp only [Belongs, lists, claims, items, dues]
  intro r
  rw [whose r]
  exact ⟨fun ⟨hr, own⟩ => ⟨old hr own, own⟩, fun ⟨hr, own⟩ => ⟨kept r hr own, own⟩⟩

private theorem Same.member (same : Same g db db') :
    isGroupMember db' user g = isGroupMember db user g := by
  refine Bool.eq_iff_iff.mpr ?_
  rw [isGroupMember_iff, isGroupMember_iff]
  constructor
  · rintro ⟨u, v, own, hv⟩
    exact ⟨u, v, own, ((same _).mp ⟨hv, rfl⟩).1⟩
  · rintro ⟨u, v, own, hv⟩
    exact ⟨u, v, own, ((same _).mpr ⟨hv, rfl⟩).1⟩

private theorem Same.trans {db'' : List (Row V)} (a : Same g db db') (b : Same g db' db'') :
    Same g db db'' := fun r => (b r).trans (a r)

private theorem Same.claims (same : Same g db db') (c : Uuid) :
    ClaimIn db' g c ↔ ClaimIn db g c := by
  constructor
  · rintro ⟨l, a, v, hv, list⟩
    obtain ⟨old, own⟩ := (same _).mp ⟨hv, list⟩
    exact ⟨l, a, v, old, own⟩
  · rintro ⟨l, a, v, hv, list⟩
    obtain ⟨new, own⟩ := (same _).mpr ⟨hv, list⟩
    exact ⟨l, a, v, new, own⟩

private theorem Same.items (same : Same g db db') (i : Uuid) : ItemIn db' g i ↔ ItemIn db g i := by
  constructor
  · rintro ⟨l, v, hv, list⟩
    obtain ⟨old, own⟩ := (same _).mp ⟨hv, list⟩
    exact ⟨l, v, old, own⟩
  · rintro ⟨l, v, hv, list⟩
    obtain ⟨new, own⟩ := (same _).mpr ⟨hv, list⟩
    exact ⟨l, v, new, own⟩

private theorem Home.same (home : Home db g) (same : Same g db db') : Home db' g := by
  constructor
  · intro c i a v hr claim
    obtain ⟨old, own⟩ := (same _).mp ⟨hr, claim⟩
    exact (same.items i).mpr (home.items c i a v old own)
  · intro f i c v hr item
    obtain ⟨old, own⟩ := (same _).mp ⟨hr, item⟩
    exact (same.claims c).mpr (home.claims f i c v old own)

/-- The statement does not make its user a member of the group, and does not delete the group. -/
def Spares (user : Option Uuid) (g : Uuid) : Statement V → Prop
  | .insert row => ¬Joins user g row
  | .update _ _ set => ∀ r, ¬Joins user g r → ¬Joins user g (set r)
  | .delete _ _ => True
  | .deleteGroups selects => selects g = false

private theorem targets_eq_true {table : Table} {selects : Row V → Bool} {r : Row V}
    (h : targets user db table selects r = true) : r.table = table ∧ permits db user r = true := by
  simp only [targets, Bool.and_eq_true, decide_eq_true_eq] at h
  exact h.1

private theorem same_insert (keyed : Keyed Row.key db) (stranger : isGroupMember db user g = false)
    {row : Row V} (outside : ¬Joins user g row) (h : permits db user row = true) :
    Same g db (db ++ [row]) := by
  refine same_of_foreign (fun r hr _ => List.mem_append_left _ hr) fun r hr => ?_
  rcases List.mem_append.mp hr with old | new
  · exact .inl old
  · obtain rfl := List.mem_singleton.mp new
    exact .inr (not_belongs keyed stranger outside h)

private theorem toggled_foreign {updates : Row V → Bool} {set : Row V → Row V}
    (keyed' : Keyed Row.key (updateWhere updates set db))
    (kept : ∀ r ∈ db, Belongs db g r → r ∈ updateWhere updates set db)
    (foreign : ∀ r ∈ db, updates r = true → ¬Belongs db g (set r)) {c : Uuid} {now : Bool}
    (h : toggled db updates set c = some now) : ¬ClaimIn db g c := by
  obtain ⟨x, hx, found⟩ := List.exists_of_findSome?_eq_some h
  split at found
  · rename_i up
    have there : set x ∈ updateWhere updates set db :=
      mem_updateWhere.mpr ⟨x, hx, if_pos up⟩
    split at found
    · rename_i id l new w same
      split at found
      · rename_i own
        obtain ⟨rfl, -⟩ := own
        rintro ⟨m, a, v, hv, list⟩
        rw [same] at there
        have one := keyed'.eq_of_key there (kept _ hv list) rfl
        have apart := foreign _ hx up
        rw [same, one] at apart
        exact apart list
      · cases found
    · cases found
  · cases found

private theorem mem_syncClaimItems {updates : Row V → Bool} {set : Row V → Row V}
    {changed : List (Row V)} {r : Row V} (hr : r ∈ syncClaimItems user db updates set changed) :
    r ∈ changed ∨ ∃ c i a now v, r = .claimItem c i now v ∧ .claimItem c i a v ∈ changed ∧
      toggled db updates set c = some now := by
  obtain ⟨x, hx, rfl⟩ := List.mem_map.mp hr
  cases x with
  | claimItem c i a v =>
    simp only
    cases told : toggled db updates set c with
    | none => exact .inl hx
    | some now =>
      simp only
      split
      · exact .inr ⟨c, i, a, now, v, rfl, hx, told⟩
      · exact .inl hx
  | _ => exact .inl hx

private theorem syncClaimItems_keeps {updates : Row V → Bool} {set : Row V → Row V}
    {changed : List (Row V)} {r : Row V} (hr : r ∈ changed)
    (still : ∀ c i a v, r = .claimItem c i a v → toggled db updates set c = none) :
    r ∈ syncClaimItems user db updates set changed := by
  refine List.mem_map.mpr ⟨r, hr, ?_⟩
  cases r with
  | claimItem c i a v => simp [still c i a v rfl]
  | _ => rfl

private theorem keyed_syncClaimItems {updates : Row V → Bool} {set : Row V → Row V}
    {changed : List (Row V)} (keyed : Keyed Row.key changed) :
    Keyed Row.key (syncClaimItems user db updates set changed) := by
  refine keyed.of_map_eq ?_
  unfold syncClaimItems
  rw [List.map_map]
  apply List.map_congr_left
  intro r _
  cases r with
  | claimItem c i a v =>
    simp only [Function.comp_apply]
    split
    · split <;> rfl
    · rfl
  | _ => rfl

private theorem same_update (keyed : Keyed Row.key db) (stranger : isGroupMember db user g = false)
    {table : Table} {selects : Row V → Bool} {set : Row V → Row V}
    (outside : ∀ r, ¬Joins user g r → ¬Joins user g (set r))
    (checked : ∀ r ∈ db, targets user db table selects r = true →
      (set r).table = table ∧ permits db user (set r) = true)
    (keyed' : Keyed Row.key (updateWhere (targets user db table selects) set db)) :
    Same g db (syncClaimItems user db (targets user db table selects) set
      (updateWhere (targets user db table selects) set db)) := by
  have foreign (r : Row V) (hr : r ∈ db) (up : targets user db table selects r = true) :
      ¬Belongs db g (set r) :=
    not_belongs keyed stranger (outside r (outside_of_stranger stranger hr)) (checked r hr up).2
  have kept (r : Row V) (hr : r ∈ db) (own : Belongs db g r) :
      r ∈ updateWhere (targets user db table selects) set db := by
    refine mem_updateWhere.mpr ⟨r, hr, if_neg fun up => ?_⟩
    exact not_belongs keyed stranger (outside_of_stranger stranger hr) (targets_eq_true up).2 own
  refine same_of_foreign (fun r hr own => ?_) fun r hr => ?_
  · refine syncClaimItems_keeps (kept r hr own) ?_
    rintro c i a v rfl
    cases told : toggled db (targets user db table selects) set c with
    | none => rfl
    | some now => exact absurd own (toggled_foreign keyed' kept foreign told)
  · rcases mem_syncClaimItems hr with old | ⟨c, i, a, now, v, rfl, -, told⟩
    · obtain ⟨x, hx, rfl⟩ := mem_updateWhere.mp old
      split
      · exact .inr (foreign x hx ‹_›)
      · exact .inl hx
    · exact .inr (toggled_foreign keyed' kept foreign told)

private theorem foreign_of_dependsOn (keyed : Keyed Row.key db) (home : Home db g) {r p : Row V}
    (hr : r ∈ db) (hp : p ∈ db) (foreign : ¬Belongs db g p) (other : p.table ≠ .contracts)
    (on : r.dependsOn p = true) : ¬Belongs db g r := by
  have list {l h : Uuid} {v : V} (hp : .list l h v ∈ db) (foreign : h ≠ g) : ¬ListIn db g l :=
    fun ⟨w, hw⟩ => foreign (by injection keyed.eq_of_key hp hw rfl)
  have item {i l : Uuid} {v : V} (hp : .listItem i l v ∈ db) (foreign : ¬ListIn db g l) :
      ¬ItemIn db g i := fun ⟨m, w, hw, here⟩ => by
    injection keyed.eq_of_key hp hw rfl with _ same
    exact foreign (same ▸ here)
  have claim {c l : Uuid} {a : Bool} {v : V} (hp : .claim c l a v ∈ db)
      (foreign : ¬ListIn db g l) : ¬ClaimIn db g c := fun ⟨m, b, w, hw, here⟩ => by
    injection keyed.eq_of_key hp hw rfl with _ same
    exact foreign (same ▸ here)
  have due {d l : Uuid} {v : V} (hp : .reimbursement d l v ∈ db) (foreign : ¬ListIn db g l) :
      ¬DueIn db g d := fun ⟨m, w, hw, here⟩ => by
    injection keyed.eq_of_key hp hw rfl with _ same
    exact foreign (same ▸ here)
  cases p with
  | list l h v =>
    cases r with
    | listItem | listMarket | claim | reimbursement =>
      obtain rfl := of_decide_eq_true on
      exact list hp foreign
    | _ => cases on
  | listItem i l v =>
    cases r with
    | claimItem c j a w =>
      obtain rfl := of_decide_eq_true on
      exact fun own => item hp foreign (home.items c j a w hr own)
    | fulfillment =>
      obtain rfl := of_decide_eq_true on
      exact item hp foreign
    | _ => cases on
  | claim c l a v =>
    cases r with
    | claimItem =>
      obtain rfl := of_decide_eq_true on
      exact claim hp foreign
    | _ => cases on
  | reimbursement d l v =>
    cases r with
    | suggestion =>
      obtain rfl := of_decide_eq_true on
      exact due hp foreign
    | _ => cases on
  | contract => exact absurd rfl other
  | _ => cases r <;> cases on

private theorem not_contract {r p : Row V} (on : r.dependsOn p = true) : r.table ≠ .contracts := by
  cases r with
  | contract => cases p <;> cases on
  | _ => simp [Row.table]

private theorem swept_foreign (keyed : Keyed Row.key db) (home : Home db g) {gone : Row V → Bool}
    (base : ∀ r ∈ db, gone r = true → ¬Belongs db g r ∧ r.table ≠ .contracts) :
    ∀ r ∈ db, swept Row.dependsOn db 2 gone r = true → ¬Belongs db g r ∧ r.table ≠ .contracts :=
  swept_induct base fun _ hr _ hp foreign on =>
    ⟨foreign_of_dependsOn keyed home hr hp foreign.1 foreign.2 on, not_contract on⟩

section Unlink
variable {all : Row V → Bool} {goneGroup : Uuid → Bool}

private theorem unlink_key (r : Row V) : (unlink db all goneGroup r).key = r.key := by
  unfold unlink
  split
  · split <;> rfl
  · split <;> rfl
  · rfl

private theorem belongs_unlink (r : Row V) :
    Belongs db g (unlink db all goneGroup r) ↔ Belongs db g r := by
  unfold unlink
  split
  · split <;> rfl
  · split <;> rfl
  · rfl

private theorem unlink_own (keyed : Keyed Row.key db) (home : Home db g)
    (foreign : ∀ r ∈ db, all r = true → ¬Belongs db g r) {r : Row V} (hr : r ∈ db)
    (own : Belongs db g r) : unlink db all goneGroup r = r := by
  unfold unlink
  split
  · rename_i f i c v
    refine if_neg fun found => ?_
    obtain ⟨x, hx, gone⟩ := List.any_eq_true.mp found
    obtain ⟨l, a, w, hw, list⟩ := home.claims f i c v hr own
    cases x with
    | claim =>
      simp only [Bool.and_eq_true, decide_eq_true_eq] at gone
      obtain ⟨rfl, away⟩ := gone
      rw [keyed.eq_of_key hx hw rfl] at away
      exact foreign _ hw away list
    | _ => cases gone
  · cases own
  · rfl

end Unlink

private theorem same_remove (keyed : Keyed Row.key db) (home : Home db g) {gone : Row V → Bool}
    {goneGroup : Uuid → Bool}
    (base : ∀ r ∈ db, gone r = true → ¬Belongs db g r ∧ r.table ≠ .contracts) :
    Keyed Row.key (remove db gone goneGroup) ∧ Same g db (remove db gone goneGroup) := by
  have foreign (r : Row V) (hr : r ∈ db) (h : swept Row.dependsOn db 2 gone r = true) :
      ¬Belongs db g r := (swept_foreign keyed home base r hr h).1
  constructor
  · refine (keyed.filter fun r => !swept Row.dependsOn db 2 gone r).of_map_eq ?_
    unfold remove
    rw [List.map_map]
    exact List.map_congr_left fun r _ => unlink_key r
  · refine same_of_foreign (fun r hr own => ?_) fun r hr => ?_
    · refine List.mem_map.mpr
        ⟨r, List.mem_filter.mpr ⟨hr, ?_⟩, unlink_own keyed home foreign hr own⟩
      cases h : swept Row.dependsOn db 2 gone r with
      | false => rfl
      | true => exact absurd own (foreign r hr h)
    · obtain ⟨x, hx, rfl⟩ := List.mem_map.mp hr
      have there := List.mem_of_mem_filter hx
      by_cases own : Belongs db g x
      · rw [unlink_own keyed home foreign there own]
        exact .inl there
      · exact .inr fun h => own ((belongs_unlink x).mp h)

/-- A stranger's statement leaves the rows of the group as they are. -/
private theorem same_exec {accepts : List (Row V) → Bool} (keyed : Keyed Row.key db)
    (home : Home db g)
    (stranger : isGroupMember db user g = false) {st : Statement V} (spares : Spares user g st)
    (h : exec accepts user db st = .ok db') : Keyed Row.key db' ∧ Same g db db' := by
  cases st with
  | insert row =>
    simp only [exec, bind_eq_ok, require_eq_ok, Except.ok.injEq] at h
    obtain ⟨-, permitted, -, ⟨keyed', -⟩, rfl⟩ := h
    exact ⟨keyed', same_insert keyed stranger spares permitted⟩
  | update table selects set =>
    simp only [exec, bind_eq_ok, require_eq_ok, Except.ok.injEq] at h
    obtain ⟨-, checked, -, keyed', -, -, rfl⟩ := h
    exact ⟨keyed_syncClaimItems keyed', same_update keyed stranger spares checked keyed'⟩
  | delete table selects =>
    simp only [exec, bind_eq_ok, require_eq_ok, Except.ok.injEq] at h
    obtain ⟨-, granted, -, -, rfl⟩ := h
    refine same_remove keyed home fun r hr up => ?_
    obtain ⟨rfl, permitted⟩ := targets_eq_true up
    refine ⟨not_belongs keyed stranger (outside_of_stranger stranger hr) permitted, fun same => ?_⟩
    rw [same] at granted
    cases granted
  | deleteGroups selects =>
    simp only [exec, bind_eq_ok, require_eq_ok, Except.ok.injEq] at h
    obtain ⟨-, -, rfl⟩ := h
    have other : selects g = false := spares
    refine same_remove keyed home fun r _ up => ?_
    cases r <;> simp only [Row.groupId?, Option.any_some, Option.any_none, Bool.false_eq_true] at up
    all_goals
      refine ⟨fun own => ?_, by simp [Row.table]⟩
      obtain rfl := own
      rw [other] at up
      cases up

/-- Whatever statements strangers to a group execute, in any number of sessions, the rows of the
group stay the same, as long as they make nobody of themselves a member and delete no group; and
none of these rows is ever shown to a stranger. -/
theorem strangers_leave_rows (accepts : List (Row V) → Bool) (keyed : Keyed Row.key db)
    (home : Home db g) (os : List (Option Uuid × Statement V))
    (strangers : ∀ o ∈ os, isGroupMember db o.1 g = false ∧ Spares o.1 g o.2) :
    Same g db (run (step accepts) db os) ∧
      ∀ user, isGroupMember db user g = false → ∀ table selects,
        ∀ r ∈ select user (run (step accepts) db os) table selects,
          ¬Belongs (run (step accepts) db os) g r := by
  have all : Keyed Row.key (run (step accepts) db os) ∧ Same g db (run (step accepts) db os) := by
    induction os generalizing db with
    | nil => exact ⟨keyed, fun _ => Iff.rfl⟩
    | cons o os ih =>
      obtain ⟨stranger, spares⟩ := strangers o List.mem_cons_self
      have one : Keyed Row.key (Base.Request.exec (step accepts) db o) ∧
          Same g db (Base.Request.exec (step accepts) db o) := by
        cases h : step accepts o db with
        | ok db' =>
          rw [exec_of_ok h]
          exact same_exec keyed home stranger spares h
        | error e =>
          rw [exec_of_error h]
          exact ⟨keyed, fun _ => Iff.rfl⟩
      obtain ⟨keyed', same⟩ := one
      have rest := ih keyed' (home.same same) fun p hp => by
        obtain ⟨stranger, spares⟩ := strangers p (List.mem_cons_of_mem o hp)
        exact ⟨same.member.trans stranger, spares⟩
      exact ⟨rest.1, same.trans rest.2⟩
  refine ⟨all.2, fun user stranger table selects r hr => ?_⟩
  obtain ⟨mem, shown⟩ := List.mem_filter.mp hr
  have stranger' : isGroupMember (run (step accepts) db os) user g = false :=
    all.2.member.trans stranger
  exact not_belongs all.1 stranger' (outside_of_stranger stranger' mem) (targets_eq_true shown).2

def twoTenants : List (Row Unit) := [
  .groupMembership 1 1 (), .groupMembership 2 2 (), .list 10 1 (), .list 20 2 (),
  .listItem 11 10 (), .listItem 21 20 (), .claim 30 20 true (), .claimItem 30 21 true (),
  .fulfillment 40 21 (some 30) (), .reimbursement 41 20 (), .suggestion 42 7 41 (),
  .pendingWebhook 50 2 ()]

def toFirstGroup : Row Unit → Row Unit
  | .list id _ v => .list id 1 v
  | r => r

def careless : List (Option Uuid × Statement Unit) := [
  (some 1, .insert (.listItem 12 10 ())), (some 1, .insert (.listItem 22 20 ())),
  (some 1, .update .lists (fun _ => true) toFirstGroup),
  (none, .delete .listItems fun _ => true), (some 1, .delete .lists fun _ => true)]

theorem strangers_leave_rows_careless :
    run (step fun _ => true) twoTenants careless =
        twoTenants.filter (fun r => decide (r ≠ .list 10 1 () ∧ r ≠ .listItem 11 10 ())) ∧
      Same 2 twoTenants (run (step fun _ => true) twoTenants careless) := by
  have home : Home twoTenants 2 := by
    constructor
    · intro c i a v hr _
      simp only [twoTenants, List.mem_cons, reduceCtorEq, Row.claimItem.injEq, List.not_mem_nil,
        false_or, or_false] at hr
      obtain ⟨-, rfl, -⟩ := hr
      exact ⟨20, (), by decide, (), by decide⟩
    · intro f i c v hr _
      simp only [twoTenants, List.mem_cons, reduceCtorEq, Row.fulfillment.injEq, List.not_mem_nil,
        Option.some.injEq, false_or, or_false] at hr
      obtain ⟨-, -, rfl, -⟩ := hr
      exact ⟨20, true, (), by decide, (), by decide⟩
  refine ⟨by decide +kernel, (strangers_leave_rows (fun _ => true) (by decide) home careless ?_).1⟩
  intro o ho
  simp only [careless, List.mem_cons, List.not_mem_nil, or_false] at ho
  rcases ho with rfl | rfl | rfl | rfl | rfl
  · exact ⟨by decide, by rintro ⟨u, v, -, same⟩; cases same⟩
  · exact ⟨by decide, by rintro ⟨u, v, -, same⟩; cases same⟩
  · refine ⟨by decide, ?_⟩
    rintro r outside ⟨u, v, me, same⟩
    cases r with
    | groupMembership => exact outside ⟨u, v, me, same⟩
    | _ => cases same
  · exact ⟨by decide, trivial⟩
  · exact ⟨by decide, trivial⟩

end JitaCart.Tenancy.RowSecurity
