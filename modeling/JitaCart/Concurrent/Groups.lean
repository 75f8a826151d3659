/- module: JitaCart/Concurrent/Groups
   source: backend/crates/api/src/groups.rs (create, leave, delete_group, join, check_group_quota,
     lock_user_for_quota), backend/crates/api/src/extract.rs (CurrentGroup)
   digest: Interleaved group requests, statement by statement, and the cap on memberships. -/

import JitaCart.Base.Quota
import JitaCart.Schema

/-!
A foreign key takes a share lock on the row it refers to. Share locks do not
exclude each other, and without them more interleavings are possible, so they
are left out. A name is checked before the first statement.
-/

set_option autoImplicit false
set_option relaxedAutoImplicit false

namespace JitaCart.Concurrent.Groups

open Schema Base.Table Base.Request Base.ReadCommitted

structure GroupRow where
  id : Uuid
  inviteCode : String
  deriving DecidableEq

structure Roster where
  users : List Uuid := []
  groups : List GroupRow := []
  groupMemberships : List GroupMembership := []
  deriving DecidableEq

def membershipKey (m : GroupMembership) : Uuid × Uuid := (m.userId, m.groupId)

def Roster.group? (s : Roster) (id : Uuid) : Option GroupRow := lookup GroupRow.id id s.groups

def Roster.membership? (s : Roster) (userId groupId : Uuid) : Option GroupMembership :=
  lookup membershipKey (userId, groupId) s.groupMemberships

/-- Rows, and the keys of unique indexes that an insert waits for. -/
inductive Row
  | user (id : Uuid)
  | group (id : Uuid)
  | inviteCode (code : String)
  | membership (key : Uuid × Uuid)
  deriving DecidableEq

inductive Write
  | insertGroup (g : GroupRow)
  | deleteGroup (groupId : Uuid)
  | insertMembership (m : GroupMembership)
  | deleteMembership (m : GroupMembership)
  deriving DecidableEq

def redo : Write → Roster → Roster
  | .insertGroup g, s => { s with groups := replace GroupRow.id g.id (some g) s.groups }
  | .deleteGroup id, s => { s with groups := replace GroupRow.id id none s.groups }
  | .insertMembership m, s => { s with
      groupMemberships := replace membershipKey (membershipKey m) (some m) s.groupMemberships }
  | .deleteMembership m, s => { s with
      groupMemberships := replace membershipKey (membershipKey m) none s.groupMemberships }

inductive GroupRequest
  | create (userId newId : Uuid) (inviteCode : String)
  | join (userId : Uuid) (code : String)
  | leave (userId groupId : Uuid)
  | deleteGroup (userId groupId : Uuid)
  deriving DecidableEq

abbrev Program := Prog Roster Write Row

/-- `SELECT role FROM group_memberships WHERE user_id = $1 AND group_id = $2` of the extractor. -/
def currentGroup (userId groupId : Uuid) : Program GroupRole :=
  .select fun s => fetch (ApiError.forbidden "you are not a member of this group")
    ((s.membership? userId groupId).map (·.role))

/-- `SELECT id FROM users WHERE id = $1 FOR UPDATE`. -/
def lockUserForQuota (userId : Uuid) : Program Unit :=
  .statement (fun s => if userId ∈ s.users then [.user userId] else []) fun st _ =>
    if st.planned = [] then none else some ([], ())

def memberCount (s : Roster) (userId : Uuid) : Nat :=
  s.groupMemberships.countP fun m => decide (m.userId = userId)

def checkGroupQuota (userId : Uuid) (cap : Int) : Program Unit :=
  .select fun s => require ((memberCount s userId : Int) < cap) (ApiError.quotaExceeded
    s!"you are already a member of {memberCount s userId} groups (limit {cap})")

/-- An error ends the transaction, so a second attempt with another invite code fails as well. -/
def insertGroup (g : GroupRow) : Program Unit :=
  .statement (fun _ => [.group g.id, .inviteCode g.inviteCode]) fun _ s =>
    if s.group? g.id = none ∧ lookup GroupRow.inviteCode g.inviteCode s.groups = none then
      some ([.insertGroup g], ())
    else none

def insertMembership (m : GroupMembership) : Program Unit :=
  .statement (fun _ => [.membership (membershipKey m)]) fun _ s =>
    if s.membership? m.userId m.groupId = none ∧ s.group? m.groupId ≠ none then
      some ([.insertMembership m], ())
    else none

def create (cap : Int) (userId newId : Uuid) (inviteCode : String) : Program Unit := do
  lockUserForQuota userId
  checkGroupQuota userId cap
  insertGroup ⟨newId, inviteCode⟩
  insertMembership ⟨userId, newId, .owner⟩

/-- The member that `WITH g AS (…)` inserts; an existing one stays as it is. -/
def joinGroup (userId : Uuid) (code : String) : Program Unit :=
  .statement
    (fun s => ((lookup GroupRow.inviteCode code s.groups).map fun g =>
      .membership (userId, g.id)).toList)
    fun st s => do
      let g ← lookup GroupRow.inviteCode code st.snapshot.groups
      if s.membership? userId g.id = none then
        if s.group? g.id = none then none
        else some ([.insertMembership ⟨userId, g.id, .member⟩], ())
      else some ([], ())

def join (cap : Int) (userId : Uuid) (code : String) : Program Unit := do
  lockUserForQuota userId
  checkGroupQuota userId cap
  joinGroup userId code

def membersOf (s : Roster) (groupId : Uuid) : List GroupMembership :=
  s.groupMemberships.filter fun m => decide (m.groupId = groupId)

/-- `SELECT user_id, role FROM group_memberships WHERE group_id = $1 FOR UPDATE`. -/
def lockMemberships (groupId : Uuid) : Program (List GroupMembership) :=
  .statement (fun s => (membersOf s groupId).map fun m => .membership (membershipKey m))
    fun st s => some ([], (membersOf s groupId).filter fun m =>
      decide (.membership (membershipKey m) ∈ st.planned))

/-- A member leaves unless the group would be without an owner. -/
def mayLeave (userId : Uuid) (members : List GroupMembership) : Except ApiError Unit := do
  let own ← fetch (.forbidden "you are not a member of this group")
    (members.find? fun m => decide (m.userId = userId))
  require (own.role ≠ .owner ∨
      (members.filter fun m => decide (m.userId ≠ userId ∧ m.role = .owner)) ≠ [])
    (.badRequest "you are the last owner; delete the group instead")

/-- `DELETE FROM group_memberships` of the rows of the snapshot that still are there. -/
def deleteMemberships (p : GroupMembership → Bool) : Program Unit :=
  .statement (fun s => (s.groupMemberships.filter p).map fun m => .membership (membershipKey m))
    fun st s => some ((s.groupMemberships.filter fun m =>
      p m && decide (.membership (membershipKey m) ∈ st.planned)).map .deleteMembership, ())

def leave (userId groupId : Uuid) : Program Unit := do
  let _ ← currentGroup userId groupId
  let members ← lockMemberships groupId
  .check (mayLeave userId members)
  deleteMemberships fun m => decide (m.userId = userId ∧ m.groupId = groupId)

/-- `DELETE FROM groups WHERE id = $1`. -/
def dropGroup (groupId : Uuid) : Program Unit :=
  .statement (fun s => ((s.group? groupId).map fun g => .group g.id).toList) fun st s =>
    if st.planned = [] ∨ s.group? groupId = none then none else some ([.deleteGroup groupId], ())

/-- The memberships go with the group, by a statement of the foreign key. -/
def deleteGroup (userId groupId : Uuid) : Program Unit := do
  let role ← currentGroup userId groupId
  .check (require (role = .owner) (ApiError.forbidden "owner role required"))
  dropGroup groupId
  deleteMemberships fun m => decide (m.groupId = groupId)

def program (cap : Int) : GroupRequest → Program Unit
  | .create userId newId inviteCode => create cap userId newId inviteCode
  | .join userId code => join cap userId code
  | .leave userId groupId => leave userId groupId
  | .deleteGroup userId groupId => deleteGroup userId groupId

def engine (groupsPerUser : Int) : Engine Roster Write Row GroupRequest :=
  ⟨redo, program groupsPerUser⟩

-- The memberships of each user, guarded by the lock on the user's row.
def memberships (cap : Int) : Meter Roster Write Row GroupMembership (Uuid × Uuid) Uuid where
  key := membershipKey
  rows := Roster.groupMemberships
  lock := .membership
  change
    | .insertMembership m => some ⟨membershipKey m, none, some m⟩
    | .deleteMembership m => some ⟨membershipKey m, some m, none⟩
    | _ => none
  counts userId m := decide (m.userId = userId)
  cap _ := cap
  guards userId _ locks := .user userId ∈ locks
  bare _ _ := False
  clear _ _ := True
  guards_mono sub h := sub _ h
  guards_append _ h := h
  bare_append _ h := h

variable {cap : Int}

theorem lawful : (memberships cap).Lawful (engine cap) where
  own w ch h := by
    cases w <;> cases h
    all_goals simp [memberships]
  changed w ch s h := by
    cases w <;> cases h <;> rfl
  kept w s h := by
    cases w <;> first | rfl | cases h

theorem exclusive : (memberships cap).Exclusive := by
  intro userId log locks log' others _ apart _ guarded
  rcases guarded with held | bare
  · exact fun other => apart _ other held
  · exact bare.elim

/-- No membership was written, the user's row is locked, and there is room for one more. -/
def Room (cap : Int) (userId : Uuid) : Assertion Roster Write Row := fun c log locks =>
  (memberships cap).Idle c log locks ∧ .user userId ∈ locks ∧ (memberCount c userId : Int) < cap

private theorem stable_room (userId : Uuid) :
    Stable ((memberships cap).terms lawful) (Room cap userId) where
  rely _ _ h change := by
    obtain ⟨idle, held, room⟩ := h
    have kept : memberCount _ userId ≤ memberCount _ userId := change.2 userId held
    exact ⟨idle, held, by omega⟩
  same same h := ⟨h.1, (same _).mpr h.2.1, h.2.2⟩

section Programs
variable {q : GroupRequest}

abbrev Ensures {α : Type} (cap : Int) (q : GroupRequest) (F : Assertion Roster Write Row)
    (p : Program α) (G : α → Assertion Roster Write Row) : Prop :=
  (memberships cap).Ensures lawful q F p G

private theorem ensures_lockUserForQuota (userId : Uuid) :
    Ensures cap q (memberships cap).Idle (lockUserForQuota userId)
      fun _ c log locks => (memberships cap).Idle c log locks ∧ .user userId ∈ locks := by
  refine Meter.ensures_aside Meter.stable_idle ?_
  intro c₁ c₂ log locks held ws a _ idle m hact
  by_cases known : userId ∈ ((engine cap).view c₁ log).users
  · simp only [if_pos known, List.cons_ne_nil, if_false, Option.some.injEq, Prod.mk.injEq] at hact
    obtain ⟨rfl, -⟩ := hact
    rw [List.append_nil]
    refine ⟨by simp, idle, (m.held _).mpr (.inr ?_)⟩
    simp [known]
  · simp [known] at hact

private theorem ensures_checkGroupQuota (userId : Uuid) :
    Ensures cap q (fun c log locks => (memberships cap).Idle c log locks ∧ .user userId ∈ locks)
      (checkGroupQuota userId cap) fun _ => Room cap userId := by
  have locked : Stable ((memberships cap).terms lawful) fun c log locks =>
      (memberships cap).Idle c log locks ∧ .user userId ∈ locks :=
    ⟨fun _ _ h _ => h, fun same h => ⟨h.1, (same _).mpr h.2⟩⟩
  refine Triple.imp (Meter.ensures_query locked (fun _ => stable_room userId) ?_)
    (fun _ _ _ _ hA => hA) fun _ _ _ _ _ hA => ⟨hA.1, hA.2.2⟩
  rintro a c log locks - ⟨idle, held⟩ hq
  have below := require_eq_ok.mp hq
  have rows : ((engine cap).view c log).groupMemberships = c.groupMemberships :=
    Meter.idle_rows (M := memberships cap) lawful idle
  unfold memberCount at below
  rw [rows] at below
  exact ⟨idle, held, below⟩

private theorem ensures_insertGroup (userId : Uuid) (g : GroupRow) :
    Ensures cap q (Room cap userId) (insertGroup g) fun _ => Room cap userId := by
  refine Meter.ensures_aside (stable_room userId) ?_
  rintro c₁ c₂ log locks held ws a - ⟨idle, locked, room⟩ m hact
  simp only [Option.ite_none_right_eq_some, Option.some.injEq, Prod.mk.injEq] at hact
  obtain ⟨-, rfl, -⟩ := hact
  have aside : ∀ w ∈ [Write.insertGroup g], (memberships cap).change w = none := by
    simp [memberships]
  exact ⟨aside, fun w hw => (List.mem_append.mp hw).elim (idle w) (aside w),
    (m.held _).mpr (.inl locked), room⟩

private theorem fits_insertMembership {c : Roster} {log : List Write} {locks held : List Row}
    {m : GroupMembership} (room : Room cap m.userId c log locks) (more : ∀ r ∈ locks, r ∈ held)
    (k : Uuid) : (memberships cap).gainOf k (log ++ [.insertMembership m]) = 0 ∨
      ((memberships cap).guards k (log ++ [.insertMembership m]) held ∧
        ((memberships cap).count k c + (memberships cap).gainOf k (log ++ [.insertMembership m]) :
          Int) ≤ (memberships cap).cap k) ∨ (memberships cap).bare k (log ++ [.insertMembership m]) := by
  obtain ⟨idle, locked, room⟩ := room
  rw [Meter.gainOf_append, Meter.idle_gainOf idle k]
  by_cases own : m.userId = k
  · subst own
    have one : (memberships cap).gainOf m.userId [.insertMembership m] = 1 := by
      simp [Meter.gainOf, Meter.gain, memberships]
    rw [one]
    refine .inr (.inl ⟨more _ locked, ?_⟩)
    change ((memberCount c m.userId : Int) + ((0 + 1 : Nat) : Int)) ≤ cap
    omega
  · refine .inl ?_
    simp [Meter.gainOf, Meter.gain, memberships, own]

private theorem ensures_insertMembership (m : GroupMembership) :
    Ensures cap q (Room cap m.userId) (insertMembership m) fun _ _ _ _ => True := by
  refine Meter.ensures_write (stable_room m.userId) ?_
  intro c₁ c₂ log locks held ws a _ h₂ moment hact
  simp only [Option.ite_none_right_eq_some, Option.some.injEq, Prod.mk.injEq] at hact
  obtain ⟨⟨fresh, -⟩, rfl, -⟩ := hact
  refine ⟨⟨fun ch hch => ?_, trivial⟩, fun w hw ch hch => ?_,
    fits_insertMembership h₂.2 fun r hr => (moment.held r).mpr (.inl hr), trivial⟩
  · obtain rfl := Option.some.inj hch
    exact fresh
  · rw [List.mem_singleton.mp hw] at hch
    obtain rfl := Option.some.inj hch
    exact (moment.held _).mpr (.inr (List.mem_singleton.mpr rfl))

private theorem ensures_joinGroup (userId : Uuid) (code : String) :
    Ensures cap q (Room cap userId) (joinGroup userId code) fun _ _ _ _ => True := by
  refine Meter.ensures_write (stable_room userId) ?_
  intro c₁ c₂ log locks held ws a _ h₂ moment hact
  cases hg : lookup GroupRow.inviteCode code ((engine cap).view c₁ log).groups with
  | none => simp [hg] at hact
  | some g =>
    simp only [hg, Option.bind_eq_bind, Option.bind_some] at hact
    have more : ∀ r ∈ locks, r ∈ held := fun r hr => (moment.held r).mpr (.inl hr)
    split at hact
    · rename_i fresh
      simp only [Option.ite_none_left_eq_some, Option.some.injEq, Prod.mk.injEq] at hact
      obtain ⟨-, rfl, -⟩ := hact
      refine ⟨⟨fun ch hch => ?_, trivial⟩, fun w hw ch hch => ?_,
        fits_insertMembership (m := ⟨userId, g.id, .member⟩) h₂.2 more, trivial⟩
      · obtain rfl := Option.some.inj hch
        exact fresh
      · rw [List.mem_singleton.mp hw] at hch
        obtain rfl := Option.some.inj hch
        refine (moment.held _).mpr (.inr ?_)
        rw [hg]
        exact List.mem_singleton.mpr rfl
    · simp only [Option.some.injEq, Prod.mk.injEq] at hact
      obtain ⟨rfl, -⟩ := hact
      rw [List.append_nil]
      exact ⟨trivial, by simp, fun k => .inl (Meter.idle_gainOf h₂.2.1 k), trivial⟩

private theorem ensures_deleteMemberships (p : GroupMembership → Bool) :
    Ensures cap q (memberships cap).Idle (deleteMemberships p) fun _ _ _ _ => True := by
  refine Meter.ensures_deletes .deleteMembership (fun _ => rfl) ?_
  intro st s ws a hact
  obtain ⟨rfl, -⟩ := Prod.mk.inj (Option.some.inj hact)
  refine ⟨_, rfl, fun m hm => ?_⟩
  simp only [Bool.and_eq_true, decide_eq_true_eq] at hm
  exact hm.2

private theorem ensures_lockMemberships (groupId : Uuid) :
    Ensures cap q (memberships cap).Idle (lockMemberships groupId)
      fun _ => (memberships cap).Idle := by
  refine Meter.ensures_idle fun st s ws a hact => ?_
  obtain ⟨rfl, -⟩ := Prod.mk.inj (Option.some.inj hact)
  simp

private theorem ensures_dropGroup (groupId : Uuid) :
    Ensures cap q (memberships cap).Idle (dropGroup groupId) fun _ => (memberships cap).Idle := by
  refine Meter.ensures_idle fun st s ws a hact => ?_
  simp only [Option.ite_none_left_eq_some, Option.some.injEq, Prod.mk.injEq] at hact
  obtain ⟨-, rfl, -⟩ := hact
  simp [memberships]

/-- Every group request writes memberships it holds, and adds one only where it counted room. -/
theorem begins (q : GroupRequest) :
    Triple (engine cap) ((memberships cap).terms lawful) q
      (fun _ log locks => log = [] ∧ locks = []) (program cap q)
      fun _ => (memberships cap).Metered (engine cap) := by
  have quota (userId : Uuid) {p : Program Unit}
      (h : Ensures cap q (Room cap userId) p fun _ _ _ _ => True) :
      Ensures cap q (memberships cap).Idle
        (do lockUserForQuota userId; checkGroupQuota userId cap; p) fun _ _ _ _ => True :=
    (ensures_lockUserForQuota userId).bind fun _ =>
      (ensures_checkGroupQuota userId).bind fun _ => h
  have done : Ensures cap q (memberships cap).Idle (program cap q) fun _ _ _ _ => True := by
    cases q with
    | create userId newId inviteCode =>
      refine quota userId ?_
      exact (ensures_insertGroup userId _).bind fun _ =>
        ensures_insertMembership ⟨userId, newId, .owner⟩
    | join userId code => exact quota userId (ensures_joinGroup userId code)
    | leave userId groupId =>
      exact (Meter.ensures_read Meter.stable_idle).bind fun _ =>
        (ensures_lockMemberships groupId).bind fun _ =>
          Meter.ensures_check.bind fun _ => ensures_deleteMemberships _
    | deleteGroup userId groupId =>
      exact (Meter.ensures_read Meter.stable_idle).bind fun _ => Meter.ensures_check.bind fun _ =>
        (ensures_dropGroup groupId).bind fun _ => ensures_deleteMemberships _
  exact Meter.begins_of_ensures (fun _ w hw => absurd hw List.not_mem_nil) done

end Programs

end JitaCart.Concurrent.Groups
