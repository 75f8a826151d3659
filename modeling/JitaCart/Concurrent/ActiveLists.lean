/- module: JitaCart/Concurrent/ActiveLists
   source: backend/crates/api/src/lists.rs (check_lists_quota),
     backend/crates/api/src/lists/crud.rs (create, patch_list, delete_list)
   digest: When the cap on the lists of a group that are not archived holds. -/

import JitaCart.Concurrent.Lists

/-!
A create counts the group's lists without a lock, and a status patch that takes
a list out of the archive does not count at all.
-/

set_option autoImplicit false
set_option relaxedAutoImplicit false

namespace JitaCart.Concurrent.Lists

open Schema Base.Table Base.Request Base.ReadCommitted Api.Extract
open Api.Lists (NewLine validateLines newItems)

def activeIn (groupId : Uuid) (l : ListRow) : Bool :=
  decide (l.groupId = groupId) && decide (l.status ≠ .archived)

/-- The write adds to the active lists of the group. -/
def adds (groupId : Uuid) : Write → Bool
  | .insertList l => activeIn groupId l
  | .updateList before after => activeIn groupId after && !activeIn groupId before
  | _ => false

/-- The write takes a list of the group out of the archive. -/
def unarchives (groupId : Uuid) : Write → Bool
  | .updateList before after => activeIn groupId after && !activeIn groupId before
  | _ => false

/-- The active lists of each group; a create guards them only by having begun to count. -/
def active (cap : Int) : Meter Db Write Row ListRow Uuid Uuid where
  key := ListRow.id
  rows := Db.lists
  lock := .list
  change
    | .insertList l => some ⟨l.id, none, some l⟩
    | .updateList before after => some ⟨after.id, some before, some after⟩
    | .deleteList l => some ⟨l.id, some l, none⟩
    | _ => none
  counts := activeIn
  cap _ := cap
  guards groupId log _ := .counting groupId ∈ log
  bare groupId log := ∃ w ∈ log, unarchives groupId w = true
  clear log log' := ∀ groupId, (∃ w ∈ log, adds groupId w = true) → .counting groupId ∉ log'
  guards_mono _ h := h
  guards_append _ h := List.mem_append_left _ h
  bare_append ws h := by
    obtain ⟨w, hw, un⟩ := h
    exact ⟨w, List.mem_append_left ws hw, un⟩

/-- The group whose active lists the write adds to. -/
def addedTo : Write → Option Uuid
  | .insertList l => if activeIn l.groupId l then some l.groupId else none
  | .updateList before after =>
    if activeIn after.groupId after && !activeIn after.groupId before then some after.groupId
    else none
  | _ => none

/-- A commit that adds an active list to a group finds no other create counting them, and one that
takes a list out of the archive finds room. -/
def Unraced (cap : Int) (w : Store Db Write Row ListRequest) : Action Row ListRequest → Prop
  | .commit id => ∀ t ∈ w.active, t.id = id → t.prog.finished = true →
      ∀ x ∈ t.log, ∀ groupId ∈ addedTo x,
        (∀ u ∈ w.active, u.id ≠ id → .counting groupId ∉ u.log) ∧
        (unarchives groupId x = true →
          (activeLists w.committed groupId + (t.log.filter (adds groupId)).length : Int) ≤ cap)
  | _ => True

instance (cap : Int) (w : Store Db Write Row ListRequest) (a : Action Row ListRequest) :
    Decidable (Unraced cap w a) :=
  match a with
  | .commit id => inferInstanceAs (Decidable (∀ t ∈ w.active, t.id = id → t.prog.finished = true →
      ∀ x ∈ t.log, ∀ groupId ∈ addedTo x,
        (∀ u ∈ w.active, u.id ≠ id → .counting groupId ∉ u.log) ∧
        (unarchives groupId x = true →
          (activeLists w.committed groupId + (t.log.filter (adds groupId)).length : Int) ≤ cap)))
  | .begin _ _ | .start _ | .acquire _ _ | .exec _ | .abort _ => .isTrue trivial

private theorem addedTo_eq_some {groupId : Uuid} {w : Write} (h : adds groupId w = true) :
    addedTo w = some groupId := by
  cases w with
  | insertList l =>
    have own : l.groupId = groupId := by
      simp only [adds, activeIn, Bool.and_eq_true, decide_eq_true_eq] at h
      exact h.1
    subst own
    exact if_pos h
  | updateList before after =>
    have own : after.groupId = groupId := by
      simp only [adds, activeIn, Bool.and_eq_true, decide_eq_true_eq] at h
      exact h.1.1
    subst own
    exact if_pos h
  | deleteList l => cases h
  | insertItem li => cases h
  | deleteItem li => cases h
  | counting id => cases h

variable {caps : Caps} {cap : Int}

private theorem lawful_active : (active cap).Lawful (engine caps) where
  own w ch h := by
    cases w <;> cases h
    all_goals simp [active]
  changed w ch s h := by
    cases w <;> cases h <;> rfl
  kept w s h := by
    cases w <;> first | rfl | cases h

private theorem gain_active (groupId : Uuid) (w : Write) :
    (active cap).gain groupId w = if adds groupId w then 1 else 0 := by
  cases w with
  | insertList l => by_cases h : activeIn groupId l = true <;> simp [Meter.gain, active, adds, h]
  | updateList before after => simp [Meter.gain, active, adds]
  | deleteList l => simp [Meter.gain, active, adds]
  | insertItem li => rfl
  | deleteItem li => rfl
  | counting id => rfl

private theorem gainOf_active (groupId : Uuid) (log : List Write) :
    (active cap).gainOf groupId log = (log.filter (adds groupId)).length := by
  induction log with
  | nil => rfl
  | cons w log ih =>
    have sum : (active cap).gainOf groupId (w :: log) =
        (active cap).gain groupId w + (active cap).gainOf groupId log := rfl
    rw [sum, ih, gain_active, List.filter_cons]
    split
    · rw [List.length_cons]
      omega
    · omega

private theorem exclusive_active : (active cap).Exclusive := by
  intro groupId log locks log' others clear _ gains _
  refine clear groupId ?_
  rw [gainOf_active] at gains
  obtain ⟨w, hw⟩ := List.exists_mem_of_length_pos (Nat.pos_of_ne_zero gains)
  exact ⟨w, (List.mem_filter.mp hw).1, (List.mem_filter.mp hw).2⟩

abbrev EnsuresActive {α : Type} (caps : Caps) (q : ListRequest) (F : Assertion Db Write Row)
    (p : Program α) (G : α → Assertion Db Write Row) : Prop :=
  (active caps.listsPerGroup).Ensures (e := engine caps) lawful_active q F p G

/-- No list was written, the count has begun, and it found room for one more. -/
def ListRoom (cap : Int) (groupId : Uuid) : Assertion Db Write Row := fun c log locks =>
  (active cap).Idle c log locks ∧ .counting groupId ∈ log ∧ (activeLists c groupId : Int) < cap

private theorem stable_listRoom (groupId : Uuid) :
    Stable ((active cap).terms (@lawful_active caps _)) (ListRoom cap groupId) where
  rely _ _ h change := by
    obtain ⟨idle, counting, room⟩ := h
    have kept : activeLists _ groupId ≤ activeLists _ groupId := change.2 groupId counting
    exact ⟨idle, counting, by omega⟩
  same _ h := h

section Programs
variable {q : ListRequest}

private theorem ensures_counting (groupId : Uuid) :
    EnsuresActive caps q (active caps.listsPerGroup).Idle (.note (.counting groupId))
      fun _ c log locks => (active caps.listsPerGroup).Idle c log locks ∧
        .counting groupId ∈ log := by
  refine Meter.ensures_aside Meter.stable_idle ?_
  intro c₁ c₂ log locks held ws a _ idle m hact
  obtain ⟨rfl, -⟩ := Prod.mk.inj (Option.some.inj hact)
  have aside : ∀ w ∈ [Write.counting groupId], (active caps.listsPerGroup).change w = none := by
    simp [active]
  exact ⟨aside, fun w hw => (List.mem_append.mp hw).elim (idle w) (aside w),
    List.mem_append_right _ (List.mem_singleton.mpr rfl)⟩

private theorem ensures_checkListsQuota (groupId : Uuid) :
    EnsuresActive caps q
      (fun c log locks => (active caps.listsPerGroup).Idle c log locks ∧ .counting groupId ∈ log)
      (checkListsQuota groupId caps.listsPerGroup)
      fun _ => ListRoom caps.listsPerGroup groupId := by
  have counting : Stable ((active caps.listsPerGroup).terms (@lawful_active caps _))
      fun c log locks => (active caps.listsPerGroup).Idle c log locks ∧ .counting groupId ∈ log :=
    ⟨fun _ _ h _ => h, fun _ h => h⟩
  refine Triple.imp (Meter.ensures_query counting (fun _ => stable_listRoom groupId) ?_)
    (fun _ _ _ _ hA => hA) fun _ _ _ _ _ hA => ⟨hA.1, hA.2.2⟩
  rintro a c log locks - ⟨idle, noted⟩ hq
  have below := require_eq_ok.mp hq
  have rows : ((engine caps).view c log).lists = c.lists :=
    Meter.idle_rows (M := active caps.listsPerGroup) lawful_active idle
  unfold activeLists at below
  rw [rows] at below
  exact ⟨idle, noted, below⟩

private theorem ensures_insertActive (userId groupId listId : Uuid) :
    EnsuresActive caps q (ListRoom caps.listsPerGroup groupId) (insertList userId groupId listId)
      fun _ _ _ _ => True := by
  refine Meter.ensures_write (stable_listRoom groupId) ?_
  intro c₁ c₂ log locks held ws a _ h₂ m hact
  obtain ⟨idle, counting, room⟩ := h₂.2
  cases hg : lookup Group.id groupId ((engine caps).view c₁ log).directory.groups with
  | none => simp [hg] at hact
  | some g =>
    simp only [hg, Option.bind_eq_bind, Option.bind_some, Option.ite_none_right_eq_some,
      Option.some.injEq, Prod.mk.injEq] at hact
    obtain ⟨⟨fresh, -⟩, rfl, -⟩ := hact
    refine ⟨⟨fun ch hch => ?_, trivial⟩, fun w hw ch hch => ?_, fun k => ?_, trivial⟩
    · obtain rfl := Option.some.inj hch
      exact fresh
    · rw [List.mem_singleton.mp hw] at hch
      obtain rfl := Option.some.inj hch
      exact (m.held _).mpr (.inr (List.mem_singleton.mpr rfl))
    · rw [Meter.gainOf_append, Meter.idle_gainOf idle k, gainOf_active]
      by_cases own : groupId = k
      · subst own
        refine .inr (.inl ⟨List.mem_append_left _ counting, ?_⟩)
        change (activeLists c₂ groupId + _ : Int) ≤ caps.listsPerGroup
        simp only [adds, activeIn, decide_true, Bool.true_and, List.filter_cons, List.filter_nil]
        simp
        omega
      · refine .inl ?_
        simp [adds, activeIn, own]

private theorem listIn_eq_some {s : Db} {listId groupId : Uuid} {l : ListRow}
    (h : listIn s listId groupId = some l) : s.list? l.id = some l ∧ l.id = listId := by
  obtain ⟨hl, -⟩ := Option.filter_eq_some_iff.mp h
  obtain ⟨-, rfl⟩ := lookup_mem hl
  exact ⟨hl, rfl⟩

private theorem held_of_planned {s : Db} {listId groupId : Uuid}
    (planned : ((listIn s listId groupId).map fun l => Row.list l.id).toList ≠ []) :
    .list listId ∈ ((listIn s listId groupId).map fun l => Row.list l.id).toList := by
  cases hl : listIn s listId groupId with
  | none => simp [hl] at planned
  | some l =>
    rw [← (listIn_eq_some hl).2]
    exact List.mem_singleton.mpr rfl

/-- A status patch writes the row it holds; what it takes out of the archive is not guarded. -/
private theorem ensures_patch (listId groupId : Uuid) (status : Option ListStatus) :
    EnsuresActive caps q (active caps.listsPerGroup).Idle (updateList listId groupId status)
      fun _ _ _ _ => True := by
  refine Meter.ensures_write Meter.stable_idle ?_
  intro c₁ c₂ log locks held ws a _ h₂ m hact
  obtain ⟨rfl, -⟩ := Prod.mk.inj (Option.some.inj hact)
  clear hact
  generalize hfound : Option.filter _ _ = found
  cases found with
  | none =>
    simp only [Option.map_none, Option.toList_none, List.append_nil]
    exact ⟨trivial, by simp, fun k => .inl (Meter.idle_gainOf h₂.2 k), trivial⟩
  | some l =>
    obtain ⟨hl, planned⟩ := Option.filter_eq_some_iff.mp hfound
    obtain ⟨row, rfl⟩ := listIn_eq_some hl
    simp only [Option.map_some, Option.toList_some]
    refine ⟨⟨fun ch hch => ?_, trivial⟩, fun w hw ch hch => ?_, fun k => ?_, trivial⟩
    · obtain rfl := Option.some.inj hch
      exact row
    · rw [List.mem_singleton.mp hw] at hch
      obtain rfl := Option.some.inj hch
      exact (m.held _).mpr (.inr (held_of_planned (of_decide_eq_true planned)))
    · rw [Meter.gainOf_append, Meter.idle_gainOf h₂.2 k, gainOf_active, Nat.zero_add]
      by_cases un : adds k (.updateList l { l with status := status.getD l.status }) = true
      · exact .inr (.inr ⟨_, List.mem_append_right _ (List.mem_singleton.mpr rfl), un⟩)
      · refine .inl ?_
        simp [un]

private theorem ensures_drop (listId groupId : Uuid) :
    EnsuresActive caps q (active caps.listsPerGroup).Idle (dropList listId groupId)
      fun _ _ _ _ => True := by
  refine Meter.ensures_write Meter.stable_idle ?_
  intro c₁ c₂ log locks held ws a _ h₂ m hact
  simp only [Option.ite_none_left_eq_some, Option.map_eq_some_iff, Prod.mk.injEq] at hact
  obtain ⟨planned, l, hl, rfl, -⟩ := hact
  obtain ⟨row, rfl⟩ := listIn_eq_some hl
  refine ⟨⟨fun ch hch => ?_, trivial⟩, fun w hw ch hch => ?_, fun k => .inl ?_, trivial⟩
  · obtain rfl := Option.some.inj hch
    exact row
  · rw [List.mem_singleton.mp hw] at hch
    obtain rfl := Option.some.inj hch
    exact (m.held _).mpr (.inr (held_of_planned planned))
  · rw [Meter.gainOf_append, Meter.idle_gainOf h₂.2 k, gainOf_active]
    rfl

/-- Statements on items write no list, before and after the request wrote one. -/
private theorem ensures_onItems {α : Type} {wants : Db → List Row}
    {act : Statement Db Row → Db → Option (List Write × α)}
    (acts : ∀ st s ws a, act st s = some (ws, a) →
      ∀ w ∈ ws, (active caps.listsPerGroup).change w = none) :
    EnsuresActive caps q (active caps.listsPerGroup).Idle (.statement wants act)
        (fun _ => (active caps.listsPerGroup).Idle) ∧
      EnsuresActive caps q (fun _ _ _ => True) (.statement wants act) fun _ _ _ _ => True := by
  refine ⟨Meter.ensures_idle acts, ?_⟩
  refine Meter.ensures_aside ⟨fun _ _ _ _ => trivial, fun _ _ => trivial⟩ ?_
  exact fun c₁ c₂ log locks held ws a _ _ m hact => ⟨acts _ _ ws a hact, trivial⟩

private theorem ensures_deleteItems_active (p : ListItem → Bool) :
    EnsuresActive caps q (active caps.listsPerGroup).Idle (deleteItems p)
        (fun _ => (active caps.listsPerGroup).Idle) ∧
      EnsuresActive caps q (fun _ _ _ => True) (deleteItems p) fun _ _ _ _ => True := by
  refine ensures_onItems fun st s ws a hact w hw => ?_
  obtain ⟨rfl, -⟩ := Prod.mk.inj (Option.some.inj hact)
  obtain ⟨li, -, rfl⟩ := List.mem_map.mp hw
  rfl

private theorem ensures_lockList_active (listId : Uuid) :
    EnsuresActive caps q (active caps.listsPerGroup).Idle (lockList listId)
      fun _ => (active caps.listsPerGroup).Idle := by
  refine Meter.ensures_idle fun st s ws a hact => ?_
  simp only [Option.ite_none_left_eq_some, Option.some.injEq, Prod.mk.injEq] at hact
  obtain ⟨-, rfl, -⟩ := hact
  simp

private theorem ensures_program_active (q : ListRequest) :
    EnsuresActive caps q (active caps.listsPerGroup).Idle (program caps q) fun _ _ _ _ => True := by
  have idle : Stable ((active caps.listsPerGroup).terms (@lawful_active caps _))
      (active caps.listsPerGroup).Idle := Meter.stable_idle
  have weaken {p : Program Unit} (h : EnsuresActive caps q (active caps.listsPerGroup).Idle p
      fun _ => (active caps.listsPerGroup).Idle) :
      EnsuresActive caps q (active caps.listsPerGroup).Idle p fun _ _ _ _ => True :=
    h.imp (fun _ _ _ _ hA => hA) fun _ _ _ _ _ hA => ⟨hA.1, trivial⟩
  cases q with
  | create userId groupId lines listId itemIds =>
    refine (Meter.ensures_read idle).bind fun _ => Meter.ensures_check.bind fun _ =>
      Meter.ensures_check.bind fun _ => (ensures_counting groupId).bind fun _ =>
        (ensures_checkListsQuota groupId).bind fun _ =>
          (ensures_insertActive userId groupId listId).bind fun _ => ?_
    refine triple_forM (fun li => (ensures_onItems fun st s ws a hact => ?_).2) _
    simp only [Option.ite_none_right_eq_some, Option.some.injEq, Prod.mk.injEq] at hact
    obtain ⟨-, rfl, -⟩ := hact
    simp [active]
  | addItems userId listId lines itemIds =>
    refine (Meter.ensures_read idle).bind fun _ => Meter.ensures_check.bind fun _ =>
      Meter.ensures_check.bind fun _ => (ensures_lockList_active listId).bind fun _ =>
        (Meter.ensures_read idle).bind fun _ => weaken ?_
    refine (ensures_onItems fun st s ws a hact w hw => ?_).1
    simp only [Option.ite_none_right_eq_some, Option.some.injEq, Prod.mk.injEq] at hact
    obtain ⟨-, rfl, -⟩ := hact
    obtain ⟨li, -, rfl⟩ := List.mem_map.mp hw
    rfl
  | deleteItem userId listId itemId =>
    refine (Meter.ensures_read idle).bind fun _ => Meter.ensures_check.bind fun _ =>
      (ensures_lockList_active listId).bind fun _ => ?_
    have locked : EnsuresActive caps (.deleteItem userId listId itemId)
        (active caps.listsPerGroup).Idle (lockItem listId itemId)
        fun _ => (active caps.listsPerGroup).Idle := by
      refine (ensures_onItems fun st s ws a hact => ?_).1
      simp only [Option.ite_none_left_eq_some, Option.map_eq_some_iff, Prod.mk.injEq] at hact
      obtain ⟨-, li, -, rfl, -⟩ := hact
      simp
    exact locked.bind fun _ => Meter.ensures_check.bind fun _ =>
      weaken (ensures_deleteItems_active _).1
  | patchList userId listId status =>
    exact (Meter.ensures_read idle).bind fun _ => Meter.ensures_check.bind fun _ =>
      ensures_patch listId _ status
  | deleteList userId listId =>
    exact (Meter.ensures_read idle).bind fun _ => Meter.ensures_check.bind fun _ =>
      (ensures_drop listId _).bind fun _ => (ensures_deleteItems_active _).2

end Programs

/-- From a state within the cap, a run keeps every group within it if no commit adds an active list
to a group that another create is counting, and lists leave the archive only where there is room. -/
theorem active_lists_capped (caps : Caps) {db : Db} (rows : Keyed ListRow.id db.lists)
    (within : ∀ groupId, (activeLists db groupId : Int) ≤ caps.listsPerGroup)
    {as : List (Action Row ListRequest)}
    (unraced : Meets (step (engine caps)) (Unraced caps.listsPerGroup) ⟨db, []⟩ as)
    (groupId : Uuid) :
    (activeLists (run (step (engine caps)) ⟨db, []⟩ as).committed groupId : Int) ≤
      caps.listsPerGroup := by
  have sound := Meter.sound (K := fun _ => True) (@exclusive_active caps.listsPerGroup)
    fun q _ => Meter.begins_of_ensures (fun _ w hw => absurd hw List.not_mem_nil)
      (@ensures_program_active caps q)
  have allowed : Meets (step (engine caps))
      (Allowed ((active caps.listsPerGroup).terms (@lawful_active caps _)) fun _ => True)
      ⟨db, []⟩ as := by
    refine Meets.imp (fun w a h => ?_) unraced
    cases a with
    | begin _ _ => trivial
    | start _ => trivial
    | acquire _ _ => trivial
    | exec _ => exact fun _ _ _ _ _ _ => trivial
    | commit id =>
      intro t ht hid finished
      refine ⟨fun g bare => ?_, fun u hu other g adding => ?_⟩
      · obtain ⟨x, hx, un⟩ := bare
        have adding : adds g x = true := by
          cases x <;> first | exact un | cases un
        rw [gainOf_active]
        exact (h t ht hid finished x hx g (addedTo_eq_some adding)).2 un
      · obtain ⟨x, hx, adding⟩ := adding
        exact (h t ht hid finished x hx g (addedTo_eq_some adding)).1 u hu other
    | abort _ => trivial
  exact (Meter.within_run sound ⟨rows, within⟩ allowed).below groupId

def oneGroup : Db where
  directory := { groups := [⟨1, 0⟩], groupMemberships := [⟨1, 1, .owner⟩, ⟨2, 1, .member⟩] }

def oneList : Caps := ⟨1, 10⟩

def createAs (userId listId : Uuid) : ListRequest :=
  .create userId 1 [⟨34, "Tritanium", 5, 1⟩] listId [listId]

/-- The create of a list up to its count, and from its insert to its commit. -/
def counts (id userId listId : Uuid) : List (Action Row ListRequest) :=
  .begin id (createAs userId listId) :: (Action.turn id [] ++ Action.turn id [] ++ Action.turn id [])

def inserts (id listId : Uuid) : List (Action Row ListRequest) :=
  Action.turn id [.list listId] ++ Action.turn id [.item listId] ++ [.commit id]

def twoLists : Caps := ⟨2, 10⟩

/-- The second create begins before the first one commits, and counts after it. -/
def countsInTurn : List (Action Row ListRequest) :=
  List.flatten [[.begin 1 (createAs 1 1), .begin 2 (createAs 2 2)], Action.turn 1 [],
    Action.turn 2 [], Action.turn 1 [], Action.turn 1 [], inserts 1 1, Action.turn 2 [],
    Action.turn 2 [], inserts 2 2]

theorem active_lists_capped_in_turn :
    activeLists (run (step (engine twoLists)) ⟨oneGroup, []⟩ countsInTurn).committed 1 = 2 ∧
      (activeLists (run (step (engine twoLists)) ⟨oneGroup, []⟩ countsInTurn).committed 1 : Int) ≤
        2 :=
  ⟨by decide +kernel, active_lists_capped twoLists (by decide)
    (fun g => by simp [activeLists, oneGroup, twoLists]) (by decide +kernel) 1⟩

/-- Both creates count before either inserts. -/
theorem concurrent_creates_exceed_cap :
    ¬ ∀ groupId, (activeLists (run (step (engine oneList)) ⟨oneGroup, []⟩
      (counts 1 1 1 ++ counts 2 2 2 ++ inserts 1 1 ++ inserts 2 2)).committed groupId : Int) ≤
        oneList.listsPerGroup := by
  intro h
  exact absurd (h 1) (by decide +kernel)

end JitaCart.Concurrent.Lists
