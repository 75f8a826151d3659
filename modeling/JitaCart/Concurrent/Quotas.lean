/- module: JitaCart/Concurrent/Quotas
   source: backend/crates/api/src/groups.rs (create, join), backend/crates/api/src/lists/items.rs
     (add_items), backend/crates/api/src/lists/crud.rs (create)
   digest: The caps that are counted under a row lock hold in every interleaving. -/

import JitaCart.Concurrent.Groups
import JitaCart.Concurrent.Lists

set_option autoImplicit false
set_option relaxedAutoImplicit false

namespace JitaCart.Concurrent.Lists

open Schema Base.Table Base.Request Base.ReadCommitted Api.Extract
open Api.Lists (NewLine validateLines newItems mem_newItems)

def items (cap : Int) : Meter Db Write Row ListItem Uuid Uuid where
  key := ListItem.id
  rows := Db.listItems
  lock := .item
  change
    | .insertItem li => some ⟨li.id, none, some li⟩
    | .deleteItem li => some ⟨li.id, some li, none⟩
    | _ => none
  counts listId li := decide (li.listId = listId)
  cap _ := cap
  guards listId _ locks := .list listId ∈ locks
  bare _ _ := False
  clear _ _ := True
  guards_mono sub h := sub _ h
  guards_append _ h := h
  bare_append _ h := h

variable {caps : Caps}

private theorem lawful_items : (items caps.itemsPerList).Lawful (engine caps) where
  own w ch h := by
    cases w <;> cases h
    all_goals simp [items]
  changed w ch s h := by
    cases w <;> cases h <;> rfl
  kept w s h := by
    cases w <;> first | rfl | cases h

private theorem exclusive_items {cap : Int} : (items cap).Exclusive := by
  intro listId log locks log' others _ apart _ guarded
  rcases guarded with held | bare
  · exact fun other => apart _ other held
  · exact bare.elim

abbrev EnsuresItems {α : Type} (caps : Caps) (q : ListRequest) (F : Assertion Db Write Row)
    (p : Program α) (G : α → Assertion Db Write Row) : Prop :=
  (items caps.itemsPerList).Ensures lawful_items q F p G

/-- The list is locked, only it got items, and it has room for `n` more. -/
def ItemRoom (cap : Int) (listId : Uuid) (n : Nat) : Assertion Db Write Row := fun c log locks =>
  (∀ other, other ≠ listId → (items cap).gainOf other log = 0) ∧ .list listId ∈ locks ∧
    (itemCount c listId + (items cap).gainOf listId log + n : Int) ≤ cap

private theorem stable_itemRoom {caps : Caps} (listId : Uuid) (n : Nat) :
    Stable ((items caps.itemsPerList).terms (@lawful_items caps))
      (ItemRoom caps.itemsPerList listId n) where
  rely _ _ h change := by
    obtain ⟨others, held, room⟩ := h
    have kept : itemCount _ listId ≤ itemCount _ listId := change.2 listId held
    exact ⟨others, held, by omega⟩
  same same h := ⟨h.1, (same _).mpr h.2.1, h.2.2⟩

section Programs
variable {q : ListRequest}

private theorem gainOf_insertItems {cap : Int} {listId : Uuid} {new : List ListItem}
    (on : ∀ li ∈ new, li.listId = listId) (k : Uuid) :
    (items cap).gainOf k (new.map .insertItem) = if k = listId then new.length else 0 := by
  induction new with
  | nil => simp [Meter.gainOf]
  | cons li new ih =>
    have tail := ih fun x hx => on x (List.mem_cons_of_mem li hx)
    have head : (items cap).gain k (.insertItem li) = if k = listId then 1 else 0 := by
      rw [← on li List.mem_cons_self]
      by_cases same : k = li.listId
      · simp [Meter.gain, items, same]
      · simp [Meter.gain, items, same, Ne.symm same]
    have sum : (items cap).gainOf k ((li :: new).map .insertItem) =
        (items cap).gain k (.insertItem li) + (items cap).gainOf k (new.map .insertItem) := by
      simp [Meter.gainOf]
    rw [sum, head, tail, List.length_cons]
    split <;> omega

private theorem itemRoom_insert {cap : Int} {c : Db} {log : List Write} {locks held : List Row}
    {listId : Uuid} (new : List ListItem) {n : Nat} (on : ∀ li ∈ new, li.listId = listId)
    (room : ItemRoom cap listId (new.length + n) c log locks) (more : ∀ r ∈ locks, r ∈ held) :
    ItemRoom cap listId n c (log ++ new.map .insertItem) held := by
  obtain ⟨others, locked, room⟩ := room
  refine ⟨fun k other => ?_, more _ locked, ?_⟩
  · rw [Meter.gainOf_append, others k other, gainOf_insertItems on k, if_neg other]
  · rw [Meter.gainOf_append, gainOf_insertItems on listId, if_pos rfl]
    push_cast at room ⊢
    omega

private theorem fits_itemRoom {cap : Int} {listId : Uuid} {n : Nat} {c : Db} {log : List Write}
    {locks : List Row} (room : ItemRoom cap listId n c log locks) (k : Uuid) :
    (items cap).gainOf k log = 0 ∨ ((items cap).guards k log locks ∧
      ((items cap).count k c + (items cap).gainOf k log : Int) ≤ (items cap).cap k) ∨
      (items cap).bare k log := by
  obtain ⟨others, locked, room⟩ := room
  by_cases own : k = listId
  · subst own
    refine .inr (.inl ⟨locked, ?_⟩)
    change (itemCount c k + (items cap).gainOf k log : Int) ≤ cap
    omega
  · exact .inl (others k own)

private theorem ensures_insertItems (listId : Uuid) (new : List ListItem) (n : Nat)
    (on : ∀ li ∈ new, li.listId = listId) :
    EnsuresItems caps q (ItemRoom caps.itemsPerList listId (new.length + n)) (insertItems new)
      fun _ => ItemRoom caps.itemsPerList listId n := by
  refine Meter.ensures_write (stable_itemRoom listId _) ?_
  intro c₁ c₂ log locks held ws a _ h₂ m hact
  simp only [Option.ite_none_right_eq_some, Option.some.injEq, Prod.mk.injEq] at hact
  obtain ⟨⟨keyed, fresh⟩, rfl, -⟩ := hact
  have room := itemRoom_insert new on h₂.2 fun r hr => (m.held r).mpr (.inl hr)
  refine ⟨Meter.replays_inserts lawful_items (fun _ => rfl) keyed fresh, fun w hw ch hch => ?_,
    fits_itemRoom room, room⟩
  obtain ⟨li, hli, rfl⟩ := List.mem_map.mp hw
  obtain rfl := Option.some.inj hch
  exact (m.held _).mpr (.inr (List.mem_map_of_mem hli))

private theorem ensures_insertItem (li : ListItem) (n : Nat) :
    EnsuresItems caps q (ItemRoom caps.itemsPerList li.listId (n + 1)) (insertItem li)
      fun _ => ItemRoom caps.itemsPerList li.listId n := by
  refine Meter.ensures_write (stable_itemRoom li.listId _) ?_
  intro c₁ c₂ log locks held ws a _ h₂ m hact
  simp only [Option.ite_none_right_eq_some, Option.some.injEq, Prod.mk.injEq] at hact
  obtain ⟨fresh, rfl, -⟩ := hact
  have room : ItemRoom caps.itemsPerList li.listId n c₂ (log ++ [.insertItem li]) held := by
    refine itemRoom_insert [li] (by simp) ?_ fun r hr => (m.held r).mpr (.inl hr)
    rw [List.length_singleton, Nat.add_comm]
    exact h₂.2
  refine ⟨⟨fun ch hch => ?_, trivial⟩, fun w hw ch hch => ?_, fits_itemRoom room, room⟩
  · obtain rfl := Option.some.inj hch
    exact fresh
  · rw [List.mem_singleton.mp hw] at hch
    obtain rfl := Option.some.inj hch
    exact (m.held _).mpr (.inr (List.mem_singleton.mpr rfl))

private theorem ensures_insertAll (listId : Uuid) (new : List ListItem)
    (on : ∀ li ∈ new, li.listId = listId) :
    EnsuresItems caps q (ItemRoom caps.itemsPerList listId new.length) (new.forM insertItem)
      fun _ => ItemRoom caps.itemsPerList listId 0 := by
  induction new with
  | nil => exact triple_pure fun _ _ _ _ h => h
  | cons li new ih =>
    have first : EnsuresItems caps q (ItemRoom caps.itemsPerList listId (new.length + 1))
        (insertItem li) fun _ => ItemRoom caps.itemsPerList listId new.length := by
      rw [← on li List.mem_cons_self]
      exact ensures_insertItem li new.length
    show EnsuresItems caps q (ItemRoom caps.itemsPerList listId (new.length + 1))
      (insertItem li >>= fun _ => new.forM insertItem) _
    exact first.bind fun _ => ih fun x hx => on x (List.mem_cons_of_mem li hx)

/-- A list that was just inserted has room for as many items as the cap allows. -/
private theorem ensures_insertList (userId groupId listId : Uuid) {n : Nat}
    (few : (n : Int) ≤ caps.itemsPerList) :
    EnsuresItems caps q (items caps.itemsPerList).Idle (insertList userId groupId listId)
      fun _ => ItemRoom caps.itemsPerList listId n := by
  refine Meter.ensures_aside Meter.stable_idle ?_
  intro c₁ c₂ log locks held ws a _ idle m hact
  cases hg : lookup Group.id groupId ((engine caps).view c₁ log).directory.groups with
  | none => simp [hg] at hact
  | some g =>
    simp only [hg, Option.bind_eq_bind, Option.bind_some, Option.ite_none_right_eq_some,
      Option.some.injEq, Prod.mk.injEq] at hact
    obtain ⟨⟨-, unused⟩, rfl, -⟩ := hact
    have gains (k : Uuid) : (items caps.itemsPerList).gainOf k (log ++
        [.insertList ⟨listId, groupId, userId, .open, g.defaultTipPct, none⟩]) = 0 := by
      rw [Meter.gainOf_append, Meter.idle_gainOf idle k]
      rfl
    have rows : ((engine caps).view c₂ log).listItems = c₂.listItems :=
      Meter.idle_rows (M := items caps.itemsPerList) lawful_items idle
    have none_yet : itemCount c₂ listId = 0 := by
      unfold itemCount
      rw [List.countP_eq_zero, ← rows]
      simpa using unused
    refine ⟨by simp [items], fun k _ => gains k,
      (m.held _).mpr (.inr (List.mem_singleton.mpr rfl)), ?_⟩
    rw [gains listId, none_yet]
    push_cast
    omega

private theorem ensures_lockList (listId : Uuid) :
    EnsuresItems caps q (items caps.itemsPerList).Idle (lockList listId)
      fun _ c log locks => (items caps.itemsPerList).Idle c log locks ∧ .list listId ∈ locks := by
  refine Meter.ensures_aside Meter.stable_idle ?_
  intro c₁ c₂ log locks held ws a _ idle m hact
  simp only [Option.ite_none_left_eq_some, Option.some.injEq, Prod.mk.injEq] at hact
  obtain ⟨found, rfl, -⟩ := hact
  rw [List.append_nil]
  refine ⟨by simp, idle, (m.held _).mpr (.inr ?_)⟩
  cases hl : ((engine caps).view c₁ log).list? listId with
  | none => simp [hl] at found
  | some l =>
    obtain ⟨-, rfl⟩ := lookup_mem hl
    exact List.mem_singleton.mpr rfl

private theorem ensures_checkItemsQuota (listId : Uuid) (n : Nat) :
    EnsuresItems caps q
      (fun c log locks => (items caps.itemsPerList).Idle c log locks ∧ .list listId ∈ locks)
      (checkItemsQuota listId n caps.itemsPerList)
      fun _ => ItemRoom caps.itemsPerList listId n := by
  have locked : Stable ((items caps.itemsPerList).terms (@lawful_items caps))
      fun c log locks => (items caps.itemsPerList).Idle c log locks ∧ .list listId ∈ locks :=
    ⟨fun _ _ h _ => h, fun same h => ⟨h.1, (same _).mpr h.2⟩⟩
  refine Triple.imp (Meter.ensures_query locked (fun _ => stable_itemRoom listId n) ?_)
    (fun _ _ _ _ hA => hA) fun _ _ _ _ _ hA => ⟨hA.1, hA.2.2⟩
  rintro a c log locks - ⟨idle, held⟩ hq
  have below := require_eq_ok.mp hq
  have rows : ((engine caps).view c log).listItems = c.listItems :=
    Meter.idle_rows (M := items caps.itemsPerList) lawful_items idle
  unfold itemCount at below
  rw [rows] at below
  refine ⟨fun k _ => Meter.idle_gainOf idle k, held, ?_⟩
  rw [Meter.idle_gainOf idle listId]
  unfold itemCount
  push_cast
  omega

private theorem ensures_deleteItems (p : ListItem → Bool) :
    EnsuresItems caps q (items caps.itemsPerList).Idle (deleteItems p) fun _ _ _ _ => True := by
  refine Meter.ensures_deletes .deleteItem (fun _ => rfl) ?_
  intro st s ws a hact
  obtain ⟨rfl, -⟩ := Prod.mk.inj (Option.some.inj hact)
  refine ⟨_, rfl, fun li hli => ?_⟩
  simp only [Bool.and_eq_true, decide_eq_true_eq] at hli
  exact hli.2

private theorem ensures_lockItem (listId itemId : Uuid) :
    EnsuresItems caps q (items caps.itemsPerList).Idle (lockItem listId itemId)
      fun _ => (items caps.itemsPerList).Idle := by
  refine Meter.ensures_idle fun st s ws a hact => ?_
  simp only [Option.ite_none_left_eq_some, Option.map_eq_some_iff, Prod.mk.injEq] at hact
  obtain ⟨-, li, -, rfl, -⟩ := hact
  simp

private theorem ensures_updateList (listId groupId : Uuid) (status : Option ListStatus) :
    EnsuresItems caps q (items caps.itemsPerList).Idle (updateList listId groupId status)
      fun _ => (items caps.itemsPerList).Idle := by
  refine Meter.ensures_idle fun st s ws a hact => ?_
  obtain ⟨rfl, -⟩ := Prod.mk.inj (Option.some.inj hact)
  intro w hw
  obtain ⟨l, -, rfl⟩ := Option.map_eq_some_iff.mp (Option.mem_toList.mp hw)
  rfl

private theorem ensures_dropList (listId groupId : Uuid) :
    EnsuresItems caps q (items caps.itemsPerList).Idle (dropList listId groupId)
      fun _ => (items caps.itemsPerList).Idle := by
  refine Meter.ensures_idle fun st s ws a hact => ?_
  simp only [Option.ite_none_left_eq_some, Option.map_eq_some_iff, Prod.mk.injEq] at hact
  obtain ⟨-, l, -, rfl, -⟩ := hact
  simp [items]

/-- Every list request writes items it holds, and adds them only where it has room. -/
private theorem ensures_program (q : ListRequest) :
    EnsuresItems caps q (items caps.itemsPerList).Idle (program caps q) fun _ _ _ _ => True := by
  have idle : Stable ((items caps.itemsPerList).terms (@lawful_items caps))
      (items caps.itemsPerList).Idle := Meter.stable_idle
  have weaken {F : Assertion Db Write Row} {p : Program PUnit} {listId : Uuid}
      (h : EnsuresItems caps q F p fun _ => ItemRoom caps.itemsPerList listId 0) :
      EnsuresItems caps q F p fun _ _ _ _ => True :=
    h.imp (fun _ _ _ _ hA => hA) fun _ _ _ _ _ hA => ⟨hA.1, trivial⟩
  have noted (w : Write) (aside : (items caps.itemsPerList).change w = none) :
      EnsuresItems caps q (items caps.itemsPerList).Idle (.note w)
        fun _ => (items caps.itemsPerList).Idle := by
    refine Meter.ensures_idle fun st s ws a hact => ?_
    obtain ⟨rfl, -⟩ := Prod.mk.inj (Option.some.inj hact)
    simpa using aside
  cases q with
  | create userId groupId lines listId itemIds =>
    refine (Meter.ensures_read idle).bind fun _ => Meter.ensures_check.bind fun _ =>
      triple_checked fun _ few => ?_
    refine (noted (.counting groupId) rfl).bind fun _ => (Meter.ensures_read idle).bind fun _ => ?_
    refine weaken ((ensures_insertList userId groupId listId (n := (newItems listId userId lines
      itemIds).length) ?_).bind fun _ => ensures_insertAll listId _ ?_)
    · have few := require_eq_ok.mp few
      have : (newItems listId userId lines itemIds).length ≤ lines.length := by
        simp [newItems]
      omega
    · intro li hli
      obtain ⟨id, -, n, -, rfl⟩ := mem_newItems hli
      rfl
  | addItems userId listId lines itemIds =>
    refine (Meter.ensures_read idle).bind fun _ => Meter.ensures_check.bind fun _ =>
      Meter.ensures_check.bind fun _ => (ensures_lockList listId).bind fun _ =>
        (ensures_checkItemsQuota listId lines.length).bind fun _ => ?_
    have fewer : (newItems listId userId lines itemIds).length ≤ lines.length := by
      simp [newItems]
    refine weaken (Triple.imp (ensures_insertItems listId (newItems listId userId lines itemIds) 0
      fun li hli => ?_) (fun c log locks _ h => ⟨h.1, h.2.1, h.2.2.1, ?_⟩) fun _ _ _ _ _ h => h)
    · obtain ⟨id, -, n, -, rfl⟩ := mem_newItems hli
      rfl
    · have := h.2.2.2
      omega
  | deleteItem userId listId itemId =>
    have locked : EnsuresItems caps (.deleteItem userId listId itemId)
        (items caps.itemsPerList).Idle (lockList listId) fun _ => (items caps.itemsPerList).Idle :=
      (ensures_lockList listId).imp (fun _ _ _ _ h => h) fun _ _ _ _ _ h => ⟨h.1, h.2.1⟩
    refine (Meter.ensures_read idle).bind fun _ => Meter.ensures_check.bind fun _ =>
      locked.bind fun _ => ?_
    exact (ensures_lockItem listId itemId).bind fun _ => Meter.ensures_check.bind fun _ =>
      ensures_deleteItems _
  | patchList userId listId status =>
    refine (Meter.ensures_read idle).bind fun _ => Meter.ensures_check.bind fun _ => ?_
    exact (ensures_updateList listId _ status).imp (fun _ _ _ _ h => h)
      fun _ _ _ _ _ h => ⟨h.1, trivial⟩
  | deleteList userId listId =>
    exact (Meter.ensures_read idle).bind fun _ => Meter.ensures_check.bind fun _ =>
      (ensures_dropList listId _).bind fun _ => ensures_deleteItems _

end Programs

end JitaCart.Concurrent.Lists

namespace JitaCart.Concurrent.Quotas

open Schema Base.Table Base.Request Base.ReadCommitted

/-- From a state within the caps, no interleaving of group requests gives a user more memberships
than `groups_per_user`, and none of list requests gives a list more items than `items_per_list`. -/
theorem locked_caps_hold (groupsPerUser : Int) (caps : Lists.Caps) {roster : Groups.Roster}
    {db : Db} (members : Keyed Groups.membershipKey roster.groupMemberships)
    (joined : ∀ userId, (Groups.memberCount roster userId : Int) ≤ groupsPerUser)
    (rows : Keyed ListItem.id db.listItems)
    (listed : ∀ listId, (Lists.itemCount db listId : Int) ≤ caps.itemsPerList) :
    (∀ (as : List (Action Groups.Row Groups.GroupRequest)) (userId : Uuid),
      (Groups.memberCount (run (step (Groups.engine groupsPerUser)) ⟨roster, []⟩ as).committed
        userId : Int) ≤ groupsPerUser) ∧
    ∀ (as : List (Action Lists.Row Lists.ListRequest)) (listId : Uuid),
      (Lists.itemCount (run (step (Lists.engine caps)) ⟨db, []⟩ as).committed listId : Int) ≤
        caps.itemsPerList := by
  constructor
  · intro as userId
    have sound := Meter.sound (K := fun _ => True) (@Groups.exclusive groupsPerUser)
      fun q _ => Groups.begins q
    exact (Meter.within_any_run sound (fun _ _ => trivial) (fun _ _ bare => bare)
      ⟨members, joined⟩ as).below userId
  · intro as listId
    have sound := Meter.sound (K := fun _ => True)
      (@Lists.exclusive_items caps.itemsPerList) fun q _ =>
        Meter.begins_of_ensures (fun _ w hw => absurd hw List.not_mem_nil)
          (@Lists.ensures_program caps q)
    exact (Meter.within_any_run sound (fun _ _ => trivial) (fun _ _ bare => bare)
      ⟨rows, listed⟩ as).below listId

/-- Two users of one group, and a list with one item. -/
def smallRoster : Groups.Roster where
  users := [1, 2]
  groups := [⟨1, "code"⟩]
  groupMemberships := [⟨1, 1, .owner⟩, ⟨2, 1, .member⟩]

def smallLists : Db where
  lists := [⟨1, 1, 1, .open, 0, none⟩]
  listItems := [⟨1, 1, 34, "Tritanium", 5, 0, 1, .open, 1⟩]

theorem locked_caps_hold_small :
    (∀ (as : List (Action Groups.Row Groups.GroupRequest)) (userId : Uuid),
      (Groups.memberCount (run (step (Groups.engine 1)) ⟨smallRoster, []⟩ as).committed
        userId : Int) ≤ 1) ∧
    ∀ (as : List (Action Lists.Row Lists.ListRequest)) (listId : Uuid),
      (Lists.itemCount (run (step (Lists.engine ⟨1, 1⟩)) ⟨smallLists, []⟩ as).committed
        listId : Int) ≤ 1 := by
  refine locked_caps_hold 1 ⟨1, 1⟩ (by decide) (fun userId => ?_) (by decide) fun listId => ?_
  · by_cases first : (1 : Nat) = userId
    · subst first
      decide
    · by_cases second : (2 : Nat) = userId
      · subst second
        decide
      · simp [Groups.memberCount, smallRoster, first, second]
  · by_cases only : (1 : Nat) = listId
    · subst only
      decide
    · simp [Lists.itemCount, smallLists, only]

end JitaCart.Concurrent.Quotas
