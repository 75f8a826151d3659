/- module: JitaCart/Concurrent/Polling
   source: backend/crates/api/src/corps.rs (link_corp, unlink_corp),
     backend/crates/api/src/groups.rs (delete_group), backend/crates/worker/src/jobs/corp_contracts.rs
   digest: When a corp is polled exactly while a group links it. -/

import JitaCart.Concurrent.Corps

/-!
The switch of a corp follows the count of its active links. An unlink decides it
from a count that others may change before it commits, and a deleted group takes
its links away without looking at the switch.
-/

set_option autoImplicit false
set_option relaxedAutoImplicit false

namespace JitaCart.Concurrent.Corps

open Schema Base.Table Base.Request Base.ReadCommitted Api.Corps

def Linked (s : Registry) (corpId : Uuid) : Prop :=
  ∃ l ∈ s.groupCorps, l.corpId = corpId ∧ l.active = true

instance (s : Registry) (corpId : Uuid) : Decidable (Linked s corpId) := by
  unfold Linked
  infer_instance

/-- A corp is enabled exactly while a group links it. -/
def Switched (s : Registry) : Prop :=
  ∀ corp ∈ s.corps, corp.disabledAt = none ↔ Linked s corp.id

instance (s : Registry) : Decidable (Switched s) := by
  unfold Switched
  infer_instance

/-- The keys of the tables, and the reference of a link to its corp. -/
structure Rooted (s : Registry) : Prop where
  ids : Keyed Corp.id s.corps
  corps : Keyed Corp.esiCorporationId s.corps
  links : Keyed CorpLink.key s.groupCorps
  refs : ∀ l ∈ s.groupCorps, ∃ corp ∈ s.corps, corp.id = l.corpId

/-- What others leave alone for a transaction that holds these rows. -/
structure Kept (locks : List Row) (s s' : Registry) : Prop where
  corps : Agrees Corp.id Corp.esiCorporationId (fun k => .corp k ∈ locks)
    (fun i => .corpPk i ∈ locks) s.corps s'.corps
  links : ∀ key, .link key ∈ locks → linkOf s' key = linkOf s key

def Owned (locks : List Row) : Write → Prop
  | .putCorp before after => .corp after.esiCorporationId ∈ locks ∧
      (before = none → .corpPk after.id ∈ locks)
  | .putLink l => .link l.key ∈ locks
  | .dropLink l => .link l.key ∈ locks
  | _ => True

def Lands (w : Write) (s : Registry) : Prop :=
  match w with
  | .putCorp before after => corpOf s after.esiCorporationId = before ∧
      Succeeds Corp.id Corp.esiCorporationId s.corps after
  | .putLink l => ∃ corp ∈ s.corps, corp.id = l.corpId
  | .dropLink l => linkOf s l.key = some l
  | _ => True

private theorem Kept.refl (locks : List Row) (s : Registry) :
    Kept locks s s := ⟨.refl _, fun _ _ => rfl⟩

private theorem linkOf_putLink (after : CorpLink) (s : Registry) (key : Uuid × Uuid) :
    linkOf (redo (.putLink after) s) key = if key = after.key then some after else linkOf s key :=
  lookup_replace_some key

private theorem linkOf_dropLink (l : CorpLink) (s : Registry) (key : Uuid × Uuid) :
    linkOf (redo (.dropLink l) s) key = if key = l.key then none else linkOf s key :=
  lookup_replace (fun r hr => by cases hr) key

private theorem lands_kept {locks : List Row} {w : Write} {s s' : Registry} (own : Owned locks w)
    (h : Lands w s) (kept : Kept locks s s') : Lands w s' := by
  cases w with
  | putCorp before after =>
    refine ⟨(kept.corps.rows _ own.1).trans h.1, kept.corps.succeeds h.2 own.1 fun fresh => ?_⟩
    exact own.2 (h.1.symm.trans fresh)
  | putLink l =>
    obtain ⟨corp, hcorp, id⟩ := h
    obtain ⟨corp', hcorp', id', -⟩ := kept.corps.stay corp hcorp
    exact ⟨corp', hcorp', id'.trans id⟩
  | dropLink l => exact (kept.links _ own).trans h
  | deleteGroup _ => trivial
  | dropMembership _ => trivial
  | insertPrincipal _ => trivial
  | putAmbassador _ => trivial
  | counting _ _ => trivial

private theorem rooted_redo {w : Write} {s : Registry} (good : Rooted s) (h : Lands w s) :
    Rooted (redo w s) := by
  cases w with
  | putCorp before after =>
    refine ⟨h.2.ids good.ids good.corps, keyed_replace_some good.corps, good.links,
      fun l hl => ?_⟩
    obtain ⟨corp, hcorp, id⟩ := good.refs l hl
    have stays : Agrees Corp.id Corp.esiCorporationId (fun _ => False) (fun _ => False) s.corps
        (redo (.putCorp before after) s).corps :=
      .of_put good.ids good.corps h.2 (fun _ no => no.elim) fun _ no => no
    obtain ⟨corp', hcorp', id', -⟩ := stays.stay corp hcorp
    exact ⟨corp', hcorp', id'.trans id⟩
  | putLink l =>
    refine ⟨good.ids, good.corps, keyed_replace_some good.links, fun l' hl' => ?_⟩
    rcases mem_replace_some.mp hl' with ⟨old, -⟩ | rfl
    · exact good.refs l' old
    · exact h
  | dropLink l =>
    refine ⟨good.ids, good.corps, keyed_replace good.links (fun r hr => nomatch hr),
      fun l' hl' => ?_⟩
    rcases mem_replace.mp hl' with ⟨old, -⟩ | none
    · exact good.refs l' old
    · cases none
  | deleteGroup _ => exact ⟨good.ids, good.corps, good.links, good.refs⟩
  | dropMembership _ => exact ⟨good.ids, good.corps, good.links, good.refs⟩
  | insertPrincipal _ => exact ⟨good.ids, good.corps, good.links, good.refs⟩
  | putAmbassador _ => exact ⟨good.ids, good.corps, good.links, good.refs⟩
  | counting _ _ => exact good

/-- The discipline of the rows of corps and links. -/
def rows : Discipline engine where
  good := Rooted
  same := Kept
  own _ := Owned
  ok := Lands
  refl := Kept.refl
  trans h h' := ⟨h.corps.trans h'.corps, fun k hk => (h'.links k hk).trans (h.links k hk)⟩
  mono sub h := ⟨h.corps.mono (fun _ => sub _) fun _ => sub _, fun k hk => h.links k (sub _ hk)⟩
  own_mono := by
    intro _ few many w sub h
    cases w with
    | putCorp before after => exact ⟨sub _ h.1, fun new => sub _ (h.2 new)⟩
    | putLink l => exact sub _ h
    | dropLink l => exact sub _ h
    | deleteGroup _ => trivial
    | dropMembership _ => trivial
    | insertPrincipal _ => trivial
    | putAmbassador _ => trivial
    | counting _ _ => trivial
  ok_same _ _ own ok same := lands_kept own ok same
  redo_same := by
    intro _ locks w s s' good good' own ok same
    cases w with
    | putCorp before after =>
      exact ⟨same.corps.put good.ids good.corps good'.ids good'.corps ok.2
        (lands_kept own ok same).2, same.links⟩
    | putLink l =>
      refine ⟨same.corps, fun k hk => ?_⟩
      exact (linkOf_putLink l s' k).trans (same.links k hk ▸ (linkOf_putLink l s k).symm)
    | dropLink l =>
      refine ⟨same.corps, fun k hk => ?_⟩
      exact (linkOf_dropLink l s' k).trans (same.links k hk ▸ (linkOf_dropLink l s k).symm)
    | deleteGroup _ => exact ⟨same.corps, same.links⟩
    | dropMembership _ => exact ⟨same.corps, same.links⟩
    | insertPrincipal _ => exact ⟨same.corps, same.links⟩
    | putAmbassador _ => exact ⟨same.corps, same.links⟩
    | counting _ _ => exact same
  good_redo := rooted_redo
  frame := by
    intro _ locks others w s good own ok apart
    cases w with
    | putCorp before after =>
      refine ⟨.of_put good.ids good.corps ok.2 (fun k held same => ?_) fun fresh held => ?_,
        fun _ _ => rfl⟩
      · exact apart _ held (same ▸ own.1)
      · exact apart _ held (own.2 (ok.1.symm.trans fresh))
    | putLink l =>
      refine ⟨.refl _, fun k held => (linkOf_putLink l s k).trans (if_neg fun same => ?_)⟩
      exact apart _ held (same ▸ own)
    | dropLink l =>
      refine ⟨.refl _, fun k held => (linkOf_dropLink l s k).trans (if_neg fun same => ?_)⟩
      exact apart _ held (same ▸ own)
    | deleteGroup _ => exact ⟨.refl _, fun _ _ => rfl⟩
    | dropMembership _ => exact ⟨.refl _, fun _ _ => rfl⟩
    | insertPrincipal _ => exact ⟨.refl _, fun _ _ => rfl⟩
    | putAmbassador _ => exact ⟨.refl _, fun _ _ => rfl⟩
    | counting _ _ => exact Kept.refl others s

def activeAt (s : Registry) (key : Uuid × Uuid) : Bool := (linkOf s key).any (·.active)

private theorem linked_iff {s : Registry} (good : Rooted s) {corpId : Uuid} :
    Linked s corpId ↔ ∃ groupId, activeAt s (groupId, corpId) = true := by
  constructor
  · rintro ⟨l, hl, rfl, active⟩
    refine ⟨l.groupId, ?_⟩
    have current : linkOf s (l.groupId, l.corpId) = some l :=
      (lookup_eq_some good.links).mpr ⟨hl, rfl⟩
    simpa [activeAt, current] using active
  · rintro ⟨groupId, active⟩
    unfold activeAt at active
    cases hl : linkOf s (groupId, corpId) with
    | none => simp [hl] at active
    | some l =>
      obtain ⟨mem, key⟩ := lookup_mem hl
      exact ⟨l, mem, (Prod.mk.inj key).2, by simpa [hl] using active⟩

/-- The write may change which groups link the corp. -/
def moves (corpId : Uuid) : Write → Bool
  | .putLink l => decide (l.corpId = corpId)
  | .dropLink l => decide (l.corpId = corpId) && l.active
  | _ => false

/-- The log neither writes the corp's row nor gives it an active link. -/
def Quiet (corpId : Uuid) (log : List Write) : Prop :=
  ∀ w ∈ log, (∀ b a, w = .putCorp b a → a.id ≠ corpId) ∧
    ∀ l, w = .putLink l → l.corpId = corpId → l.active = false

/-- The links that the log writes are links of one group that it deletes. -/
def Drops (groupId : Uuid) (log : List Write) : Prop :=
  ∀ w ∈ log, (∀ b a, w ≠ .putCorp b a) ∧ (∀ l, w ≠ .putLink l) ∧
    ∀ l, w = .dropLink l → l.groupId = groupId

private theorem Drops.quiet {groupId : Uuid} {log : List Write} (h : Drops groupId log)
    (corpId : Uuid) :
    Quiet corpId log :=
  fun w hw => ⟨fun b a same => absurd same ((h w hw).1 b a),
    fun l same => absurd same ((h w hw).2.1 l)⟩

private theorem activeAt_redo (w : Write) (s : Registry) (key : Uuid × Uuid) :
    activeAt (redo w s) key =
      match w with
      | .putLink l => if key = l.key then l.active else activeAt s key
      | .dropLink l => if key = l.key then false else activeAt s key
      | _ => activeAt s key := by
  unfold activeAt
  cases w with
  | putLink l =>
    rw [linkOf_putLink]
    dsimp only
    split <;> rfl
  | dropLink l =>
    rw [linkOf_dropLink]
    dsimp only
    split <;> rfl
  | putCorp _ _ => rfl
  | deleteGroup _ => rfl
  | dropMembership _ => rfl
  | insertPrincipal _ => rfl
  | putAmbassador _ => rfl
  | counting _ _ => rfl

private theorem activeAt_view_congr {s s' : Registry} {key : Uuid × Uuid} (log : List Write)
    (same : activeAt s' key = activeAt s key) :
    activeAt (engine.view s' log) key = activeAt (engine.view s log) key := by
  induction log generalizing s s' with
  | nil => exact same
  | cons w log ih =>
    refine ih ?_
    show activeAt (redo w s') key = activeAt (redo w s) key
    rw [activeAt_redo, activeAt_redo, same]

/-- A log that does not move a corp's links leaves them as they are. -/
private theorem activeAt_view_still {s : Registry} {groupId corpId : Uuid} {log : List Write}
    (replays : rows.Replays log s) (still : ∀ w ∈ log, moves corpId w = false) :
    activeAt (engine.view s log) (groupId, corpId) = activeAt s (groupId, corpId) := by
  induction log generalizing s with
  | nil => rfl
  | cons w log ih =>
    refine (ih replays.2 fun x hx => still x (List.mem_cons_of_mem w hx)).trans ?_
    have first := still w List.mem_cons_self
    refine (activeAt_redo w s _).trans ?_
    cases w with
    | putLink l =>
      refine if_neg fun same => ?_
      exact of_decide_eq_false first (Prod.mk.inj same).2.symm
    | dropLink l =>
      dsimp only
      split
      · rename_i same
        have current : linkOf s l.key = some l := replays.1
        have own : l.corpId = corpId := (Prod.mk.inj same).2.symm
        rw [same]
        simpa [activeAt, current, moves, own] using first.symm
      · rfl
    | putCorp _ _ => rfl
    | deleteGroup _ => rfl
    | dropMembership _ => rfl
    | insertPrincipal _ => rfl
    | putAmbassador _ => rfl
    | counting _ _ => rfl

private theorem activeAt_of_quiet {s : Registry} {groupId corpId : Uuid} {log : List Write}
    (quiet : Quiet corpId log) (active : activeAt (engine.view s log) (groupId, corpId) = true) :
    activeAt s (groupId, corpId) = true := by
  induction log generalizing s with
  | nil => exact active
  | cons w log ih =>
    have rest : activeAt (redo w s) (groupId, corpId) = true :=
      ih (fun x hx => quiet x (List.mem_cons_of_mem w hx)) active
    rw [activeAt_redo] at rest
    cases w with
    | putLink l =>
      dsimp only at rest
      split at rest
      · rename_i same
        have off := (quiet _ List.mem_cons_self).2 l rfl (Prod.mk.inj same).2.symm
        simp [off] at rest
      · exact rest
    | dropLink l =>
      dsimp only at rest
      split at rest
      · cases rest
      · exact rest
    | putCorp _ _ => exact rest
    | deleteGroup _ => exact rest
    | dropMembership _ => exact rest
    | insertPrincipal _ => exact rest
    | putAmbassador _ => exact rest
    | counting _ _ => exact rest

private theorem mem_corps_view {s : Registry} {corp : Corp} {log : List Write} (good : Rooted s)
    (replays : rows.Replays log s)
    (other : ∀ w ∈ log, ∀ b a, w = .putCorp b a → a.id ≠ corp.id) :
    corp ∈ (engine.view s log).corps ↔ corp ∈ s.corps := by
  induction log generalizing s with
  | nil => rfl
  | cons w log ih =>
    refine (ih (rooted_redo good replays.1) replays.2
      fun x hx => other x (List.mem_cons_of_mem w hx)).trans ?_
    cases w with
    | putCorp before after =>
      have apart := other _ List.mem_cons_self before after rfl
      exact replays.1.2.mem_iff good.ids good.corps (Ne.symm apart)
    | putLink _ => rfl
    | dropLink _ => rfl
    | deleteGroup _ => rfl
    | dropMembership _ => rfl
    | insertPrincipal _ => rfl
    | putAmbassador _ => rfl
    | counting _ _ => rfl

/-- No group of the user has an active link to the corp. -/
def Unseen (userId corpId : Uuid) (s : Registry) : Prop :=
  ∀ groupId, activeAt s (groupId, corpId) = true → isGroupMember s userId groupId = false

private theorem isCorpMember_iff {s : Registry} (good : Rooted s) {userId corpId : Uuid} :
    isCorpMember s userId corpId = false ↔ Unseen userId corpId s := by
  unfold Unseen
  rw [← Bool.not_eq_true, ← not_iff_not]
  push Not
  simp only [isCorpMember, List.any_eq_true, Bool.and_eq_true, decide_eq_true_eq, ne_eq,
    Bool.not_eq_false]
  constructor
  · rintro ⟨l, hl, ⟨rfl, active⟩, member⟩
    have current : linkOf s (l.groupId, l.corpId) = some l :=
      (lookup_eq_some good.links).mpr ⟨hl, rfl⟩
    exact ⟨l.groupId, by simpa [activeAt, current] using active, member⟩
  · rintro ⟨groupId, active, member⟩
    unfold activeAt at active
    cases hl : linkOf s (groupId, corpId) with
    | none => simp [hl] at active
    | some l =>
      obtain ⟨mem, key⟩ := lookup_mem hl
      obtain ⟨rfl, own⟩ := Prod.mk.inj key
      exact ⟨l, mem, ⟨own, by simpa [hl] using active⟩, member⟩

def Shrinks (s s' : Registry) : Prop := ∀ m ∈ s'.groupMemberships, m ∈ s.groupMemberships

private theorem Shrinks.isGroupMember {s s' : Registry} (sub : Shrinks s s') {userId groupId : Uuid}
    (outside : isGroupMember s userId groupId = false) :
    isGroupMember s' userId groupId = false := by
  unfold Api.Corps.isGroupMember at outside ⊢
  rw [List.any_eq_false] at outside ⊢
  exact fun m hm => outside m (sub m hm)

private theorem shrinks_redo (w : Write) (s : Registry) : Shrinks s (redo w s) := by
  cases w with
  | dropMembership _ => exact fun m hm => (List.mem_filter.mp hm).1
  | deleteGroup _ => exact fun m hm => hm
  | putCorp _ _ => exact fun m hm => hm
  | insertPrincipal _ => exact fun m hm => hm
  | putLink _ => exact fun m hm => hm
  | dropLink _ => exact fun m hm => hm
  | putAmbassador _ => exact fun m hm => hm
  | counting _ _ => exact fun m hm => hm

private theorem shrinks_view (log : List Write) (s : Registry) : Shrinks s (engine.view s log) := by
  induction log generalizing s with
  | nil => exact fun m hm => hm
  | cons w log ih => exact fun m hm => shrinks_redo w s m (ih (redo w s) m hm)

private theorem Shrinks.view {s s' : Registry} (sub : Shrinks s s') (log : List Write) :
    Shrinks (engine.view s log) (engine.view s' log) := by
  induction log generalizing s s' with
  | nil => exact sub
  | cons w log ih =>
    have first : Shrinks (redo w s) (redo w s') := by
      cases w with
      | dropMembership m =>
        intro x hx
        obtain ⟨mem, other⟩ := List.mem_filter.mp hx
        exact List.mem_filter.mpr ⟨sub x mem, other⟩
      | deleteGroup _ => exact sub
      | putCorp _ _ => exact sub
      | insertPrincipal _ => exact sub
      | putLink _ => exact sub
      | dropLink _ => exact sub
      | putAmbassador _ => exact sub
      | counting _ _ => exact sub
    exact ih first

/-- How a transaction ends for one corp: it has nothing to do with it, has linked and enabled it,
has counted links that remain, has seen none and disabled it, or has dropped a link with its
group. -/
inductive Outcome (corpId : Uuid) (c : Registry) (log : List Write) (locks : List Row) : Prop
  | apart (still : ∀ w ∈ log, moves corpId w = false)
      (other : ∀ w ∈ log, ∀ b a, w = .putCorp b a → a.id ≠ corpId)
  | linked (corp : Corp) (groupId : Uuid)
      (current : corpOf (engine.view c log) corp.esiCorporationId = some corp)
      (id : corp.id = corpId) (enabled : corp.disabledAt = none)
      (held : .corp corp.esiCorporationId ∈ locks) (heldLink : .link (groupId, corpId) ∈ locks)
      (active : activeAt (engine.view c log) (groupId, corpId) = true)
  | others (userId : Uuid) (counting : .counting corpId userId ∈ log) (quiet : Quiet corpId log)
      (groupId : Uuid) (active : activeAt (engine.view c log) (groupId, corpId) = true)
  | nobody (userId : Uuid) (counting : .counting corpId userId ∈ log) (corp : Corp)
      (unseen : Unseen userId corpId (engine.view c log))
      (current : corpOf (engine.view c log) corp.esiCorporationId = some corp)
      (id : corp.id = corpId) (disabled : corp.disabledAt ≠ none)
      (held : .corp corp.esiCorporationId ∈ locks)
  | dropped (groupId : Uuid) (drops : Drops groupId log) (l : CorpLink) (mem : .dropLink l ∈ log)
      (corp : l.corpId = corpId) (active : l.active = true)

/-- The switch is right in the committed states. A count is left alone by the others, a group is
deleted only where other groups link its corps, and whoever has counted sees a link if there is
one. -/
def polling : Promise rows where
  inv := Switched
  leaves log s s' := Shrinks s s' ∧ ∀ corpId userId, .counting corpId userId ∈ log →
    ∀ groupId, activeAt s' (groupId, corpId) = activeAt s (groupId, corpId)
  done _ c log locks := ∀ corpId, Outcome corpId c log locks
  cond _ _ _ _ := True
  ready c log := (∀ l, .dropLink l ∈ log → l.active = true → ∃ l' ∈ c.groupCorps,
      l'.corpId = l.corpId ∧ l'.active = true ∧ l'.groupId ≠ l.groupId) ∧
    ∀ corpId userId, .counting corpId userId ∈ log → Linked (engine.view c log) corpId →
      isCorpMember (engine.view c log) userId corpId = true
  clear log log' := ∀ corpId userId, (∃ w ∈ log, moves corpId w = true) →
    .counting corpId userId ∉ log'
  refl _ _ := ⟨fun _ h => h, fun _ _ _ _ => rfl⟩
  trans h h' := ⟨fun m hm => h.1 m (h'.1 m hm), fun corpId userId counting groupId =>
    (h'.2 corpId userId counting groupId).trans (h.2 corpId userId counting groupId)⟩
  done_rely := by
    intro q log locks c c' right good' _ same leaves done corpId
    have view : Kept locks (engine.view c log) (engine.view c' log) := right.view_same good' same
    cases done corpId with
    | apart still other => exact .apart still other
    | linked corp groupId current id enabled held heldLink active =>
      refine .linked corp groupId ((view.corps.rows _ held).trans current) id enabled held
        heldLink ?_
      unfold activeAt
      rw [view.links _ heldLink]
      exact active
    | others userId counting quiet groupId active =>
      refine .others userId counting quiet groupId ?_
      rw [activeAt_view_congr log (leaves.2 corpId userId counting groupId)]
      exact active
    | nobody userId counting corp unseen current id disabled held =>
      refine .nobody userId counting corp (fun groupId active => ?_)
        ((view.corps.rows _ held).trans current) id disabled held
      rw [activeAt_view_congr log (leaves.2 corpId userId counting groupId)] at active
      exact (leaves.1.view log).isGroupMember (unseen groupId active)
    | dropped groupId drops l mem corp active => exact .dropped groupId drops l mem corp active

private theorem activeAt_of_drops {c : Registry} {groupId other corpId : Uuid} {log : List Write}
    (drops : Drops groupId log) (apart : other ≠ groupId) :
    activeAt (engine.view c log) (other, corpId) = activeAt c (other, corpId) := by
  induction log generalizing c with
  | nil => rfl
  | cons w log ih =>
    refine (ih fun x hx => drops x (List.mem_cons_of_mem w hx)).trans ?_
    obtain ⟨noCorp, noLink, mine⟩ := drops w List.mem_cons_self
    refine (activeAt_redo w c _).trans ?_
    cases w with
    | putLink l => exact absurd rfl (noLink l)
    | dropLink l =>
      refine if_neg fun same => apart ?_
      rw [← mine l rfl]
      exact (Prod.mk.inj same).1
    | putCorp _ _ => rfl
    | deleteGroup _ => rfl
    | dropMembership _ => rfl
    | insertPrincipal _ => rfl
    | putAmbassador _ => rfl
    | counting _ _ => rfl

private theorem switched_commit {c : Registry} {log : List Write} {locks : List Row}
    {q : CorpRequest} (inv : Switched c) (right : rows.Right q c log locks)
    (done : ∀ corpId, Outcome corpId c log locks) (ready : polling.ready c log) :
    Switched (engine.view c log) := by
  intro corp hcorp
  have good : Rooted c := right.good
  have good' : Rooted (engine.view c log) := right.view
  -- Where the log is quiet and a link is left, the corp was linked and enabled before.
  have remains (groupId : Uuid) (quiet : Quiet corp.id log)
      (active : activeAt (engine.view c log) (groupId, corp.id) = true) :
      corp.disabledAt = none ↔ Linked (engine.view c log) corp.id := by
    have before : corp ∈ c.corps :=
      (mem_corps_view good right.replays fun w hw => (quiet w hw).1).mp hcorp
    have linked : Linked c corp.id :=
      (linked_iff good).mpr ⟨groupId, activeAt_of_quiet quiet active⟩
    exact iff_of_true ((inv corp before).mpr linked) ((linked_iff good').mpr ⟨groupId, active⟩)
  cases done corp.id with
  | apart still other =>
    have before : corp ∈ c.corps := (mem_corps_view good right.replays other).mp hcorp
    rw [inv corp before, linked_iff good, linked_iff good']
    simp only [activeAt_view_still right.replays still]
  | linked corp' groupId current id enabled held heldLink active =>
    have same : corp' = corp := good'.ids.eq_of_key (lookup_mem current).1 hcorp id
    subst same
    exact iff_of_true enabled ((linked_iff good').mpr ⟨groupId, active⟩)
  | others userId counting quiet groupId active => exact remains groupId quiet active
  | nobody userId counting corp' unseen current id disabled held =>
    have same : corp' = corp := good'.ids.eq_of_key (lookup_mem current).1 hcorp id
    subst same
    refine iff_of_false disabled fun linked => ?_
    have seen := ready.2 _ userId counting linked
    rw [(isCorpMember_iff good').mpr unseen] at seen
    cases seen
  | dropped groupId drops l mem own active =>
    obtain ⟨l', hl', sameCorp, active', otherGroup⟩ := ready.1 l mem active
    have mine := (drops _ mem).2.2 l rfl
    have at' : activeAt c (l'.groupId, corp.id) = true := by
      have current : linkOf c (l'.groupId, corp.id) = some l' := by
        refine (lookup_eq_some good.links).mpr ⟨hl', ?_⟩
        show (l'.groupId, l'.corpId) = (l'.groupId, corp.id)
        rw [sameCorp, own]
      simpa [activeAt, current] using active'
    refine remains l'.groupId (drops.quiet corp.id) ?_
    rw [activeAt_of_drops drops (mine ▸ otherGroup)]
    exact at'

section Programs
variable {q : CorpRequest} {α : Type}

def Aside : Write → Prop
  | .putCorp _ _ | .putLink _ | .dropLink _ => False
  | _ => True

private theorem aside_replays {ws : List Write} (aside : ∀ w ∈ ws, Aside w) (s : Registry) :
    rows.Replays ws s ∧ (engine.view s ws).corps = s.corps ∧
      (engine.view s ws).groupCorps = s.groupCorps := by
  induction ws generalizing s with
  | nil => exact ⟨trivial, rfl, rfl⟩
  | cons w ws ih =>
    obtain ⟨replays, corps, links⟩ := ih (fun x hx => aside x (List.mem_cons_of_mem w hx)) (redo w s)
    have first := aside w List.mem_cons_self
    cases w with
    | putCorp _ _ => exact first.elim
    | putLink _ => exact first.elim
    | dropLink _ => exact first.elim
    | deleteGroup _ => exact ⟨⟨trivial, replays⟩, corps, links⟩
    | dropMembership _ => exact ⟨⟨trivial, replays⟩, corps, links⟩
    | insertPrincipal _ => exact ⟨⟨trivial, replays⟩, corps, links⟩
    | putAmbassador _ => exact ⟨⟨trivial, replays⟩, corps, links⟩
    | counting _ _ => exact ⟨⟨trivial, replays⟩, corps, links⟩

/-- The assertion outlives statements that write other tables and lock more rows. -/
def Lasting (F : Assertion Registry Write Row) : Prop :=
  ∀ c log ws locks held, (∀ w ∈ ws, Aside w) → (∀ r ∈ locks, r ∈ held) → F c log locks →
    F c (log ++ ws) held

private theorem keeps_aside {F : Assertion Registry Write Row} {wants : Registry → List Row}
    {act : Statement Registry Row → Registry → Option (List Write × α)}
    (stable : Stable polling.terms (rows.With q F)) (lasting : Lasting F)
    (acts : ∀ st s ws a, act st s = some (ws, a) → ∀ w ∈ ws, Aside w) :
    polling.Keeps q F (.statement wants act) fun _ => F := by
  refine Promise.keeps_write stable fun c₁ c₂ log locks held ws a _ h₂ m hact => ?_
  have aside := acts _ _ ws a hact
  refine ⟨(aside_replays aside _).1, fun w hw => ?_,
    lasting c₂ log ws locks held aside (fun r hr => (m.held r).mpr (.inl hr)) h₂.2⟩
  have first := aside w hw
  cases w with
  | putCorp _ _ => exact first.elim
  | putLink _ => exact first.elim
  | dropLink _ => exact first.elim
  | deleteGroup _ => trivial
  | dropMembership _ => trivial
  | insertPrincipal _ => trivial
  | putAmbassador _ => trivial
  | counting _ _ => trivial

private theorem keeps_read {ε : Type} {F : Assertion Registry Write Row}
    {query : Registry → Except ε α}
    (stable : Stable polling.terms (rows.With q F)) (lasting : Lasting F) :
    polling.Keeps q F (Prog.select query) fun _ => F := by
  refine keeps_aside stable lasting fun st s ws a hact => ?_
  simp only [Option.map_eq_some_iff, Prod.mk.injEq] at hact
  obtain ⟨a, -, rfl, -⟩ := hact
  simp

private theorem keeps_ambassadors {F : Assertion Registry Write Row} {sees : Registry → Uuid → Bool}
    {p : Ambassador → Bool} {set : Ambassador → Ambassador} (stable : Stable polling.terms (rows.With q F))
    (lasting : Lasting F) : polling.Keeps q F (updateAmbassadors sees p set) fun _ => F := by
  refine keeps_aside stable lasting fun st s ws a hact w hw => ?_
  obtain ⟨rfl, -⟩ := Prod.mk.inj (Option.some.inj hact)
  obtain ⟨a, -, rfl⟩ := List.mem_map.mp hw
  trivial

def Fresh : Assertion Registry Write Row := fun _ log _ => log = []

private theorem stable_fresh : Stable polling.terms (rows.With q Fresh) :=
  Promise.stable_with ⟨fun _ _ h _ => h, fun _ h => h⟩

private theorem keeps_select_fresh {ε : Type} {query : Registry → Except ε α} :
    polling.Keeps q Fresh (Prog.select query) fun _ => Fresh := by
  refine Promise.keeps_write stable_fresh fun c₁ c₂ log locks held ws a _ h₂ m hact => ?_
  simp only [Option.map_eq_some_iff, Prod.mk.injEq] at hact
  obtain ⟨a, -, rfl, -⟩ := hact
  rw [List.append_nil]
  exact ⟨trivial, by simp, h₂.2⟩

private theorem keeps_requireOwner (userId groupId : Uuid) (denied : ApiError) :
    polling.Keeps q Fresh (requireOwner userId groupId denied) fun _ => Fresh :=
  keeps_select_fresh.bind fun _ => triple_check fun _ _ _ _ _ _ h => h

def Only (corpId : Uuid) (log : List Write) : Prop :=
  ∀ other, other ≠ corpId → (∀ w ∈ log, moves other w = false) ∧
    ∀ w ∈ log, ∀ b a, w = .putCorp b a → a.id ≠ other

private theorem Only.append {corpId : Uuid} {log ws : List Write} (h : Only corpId log)
    (h' : Only corpId ws) : Only corpId (log ++ ws) := by
  intro other hother
  obtain ⟨still, apart⟩ := h other hother
  obtain ⟨still', apart'⟩ := h' other hother
  exact ⟨fun w hw => (List.mem_append.mp hw).elim (still w) (still' w),
    fun w hw => (List.mem_append.mp hw).elim (apart w) (apart' w)⟩

private theorem only_aside {corpId : Uuid} {ws : List Write} (aside : ∀ w ∈ ws, Aside w) :
    Only corpId ws := by
  intro other _
  refine ⟨fun w hw => ?_, fun w hw b a same => ?_⟩
  · have first := aside w hw
    cases w <;> first | rfl | exact first.elim
  · have first := aside w hw
    rw [same] at first
    exact first.elim

/-- The corp is enabled in the transaction's view, which holds its row. -/
def Enabled (corpId : Uuid) : Assertion Registry Write Row := fun c log locks =>
  Only corpId log ∧ ∃ corp, corpOf (engine.view c log) corp.esiCorporationId = some corp ∧
    corp.id = corpId ∧ corp.disabledAt = none ∧ .corp corp.esiCorporationId ∈ locks

def Joined (corpId : Uuid) : Assertion Registry Write Row := fun c log locks =>
  Enabled corpId c log locks ∧ ∃ groupId, .link (groupId, corpId) ∈ locks ∧
    activeAt (engine.view c log) (groupId, corpId) = true

private theorem stable_enabled (corpId : Uuid) :
    Stable polling.terms (rows.With q (Enabled corpId)) := by
  have right : Stable polling.terms (rows.Right q) := Promise.stable_right
  constructor
  · intro c c' log locks good good' h change
    have view : Kept _ _ _ := h.1.view_same good'.1 change.1
    obtain ⟨only, corp, current, id, enabled, held⟩ := h.2
    exact ⟨right.rely good good' h.1 change, only, corp,
      (view.corps.rows _ held).trans current, id, enabled, held⟩
  · intro c log locks held same h
    obtain ⟨only, corp, current, id, enabled, mine⟩ := h.2
    exact ⟨right.same same h.1, only, corp, current, id, enabled, (same _).mpr mine⟩

private theorem stable_joined (corpId : Uuid) :
    Stable polling.terms (rows.With q (Joined corpId)) := by
  have enabled : Stable polling.terms (rows.With q (Enabled corpId)) := stable_enabled corpId
  constructor
  · intro c c' log locks good good' h change
    obtain ⟨first, groupId, held, active⟩ := h.2
    have view : Kept _ _ _ := h.1.view_same good'.1 change.1
    have next := enabled.rely good good' ⟨h.1, first⟩ change
    refine ⟨next.1, next.2, groupId, held, ?_⟩
    unfold activeAt
    rw [view.links _ held]
    exact active
  · intro c log locks held same h
    obtain ⟨first, groupId, mine, active⟩ := h.2
    have next := enabled.same same ⟨h.1, first⟩
    exact ⟨next.1, next.2, groupId, (same _).mpr mine, active⟩

private theorem lasting_enabled (corpId : Uuid) : Lasting (Enabled corpId) := by
  rintro c log ws locks held aside more ⟨only, corp, current, id, enabled, mine⟩
  refine ⟨only.append (only_aside aside), corp, ?_, id, enabled, more _ mine⟩
  unfold corpOf at current ⊢
  rw [view_append, (aside_replays aside _).2.1]
  exact current

private theorem lasting_joined (corpId : Uuid) : Lasting (Joined corpId) := by
  rintro c log ws locks held aside more ⟨first, groupId, mine, active⟩
  refine ⟨lasting_enabled corpId c log ws locks held aside more first, groupId, more _ mine, ?_⟩
  unfold activeAt linkOf at active ⊢
  rw [view_append, (aside_replays aside _).2.2]
  exact active

private theorem only_putCorp {corpId : Uuid} (before : Option Corp) {after : Corp}
    (own : after.id = corpId) : Only corpId [.putCorp before after] := by
  intro other hother
  refine ⟨by simp [moves], fun w hw b a same => ?_⟩
  rw [List.mem_singleton.mp hw] at same
  obtain ⟨-, rfl⟩ := Write.putCorp.inj same
  exact own ▸ Ne.symm hother

private theorem only_putLink {corpId : Uuid} {l : CorpLink} (own : l.corpId = corpId) :
    Only corpId [.putLink l] := by
  intro other hother
  have apart : l.corpId ≠ other := own ▸ Ne.symm hother
  exact ⟨by simp [moves, apart], by simp⟩

private theorem keeps_upsertCorp (esiCorporationId : Int) (info : CorpInfo) (newId : Uuid) :
    polling.Keeps q Fresh (upsertCorp esiCorporationId info newId)
      fun corpId => Enabled corpId := by
  refine Promise.keeps_write stable_fresh ?_
  rintro c₁ c₂ log locks held ws corpId - ⟨right, rfl⟩ m hact
  have mine : .corp esiCorporationId ∈ held := (m.held _).mpr (.inr List.mem_cons_self)
  obtain ⟨after, rfl, rfl, rfl, enabled, succeeds, pk⟩ := enabledCorp_eq_some hact
  refine ⟨⟨⟨rfl, succeeds⟩, trivial⟩, fun w hw => ?_, only_putCorp _ rfl, after, ?_, rfl, enabled,
    mine⟩
  · rw [List.mem_singleton.mp hw]
    exact ⟨mine, fun fresh => (m.held _).mpr (.inr (pk fresh))⟩
  · exact (lookup_replace_some _).trans (if_pos rfl)

private theorem keeps_upsertLink (groupId corpId userId : Uuid) (now : Timestamp) :
    polling.Keeps q (Enabled corpId) (upsertLink groupId corpId userId now)
      fun _ => Joined corpId := by
  refine Promise.keeps_write (stable_enabled corpId) ?_
  rintro c₁ c₂ log locks held ws a - ⟨right, only, corp, current, id, enabled, mine⟩ m hact
  have heldLink : .link (groupId, corpId) ∈ held := (m.held _).mpr (.inr List.mem_cons_self)
  obtain ⟨l, rfl, key, active⟩ := activeLink_eq_some hact
  have own : l.corpId = corpId := (Prod.mk.inj key).2
  refine ⟨⟨⟨corp, (lookup_mem current).1, id.trans own.symm⟩, trivial⟩, fun w hw => ?_,
    ⟨only.append (only_putLink own), corp, ?_, id, enabled, (m.held _).mpr (.inl mine)⟩, groupId,
    heldLink, ?_⟩
  · rw [List.mem_singleton.mp hw]
    show .link l.key ∈ held
    rw [key]
    exact heldLink
  · rw [view_append]
    exact current
  · rw [view_append]
    exact (activeAt_redo (.putLink l) _ _).trans ((if_pos key.symm).trans active)

private theorem keeps_linkCorp (k : Linking) :
    polling.Keeps q Fresh (linkCorp k) fun _ c log locks =>
      ∀ corpId, Outcome corpId c log locks := by
  refine (keeps_requireOwner _ _ _).bind fun _ => keeps_select_fresh.bind fun character =>
    triple_checked fun found _ => ?_
  refine (keeps_upsertCorp found.1 found.2 k.newCorpId).bind fun corpId => ?_
  have principal : polling.Keeps q (Enabled corpId) (insertPrincipal k.newPrincipalId corpId)
      fun _ => Enabled corpId := by
    refine keeps_aside (stable_enabled corpId) (lasting_enabled corpId) fun st s ws a hact => ?_
    split at hact
    · obtain ⟨rfl, -⟩ := Prod.mk.inj (Option.some.inj hact)
      simp [Aside]
    · obtain ⟨rfl, -⟩ := Prod.mk.inj (Option.some.inj hact)
      simp
  have ambassador : polling.Keeps q (Joined corpId) (upsertAmbassador corpId character)
      fun _ => Joined corpId := by
    refine keeps_aside (stable_joined corpId) (lasting_joined corpId) fun st s ws a hact => ?_
    split at hact
    · obtain ⟨rfl, -⟩ := Prod.mk.inj (Option.some.inj hact)
      simp [Aside]
    · obtain ⟨rfl, -⟩ := Prod.mk.inj (Option.some.inj hact)
      simp [Aside]
  refine principal.bind fun _ => (keeps_upsertLink _ _ _ _).bind fun _ => ambassador.bind fun _ => ?_
  refine (keeps_read (stable_joined corpId) (lasting_joined corpId)).imp (fun _ _ _ _ h => h) ?_
  rintro - c log locks - ⟨right, ⟨only, corp, current, id, enabled, held⟩, groupId, heldLink, active⟩
  refine ⟨right, fun other => ?_⟩
  by_cases same : other = corpId
  · subst same
    exact .linked corp groupId current id enabled held heldLink active
  · exact .apart (only other same).1 (only other same).2

def Known (corpId : Uuid) (c : Registry) : Prop := ∃ corp ∈ c.corps, corp.id = corpId

private theorem Known.kept {corpId : Uuid} {locks : List Row} {c c' : Registry} (h : Known corpId c)
    (kept : Kept locks c c') : Known corpId c' := by
  obtain ⟨corp, hcorp, id⟩ := h
  obtain ⟨corp', hcorp', id', -⟩ := kept.corps.stay corp hcorp
  exact ⟨corp', hcorp', id'.trans id⟩

/-- At most a link of the corp was ended. -/
def Ending (corpId : Uuid) : Assertion Registry Write Row := fun c log _ =>
  Known corpId c ∧ Only corpId log ∧ Quiet corpId log ∧ ∀ w ∈ log, ∀ b a, w ≠ .putCorp b a

private theorem stable_ending (corpId : Uuid) : Stable polling.terms (Ending corpId) :=
  ⟨fun _ _ h change => ⟨h.1.kept change.1, h.2⟩, fun _ h => h⟩

private theorem quiet_aside {corpId : Uuid} {ws : List Write} (aside : ∀ w ∈ ws, Aside w) :
    Quiet corpId ws := by
  refine fun w hw => ⟨fun b a same => ?_, fun l same => ?_⟩ <;>
  · have first := aside w hw
    rw [same] at first
    exact first.elim

private theorem Quiet.append {corpId : Uuid} {log ws : List Write} (h : Quiet corpId log)
    (h' : Quiet corpId ws) : Quiet corpId (log ++ ws) :=
  fun w hw => (List.mem_append.mp hw).elim (h w) (h' w)

private theorem lasting_ending (corpId : Uuid) : Lasting (Ending corpId) := by
  rintro c log ws locks held aside - ⟨known, only, quiet, noCorp⟩
  refine ⟨known, only.append (only_aside aside), quiet.append (quiet_aside aside),
    fun w hw b a same => ?_⟩
  rcases List.mem_append.mp hw with hw | hw
  · exact noCorp w hw b a same
  · have first := aside w hw
    rw [same] at first
    exact first

private theorem keeps_requireCorpInGroup (groupId corpId : Uuid) :
    polling.Keeps q Fresh (.select fun s => requireCorpInGroup s groupId corpId)
      fun _ => Ending corpId := by
  refine Triple.imp (Promise.keeps_query stable_fresh (fun _ => stable_ending corpId) ?_)
    (fun _ _ _ _ h => h) fun _ _ _ _ _ h => ⟨h.1, h.2.2⟩
  rintro a c log locks ⟨right, rfl⟩ hq
  have exist := require_eq_ok.mp hq
  obtain ⟨l, hl, holds⟩ := List.any_eq_true.mp exist
  obtain ⟨corp, hcorp, id⟩ := right.good.refs l hl
  simp only [Bool.decide_and, Bool.and_eq_true, decide_eq_true_eq] at holds
  exact ⟨⟨corp, hcorp, id.trans holds.2.1⟩, by simp [Only], by simp [Quiet], by simp⟩

private theorem keeps_endLink (groupId corpId : Uuid) (now : Timestamp) :
    polling.Keeps q (Ending corpId) (endLink groupId corpId now) fun _ => Ending corpId := by
  refine Promise.keeps_write (Promise.stable_with (stable_ending corpId)) ?_
  rintro c₁ c₂ log locks held ws a - ⟨right, known, only, quiet, noCorp⟩ m hact
  obtain ⟨rfl, -⟩ := Prod.mk.inj (Option.some.inj hact)
  clear hact
  generalize hfound : Option.filter _ _ = found
  cases found with
  | none =>
    simp only [Option.map_none, Option.toList_none, List.append_nil]
    exact ⟨trivial, by simp, known, only, quiet, noCorp⟩
  | some l =>
    obtain ⟨hl, planned⟩ := Option.filter_eq_some_iff.mp hfound
    simp only [Bool.and_eq_true, decide_eq_true_eq] at planned
    simp only [Option.map_some, Option.toList_some]
    obtain ⟨mem, key⟩ := lookup_mem hl
    have own : l.corpId = corpId := (Prod.mk.inj key).2
    refine ⟨⟨right.view.refs l mem, trivial⟩, fun w hw => ?_, known,
      only.append (only_putLink own), quiet.append ?_, ?_⟩
    · rw [List.mem_singleton.mp hw]
      exact (m.held _).mpr (.inr planned.2)
    · simp [Quiet, CorpLink.active]
    · intro w hw b a
      rcases List.mem_append.mp hw with hw | hw
      · exact noCorp w hw b a
      · simp [List.mem_singleton.mp hw]

/-- The links that the user sees were counted, and the others leave them alone. -/
def Counted (userId corpId : Uuid) (count : Nat) : Assertion Registry Write Row := fun c log _ =>
  .counting corpId userId ∈ log ∧
    (count = 0 → Unseen userId corpId (engine.view c log)) ∧
    (count ≠ 0 → ∃ groupId, activeAt (engine.view c log) (groupId, corpId) = true)

private theorem stable_counted (userId corpId : Uuid) (count : Nat) :
    Stable polling.terms (Counted userId corpId count) := by
  refine ⟨fun {c c' log locks} _ _ h change => ?_, fun _ h => h⟩
  have same (groupId : Uuid) : activeAt (engine.view c' log) (groupId, corpId) =
      activeAt (engine.view c log) (groupId, corpId) :=
    activeAt_view_congr log (change.2.2 corpId userId h.1 groupId)
  obtain ⟨counting, hidden, seen⟩ := h
  refine ⟨counting, fun zero groupId active => ?_, fun more => ?_⟩
  · rw [same] at active
    exact (change.2.1.view log).isGroupMember (hidden zero groupId active)
  · obtain ⟨groupId, active⟩ := seen more
    exact ⟨groupId, (same groupId).trans active⟩

/-- The count is zero exactly where the policy of a corp lets the user see nothing of it. -/
private theorem count_eq_zero_iff {s : Registry} (good : Rooted s) (userId corpId : Uuid) :
    (s.groupCorps.countP fun l =>
      decide (l.corpId = corpId) && l.active && isGroupMember s userId l.groupId) = 0 ↔
      Unseen userId corpId s := by
  rw [← isCorpMember_iff good]
  unfold isCorpMember
  rw [List.countP_eq_zero, List.any_eq_false]

private theorem keeps_countLinks (userId corpId : Uuid) :
    polling.Keeps q (Ending corpId) (countLinks userId corpId) fun count c log locks =>
      Ending corpId c log locks ∧ Counted userId corpId count c log locks := by
  have noted : polling.Keeps q (Ending corpId) (.note (.counting corpId userId))
      fun _ c log locks => Ending corpId c log locks ∧ .counting corpId userId ∈ log := by
    refine Promise.keeps_write (Promise.stable_with (stable_ending corpId)) ?_
    intro c₁ c₂ log locks held ws a _ h₂ m hact
    obtain ⟨rfl, -⟩ := Prod.mk.inj (Option.some.inj hact)
    have aside : ∀ w ∈ [Write.counting corpId userId], Aside w := by simp [Aside]
    exact ⟨(aside_replays aside _).1, by simp [rows, Owned],
      lasting_ending corpId c₂ log _ locks held aside (fun r hr => (m.held r).mpr (.inl hr)) h₂.2,
      List.mem_append_right _ (List.mem_singleton.mpr rfl)⟩
  have stable : Stable polling.terms (rows.With q fun c log locks =>
      Ending corpId c log locks ∧ .counting corpId userId ∈ log) := by
    refine Promise.stable_with ⟨fun _ _ h change => ⟨?_, h.2⟩, fun _ h => h⟩
    exact (stable_ending corpId).rely ‹_› ‹_› h.1 change
  refine noted.bind fun _ => Triple.imp (Promise.keeps_query stable
    (fun count => stable_counted userId corpId count) ?_) (fun _ _ _ _ h => h)
    fun _ _ _ _ _ h => ⟨h.1, h.2.1.1, h.2.2⟩
  rintro count c log locks ⟨right, ending, counting⟩ hq
  have good : Rooted (engine.view c log) := right.view
  obtain rfl := Except.ok.inj hq
  refine ⟨counting, (count_eq_zero_iff good userId corpId).mp, fun seen => ?_⟩
  by_contra hidden
  refine seen ((count_eq_zero_iff good userId corpId).mpr fun groupId active => ?_)
  exact absurd ⟨groupId, active⟩ hidden

/-- Where the user sees no link of the corp, its row is found and disabled. -/
private theorem keeps_disableCorp (userId corpId : Uuid) (now : Timestamp) :
    polling.Keeps q
      (fun c log locks => Ending corpId c log locks ∧ Counted userId corpId 0 c log locks)
      (disableCorp corpId now) fun _ c log locks => ∀ corpId, Outcome corpId c log locks := by
  refine Promise.keeps_write (Promise.stable_with ⟨fun good good' h change =>
    ⟨(stable_ending corpId).rely good good' h.1 change,
      (stable_counted userId corpId 0).rely good good' h.2 change⟩, fun _ h => h⟩) ?_
  rintro c₁ c₂ log locks held ws a ⟨right₁, ⟨known, -, -, noCorp⟩, -⟩
    ⟨right, ⟨-, only, -, -⟩, counting, none, -⟩ m hact
  obtain ⟨rfl, -⟩ := Prod.mk.inj (Option.some.inj hact)
  -- The row that the snapshot had is there still, under the same EVE id.
  obtain ⟨corp, hcorp, rfl⟩ := known
  have snapshot : corp ∈ (engine.view c₁ log).corps :=
    (mem_corps_view right₁.good right₁.replays fun w hw b a same =>
      absurd same (noCorp w hw b a)).mpr hcorp
  have kept : Kept locks (engine.view c₁ log) (engine.view c₂ log) :=
    right₁.view_same right.good m.during.1
  obtain ⟨corp', hcorp', id, key⟩ := kept.corps.stay corp snapshot
  have good : Rooted (engine.view c₂ log) := right.view
  have planned : lookup Corp.id corp.id (engine.view c₁ log).corps = some corp :=
    (lookup_eq_some right₁.view.ids).mpr ⟨snapshot, rfl⟩
  have found : lookup Corp.id corp.id (engine.view c₂ log).corps = some corp' :=
    (lookup_eq_some good.ids).mpr ⟨hcorp', id⟩
  have current : corpOf (engine.view c₂ log) corp'.esiCorporationId = some corp' :=
    (lookup_eq_some good.corps).mpr ⟨hcorp', rfl⟩
  have mine : .corp corp'.esiCorporationId ∈ held := by
    refine (m.held _).mpr (.inr ?_)
    rw [planned, key]
    exact List.mem_singleton.mpr rfl
  clear hact
  generalize hfiltered : Option.filter _ _ = filtered
  obtain rfl : filtered = some corp' := by
    refine hfiltered.symm.trans (Option.filter_eq_some_iff.mpr ⟨found, ?_⟩)
    simp [planned, key]
  simp only [Option.map_some, Option.toList_some]
  refine ⟨⟨⟨current, .of_some current rfl⟩, trivial⟩, fun w hw => ?_, fun other => ?_⟩
  · rw [List.mem_singleton.mp hw]
    exact ⟨mine, by simp⟩
  · by_cases same : other = corp.id
    · subst same
      refine .nobody userId (List.mem_append_left _ counting) { corp' with disabledAt := some now }
        ?_ ?_ id (by simp) mine
      · rw [view_append]
        exact none rfl
      · rw [view_append]
        exact (lookup_replace_some _).trans (if_pos rfl)
    · have put : Only corp.id [.putCorp (some corp') { corp' with disabledAt := some now }] :=
        only_putCorp _ id
      exact .apart (only.append put other same).1 (only.append put other same).2

private theorem keeps_unlinkCorp (userId groupId corpId : Uuid) (now : Timestamp) :
    polling.Keeps q Fresh (unlinkCorp userId groupId corpId now) fun _ c log locks =>
      ∀ corpId, Outcome corpId c log locks := by
  refine (keeps_requireOwner _ _ _).bind fun _ =>
    (keeps_requireCorpInGroup groupId corpId).bind fun _ =>
      (keeps_endLink groupId corpId now).bind fun _ =>
        (keeps_ambassadors (Promise.stable_with (stable_ending corpId))
          (lasting_ending corpId)).bind fun _ => (keeps_countLinks userId corpId).bind fun count => ?_
  by_cases hidden : count = 0
  · subst hidden
    exact keeps_disableCorp userId corpId now
  · rw [if_neg hidden]
    refine triple_pure fun c log locks _ h => ⟨h.1, fun other => ?_⟩
    obtain ⟨⟨-, only, quiet, -⟩, counting, -, seen⟩ := h.2
    by_cases same : other = corpId
    · subst same
      obtain ⟨groupId, active⟩ := seen hidden
      exact .others userId counting quiet groupId active
    · exact .apart (only other same).1 (only other same).2

private theorem Drops.append {groupId : Uuid} {log ws : List Write} (h : Drops groupId log)
    (h' : Drops groupId ws) : Drops groupId (log ++ ws) :=
  fun w hw => (List.mem_append.mp hw).elim (h w) (h' w)

def Dropping (groupId : Uuid) : Assertion Registry Write Row := fun _ log _ => Drops groupId log

private theorem stable_dropping (groupId : Uuid) :
    Stable polling.terms (rows.With q (Dropping groupId)) :=
  Promise.stable_with ⟨fun _ _ h _ => h, fun _ h => h⟩

private theorem lasting_dropping (groupId : Uuid) : Lasting (Dropping groupId) := by
  intro c log ws locks held aside _ drops
  refine drops.append fun w hw => ?_
  have first := aside w hw
  cases w <;> first | exact first.elim | simp

private theorem replays_dropLinks {ls : List CorpLink} {s : Registry}
    (keyed : Keyed CorpLink.key ls)
    (found : ∀ l ∈ ls, linkOf s l.key = some l) : rows.Replays (ls.map .dropLink) s := by
  induction ls generalizing s with
  | nil => trivial
  | cons l ls ih =>
    refine ⟨found l List.mem_cons_self, ih (List.nodup_cons.mp keyed).2 fun x hx => ?_⟩
    have apart : x.key ≠ l.key := fun same =>
      (List.nodup_cons.mp keyed).1 (same ▸ List.mem_map_of_mem hx)
    exact (linkOf_dropLink l s x.key).trans
      ((if_neg apart).trans (found x (List.mem_cons_of_mem l hx)))

private theorem keeps_dropLinks (groupId : Uuid) :
    polling.Keeps q (Dropping groupId) (dropLinks groupId) fun _ => Dropping groupId := by
  refine Promise.keeps_write (stable_dropping groupId) ?_
  rintro c₁ c₂ log locks held ws a - ⟨right, drops⟩ m hact
  obtain ⟨rfl, -⟩ := Prod.mk.inj (Option.some.inj hact)
  have good : Rooted (engine.view c₂ log) := right.view
  clear hact
  refine ⟨?_, fun w hw => ?_, drops.append fun w hw => ?_⟩
  · refine replays_dropLinks (good.links.filter _) fun l hl => ?_
    exact (lookup_eq_some good.links).mpr ⟨(List.mem_filter.mp hl).1, rfl⟩
  · obtain ⟨l, hl, rfl⟩ := List.mem_map.mp hw
    have planned := (List.mem_filter.mp hl).2
    simp only [Bool.and_eq_true, decide_eq_true_eq] at planned
    exact (m.held _).mpr (.inr planned.2)
  · obtain ⟨l, hl, rfl⟩ := List.mem_map.mp hw
    have planned := (List.mem_filter.mp hl).2
    simp only [Bool.and_eq_true, decide_eq_true_eq] at planned
    refine ⟨by simp, by simp, fun l' same => ?_⟩
    rw [← Write.dropLink.inj same]
    exact planned.1

private theorem keeps_deleteGroup (userId groupId : Uuid) :
    polling.Keeps q Fresh (deleteGroup userId groupId) fun _ c log locks =>
      ∀ corpId, Outcome corpId c log locks := by
  have dropped : polling.Keeps q Fresh (dropGroup groupId) fun _ => Dropping groupId := by
    refine Promise.keeps_write stable_fresh ?_
    rintro c₁ c₂ log locks held ws a - ⟨-, rfl⟩ m hact
    simp only [Option.ite_none_left_eq_some, Option.some.injEq, Prod.mk.injEq] at hact
    obtain ⟨-, rfl, -⟩ := hact
    exact ⟨⟨trivial, trivial⟩, by simp [rows, Owned], by simp [Dropping, Drops]⟩
  have memberships : polling.Keeps q (Dropping groupId) (dropMemberships groupId)
      fun _ => Dropping groupId := by
    refine keeps_aside (stable_dropping groupId) (lasting_dropping groupId)
      fun st s ws a hact w hw => ?_
    obtain ⟨rfl, -⟩ := Prod.mk.inj (Option.some.inj hact)
    obtain ⟨m, -, rfl⟩ := List.mem_map.mp hw
    trivial
  refine (keeps_requireOwner _ _ _).bind fun _ => dropped.bind fun _ => memberships.bind fun _ =>
    (keeps_dropLinks groupId).bind fun _ => (keeps_ambassadors (stable_dropping groupId)
      (lasting_dropping groupId)).imp (fun _ _ _ _ h => h) fun _ c log locks _ h => ⟨h.1, ?_⟩
  intro corpId
  by_cases gone : ∃ l, .dropLink l ∈ log ∧ l.corpId = corpId ∧ l.active = true
  · obtain ⟨l, mem, corp, active⟩ := gone
    exact .dropped groupId h.2 l mem corp active
  · refine .apart (fun w hw => ?_) fun w hw b a same => absurd same ((h.2 w hw).1 b a)
    cases w with
    | putLink l => exact absurd rfl ((h.2 _ hw).2.1 l)
    | dropLink l =>
      by_contra moved
      simp only [moves, Bool.not_eq_false, Bool.and_eq_true, decide_eq_true_eq] at moved
      exact gone ⟨l, hw, moved⟩
    | putCorp _ _ => rfl
    | deleteGroup _ => rfl
    | dropMembership _ => rfl
    | insertPrincipal _ => rfl
    | putAmbassador _ => rfl
    | counting _ _ => rfl

private theorem sound_polling : Sound engine polling.terms fun _ => True := by
  refine Promise.sound _ (fun q _ => ?_) fun q c log locks inv post ready => ?_
  · have keeps : polling.Keeps q Fresh (program q) fun _ c log locks =>
        ∀ corpId, Outcome corpId c log locks := by
      cases q with
      | link k => exact keeps_linkCorp k
      | unlink userId groupId corpId now => exact keeps_unlinkCorp userId groupId corpId now
      | deleteGroup userId groupId => exact keeps_deleteGroup userId groupId
    refine keeps.imp (fun c log locks good h => ?_) fun _ _ _ _ _ h => h
    obtain ⟨rfl, rfl⟩ := h
    exact ⟨.nil good.1, rfl⟩
  · refine ⟨switched_commit inv post.1 post.2 ready, fun log' clear =>
      ⟨shrinks_view log c, fun corpId userId counting groupId => ?_⟩⟩
    refine activeAt_view_still post.1.replays fun w hw => ?_
    by_contra moved
    exact clear corpId userId ⟨w, hw, by simpa using moved⟩ counting

end Programs

/-- The corp whose active links the write may change. -/
def movedCorp : Write → Option Uuid
  | .putLink l => some l.corpId
  | .dropLink l => if l.active then some l.corpId else none
  | _ => none

/-- The active link that the write takes away with its group. -/
def droppedLink : Write → Option CorpLink
  | .dropLink l => if l.active then some l else none
  | _ => none

def counted : Write → Option (Uuid × Uuid)
  | .counting corpId userId => some (corpId, userId)
  | _ => none

/-- A commit that moves links of a corp finds nobody else counting them; one that deletes a group
finds every corp that the group links linked by another group too; and one that has counted the
links of a corp is a corp member's if there is a link, in the state that it sees. -/
def Undisturbed (w : Store Registry Write Row CorpRequest) : Action Row CorpRequest → Prop
  | .commit id => ∀ t ∈ w.active, t.id = id → ∀ x ∈ t.log,
      (∀ corpId ∈ movedCorp x, ∀ u ∈ w.active, u.id ≠ id → ∀ y ∈ u.log,
        (counted y).map (·.1) ≠ some corpId) ∧
      (∀ l ∈ droppedLink x, ∃ l' ∈ w.committed.groupCorps,
        l'.corpId = l.corpId ∧ l'.active = true ∧ l'.groupId ≠ l.groupId) ∧
      ∀ p ∈ counted x, Linked (engine.view w.committed t.log) p.1 →
        isCorpMember (engine.view w.committed t.log) p.2 p.1 = true
  | _ => True

instance (w : Store Registry Write Row CorpRequest) (a : Action Row CorpRequest) :
    Decidable (Undisturbed w a) :=
  match a with
  | .commit id => inferInstanceAs (Decidable (∀ t ∈ w.active, t.id = id → ∀ x ∈ t.log,
      (∀ corpId ∈ movedCorp x, ∀ u ∈ w.active, u.id ≠ id → ∀ y ∈ u.log,
        (counted y).map (·.1) ≠ some corpId) ∧
      (∀ l ∈ droppedLink x, ∃ l' ∈ w.committed.groupCorps,
        l'.corpId = l.corpId ∧ l'.active = true ∧ l'.groupId ≠ l.groupId) ∧
      ∀ p ∈ counted x, Linked (engine.view w.committed t.log) p.1 →
        isCorpMember (engine.view w.committed t.log) p.2 p.1 = true))
  | .begin _ _ | .start _ | .acquire _ _ | .exec _ | .abort _ => .isTrue trivial

private theorem movedCorp_eq_some {corpId : Uuid} {w : Write} (h : moves corpId w = true) :
    movedCorp w = some corpId := by
  cases w with
  | putLink l =>
    simp only [moves, decide_eq_true_eq] at h
    rw [movedCorp, h]
  | dropLink l =>
    simp only [moves, Bool.and_eq_true, decide_eq_true_eq] at h
    rw [movedCorp, if_pos h.2, h.1]
  | putCorp _ _ => cases h
  | deleteGroup _ => cases h
  | dropMembership _ => cases h
  | insertPrincipal _ => cases h
  | putAmbassador _ => cases h
  | counting _ _ => cases h

/-- A run that starts with every corp polled exactly while a group links it keeps it so, if no
commit moves the links of a corp that another unlink is counting, groups are deleted only where
other groups link their corps, and no unlink leaves a link that its user does not see. -/
theorem polled_while_linked {s : Registry} (rooted : Rooted s) (switched : Switched s)
    {as : List (Action Row CorpRequest)}
    (undisturbed : Meets (step engine) Undisturbed ⟨s, []⟩ as) :
    Switched (run (step engine) ⟨s, []⟩ as).committed := by
  have allowed : Meets (step engine) (Allowed polling.terms fun _ => True) ⟨s, []⟩ as := by
    refine Meets.imp (fun w a h => ?_) undisturbed
    cases a with
    | begin _ _ => trivial
    | start _ => trivial
    | acquire _ _ => trivial
    | exec _ => exact fun _ _ _ _ _ _ => trivial
    | commit id =>
      refine fun t ht hid _ => ⟨⟨fun l hl active => ?_, fun corpId userId counting => ?_⟩,
        fun u hu other corpId userId moved counting => ?_⟩
      · exact (h t ht hid _ hl).2.1 l (if_pos active)
      · exact (h t ht hid _ counting).2.2 (corpId, userId) rfl
      · obtain ⟨x, hx, moved⟩ := moved
        exact (h t ht hid x hx).1 corpId (movedCorp_eq_some moved) u hu other _ counting rfl
    | abort _ => trivial
  exact (Promise.kept_run sound_polling rooted switched allowed).good.2

/-- A group, its owner and the owner's character, who is in a corporation. -/
def oneOwner : Registry where
  groups := [1]
  groupMemberships := [⟨1, 1, .owner⟩]
  characters := [⟨1, 90, 1, []⟩]

def eve : Esi := ⟨.ok (), .ok [⟨90, 98⟩], fun _ => .ok ⟨"Corp", "CORP"⟩⟩

/-- The owner links the corp, as one transaction. -/
def links : List (Action Row CorpRequest) :=
  List.flatten [[.begin 1 (.link ⟨1, 1, 90, eve, 5, 6, 0⟩)], Action.turn 1 [], Action.turn 1 [],
    Action.turn 1 [.corp 98, .corpPk 5], Action.turn 1 [.principal 6], Action.turn 1 [.link (1, 5)],
    Action.turn 1 [.ambassador (5, 1)], Action.turn 1 [], [.commit 1]]

/-- The owner unlinks it, and deletes the group. -/
def unlinks : List (Action Row CorpRequest) :=
  List.flatten [[.begin 2 (.unlink 1 1 5 1)], Action.turn 2 [], Action.turn 2 [],
    Action.turn 2 [.link (1, 5)], Action.turn 2 [], Action.turn 2 [], Action.turn 2 [],
    Action.turn 2 [.corp 98], [.commit 2]]

def deletes : List (Action Row CorpRequest) :=
  List.flatten [[.begin 3 (.deleteGroup 1 1)], Action.turn 3 [], Action.turn 3 [.group 1],
    Action.turn 3 [.membership (1, 1)], Action.turn 3 [.link (1, 5)], Action.turn 3 [],
    [.commit 3]]

theorem polled_while_linked_unlink :
    Meets (step engine) Undisturbed ⟨oneOwner, []⟩ (links ++ unlinks) ∧
      Switched (run (step engine) ⟨oneOwner, []⟩ (links ++ unlinks)).committed := by
  have rooted : Rooted oneOwner := ⟨by decide, by decide, by decide, by simp [oneOwner]⟩
  have undisturbed : Meets (step engine) Undisturbed ⟨oneOwner, []⟩ (links ++ unlinks) := by
    decide +kernel
  exact ⟨undisturbed, polled_while_linked rooted (by decide) undisturbed⟩

/-- The corp of a deleted group stays enabled although nobody links it. -/
theorem deleted_group_leaves_corp_polled : Switched oneOwner ∧
    ¬ Switched (run (step engine) ⟨oneOwner, []⟩ (links ++ deletes)).committed := by
  exact ⟨by decide, by decide +kernel⟩

end JitaCart.Concurrent.Corps
