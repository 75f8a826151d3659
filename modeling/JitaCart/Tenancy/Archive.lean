/- module: JitaCart/Tenancy/Archive
   source: backend/crates/api/src/extract.rs (require_mutable), backend/crates/api/src/lists/crud.rs,
     backend/crates/api/src/corps.rs (patch_list_payer),
     backend/crates/api/src/fulfillment/reimbursements.rs (settle_reimbursement)
   digest: When an archived list is frozen, with requests that run on older snapshots. -/

import JitaCart.Base.InFlight
import JitaCart.Tenancy.Touched

/-!
The check that a list is not archived is made on the snapshot, or not at all.
A request spares the archived lists when its snapshot knows of the archiving,
when a patch that sets the status sets nothing else, and when a request without
a check has no archived list to touch.
-/

set_option autoImplicit false
set_option relaxedAutoImplicit false

namespace JitaCart.Tenancy.Archive

open Schema Base.Table Base.Request Base.InFlight Settlement Api.Extract Api.Routes Operations

abbrev World := Pool Board Prepared

/-- A request arrives, a request runs, or the worker does a job. -/
def step : Move Request Job → World → Except ApiError World := move prepare handle work

/-- The world after a run of moves from the empty board. -/
def reached (moves : List (Move Request Job)) : World := run step { store := {} } moves

def Archived (b : Board) (listId : Uuid) : Prop :=
  ∃ l ∈ b.db.lists, l.id = listId ∧ l.status = .archived

instance (b : Board) (listId : Uuid) : Decidable (Archived b listId) := by
  unfold Archived
  infer_instance

/-- All that belongs to a list but its status and the suggestions of the matcher. -/
def contents (b : Board) (listId : Uuid) : ListView × List ListText × List ListMarket :=
  let own := ownRows b listId
  ({ own.1 with rows := own.1.rows.map fun l => { l with status := .archived } }, own.2)

def statusOf (b : Board) (listId : Uuid) : List ListStatus :=
  (ownRows b listId).1.rows.map (·.status)

def setsStatus : Prepared → Option Uuid
  | .onList cur (.patchList body) => if body.status = none then none else some cur.listId
  | _ => none

def deletes : Prepared → Bool
  | .onList _ .deleteList | .onGroup _ .deleteGroup => true
  | _ => false

/-- The list keeps its contents, and its status too unless that is what the request sets; or it is
deleted. -/
def Frozen (p : Prepared) (b b' : Board) (listId : Uuid) : Prop :=
  (deletes p = true ∧ b'.db.list? listId = none) ∨
    contents b' listId = contents b listId ∧
      (setsStatus p = some listId ∨ statusOf b' listId = statusOf b listId)

instance (p : Prepared) (b b' : Board) (listId : Uuid) : Decidable (Frozen p b b' listId) := by
  unfold Frozen
  infer_instance

/-- The list of a request that refuses archived lists, with the status in its snapshot. -/
def checked : Prepared → Option (Uuid × ListStatus)
  | .onList _ .deleteList => none
  | .onList cur (.patchList body) =>
    if body.status = none then some (cur.listId, cur.status) else none
  | .onList cur _ => some (cur.listId, cur.status)
  | .onClaim cur _ => some (cur.listId, cur.listStatus)
  | _ => none

/-- The list of a patch that sets a status together with a label or notes. -/
def relabels : Prepared → Option Uuid
  | .onList cur (.patchList body) =>
    if body.status ≠ none ∧ (body.destinationLabel ≠ none ∨ body.notes ≠ none) then
      some cur.listId
    else none
  | _ => none

/-- Requests that look at no list status; `reverse_fulfillment` reads it in its own transaction. -/
def unchecked : Prepared → Option UserRequest
  | .byUser _ (.reverseFulfillment ..) => none
  | .byUser _ r => some r
  | _ => none

def Spares (p : Prepared) (b : Board) : Prop :=
  (∀ q ∈ checked p, Archived b q.1 → q.2 = .archived) ∧
    (∀ l ∈ relabels p, ¬ Archived b l) ∧
    ∀ r ∈ unchecked p, ∀ l ∈ userTouches b.db r, ¬ Archived b l

instance (p : Prepared) (b : Board) : Decidable (Spares p b) := by
  unfold Spares
  infer_instance

private theorem valid_reached (moves : List (Move Request Job)) :
    Valid Sound Known (reached moves) := by
  have start : Valid Sound Known ({ store := {} } : World) :=
    ⟨⟨by constructor <;> simp [Keyed], by simp⟩, by simp⟩
  refine valid_run (J := Sound) (V := Known) (fun q b p _ h => known_prepare h)
    (fun p b b' ok known h => ?_) (fun j b b' ok h => ?_) start moves
  · have reach := reached_handle ok known h
    exact ⟨reach.sound, fun _ => reach.known⟩
  · have reach := reached_work ok h
    exact ⟨reach.sound, fun _ => reach.known⟩

section Handling
variable {p : Prepared} {b b' : Board} {l : Uuid}

private theorem frozen_of_ownRows (h : ownRows b' l = ownRows b l) : Frozen p b b' l := by
  refine .inr ⟨?_, .inr ?_⟩
  · unfold contents
    rw [h]
  · unfold statusOf
    rw [h]

private theorem frozen_of_gone (ok : Sound b') (h : l ∈ b'.gone) (deleting : deletes p = true) :
    Frozen p b b' l :=
  .inl ⟨deleting, ok.gone l h⟩

/-- A request that checks the list is refused when its snapshot is of an archived one. -/
private theorem mutable_of_checked {q : Uuid × ListStatus} (hq : checked p = some q)
    (h : handle p b = .ok b') : q.2 ≠ .archived := by
  cases p with
  | onList cur r =>
    cases r with
    | patchList body =>
      simp only [checked] at hq
      split at hq
      · rename_i plain
        cases hq
        simp only [handle, ListRequest.handle, patchList, PatchListBody.permitted, if_pos plain,
          CurrentList.requireMutable, bind_eq_ok, require_eq_ok] at h
        obtain ⟨-, -, -, mutable, -⟩ := h
        exact mutable
      · cases hq
    | deleteList => cases hq
    | replaceMarkets body =>
      cases hq
      simp only [handle, ListRequest.handle, replaceMarkets, CurrentList.requireMutable, bind_eq_ok,
        require_eq_ok] at h
      obtain ⟨-, mutable, -⟩ := h
      exact mutable
    | addItems limits lines itemIds =>
      cases hq
      obtain ⟨s', hs', -⟩ := map_eq_ok.mp h
      obtain ⟨isOpen, -⟩ := Api.Handlers.addItems_ok hs'
      simp [isOpen]
    | patchItem itemId body =>
      cases hq
      obtain ⟨s', hs', -⟩ := map_eq_ok.mp h
      exact (Api.Handlers.patchItem_ok hs').1
    | deleteItem itemId =>
      cases hq
      obtain ⟨s', hs', -⟩ := map_eq_ok.mp h
      exact (Api.Handlers.deleteItem_ok hs').1
    | createClaim itemIds claimId =>
      cases hq
      obtain ⟨s', hs', -⟩ := map_eq_ok.mp h
      obtain ⟨isOpen, -⟩ := Api.Handlers.createClaim_ok hs'
      simp [isOpen]
    | recordFulfillment itemId body gen =>
      cases hq
      obtain ⟨s', hs', -⟩ := map_eq_ok.mp h
      exact (Api.Handlers.recordFulfillment_ok hs').1
    | markDelivered itemId lastHauler =>
      cases hq
      obtain ⟨s', hs', -⟩ := map_eq_ok.mp h
      exact (Api.Handlers.markDelivered_ok hs').1
    | setListTip tipPct =>
      cases hq
      obtain ⟨s', hs', -⟩ := map_eq_ok.mp h
      exact (Api.Handlers.setListTip_ok hs').1
  | onClaim cur r =>
    cases hq
    cases r with
    | addClaimItems itemIds =>
      obtain ⟨s', hs', -⟩ := map_eq_ok.mp h
      exact (Api.Handlers.addClaimItems_ok hs').1
    | removeClaimItem itemId =>
      obtain ⟨s', hs', -⟩ := map_eq_ok.mp h
      exact (Api.Handlers.removeClaimItem_ok hs').1
    | releaseClaim =>
      obtain ⟨s', hs', -⟩ := map_eq_ok.mp h
      exact (Api.Handlers.releaseClaim_ok hs').1
  | onGroup cur r => cases hq
  | byUser userId r => cases hq

/-- A patch that sets the status of an archived list and nothing else. -/
private theorem frozen_patchList {cur : CurrentList} {body : PatchListBody}
    (h : patchList b cur body = .ok b') (status : body.status ≠ none)
    (plain : body.destinationLabel = none ∧ body.notes = none) :
    Frozen (.onList cur (.patchList body)) b b' cur.listId := by
  simp only [patchList, bind_eq_ok, require_eq_ok] at h
  obtain ⟨-, -, -, -, h⟩ := h
  obtain rfl := (Except.ok.inj h).symm
  refine .inr ⟨?_, .inl (by simp [setsStatus, status])⟩
  have unlabelled : body.assignText = id := by
    funext t
    simp [PatchListBody.assignText, plain]
  have texts : ∀ p : ListText → Bool, updateWhere p body.assignText b.texts = b.texts := by
    intro p
    simp [unlabelled, updateWhere]
  have rows : ∀ p : ListRow → Bool, ((updateWhere p body.assignRow b.db.lists).filter
      fun x => decide (x.id = cur.listId)).map (fun x => { x with status := ListStatus.archived }) =
      (b.db.lists.filter fun x => decide (x.id = cur.listId)).map
        fun x => { x with status := ListStatus.archived } := fun p =>
    map_filter_updateWhere _ _ fun _ _ _ => ⟨rfl, rfl⟩
  simp only [contents, ownRows, view, textsOn, marketsOn, onList, texts, rows]
  rfl

/-- A request that spares the archived lists leaves each of them frozen. -/
private theorem frozen_handle (ok : Sound b) (known : Known p b) (spares : Spares p b)
    (archived : Archived b l) (h : handle p b = .ok b') : Frozen p b b' l := by
  have reach := reached_handle ok known h
  obtain ⟨checks, relabelled, blind⟩ := spares
  by_cases hl : touches b.db p l
  swap
  · exact frozen_of_ownRows (reach.apart l hl)
  have refused : ∀ q, checked p = some q → q.1 = l → False := fun q hq hql =>
    mutable_of_checked hq h (checks q hq (hql ▸ archived))
  cases p with
  | onList cur r =>
    obtain rfl : l = cur.listId := hl
    cases r with
    | patchList body =>
      by_cases status : body.status = none
      · exact (refused (cur.listId, cur.status) (by simp [checked, status]) rfl).elim
      · refine frozen_patchList h status ?_
        by_contra labelled
        refine relabelled cur.listId ?_ archived
        have : body.destinationLabel ≠ none ∨ body.notes ≠ none := by
          by_contra none_set
          push Not at none_set
          exact labelled none_set
        simp [relabels, status, this]
    | deleteList =>
      obtain ⟨⟨gone, s'⟩, hs', rfl⟩ := map_eq_ok.mp h
      refine frozen_of_gone reach.sound ?_ rfl
      obtain ⟨only, -⟩ := Api.Deletion.deleteList_ok hs'
      simp only [Api.Deletion.deleteList, bind_eq_ok, require_eq_ok, Except.ok.injEq,
        Prod.mk.injEq] at hs'
      obtain ⟨-, -, -, nonempty, rfl, -⟩ := hs'
      obtain ⟨x, hx⟩ := List.exists_mem_of_ne_nil _ nonempty
      exact List.mem_append_right _ (only x hx ▸ hx)
    | replaceMarkets | addItems | patchItem | deleteItem | createClaim | recordFulfillment
    | markDelivered | setListTip => exact (refused (cur.listId, cur.status) rfl rfl).elim
  | onClaim cur r =>
    obtain rfl : l = cur.listId := hl
    exact (refused (cur.listId, cur.listStatus) rfl rfl).elim
  | onGroup cur r =>
    cases r with
    | create limits body ids =>
      obtain rfl : l = ids.listId := hl
      simp only [handle, GroupRequest.handle, create, bind_eq_ok] at h
      obtain ⟨-, -, -, -, -, -, -, -, s, hs, -⟩ := h
      obtain ⟨fresh, -⟩ := Api.Handlers.create_ok hs
      obtain ⟨x, hx, hid, -⟩ := archived
      exact (lookup_eq_none.mp fresh x hx hid).elim
    | deleteGroup =>
      obtain ⟨⟨gone, s'⟩, hs', rfl⟩ := map_eq_ok.mp h
      refine frozen_of_gone reach.sound (List.mem_append_right _ ?_) rfl
      simp only [Api.Deletion.deleteGroup, bind_eq_ok, require_eq_ok, Except.ok.injEq,
        Prod.mk.injEq] at hs'
      obtain ⟨-, -, -, -, rfl, -⟩ := hs'
      obtain ⟨x, hx, rfl, hgroup⟩ := hl
      exact List.mem_map.mpr ⟨x, List.mem_filter.mpr ⟨hx, by simpa using hgroup⟩, rfl⟩
  | byUser userId r =>
    cases r with
    | reverseFulfillment fid newId now =>
      obtain ⟨s', hs', rfl⟩ := map_eq_ok.mp h
      obtain ⟨f, li, x, hf, hli, hx, unarchived, -⟩ := within_reverseFulfillment ok.placed hs'
      obtain rfl : l = li.listId := by simpa [touches, userTouches, hf, hli] using hl
      obtain ⟨y, hy, hid, isArchived⟩ := archived
      obtain ⟨hmem, hk⟩ := lookup_mem hx
      obtain rfl := ok.placed.lists.eq_of_key hy hmem (hid.trans hk.symm)
      exact (unarchived isArchived).elim
    | patchListPayer | settleReimbursement | doConfirm | doReject | doManualLink | doUnlink
    | directory | track => exact (blind _ rfl l hl archived).elim

end Handling

private theorem store_finish {w : World} {tag : Nat} {p : Prepared}
    (hp : w.snapshot? tag = some p) :
    (exec step w (.finish tag)).store = exec handle w.store p := by
  have hm : step (.finish tag) w = .ok
      { store := exec handle w.store p
        waiting := w.waiting.filter fun x => decide (x.1 ≠ tag) } := by
    simp [step, move, hp]
  rw [exec_of_ok hm]

/-- In every run whose requests all spare the archived lists, each of them leaves every list that is
archived when it runs frozen. -/
theorem archived_frozen {moves : List (Move Request Job)}
    (spares : Meets step (Finishing Spares) { store := {} } moves)
    {before after : List (Move Request Job)} {tag : Nat}
    (split : moves = before ++ .finish tag :: after)
    {p : Prepared} (hp : (reached before).snapshot? tag = some p)
    {l : Uuid} (archived : Archived (reached before).store l) :
    Frozen p (reached before).store (exec step (reached before) (.finish tag)).store l := by
  rw [split, meets_append] at spares
  have valid := valid_reached before
  have hspares : Spares p (reached before).store := spares.2.1 p hp
  have hknown : Known p (reached before).store := valid.waiting _ (snapshot?_mem hp)
  rw [store_finish hp]
  cases h : handle p (reached before).store with
  | error e =>
    rw [exec_of_error h]
    exact frozen_of_ownRows rfl
  | ok b' =>
    rw [exec_of_ok h]
    exact frozen_handle valid.store hknown hspares archived h

-- An archived list with one delivered purchase that is still unpaid.
def atOnce (q : Request) : List (Move Request Job) := [.arrive 0 q, .finish 0]

def corpDirectory : Directory :=
  { sampleDirectory with
    principals := sampleDirectory.principals ++ [⟨9, .corp 9⟩]
    groupCorps := [⟨1, 9, none⟩] }

def listed : List (Move Request Job) :=
  atOnce (.byUser 1 (.directory corpDirectory)) ++
    [.other (.importMarkets [⟨7, .npcHub, true, true, some "Jita"⟩])] ++
    atOnce (.onGroup 1 1
      (.create sampleLimits ⟨none, none, ⟨[7], 7⟩, [⟨34, "Tritanium", 2, 1⟩]⟩ ⟨1, [1]⟩))

def purchased : List (Move Request Job) :=
  listed ++ atOnce (.onList 3 1 (.recordFulfillment 1 (samplePurchase 2 5) ⟨1, 1, 1⟩)) ++
    atOnce (.onList 3 1 (.markDelivered 1 (some 3)))

def archive : Request := .onList 1 1 (.patchList { status := some .archived })

def reopen : Request := .onList 1 1 (.patchList { status := some .open })

def archivedRun : List (Move Request Job) := purchased ++ atOnce archive

/-- Whether the request that waits under tag 0 leaves list 1 frozen, should it be archived. -/
def Freezes (before : List (Move Request Job)) : Prop :=
  Archived (reached before).store 1 →
    ∀ p ∈ (reached before).snapshot? 0,
      Frozen p (reached before).store (exec step (reached before) (.finish 0)).store 1

instance (before : List (Move Request Job)) : Decidable (Freezes before) := by
  unfold Freezes
  infer_instance

/-- A label that comes with a status, a payer, a manual settle, a link to a contract, and a tip whose
snapshot is older than the archiving. -/
theorem archived_list_written :
    ¬ Freezes (archivedRun ++
        [.arrive 0 (.onList 1 1 (.patchList ⟨some (some "Amarr"), none, some .archived⟩))]) ∧
      ¬ Freezes (listed ++ atOnce archive ++
        [.arrive 0 (.byUser 1 (.patchListPayer 1 ⟨some 9, some 1⟩))]) ∧
      ¬ Freezes (archivedRun ++ [.arrive 0 (.byUser 1 (.settleReimbursement 1 9))]) ∧
      ¬ Freezes (archivedRun ++
        [.other (.upsertContract (sampleContract .outstanding) 1),
          .arrive 0 (.byUser 3 (.doManualLink 1 1 1 9))]) ∧
      ¬ Freezes (purchased ++ [.arrive 0 (.onList 1 1 (.setListTip (1 / 10))),
        .arrive 1 archive, .finish 1]) := by
  decide +kernel

/-- Reopening the archived list changes its status and nothing else. -/
theorem archived_frozen_reopened :
    ((reached (archivedRun ++ [.arrive 0 reopen])).snapshot? 0).isSome = true ∧
      Freezes (archivedRun ++ [.arrive 0 reopen]) := by
  refine ⟨by decide +kernel, fun archived p hp => ?_⟩
  have spares : Meets step (Finishing Spares) { store := {} }
      (archivedRun ++ [.arrive 0 reopen] ++ [.finish 0]) := by
    decide +kernel
  exact archived_frozen spares rfl hp archived

end JitaCart.Tenancy.Archive
