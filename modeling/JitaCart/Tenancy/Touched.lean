/- module: JitaCart/Tenancy/Touched
   source: backend/crates/api/src/lists/crud.rs, backend/crates/api/src/extract.rs,
     backend/crates/api/src/contracts.rs, backend/crates/worker/src/jobs/contracts_common.rs
   digest: The lists that a request can touch, read off its snapshot and the database. -/

import JitaCart.Api.Routes
import JitaCart.Tenancy.Reach

set_option autoImplicit false
set_option relaxedAutoImplicit false

namespace JitaCart.Tenancy

open Schema Base.Table Base.Request Settlement Api.Extract Api.Routes
open Api.Contracts (isMember)

/-- Everything that belongs to one list. -/
structure Rows where
  view : ListView
  suggestions : List Suggestion
  texts : List ListText
  markets : List ListMarket
  deriving DecidableEq

def textsOn (b : Board) (listId : Uuid) : List ListText :=
  b.texts.filter fun t => decide (t.listId = listId)

def marketsOn (b : Board) (listId : Uuid) : List ListMarket :=
  b.listMarkets.filter fun m => decide (m.listId = listId)

/-- The rows of a list without the suggestions of the matcher. -/
def ownRows (b : Board) (listId : Uuid) : ListView × List ListText × List ListMarket :=
  (view b.db listId, textsOn b listId, marketsOn b listId)

def rowsOn (b : Board) (listId : Uuid) : Rows :=
  ⟨view b.db listId, suggestionsOn b.db listId, textsOn b listId, marketsOn b listId⟩

def listOwing (s : Db) (rid : Uuid) : List Uuid := ((s.reimbursement? rid).map (·.listId)).toList

def listsOwing (s : Db) (p : Reimbursement → Bool) : List Uuid :=
  (s.reimbursements.filter p).map (·.listId)

/-- The list of the new link, and those of all links when the contract is finished. -/
def linkTouches (s : Db) (cid rid : Uuid) : List Uuid :=
  listOwing s rid ++
    if (s.contract? cid).any (·.status.isTerminalSuccess) then listsOwing s (boundTo cid) else []

def userTouches (s : Db) : UserRequest → List Uuid
  | .patchListPayer listId _ => [listId]
  | .reverseFulfillment fid _ _ =>
    (((s.fulfillment? fid).bind fun f => s.item? f.listItemId).map (·.listId)).toList
  | .settleReimbursement rid _ => listOwing s rid
  | .doConfirm gid _ =>
    ((s.suggestion? gid).map fun g => linkTouches s g.contractId g.reimbursementId).getD []
  | .doManualLink cid rid _ _ => linkTouches s cid rid
  | .doUnlink cid => listsOwing s (pendingOn cid)
  | .doReject _ | .directory _ | .track _ => []

theorem mem_listOwing {s : Db} {rid l : Uuid} :
    l ∈ listOwing s rid ↔ ∃ r, s.reimbursement? rid = some r ∧ r.listId = l := by
  simp [listOwing]

theorem mem_listsOwing {s : Db} {p : Reimbursement → Bool} {l : Uuid} :
    l ∈ listsOwing s p ↔ ∃ r ∈ s.reimbursements, p r = true ∧ r.listId = l := by
  simp [listsOwing, and_assoc]

theorem mem_linkTouches {s : Db} {cid rid l : Uuid} :
    l ∈ linkTouches s cid rid ↔ (∃ r, s.reimbursement? rid = some r ∧ r.listId = l) ∨
      ∃ c, s.contract? cid = some c ∧ c.status.isTerminalSuccess = true ∧
        ∃ r ∈ s.reimbursements, boundTo cid r = true ∧ r.listId = l := by
  unfold linkTouches
  rw [List.mem_append, mem_listOwing]
  cases h : s.contract? cid with
  | none => simp
  | some c =>
    by_cases finished : c.status.isTerminalSuccess = true
    · simp [finished, mem_listsOwing]
    · simp [finished]

def touches (s : Db) (p : Prepared) (l : Uuid) : Prop :=
  match p with
  | .onList cur _ => l = cur.listId
  | .onClaim cur _ => l = cur.listId
  | .onGroup _ (.create _ _ ids) => l = ids.listId
  | .onGroup cur .deleteGroup => ∃ x ∈ s.lists, x.id = l ∧ x.groupId = cur.groupId
  | .byUser _ r => l ∈ userTouches s r

/-- The lists whose suggestions a request may write. -/
def suggests (s : Db) (p : Prepared) (l : Uuid) : Prop :=
  touches s p l ∨
    match p with
    | .byUser _ (.doReject gid) => ∃ g, s.suggestion? gid = some g ∧
        owedOn s l g.reimbursementId = true
    | .byUser _ (.doUnlink cid) => ∃ g ∈ s.suggestions, g.contractId = cid ∧
        g.state = .confirmed ∧ owedOn s l g.reimbursementId = true
    | _ => False

structure Sound (b : Board) : Prop where
  placed : Placed b.db
  gone : ∀ l ∈ b.gone, b.db.list? l = none

/-- The claim of a snapshot is on the snapshot's list, as long as that list exists. -/
def Known : Prepared → Board → Prop
  | .onClaim cur _, b => cur.listId ∈ b.gone ∨
      ∃ c, b.db.claim? cur.claimId = some c ∧ c.listId = cur.listId
  | _, _ => True

/-- The board after a request with the given reach. -/
structure Reached (L M : Uuid → Prop) (b b' : Board) : Prop where
  sound : Sound b'
  apart : ∀ l, ¬ L l → ownRows b' l = ownRows b l
  suggestions : ∀ l, ¬ M l → suggestionsOn b'.db l = suggestionsOn b.db l
  gone : ∀ l ∈ b.gone, l ∈ b'.gone
  claims : ∀ id c, b.db.claim? id = some c →
    c.listId ∈ b'.gone ∨ ∃ c', b'.db.claim? id = some c' ∧ c'.listId = c.listId

theorem known_prepare {r : Request} {b : Board} {p : Prepared} (h : prepare r b = .ok p) :
    Known p b := by
  cases r with
  | onClaim userId claimId r =>
    obtain ⟨cur, hcur, rfl⟩ := map_eq_ok.mp h
    obtain ⟨c, l, role, hc, -, -, rfl⟩ := currentClaim_ok hcur
    exact .inr ⟨c, hc, rfl⟩
  | onList userId listId r =>
    obtain ⟨cur, -, rfl⟩ := map_eq_ok.mp h
    trivial
  | onGroup userId groupId r =>
    obtain ⟨cur, -, rfl⟩ := map_eq_ok.mp h
    trivial
  | byUser userId r =>
    obtain rfl := Except.ok.inj h
    trivial

theorem Reached.known {L M : Uuid → Prop} {b b' : Board} (h : Reached L M b b') {q : Prepared}
    (hq : Known q b) : Known q b' := by
  cases q with
  | onClaim cur r =>
    rcases hq with hgone | ⟨c, hc, hlist⟩
    · exact .inl (h.gone _ hgone)
    · rcases h.claims _ c hc with hgone | ⟨c', hc', same⟩
      · exact .inl (hlist ▸ hgone)
      · exact .inr ⟨c', hc', same.trans hlist⟩
  | onList | onGroup | byUser => trivial

section Handling
variable {L M : Uuid → Prop} {b b' : Board}

private theorem ownRows_ext {l : Uuid} (hview : view b'.db l = view b.db l)
    (htexts : textsOn b' l = textsOn b l) (hmarkets : marketsOn b' l = marketsOn b l) :
    ownRows b' l = ownRows b l := by
  unfold ownRows
  rw [hview, htexts, hmarkets]

theorem Reached.rowsOn_eq (h : Reached L M b b') {l : Uuid} (hL : ¬ L l) (hM : ¬ M l) :
    rowsOn b' l = rowsOn b l := by
  obtain ⟨hview, hrest⟩ := Prod.mk.inj (h.apart l hL)
  obtain ⟨htexts, hmarkets⟩ := Prod.mk.inj hrest
  unfold rowsOn
  rw [hview, h.suggestions l hM, htexts, hmarkets]

private theorem reached_onDb (ok : Sound b) {s' : Db} (h : Within L M b.db s') :
    Reached L M b { b with db := s' } := by
  refine ⟨⟨h.placed, fun l hl => h.stays.lists l (ok.gone l hl)⟩, fun l hL => ?_, h.suggestions,
    fun _ hl => hl, fun id c hc => .inr (h.stays.claims id c hc)⟩
  exact ownRows_ext (h.apart l hL) rfl rfl

private theorem reached_of_onDb (ok : Sound b) {x : Except ApiError Db} (h : b.onDb x = .ok b')
    (within : ∀ s', x = .ok s' → Within L M b.db s') : Reached L M b b' := by
  obtain ⟨s', hs', rfl⟩ := map_eq_ok.mp h
  exact reached_onDb ok (within s' hs')

private theorem reached_drop (ok : Sound b) {gone : List Uuid} {s' : Db}
    (h : Apart L M b.db s') (on : ∀ l ∈ gone, L l)
    (claims : ∀ id c, b.db.claim? id = some c → c.listId ∈ gone ∨ s'.claim? id = some c)
    (lists : ∀ id, b.db.list? id = none ∨ id ∈ gone → s'.list? id = none) :
    Reached L M b (b.drop gone s') := by
  refine ⟨⟨h.placed, fun l hl => ?_⟩, fun l hL => ?_, h.suggestions,
    fun l hl => List.mem_append_left _ hl, fun id c hc => ?_⟩
  · rcases List.mem_append.mp hl with hl | hl
    · exact lists l (.inl (ok.gone l hl))
    · exact lists l (.inr hl)
  · have kept : l ∉ gone := fun hl => hL (on l hl)
    refine ownRows_ext (h.apart l hL) ?_ ?_
    · exact filter_off fun t _ ht => by simpa [of_decide_eq_true ht] using kept
    · exact filter_off fun m _ hm => by simpa [of_decide_eq_true hm] using kept
  · rcases claims id c hc with hgone | same
    · exact .inl (List.mem_append_right _ hgone)
    · exact .inr ⟨c, same, rfl⟩

private theorem reached_deleting (ok : Sound b) {gone : List Uuid} {directory : Directory}
    (on : ∀ l ∈ gone, L l) (onM : ∀ l ∈ gone, M l) :
    Reached L M b
      (b.drop gone { Api.Deletion.dropLists b.db gone with directory := directory }) := by
  have dropped := apart_dropLists ok.placed on onM
  refine reached_drop ok (dropped.trans ?_) on (fun id c hc => ?_) fun id hid => ?_
  · exact dropped.placed.elsewhere rfl rfl rfl rfl rfl rfl rfl
  · by_cases hgone : c.listId ∈ gone
    · exact .inl hgone
    · refine .inr ((lookup_filter_of_keyed ok.placed.claims _ id).trans ?_)
      change (b.db.claim? id).filter _ = _
      rw [hc]
      simp [Option.filter, hgone]
  · refine (lookup_filter_of_keyed ok.placed.lists _ id).trans ?_
    change (b.db.list? id).filter _ = _
    cases h : b.db.list? id with
    | none => rfl
    | some l =>
      rcases hid with hid | hid
      · rw [h] at hid
        cases hid
      · have : l.id = id := (lookup_mem h).2
        simp [Option.filter, this, hid]

private theorem reached_patchList (ok : Sound b) {cur : CurrentList} {body : PatchListBody}
    (h : patchList b cur body = .ok b') (on : L cur.listId) : Reached L M b b' := by
  simp only [patchList, bind_eq_ok, require_eq_ok] at h
  obtain ⟨-, -, -, -, h⟩ := h
  obtain rfl := (Except.ok.inj h).symm
  have rows : Within L M b.db { b.db with
      lists := updateWhere
        (fun l => decide (l.id = cur.listId) && decide (l.groupId = cur.groupId))
        body.assignRow b.db.lists } := by
    refine ok.placed.updateLists (fun _ => rfl) fun l _ hsel => ?_
    simp only [Bool.and_eq_true, decide_eq_true_eq] at hsel
    exact hsel.1 ▸ on
  have reached := reached_onDb ok rows
  refine ⟨⟨reached.sound.placed, reached.sound.gone⟩, fun l hL => ?_, reached.suggestions,
    reached.gone, reached.claims⟩
  refine ownRows_ext (rows.apart l hL) ?_ rfl
  refine filter_updateWhere_off fun t _ hsel => ?_
  simp only [Bool.and_eq_true, decide_eq_true_eq] at hsel
  have hne : t.listId ≠ l := fun h => hL (by rw [← h, hsel.1]; exact on)
  simp [PatchListBody.assignText, hne]

private theorem reached_replaceMarkets (ok : Sound b) {cur : CurrentList} {body : MarketChoice}
    (h : replaceMarkets b cur body = .ok b') (on : L cur.listId) : Reached L M b b' := by
  simp only [replaceMarkets, bind_eq_ok, require_eq_ok] at h
  obtain ⟨-, -, -, -, markets, -, -, -, -, -, h⟩ := h
  obtain rfl := (Except.ok.inj h).symm
  refine ⟨⟨ok.placed, ok.gone⟩, fun l hL => ownRows_ext rfl rfl ?_, fun _ _ => rfl,
    fun _ hl => hl, fun id c hc => .inr ⟨c, hc, rfl⟩⟩
  have hne : cur.listId ≠ l := fun h => hL (h ▸ on)
  unfold marketsOn
  rw [List.filter_append]
  have none_new : (body.rows cur.listId markets).filter (fun m => decide (m.listId = l)) = [] := by
    refine List.filter_eq_nil_iff.mpr fun m hm hl => ?_
    obtain ⟨x, -, rfl⟩ := List.mem_map.mp hm
    exact hne (of_decide_eq_true hl)
  rw [none_new, List.append_nil]
  exact filter_off fun m _ hm => by simpa [of_decide_eq_true hm] using hne.symm

private theorem reached_create (ok : Sound b) {limits : Api.Lists.Limits} {userId groupId : Uuid}
    {body : CreateBody} {ids : NewIds} (h : create b limits userId groupId body ids = .ok b')
    (on : L ids.listId) : Reached L M b b' := by
  simp only [create, bind_eq_ok, require_eq_ok, pure_eq_ok] at h
  obtain ⟨-, -, markets, -, -, -, -, unused, s, hs, rfl⟩ := h
  have apart : Apart L M b.db s := apart_create ok.placed hs on
  obtain ⟨claims, lists⟩ := create_stays hs
  refine ⟨⟨apart.placed, fun l hl => ?_⟩, fun l hL => ?_, apart.suggestions, fun _ hl => hl,
    fun id c hc => .inr ⟨c, (claims id).trans hc, rfl⟩⟩
  · have hne : l ≠ ids.listId := fun h => unused (h ▸ hl)
    exact (lists l hne).trans (ok.gone l hl)
  · have hne : ids.listId ≠ l := fun h => hL (h ▸ on)
    refine ownRows_ext (apart.apart l hL) ?_ ?_
    · simp [textsOn, List.filter_append, hne]
    · have none_new : (body.markets.rows ids.listId markets).filter
          (fun m => decide (m.listId = l)) = [] := by
        refine List.filter_eq_nil_iff.mpr fun m hm hl => ?_
        obtain ⟨x, -, rfl⟩ := List.mem_map.mp hm
        exact hne (of_decide_eq_true hl)
      simp only [marketsOn, List.filter_append, none_new, List.append_nil]

private theorem reached_onList (ok : Sound b) {cur : CurrentList} {r : ListRequest}
    (h : r.handle b cur = .ok b') (on : L cur.listId) (onM : M cur.listId) :
    Reached L M b b' := by
  cases r with
  | patchList body => exact reached_patchList ok h on
  | replaceMarkets body => exact reached_replaceMarkets ok h on
  | deleteList =>
    obtain ⟨⟨gone, s'⟩, hs', rfl⟩ := map_eq_ok.mp h
    obtain ⟨only, rfl⟩ := Api.Deletion.deleteList_ok hs'
    have deleted : Reached L M b (b.drop gone { Api.Deletion.dropLists b.db gone with
        directory := b.db.directory }) :=
      reached_deleting ok (fun l hl => only l hl ▸ on) fun l hl => only l hl ▸ onM
    exact deleted
  | addItems limits lines itemIds =>
    refine reached_of_onDb ok h fun s' hs' => ?_
    obtain ⟨-, -, hs'⟩ := Api.Handlers.addItems_ok hs'
    exact within_addLines ok.placed hs' on
  | patchItem itemId body =>
    exact reached_of_onDb ok h fun s' hs' => within_patchItem ok.placed hs' on
  | deleteItem itemId =>
    exact reached_of_onDb ok h fun s' hs' => within_deleteItem ok.placed hs' on
  | createClaim itemIds claimId =>
    exact reached_of_onDb ok h fun s' hs' => within_createClaim ok.placed hs' on
  | recordFulfillment itemId body gen =>
    exact reached_of_onDb ok h fun s' hs' => within_recordFulfillment ok.placed hs' on onM
  | markDelivered itemId lastHauler =>
    exact reached_of_onDb ok h fun s' hs' => within_markDelivered ok.placed hs' on
  | setListTip tipPct =>
    exact reached_of_onDb ok h fun s' hs' => within_setListTip ok.placed hs' on

private theorem reached_onClaim (ok : Sound b) {cur : CurrentClaim} {r : ClaimRequest}
    (known : Known (.onClaim cur r) b) (h : r.handle b cur = .ok b') (on : L cur.listId) :
    Reached L M b b' := by
  -- The handlers lock the list, so it has not been deleted since the snapshot.
  have still : b.db.list? cur.listId ≠ none →
      ∃ c, b.db.claim? cur.claimId = some c ∧ c.listId = cur.listId := fun listed =>
    known.resolve_left fun hgone => listed (ok.gone _ hgone)
  cases r with
  | addClaimItems itemIds =>
    refine reached_of_onDb ok h fun s' hs' => ?_
    obtain ⟨-, -, -, listed, -⟩ := Api.Handlers.addClaimItems_ok hs'
    exact within_addClaimItems ok.placed (still listed) on hs'
  | removeClaimItem itemId =>
    refine reached_of_onDb ok h fun s' hs' => ?_
    obtain ⟨-, listed, -⟩ := Api.Handlers.removeClaimItem_ok hs'
    exact within_removeClaimItem ok.placed (still listed) on hs'
  | releaseClaim =>
    refine reached_of_onDb ok h fun s' hs' => ?_
    obtain ⟨-, listed, -⟩ := Api.Handlers.releaseClaim_ok hs'
    exact within_releaseClaim ok.placed (still listed) on hs'

private theorem reached_byUser (ok : Sound b) {userId : Uuid} {r : UserRequest}
    (h : r.handle b userId = .ok b') (on : ∀ l ∈ userTouches b.db r, L l)
    (onM : ∀ l, suggests b.db (.byUser userId r) l → M l) : Reached L M b b' := by
  have onM' : ∀ l ∈ userTouches b.db r, M l := fun l hl => onM l (.inl hl)
  cases r with
  | patchListPayer listId body =>
    refine reached_of_onDb ok h fun s' hs' => ?_
    exact within_patchListPayer ok.placed hs' (on _ (by simp [userTouches]))
  | reverseFulfillment fid newId now =>
    refine reached_of_onDb ok h fun s' hs' => ?_
    obtain ⟨f, li, l, hf, hli, -, -, -, within⟩ := within_reverseFulfillment ok.placed hs'
    have touched : li.listId ∈ userTouches b.db (.reverseFulfillment fid newId now) := by
      simp [userTouches, hf, hli]
    exact within (on _ touched) (onM' _ touched)
  | settleReimbursement rid now =>
    refine reached_of_onDb ok h fun s' hs' => ?_
    obtain ⟨r, hr, -, hs'⟩ := Api.Reimbursements.settleReimbursement_ok hs'
    exact within_settleManual ok.placed hr hs' (on _ (mem_listOwing.mpr ⟨r, hr, rfl⟩))
  | doConfirm gid now =>
    refine reached_of_onDb ok h fun s' hs' => ?_
    obtain ⟨g, c, r, l, hg, hc, hr, -, -, within⟩ := within_doConfirm ok.placed hs'
    have touched : userTouches b.db (.doConfirm gid now) =
        linkTouches b.db g.contractId g.reimbursementId := by
      simp [userTouches, hg]
    have hcid : c.id = g.contractId := (lookup_mem hc).2
    rw [touched] at on onM'
    refine within (on _ (mem_linkTouches.mpr (.inl ⟨r, hr, rfl⟩)))
      (onM' _ (mem_linkTouches.mpr (.inl ⟨r, hr, rfl⟩))) fun finished x hx hb => ?_
    exact on _ (mem_linkTouches.mpr (.inr ⟨c, hc, finished, x, hx, hcid ▸ hb, rfl⟩))
  | doReject gid =>
    refine reached_of_onDb ok h fun s' hs' => ?_
    obtain ⟨g, r, l, hg, hr, -, -, within⟩ := within_doReject ok.placed hs'
    exact within (onM _ (.inr ⟨g, hg, by simp [owedOn, hr]⟩))
  | doManualLink cid rid newId now =>
    refine reached_of_onDb ok h fun s' hs' => ?_
    obtain ⟨c, r, l, hc, hr, -, -, within⟩ := within_doManualLink ok.placed hs'
    have hcid : c.id = cid := (lookup_mem hc).2
    refine within (on _ (mem_linkTouches.mpr (.inl ⟨r, hr, rfl⟩)))
      (onM' _ (mem_linkTouches.mpr (.inl ⟨r, hr, rfl⟩))) fun finished x hx hb => ?_
    exact on _ (mem_linkTouches.mpr (.inr ⟨c, hc, finished, x, hx, hcid ▸ hb, rfl⟩))
  | doUnlink cid =>
    refine reached_of_onDb ok h fun s' hs' => ?_
    obtain ⟨c, -, -, rfl⟩ := Api.Contracts.doUnlink_ok hs'
    refine within_unbind ok.placed (fun r hr hp => on _ (mem_listsOwing.mpr ⟨r, hr, hp, rfl⟩)) ?_
    exact fun g hg hcid hstate l hl => onM l (.inr ⟨g, hg, hcid, hstate, hl⟩)
  | directory d =>
    refine reached_of_onDb ok h fun s' hs' => ?_
    simp only [mapError_eq_ok, Operations.changeDirectory, bind_eq_ok, require_eq_ok] at hs'
    obtain ⟨-, -, hs'⟩ := hs'
    obtain rfl := (Except.ok.inj hs').symm
    exact ok.placed.elsewhere rfl rfl rfl rfl rfl rfl rfl
  | track tracked =>
    obtain rfl := (Except.ok.inj h).symm
    exact ⟨⟨ok.placed, ok.gone⟩, fun _ _ => rfl, fun _ _ => rfl, fun _ hl => hl,
      fun id c hc => .inr ⟨c, hc, rfl⟩⟩

theorem reached_handle {p : Prepared} (ok : Sound b) (known : Known p b)
    (h : handle p b = .ok b') : Reached (touches b.db p) (suggests b.db p) b b' := by
  cases p with
  | onList cur r => exact reached_onList ok h rfl (.inl rfl)
  | onClaim cur r => exact reached_onClaim ok known h rfl
  | onGroup cur r =>
    cases r with
    | create limits body ids => exact reached_create ok h rfl
    | deleteGroup =>
      obtain ⟨⟨gone, s'⟩, hs', rfl⟩ := map_eq_ok.mp h
      obtain ⟨only, rfl⟩ := Api.Deletion.deleteGroup_ok hs'
      exact reached_deleting ok only fun l hl => .inl (only l hl)
  | byUser userId r => exact reached_byUser ok h (fun _ hl => hl) fun _ hl => hl

theorem reached_work {j : Job} (ok : Sound b) (h : work j b = .ok b') :
    Reached (fun _ => True) (fun _ => True) b b' := by
  cases j with
  | importMarkets markets =>
    obtain rfl := (Except.ok.inj h).symm
    exact ⟨⟨ok.placed, ok.gone⟩, fun _ _ => rfl, fun _ _ => rfl, fun _ hl => hl,
      fun id c hc => .inr ⟨c, hc, rfl⟩⟩
  | upsertContract u newId =>
    refine reached_of_onDb ok h fun s' hs' => ?_
    simp only [mapError_eq_ok, map_eq_ok] at hs'
    obtain ⟨⟨o, s''⟩, hs', rfl⟩ := hs'
    exact within_upsertContract ok.placed hs'
  | syncItemsFor cid items now =>
    refine reached_of_onDb ok h fun s' hs' => ?_
    simp only [mapError_eq_ok] at hs'
    obtain ⟨rows, rfl⟩ := Worker.Match.syncItemsFor_ok hs'
    exact ok.placed.elsewhere rfl rfl rfl rfl rfl rfl rfl
  | runOne cid newId =>
    refine reached_of_onDb ok h fun s' hs' => ?_
    simp only [mapError_eq_ok] at hs'
    exact within_runOne ok.placed hs' fun _ => trivial
  | handleContractTerminal u now =>
    refine reached_of_onDb ok h fun s' hs' => ?_
    simp only [mapError_eq_ok] at hs'
    rcases Worker.Terminal.handleContractTerminal_ok hs' with ⟨-, infos, hsettle⟩ | ⟨-, rfl⟩ |
      ⟨-, -, rfl⟩
    · exact within_settleViaContract ok.placed hsettle fun _ _ _ => trivial
    · exact within_unbind ok.placed (fun _ _ _ => trivial) fun _ _ _ _ _ _ => trivial
    · exact ok.placed.refl

end Handling

end JitaCart.Tenancy
