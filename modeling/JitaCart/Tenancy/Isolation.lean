/- module: JitaCart/Tenancy/Isolation
   source: backend/crates/api/src/contracts.rs, backend/crates/settlement/src/lib.rs,
     backend/SECURITY.md (Multi-tenant isolation)
   digest: A request leaves the rows of groups that its caller is not in as they were. -/

import JitaCart.Tenancy.Touched

/-!
A contract has no group, so two requests can leave the groups of their caller:
linking to a finished contract settles everything bound to it, and unlinking
retires every confirmed suggestion of it. Both are harmless while the caller is
in the groups of those rows.
-/

set_option autoImplicit false
set_option relaxedAutoImplicit false

namespace JitaCart.Tenancy.Isolation

open Schema Base.Table Base.Request Settlement Api.Extract Api.Routes Operations
open Api.Contracts (isMember)

inductive Event
  | request (r : Request)
  | job (j : Job)

def Event.request? : Event → Option Request
  | .request r => some r
  | .job _ => none

/-- A request is its extractors and its handler in one go. -/
def step : Event → Board → Except ApiError Board
  | .request r, b => do
    let p ← prepare r b
    handle p b
  | .job j, b => work j b

/-- The board after a run of requests and jobs from the empty one. -/
def reached (events : List Event) : Board := run step {} events

theorem sound_reached (events : List Event) : Sound (reached events) := by
  refine run_invariant (fun b e b' ok h => ?_) ⟨by constructor <;> simp [Keyed], by simp⟩ events
  cases e with
  | request r =>
    obtain ⟨p, hp, h⟩ := bind_eq_ok.mp h
    exact (reached_handle ok (known_prepare hp) h).sound
  | job j => exact (reached_work ok h).sound

/-- The list is of a group that the user is not in. -/
def Foreign (s : Db) (userId listId : Uuid) : Prop :=
  ∃ l ∈ s.list? listId, ¬ isMember s l.groupId userId

instance (s : Db) (userId listId : Uuid) : Decidable (Foreign s userId listId) := by
  unfold Foreign
  infer_instance

/-- Nothing of a foreign list is bound to the contract, should it be finished. -/
def BoundAtHome (s : Db) (userId cid : Uuid) : Prop :=
  ∀ c ∈ s.contract? cid, c.status.isTerminalSuccess = true →
    ∀ r ∈ s.reimbursements, boundTo cid r = true → ¬ Foreign s userId r.listId

instance (s : Db) (userId cid : Uuid) : Decidable (BoundAtHome s userId cid) := by
  unfold BoundAtHome
  infer_instance

/-- The contracts that a request links to, and those whose links it removes. -/
def linksTo (s : Db) : Request → Option Uuid
  | .byUser _ (.doConfirm gid _) => (s.suggestion? gid).map (·.contractId)
  | .byUser _ (.doManualLink cid _ _ _) => some cid
  | _ => none

def unlinks : Request → Option Uuid
  | .byUser _ (.doUnlink cid) => some cid
  | _ => none

/-- A link to a finished contract finds only rows of the caller's groups bound to it, and an unlink
only confirmed suggestions of those. -/
def AtHome (b : Board) (e : Event) : Prop :=
  ∀ r ∈ e.request?, (∀ cid ∈ linksTo b.db r, BoundAtHome b.db r.userId cid) ∧
    ∀ cid ∈ unlinks r, ∀ g ∈ b.db.suggestions, g.contractId = cid → g.state = .confirmed →
      ∀ x ∈ b.db.reimbursement? g.reimbursementId, ¬ Foreign b.db r.userId x.listId

instance (b : Board) (e : Event) : Decidable (AtHome b e) := by
  unfold AtHome
  infer_instance

section Home
variable {b b' : Board} {userId : Uuid}

private theorem not_foreign {s : Db} {listId : Uuid} {l : ListRow} (hl : s.list? listId = some l)
    (member : isMember s l.groupId userId) : ¬ Foreign s userId listId := by
  rintro ⟨x, hx, outsider⟩
  obtain rfl : l = x := Option.some.inj (hl.symm.trans hx)
  exact outsider member

/-- The rows that a user request touches are of the caller's groups. -/
private theorem home_of_byUser {r : UserRequest} (ok : Sound b)
    (home : AtHome b (.request (.byUser userId r))) (h : r.handle b userId = .ok b') (l : Uuid)
    (hl : l ∈ userTouches b.db r) : ¬ Foreign b.db userId l := by
  obtain ⟨linked, -⟩ := home _ rfl
  cases r with
  | patchListPayer listId body =>
    obtain ⟨s', hs', rfl⟩ := map_eq_ok.mp h
    obtain rfl : l = listId := List.mem_singleton.mp hl
    simp only [Api.Lists.patchListPayer, bind_eq_ok, fetch_eq_ok, require_eq_ok] at hs'
    obtain ⟨-, -, x, hx, -, owner, -⟩ := hs'
    exact not_foreign hx (by simp [isMember, owner])
  | reverseFulfillment fid newId now =>
    obtain ⟨s', hs', rfl⟩ := map_eq_ok.mp h
    obtain ⟨f, li, x, hf, hli, hx, -, member, -⟩ := within_reverseFulfillment ok.placed hs'
    obtain rfl : l = li.listId := by simpa [userTouches, hf, hli] using hl
    exact not_foreign hx member
  | settleReimbursement rid now =>
    obtain ⟨s', hs', rfl⟩ := map_eq_ok.mp h
    obtain ⟨r, hr, rfl⟩ := mem_listOwing.mp hl
    simp only [Api.Reimbursements.settleReimbursement, bind_eq_ok, fetch_eq_ok, require_eq_ok]
      at hs'
    obtain ⟨r', hr', -, -, -, -, -, -, x, hx, role, hrole, -⟩ := hs'
    obtain rfl : r = r' := Option.some.inj (hr.symm.trans hr')
    exact not_foreign hx (by simp [isMember, hrole])
  | doConfirm gid now =>
    obtain ⟨s', hs', rfl⟩ := map_eq_ok.mp h
    obtain ⟨g, c, r, x, hg, hc, hr, hx, member, -⟩ := within_doConfirm ok.placed hs'
    have hl : l ∈ linkTouches b.db g.contractId g.reimbursementId := by
      simpa [userTouches, hg] using hl
    obtain ⟨r', hr', rfl⟩ | ⟨c', hc', finished, r', hr', hb, rfl⟩ := mem_linkTouches.mp hl
    · obtain rfl : r = r' := Option.some.inj (hr.symm.trans hr')
      exact not_foreign hx member
    · exact linked g.contractId (by simp [linksTo, hg]) c' hc' finished r' hr' hb
  | doManualLink cid rid newId now =>
    obtain ⟨s', hs', rfl⟩ := map_eq_ok.mp h
    obtain ⟨c, r, x, hc, hr, hx, member, -⟩ := within_doManualLink ok.placed hs'
    obtain ⟨r', hr', rfl⟩ | ⟨c', hc', finished, r', hr', hb, rfl⟩ := mem_linkTouches.mp hl
    · obtain rfl : r = r' := Option.some.inj (hr.symm.trans hr')
      exact not_foreign hx member
    · exact linked cid rfl c' hc' finished r' hr' hb
  | doUnlink cid =>
    obtain ⟨s', hs', rfl⟩ := map_eq_ok.mp h
    obtain ⟨r, hr, hp, rfl⟩ := mem_listsOwing.mp hl
    simp only [Api.Contracts.doUnlink, bind_eq_ok, fetch_eq_ok, require_eq_ok] at hs'
    obtain ⟨c, -, -, -, -, members, -⟩ := hs'
    rintro ⟨x, hx, outsider⟩
    simp only [pendingOn, Bool.and_eq_true] at hp
    exact outsider (members r hr hp.1 x hx)
  | doReject | directory | track => exact absurd hl List.not_mem_nil

private theorem home_of_touches {r : Request} {p : Prepared} (ok : Sound b)
    (hp : prepare r b = .ok p) (home : AtHome b (.request r)) (h : handle p b = .ok b') (l : Uuid)
    (hl : touches b.db p l) : ¬ Foreign b.db r.userId l := by
  cases r with
  | onList u listId r =>
    obtain ⟨cur, hcur, rfl⟩ := map_eq_ok.mp hp
    obtain ⟨x, role, hx, hrole, rfl⟩ := currentList_ok hcur
    obtain rfl : l = listId := hl
    exact not_foreign hx (by simp [isMember, Request.userId, hrole])
  | onClaim u claimId r =>
    obtain ⟨cur, hcur, rfl⟩ := map_eq_ok.mp hp
    obtain ⟨c, x, role, -, hx, hrole, rfl⟩ := currentClaim_ok hcur
    obtain rfl : l = c.listId := hl
    exact not_foreign hx (by simp [isMember, Request.userId, hrole])
  | onGroup u groupId r =>
    obtain ⟨role, hrole, rfl⟩ := map_eq_ok.mp hp
    simp only [currentGroup, fetch_eq_ok] at hrole
    cases r with
    | create limits body ids =>
      obtain rfl : l = ids.listId := hl
      simp only [handle, GroupRequest.handle, create, bind_eq_ok] at h
      obtain ⟨-, -, -, -, -, -, -, -, s, hs, -⟩ := h
      obtain ⟨fresh, -⟩ := Api.Handlers.create_ok hs
      rintro ⟨x, hx, -⟩
      rw [fresh] at hx
      cases hx
    | deleteGroup =>
      obtain ⟨x, hx, rfl, hgroup⟩ := hl
      refine not_foreign ((lookup_eq_some ok.placed.lists).mpr ⟨hx, rfl⟩) ?_
      have hgroup : x.groupId = groupId := hgroup
      simp [isMember, Request.userId, hgroup, hrole]
  | byUser u r =>
    obtain rfl := Except.ok.inj hp
    exact home_of_byUser ok home h l hl

private theorem owedOn_eq_true {s : Db} {l rid : Uuid} (h : owedOn s l rid = true) :
    ∃ r, s.reimbursement? rid = some r ∧ r.listId = l := by
  unfold owedOn at h
  cases hr : s.reimbursement? rid with
  | none => simp [hr] at h
  | some r => exact ⟨r, rfl, by simpa [hr] using h⟩

private theorem home_of_suggests {r : Request} {p : Prepared} (ok : Sound b)
    (hp : prepare r b = .ok p) (home : AtHome b (.request r)) (h : handle p b = .ok b') (l : Uuid)
    (hl : suggests b.db p l) : ¬ Foreign b.db r.userId l := by
  rcases hl with hl | hl
  · exact home_of_touches ok hp home h l hl
  · split at hl
    · rename_i u gid
      obtain ⟨g, hg, howed⟩ := hl
      obtain ⟨x, hx, rfl⟩ := owedOn_eq_true howed
      obtain ⟨s', hs', rfl⟩ := map_eq_ok.mp h
      obtain ⟨g', x', row, hg', hx', hrow, member, -⟩ := within_doReject ok.placed hs'
      obtain rfl : g = g' := Option.some.inj (hg.symm.trans hg')
      obtain rfl : x = x' := Option.some.inj (hx.symm.trans hx')
      obtain rfl := prepare_byUser hp
      exact not_foreign hrow member
    · rename_i u cid
      obtain ⟨g, hg, hcid, hstate, howed⟩ := hl
      obtain ⟨x, hx, rfl⟩ := owedOn_eq_true howed
      obtain rfl := prepare_byUser hp
      exact (home _ rfl).2 cid rfl g hg hcid hstate x hx
    · exact hl.elim

private theorem rowsOn_request {r : Request} (ok : Sound b) (home : AtHome b (.request r))
    {l : Uuid} (foreign : Foreign b.db r.userId l) :
    rowsOn (exec step b (.request r)) l = rowsOn b l := by
  cases h : step (.request r) b with
  | error e => rw [exec_of_error h]
  | ok b' =>
    rw [exec_of_ok h]
    obtain ⟨p, hp, h⟩ := bind_eq_ok.mp h
    refine (reached_handle ok (known_prepare hp) h).rowsOn_eq (fun hl => ?_) fun hl => ?_
    · exact home_of_touches ok hp home h l hl foreign
    · exact home_of_suggests ok hp home h l hl foreign

end Home

/-- In every run whose links and unlinks stay at home, no request changes a row of a group that its
caller is not in at that moment. -/
theorem foreign_rows_unchanged {events : List Event} (home : Meets step AtHome {} events)
    {before after : List Event} {r : Request} (split : events = before ++ .request r :: after)
    {l : Uuid} (foreign : Foreign (reached before).db r.userId l) :
    rowsOn (exec step (reached before) (.request r)) l = rowsOn (reached before) l := by
  rw [split, meets_append] at home
  exact rowsOn_request (sound_reached before) home.2.1 foreign

-- Two groups of the same owner, with member 3 hauling for both and then leaving the first.
def twoGroups (memberships : List GroupMembership) : Directory where
  principals := [⟨1, .user 1⟩, ⟨3, .user 3⟩]
  groups := [⟨1, 0⟩, ⟨2, 0⟩]
  groupMemberships := memberships

def joined : Directory :=
  twoGroups [⟨1, 1, .owner⟩, ⟨3, 1, .member⟩, ⟨1, 2, .owner⟩, ⟨3, 2, .member⟩]

def departed : Directory := twoGroups [⟨1, 1, .owner⟩, ⟨1, 2, .owner⟩, ⟨3, 2, .member⟩]

def oneItem : CreateBody := ⟨none, none, ⟨[7], 7⟩, [⟨34, "Tritanium", 1, 1⟩]⟩

/-- Member 3 buys on a list of each group, links the purchase of the first group to a contract,
and leaves that group. -/
def departure : List Event :=
  [.request (.byUser 1 (.directory joined)),
    .job (.importMarkets [⟨7, .npcHub, true, true, some "Jita"⟩]),
    .request (.onGroup 1 1 (.create sampleLimits oneItem ⟨1, [1]⟩)),
    .request (.onGroup 1 2 (.create sampleLimits oneItem ⟨2, [2]⟩)),
    .request (.onList 3 1 (.recordFulfillment 1 (samplePurchase 1 5) ⟨1, 1, 1⟩)),
    .request (.onList 3 2 (.recordFulfillment 2 (samplePurchase 1 5) ⟨2, 2, 2⟩)),
    .job (.upsertContract (sampleContract .outstanding) 1),
    .request (.byUser 3 (.doManualLink 1 1 1 3)),
    .request (.byUser 3 (.directory departed))]

/-- The contract finishes, and the settlement of the worker has not run. -/
def finishedRun : List Event := departure ++ [.job (.upsertContract (sampleContract .finished) 9)]

/-- The contract is cancelled, and the worker has unbound it. -/
def cancelledRun : List Event :=
  departure ++ [.job (.upsertContract (sampleContract .cancelled) 9),
    .job (.handleContractTerminal ⟨1, .cancelled, true⟩ 4)]

/-- Linking the second group's purchase settles the reimbursement of the first group, and unlinking
the cancelled contract retires the first group's suggestion. -/
theorem links_leave_home :
    (Foreign (reached finishedRun).db 3 1 ∧
      rowsOn (exec step (reached finishedRun) (.request (.byUser 3 (.doManualLink 1 2 2 5)))) 1 ≠
        rowsOn (reached finishedRun) 1) ∧
    Foreign (reached cancelledRun).db 3 1 ∧
      rowsOn (exec step (reached cancelledRun) (.request (.byUser 3 (.doUnlink 1)))) 1 ≠
        rowsOn (reached cancelledRun) 1 := by
  decide +kernel

/-- While the contract is outstanding, the same link leaves the first group alone. -/
theorem foreign_rows_unchanged_outstanding :
    rowsOn (exec step (reached departure) (.request (.byUser 3 (.doManualLink 1 2 2 5)))) 1 =
      rowsOn (reached departure) 1 :=
  by
  have home : Meets step AtHome {}
      (departure ++ [.request (.byUser 3 (.doManualLink 1 2 2 5))]) := by
    decide +kernel
  exact foreign_rows_unchanged home rfl (by decide +kernel)

end JitaCart.Tenancy.Isolation
