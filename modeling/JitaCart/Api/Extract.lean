/- module: JitaCart/Api/Extract
   source: backend/crates/api/src/extract.rs
   digest: The list and claim extractors with their membership and status checks. -/

import JitaCart.Schema
import JitaCart.Base.Request

set_option autoImplicit false
set_option relaxedAutoImplicit false

namespace JitaCart.Api.Extract

open Schema Base.Request

/-- The list of the route, the caller, and the caller's role in the list's group. -/
structure CurrentList where
  userId : Uuid
  groupId : Uuid
  listId : Uuid
  role : GroupRole
  createdByUserId : Uuid
  status : ListStatus

def currentList (s : Db) (userId listId : Uuid) : Except ApiError CurrentList := do
  let l ← fetch (.notFound "list not found") (s.list? listId)
  let role ← fetch (.forbidden "you are not a member of this list's group")
    (s.directory.roleOf userId l.groupId)
  return ⟨userId, l.groupId, listId, role, l.createdByUserId, l.status⟩

/-- `require_open` with the message of the calling handler. -/
def CurrentList.requireOpen (cur : CurrentList) (action : String) : Except ApiError Unit :=
  require (cur.status = .open) (.conflict s!"list is {cur.status}; {action}")

def CurrentList.requireMutable (cur : CurrentList) : Except ApiError Unit :=
  require (cur.status ≠ .archived) (.conflict "list is archived; no changes can be made")

def CurrentList.requireCanManage (cur : CurrentList) : Except ApiError Unit :=
  require (cur.userId = cur.createdByUserId ∨ cur.role = .owner)
    (.forbidden "only the list creator or a group owner can change list status")

/-- `CurrentGroup`: the caller's role in the group of the route. -/
def currentGroup (s : Db) (userId groupId : Uuid) : Except ApiError GroupRole :=
  fetch (.forbidden "you are not a member of this group") (s.directory.roleOf userId groupId)

/-- The claim of the route with its list's status. -/
structure CurrentClaim where
  userId : Uuid
  groupId : Uuid
  listId : Uuid
  claimId : Uuid
  haulerUserId : Uuid
  role : GroupRole
  status : ClaimStatus
  listStatus : ListStatus

def currentClaim (s : Db) (userId claimId : Uuid) : Except ApiError CurrentClaim := do
  let c ← fetch (.notFound "claim not found") (s.claim? claimId)
  let l ← fetch (.notFound "claim not found") (s.list? c.listId)
  let role ← fetch (.forbidden "you are not a member of this claim's group")
    (s.directory.roleOf userId l.groupId)
  return ⟨userId, l.groupId, c.listId, claimId, c.haulerUserId, role, c.status, l.status⟩

def CurrentClaim.requireListMutable (cur : CurrentClaim) : Except ApiError Unit :=
  require (cur.listStatus ≠ .archived) (.conflict "list is archived; no changes can be made")

theorem currentList_ok {s : Db} {userId listId : Uuid} {cur : CurrentList}
    (h : currentList s userId listId = .ok cur) :
    ∃ l role, s.list? listId = some l ∧ s.directory.roleOf userId l.groupId = some role ∧
      cur = ⟨userId, l.groupId, listId, role, l.createdByUserId, l.status⟩ := by
  simp only [currentList, bind_eq_ok, fetch_eq_ok, pure_eq_ok] at h
  obtain ⟨l, hl, role, hrole, rfl⟩ := h
  exact ⟨l, role, hl, hrole, rfl⟩

theorem currentClaim_ok {s : Db} {userId claimId : Uuid} {cur : CurrentClaim}
    (h : currentClaim s userId claimId = .ok cur) :
    ∃ c l role, s.claim? claimId = some c ∧ s.list? c.listId = some l ∧
      s.directory.roleOf userId l.groupId = some role ∧
      cur = ⟨userId, l.groupId, c.listId, claimId, c.haulerUserId, role, c.status, l.status⟩ := by
  simp only [currentClaim, bind_eq_ok, fetch_eq_ok, pure_eq_ok] at h
  obtain ⟨c, hc, l, hl, role, hrole, rfl⟩ := h
  exact ⟨c, l, role, hc, hl, hrole, rfl⟩

end JitaCart.Api.Extract
