/- module: JitaCart/Api/Deletion
   source: backend/crates/api/src/lists/crud.rs (delete_list),
     backend/crates/api/src/groups.rs (delete_group),
     backend/migrations/20260427000000_init.sql (ON DELETE CASCADE)
   digest: Deleting a list or a whole group, with the cascades to every row of its lists. -/

import JitaCart.Api.Extract

set_option autoImplicit false
set_option relaxedAutoImplicit false

namespace JitaCart.Api.Deletion

open Schema Base.Table Base.Request Extract

/-- The item, the claim and the reimbursement of a row, on one of the given lists. -/
def itemOn (s : Db) (lists : List Uuid) (itemId : Uuid) : Bool :=
  (s.item? itemId).any fun li => decide (li.listId ∈ lists)

def claimOn (s : Db) (lists : List Uuid) (claimId : Uuid) : Bool :=
  (s.claim? claimId).any fun c => decide (c.listId ∈ lists)

def dueOn (s : Db) (lists : List Uuid) (reimbursementId : Uuid) : Bool :=
  (s.reimbursement? reimbursementId).any fun r => decide (r.listId ∈ lists)

/-- `DELETE FROM lists` and its cascades. A purchase goes with its item, so `claim_id ... ON DELETE
SET NULL` has nothing left to clear. -/
def dropLists (s : Db) (gone : List Uuid) : Db :=
  { s with
    lists := s.lists.filter fun l => decide (l.id ∉ gone)
    listItems := s.listItems.filter fun li => decide (li.listId ∉ gone)
    claims := s.claims.filter fun c => decide (c.listId ∉ gone)
    claimItems := s.claimItems.filter fun ci =>
      !(claimOn s gone ci.claimId || itemOn s gone ci.listItemId)
    fulfillments := s.fulfillments.filter fun f => !itemOn s gone f.listItemId
    reimbursements := s.reimbursements.filter fun r => decide (r.listId ∉ gone)
    suggestions := s.suggestions.filter fun g => !dueOn s gone g.reimbursementId }

/-- `delete_list` on the snapshot of its extractor, with the ids of the rows it deleted. -/
def deleteList (s : Db) (cur : CurrentList) : Except ApiError (List Uuid × Db) := do
  require (cur.createdByUserId = cur.userId ∨ cur.role = .owner) .noAccess
  let gone := (s.lists.filter fun l =>
    decide (l.id = cur.listId) && decide (l.groupId = cur.groupId)).map (·.id)
  require (gone ≠ []) .missing
  .ok (gone, dropLists s gone)

/-- The group goes with its memberships and corp links. -/
def dropGroup (s : Db) (groupId : Uuid) : Db :=
  { s with
    directory := { s.directory with
      groups := s.directory.groups.filter fun g => decide (g.id ≠ groupId)
      groupMemberships := s.directory.groupMemberships.filter fun m => decide (m.groupId ≠ groupId)
      groupCorps := s.directory.groupCorps.filter fun gc => decide (gc.groupId ≠ groupId) } }

/-- `delete_group` in the role that its extractor read. -/
def deleteGroup (s : Db) (role : GroupRole) (groupId : Uuid) :
    Except ApiError (List Uuid × Db) := do
  require (role = .owner) (.forbidden "owner role required")
  require (lookup Group.id groupId s.directory.groups ≠ none) (.notFound "group not found")
  let gone := (s.lists.filter fun l => decide (l.groupId = groupId)).map (·.id)
  .ok (gone, dropGroup (dropLists s gone) groupId)

theorem deleteList_ok {s s' : Db} {cur : CurrentList} {gone : List Uuid}
    (h : deleteList s cur = .ok (gone, s')) :
    (∀ l ∈ gone, l = cur.listId) ∧ s' = dropLists s gone := by
  simp only [deleteList, bind_eq_ok, require_eq_ok, Except.ok.injEq, Prod.mk.injEq] at h
  obtain ⟨-, -, -, -, rfl, rfl⟩ := h
  refine ⟨fun l hl => ?_, rfl⟩
  obtain ⟨x, hx, rfl⟩ := List.mem_map.mp hl
  have := (List.mem_filter.mp hx).2
  simp only [Bool.and_eq_true, decide_eq_true_eq] at this
  exact this.1

theorem deleteGroup_ok {s s' : Db} {role : GroupRole} {groupId : Uuid} {gone : List Uuid}
    (h : deleteGroup s role groupId = .ok (gone, s')) :
    (∀ l ∈ gone, ∃ x ∈ s.lists, x.id = l ∧ x.groupId = groupId) ∧
      s' = dropGroup (dropLists s gone) groupId := by
  simp only [deleteGroup, bind_eq_ok, require_eq_ok, Except.ok.injEq, Prod.mk.injEq] at h
  obtain ⟨-, -, -, -, rfl, rfl⟩ := h
  refine ⟨fun l hl => ?_, rfl⟩
  obtain ⟨x, hx, rfl⟩ := List.mem_map.mp hl
  obtain ⟨hx, hgroup⟩ := List.mem_filter.mp hx
  exact ⟨x, hx, rfl, of_decide_eq_true hgroup⟩

end JitaCart.Api.Deletion
