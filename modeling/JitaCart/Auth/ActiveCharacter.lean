/- module: JitaCart/Auth/ActiveCharacter
   source: backend/crates/api/src/auth.rs (do_set_active_character, upsert_character),
     backend/migrations/20260427000000_init.sql (check_active_character_ownership)
   digest: When the active character of every account is one of its own. -/

import JitaCart.Api.Auth

/-!
The guard of the update and the trigger both look at the user row that is
written. A login writes the other side: it can give a character to another
account while the account it leaves still has it as the active one.
-/

set_option autoImplicit false
set_option relaxedAutoImplicit false

namespace JitaCart.Auth.ActiveCharacter

open Schema Base.Table Base.Request Api.Auth

inductive SetActiveError
  | unauthorized
  | raised (message : String)
  deriving DecidableEq

/-- `EXISTS (SELECT 1 FROM characters WHERE id = $1 AND user_id = $2)`, or no character at all. -/
def ownsOrNone (d : Accounts) (userId : Uuid) (characterId : Option Uuid) : Prop :=
  ∀ id ∈ characterId, ∃ c ∈ d.characters, c.id = id ∧ c.userId = userId

instance (d : Accounts) (userId : Uuid) (characterId : Option Uuid) :
    Decidable (ownsOrNone d userId characterId) := by
  unfold ownsOrNone
  infer_instance

/-- The trigger before an update of `active_character_id`. -/
def checkActiveCharacterOwnership (d : Accounts) (userId : Uuid) (characterId : Option Uuid) :
    Except SetActiveError Unit :=
  require (ownsOrNone d userId characterId) (.raised "active_character_id must belong to the user")

def doSetActiveCharacter (d : Accounts) (userId : Uuid) (characterId : Option Uuid) :
    Except SetActiveError Accounts := do
  require (lookup UserRow.id userId d.users ≠ none ∧ ownsOrNone d userId characterId) .unauthorized
  checkActiveCharacterOwnership d userId characterId
  .ok { d with
    users := updateWhere (fun u => decide (u.id = userId))
      (fun u => { u with activeCharacterId := characterId }) d.users }

/-- The arguments of `upsert_character`. -/
structure Login where
  cipher : Cipher
  claims : EveClaims
  tokens : EsiTokens
  sessionUser : Option Uuid
  attach : Bool
  charactersCap : Int
  new : NewIds

def Login.upsert (l : Login) (d : Accounts) : Except ApiError Accounts :=
  (upsertCharacter d l.cipher l.claims l.tokens l.sessionUser l.attach l.charactersCap l.new).map
    (·.2)

inductive Event
  | login (l : Login)
  | setActive (userId : Uuid) (characterId : Option Uuid)

inductive Refusal
  | login (e : ApiError)
  | setActive (e : SetActiveError)

def applyEvent : Event → Accounts → Except Refusal Accounts
  | .login l, d => (l.upsert d).mapError .login
  | .setActive userId characterId, d =>
    (doSetActiveCharacter d userId characterId).mapError .setActive

def ActiveOwned (d : Accounts) : Prop :=
  ∀ u ∈ d.users, ownsOrNone d u.id u.activeCharacterId

instance (d : Accounts) : Decidable (ActiveOwned d) := by
  unfold ActiveOwned
  infer_instance

/-- The login takes the row out of the account it is in: it is attached to the session's user, or
its owner hash changed. -/
def Login.Moves (l : Login) (row : CharacterRow) : Prop :=
  l.claims.characterId = .ok row.characterId ∧ (l.attach = true ∨ row.ownerHash ≠ l.claims.owner) ∧
    l.sessionUser ≠ some row.userId

/-- No character is taken from an account in which it is the active one. -/
def LeavesInactive (d : Accounts) : Event → Prop
  | .login l => (l.upsert d).isOk = true → ∀ row ∈ d.characters, l.Moves row →
      ∀ u ∈ d.users, u.id = row.userId → u.activeCharacterId ≠ some row.id
  | .setActive _ _ => True

/-- Distinct ids, one row for each EVE character, and every character has its user. -/
structure Registered (d : Accounts) : Prop where
  rows : Keyed CharacterRow.id d.characters
  characters : Keyed CharacterRow.characterId d.characters
  owned : ∀ c ∈ d.characters, ∃ u ∈ d.users, u.id = c.userId

/-- The users after the target was chosen: those before, and possibly the target. -/
def Joined (d d₁ : Accounts) (target : Uuid) : Prop :=
  d₁.users = d.users ∨
    (∀ u ∈ d.users, u.id ≠ target) ∧ ∃ name, d₁.users = d.users ++ [⟨target, name, none⟩]

private theorem createUser_ok {d d₁ : Accounts} {name : String} {new : NewIds} {target : Uuid}
    (h : createUser d name new = .ok (target, d₁)) :
    d₁.characters = d.characters ∧ (∀ u ∈ d.users, u.id ≠ target) ∧
      d₁.users = d.users ++ [⟨target, name, none⟩] := by
  simp only [createUser, bind_eq_ok, require_eq_ok] at h
  obtain ⟨-, fresh, h⟩ := h
  split at h <;> simp only [Except.ok.injEq, Prod.mk.injEq] at h <;> obtain ⟨rfl, rfl⟩ := h <;>
    exact ⟨rfl, lookup_eq_none.mp fresh, rfl⟩

/-- The target is the row's account unless the login moves the row. -/
private theorem targetUser_ok {d d₁ : Accounts} {claims : EveClaims}
    {existing : Option CharacterRow}
    {sessionUser : Option Uuid} {attach : Bool} {new : NewIds} {target : Uuid}
    (known : ∀ row ∈ existing, ∃ u ∈ d.users, u.id = row.userId)
    (h : targetUser d claims existing sessionUser attach new = .ok (target, d₁)) :
    d₁.characters = d.characters ∧ Joined d d₁ target ∧
      ∀ row ∈ existing, target ≠ row.userId ↔
        (attach = true ∨ row.ownerHash ≠ claims.owner) ∧ sessionUser ≠ some row.userId := by
  have created (h : createUser d claims.name new = .ok (target, d₁)) (anonymous : sessionUser = none)
      (moved : ∀ row ∈ existing, row.ownerHash ≠ claims.owner) :
      d₁.characters = d.characters ∧ Joined d d₁ target ∧
        ∀ row ∈ existing, target ≠ row.userId ↔
          (attach = true ∨ row.ownerHash ≠ claims.owner) ∧ sessionUser ≠ some row.userId := by
    obtain ⟨characters, fresh, users⟩ := createUser_ok h
    refine ⟨characters, .inr ⟨fresh, _, users⟩, fun row hrow => ?_⟩
    obtain ⟨u, hu, hid⟩ := known row hrow
    have apart : target ≠ row.userId := fun same => fresh u hu (hid.trans same.symm)
    simp [apart, moved row hrow, anonymous]
  unfold targetUser at h
  split at h
  · rename_i attached
    simp only [bind_eq_ok, fetch_eq_ok, Except.ok.injEq, Prod.mk.injEq] at h
    obtain ⟨sid, hsid, rfl, rfl⟩ := h
    refine ⟨rfl, .inl rfl, fun row _ => ?_⟩
    simp [attached, hsid]
  · rename_i unattached
    split at h
    · rename_i row sid
      split at h
      · rename_i same
        simp only [Except.ok.injEq, Prod.mk.injEq] at h
        obtain ⟨rfl, rfl⟩ := h
        refine ⟨rfl, .inl rfl, fun x hx => ?_⟩
        obtain rfl := Option.mem_some.mp hx
        simp [unattached, same]
      · rename_i differs
        split at h
        · simp only [Except.ok.injEq, Prod.mk.injEq] at h
          obtain ⟨rfl, rfl⟩ := h
          refine ⟨rfl, .inl rfl, fun x hx => ?_⟩
          obtain rfl := Option.mem_some.mp hx
          simp [differs]
        · refine created h rfl fun x hx => ?_
          obtain rfl := Option.mem_some.mp hx
          exact differs
    · simp only [Except.ok.injEq, Prod.mk.injEq] at h
      obtain ⟨rfl, rfl⟩ := h
      exact ⟨rfl, .inl rfl, by simp⟩
    · exact created h rfl (by simp)

private theorem upsert_ok {d d' : Accounts} {l : Login} (registered : Registered d)
    (h : l.upsert d = .ok d') :
    ∃ characterId target d₁, l.claims.characterId = .ok characterId ∧
      d₁.characters = d.characters ∧ Joined d d₁ target ∧ (∃ u ∈ d₁.users, u.id = target) ∧
      ((∃ row assign, lookup CharacterRow.characterId characterId d.characters = some row ∧
          (target ≠ row.userId ↔ l.Moves row) ∧
          (∀ c : CharacterRow, (assign c).id = c.id ∧ (assign c).characterId = c.characterId ∧
            (assign c).userId = target) ∧
          d' = { d₁ with
            characters := updateWhere (fun c => decide (c.characterId = characterId)) assign
              d.characters }) ∨
        (∃ row : CharacterRow, lookup CharacterRow.characterId characterId d.characters = none ∧
          lookup CharacterRow.id row.id d.characters = none ∧ row.characterId = characterId ∧
          row.userId = target ∧ d' = { d₁ with characters := d.characters ++ [row] })) := by
  simp only [Login.upsert, map_eq_ok, Prod.exists, exists_eq_right, upsertCharacter, bind_eq_ok,
    mapError_eq_ok, require_eq_ok, Except.ok.injEq, Prod.mk.injEq] at h
  obtain ⟨target', characterId, hid, target, d₁, htarget, -, -, refresh, -, access, -, d₂, hwrite,
    rfl, rfl⟩ := h
  have known : ∀ row ∈ lookup CharacterRow.characterId characterId d.characters,
      ∃ u ∈ d.users, u.id = row.userId := fun row hrow => registered.owned row (lookup_mem hrow).1
  obtain ⟨characters, joined, moves⟩ := targetUser_ok known htarget
  simp only [writeCharacter, bind_eq_ok, require_eq_ok] at hwrite
  obtain ⟨-, exists_, hwrite⟩ := hwrite
  obtain ⟨u, hu⟩ := Option.ne_none_iff_exists'.mp exists_
  refine ⟨characterId, target, d₁, hid, characters, joined, ⟨u, lookup_mem hu⟩, ?_⟩
  rw [characters] at hwrite
  split at hwrite
  · rename_i row hrow
    refine .inl ⟨row, fun c => c.assign target l.claims refresh access l.tokens.expiresAt, hrow, ?_,
      fun _ => ⟨rfl, rfl, rfl⟩, (Except.ok.inj hwrite).symm⟩
    rw [moves row hrow]
    simp [Login.Moves, hid, (lookup_mem hrow).2]
  · rename_i hnone
    simp only [bind_eq_ok, require_eq_ok, Except.ok.injEq] at hwrite
    obtain ⟨-, fresh, rfl⟩ := hwrite
    exact .inr ⟨_, hnone, fresh, rfl, rfl, rfl⟩

private theorem doSetActiveCharacter_ok {d d' : Accounts} {userId : Uuid}
    {characterId : Option Uuid} (h : doSetActiveCharacter d userId characterId = .ok d') :
    ownsOrNone d userId characterId ∧
      d' = { d with
        users := updateWhere (fun u => decide (u.id = userId))
          (fun u => { u with activeCharacterId := characterId }) d.users } := by
  simp only [doSetActiveCharacter, checkActiveCharacterOwnership, bind_eq_ok, require_eq_ok,
    Except.ok.injEq] at h
  obtain ⟨-, ⟨-, owns⟩, -, -, rfl⟩ := h
  exact ⟨owns, rfl⟩

section Steps
variable {d d' : Accounts}

private theorem Joined.kept {d₁ : Accounts} {target : Uuid} (joined : Joined d d₁ target)
    {u : UserRow} (hu : u ∈ d.users) : u ∈ d₁.users := by
  rcases joined with same | ⟨-, name, users⟩
  · exact same ▸ hu
  · rw [users]
    exact List.mem_append_left _ hu

private theorem Registered.login (registered : Registered d) {l : Login} (h : l.upsert d = .ok d') :
    Registered d' := by
  obtain ⟨characterId, target, d₁, -, characters, joined, exists_, cases⟩ := upsert_ok registered h
  rcases cases with ⟨row, assign, -, -, keeps, rfl⟩ | ⟨row, hnone, fresh, hid, huser, rfl⟩
  · refine ⟨registered.rows.updateWhere fun c => (keeps c).1,
      registered.characters.updateWhere fun c => (keeps c).2.1, fun c hc => ?_⟩
    obtain ⟨x, hx, rfl⟩ := mem_updateWhere.mp hc
    split
    · rw [(keeps x).2.2]
      exact exists_
    · obtain ⟨u, hu, huid⟩ := registered.owned x hx
      exact ⟨u, joined.kept hu, huid⟩
  · refine ⟨registered.rows.append (lookup_eq_none.mp fresh),
      registered.characters.append (hid ▸ lookup_eq_none.mp hnone), fun c hc => ?_⟩
    rcases List.mem_append.mp hc with hc | hc
    · obtain ⟨u, hu, huid⟩ := registered.owned c hc
      exact ⟨u, joined.kept hu, huid⟩
    · obtain rfl := List.mem_singleton.mp hc
      rw [huser]
      exact exists_

private theorem registered_step (d : Accounts) (e : Event) (d' : Accounts)
    (registered : Registered d) (h : applyEvent e d = .ok d') : Registered d' := by
  cases e with
  | login l => exact registered.login (mapError_eq_ok.mp h)
  | setActive userId characterId =>
    obtain ⟨-, rfl⟩ := doSetActiveCharacter_ok (mapError_eq_ok.mp h)
    refine ⟨registered.rows, registered.characters, fun c hc => ?_⟩
    obtain ⟨u, hu, hid⟩ := registered.owned c hc
    refine ⟨_, mem_updateWhere_of_mem hu, ?_⟩
    split <;> exact hid

private theorem Joined.active {d₁ : Accounts} {target : Uuid} (joined : Joined d d₁ target)
    {u : UserRow}
    (hu : u ∈ d₁.users) {id : Uuid} (active : u.activeCharacterId = some id) : u ∈ d.users := by
  rcases joined with same | ⟨-, name, users⟩
  · exact same ▸ hu
  · rw [users] at hu
    rcases List.mem_append.mp hu with hu | hu
    · exact hu
    · rw [List.mem_singleton.mp hu] at active
      cases active

/-- A login keeps active characters owned exactly when the row it moves was not active. -/
private theorem activeOwned_login (registered : Registered d) (owned : ActiveOwned d) {l : Login}
    (h : l.upsert d = .ok d') :
    ActiveOwned d' ↔ ∀ row ∈ d.characters, l.Moves row →
      ∀ u ∈ d.users, u.id = row.userId → u.activeCharacterId ≠ some row.id := by
  obtain ⟨characterId, target, d₁, hid, characters, joined, -, cases⟩ := upsert_ok registered h
  rcases cases with ⟨row, assign, hrow, moves, keeps, rfl⟩ | ⟨row, hnone, -, -, -, rfl⟩
  · obtain ⟨hmem, hk⟩ := lookup_mem hrow
    constructor
    · intro after x hx hmoves u hu huser active
      have same : x = row := by
        refine registered.characters.eq_of_key hx hmem ?_
        rw [hk]
        exact (Except.ok.inj (hid.symm.trans hmoves.1)).symm
      subst same
      obtain ⟨c, hc, hcid, hcuser⟩ := after u (joined.kept hu) x.id active
      obtain ⟨y, hy, rfl⟩ := mem_updateWhere.mp hc
      have yid : y.id = x.id := by
        rw [← hcid]
        split
        · exact ((keeps y).1).symm
        · rfl
      obtain rfl := registered.rows.eq_of_key hy hmem yid
      rw [if_pos (decide_eq_true hk), (keeps y).2.2] at hcuser
      exact moves.mpr hmoves (hcuser.trans huser)
    · intro inactive u hu id active
      have old := joined.active hu active
      obtain ⟨c, hc, rfl, huser⟩ := owned u old id active
      refine ⟨_, mem_updateWhere_of_mem hc, ?_⟩
      by_cases written : c.characterId = characterId
      · obtain rfl := registered.characters.eq_of_key hc hmem (written.trans hk.symm)
        rw [if_pos (decide_eq_true hk)]
        refine ⟨(keeps c).1, (keeps c).2.2.trans ?_⟩
        by_contra apart
        exact inactive c hmem (moves.mp fun same => apart (same.trans huser)) u old huser.symm active
      · rw [if_neg (by simpa using written)]
        exact ⟨rfl, huser⟩
  · constructor
    · intro _ x hx hmoves
      have gone := lookup_eq_none.mp hnone x hx
      exact absurd (Except.ok.inj (hmoves.1.symm.trans hid)) gone
    · intro _ u hu id active
      obtain ⟨c, hc, hcid, huser⟩ := owned u (joined.active hu active) id active
      exact ⟨c, List.mem_append_left _ hc, hcid, huser⟩

private theorem activeOwned_setActive (owned : ActiveOwned d) {userId : Uuid}
    {characterId : Option Uuid}
    (h : doSetActiveCharacter d userId characterId = .ok d') : ActiveOwned d' := by
  obtain ⟨owns, rfl⟩ := doSetActiveCharacter_ok h
  intro u hu
  obtain ⟨x, hx, rfl⟩ := mem_updateWhere.mp hu
  by_cases hid : x.id = userId
  · rw [if_pos (decide_eq_true hid)]
    subst hid
    exact owns
  · rw [if_neg (by simpa using hid)]
    exact owned x hx

end Steps

private theorem activeOwned_exec (d : Accounts) (e : Event) (registered : Registered d)
    (owned : ActiveOwned d) : ActiveOwned (exec applyEvent d e) ↔ LeavesInactive d e := by
  cases e with
  | login l =>
    unfold LeavesInactive
    cases h : l.upsert d with
    | ok d' =>
      have accepted : applyEvent (.login l) d = .ok d' := mapError_eq_ok.mpr h
      rw [exec_of_ok accepted, activeOwned_login registered owned h]
      exact ⟨fun inactive _ => inactive, fun inactive => inactive (by rw [h]; rfl)⟩
    | error e =>
      have refused : applyEvent (.login l) d = .error (.login e) := by
        simp [applyEvent, h, Except.mapError]
      rw [exec_of_error refused]
      refine ⟨fun _ accepted => ?_, fun _ => owned⟩
      rw [h] at accepted
      cases accepted
  | setActive userId characterId =>
    refine ⟨fun _ => trivial, fun _ => ?_⟩
    cases h : doSetActiveCharacter d userId characterId with
    | ok d' =>
      have accepted : applyEvent (.setActive userId characterId) d = .ok d' :=
        mapError_eq_ok.mpr h
      rw [exec_of_ok accepted]
      exact activeOwned_setActive owned h
    | error e =>
      rw [exec_of_error (e := .setActive e) (by simp [applyEvent, h, Except.mapError])]
      exact owned

private theorem registered_empty : Registered {} :=
  ⟨List.nodup_nil, List.nodup_nil, fun _ h => absurd h List.not_mem_nil⟩

private theorem activeOwned_empty : ActiveOwned {} := fun _ h => absurd h List.not_mem_nil

/-- In a run of logins, attaches, transfers and choices of an active character, every active
character is owned in every state exactly when no accepted login takes a character from an account
in which it is the active one. -/
theorem active_owned_iff (es : List Event) :
    (∀ before, before <+: es → ActiveOwned (run applyEvent {} before)) ↔
      Meets applyEvent LeavesInactive {} es :=
  forall_run_iff_meets registered_step activeOwned_exec registered_empty activeOwned_empty es

/-- A login without a session as EVE character 90 of the given owner. -/
def soldLogin (owner : String) (user : Uuid) : Login where
  cipher := ⟨fun _ _ => .ok ⟨[1], [2], "v1"⟩, fun _ _ => .ok ⟨[3], [4], "v1"⟩⟩
  claims := ⟨.ok 90, "Pilot", owner, ["publicData"]⟩
  tokens := ⟨"refresh", "access", 0⟩
  sessionUser := none
  attach := false
  charactersCap := 10
  new := ⟨user, user, user⟩

/-- The character is made active and sold, and its new owner logs in. -/
def soldRun : List Event :=
  [.login (soldLogin "seller" 1), .setActive 1 (some 1), .login (soldLogin "buyer" 2)]

theorem transfer_leaves_active_character :
    ¬ ∀ before, before <+: soldRun → ActiveOwned (run applyEvent {} before) := by
  intro h
  exact absurd (h soldRun (List.prefix_refl _)) (by decide +kernel)

end JitaCart.Auth.ActiveCharacter
