/- module: JitaCart/Concurrent/CharacterCap
   source: backend/crates/api/src/auth.rs (upsert_character), backend/SECURITY.md (Abuse caps)
   digest: When the cap on the characters of a user holds. -/

import JitaCart.Concurrent.Characters

/-!
A callback locks the row of its character, if there is one, and counts the
characters of the account without locking the account.
-/

set_option autoImplicit false
set_option relaxedAutoImplicit false

namespace JitaCart.Concurrent.Characters

open Schema Base.Table Base.Request Base.ReadCommitted Api.Auth Tokens

/-- The write adds to the characters of the user. -/
def adds (userId : Uuid) : Write → Bool
  | .putCharacter before after _ =>
    decide (after.userId = userId) && !before.any fun c => decide (c.userId = userId)
  | _ => false

def addedTo : Write → Option Uuid
  | .putCharacter before after _ =>
    if before.any fun c => decide (c.userId = after.userId) then none else some after.userId
  | _ => none

/-- The characters of each user; a callback guards them only by having begun to count. -/
def owned (cap : Int) : Meter Vault Write Row CharacterRow Int Uuid where
  key := CharacterRow.characterId
  rows s := s.characters
  lock := .character
  change
    | .putCharacter before after _ => some ⟨after.characterId, before, some after⟩
    | _ => none
  counts userId c := decide (c.userId = userId)
  cap _ := cap
  guards userId log _ := .counting userId ∈ log
  bare _ _ := False
  clear log log' := ∀ userId, (∃ w ∈ log, adds userId w = true) → .counting userId ∉ log'
  guards_mono _ h := h
  guards_append _ h := List.mem_append_left _ h
  bare_append _ h := h

variable {A : Aead}

/-- A commit that adds a character to an account finds no other callback counting that account. -/
def Unraced (w : Store Vault Write Row (TokenRequest A)) : Action Row (TokenRequest A) → Prop
  | .commit id => ∀ t ∈ w.active, t.id = id → ∀ x ∈ t.log, ∀ userId ∈ addedTo x,
      ∀ u ∈ w.active, u.id ≠ id → .counting userId ∉ u.log
  | _ => True

instance (w : Store Vault Write Row (TokenRequest A)) (a : Action Row (TokenRequest A)) :
    Decidable (Unraced w a) :=
  match a with
  | .commit id => inferInstanceAs (Decidable (∀ t ∈ w.active, t.id = id → ∀ x ∈ t.log,
      ∀ userId ∈ addedTo x, ∀ u ∈ w.active, u.id ≠ id → .counting userId ∉ u.log))
  | .begin _ _ | .start _ | .acquire _ _ | .exec _ | .abort _ => .isTrue trivial

private theorem addedTo_eq_some {userId : Uuid} {w : Write} (h : adds userId w = true) :
    addedTo w = some userId := by
  cases w with
  | putCharacter before after issues =>
    simp only [adds, Bool.and_eq_true, decide_eq_true_eq, Bool.not_eq_true'] at h
    obtain ⟨rfl, new⟩ := h
    simp [addedTo, new]
  | insertUser u => cases h
  | insertPrincipal p => cases h
  | counting id => cases h

variable {cap : Int} {hash : String → UInt64}

private theorem lawful_owned : (owned cap).Lawful (engine A cap hash) where
  own w ch h := by
    cases w <;> cases h
    simp [owned]
  changed w ch s h := by
    cases w <;> cases h
    rfl
  kept w s h := by
    cases w <;> first | rfl | cases h

private theorem gain_owned (userId : Uuid) (w : Write) :
    (owned cap).gain userId w = if adds userId w then 1 else 0 := by
  cases w with
  | putCharacter before after issues => simp [Meter.gain, owned, adds]
  | insertUser u => rfl
  | insertPrincipal p => rfl
  | counting id => rfl

private theorem exclusive_owned : (owned cap).Exclusive := by
  intro userId log locks log' others clear _ gains _
  refine clear userId ?_
  by_contra counted
  push Not at counted
  refine gains (Meter.gainOf_eq_zero fun w hw => ?_)
  rw [gain_owned, if_neg (counted w hw)]

abbrev EnsuresOwned {α : Type} (cap : Int) (hash : String → UInt64) (q : TokenRequest A)
    (F : Assertion Vault Write Row) (p : Program α) (G : α → Assertion Vault Write Row) : Prop :=
  (owned cap).Ensures (e := engine A cap hash) lawful_owned q F p G

/-- The callback may write the character to the account: it has counted and found room, or it holds
a row of the account. -/
def Admitted (cap : Int) (characterId : Int) (userId : Uuid) : Assertion Vault Write Row :=
  fun c log locks => (owned cap).Idle c log locks ∧
    ((.counting userId ∈ log ∧ (characterCount c userId : Int) < cap) ∨
      (.character characterId ∈ locks ∧
        ∃ row, c.character? characterId = some row ∧ row.userId = userId))

private theorem stable_admitted (characterId : Int) (userId : Uuid) :
    Stable ((owned cap).terms (@lawful_owned A cap hash)) (Admitted cap characterId userId) where
  rely _ _ h change := by
    obtain ⟨idle, ⟨counting, room⟩ | ⟨held, row, hrow, own⟩⟩ := h
    · have kept : characterCount _ userId ≤ characterCount _ userId := change.2 userId counting
      exact ⟨idle, .inl ⟨counting, by omega⟩⟩
    · exact ⟨idle, .inr ⟨held, row, (change.1 characterId held).trans hrow, own⟩⟩
  same same h := ⟨h.1, h.2.imp id (And.imp (same _).mpr id)⟩

section Programs
variable {q : TokenRequest A}

private theorem ensures_apart {α : Type} {F : Assertion Vault Write Row} {wants : Vault → List Row}
    {act : Statement Vault Row → Vault → Option (List Write × α)}
    (stable : Stable ((owned cap).terms (@lawful_owned A cap hash)) F)
    (acts : ∀ st s ws a, act st s = some (ws, a) → ∀ w ∈ ws, (owned cap).change w = none)
    (kept : ∀ c log ws locks held, (∀ w ∈ ws, (owned cap).change w = none) →
      (∀ r ∈ locks, r ∈ held) → F c log locks → F c (log ++ ws) held) :
    EnsuresOwned cap hash q F (.statement wants act) fun _ => F := by
  refine Meter.ensures_aside stable fun c₁ c₂ log locks held ws a _ h₂ m hact => ?_
  have aside := acts _ _ ws a hact
  exact ⟨aside, kept c₂ log ws locks held aside (fun r hr => (m.held r).mpr (.inl hr)) h₂⟩

/-- What the callback knows of the row that it has tried to lock. -/
def Found (cap : Int) (characterId : Int) (existing : Option CharacterRow) :
    Assertion Vault Write Row := fun c log locks =>
  (owned cap).Idle c log locks ∧ ∀ row ∈ existing,
    .character characterId ∈ locks ∧ c.character? characterId = some row

private theorem stable_found (characterId : Int) (existing : Option CharacterRow) :
    Stable ((owned cap).terms (@lawful_owned A cap hash)) (Found cap characterId existing) where
  rely _ _ h change := ⟨h.1, fun row hrow =>
    ⟨(h.2 row hrow).1, (change.1 characterId (h.2 row hrow).1).trans (h.2 row hrow).2⟩⟩
  same same h := ⟨h.1, fun row hrow => ⟨(same _).mpr (h.2 row hrow).1, (h.2 row hrow).2⟩⟩

private theorem found_append {characterId : Int} {existing : Option CharacterRow} {c : Vault}
    {log ws : List Write} {locks held : List Row}
    (aside : ∀ w ∈ ws, (owned cap).change w = none) (more : ∀ r ∈ locks, r ∈ held)
    (h : Found cap characterId existing c log locks) :
    Found cap characterId existing c (log ++ ws) held :=
  ⟨fun w hw => (List.mem_append.mp hw).elim (h.1 w) (aside w),
    fun row hrow => ⟨more _ (h.2 row hrow).1, (h.2 row hrow).2⟩⟩

private theorem character?_idle {c : Vault} {log : List Write} {locks : List Row}
    (idle : (owned cap).Idle c log locks) (characterId : Int) :
    ((engine A cap hash).view c log).character? characterId = c.character? characterId := by
  have rows : ((engine A cap hash).view c log).characters = c.characters :=
    Meter.idle_rows (M := owned cap) lawful_owned idle
  unfold Vault.character?
  rw [rows]

private theorem ensures_lockCharacter (characterId : Int) :
    EnsuresOwned cap hash q (owned cap).Idle (lockCharacter characterId)
      fun existing => Found cap characterId existing := by
  refine Meter.ensures_aside Meter.stable_idle ?_
  intro c₁ c₂ log locks held ws a _ idle m hact
  obtain ⟨rfl, rfl⟩ := Prod.mk.inj (Option.some.inj hact)
  refine ⟨by simp, by rwa [List.append_nil], fun row hrow => ?_⟩
  obtain ⟨hrow, planned⟩ := Option.filter_eq_some_iff.mp hrow
  rw [character?_idle idle] at hrow
  refine ⟨(m.held _).mpr (.inr ?_), hrow⟩
  cases hc : ((engine A cap hash).view c₁ log).character? characterId with
  | none => simp [hc] at planned
  | some c =>
    obtain ⟨-, rfl⟩ := lookup_mem hc
    exact List.mem_singleton.mpr rfl

private theorem ensures_createUser (characterId : Int) (existing : Option CharacterRow)
    (displayName : String) (new : NewIds) :
    EnsuresOwned cap hash q (Found cap characterId existing) (createUser displayName new)
      fun _ => Found cap characterId existing := by
  have keep {wants : Vault → List Row}
      {act : Statement Vault Row → Vault → Option (List Write × Unit)}
      (acts : ∀ st s ws a, act st s = some (ws, a) → ∀ w ∈ ws, (owned cap).change w = none) :
      EnsuresOwned cap hash q (Found cap characterId existing) (.statement wants act)
        fun _ => Found cap characterId existing :=
    ensures_apart (stable_found characterId existing) acts
      fun _ _ _ _ _ aside more h => found_append aside more h
  refine (keep fun st s ws a hact => ?_).bind fun _ => (keep fun st s ws a hact => ?_).bind fun _ =>
    triple_pure fun _ _ _ _ h => h
  · simp only [Option.ite_none_right_eq_some, Option.some.injEq, Prod.mk.injEq] at hact
    obtain ⟨-, rfl, -⟩ := hact
    simp [owned]
  · split at hact
    · obtain ⟨rfl, -⟩ := Prod.mk.inj (Option.some.inj hact)
      simp [owned]
    · obtain ⟨rfl, -⟩ := Prod.mk.inj (Option.some.inj hact)
      simp

private theorem ensures_targetUser (characterId : Int) (claims : EveClaims)
    (existing : Option CharacterRow) (sessionUser : Option Uuid) (attach : Bool) (new : NewIds) :
    EnsuresOwned cap hash q (Found cap characterId existing)
      (targetUser claims existing sessionUser attach new)
      fun _ => Found cap characterId existing := by
  rcases targetUser_cases claims existing sessionUser attach new with h | ⟨userId, h⟩ | h
  · rw [h]
    exact Meter.ensures_check
  · rw [h]
    exact triple_pure fun _ _ _ _ h => h
  · rw [h]
    exact ensures_createUser characterId existing claims.name new

private theorem ensures_checkCharactersQuota (characterId : Int) (existing : Option CharacterRow)
    (userId : Uuid) :
    EnsuresOwned cap hash q (Found cap characterId existing)
      (checkCharactersQuota existing userId cap) fun _ => Admitted cap characterId userId := by
  have counted : EnsuresOwned cap hash q (Found cap characterId existing)
      (.note (.counting userId)) fun _ c log locks =>
        (owned cap).Idle c log locks ∧ .counting userId ∈ log := by
    refine Meter.ensures_aside (stable_found characterId existing) ?_
    intro c₁ c₂ log locks held ws a _ h₂ m hact
    obtain ⟨rfl, -⟩ := Prod.mk.inj (Option.some.inj hact)
    have aside : ∀ w ∈ [Write.counting userId], (owned cap).change w = none := by simp [owned]
    exact ⟨aside, (found_append aside (fun r hr => (m.held r).mpr (.inl hr)) h₂).1,
      List.mem_append_right _ (List.mem_singleton.mpr rfl)⟩
  have counting : Stable ((owned cap).terms (@lawful_owned A cap hash))
      fun c log locks => (owned cap).Idle c log locks ∧ .counting userId ∈ log :=
    ⟨fun _ _ h _ => h, fun _ h => h⟩
  by_cases new : wouldAddNew existing userId = true
  · unfold checkCharactersQuota
    rw [if_pos new]
    refine counted.bind fun _ => Triple.imp (Meter.ensures_query counting
      (fun _ => stable_admitted characterId userId) ?_) (fun _ _ _ _ h => h)
      fun _ _ _ _ _ h => ⟨h.1, h.2.2⟩
    rintro a c log locks - ⟨idle, noted⟩ hq
    have below := require_eq_ok.mp hq
    have rows : ((engine A cap hash).view c log).characters = c.characters :=
      Meter.idle_rows (M := owned cap) lawful_owned idle
    unfold characterCount at below
    rw [rows] at below
    exact ⟨idle, .inl ⟨noted, below⟩⟩
  · unfold checkCharactersQuota
    rw [if_neg new]
    refine triple_pure fun c log locks _ h => ⟨h.1, h.2.1, .inr ?_⟩
    cases existing with
    | none => simp [wouldAddNew] at new
    | some row =>
      obtain ⟨held, hrow⟩ := h.2.2 row rfl
      exact ⟨held, row, hrow, by simpa [wouldAddNew] using new⟩

/-- The character goes to an account that has room for it, or had it before. -/
private theorem fits_putCharacter {c : Vault} {log : List Write} {locks : List Row}
    {characterId : Int} {after : CharacterRow} {issues : Option Plaintexts}
    (admitted : Admitted cap characterId after.userId c log locks) (k : Uuid) :
    (owned cap).gainOf k
        (log ++ [.putCharacter (c.character? characterId) after issues]) = 0 ∨
      ((owned cap).guards k (log ++ [.putCharacter (c.character? characterId) after issues]) locks ∧
        ((owned cap).count k c + (owned cap).gainOf k
          (log ++ [.putCharacter (c.character? characterId) after issues]) : Int) ≤
            (owned cap).cap k) ∨
      (owned cap).bare k (log ++ [.putCharacter (c.character? characterId) after issues]) := by
  obtain ⟨idle, admitted⟩ := admitted
  have gain : (owned cap).gainOf k [.putCharacter (c.character? characterId) after issues] =
      if adds k (.putCharacter (c.character? characterId) after issues) then 1 else 0 := by
    rw [← @gain_owned cap]
    simp [Meter.gainOf]
  rw [Meter.gainOf_append, Meter.idle_gainOf idle k, gain]
  by_cases new : adds k (.putCharacter (c.character? characterId) after issues) = true
  · simp only [adds, Bool.and_eq_true, decide_eq_true_eq, Bool.not_eq_true'] at new
    obtain ⟨rfl, other⟩ := new
    rcases admitted with ⟨counting, room⟩ | ⟨-, row, hrow, own⟩
    · refine .inr (.inl ⟨List.mem_append_left _ counting, ?_⟩)
      change ((characterCount c after.userId : Int) + _) ≤ cap
      split <;> push_cast <;> omega
    · simp [hrow, own] at other
  · exact .inl (by simp [new])

private theorem ensures_writeCharacter (userId : Uuid) (characterId : Int) (claims : EveClaims)
    (tokens : EsiTokens) (refresh access : EncryptedToken) (newId : Uuid) :
    EnsuresOwned cap hash q (Admitted cap characterId userId)
      (writeCharacter userId characterId claims tokens refresh access newId)
      fun _ _ _ _ => True := by
  refine Meter.ensures_write (stable_admitted characterId userId) ?_
  intro c₁ c₂ log locks held ws a _ h₂ m hact
  have admitted := h₂.2
  have heldAdmitted : Admitted cap characterId userId c₂ log held :=
    ⟨admitted.1, admitted.2.imp id (And.imp (fun hr => (m.held _).mpr (.inl hr)) id)⟩
  have current := @character?_idle A cap hash c₂ log locks admitted.1 characterId
  obtain ⟨after, rfl, rfl, rfl, -⟩ := upsertRow_eq_some hact
  rw [current]
  refine ⟨⟨fun ch hch => ?_, trivial⟩, fun w hw ch hch => ?_, fits_putCharacter heldAdmitted,
    trivial⟩
  · obtain rfl := Option.some.inj hch
    exact current
  · rw [List.mem_singleton.mp hw] at hch
    obtain rfl := Option.some.inj hch
    exact (m.held _).mpr (.inr List.mem_cons_self)

private theorem ensures_updateCharacter (id : Uuid) (p : CharacterRow → Bool)
    {set : CharacterRow → CharacterRow} (issues : Option Plaintexts)
    (key : ∀ c, (set c).characterId = c.characterId) (owner : ∀ c, (set c).userId = c.userId) :
    EnsuresOwned cap hash q (fun _ _ _ => True) (updateCharacter id p set issues)
      fun _ _ _ _ => True := by
  refine Meter.ensures_write ⟨fun _ _ _ _ => trivial, fun _ _ => trivial⟩ ?_
  intro c₁ c₂ log locks held ws a _ h₂ m hact
  obtain ⟨rfl, -⟩ := Prod.mk.inj (Option.some.inj hact)
  clear hact
  have more : ∀ r ∈ locks, r ∈ held := fun r hr => (m.held r).mpr (.inl hr)
  have keyed : Keyed CharacterRow.characterId ((engine A cap hash).view c₂ log).characters :=
    Meter.keyed_view (M := owned cap) lawful_owned m.good₂.keyed log
  generalize hfound : Option.filter _ _ = found
  cases found with
  | none =>
    refine ⟨trivial, by simp, h₂.1.fits_append more fun _ => rfl, trivial⟩
  | some c =>
    obtain ⟨hc, planned⟩ := Option.filter_eq_some_iff.mp hfound
    simp only [Bool.and_eq_true, decide_eq_true_eq] at planned
    simp only [Option.map_some, Option.toList_some]
    refine ⟨⟨fun ch hch => ?_, trivial⟩, fun w hw ch hch => ?_, h₂.1.fits_append more fun k => ?_,
      trivial⟩
    · obtain rfl := Option.some.inj hch
      exact (lookup_eq_some keyed).mpr ⟨(lookup_mem hc).1, (key c).symm⟩
    · rw [List.mem_singleton.mp hw] at hch
      obtain rfl := Option.some.inj hch
      refine (m.held _).mpr (.inr ?_)
      rw [show (owned cap).lock (set c).characterId = .character c.characterId by rw [key c]; rfl]
      exact planned.2
    · refine Meter.gainOf_eq_zero fun w hw => ?_
      rw [List.mem_singleton.mp hw, gain_owned]
      simp [adds, owner c]

private theorem ensures_program_owned (q : TokenRequest A) :
    EnsuresOwned cap hash q (owned cap).Idle (program cap hash q) fun _ _ _ _ => True := by
  have rewrite (row : CharacterRow) (w : Sweep A) :
      EnsuresOwned cap hash q (fun _ _ _ => True) (reencryptRow w row) fun _ _ _ _ => True :=
    Meter.ensures_check.bind fun _ => Meter.ensures_check.bind fun _ =>
      Meter.ensures_check.bind fun _ => Meter.ensures_check.bind fun _ =>
        ensures_updateCharacter _ _ _ (fun _ => rfl) fun _ => rfl
  have done : EnsuresOwned cap hash q (owned cap).Idle (pure ()) fun _ _ _ _ => True :=
    triple_pure fun _ _ _ _ h => ⟨h.1, trivial⟩
  have forget {p : Program Unit}
      (h : EnsuresOwned cap hash q (fun _ _ _ => True) p fun _ _ _ _ => True) :
      EnsuresOwned cap hash q (owned cap).Idle p fun _ _ _ _ => True :=
    h.imp (fun _ _ _ _ hA => ⟨hA.1, trivial⟩) fun _ _ _ _ _ hA => hA
  cases q with
  | login l =>
    exact Meter.ensures_check.bind fun characterId =>
      (ensures_lockCharacter characterId).bind fun existing =>
        (ensures_targetUser characterId _ existing _ _ _).bind fun userId =>
          (ensures_checkCharactersQuota characterId existing userId).bind fun _ =>
            Meter.ensures_check.bind fun _ => Meter.ensures_check.bind fun _ =>
              ensures_writeCharacter userId characterId _ _ _ _ _
  | rotate r =>
    refine (Meter.ensures_read Meter.stable_idle).bind fun loaded => ?_
    cases r.tokens with
    | none => exact done
    | some tokens =>
      simp only
      split
      · exact done
      · exact Meter.ensures_check.bind fun _ => Meter.ensures_check.bind fun _ =>
          forget (ensures_updateCharacter _ _ _ (fun _ => rfl) fun _ => rfl)
  | sweep w =>
    refine Meter.ensures_check.bind fun _ => ?_
    have locked : EnsuresOwned cap hash (.sweep w) (owned cap).Idle
        (lockStale w.cipher.primary w.claimed) fun _ => (owned cap).Idle := by
      refine Meter.ensures_idle fun st s ws a hact => ?_
      obtain ⟨rfl, -⟩ := Prod.mk.inj (Option.some.inj hact)
      simp
    exact locked.bind fun stale => forget (triple_forM (fun row => rewrite row w) stale)

end Programs

/-- From a state within the cap, a run keeps every user within it if no commit adds a character to
an account that another callback is counting. -/
theorem characters_capped (A : Aead) (cap : Int) (hash : String → UInt64) {s : Vault}
    (rows : Keyed CharacterRow.characterId s.characters)
    (within : ∀ userId, (characterCount s userId : Int) ≤ cap)
    {as : List (Action Row (TokenRequest A))}
    (unraced : Meets (step (engine A cap hash)) Unraced ⟨s, []⟩ as) (userId : Uuid) :
    (characterCount (run (step (engine A cap hash)) ⟨s, []⟩ as).committed userId : Int) ≤ cap := by
  have sound := Meter.sound (K := fun _ => True) (@exclusive_owned cap)
    fun q _ => Meter.begins_of_ensures (fun _ w hw => absurd hw List.not_mem_nil)
      (@ensures_program_owned A cap hash q)
  have allowed : Meets (step (engine A cap hash))
      (Allowed ((owned cap).terms (@lawful_owned A cap hash)) fun _ => True) ⟨s, []⟩ as := by
    refine Meets.imp (fun w a h => ?_) unraced
    cases a with
    | begin _ _ => trivial
    | start _ => trivial
    | acquire _ _ => trivial
    | exec _ => exact fun _ _ _ _ _ _ => trivial
    | commit id =>
      refine fun t ht hid _ => ⟨fun _ bare => bare.elim, fun u hu other userId adding => ?_⟩
      obtain ⟨x, hx, adding⟩ := adding
      exact h t ht hid x hx userId (addedTo_eq_some adding) u hu other
    | abort _ => trivial
  exact (Meter.within_run sound ⟨rows, within⟩ allowed).below userId

def oneKey : MultiKeyCipher tagged :=
  ⟨fun kid => if kid = "v1" then some [1] else none, "v1", rfl⟩

def onePilot : Vault := { users := [⟨1, "pilot", none⟩] }

/-- The user of the session attaches a character. -/
def attachOf (characterId : Int) (newId : Uuid) : TokenRequest tagged :=
  .login ⟨⟨.ok characterId, "alt", "owner", []⟩, ⟨"refresh", "access", 0⟩, some 1, true, oneKey,
    zeroNonce, zeroNonce, ⟨0, 0, newId⟩⟩

/-- The callback up to its count, and from its insert to its commit. -/
def countsOwned (id : Nat) (characterId : Int) (newId : Uuid) :
    List (Action Row (TokenRequest tagged)) :=
  .begin id (attachOf characterId newId) ::
    (Action.turn id [] ++ Action.turn id [] ++ Action.turn id [])

def putsOwned (id : Nat) (characterId : Int) (newId : Uuid) :
    List (Action Row (TokenRequest tagged)) :=
  Action.turn id [.character characterId, .characterPk newId] ++ [.commit id]

/-- The second callback begins before the first one commits, and counts after it. -/
def countsInTurn : List (Action Row (TokenRequest tagged)) :=
  List.flatten [[.begin 1 (attachOf 90 1), .begin 2 (attachOf 91 2)], Action.turn 1 [],
    Action.turn 2 [], Action.turn 1 [], Action.turn 1 [], putsOwned 1 90 1, Action.turn 2 [],
    Action.turn 2 [], putsOwned 2 91 2]

theorem characters_capped_in_turn :
    characterCount (run (step (engine tagged 2 fun _ => 0)) ⟨onePilot, []⟩
        countsInTurn).committed 1 = 2 ∧
      (characterCount (run (step (engine tagged 2 fun _ => 0)) ⟨onePilot, []⟩
        countsInTurn).committed 1 : Int) ≤ 2 :=
  ⟨by decide +kernel, characters_capped tagged 2 _ (by decide)
    (fun userId => by simp [characterCount, onePilot]) (by decide +kernel) 1⟩

/-- Both callbacks count before either inserts. -/
theorem concurrent_attaches_exceed_cap :
    ¬ ∀ userId, (characterCount (run (step (engine tagged 1 fun _ => 0)) ⟨onePilot, []⟩
      (countsOwned 1 90 1 ++ countsOwned 2 91 2 ++ putsOwned 1 90 1 ++
        putsOwned 2 91 2)).committed userId : Int) ≤ 1 := by
  intro h
  exact absurd (h 1) (by decide +kernel)

end JitaCart.Concurrent.Characters
