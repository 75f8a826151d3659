/- module: JitaCart/Concurrent/Characters
   source: backend/crates/api/src/auth.rs (upsert_character, create_user),
     backend/crates/auth-tokens/src/store.rs (load_tokens, persist_rotations, reencrypt_stale)
   digest: Interleaved logins, token rotations and key sweeps, statement by statement. -/

import JitaCart.Base.Identity
import JitaCart.Base.Quota
import JitaCart.Tokens.Cipher

/-!
Nothing here deletes a user or a character, so the share locks of the foreign
keys exclude nothing and are left out.
-/

set_option autoImplicit false
set_option relaxedAutoImplicit false

namespace JitaCart.Concurrent.Characters

open Schema Base.Table Base.Request Base.ReadCommitted Api.Auth Tokens

/-- The tokens of a character in the clear. -/
structure Plaintexts where
  refresh : Bytes
  access : Option Bytes
  deriving DecidableEq

/-- `issued` is what logins and rotations have written, in the order of their commits; no statement
reads it. -/
structure Vault extends Accounts where
  issued : List (Int × Plaintexts) := []
  deriving DecidableEq

def Vault.character? (s : Vault) (characterId : Int) : Option CharacterRow :=
  lookup CharacterRow.characterId characterId s.characters

/-- Rows, and the keys of unique indexes that an insert waits for. -/
inductive Row
  | user (id : Uuid)
  | principal (id : Uuid)
  | principalOf (userId : Uuid)
  | character (characterId : Int)
  | characterPk (id : Uuid)
  deriving DecidableEq

/-- `counting` says that the characters of a user are going to be counted. -/
inductive Write
  | insertUser (u : UserRow)
  | insertPrincipal (p : Principal)
  | putCharacter (before : Option CharacterRow) (after : CharacterRow)
      (issues : Option Plaintexts)
  | counting (userId : Uuid)
  deriving DecidableEq

def redo : Write → Vault → Vault
  | .insertUser u, s => { s with users := s.users ++ [u] }
  | .insertPrincipal p, s => { s with principals := s.principals ++ [p] }
  | .putCharacter _ after issues, s => { s with
      characters :=
        replace CharacterRow.characterId after.characterId (some after) s.characters
      issued := s.issued ++ issues.toList.map fun p => (after.characterId, p) }
  | .counting _, s => s

abbrev Program := Prog Vault Write Row

def utf8 (text : String) : Bytes := text.toUTF8.data.toList

/-- The input of `upsert_character`, with the nonces and ids that it draws. -/
structure Login (A : Aead) where
  claims : EveClaims
  tokens : EsiTokens
  sessionUser : Option Uuid
  attach : Bool
  cipher : MultiKeyCipher A
  refreshNonce : Nonce
  accessNonce : Nonce
  new : NewIds

/-- `SELECT … FROM characters WHERE character_id = $1 FOR UPDATE`. -/
def lockCharacter (characterId : Int) : Program (Option CharacterRow) :=
  .statement (fun s => ((s.character? characterId).map fun c => .character c.characterId).toList)
    fun st s => some ([], (s.character? characterId).filter fun _ => decide (st.planned ≠ []))

def insertUser (u : UserRow) : Program Unit :=
  .statement (fun _ => [.user u.id]) fun _ s =>
    if lookup UserRow.id u.id s.users = none then some ([.insertUser u], ()) else none

/-- `INSERT INTO principals … ON CONFLICT DO NOTHING`. -/
def insertPrincipal (id userId : Uuid) : Program Unit :=
  .statement (fun _ => [.principal id, .principalOf userId]) fun _ s =>
    if lookup Principal.owner (.user userId) s.principals = none ∧
        lookup Principal.id id s.principals = none then
      some ([.insertPrincipal ⟨id, .user userId⟩], ())
    else some ([], ())

def createUser (displayName : String) (new : NewIds) : Program Uuid := do
  insertUser ⟨new.user, displayName, none⟩
  insertPrincipal new.principal new.user
  pure new.user

def targetUser (claims : EveClaims) (existing : Option CharacterRow) (sessionUser : Option Uuid)
    (attach : Bool) (new : NewIds) : Program Uuid :=
  if attach then .check (fetch (ApiError.internal "attach without session") sessionUser)
  else
    match existing, sessionUser with
    | some row, sid =>
      if row.ownerHash = claims.owner then pure row.userId
      else
        match sid with
        | some sid => pure sid
        | none => createUser claims.name new
    | none, some sid => pure sid
    | none, none => createUser claims.name new

/-- A target is the user of the session, a user already known, or a new one. -/
theorem targetUser_cases (claims : EveClaims) (existing : Option CharacterRow)
    (sessionUser : Option Uuid) (attach : Bool) (new : NewIds) :
    targetUser claims existing sessionUser attach new =
        .check (fetch (ApiError.internal "attach without session") sessionUser) ∨
      (∃ userId, targetUser claims existing sessionUser attach new = pure userId) ∨
      targetUser claims existing sessionUser attach new = createUser claims.name new := by
  unfold targetUser
  cases attach with
  | true => exact .inl rfl
  | false =>
    refine .inr ?_
    cases existing with
    | none =>
      cases sessionUser with
      | none => exact .inr rfl
      | some sid => exact .inl ⟨sid, rfl⟩
    | some row =>
      by_cases owner : row.ownerHash = claims.owner
      · exact .inl ⟨row.userId, by simp [owner]⟩
      · cases sessionUser with
        | none => exact .inr (by simp [owner])
        | some sid => exact .inl ⟨sid, by simp [owner]⟩

/-- The number of characters that a user owns. -/
def characterCount (s : Vault) (userId : Uuid) : Nat :=
  s.characters.countP fun c => decide (c.userId = userId)

def wouldAddNew (existing : Option CharacterRow) (targetUserId : Uuid) : Bool :=
  existing.all fun row => decide (row.userId ≠ targetUserId)

def checkCharactersQuota (existing : Option CharacterRow) (targetUserId : Uuid) (cap : Int) :
    Program Unit :=
  if wouldAddNew existing targetUserId then do
    .note (.counting targetUserId)
    .select fun s => require ((characterCount s targetUserId : Int) < cap)
      (ApiError.quotaExceeded
        s!"you already have {characterCount s targetUserId} linked characters (cap {cap})")
  else pure ()

/-- What `ON CONFLICT (character_id) DO UPDATE` makes of the current row, whether or not the
statement's snapshot had it. -/
def upsertRow (targetUserId : Uuid) (characterId : Int) (claims : EveClaims) (tokens : EsiTokens)
    (refresh access : EncryptedToken) (newId : Uuid) (st : Statement Vault Row) (s : Vault) :
    Option (List Write × Unit) :=
  let issues := some ⟨utf8 tokens.refreshToken, some (utf8 tokens.accessToken)⟩
  if lookup UserRow.id targetUserId s.users = none then none
  else
    match s.character? characterId with
    | some row => some ([.putCharacter (some row)
        (row.assign targetUserId claims refresh access tokens.expiresAt) issues], ())
    | none =>
      if .characterPk newId ∈ st.planned ∧ lookup CharacterRow.id newId s.characters = none then
        some ([.putCharacter none ⟨newId, targetUserId, characterId, claims.name, claims.owner,
          claims.scopes, refresh.ciphertext, refresh.nonce, some access.ciphertext,
          some access.nonce, some tokens.expiresAt, refresh.kid⟩ issues], ())
      else none

def writeCharacter (targetUserId : Uuid) (characterId : Int) (claims : EveClaims)
    (tokens : EsiTokens) (refresh access : EncryptedToken) (newId : Uuid) : Program Unit :=
  .statement
    (fun s => .character characterId ::
      if s.character? characterId = none then [.characterPk newId] else [])
    (upsertRow targetUserId characterId claims tokens refresh access newId)

variable {A : Aead}

def upsertCharacter (cap : Int) (l : Login A) : Program Unit := do
  let characterId ← .check l.claims.characterId
  let existing ← lockCharacter characterId
  let targetUserId ← targetUser l.claims existing l.sessionUser l.attach l.new
  checkCharactersQuota existing targetUserId cap
  let refresh ← .check
    (l.cipher.encrypt l.refreshNonce (utf8 l.tokens.refreshToken) (toBeBytes characterId))
  let access ← .check
    (l.cipher.encrypt l.accessNonce (utf8 l.tokens.accessToken) (toBeBytes characterId))
  writeCharacter targetUserId characterId l.claims l.tokens refresh access l.new.character

/-- A cached client of a character that is asked for its tokens. `prior` is the hash of the refresh
token that the cache has seen last, if that is not the loaded one. -/
structure Rotation (A : Aead) where
  id : Uuid
  cipher : MultiKeyCipher A
  prior : Option UInt64
  tokens : Option EsiTokens
  refreshNonce : Nonce
  accessNonce : Nonce

structure LoadedTokens where
  refreshToken : String
  accessToken : Option String
  eveCharacterId : Int

def fromUtf8 (field : String) (plaintext : Bytes) : Except String String :=
  fetch s!"{field} token plaintext is not UTF-8" (String.fromUTF8? ⟨plaintext.toArray⟩)

/-- The decrypted access token of a row that has one. -/
def openAccess (keys : Keys A) (row : CharacterRow) : Except String (Option Bytes) :=
  match row.accessTokenCiphertext, row.accessTokenNonce with
  | some ciphertext, some nonce => do
    let plaintext ← decryptWith keys ciphertext nonce row.tokenKeyId (toBeBytes row.characterId)
    .ok (some plaintext)
  | _, _ => .ok none

def openRefresh (keys : Keys A) (row : CharacterRow) : Except String Bytes :=
  decryptWith keys row.refreshTokenCiphertext row.refreshTokenNonce row.tokenKeyId
    (toBeBytes row.characterId)

def loadTokens (cipher : MultiKeyCipher A) (id : Uuid) : Program LoadedTokens :=
  .select fun s => do
    let row ← fetch s!"character {id} not found" (lookup CharacterRow.id id s.characters)
    let refresh ← openRefresh cipher.keys row
    let refreshToken ← fromUtf8 "refresh" refresh
    let access ← openAccess cipher.keys row
    let accessToken ← access.mapM (fromUtf8 "access")
    .ok ⟨refreshToken, accessToken, row.characterId⟩

/-- `UPDATE characters SET … WHERE id = … AND …`. -/
def updateCharacter (id : Uuid) (p : CharacterRow → Bool) (set : CharacterRow → CharacterRow)
    (issues : Option Plaintexts) : Program Unit :=
  .statement
    (fun s => (((lookup CharacterRow.id id s.characters).filter p).map fun c =>
      .character c.characterId).toList)
    fun st s =>
      let found := (lookup CharacterRow.id id s.characters).filter fun c =>
        p c && decide (.character c.characterId ∈ st.planned)
      some ((found.map fun c => .putCharacter (some c) (set c) issues).toList, ())

def setTokens (refresh : EncryptedToken) (access : Option EncryptedToken) (kid : String)
    (c : CharacterRow) : CharacterRow :=
  { c with
    refreshTokenCiphertext := refresh.ciphertext
    refreshTokenNonce := refresh.nonce
    accessTokenCiphertext := access.map (·.ciphertext)
    accessTokenNonce := access.map (·.nonce)
    tokenKeyId := kid }

def updateTokens (id : Uuid) (tokens : EsiTokens) (refresh access : EncryptedToken) :
    Program Unit :=
  updateCharacter id (fun _ => true)
    (fun c => { setTokens refresh (some access) refresh.kid c with
      accessTokenExpiresAt := some tokens.expiresAt })
    (some ⟨utf8 tokens.refreshToken, some (utf8 tokens.accessToken)⟩)

/-- The load may be long before the rest; it holds no row. -/
def persistRotations (hashSecret : String → UInt64) (r : Rotation A) : Program Unit := do
  let loaded ← loadTokens r.cipher r.id
  match r.tokens with
  | none => pure ()
  | some tokens =>
    if r.prior.getD (hashSecret loaded.refreshToken) = hashSecret tokens.refreshToken then pure ()
    else do
      let refresh ← .check (r.cipher.encrypt r.refreshNonce (utf8 tokens.refreshToken)
        (toBeBytes loaded.eveCharacterId))
      let access ← .check (r.cipher.encrypt r.accessNonce (utf8 tokens.accessToken)
        (toBeBytes loaded.eveCharacterId))
      updateTokens r.id tokens refresh access

/-- `claimed` are the rows that the order, the limit and `SKIP LOCKED` leave to the sweep. -/
structure Sweep (A : Aead) where
  cipher : MultiKeyCipher A
  batchSize : Nat
  claimed : List Uuid
  refreshNonce : Uuid → Nonce
  accessNonce : Uuid → Nonce

/-- `SELECT … WHERE token_key_id != $1 … LIMIT $2 FOR UPDATE SKIP LOCKED`. -/
def lockStale (primary : String) (claimed : List Uuid) : Program (List CharacterRow) :=
  .statement
    (fun s => (s.characters.filter fun c => decide (c.tokenKeyId ≠ primary ∧ c.id ∈ claimed)).map
      fun c => .character c.characterId)
    fun st s => some ([], s.characters.filter fun c =>
      decide (c.tokenKeyId ≠ primary ∧ c.id ∈ claimed ∧ .character c.characterId ∈ st.planned))

def rewriteTokens (row : CharacterRow) (primary : String) (refresh : EncryptedToken)
    (access : Option EncryptedToken) : Program Unit :=
  updateCharacter row.id (fun c => decide (c.tokenKeyId = row.tokenKeyId))
    (setTokens refresh access primary) none

def reencryptRow (w : Sweep A) (row : CharacterRow) : Program Unit := do
  let refreshPlain ← .check (openRefresh w.cipher.keys row)
  let refresh ← .check
    (w.cipher.encrypt (w.refreshNonce row.id) refreshPlain (toBeBytes row.characterId))
  let accessPlain ← .check (openAccess w.cipher.keys row)
  let access ← .check (accessPlain.mapM fun plaintext =>
    w.cipher.encrypt (w.accessNonce row.id) plaintext (toBeBytes row.characterId))
  rewriteTokens row w.cipher.primary refresh access

def reencryptStale (w : Sweep A) : Program Unit := do
  .check (require (w.claimed.length ≤ w.batchSize) "LIMIT")
  let stale ← lockStale w.cipher.primary w.claimed
  stale.forM (reencryptRow w)

inductive TokenRequest (A : Aead)
  | login (l : Login A)
  | rotate (r : Rotation A)
  | sweep (w : Sweep A)

def TokenRequest.cipher : TokenRequest A → MultiKeyCipher A
  | .login l => l.cipher
  | .rotate r => r.cipher
  | .sweep w => w.cipher

def program (cap : Int) (hashSecret : String → UInt64) : TokenRequest A → Program Unit
  | .login l => upsertCharacter cap l
  | .rotate r => persistRotations hashSecret r
  | .sweep w => reencryptStale w

def engine (A : Aead) (charactersPerUser : Int) (hashSecret : String → UInt64) :
    Engine Vault Write Row (TokenRequest A) :=
  ⟨redo, program charactersPerUser hashSecret⟩

/-- The five columns of a row that hold its tokens. -/
structure Holds (row : CharacterRow) (refresh : EncryptedToken) (access : Option EncryptedToken)
    (kid : String) : Prop where
  refreshCiphertext : row.refreshTokenCiphertext = refresh.ciphertext
  refreshNonce : row.refreshTokenNonce = refresh.nonce
  accessCiphertext : row.accessTokenCiphertext = access.map (·.ciphertext)
  accessNonce : row.accessTokenNonce = access.map (·.nonce)
  key : row.tokenKeyId = kid

theorem upsertRow_eq_some {targetUserId : Uuid} {characterId : Int} {claims : EveClaims}
    {tokens : EsiTokens} {refresh access : EncryptedToken} {newId : Uuid}
    {st : Statement Vault Row} {s : Vault} {ws : List Write} {a : Unit}
    (h : upsertRow targetUserId characterId claims tokens refresh access newId st s =
      some (ws, a)) :
    ∃ after, ws = [.putCharacter (s.character? characterId) after
        (some ⟨utf8 tokens.refreshToken, some (utf8 tokens.accessToken)⟩)] ∧
      after.userId = targetUserId ∧ after.characterId = characterId ∧
      Holds after refresh (some access) refresh.kid ∧
      Succeeds CharacterRow.id CharacterRow.characterId s.characters after ∧
      (s.character? characterId = none → .characterPk after.id ∈ st.planned) := by
  simp only [upsertRow, Option.ite_none_left_eq_some] at h
  obtain ⟨-, h⟩ := h
  cases hc : s.character? characterId with
  | some row =>
    rw [hc] at h
    simp only [Option.some.injEq, Prod.mk.injEq] at h
    obtain ⟨-, rfl⟩ := lookup_mem hc
    exact ⟨_, h.1.symm, rfl, rfl, ⟨rfl, rfl, rfl, rfl, rfl⟩, .of_some hc rfl,
      fun fresh => by simp at fresh⟩
  | none =>
    rw [hc] at h
    simp only [Option.ite_none_right_eq_some, Option.some.injEq, Prod.mk.injEq] at h
    obtain ⟨⟨planned, fresh⟩, rfl, -⟩ := h
    exact ⟨_, rfl, rfl, rfl, ⟨rfl, rfl, rfl, rfl, rfl⟩, .of_none hc fresh, fun _ => planned⟩

end JitaCart.Concurrent.Characters
