/- module: JitaCart/Api/Auth
   source: backend/crates/api/src/auth.rs (callback, upsert_character, create_user, safe_return_to),
     backend/migrations/20260427000000_init.sql (users, characters, principals)
   digest: The login callback and the user, principal and character rows it writes. -/

import JitaCart.Api.Transaction
import JitaCart.Base.Request

/-!
EVE's token endpoint, the verification of its tokens and the token cipher are
outside the repository or random: what they answer is part of the request. The
cipher's answer for the refresh and for the access token carries their nonces.
-/

set_option autoImplicit false
set_option relaxedAutoImplicit false

namespace JitaCart.Api.Auth

open Schema Base.Table Base.Request Transaction

structure UserRow where
  id : Uuid
  displayName : String
  activeCharacterId : Option Uuid
  deriving DecidableEq

abbrev Bytes := List UInt8

/-- A ciphertext with its nonce and the id of the key it is under. -/
structure EncryptedToken where
  ciphertext : Bytes
  nonce : Bytes
  kid : String
  deriving DecidableEq

structure CharacterRow where
  id : Uuid
  userId : Uuid
  characterId : Int
  characterName : String
  ownerHash : String
  scopes : List String
  refreshTokenCiphertext : Bytes
  refreshTokenNonce : Bytes
  accessTokenCiphertext : Option Bytes
  accessTokenNonce : Option Bytes
  accessTokenExpiresAt : Option Timestamp
  tokenKeyId : String
  deriving DecidableEq

structure Accounts where
  users : List UserRow := []
  principals : List Principal := []
  characters : List CharacterRow := []
  deriving DecidableEq

/-- The claims of a verified access token; the character id is parsed from `sub`. -/
structure EveClaims where
  characterId : Except String Int
  name : String
  owner : String
  scopes : List String

structure EsiTokens where
  refreshToken : String
  accessToken : String
  expiresAt : Timestamp
  deriving DecidableEq

/-- `cipher.encrypt` of the refresh and of the access token, bound to the character id. -/
structure Cipher where
  encryptRefresh : String → Int → Except String EncryptedToken
  encryptAccess : String → Int → Except String EncryptedToken

/-- The generated ids of the rows a login may insert. -/
structure NewIds where
  user : Uuid
  principal : Uuid
  character : Uuid
  deriving DecidableEq

def createUser (d : Accounts) (displayName : String) (new : NewIds) :
    Except ApiError (Uuid × Accounts) := do
  require (lookup UserRow.id new.user d.users = none) DbError.duplicateKey.toApi
  let d := { d with users := d.users ++ [⟨new.user, displayName, none⟩] }
  -- `ON CONFLICT DO NOTHING`
  if lookup Principal.owner (.user new.user) d.principals = none ∧
      lookup Principal.id new.principal d.principals = none then
    .ok (new.user, { d with principals := d.principals ++ [⟨new.principal, .user new.user⟩] })
  else .ok (new.user, d)

/-- Whose account the character is written to. -/
def targetUser (d : Accounts) (claims : EveClaims) (existing : Option CharacterRow)
    (sessionUser : Option Uuid) (attach : Bool) (new : NewIds) :
    Except ApiError (Uuid × Accounts) :=
  if attach then do
    let sid ← fetch (.internal "attach without session") sessionUser
    .ok (sid, d)
  else
    match existing, sessionUser with
    | some row, sid =>
      if row.ownerHash = claims.owner then .ok (row.userId, d)
      else
        match sid with
        | some sid => .ok (sid, d)
        | none => createUser d claims.name new
    | none, some sid => .ok (sid, d)
    | none, none => createUser d claims.name new

def CharacterRow.assign (row : CharacterRow) (userId : Uuid) (claims : EveClaims)
    (refresh access : EncryptedToken) (expiresAt : Timestamp) : CharacterRow :=
  { row with
    userId := userId
    characterName := claims.name
    ownerHash := claims.owner
    scopes := claims.scopes
    refreshTokenCiphertext := refresh.ciphertext
    refreshTokenNonce := refresh.nonce
    accessTokenCiphertext := some access.ciphertext
    accessTokenNonce := some access.nonce
    accessTokenExpiresAt := some expiresAt
    tokenKeyId := refresh.kid }

/-- `INSERT INTO characters … ON CONFLICT (character_id) DO UPDATE`. -/
def writeCharacter (d : Accounts) (userId : Uuid) (characterId : Int) (claims : EveClaims)
    (refresh access : EncryptedToken) (expiresAt : Timestamp) (newId : Uuid) :
    Except ApiError Accounts := do
  require (lookup UserRow.id userId d.users ≠ none) (.internal "violates foreign key constraint")
  match lookup CharacterRow.characterId characterId d.characters with
  | some _ =>
    .ok { d with
      characters := updateWhere (fun c => c.characterId = characterId)
        (fun c => c.assign userId claims refresh access expiresAt) d.characters }
  | none => do
    require (lookup CharacterRow.id newId d.characters = none) DbError.duplicateKey.toApi
    let row : CharacterRow :=
      ⟨newId, userId, characterId, claims.name, claims.owner, claims.scopes, refresh.ciphertext,
        refresh.nonce, some access.ciphertext, some access.nonce, some expiresAt, refresh.kid⟩
    .ok { d with characters := d.characters ++ [row] }

def upsertCharacter (d : Accounts) (cipher : Cipher) (claims : EveClaims) (tokens : EsiTokens)
    (sessionUser : Option Uuid) (attach : Bool) (charactersCap : Int) (new : NewIds) :
    Except ApiError (Uuid × Accounts) := do
  let characterId ← claims.characterId.mapError .internal
  let existing := lookup CharacterRow.characterId characterId d.characters
  let (targetUserId, d) ← targetUser d claims existing sessionUser attach new
  let wouldAddNew := existing.all fun row => decide (row.userId ≠ targetUserId)
  let count : Int := (d.characters.filter fun c => decide (c.userId = targetUserId)).length
  require (wouldAddNew = true → count < charactersCap)
    (.quotaExceeded s!"you already have {count} linked characters (cap {charactersCap})")
  let refresh ← (cipher.encryptRefresh tokens.refreshToken characterId).mapError .internal
  let access ← (cipher.encryptAccess tokens.accessToken characterId).mapError .internal
  let d ← writeCharacter d targetUserId characterId claims refresh access tokens.expiresAt
    new.character
  .ok (targetUserId, d)

structure PendingAuth where
  state : String
  attach : Bool
  returnTo : Option String
  targetCharacterId : Option Int
  deriving DecidableEq

structure Session where
  pending : Option PendingAuth := none
  user : Option Uuid := none
  deriving DecidableEq

/-- A site-relative path: no `//host`, no backslash, no line break. -/
def safeReturnTo (returnTo : Option String) : Option String := do
  let path ← returnTo
  let chars := path.toList
  if chars.head? = some '/' ∧ ¬ ['/', '/'] <+: chars ∧ Char.ofNat 92 ∉ chars ∧
      Char.ofNat 13 ∉ chars ∧ Char.ofNat 10 ∉ chars then
    some path
  else none

/-- What a callback request brings: the query, the answers of EVE's endpoints, of the cipher and
of the session store, the cap and the generated ids. -/
structure CallbackInput where
  state : String
  exchangeCode : Except String EsiTokens
  verify : EsiTokens → Except String EveClaims
  cipher : Cipher
  charactersCap : Int
  new : NewIds
  sessionRemoves : Bool
  sessionGets : Bool
  sessionInserts : Bool

def sessionError : ApiError := .internal "session store"

/-- An upgrade names the character it is for. -/
def requireTarget (claims : EveClaims) : Option Int → Except ApiError Unit
  | none => .ok ()
  | some target => do
    let returned ← claims.characterId.mapError .internal
    require (returned = target)
      (.badRequest "consent returned a different character than the one requested")

/-- The handler after the pending login has been taken out of the session. -/
def finishCallback (input : CallbackInput) (pending : PendingAuth) (session : Session)
    (d : Accounts) : Except ApiError (Uuid × Accounts × Reply) := do
  require (pending.state = input.state) (.badRequest "state mismatch")
  let tokens ← input.exchangeCode.mapError .internal
  let claims ← (input.verify tokens).mapError .internal
  requireTarget claims pending.targetCharacterId
  require (input.sessionGets = true) sessionError
  let (userId, d) ← upsertCharacter d input.cipher claims tokens session.user pending.attach
    input.charactersCap input.new
  require (input.sessionInserts = true) sessionError
  .ok (userId, d, .redirect ((safeReturnTo pending.returnTo).getD "/me"))

/-- The pending login leaves the session whatever follows; the user enters it at the end. -/
def callback (input : CallbackInput) (session : Session) (d : Accounts) :
    Handled Session Accounts :=
  if input.sessionRemoves = false then ⟨session, d, .error (.api sessionError)⟩
  else
    match session.pending with
    | none => ⟨session, d, .error (.api (.badRequest "no pending auth in session"))⟩
    | some pending =>
      let session := { session with pending := none }
      match finishCallback input pending session d with
      | .ok (userId, d, reply) => ⟨{ session with user := some userId }, d, .ok reply⟩
      | .error e => ⟨session, d, .error (.api e)⟩

end JitaCart.Api.Auth
