/- module: JitaCart/Tokens/Rotation
   source: backend/crates/auth-tokens/src/store.rs (CharacterTokenStore)
   digest: Cached clients, rotations inside them, and how a rotated token reaches its row. -/

import JitaCart.Concurrent.Characters

/-!
Calls interleave at their `await`s, and each part of a call may fail. The read
guard that `persist_rotations` keeps on its cache entry rules some of these
interleavings out; they are not excluded here.
-/

set_option autoImplicit false
set_option relaxedAutoImplicit false

namespace JitaCart.Tokens.Rotation

open Schema Base.Table Base.Request Api.Auth
open Concurrent.Characters (openRefresh openAccess fromUtf8 utf8 setTokens)

/-- A client and its entry in the cache. `get_tokens` is `none` before tokens are set. -/
structure CachedClient where
  tokens : Option EsiTokens
  lastRefreshHash : UInt64
  eveCharacterId : Int
  deriving DecidableEq

structure LoadedTokens extends Concurrent.Characters.LoadedTokens where
  accessTokenExpiresAt : Option Timestamp

/-- A call between two of its awaits. -/
inductive Call
  /-- `authed_client_for` has loaded the row. -/
  | loaded (id : Uuid) (row : LoadedTokens)
  /-- `authed_client_for` has found no client that it may reuse. -/
  | building (id : Uuid) (row : LoadedTokens)
  /-- `persist_rotations` has swapped the hash. -/
  | writing (id : Uuid) (tokens : EsiTokens) (eveCharacterId : Int)

def Call.id : Call → Uuid
  | .loaded id _ | .building id _ | .writing id _ _ => id

def Call.eveCharacterId : Call → Int
  | .loaded _ row | .building _ row => row.eveCharacterId
  | .writing _ _ eveCharacterId => eveCharacterId

def Call.taken? : Call → Option EsiTokens
  | .writing _ tokens _ => some tokens
  | _ => none

/-- The table of characters, the cache, and the calls in progress under their tags. -/
structure TokenStore where
  rows : List CharacterRow
  clients : Uuid → Option CachedClient := fun _ => none
  calls : List (Nat × Call) := []

def TokenStore.call? (s : TokenStore) (tag : Nat) : Option Call :=
  (lookup Prod.fst tag s.calls).map (·.2)

/-- The call under a tag goes on as another one, or ends. -/
def TokenStore.setCall (s : TokenStore) (tag : Nat) (call : Option Call) : TokenStore :=
  { s with calls := replace Prod.fst tag (call.map fun c => (tag, c)) s.calls }

def TokenStore.setClient (s : TokenStore) (id : Uuid) (client : Option CachedClient) :
    TokenStore :=
  { s with clients := Function.update s.clients id client }

/-- What a step tells its caller. `taken` are the tokens that `persist_rotations` has found in the
client. -/
inductive Answer
  | idle
  | running
  | failed (message : String)
  | client (id : Uuid) (tokens : Option EsiTokens)
  | persisted (id : Uuid) (taken : Option EsiTokens)
  deriving DecidableEq

section Steps
variable {A : Aead} (hashSecret : String → UInt64) (cipher : MultiKeyCipher A)

def loadTokens (rows : List CharacterRow) (id : Uuid) : Except String LoadedTokens := do
  let row ← fetch s!"character {id} not found" (lookup CharacterRow.id id rows)
  let refreshPlain ← openRefresh cipher.keys row
  let refreshToken ← fromUtf8 "refresh" refreshPlain
  let accessPlain ← openAccess cipher.keys row
  let accessToken ← accessPlain.mapM (fromUtf8 "access")
  .ok ⟨⟨refreshToken, accessToken, row.characterId⟩, row.accessTokenExpiresAt⟩

/-- `authed_client_for` up to the cache: `reads` says whether the query succeeds. -/
def load (s : TokenStore) (tag : Nat) (id : Uuid) (reads : Bool) : TokenStore × Answer :=
  match (do require (reads = true) "loading character tokens"; loadTokens cipher s.rows id) with
  | .error message => (s, .failed message)
  | .ok row => (s.setCall tag (some (.loaded id row)), .running)

/-- A cached client is reused when its hash is that of the loaded token, and dropped otherwise. -/
def checkCache (s : TokenStore) (tag : Nat) (id : Uuid) (row : LoadedTokens) :
    TokenStore × Answer :=
  match s.clients id with
  | some entry =>
    if hashSecret row.refreshToken = entry.lastRefreshHash then
      (s.setCall tag none, .client id entry.tokens)
    else ((s.setClient id none).setCall tag (some (.building id row)), .running)
  | none => (s.setCall tag (some (.building id row)), .running)

/-- `set_tokens` of a new client: a missing access token is an expired one. -/
def LoadedTokens.toEsiTokens (row : LoadedTokens) (now : Timestamp) : EsiTokens :=
  ⟨row.refreshToken, row.accessToken.getD "", row.accessTokenExpiresAt.getD (now - 1)⟩

def newClient (row : LoadedTokens) (now : Timestamp) : CachedClient :=
  ⟨some (row.toEsiTokens now), hashSecret row.refreshToken, row.eveCharacterId⟩

/-- `builds` says whether `with_web_app` succeeds. -/
def insertClient (s : TokenStore) (tag : Nat) (id : Uuid) (row : LoadedTokens) (builds : Bool)
    (now : Timestamp) : TokenStore × Answer :=
  if builds = true then
    ((s.setCall tag none).setClient id (some (newClient hashSecret row now)),
      .client id (some (row.toEsiTokens now)))
  else (s.setCall tag none, .failed "EsiClient::with_web_app")

/-- `persist_rotations` up to the encryption. -/
def takeTokens (s : TokenStore) (tag : Nat) (id : Uuid) : TokenStore × Answer :=
  match s.clients id with
  | none => (s, .persisted id none)
  | some entry =>
    match entry.tokens with
    | none => (s, .persisted id none)
    | some tokens =>
      let newHash := hashSecret tokens.refreshToken
      let swapped := s.setClient id (some { entry with lastRefreshHash := newHash })
      if entry.lastRefreshHash = newHash then (swapped, .persisted id (some tokens))
      else (swapped.setCall tag (some (.writing id tokens entry.eveCharacterId)), .running)

def encryptTokens (tokens : EsiTokens) (eveCharacterId : Int) (refreshNonce accessNonce : Nonce) :
    Except String (EncryptedToken × EncryptedToken) := do
  let refresh ← cipher.encrypt refreshNonce (utf8 tokens.refreshToken) (toBeBytes eveCharacterId)
  let access ← cipher.encrypt accessNonce (utf8 tokens.accessToken) (toBeBytes eveCharacterId)
  .ok (refresh, access)

def rotatedRow (tokens : EsiTokens) (refresh access : EncryptedToken) (c : CharacterRow) :
    CharacterRow :=
  { setTokens refresh (some access) refresh.kid c with
    accessTokenExpiresAt := some tokens.expiresAt }

/-- `UPDATE characters SET … WHERE id = …`. -/
def updateRows (id : Uuid) (tokens : EsiTokens) (refresh access : EncryptedToken)
    (rows : List CharacterRow) : List CharacterRow :=
  updateWhere (fun c => decide (c.id = id)) (rotatedRow tokens refresh access) rows

/-- The rest of `persist_rotations`: `writes` says whether the statement succeeds. -/
def writeTokens (s : TokenStore) (tag : Nat) (id : Uuid) (tokens : EsiTokens)
    (eveCharacterId : Int) (refreshNonce accessNonce : Nonce) (writes : Bool) :
    TokenStore × Answer :=
  match (do
    let sealed ← encryptTokens cipher tokens eveCharacterId refreshNonce accessNonce
    require (writes = true) "persisting rotated token"
    .ok sealed) with
  | .error message => (s.setCall tag none, .failed message)
  | .ok (refresh, access) =>
    ({ s.setCall tag none with rows := updateRows id tokens refresh access s.rows },
      .persisted id (some tokens))

/-- An ESI call refreshes the tokens of the cached client. -/
def rotate (s : TokenStore) (id : Uuid) (tokens : EsiTokens) : TokenStore × Answer :=
  match s.clients id with
  | none => (s, .idle)
  | some entry => (s.setClient id (some { entry with tokens := some tokens }), .running)

/-- A call starts under a tag of its own and goes on under it. -/
inductive Event
  | authedClientFor (tag : Nat) (id : Uuid) (reads : Bool)
  | check (tag : Nat)
  | insert (tag : Nat) (builds : Bool) (now : Timestamp)
  | persistRotations (tag : Nat) (id : Uuid)
  | write (tag : Nat) (refreshNonce accessNonce : Nonce) (writes : Bool)
  | rotate (id : Uuid) (tokens : EsiTokens)

def step (s : TokenStore) : Event → TokenStore × Answer
  | .authedClientFor tag id reads =>
    if (s.call? tag).isSome then (s, .idle) else load cipher s tag id reads
  | .check tag =>
    match s.call? tag with
    | some (.loaded id row) => checkCache hashSecret s tag id row
    | _ => (s, .idle)
  | .insert tag builds now =>
    match s.call? tag with
    | some (.building id row) => insertClient hashSecret s tag id row builds now
    | _ => (s, .idle)
  | .persistRotations tag id =>
    if (s.call? tag).isSome then (s, .idle) else takeTokens hashSecret s tag id
  | .write tag refreshNonce accessNonce writes =>
    match s.call? tag with
    | some (.writing id tokens eveCharacterId) =>
      writeTokens cipher s tag id tokens eveCharacterId refreshNonce accessNonce writes
    | _ => (s, .idle)
  | .rotate id tokens => rotate s id tokens

def advance (e : Event) (s : TokenStore) : Except String TokenStore :=
  .ok (step hashSecret cipher s e).1

end Steps

section Claims
variable {A : Aead} (hashSecret : String → UInt64) (cipher : MultiKeyCipher A)

def storedToken (rows : List CharacterRow) (id : Uuid) : Option String :=
  (lookup CharacterRow.id id rows).bind fun row =>
    (openRefresh cipher.keys row >>= fromUtf8 "refresh").toOption

/-- A `persist_rotations` call of this character is about to write. -/
def TokenStore.writes (s : TokenStore) (id : Uuid) : Bool :=
  s.calls.any fun x => decide (x.2.id = id) && x.2.taken?.isSome

/-- The hash of a cached client is that of the stored token, unless a call is about to write. -/
def Marked (s : TokenStore) : Prop :=
  ∀ id entry, s.clients id = some entry → s.writes id = false →
    ∃ token, storedToken cipher s.rows id = some token ∧ entry.lastRefreshHash = hashSecret token

/-- A `persist_rotations` call that succeeds leaves the token that it found in the client in the
row, and no step takes a client with its tokens out of the cache. -/
def Lossless (s : TokenStore) (e : Event) : Prop :=
  (∀ id tokens, (step hashSecret cipher s e).2 = .persisted id (some tokens) →
    storedToken cipher (step hashSecret cipher s e).1.rows id = some tokens.refreshToken) ∧
  ∀ id entry, s.clients id = some entry →
    ∃ after, (step hashSecret cipher s e).1.clients id = some after ∧
      (after.tokens = entry.tokens ∨ ∃ tokens, e = .rotate id tokens ∧ after.tokens = some tokens)

/-- The row still has the token that a call has loaded, and no call is about to write another. -/
def TokenStore.current (s : TokenStore) (id : Uuid) (row : LoadedTokens) : Bool :=
  decide (storedToken cipher s.rows id = some row.refreshToken) && !s.writes id

/-- No write of a rotated token fails, none begins while another is under way, and a load is not
overtaken: not by a write, and not by another call that builds a client. -/
def undisturbed (s : TokenStore) : Event → Bool
  | .check tag =>
    match s.call? tag with
    | some (.loaded id row) => (s.clients id).isNone || s.current cipher id row
    | _ => true
  | .insert tag builds _ =>
    match s.call? tag with
    | some (.building id row) =>
      !builds || (s.current cipher id row && (s.clients id).isNone)
    | _ => true
  | .persistRotations _ id => !s.writes id
  | .write tag refreshNonce accessNonce writes =>
    match s.call? tag with
    | some (.writing _ tokens eveCharacterId) =>
      (encryptTokens cipher tokens eveCharacterId refreshNonce accessNonce).isOk && writes
    | _ => true
  | _ => true

end Claims

variable {A : Aead} {hashSecret : String → UInt64} {cipher : MultiKeyCipher A} {s : TokenStore}

def owner (rows : List CharacterRow) (id : Uuid) : Option Int :=
  (lookup CharacterRow.id id rows).map (·.characterId)

private theorem fromUtf8_utf8 (field text : String) : fromUtf8 field (utf8 text) = .ok text := by
  have decoded : String.fromUTF8? ⟨(utf8 text).toArray⟩ = some text := dif_pos text.isValidUTF8
  rw [fromUtf8, decoded]
  rfl

private theorem of_loadTokens {rows : List CharacterRow} {id : Uuid} {loaded : LoadedTokens}
    (h : loadTokens cipher rows id = .ok loaded) :
    storedToken cipher rows id = some loaded.refreshToken ∧
      owner rows id = some loaded.eveCharacterId := by
  simp only [loadTokens, bind_eq_ok, fetch_eq_ok, Except.ok.injEq] at h
  obtain ⟨row, hrow, plaintext, hopen, token, hutf8, _, _, _, _, rfl⟩ := h
  refine ⟨?_, by simp [owner, hrow]⟩
  simp [storedToken, hrow, hopen, hutf8, bind, Except.bind, Except.toOption]

private theorem lookup_updateRows {rows : List CharacterRow} (id other : Uuid) (tokens : EsiTokens)
    (refresh access : EncryptedToken) :
    lookup CharacterRow.id other (updateRows id tokens refresh access rows) =
      (lookup CharacterRow.id other rows).map fun c =>
        if other = id then rotatedRow tokens refresh access c else c := by
  have keep : ∀ c, (rotatedRow tokens refresh access c).id = c.id := fun _ => rfl
  rw [updateRows, lookup_updateWhere keep]
  refine Option.map_congr fun c hc => ?_
  rw [(lookup_mem hc).2]
  simp only [decide_eq_true_eq]

private theorem owner_updateRows {rows : List CharacterRow} (id other : Uuid) (tokens : EsiTokens)
    (refresh access : EncryptedToken) :
    owner (updateRows id tokens refresh access rows) other = owner rows other := by
  rw [owner, lookup_updateRows, Option.map_map]
  refine Option.map_congr fun c _ => ?_
  rw [Function.comp_apply]
  split <;> rfl

private theorem storedToken_updateRows_of_ne {rows : List CharacterRow} {id other : Uuid}
    (h : other ≠ id) (tokens : EsiTokens) (refresh access : EncryptedToken) :
    storedToken cipher (updateRows id tokens refresh access rows) other =
      storedToken cipher rows other := by
  rw [storedToken, lookup_updateRows]
  simp [h, storedToken]

/-- What is written decrypts to what was encrypted for the character of the row. -/
private theorem storedToken_updateRows {rows : List CharacterRow} {id : Uuid} {eveCharacterId : Int}
    {tokens : EsiTokens} {refreshNonce accessNonce : Nonce} {refresh access : EncryptedToken}
    (own : owner rows id = some eveCharacterId)
    (h : encryptTokens cipher tokens eveCharacterId refreshNonce accessNonce =
      .ok (refresh, access)) :
    storedToken cipher (updateRows id tokens refresh access rows) id =
      some tokens.refreshToken := by
  obtain ⟨first, hrefresh, h⟩ := bind_eq_ok.mp h
  obtain ⟨second, _, h⟩ := bind_eq_ok.mp h
  obtain ⟨rfl, rfl⟩ := Prod.mk.inj (Except.ok.inj h)
  obtain ⟨row, hrow, rfl⟩ := Option.map_eq_some_iff.mp own
  have opened : openRefresh cipher.keys (rotatedRow tokens first second row) =
      .ok (utf8 tokens.refreshToken) := decryptWith_encrypt hrefresh
  rw [storedToken, lookup_updateRows, hrow]
  simp only [if_true, Option.map_some, Option.bind_some, opened, bind, Except.bind, fromUtf8_utf8]
  rfl

private theorem call?_mem {tag : Nat} {call : Call} (h : s.call? tag = some call) :
    (tag, call) ∈ s.calls := by
  obtain ⟨⟨tag', call'⟩, hx, rfl⟩ := Option.map_eq_some_iff.mp h
  obtain ⟨hmem, rfl⟩ := lookup_mem hx
  exact hmem

private theorem mem_setCall {tag : Nat} {call : Option Call} {x : Nat × Call} :
    x ∈ (s.setCall tag call).calls ↔
      (x ∈ s.calls ∧ x.1 ≠ tag) ∨ (x.1 = tag ∧ call = some x.2) := by
  unfold TokenStore.setCall
  rw [mem_replace]
  cases call with
  | none => simp
  | some c =>
    obtain ⟨t, d⟩ := x
    simp only [Option.map_some, Option.some.injEq, Prod.mk.injEq]
    constructor
    · rintro (h | ⟨rfl, rfl⟩)
      · exact .inl h
      · exact .inr ⟨rfl, rfl⟩
    · rintro (h | ⟨rfl, rfl⟩)
      · exact .inl h
      · exact .inr ⟨rfl, rfl⟩

private theorem current_iff {id : Uuid} {row : LoadedTokens} :
    s.current cipher id row = true ↔
      storedToken cipher s.rows id = some row.refreshToken ∧ s.writes id = false := by
  simp [TokenStore.current]

private theorem writes_eq_false {id : Uuid} :
    s.writes id = false ↔ ∀ x ∈ s.calls, x.2.id = id → x.2.taken? = none := by
  unfold TokenStore.writes
  rw [List.any_eq_false]
  refine forall₂_congr fun x _ => ?_
  by_cases same : x.2.id = id <;> simp [same]

section Invariant
variable (hashSecret cipher) (known : Set String)

/-- `known` are the refresh tokens that occur. -/
structure Sound (s : TokenStore) : Prop where
  keyed : Keyed Prod.fst s.calls
  stored : ∀ id token, storedToken cipher s.rows id = some token → token ∈ known
  calls : ∀ x ∈ s.calls, owner s.rows x.2.id = some x.2.eveCharacterId
  exclusive : ∀ x ∈ s.calls, ∀ y ∈ s.calls, x.2.id = y.2.id → x.2.taken?.isSome →
    y.2.taken?.isSome → x.1 = y.1
  clients : ∀ id entry, s.clients id = some entry →
    owner s.rows id = some entry.eveCharacterId ∧
      ∀ tokens ∈ entry.tokens, tokens.refreshToken ∈ known
  marked : Marked hashSecret cipher s
  taken : ∀ id entry, s.clients id = some entry → ∀ x ∈ s.calls, x.2.id = id →
    ∀ tokens ∈ x.2.taken?, entry.lastRefreshHash = hashSecret tokens.refreshToken
  takenKnown : ∀ x ∈ s.calls, ∀ tokens ∈ x.2.taken?, tokens.refreshToken ∈ known

end Invariant

variable {known : Set String}

/-- A call that is not about to write goes on as another such call, or ends. -/
private theorem Sound.setCall (h : Sound hashSecret cipher known s) {tag : Nat} {call : Option Call}
    (before : ∀ x ∈ s.calls, x.1 = tag → x.2.taken? = none)
    (after : ∀ c ∈ call, c.taken? = none ∧ owner s.rows c.id = some c.eveCharacterId) :
    Sound hashSecret cipher known (s.setCall tag call) := by
  have old : ∀ x ∈ (s.setCall tag call).calls, x.2.taken? ≠ none → x ∈ s.calls := by
    intro x hx writing
    rcases mem_setCall.mp hx with ⟨hx, _⟩ | ⟨_, hcall⟩
    · exact hx
    · exact absurd (after x.2 hcall).1 writing
  have writes : ∀ id, (s.setCall tag call).writes id = false → s.writes id = false := by
    intro id idle
    rw [writes_eq_false] at idle ⊢
    intro x hx same
    by_cases own : x.1 = tag
    · exact before x hx own
    · exact idle x (mem_setCall.mpr (.inl ⟨hx, own⟩)) same
  refine ⟨?_, h.stored, fun x hx => ?_, fun x hx y hy same hwx hwy => ?_, h.clients,
    fun id entry hentry idle => h.marked id entry hentry (writes id idle),
    fun id entry hentry x hx same tokens htaken => ?_, fun x hx tokens htaken => ?_⟩
  · refine keyed_replace h.keyed fun x hx => ?_
    obtain ⟨c, _, rfl⟩ := Option.map_eq_some_iff.mp hx
    rfl
  · rcases mem_setCall.mp hx with ⟨hx, _⟩ | ⟨_, hcall⟩
    · exact h.calls x hx
    · exact (after x.2 hcall).2
  · exact h.exclusive x (old x hx (Option.isSome_iff_ne_none.mp hwx)) y
      (old y hy (Option.isSome_iff_ne_none.mp hwy)) same hwx hwy
  · exact h.taken id entry hentry x (old x hx (by rw [htaken]; simp)) same tokens htaken
  · exact h.takenKnown x (old x hx (by rw [htaken]; simp)) tokens htaken

private theorem Sound.call_eq (h : Sound hashSecret cipher known s) {tag : Nat} {call : Call}
    (hcall : s.call? tag = some call) : ∀ x ∈ s.calls, x.1 = tag → x = (tag, call) :=
  fun _ hx own => h.keyed.eq_of_key hx (call?_mem hcall) own

private theorem not_mem_of_call?_isNone {tag : Nat} (h : ¬ (s.call? tag).isSome) :
    ∀ x ∈ s.calls, x.1 ≠ tag := by
  intro x hx own
  have found : (lookup Prod.fst x.1 s.calls).isSome := lookup_isSome_of_mem hx
  rw [own] at found
  exact h (by simpa [TokenStore.call?] using found)

section Steps
variable (hashSecret cipher known)

/-- What a step of a call does: it keeps the invariant and the tokens of every cached client, and a
success leaves the tokens that were found in the row. -/
structure Faithful (s : TokenStore) (r : TokenStore × Answer) : Prop where
  sound : Sound hashSecret cipher known r.1
  persisted : ∀ id tokens, r.2 = .persisted id (some tokens) →
    storedToken cipher r.1.rows id = some tokens.refreshToken
  kept : ∀ id entry, s.clients id = some entry →
    ∃ after, r.1.clients id = some after ∧ after.tokens = entry.tokens

end Steps

private theorem faithful_of_same {r : TokenStore × Answer}
    (sound : Sound hashSecret cipher known r.1) (clients : r.1.clients = s.clients)
    (answer : ∀ id tokens, r.2 ≠ .persisted id (some tokens)) :
    Faithful hashSecret cipher known s r :=
  ⟨sound, fun id tokens same => absurd same (answer id tokens),
    fun id entry hentry => ⟨entry, by rw [clients]; exact hentry, rfl⟩⟩

private theorem faithful_load (h : Sound hashSecret cipher known s) {tag : Nat}
    (fresh : ∀ x ∈ s.calls, x.1 ≠ tag) (id : Uuid) (reads : Bool) :
    Faithful hashSecret cipher known s (load cipher s tag id reads) := by
  unfold load
  split
  · exact faithful_of_same h rfl (by simp)
  · next row hload =>
    obtain ⟨_, _, hload⟩ := bind_eq_ok.mp hload
    refine faithful_of_same (h.setCall (fun x hx own => absurd own (fresh x hx)) ?_) rfl (by simp)
    rintro c hc
    obtain rfl := Option.some.inj hc
    exact ⟨rfl, (of_loadTokens hload).2⟩

private theorem faithful_checkCache (h : Sound hashSecret cipher known s) {tag : Nat} {id : Uuid}
    {row : LoadedTokens} (hcall : s.call? tag = some (.loaded id row))
    (current : (s.clients id).isNone ∨ s.current cipher id row = true) :
    Faithful hashSecret cipher known s (checkCache hashSecret s tag id row) := by
  have quiet : ∀ x ∈ s.calls, x.1 = tag → x.2.taken? = none := by
    intro x hx own
    rw [h.call_eq hcall x hx own]
    rfl
  have own : owner s.rows id = some row.eveCharacterId := h.calls _ (call?_mem hcall)
  unfold checkCache
  cases hentry : s.clients id with
  | none =>
    refine faithful_of_same (h.setCall quiet ?_) rfl (by simp)
    rintro c hc
    obtain rfl := Option.some.inj hc
    exact ⟨rfl, own⟩
  | some entry =>
    -- an undisturbed load has the token that the hash is of, so the client is reused
    obtain ⟨stored, idle⟩ := current_iff.mp (current.resolve_left (by simp [hentry]))
    obtain ⟨token, htoken, marked⟩ := h.marked id entry hentry idle
    obtain rfl : token = row.refreshToken := Option.some.inj (htoken.symm.trans stored)
    simp only [marked, if_true]
    exact faithful_of_same (h.setCall quiet (by simp)) rfl (by simp)

private theorem Sound.setClient (h : Sound hashSecret cipher known s) {id : Uuid}
    {entry : CachedClient} (own : owner s.rows id = some entry.eveCharacterId)
    (tokens : ∀ tokens ∈ entry.tokens, tokens.refreshToken ∈ known)
    (marked : s.writes id = false → ∃ token, storedToken cipher s.rows id = some token ∧
      entry.lastRefreshHash = hashSecret token)
    (taken : ∀ x ∈ s.calls, x.2.id = id → ∀ tokens ∈ x.2.taken?,
      entry.lastRefreshHash = hashSecret tokens.refreshToken) :
    Sound hashSecret cipher known (s.setClient id (some entry)) := by
  have cases_ : ∀ other after, (s.setClient id (some entry)).clients other = some after →
      (other = id ∧ after = entry) ∨ s.clients other = some after := by
    intro other after hafter
    by_cases same : other = id
    · subst same
      exact .inl ⟨rfl, by simpa [TokenStore.setClient, eq_comm] using hafter⟩
    · exact .inr (by simpa [TokenStore.setClient, Function.update_of_ne same] using hafter)
  refine ⟨h.keyed, h.stored, h.calls, h.exclusive, fun other after hafter => ?_,
    fun other after hafter => ?_, fun other after hafter => ?_, h.takenKnown⟩
  · rcases cases_ other after hafter with ⟨rfl, rfl⟩ | old
    · exact ⟨own, tokens⟩
    · exact h.clients other after old
  · rcases cases_ other after hafter with ⟨rfl, rfl⟩ | old
    · exact marked
    · exact h.marked other after old
  · rcases cases_ other after hafter with ⟨rfl, rfl⟩ | old
    · exact taken
    · exact h.taken other after old

private theorem faithful_insertClient (h : Sound hashSecret cipher known s) {tag : Nat} {id : Uuid}
    {row : LoadedTokens} (hcall : s.call? tag = some (.building id row)) {builds : Bool}
    (current : builds = true → s.current cipher id row = true ∧ s.clients id = none)
    (now : Timestamp) :
    Faithful hashSecret cipher known s (insertClient hashSecret s tag id row builds now) := by
  have quiet : ∀ x ∈ s.calls, x.1 = tag → x.2.taken? = none := by
    intro x hx own
    rw [h.call_eq hcall x hx own]
    rfl
  have ended : Sound hashSecret cipher known (s.setCall tag none) := h.setCall quiet (by simp)
  unfold insertClient
  split
  · next hbuilds =>
    obtain ⟨hcurrent, absent⟩ := current hbuilds
    obtain ⟨stored, idle⟩ := current_iff.mp hcurrent
    refine ⟨ended.setClient (h.calls _ (call?_mem hcall)) ?_ (fun _ => ⟨_, stored, rfl⟩) ?_,
      by simp, fun other entry hentry => ⟨entry, ?_, rfl⟩⟩
    · rintro tokens htokens
      obtain rfl := Option.some.inj htokens
      exact h.stored id _ stored
    · intro x hx same tokens htaken
      rcases mem_setCall.mp hx with ⟨hx, _⟩ | ⟨_, hnone⟩
      · rw [writes_eq_false.mp idle x hx same] at htaken
        cases htaken
      · cases hnone
    · have other_ : other ≠ id := by
        rintro rfl
        rw [absent] at hentry
        cases hentry
      simpa [TokenStore.setClient, TokenStore.setCall, Function.update_of_ne other_] using hentry
  · exact faithful_of_same ended rfl (by simp)

/-- A call that has found a rotated token: from now on the hash is that of the token to write. -/
private theorem Sound.beginWrite (h : Sound hashSecret cipher known s) {tag : Nat} {id : Uuid}
    {entry : CachedClient} (hentry : s.clients id = some entry) (quiet : s.writes id = false)
    (fresh : ∀ x ∈ s.calls, x.1 ≠ tag) {tokens : EsiTokens} (htokens : entry.tokens = some tokens) :
    Sound hashSecret cipher known ((s.setClient id (some { entry with
      lastRefreshHash := hashSecret tokens.refreshToken })).setCall tag
        (some (.writing id tokens entry.eveCharacterId))) := by
  set entry' : CachedClient := { entry with
    lastRefreshHash := hashSecret tokens.refreshToken } with hentry'
  set s' := (s.setClient id (some entry')).setCall tag
    (some (.writing id tokens entry.eveCharacterId)) with hs'
  obtain ⟨own, hknown⟩ := h.clients id entry hentry
  rw [writes_eq_false] at quiet
  have calls : ∀ x ∈ s'.calls,
      x ∈ s.calls ∨ x = (tag, .writing id tokens entry.eveCharacterId) := by
    intro x hx
    rcases mem_setCall.mp hx with ⟨hx, _⟩ | ⟨htag, hcall⟩
    · exact .inl hx
    · exact .inr (Prod.ext htag (Option.some.inj hcall).symm)
  have began : (tag, .writing id tokens entry.eveCharacterId) ∈ s'.calls :=
    mem_setCall.mpr (.inr ⟨rfl, rfl⟩)
  have stays : ∀ x ∈ s.calls, x ∈ s'.calls := fun x hx => mem_setCall.mpr (.inl ⟨hx, fresh x hx⟩)
  have clients : ∀ other after, s'.clients other = some after →
      (other = id ∧ after = entry') ∨ (other ≠ id ∧ s.clients other = some after) := by
    intro other after hafter
    by_cases same : other = id
    · subst same
      exact .inl ⟨rfl, Option.some.inj (hafter.symm.trans (Function.update_self ..))⟩
    · exact .inr ⟨same, (Function.update_of_ne same _ _).symm.trans hafter⟩
  refine ⟨?_, h.stored, fun x hx => ?_, fun x hx y hy same hwx hwy => ?_,
    fun other after hafter => ?_, fun other after hafter idle => ?_,
    fun other after hafter x hx same tokens' htaken => ?_, fun x hx tokens' htaken => ?_⟩
  · refine keyed_replace h.keyed fun x hx => ?_
    obtain rfl := Option.some.inj hx
    rfl
  · rcases calls x hx with hx | rfl
    · exact h.calls x hx
    · exact own
  · rcases calls x hx with hx | rfl
    · rcases calls y hy with hy | rfl
      · exact h.exclusive x hx y hy same hwx hwy
      · rw [quiet x hx same] at hwx
        cases hwx
    · rcases calls y hy with hy | rfl
      · rw [quiet y hy same.symm] at hwy
        cases hwy
      · rfl
  · rcases clients other after hafter with ⟨rfl, rfl⟩ | ⟨_, old⟩
    · exact ⟨own, hknown⟩
    · exact h.clients other after old
  · rw [writes_eq_false] at idle
    rcases clients other after hafter with ⟨rfl, rfl⟩ | ⟨_, old⟩
    · exact absurd (idle _ began rfl) (Option.some_ne_none _)
    · exact h.marked other after old (writes_eq_false.mpr fun x hx => idle x (stays x hx))
  · rcases clients other after hafter with ⟨rfl, rfl⟩ | ⟨differs, old⟩
    · rcases calls x hx with hx | rfl
      · rw [quiet x hx same] at htaken
        cases htaken
      · obtain rfl := Option.some.inj htaken
        rfl
    · rcases calls x hx with hx | rfl
      · exact h.taken other after old x hx same tokens' htaken
      · exact absurd same.symm differs
  · rcases calls x hx with hx | rfl
    · exact h.takenKnown x hx tokens' htaken
    · obtain rfl := Option.some.inj htaken
      exact hknown _ htokens

private theorem faithful_takeTokens (inj : Set.InjOn hashSecret known)
    (h : Sound hashSecret cipher known s) {tag : Nat} (fresh : ∀ x ∈ s.calls, x.1 ≠ tag)
    {id : Uuid} (none : s.writes id = false) :
    Faithful hashSecret cipher known s (takeTokens hashSecret s tag id) := by
  unfold takeTokens
  split
  · exact faithful_of_same h rfl (by simp)
  · next entry hentry =>
    obtain ⟨own, hknown⟩ := h.clients id entry hentry
    obtain ⟨token, stored, marked⟩ := h.marked id entry hentry none
    split
    · exact faithful_of_same h rfl (by simp)
    · next tokens htokens =>
      have kept : ∀ other before, s.clients other = some before →
          ∃ after, (s.setClient id (some { entry with
            lastRefreshHash := hashSecret tokens.refreshToken })).clients other = some after ∧
            after.tokens = before.tokens := by
        intro other before hbefore
        by_cases same : other = id
        · subst same
          obtain rfl := Option.some.inj (hentry.symm.trans hbefore)
          exact ⟨_, Function.update_self .., rfl⟩
        · exact ⟨before, (Function.update_of_ne same _ _).trans hbefore, rfl⟩
      dsimp only
      split
      · next unchanged =>
        -- the client's token is the stored one, as no two known tokens share a hash
        have same : token = tokens.refreshToken :=
          inj (h.stored id token stored) (hknown tokens htokens) (marked.symm.trans unchanged)
        refine ⟨h.setClient own hknown (fun _ => ⟨token, stored, by rw [same]⟩) ?_, ?_, kept⟩
        · intro x hx hid tokens' htaken
          rw [writes_eq_false.mp none x hx hid] at htaken
          cases htaken
        · intro other tokens' answer
          cases answer
          rw [← same]
          exact stored
      · next rotated =>
        exact ⟨h.beginWrite hentry none fresh htokens, by simp, kept⟩

/-- The write that ends a call: the token that the hash is of is in the row. -/
private theorem Sound.endWrite (h : Sound hashSecret cipher known s) {tag : Nat} {id : Uuid}
    {tokens : EsiTokens} {eveCharacterId : Int}
    (hcall : s.call? tag = some (.writing id tokens eveCharacterId))
    {refresh access : EncryptedToken}
    (stored : storedToken cipher (updateRows id tokens refresh access s.rows) id =
      some tokens.refreshToken) :
    Sound hashSecret cipher known
      { s.setCall tag none with rows := updateRows id tokens refresh access s.rows } := by
  have hmem := call?_mem hcall
  have calls : ∀ x ∈ (s.setCall tag none).calls, x ∈ s.calls := by
    intro x hx
    rcases mem_setCall.mp hx with ⟨hx, _⟩ | ⟨_, hnone⟩
    · exact hx
    · cases hnone
  refine ⟨keyed_replace h.keyed (by simp), fun other token htoken => ?_, fun x hx => ?_,
    fun x hx y hy => h.exclusive x (calls x hx) y (calls y hy), fun other entry hentry => ?_,
    fun other entry hentry idle => ?_,
    fun other entry hentry x hx => h.taken other entry hentry x (calls x hx),
    fun x hx => h.takenKnown x (calls x hx)⟩
  · by_cases same : other = id
    · subst same
      obtain rfl := Option.some.inj (stored.symm.trans htoken)
      exact h.takenKnown _ hmem tokens rfl
    · rw [storedToken_updateRows_of_ne same] at htoken
      exact h.stored other token htoken
  · rw [owner_updateRows]
    exact h.calls x (calls x hx)
  · rw [owner_updateRows]
    exact h.clients other entry hentry
  · by_cases same : other = id
    · subst same
      exact ⟨_, stored, h.taken other entry hentry _ hmem rfl tokens rfl⟩
    · rw [storedToken_updateRows_of_ne same]
      refine h.marked other entry hentry (writes_eq_false.mpr fun x hx hid => ?_)
      refine writes_eq_false.mp idle x (mem_setCall.mpr (.inl ⟨hx, fun own => ?_⟩)) hid
      rw [h.call_eq hcall x hx own] at hid
      exact same hid.symm

private theorem faithful_writeTokens (h : Sound hashSecret cipher known s) {tag : Nat} {id : Uuid}
    {tokens : EsiTokens} {eveCharacterId : Int}
    (hcall : s.call? tag = some (.writing id tokens eveCharacterId))
    {refreshNonce accessNonce : Nonce} {writes : Bool}
    (encrypts : (encryptTokens cipher tokens eveCharacterId refreshNonce accessNonce).isOk)
    (succeeds : writes = true) :
    Faithful hashSecret cipher known s
      (writeTokens cipher s tag id tokens eveCharacterId refreshNonce accessNonce writes) := by
  subst succeeds
  unfold writeTokens
  cases henc : encryptTokens cipher tokens eveCharacterId refreshNonce accessNonce with
  | error message =>
    rw [henc] at encrypts
    cases encrypts
  | ok sealed_ =>
    obtain ⟨refresh, access⟩ := sealed_
    have stored := storedToken_updateRows (h.calls _ (call?_mem hcall)) henc
    refine ⟨h.endWrite hcall stored, ?_, fun other entry hentry => ⟨entry, hentry, rfl⟩⟩
    intro other taken answer
    cases answer
    exact stored

private theorem sound_rotate (h : Sound hashSecret cipher known s) {id : Uuid} {tokens : EsiTokens}
    (hknown : tokens.refreshToken ∈ known) :
    Sound hashSecret cipher known (rotate s id tokens).1 := by
  unfold rotate
  split
  · exact h
  · next entry hentry =>
    refine h.setClient (h.clients id entry hentry).1 ?_ (h.marked id entry hentry)
      (h.taken id entry hentry)
    rintro tokens' htokens
    obtain rfl := Option.some.inj htokens
    exact hknown

private theorem lossless_of_faithful {e : Event}
    (h : Faithful hashSecret cipher known s (step hashSecret cipher s e)) :
    Lossless hashSecret cipher s e :=
  ⟨h.persisted, fun id entry hentry =>
    let ⟨after, hafter, same⟩ := h.kept id entry hentry
    ⟨after, hafter, .inl same⟩⟩

private theorem lossless_rotate {id : Uuid} {tokens : EsiTokens} :
    Lossless hashSecret cipher s (.rotate id tokens) := by
  refine ⟨fun other taken answer => ?_, fun other entry hentry => ?_⟩
  · simp only [step, rotate] at answer
    split at answer <;> cases answer
  · simp only [step, rotate]
    split
    · exact ⟨entry, hentry, .inl rfl⟩
    · next found hfound =>
      by_cases same : other = id
      · subst same
        exact ⟨_, Function.update_self .., .inr ⟨tokens, rfl, rfl⟩⟩
      · exact ⟨entry, (Function.update_of_ne same _ _).trans hentry, .inl rfl⟩

/-- One step, by cases on the event and on the call that it is about. -/
private theorem faithful_step (inj : Set.InjOn hashSecret known)
    (h : Sound hashSecret cipher known s) {e : Event} (calm : undisturbed cipher s e = true)
    (other : ∀ id tokens, e ≠ .rotate id tokens) :
    Faithful hashSecret cipher known s (step hashSecret cipher s e) := by
  have idle : Faithful hashSecret cipher known s (s, .idle) := faithful_of_same h rfl (by simp)
  cases e with
  | authedClientFor tag id reads =>
    simp only [step]
    split
    · exact idle
    · next fresh => exact faithful_load h (not_mem_of_call?_isNone fresh) id reads
  | check tag =>
    simp only [step]
    split
    · next id row hcall =>
      rw [undisturbed, hcall] at calm
      exact faithful_checkCache h hcall ((Bool.or_eq_true ..).mp calm)
    · exact idle
  | insert tag builds now =>
    simp only [step]
    split
    · next id row hcall =>
      rw [undisturbed, hcall] at calm
      refine faithful_insertClient h hcall (fun hbuilds => ?_) now
      simpa [hbuilds] using calm
    · exact idle
  | persistRotations tag id =>
    simp only [step]
    split
    · exact idle
    · next fresh =>
      have quiet : s.writes id = false := by simpa [undisturbed] using calm
      exact faithful_takeTokens inj h (not_mem_of_call?_isNone fresh) quiet
  | write tag refreshNonce accessNonce writes =>
    simp only [step]
    split
    · next id tokens eveCharacterId hcall =>
      rw [undisturbed, hcall] at calm
      obtain ⟨encrypts, succeeds⟩ := (Bool.and_eq_true ..).mp calm
      exact faithful_writeTokens h hcall encrypts succeeds
    · exact idle
  | rotate id tokens => exact absurd rfl (other id tokens)

private theorem step_spec (inj : Set.InjOn hashSecret known) (h : Sound hashSecret cipher known s)
    {e : Event} (calm : undisturbed cipher s e = true)
    (rotated : ∀ id tokens, e = .rotate id tokens → tokens.refreshToken ∈ known) :
    Sound hashSecret cipher known (step hashSecret cipher s e).1 ∧
      Lossless hashSecret cipher s e := by
  by_cases rotation : ∃ id tokens, e = .rotate id tokens
  · obtain ⟨id, tokens, rfl⟩ := rotation
    exact ⟨sound_rotate h (rotated id tokens rfl), lossless_rotate⟩
  · have faithful := faithful_step inj h calm fun id tokens same => rotation ⟨id, tokens, same⟩
    exact ⟨faithful.sound, lossless_of_faithful faithful⟩

private theorem sound_start {rows : List CharacterRow}
    (stored : ∀ id token, storedToken cipher rows id = some token → token ∈ known) :
    Sound hashSecret cipher known { rows := rows } :=
  ⟨List.nodup_nil, stored, by simp, by simp, by simp, by simp [Marked], by simp, by simp⟩

/-- In a run of undisturbed steps, over tokens of which no two share a hash, the hash of a cached
client is that of the stored token in every state, and every step is lossless. -/
theorem rotated_tokens_survive (hashSecret : String → UInt64) (cipher : MultiKeyCipher A)
    (rows : List CharacterRow) (known : Set String) (inj : Set.InjOn hashSecret known)
    (stored : ∀ id token, storedToken cipher rows id = some token → token ∈ known)
    (events : List Event)
    (rotated : ∀ id tokens, .rotate id tokens ∈ events → tokens.refreshToken ∈ known)
    (calm : Meets (advance hashSecret cipher) (fun s e => undisturbed cipher s e = true)
      { rows := rows } events) :
    (∀ before after, events = before ++ after →
      Marked hashSecret cipher (run (advance hashSecret cipher) { rows := rows } before)) ∧
    ∀ before e after, events = before ++ e :: after →
      Lossless hashSecret cipher (run (advance hashSecret cipher) { rows := rows } before) e := by
  have sound : ∀ before after, events = before ++ after →
      Sound hashSecret cipher known
        (run (advance hashSecret cipher) { rows := rows } before) := by
    intro before after hevents
    have steps : Meets (advance hashSecret cipher) (fun s e => undisturbed cipher s e = true ∧
        ∀ id tokens, e = .rotate id tokens → tokens.refreshToken ∈ known) { rows := rows }
        before := by
      rw [hevents] at calm
      refine (meets_append.mp calm).1.and (meets_of_forall fun first e rest hbefore => ?_)
      rintro id tokens rfl
      exact rotated id tokens (by rw [hevents, hbefore]; simp)
    refine meets_invariant (fun s e s' hs hC hadvance => ?_) (sound_start stored) steps
    obtain rfl := Except.ok.inj hadvance
    exact (step_spec inj hs hC.1 hC.2).1
  refine ⟨fun before after hevents => (sound before after hevents).marked,
    fun before e after hevents => ?_⟩
  have here := calm
  rw [hevents] at here
  refine (step_spec inj (sound before _ hevents) (meets_append.mp here).2.1 ?_).2
  rintro id tokens rfl
  exact rotated id tokens (by rw [hevents]; simp)

def singleKey : Keys tagged := fun kid => if kid = "v1" then some [1] else none

def onlyKey : MultiKeyCipher tagged := ⟨singleKey, "v1", rfl⟩

/-- A hash under which the tokens below do not collide. -/
def lengthHash (token : String) : UInt64 := UInt64.ofNat token.length

def onePilot : TokenStore where
  rows := [⟨1, 1, 1, "pilot", "h", [], [1] ++ zeroNonce.val ++ toBeBytes 1 ++ utf8 "r",
    zeroNonce.val, none, none, none, "v1"⟩]

/-- A client is cached and its refresh token rotates from "r" to "rr". -/
def rotation : List Event :=
  [.authedClientFor 0 1 true, .check 0, .insert 0 true 9, .rotate 1 ⟨"rr", "a", 20⟩,
    .persistRotations 1 1]

theorem rotated_tokens_survive_one_rotation :
    Lossless lengthHash onlyKey (run (advance lengthHash onlyKey) onePilot rotation)
      (.write 1 zeroNonce zeroNonce true) := by
  refine (rotated_tokens_survive lengthHash onlyKey onePilot.rows {"r", "rr"} ?_ ?_
    (rotation ++ [.write 1 zeroNonce zeroNonce true]) ?_ ?_).2 rotation _ [] rfl
  · rintro a (rfl | rfl) b (rfl | rfl) same
    · rfl
    · exact absurd same (by decide)
    · exact absurd same (by decide)
    · rfl
  · intro id token h
    by_cases own : id = 1
    · subst own
      exact .inl (Option.some.inj (h.symm.trans (by decide +kernel)))
    · have missing : storedToken onlyKey onePilot.rows id = none := by
        rw [storedToken, lookup_eq_none.mpr (by simpa [onePilot] using Ne.symm own)]
        rfl
      rw [missing] at h
      cases h
  · intro id tokens h
    simp only [rotation, List.mem_append, List.mem_cons, Event.rotate.injEq, reduceCtorEq,
      List.not_mem_nil, or_false, false_or] at h
    obtain ⟨rfl, rfl⟩ := h
    exact .inr rfl
  · refine ⟨?_, ?_, ?_, ?_, ?_, ?_, trivial⟩ <;> decide +kernel

/-- When the write of the rotated token fails, the next call succeeds and writes nothing, and
`authed_client_for` drops the client that has the token. -/
theorem failed_write_loses_rotation :
    let failed := rotation ++ [.write 1 zeroNonce zeroNonce false]
    ¬ Marked lengthHash onlyKey (run (advance lengthHash onlyKey) onePilot failed) ∧
    ¬ Lossless lengthHash onlyKey (run (advance lengthHash onlyKey) onePilot failed)
      (.persistRotations 2 1) ∧
    ¬ Lossless lengthHash onlyKey (run (advance lengthHash onlyKey) onePilot
      (failed ++ [.authedClientFor 3 1 true])) (.check 3) := by
  intro failed
  refine ⟨fun marked => ?_, fun lossless => ?_, fun lossless => ?_⟩
  · obtain ⟨token, stored, hash⟩ := marked 1 ⟨some ⟨"rr", "a", 20⟩, 2, 1⟩ (by decide +kernel)
      (by decide +kernel)
    obtain rfl : "r" = token := Option.some.inj (Eq.trans (by decide +kernel) stored)
    exact absurd hash (by decide)
  · have stored := lossless.1 1 ⟨"rr", "a", 20⟩ (by decide +kernel)
    exact absurd stored (by decide +kernel)
  · obtain ⟨after, kept, _⟩ := lossless.2 1 ⟨some ⟨"rr", "a", 20⟩, 2, 1⟩ (by decide +kernel)
    have gone : (step lengthHash onlyKey (run (advance lengthHash onlyKey) onePilot
        (failed ++ [.authedClientFor 3 1 true])) (.check 3)).1.clients 1 = none := by
      decide +kernel
    rw [gone] at kept
    cases kept

end JitaCart.Tokens.Rotation
