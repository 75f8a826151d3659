/- module: JitaCart/Auth/Atomicity
   source: backend/crates/api/src/db.rs (tx_middleware), backend/crates/api/src/auth.rs (callback)
   digest: When a request's response and its writes agree, and what a login leaves behind. -/

import JitaCart.Api.Auth

set_option autoImplicit false
set_option relaxedAutoImplicit false

namespace JitaCart.Auth.Atomicity

open Schema Base.Table Base.Request Api.Transaction Api.Auth

section Requests
variable {S D : Type}

/-- A success is all committed or not at all, and its response is sent exactly when it was
committed; a failure leaves nothing and says so. A request that never reaches its handler
leaves nothing and reports no success. -/
def Atomic (env : Env) (handler : S → D → Handled S D) (session : S) (db : D) : Prop :=
  let handled := handler session db
  let served := txMiddleware env handler session db
  if env.runs then
    match handled.result with
    | .ok reply => (served.db = handled.written ∨ served.db = db) ∧
        (served.response = reply.intoResponse ↔ served.db = handled.written)
    | .error failure => served.db = db ∧ served.response = failure.intoResponse
  else served.db = db ∧ served.response.isSuccess = false

/-- The handler fails or writes nothing, or it answers with a success status and the commit goes
through. -/
def Answerable (env : Env) (handler : S → D → Handled S D) (session : S) (db : D) : Prop :=
  match (handler session db).result with
  | .ok reply => (handler session db).written = db ∨
      (reply.intoResponse.isSuccess = true ∧ env.commits = true)
  | .error _ => True

instance [DecidableEq D] (env : Env) (handler : S → D → Handled S D) (session : S) (db : D) :
    Decidable (Answerable env handler session db) := by
  unfold Answerable
  split <;> infer_instance

private theorem atomic_iff (env : Env) (handler : S → D → Handled S D) (session : S) (db : D) :
    Atomic env handler session db ↔ (env.runs = true → Answerable env handler session db) := by
  unfold Atomic
  cases runs : env.runs with
  | false =>
    have refused : (txMiddleware env handler session db).db = db ∧
        (txMiddleware env handler session db).response.isSuccess = false := by
      simp only [Env.runs, Bool.and_eq_false_iff] at runs
      unfold txMiddleware
      split
      · exact ⟨rfl, rfl⟩
      · split
        · exact ⟨rfl, rfl⟩
        · split
          · exact ⟨rfl, rfl⟩
          · simp_all
    simpa using refused
  | true =>
    simp only [if_true, true_implies, txMiddleware_runs runs, Answerable]
    generalize handler session db = handled
    obtain ⟨session', written, result⟩ := handled
    cases result with
    | error failure => simp [Handled.intoResponse, failure.not_success]
    | ok reply =>
      simp only [Handled.intoResponse, true_iff]
      by_cases committed : reply.intoResponse.isSuccess = true ∧ env.commits = true
      · simp [committed]
      · simp only [committed, if_false, or_true, true_and, or_false]
        exact eq_comm

end Requests

/-- The character and the encrypted tokens of a login. -/
def issued (input : CallbackInput) : Except String (Int × EncryptedToken × EncryptedToken) := do
  let tokens ← input.exchangeCode
  let claims ← input.verify tokens
  let characterId ← claims.characterId
  let refresh ← input.cipher.encryptRefresh tokens.refreshToken characterId
  let access ← input.cipher.encryptAccess tokens.accessToken characterId
  .ok (characterId, refresh, access)

/-- The row is the logged-in character's and carries the freshly encrypted tokens. -/
def carries (input : CallbackInput) (c : CharacterRow) : Bool :=
  match issued input with
  | .ok (characterId, refresh, access) =>
    decide (c.characterId = characterId ∧
      c.refreshTokenCiphertext = refresh.ciphertext ∧ c.refreshTokenNonce = refresh.nonce ∧
      c.accessTokenCiphertext = some access.ciphertext ∧ c.accessTokenNonce = some access.nonce ∧
      c.tokenKeyId = refresh.kid)
  | .error _ => false

/-- The session's user exists, has its principal, and owns the character with its new tokens. -/
def LoggedIn (input : CallbackInput) (session : Session) (d : Accounts) : Prop :=
  ∃ u ∈ d.users, session.user = some u.id ∧ (∃ p ∈ d.principals, p.owner = .user u.id) ∧
    ∃ c ∈ d.characters, c.userId = u.id ∧ carries input c = true

instance (input : CallbackInput) (session : Session) (d : Accounts) :
    Decidable (LoggedIn input session d) := by
  unfold LoggedIn
  infer_instance

private theorem callback_redirects {input : CallbackInput} {session : Session} {d : Accounts}
    {reply : Reply} (h : (callback input session d).result = .ok reply) :
    ∃ uri, reply = .redirect uri := by
  unfold callback at h
  split at h
  · cases h
  · split at h
    · cases h
    · dsimp only at h
      split at h
      · rename_i hfinish
        cases h
        simp only [finishCallback, bind_eq_ok] at hfinish
        obtain ⟨_, _, _, _, _, _, _, _, _, _, ⟨_, _⟩, _, _, _, hfinish⟩ := hfinish
        cases hfinish
        exact ⟨_, rfl⟩
      · cases h

/-- A request is atomic exactly when it is answerable, and a callback that succeeded has logged
its user in exactly when the rows were there before it. -/
theorem requests_atomic_iff {S D : Type} (env : Env) (handler : S → D → Handled S D) (session : S)
    (db : D) (input : CallbackInput) (browser : Session) (d : Accounts) (reply : Reply) :
    (Atomic env handler session db ↔ (env.runs = true → Answerable env handler session db)) ∧
      (env.runs = true → (callback input browser d).result = .ok reply →
        (LoggedIn input (txMiddleware env (callback input) browser d).session
            (txMiddleware env (callback input) browser d).db ↔
          LoggedIn input (callback input browser d).session d)) := by
  refine ⟨atomic_iff env handler session db, fun runs succeeded => ?_⟩
  obtain ⟨uri, rfl⟩ := callback_redirects succeeded
  have redirected : (callback input browser d).intoResponse.isSuccess = false := by
    rw [Handled.intoResponse, succeeded]
    exact Reply.redirect_not_success uri
  rw [txMiddleware_runs runs]
  simp only [redirected, Bool.false_eq_true, false_and, if_false]

def smooth : Env := ⟨true, true, true, true⟩

def firstLogin : CallbackInput where
  state := "s"
  exchangeCode := .ok ⟨"refresh", "access", 0⟩
  verify _ := .ok ⟨.ok 90, "Pilot", "hash", ["publicData"]⟩
  cipher := ⟨fun _ _ => .ok ⟨[1], [2], "v1"⟩, fun _ _ => .ok ⟨[3], [4], "v1"⟩⟩
  charactersCap := 10
  new := ⟨1, 2, 3⟩
  sessionRemoves := true
  sessionGets := true
  sessionInserts := true

def freshSession : Session where
  pending := some ⟨"s", false, none, none⟩

theorem requests_atomic_iff_firstLogin :
    smooth.runs = true ∧ (callback firstLogin freshSession {}).result = .ok (.redirect "/me") ∧
      (LoggedIn firstLogin (txMiddleware smooth (callback firstLogin) freshSession {}).session
          (txMiddleware smooth (callback firstLogin) freshSession {}).db ↔
        LoggedIn firstLogin (callback firstLogin freshSession {}).session {}) :=
  ⟨rfl, rfl, (requests_atomic_iff smooth (callback firstLogin) freshSession {} firstLogin freshSession
    {} (.redirect "/me")).2 rfl rfl⟩

/-- The first login succeeds, is answered as a success, and leaves a session for a user that does
not exist, although its transaction held everything. A success whose commit fails is still
answered as one. -/
theorem login_is_rolled_back :
    ¬ Atomic smooth (callback firstLogin) freshSession {} ∧
      LoggedIn firstLogin (callback firstLogin freshSession {}).session
        (callback firstLogin freshSession {}).written ∧
      ¬ LoggedIn firstLogin (txMiddleware smooth (callback firstLogin) freshSession {}).session
        (txMiddleware smooth (callback firstLogin) freshSession {}).db ∧
      ¬ Atomic { smooth with commits := false } (fun (_ : Unit) (n : Nat) => ⟨(), n + 1, .ok .noContent⟩)
        () 0 := by
  refine ⟨?_, by decide +kernel, by decide +kernel, ?_⟩
  · rw [atomic_iff]
    decide +kernel
  · rw [atomic_iff]
    decide +kernel

end JitaCart.Auth.Atomicity
