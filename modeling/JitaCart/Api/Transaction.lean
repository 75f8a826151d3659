/- module: JitaCart/Api/Transaction
   source: backend/crates/api/src/db.rs (tx_middleware), backend/crates/api/src/errors.rs,
     backend/crates/api/src/main.rs (layering)
   digest: The per-request transaction: what handlers return, and when it is committed. -/

import JitaCart.Schema

/-!
A handler works on the session and, through `Tx`, on the database inside one
transaction. `D` and `S` are the contents of database and session; the handler's
result pairs what it returned with what its transaction would leave.
-/

set_option autoImplicit false
set_option relaxedAutoImplicit false

namespace JitaCart.Api.Transaction

open Schema

variable {S D : Type}

structure Response where
  status : Nat
  body : String
  deriving DecidableEq

/-- `StatusCode::is_success`. -/
def Response.isSuccess (r : Response) : Bool := decide (200 ≤ r.status ∧ r.status < 300)

/-- The success values of the mounted handlers. -/
inductive Reply
  | json (body : String)
  | created
  | noContent
  | redirect (uri : String)
  deriving DecidableEq

/-- `HeaderValue::try_from`: no control character but the tab. -/
def isHeaderValue (value : List Char) : Bool :=
  value.all fun c => c == '\t' || (decide (32 ≤ c.toNat) && decide (c.toNat ≠ 127))

/-- `Redirect::to` answers 303 See Other, or 500 where the location is no header value. -/
def Reply.intoResponse : Reply → Response
  | .json body => ⟨200, body⟩
  | .created => ⟨201, ""⟩
  | .noContent => ⟨204, ""⟩
  | .redirect uri =>
    if isHeaderValue uri.toList then ⟨303, uri⟩ else ⟨500, "failed to parse header value"⟩

/-- What a request fails with: an error of its handler, a missing login, or the rejection of an
extractor or of the rate limiter. -/
inductive Failure
  | api (e : ApiError)
  | unauthorized
  | rejection (status : Nat) (body : String) (isError : 400 ≤ status)

def Failure.intoResponse : Failure → Response
  | .api (.badRequest message) => ⟨400, message⟩
  | .api (.forbidden message) => ⟨403, message⟩
  | .api (.notFound message) => ⟨404, message⟩
  | .api (.conflict message) => ⟨409, message⟩
  | .api (.quotaExceeded message) => ⟨422, message⟩
  | .api (.internal _) => ⟨500, "internal error"⟩
  | .unauthorized => ⟨401, "not logged in"⟩
  | .rejection status body _ => ⟨status, body⟩

/-- What the handler leaves in the session and in its transaction, and what it returned. -/
structure Handled (S D : Type) where
  session : S
  written : D
  result : Except Failure Reply

def Handled.intoResponse (h : Handled S D) : Response :=
  match h.result with
  | .ok reply => reply.intoResponse
  | .error failure => failure.intoResponse

/-- The fallible calls of the middleware itself. -/
structure Env where
  sessionReads : Bool
  begins : Bool
  configures : Bool
  commits : Bool
  deriving DecidableEq

def Env.runs (env : Env) : Bool := env.sessionReads && env.begins && env.configures

structure Served (S D : Type) where
  session : S
  db : D
  response : Response

/-- A failed commit is logged and leaves nothing; the response is the handler's either way. -/
def txMiddleware (env : Env) (handler : S → D → Handled S D) (session : S) (db : D) :
    Served S D :=
  if env.sessionReads = false then ⟨session, db, 500, "session error"⟩
  else if env.begins = false then ⟨session, db, 500, "internal error"⟩
  else if env.configures = false then ⟨session, db, 500, "internal error"⟩
  else
    let handled := handler session db
    let response := handled.intoResponse
    if response.isSuccess then
      ⟨handled.session, if env.commits then handled.written else db, response⟩
    else ⟨handled.session, db, response⟩

theorem Reply.redirect_not_success (uri : String) :
    (Reply.redirect uri).intoResponse.isSuccess = false := by
  simp only [Reply.intoResponse]
  split <;> rfl

theorem Failure.not_success (f : Failure) : f.intoResponse.isSuccess = false := by
  cases f with
  | api e => cases e <;> rfl
  | unauthorized => rfl
  | rejection status body isError =>
    have high : ¬ status < 300 := by omega
    simp [Failure.intoResponse, Response.isSuccess, high]

theorem txMiddleware_runs {env : Env} (runs : env.runs = true) (handler : S → D → Handled S D)
    (session : S) (db : D) :
    txMiddleware env handler session db =
      ⟨(handler session db).session,
        if (handler session db).intoResponse.isSuccess = true ∧ env.commits = true then
          (handler session db).written else db,
        (handler session db).intoResponse⟩ := by
  simp only [Env.runs, Bool.and_eq_true] at runs
  obtain ⟨⟨reads, begins⟩, configures⟩ := runs
  simp only [txMiddleware, reads, begins, configures]
  cases (handler session db).intoResponse.isSuccess <;> cases env.commits <;> rfl

end JitaCart.Api.Transaction
