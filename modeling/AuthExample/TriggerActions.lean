import AuthExample.Api
import AuthExample.Redact
import Mathlib.Data.Option.Basic

/-!
# The Trigger Center

A runner fires one call of the library, or raw requests, and reports a `TriggerResult` :
the request without its password, the response with its secret keys redacted, the wire
code, the status and the `Retry-After` window. Every runner but `hammerLogin` catches what
is thrown.

`run_status_iff` says which runs report what they ended on, `run_agree_iff` which show
nothing of a password or of a value under a secret key.
-/

namespace AuthExample

open Redact

/-! ## What is redacted -/

/-- `SECRET_KEYS`. -/
def secretKeys : List String :=
  ["accessToken", "refreshToken", "mfaTempToken", "password", "secret", "recoveryCodes", "otp",
    "token", "ticket"]

/-- `SECRET_KEYS.has(key)`. -/
def secretKey (key : String) : Bool := secretKeys.contains key

/-- `REDACTED`. -/
def redacted : Json := .str "<redacted>"

/-- `redactSecrets`. -/
def redactSecrets : Json → Json := redact secretKey redacted

/-! ## Inputs and results -/

/-- `RegisterInput`. -/
structure RegisterInput where
  email : String
  password : String
  name : String
  tenantId : String

/-- `LoginInput`. -/
structure LoginInput where
  email : String
  password : String
  tenantId : String

/-- A response as `authFetch` resolves it, with its `Retry-After` header. -/
structure RawResponse extends Response where
  retryAfter : Option String

/-- `TriggerResult`. A field that is absent or `undefined` is `none`. -/
structure TriggerResult where
  request : Json
  response : Option Json
  code : Option Json
  status : Option ℕ
  retryAfterSeconds : Option ℚ

/-- A raw `POST`, with what its body is the JSON of. -/
structure RawRequest where
  path : String
  body : Json

/-- What the calls of a run settle to : the library's call, and the raw requests in
order. -/
structure Transport (E : Type) where
  library : Except (Thrown E) (Option Json)
  fetch : ℕ → Except (Thrown E) RawResponse

/-! ## The runners -/

/-- `v?.key`. `null` has no members. -/
def optMember (v : Option Json) (key : String) : Option Json := v.bind fun v => v.get? key

/-- `v ?? d`. -/
def nullish (v : Option Json) (d : Json) : Json :=
  match v with
  | none | some .null => d
  | some v => v

/-- A status as JSON. -/
def statusJson (status : ℕ) : Json := .obj [("status", .num status)]

section

-- `toJSON` of an error, and `Number` of a header, `none` where that is not finite.
variable {E : Type} (lib : ClientErrors E) (toJSON : E → Json) (toNumber : String → Option ℚ)

/-- Build a failure result from a caught error. -/
def fromError (request : Json) : Thrown E → TriggerResult
  | .authClientError err =>
    { request
      response := some (redactSecrets (toJSON err))
      code := (lib.code err).map .str
      status := some (lib.status err)
      retryAfterSeconds := none }
  | _ =>
    { request
      response := some (.obj [("error", .str "unexpected client error")])
      code := none
      status := none
      retryAfterSeconds := none }

/-- The result of a call of the library, reported with status 200 or caught. -/
def report (request : Json) (called : Except (Thrown E) (Option Json))
    (response : Option Json → Option Json) : Except (Thrown E) TriggerResult :=
  match called with
  | .ok v =>
    .ok { request, response := response v, code := none, status := some 200,
          retryAfterSeconds := none }
  | .error err => .ok (fromError lib toJSON request err)

def runRegister (t : Transport E) (input : RegisterInput) : Except (Thrown E) TriggerResult :=
  report lib toJSON
    (.obj [("email", .str input.email), ("name", .str input.name),
      ("tenantId", .str input.tenantId)])
    t.library fun response => response.map redactSecrets

def runLogin (t : Transport E) (input : LoginInput) : Except (Thrown E) TriggerResult :=
  report lib toJSON
    (.obj [("email", .str input.email), ("tenantId", .str input.tenantId)])
    t.library fun response => response.map redactSecrets

def rotateToken (t : Transport E) : Except (Thrown E) TriggerResult :=
  report lib toJSON (.obj [("action", .str "refresh")]) t.library fun response =>
    response.map redactSecrets

/-- The result of a 429. -/
def tooManyRequests (request : Json) (res : RawResponse) : TriggerResult :=
  let error := optMember res.json "error"
  let seconds := match res.retryAfter with
    | some header => toNumber header
    | none => (optMember (optMember error "details") "retryAfterSeconds").bind Json.num?
  { request
    response := some (redactSecrets (nullish res.json (statusJson 429)))
    code := some (nullish (optMember error "code") (.str "auth.too_many_requests"))
    status := some 429
    retryAfterSeconds := seconds }

/-- The result of another failed response, as `hammerLogin` and `dispatchVerifyEmail` build
it. -/
def httpFailure (request : Json) (res : RawResponse) : TriggerResult where
  request := request
  response := some (redactSecrets (nullish res.json (statusJson res.status)))
  code := some ((optMember (optMember res.json "error") "code").getD (.str "http.error"))
  status := some res.status
  retryAfterSeconds := none

/-- The request of a login. -/
def loginRequest (input : LoginInput) : RawRequest where
  path := "/auth/login"
  body := .obj [("email", .str input.email), ("password", .str input.password),
    ("tenantId", .str input.tenantId)]

/-- The loop of `hammerLogin` from request `i` on, with so many attempts left : the requests
it sends, and its result. Nothing is caught. -/
def hammerFrom (t : Transport E) (input : LoginInput) (request : Json) (i : ℕ) :
    ℕ → List RawRequest × Except (Thrown E) TriggerResult
  | 0 =>
    ([], .ok { request, response := some (.obj [("note", .str "no 429 within attempts")]),
               code := none, status := some 200, retryAfterSeconds := none })
  | left + 1 =>
    match t.fetch i with
    | .error err => ([loginRequest input], .error err)
    | .ok res =>
      if res.status = 429 then
        ([loginRequest input], .ok (tooManyRequests toNumber request res))
      else if ¬ res.ok then ([loginRequest input], .ok (httpFailure request res))
      else
        let (rest, result) := hammerFrom t input request (i + 1) left
        (loginRequest input :: rest, result)

/-- The request `hammerLogin` shows. -/
def hammerRequest (input : LoginInput) (attempts : ℕ) : Json :=
  .obj [("email", .str input.email), ("tenantId", .str input.tenantId),
    ("attempts", .num attempts)]

def hammerLogin (t : Transport E) (input : LoginInput) (attempts : ℕ) :
    List RawRequest × Except (Thrown E) TriggerResult :=
  hammerFrom toNumber t input (hammerRequest input attempts) 0 attempts

/-- What the runners catch. -/
def caught (request : Json) (result : Except (Thrown E) TriggerResult) :
    Except (Thrown E) TriggerResult :=
  match result with
  | .ok result => .ok result
  | .error err => .ok (fromError lib toJSON request err)

/-- The request `forceLockout` sends and shows. -/
def lockoutRequest (email tenantId : String) : Json :=
  .obj [("identifier", .str (tenantId ++ ":" ++ email))]

def forceLockout (t : Transport E) (email tenantId : String) : Except (Thrown E) TriggerResult :=
  let request := lockoutRequest email tenantId
  caught lib toJSON request do
    let res ← t.fetch 0
    let body := res.json.getD (.obj [])
    if ¬ res.ok then
      let error ← readMember body "error"
      return { request
               response := some (redactSecrets body)
               code := some ((optMember error "code").getD (.str "http.error"))
               status := some res.status
               retryAfterSeconds := none }
    return { request, response := some (redactSecrets body), code := none,
             status := some res.status, retryAfterSeconds := none }

def dispatchVerifyEmail (t : Transport E) (email tenantId : String) :
    Except (Thrown E) TriggerResult :=
  let request : Json := .obj [("email", .str email), ("tenantId", .str tenantId)]
  caught lib toJSON request do
    let res ← t.fetch 0
    if ¬ res.ok then return httpFailure request res
    return { request, response := some (statusJson res.status), code := none,
             status := some res.status, retryAfterSeconds := none }

def dispatchPasswordReset (t : Transport E) (email tenantId : String) :
    Except (Thrown E) TriggerResult :=
  report lib toJSON (.obj [("email", .str email), ("tenantId", .str tenantId)]) t.library
    fun _ => some (.obj [("dispatched", .bool true)])

def provokeInvalidCredentials (t : Transport E) (email tenantId : String) :
    Except (Thrown E) TriggerResult :=
  runLogin lib toJSON t { email, password := "definitely-not-the-password", tenantId }

end

/-- A runner, with its input. -/
inductive Runner where
  | register (input : RegisterInput)
  | login (input : LoginInput)
  | rotate
  | hammer (input : LoginInput) (attempts : ℕ)
  | forceLockout (email tenantId : String)
  | dispatchVerifyEmail (email tenantId : String)
  | dispatchPasswordReset (email tenantId : String)
  | provokeInvalidCredentials (email tenantId : String)

/-- Fire the runner. -/
def Runner.run {E : Type} (lib : ClientErrors E) (toJSON : E → Json)
    (toNumber : String → Option ℚ) (t : Transport E) :
    Runner → Except (Thrown E) TriggerResult
  | register input => runRegister lib toJSON t input
  | login input => runLogin lib toJSON t input
  | rotate => rotateToken lib toJSON t
  | hammer input attempts => (hammerLogin toNumber t input attempts).2
  | forceLockout email tenantId => AuthExample.forceLockout lib toJSON t email tenantId
  | dispatchVerifyEmail email tenantId =>
    AuthExample.dispatchVerifyEmail lib toJSON t email tenantId
  | dispatchPasswordReset email tenantId =>
    AuthExample.dispatchPasswordReset lib toJSON t email tenantId
  | provokeInvalidCredentials email tenantId =>
    AuthExample.provokeInvalidCredentials lib toJSON t email tenantId

/-! ## What a run ends on -/

section

variable {E : Type}

/-- A request succeeds : it resolves with a 2xx response. -/
def succeeds : Except (Thrown E) RawResponse → Bool
  | .ok res => res.ok
  | .error _ => false

/-- The first of `n` requests from `i` on that does not succeed. -/
def Transport.firstFailure (t : Transport E) (i n : ℕ) : Option ℕ :=
  (List.range' i n).find? fun j => !succeeds (t.fetch j)

/-- What the raw request settles to that a run ends on, if it ends on a failed one or, where
it sends one only, on that. -/
def Runner.last (t : Transport E) : Runner → Option (Except (Thrown E) RawResponse)
  | hammer _ attempts => (t.firstFailure 0 attempts).map t.fetch
  | forceLockout _ _ | dispatchVerifyEmail _ _ => some (t.fetch 0)
  | _ => none

/-- The status of an `AuthClientError`. -/
def Thrown.status (lib : ClientErrors E) : Thrown E → Option ℕ
  | .authClientError err => some (lib.status err)
  | _ => none

/-- The status of a failed response or an `AuthClientError`. -/
def failureStatus (lib : ClientErrors E) : Except (Thrown E) RawResponse → Option ℕ
  | .ok res => if res.ok then none else some res.status
  | .error err => err.status lib

/-- The status a run ended on, where that is a failed response or an `AuthClientError`. -/
def Runner.endStatus (lib : ClientErrors E) (t : Transport E) (r : Runner) : Option ℕ :=
  match r with
  | hammer _ _ | forceLockout _ _ | dispatchVerifyEmail _ _ =>
    (r.last t).bind (failureStatus lib)
  | _ =>
    match t.library with
    | .ok _ => none
    | .error err => err.status lib

/-- How `hammerLogin` ends on a request that does not succeed. -/
def hammerEnd (toNumber : String → Option ℚ) (request : Json) :
    Except (Thrown E) RawResponse → Except (Thrown E) TriggerResult
  | .error err => .error err
  | .ok res =>
    .ok (if res.status = 429 then tooManyRequests toNumber request res
      else httpFailure request res)

variable {toNumber : String → Option ℚ}

theorem firstFailure_succ (t : Transport E) (i n : ℕ) :
    t.firstFailure i (n + 1) =
      if succeeds (t.fetch i) then t.firstFailure (i + 1) n else some i := by
  unfold Transport.firstFailure
  rw [List.range'_succ, List.find?_cons]
  cases succeeds (t.fetch i) <;> rfl

theorem le_of_firstFailure {t : Transport E} {i n j : ℕ} (h : t.firstFailure i n = some j) :
    i ≤ j ∧ succeeds (t.fetch j) = false := by
  have hj := List.find?_some h
  exact ⟨(List.mem_range'_1.1 (List.mem_of_find?_eq_some h)).1, by simpa using hj⟩

/-- One turn of the loop : it goes on where the request succeeds. -/
theorem hammerFrom_succ (t : Transport E) (input : LoginInput) (request : Json) (i n : ℕ) :
    hammerFrom toNumber t input request i (n + 1) =
      if succeeds (t.fetch i) then
        (loginRequest input :: (hammerFrom toNumber t input request (i + 1) n).1,
          (hammerFrom toNumber t input request (i + 1) n).2)
      else ([loginRequest input], hammerEnd toNumber request (t.fetch i)) := by
  rw [hammerFrom]
  cases t.fetch i with
  | error err => rfl
  | ok res =>
    have h429 : res.status = 429 → res.ok = false := by
      intro h
      simp [Response.ok, h]
    by_cases h : res.status = 429
    · simp [succeeds, hammerEnd, h, h429 h]
    · cases hok : res.ok <;> simp [succeeds, hammerEnd, h, hok]

/-- The loop ends on the first request that does not succeed. -/
theorem hammerFrom_of_some {t : Transport E} {i n j : ℕ} (h : t.firstFailure i n = some j)
    (input : LoginInput) (request : Json) :
    hammerFrom toNumber t input request i n =
      (List.replicate (j - i + 1) (loginRequest input),
        hammerEnd toNumber request (t.fetch j)) := by
  induction n generalizing i with
  | zero => cases h
  | succ n ih =>
    rw [firstFailure_succ] at h
    rw [hammerFrom_succ]
    cases hs : succeeds (t.fetch i) with
    | true =>
      rw [hs, if_pos rfl] at h
      have hle := (le_of_firstFailure h).1
      rw [if_pos rfl, ih h, ← List.replicate_succ, show j - (i + 1) + 1 = j - i by omega]
    | false =>
      rw [hs, if_neg Bool.false_ne_true] at h
      obtain rfl := Option.some.inj h
      rw [if_neg Bool.false_ne_true, Nat.sub_self]
      rfl

/-- Where every request succeeds, all are sent. -/
theorem hammerFrom_of_none {t : Transport E} {i n : ℕ} (h : t.firstFailure i n = none)
    (input : LoginInput) (request : Json) :
    hammerFrom toNumber t input request i n =
      (List.replicate n (loginRequest input),
        .ok { request, response := some (.obj [("note", .str "no 429 within attempts")]),
              code := none, status := some 200, retryAfterSeconds := none }) := by
  induction n generalizing i with
  | zero => rfl
  | succ n ih =>
    rw [firstFailure_succ] at h
    rw [hammerFrom_succ]
    cases hs : succeeds (t.fetch i) with
    | true =>
      rw [hs, if_pos rfl] at h
      rw [if_pos rfl, ih h, ← List.replicate_succ]
    | false =>
      rw [hs, if_neg Bool.false_ne_true] at h
      cases h

/-! ## Runs that report what they ended on -/

/-- A run resolves, with the status it ended on; `hammerLogin` sends its requests up to the
first that does not succeed. -/
structure Runner.Reports (lib : ClientErrors E) (toJSON : E → Json)
    (toNumber : String → Option ℚ) (t : Transport E) (r : Runner) : Prop where
  resolves : ∃ result, r.run lib toJSON toNumber t = .ok result ∧
    ∀ status, r.endStatus lib t = some status → result.status = some status
  requests : ∀ input attempts, r = .hammer input attempts →
    (hammerLogin toNumber t input attempts).1.length =
      ((t.firstFailure 0 attempts).map (· + 1)).getD attempts

/-- What is not caught does not happen : `hammerLogin` does not end on a rejection, and the
failed response `forceLockout` ends on has no body `null`. -/
def Runner.Guarded (t : Transport E) : Runner → Prop
  | hammer _ attempts => ∀ j, t.firstFailure 0 attempts = some j → ∃ res, t.fetch j = .ok res
  | forceLockout _ _ => ∀ res, t.fetch 0 = .ok res → res.ok = false → res.json ≠ some .null
  | _ => True

variable (lib : ClientErrors E) (toJSON : E → Json) (t : Transport E)

theorem hammerLogin_length (toNumber : String → Option ℚ) (input : LoginInput) (attempts : ℕ) :
    (hammerLogin toNumber t input attempts).1.length =
      ((t.firstFailure 0 attempts).map (· + 1)).getD attempts := by
  unfold hammerLogin
  cases h : t.firstFailure 0 attempts with
  | some j =>
    rw [hammerFrom_of_some h, List.length_replicate]
    rfl
  | none =>
    rw [hammerFrom_of_none h, List.length_replicate]
    rfl

/-- What is caught is reported with its status. -/
theorem fromError_status (request : Json) {err : Thrown E} {status : ℕ}
    (h : err.status lib = some status) :
    (fromError lib toJSON request err).status = some status := by
  cases err with
  | authClientError err => exact h
  | _ => cases h

/-- A call of the library is reported whatever it settles to. -/
theorem report_resolves (request : Json) (response : Option Json → Option Json) :
    ∃ result, report lib toJSON request t.library response = .ok result ∧
      ∀ status, Runner.rotate.endStatus lib t = some status → result.status = some status := by
  simp only [Runner.endStatus, report]
  cases t.library with
  | ok v => exact ⟨_, rfl, nofun⟩
  | error err => exact ⟨_, rfl, fun _ hs => fromError_status lib toJSON request hs⟩

theorem hammer_resolves_iff (toNumber : String → Option ℚ) (input : LoginInput) (attempts : ℕ) :
    (∃ result, (hammerLogin toNumber t input attempts).2 = .ok result ∧
        ∀ status, (Runner.hammer input attempts).endStatus lib t = some status →
          result.status = some status) ↔
      (Runner.hammer input attempts).Guarded t := by
  simp only [Runner.endStatus, Runner.last, Runner.Guarded, hammerLogin]
  cases h : t.firstFailure 0 attempts with
  | none =>
    rw [hammerFrom_of_none h]
    exact iff_of_true ⟨_, rfl, nofun⟩ nofun
  | some j =>
    rw [hammerFrom_of_some h]
    simp only [Option.map_some, Option.bind_some, Option.some.injEq, forall_eq']
    cases hf : t.fetch j with
    | error err => simp [hammerEnd]
    | ok res =>
      refine iff_of_true ⟨_, rfl, fun status hs => ?_⟩ ⟨res, rfl⟩
      simp only [failureStatus] at hs
      split_ifs at hs
      obtain rfl := Option.some.inj hs
      by_cases h429 : res.status = 429
      · simp [h429, tooManyRequests]
      · simp [h429, httpFailure]

section

variable {lib toJSON t} {email tenantId : String}

theorem forceLockout_of_error {err : Thrown E} (h : t.fetch 0 = .error err) :
    forceLockout lib toJSON t email tenantId =
      .ok (fromError lib toJSON (lockoutRequest email tenantId) err) := by
  unfold forceLockout
  rw [h]
  rfl

theorem forceLockout_of_ok {res : RawResponse} (h : t.fetch 0 = .ok res) (hok : res.ok = true) :
    forceLockout lib toJSON t email tenantId =
      .ok { request := lockoutRequest email tenantId
            response := some (redactSecrets (res.json.getD (.obj [])))
            code := none, status := some res.status, retryAfterSeconds := none } := by
  unfold forceLockout
  rw [h]
  simp only [caught, bind, Except.bind, hok]
  rfl

/-- The member read off a body `null` throws, and what is caught has no status. -/
theorem forceLockout_of_null {res : RawResponse} (h : t.fetch 0 = .ok res) (hok : res.ok = false)
    (hn : res.json = some .null) :
    forceLockout lib toJSON t email tenantId =
      .ok (fromError lib toJSON (lockoutRequest email tenantId) .typeError) := by
  unfold forceLockout
  rw [h]
  simp only [caught, bind, Except.bind, hok, hn]
  rfl

theorem forceLockout_of_failed {res : RawResponse} (h : t.fetch 0 = .ok res)
    (hok : res.ok = false) (hn : res.json ≠ some .null) :
    forceLockout lib toJSON t email tenantId =
      .ok { request := lockoutRequest email tenantId
            response := some (redactSecrets (res.json.getD (.obj [])))
            code := some ((optMember (optMember res.json "error") "code").getD
              (.str "http.error"))
            status := some res.status, retryAfterSeconds := none } := by
  have hbody : res.json.getD (.obj []) ≠ .null := by
    cases hj : res.json with
    | none => nofun
    | some v => exact fun hv => hn (hj.trans (congrArg some hv))
  have hread : readMember (res.json.getD (.obj [])) "error" =
      (.ok (optMember res.json "error") : Except (Thrown E) (Option Json)) := by
    rw [readMember, Json.member_of_ne_null hbody]
    cases res.json <;> rfl
  unfold forceLockout
  rw [h]
  simp only [caught, bind, Except.bind, hok, hread]
  rfl

end

theorem forceLockout_resolves_iff (email tenantId : String) :
    (∃ result, forceLockout lib toJSON t email tenantId = .ok result ∧
        ∀ status, (Runner.forceLockout email tenantId).endStatus lib t = some status →
          result.status = some status) ↔
      (Runner.forceLockout email tenantId).Guarded t := by
  simp only [Runner.endStatus, Runner.last, Runner.Guarded, Option.bind_some]
  cases h : t.fetch 0 with
  | error err =>
    rw [forceLockout_of_error h]
    exact iff_of_true ⟨_, rfl, fun _ hs => fromError_status lib toJSON _ hs⟩ nofun
  | ok res =>
    simp only [Except.ok.injEq, forall_eq', failureStatus]
    cases hok : res.ok with
    | true =>
      rw [forceLockout_of_ok h hok]
      exact iff_of_true ⟨_, rfl, nofun⟩ nofun
    | false =>
      by_cases hn : res.json = some .null
      · rw [forceLockout_of_null h hok hn]
        refine iff_of_false (fun ⟨result, hr, hs⟩ => ?_) fun hg => hg rfl hn
        obtain rfl := Except.ok.inj hr
        simp [fromError] at hs
      · rw [forceLockout_of_failed h hok hn]
        exact iff_of_true ⟨_, rfl, fun status hs => hs⟩ fun _ => hn

theorem dispatchVerifyEmail_resolves (email tenantId : String) :
    ∃ result, dispatchVerifyEmail lib toJSON t email tenantId = .ok result ∧
      ∀ status, (Runner.dispatchVerifyEmail email tenantId).endStatus lib t = some status →
        result.status = some status := by
  simp only [Runner.endStatus, Runner.last, Option.bind_some, dispatchVerifyEmail]
  cases t.fetch 0 with
  | error err =>
    exact ⟨_, rfl, fun _ hs => fromError_status lib toJSON _ hs⟩
  | ok res =>
    simp only [caught, bind, Except.bind, failureStatus]
    cases res.ok with
    | true => exact ⟨_, rfl, nofun⟩
    | false => exact ⟨_, rfl, fun _ hs => hs⟩

/-- A run reports what it ended on exactly when it is guarded. -/
theorem run_status_iff (toNumber : String → Option ℚ) (r : Runner) :
    r.Reports lib toJSON toNumber t ↔ r.Guarded t := by
  have hiff : r.Reports lib toJSON toNumber t ↔
      ∃ result, r.run lib toJSON toNumber t = .ok result ∧
        ∀ status, r.endStatus lib t = some status → result.status = some status :=
    ⟨fun h => h.resolves, fun h =>
      ⟨h, fun input attempts _ => hammerLogin_length t toNumber input attempts⟩⟩
  rw [hiff]
  cases r with
  | hammer input attempts => exact hammer_resolves_iff lib t toNumber input attempts
  | forceLockout email tenantId => exact forceLockout_resolves_iff lib toJSON t email tenantId
  | dispatchVerifyEmail email tenantId =>
    exact iff_of_true (dispatchVerifyEmail_resolves lib toJSON t email tenantId) trivial
  | register input => exact iff_of_true (report_resolves lib toJSON t _ _) trivial
  | login input => exact iff_of_true (report_resolves lib toJSON t _ _) trivial
  | rotate => exact iff_of_true (report_resolves lib toJSON t _ _) trivial
  | dispatchPasswordReset email tenantId =>
    exact iff_of_true (report_resolves lib toJSON t _ _) trivial
  | provokeInvalidCredentials email tenantId =>
    exact iff_of_true (report_resolves lib toJSON t _ _) trivial

/-- Seven logins without a network : the first rejects, and so does `hammerLogin`. -/
theorem not_reports_offline :
    ¬ (Runner.hammer { email := "user@example.test", password := "pw", tenantId := "acme" }
        7).Reports plainErrors (fun _ => .null) (fun _ => none)
        { library := .ok none, fetch := fun _ => .error .fetch } := by
  rintro ⟨⟨result, hrun, -⟩, -⟩
  cases hrun

/-! ## Runs that agree -/

/-- Two outcomes agree : both resolve, or both reject. -/
inductive Settles {ε α : Type} (F : ε → ε → Prop) (A : α → α → Prop) :
    Except ε α → Except ε α → Prop
  | ok {a a' : α} (h : A a a') : Settles F A (.ok a) (.ok a')
  | error {e e' : ε} (h : F e e') : Settles F A (.error e) (.error e')

theorem Settles.cases {ε α : Type} {F : ε → ε → Prop} {A : α → α → Prop} {x y : Except ε α}
    (h : Settles F A x y) :
    (∃ e e', x = .error e ∧ y = .error e' ∧ F e e') ∨
      ∃ a a', x = .ok a ∧ y = .ok a' ∧ A a a' := by
  cases h with
  | ok h => exact Or.inr ⟨_, _, rfl, rfl, h⟩
  | error h => exact Or.inl ⟨_, _, rfl, rfl, h⟩

/-- Two rejections agree : an `AuthClientError` of one status and code, whose JSON agrees, or
the same. -/
inductive Thrown.Agree (lib : ClientErrors E) (toJSON : E → Json) : Thrown E → Thrown E → Prop
  | authClientError {err err' : E} (hstatus : lib.status err' = lib.status err)
    (hcode : lib.code err' = lib.code err)
    (hjson : Redact.Agree secretKey (toJSON err) (toJSON err')) :
    Agree lib toJSON (.authClientError err) (.authClientError err')
  | typeError : Agree lib toJSON .typeError .typeError
  | json : Agree lib toJSON .json .json
  | fetch : Agree lib toJSON .fetch .fetch

/-- Two responses agree : their bodies do outside what is secret, the rest is the same. -/
structure RawResponse.Agree (res res' : RawResponse) : Prop where
  status : res'.status = res.status
  retryAfter : res'.retryAfter = res.retryAfter
  json : Option.Rel (Redact.Agree secretKey) res.json res'.json

/-- What the calls settle to agrees, call by call. -/
structure Transport.Agree (lib : ClientErrors E) (toJSON : E → Json) (t t' : Transport E) :
    Prop where
  library : Settles (Thrown.Agree lib toJSON) (Option.Rel (Redact.Agree secretKey))
    t.library t'.library
  fetch : ∀ i, Settles (Thrown.Agree lib toJSON) RawResponse.Agree (t.fetch i) (t'.fetch i)

/-- A runner without its password. -/
def Runner.withoutPassword : Runner → Runner
  | register input => register { input with password := "" }
  | login input => login { input with password := "" }
  | hammer input attempts => hammer { input with password := "" } attempts
  | r => r

/-- The code of the wire error of a failed response. -/
def failureCode : Except (Thrown E) RawResponse → Option Json
  | .ok res => if res.ok then none else optMember (optMember res.json "error") "code"
  | .error _ => none

/-- The code of the wire error of the raw response a run ends on. -/
def Runner.wireCode (t : Transport E) (r : Runner) : Option Json := (r.last t).bind failureCode

theorem failureCode_of_failed {res : RawResponse} (hok : res.ok = false) :
    failureCode (.ok res : Except (Thrown E) RawResponse) =
      optMember (optMember res.json "error") "code" := by
  rw [failureCode, hok, if_neg Bool.false_ne_true]

variable {lib toJSON t} {t' : Transport E}

theorem hammerLogin_withoutPassword (input : LoginInput) (attempts : ℕ) :
    (hammerLogin toNumber t { input with password := "" } attempts).2 =
      (hammerLogin toNumber t input attempts).2 := by
  unfold hammerLogin
  cases h : t.firstFailure 0 attempts with
  | some j =>
    rw [hammerFrom_of_some h, hammerFrom_of_some h]
    rfl
  | none =>
    rw [hammerFrom_of_none h, hammerFrom_of_none h]
    rfl

/-- No runner shows its password. -/
theorem run_withoutPassword (r : Runner) :
    r.withoutPassword.run lib toJSON toNumber t = r.run lib toJSON toNumber t := by
  cases r with
  | hammer input attempts => exact hammerLogin_withoutPassword input attempts
  | _ => rfl

theorem fromError_agree (request : Json) {err err' : Thrown E}
    (h : Thrown.Agree lib toJSON err err') :
    fromError lib toJSON request err' = fromError lib toJSON request err := by
  cases h with
  | authClientError hstatus hcode hjson =>
    simp only [fromError, redactSecrets, hstatus, hcode, redact_eq_of_alike hjson]
  | _ => rfl

/-- Responses that agree are redacted to one. -/
theorem redactSecrets_agree {v v' : Option Json}
    (h : Option.Rel (Redact.Agree secretKey) v v') :
    v'.map redactSecrets = v.map redactSecrets := by
  cases h with
  | none => rfl
  | some h => exact congrArg some (redact_eq_of_alike h)

theorem Thrown.Agree.refl (err : Thrown E) : Thrown.Agree lib toJSON err err := by
  cases err with
  | authClientError err => exact .authClientError rfl rfl (.refl _)
  | typeError => exact .typeError
  | json => exact .json
  | fetch => exact .fetch

theorem settles_refl {α : Type} {A : α → α → Prop} (hA : ∀ a, A a a) (x : Except (Thrown E) α) :
    Settles (Thrown.Agree lib toJSON) A x x := by
  cases x with
  | ok a => exact .ok (hA a)
  | error err => exact .error (.refl err)

theorem settles_of_eq {x y : Except (Thrown E) TriggerResult} (h : y = x) :
    Settles (Thrown.Agree lib toJSON) Eq x y := by
  subst h
  exact settles_refl (fun _ => rfl) y

/-- A call of the library is reported the same where what it settles to agrees. -/
theorem report_agree (request : Json) {response : Option Json → Option Json}
    (hresponse : ∀ v v', Option.Rel (Redact.Agree secretKey) v v' → response v' = response v)
    (h : Settles (Thrown.Agree lib toJSON) (Option.Rel (Redact.Agree secretKey))
      t.library t'.library) :
    Settles (Thrown.Agree lib toJSON) Eq (report lib toJSON request t.library response)
      (report lib toJSON request t'.library response) := by
  refine settles_of_eq ?_
  rcases h.cases with ⟨err, err', he, he', hee⟩ | ⟨v, v', hv, hv', hvv⟩
  · simp only [report, he, he', fromError_agree request hee]
  · simp only [report, hv, hv', hresponse _ _ hvv]

theorem RawResponse.Agree.ok {res res' : RawResponse} (h : res.Agree res') : res'.ok = res.ok := by
  simp only [Response.ok, h.status]

theorem succeeds_agree {f f' : Except (Thrown E) RawResponse}
    (h : Settles (Thrown.Agree lib toJSON) RawResponse.Agree f f') :
    succeeds f' = succeeds f := by
  cases h with
  | ok h => exact h.ok
  | error h => rfl

theorem firstFailure_agree (h : t.Agree lib toJSON t') (i n : ℕ) :
    t'.firstFailure i n = t.firstFailure i n := by
  unfold Transport.firstFailure
  simp only [succeeds_agree (h.fetch _)]

theorem optMember_agree {v v' : Option Json} (h : Option.Rel (Redact.Agree secretKey) v v')
    {key : String} (hs : secretKey key = false) :
    Option.Rel (Redact.Agree secretKey) (optMember v key) (optMember v' key) := by
  cases h with
  | none => exact .none
  | some h => exact h.get? hs

/-- The code of the wire error agrees. -/
theorem wireCode_agree {v v' : Option Json} (h : Option.Rel (Redact.Agree secretKey) v v') :
    Option.Rel (Redact.Agree secretKey) (optMember (optMember v "error") "code")
      (optMember (optMember v' "error") "code") :=
  optMember_agree (optMember_agree h (by decide)) (by decide)

/-- A value that agrees with one without a secret key is that value. -/
theorem eq_of_rel {v v' : Option Json} (h : Option.Rel (Redact.Agree secretKey) v v')
    (hk : ∀ c, v = some c → ¬ HasKey secretKey c) : v' = v := by
  cases h with
  | none => rfl
  | some h => rw [(alike_of_not_hasKey (hk _ rfl)).1 h]

theorem nullish_of_not_isScalar {v : Json} (h : ¬ v.IsScalar) (d : Json) :
    nullish (some v) d = v := by
  cases v with
  | null => exact absurd trivial h
  | _ => rfl

theorem nullish_agree {v v' : Option Json} (h : Option.Rel (Redact.Agree secretKey) v v')
    (d : Json) : redactSecrets (nullish v' d) = redactSecrets (nullish v d) := by
  cases h with
  | none => rfl
  | some h =>
    rcases h.eq_or with rfl | ⟨hv, hw⟩
    · rfl
    · rw [nullish_of_not_isScalar hv, nullish_of_not_isScalar hw]
      exact redact_eq_of_alike h

theorem num?_of_not_isScalar {v : Json} (h : ¬ v.IsScalar) : v.num? = none := by
  cases v with
  | num n => exact absurd trivial h
  | _ => rfl

/-- A number outside what is secret is the same. -/
theorem num?_agree {v v' : Option Json} (h : Option.Rel (Redact.Agree secretKey) v v') :
    v'.bind Json.num? = v.bind Json.num? := by
  cases h with
  | none => rfl
  | some h =>
    rcases h.eq_or with rfl | ⟨hv, hw⟩
    · rfl
    · rw [Option.bind_some, Option.bind_some, num?_of_not_isScalar hv, num?_of_not_isScalar hw]

theorem tooManyRequests_agree (request : Json) {res res' : RawResponse} (h : res.Agree res')
    (hk : ∀ c, optMember (optMember res.json "error") "code" = some c → ¬ HasKey secretKey c) :
    tooManyRequests toNumber request res' = tooManyRequests toNumber request res := by
  have hcode := eq_of_rel (wireCode_agree h.json) hk
  have hseconds : (optMember (optMember (optMember res'.json "error") "details")
      "retryAfterSeconds").bind Json.num? = (optMember (optMember (optMember res.json "error")
        "details") "retryAfterSeconds").bind Json.num? :=
    num?_agree (optMember_agree (optMember_agree (optMember_agree h.json (by decide))
      (by decide)) (by decide))
  simp only [tooManyRequests, h.retryAfter, hcode, hseconds, nullish_agree h.json]

theorem httpFailure_agree (request : Json) {res res' : RawResponse} (h : res.Agree res')
    (hk : ∀ c, optMember (optMember res.json "error") "code" = some c → ¬ HasKey secretKey c) :
    httpFailure request res' = httpFailure request res := by
  simp only [httpFailure, h.status, eq_of_rel (wireCode_agree h.json) hk, nullish_agree h.json]

/-- `hammerLogin` shows no secret but in the code of the wire error. -/
theorem hammer_agree (h : t.Agree lib toJSON t') (input : LoginInput) (attempts : ℕ)
    (hk : ∀ c, (Runner.hammer input attempts).wireCode t = some c → ¬ HasKey secretKey c) :
    Settles (Thrown.Agree lib toJSON) Eq (hammerLogin toNumber t input attempts).2
      (hammerLogin toNumber t' input attempts).2 := by
  unfold hammerLogin
  simp only [Runner.wireCode, Runner.last] at hk
  cases hf : t.firstFailure 0 attempts with
  | none =>
    rw [hammerFrom_of_none hf, hammerFrom_of_none ((firstFailure_agree h 0 attempts).trans hf)]
    exact .ok rfl
  | some j =>
    rw [hammerFrom_of_some hf, hammerFrom_of_some ((firstFailure_agree h 0 attempts).trans hf)]
    have hs := (le_of_firstFailure hf).2
    rw [hf, Option.map_some, Option.bind_some] at hk
    rcases (h.fetch j).cases with ⟨err, err', hj, hj', he⟩ | ⟨res, res', hj, hj', hres⟩
    · rw [hj, hj']
      exact .error he
    · rw [hj] at hs hk
      rw [failureCode_of_failed hs] at hk
      rw [hj, hj']
      refine .ok ?_
      rw [hres.status, tooManyRequests_agree _ hres hk, httpFailure_agree _ hres hk]

/-- Bodies that agree are `null` together. -/
theorem eq_null_iff {v v' : Option Json} (h : Option.Rel (Redact.Agree secretKey) v v') :
    v' = some .null ↔ v = some .null := by
  cases h with
  | none => rfl
  | some h =>
    rcases h.eq_or with rfl | ⟨hv, hw⟩
    · rfl
    · refine iff_of_false (fun hn => hw ?_) fun hn => hv ?_
      · rw [Option.some.inj hn]
        trivial
      · rw [Option.some.inj hn]
        trivial

theorem getD_agree {v v' : Option Json} (h : Option.Rel (Redact.Agree secretKey) v v')
    (d : Json) : redactSecrets (v'.getD d) = redactSecrets (v.getD d) := by
  cases h with
  | none => rfl
  | some h => exact redact_eq_of_alike h

theorem forceLockout_agree (h : t.Agree lib toJSON t') (email tenantId : String)
    (hk : ∀ c, (Runner.forceLockout email tenantId).wireCode t = some c →
      ¬ HasKey secretKey c) :
    forceLockout lib toJSON t' email tenantId = forceLockout lib toJSON t email tenantId := by
  simp only [Runner.wireCode, Runner.last, Option.bind_some] at hk
  rcases (h.fetch 0).cases with ⟨err, err', hf, hf', he⟩ | ⟨res, res', hf, hf', hres⟩
  · rw [forceLockout_of_error hf, forceLockout_of_error hf', fromError_agree _ he]
  · rw [hf] at hk
    cases hok : res.ok with
    | true =>
      rw [forceLockout_of_ok hf hok, forceLockout_of_ok hf' (hres.ok.trans hok),
        getD_agree hres.json, hres.status]
    | false =>
      by_cases hn : res.json = some .null
      · rw [forceLockout_of_null hf hok hn,
          forceLockout_of_null hf' (hres.ok.trans hok) ((eq_null_iff hres.json).2 hn)]
      · rw [failureCode_of_failed hok] at hk
        rw [forceLockout_of_failed hf hok hn, forceLockout_of_failed hf' (hres.ok.trans hok)
          fun hn' => hn ((eq_null_iff hres.json).1 hn'), getD_agree hres.json, hres.status,
          eq_of_rel (wireCode_agree hres.json) hk]

theorem dispatchVerifyEmail_agree (h : t.Agree lib toJSON t') (email tenantId : String)
    (hk : ∀ c, (Runner.dispatchVerifyEmail email tenantId).wireCode t = some c →
      ¬ HasKey secretKey c) :
    dispatchVerifyEmail lib toJSON t' email tenantId =
      dispatchVerifyEmail lib toJSON t email tenantId := by
  simp only [Runner.wireCode, Runner.last, Option.bind_some] at hk
  rcases (h.fetch 0).cases with ⟨err, err', hf, hf', he⟩ | ⟨res, res', hf, hf', hres⟩
  · simp only [dispatchVerifyEmail, hf, hf', caught, bind, Except.bind, fromError_agree _ he]
  · simp only [dispatchVerifyEmail, hf, hf', caught, bind, Except.bind, hres.ok, hres.status]
    cases hok : res.ok with
    | true => rfl
    | false =>
      rw [hf, failureCode_of_failed hok] at hk
      simp only [httpFailure_agree _ hres hk]

/-! ## Runs that show a secret -/

/-- The body, changed under its secret keys. -/
def RawResponse.perturb (res : RawResponse) : RawResponse :=
  { res with json := res.json.map (Redact.perturb secretKey) }

/-- The bodies of the raw responses, changed under their secret keys. -/
def Transport.perturb (t : Transport E) : Transport E where
  library := t.library
  fetch i := (t.fetch i).map RawResponse.perturb

theorem rel_refl (v : Option Json) : Option.Rel (Redact.Agree secretKey) v v := by
  cases v with
  | none => exact .none
  | some v => exact .some (.refl v)

theorem RawResponse.agree_perturb (res : RawResponse) : res.Agree res.perturb := by
  refine ⟨rfl, rfl, ?_⟩
  unfold RawResponse.perturb
  cases res.json with
  | none => exact .none
  | some v => exact .some (Redact.agree_perturb v)

theorem Transport.agree_perturb (t : Transport E) : t.Agree lib toJSON t.perturb := by
  refine ⟨settles_refl rel_refl t.library, fun i => ?_⟩
  change Settles _ _ (t.fetch i) ((t.fetch i).map RawResponse.perturb)
  cases t.fetch i with
  | ok res => exact .ok res.agree_perturb
  | error err => exact .error (.refl err)

theorem firstFailure_perturb (i n : ℕ) :
    t.perturb.firstFailure i n = t.firstFailure i n := by
  have hs (j : ℕ) : succeeds (t.perturb.fetch j) = succeeds (t.fetch j) := by
    change succeeds ((t.fetch j).map RawResponse.perturb) = _
    cases t.fetch j <;> rfl
  simp only [Transport.firstFailure, hs]

/-- A member that is not secret, of what is changed. -/
theorem optMember_perturb (v : Option Json) {key : String} (hs : secretKey key = false) :
    optMember (v.map (Redact.perturb secretKey)) key =
      (optMember v key).map (Redact.perturb secretKey) := by
  cases v with
  | none => rfl
  | some v => exact get?_perturb v hs

theorem failureCode_perturb (f : Except (Thrown E) RawResponse) :
    failureCode (f.map RawResponse.perturb) =
      (failureCode f).map (Redact.perturb secretKey) := by
  cases f with
  | error err => rfl
  | ok res =>
    simp only [Except.map, failureCode, res.agree_perturb.ok]
    cases res.ok with
    | true => rfl
    | false =>
      simp only [RawResponse.perturb,
        optMember_perturb _ (show secretKey "error" = false by decide),
        optMember_perturb _ (show secretKey "code" = false by decide)]
      rfl

/-- The code a run ends on is changed under its secret keys. -/
theorem wireCode_perturb (r : Runner) :
    r.wireCode t.perturb = (r.wireCode t).map (Redact.perturb secretKey) := by
  cases r with
  | hammer input attempts =>
    simp only [Runner.wireCode, Runner.last, firstFailure_perturb]
    cases t.firstFailure 0 attempts with
    | none => rfl
    | some j => exact failureCode_perturb (t.fetch j)
  | forceLockout email tenantId => exact failureCode_perturb (t.fetch 0)
  | dispatchVerifyEmail email tenantId => exact failureCode_perturb (t.fetch 0)
  | _ => rfl

theorem failureCode_eq_some {f : Except (Thrown E) RawResponse} {code : Json}
    (h : failureCode f = some code) :
    ∃ res, f = .ok res ∧ res.ok = false ∧
      optMember (optMember res.json "error") "code" = some code := by
  cases f with
  | error err => cases h
  | ok res =>
    rw [failureCode] at h
    split_ifs at h with hok
    exact ⟨res, rfl, Bool.eq_false_iff.2 hok, h⟩

/-- A code with a secret key is shown as it is. -/
theorem run_code {r : Runner} {code : Json} (h : r.wireCode t = some code)
    (hk : HasKey secretKey code) :
    ∃ result, r.run lib toJSON toNumber t = .ok result ∧ result.code = some code := by
  have hscalar : ¬ code.IsScalar := fun hs => not_hasKey_of_isScalar hs hk
  cases r with
  | hammer input attempts =>
    obtain ⟨f, hf, hcode⟩ := Option.bind_eq_some_iff.1 h
    obtain ⟨j, hj, rfl⟩ := Option.map_eq_some_iff.1 hf
    obtain ⟨res, hres, hok, hcode⟩ := failureCode_eq_some hcode
    simp only [Runner.run, hammerLogin, hammerFrom_of_some hj, hres, hammerEnd]
    refine ⟨_, rfl, ?_⟩
    split_ifs
    · simp only [tooManyRequests, hcode, nullish_of_not_isScalar hscalar]
    · simp only [httpFailure, hcode, Option.getD_some]
  | forceLockout email tenantId =>
    obtain ⟨res, hres, hok, hcode⟩ := failureCode_eq_some h
    have hn : res.json ≠ some .null := by
      intro hn
      rw [hn] at hcode
      cases hcode
    refine ⟨_, forceLockout_of_failed hres hok hn, ?_⟩
    simp only [hcode, Option.getD_some]
  | dispatchVerifyEmail email tenantId =>
    obtain ⟨res, hres, hok, hcode⟩ := failureCode_eq_some h
    refine ⟨httpFailure (.obj [("email", .str email), ("tenantId", .str tenantId)]) res, ?_, ?_⟩
    · simp only [Runner.run, dispatchVerifyEmail, hres, caught, bind, Except.bind, hok]
      rfl
    · simp only [httpFailure, hcode, Option.getD_some]
  | _ => cases h

/-- A run and a run that agrees with it show the same where that code has no secret key. -/
theorem run_agree (h : t.Agree lib toJSON t') (r : Runner)
    (hk : ∀ code, r.wireCode t = some code → ¬ HasKey secretKey code) :
    Settles (Thrown.Agree lib toJSON) Eq (r.run lib toJSON toNumber t)
      (r.run lib toJSON toNumber t') := by
  have hresponse (v v' : Option Json) (hv : Option.Rel (Redact.Agree secretKey) v v') :=
    redactSecrets_agree hv
  cases r with
  | hammer input attempts => exact hammer_agree h input attempts hk
  | forceLockout email tenantId => exact settles_of_eq (forceLockout_agree h email tenantId hk)
  | dispatchVerifyEmail email tenantId =>
    exact settles_of_eq (dispatchVerifyEmail_agree h email tenantId hk)
  | dispatchPasswordReset email tenantId => exact report_agree _ (fun _ _ _ => rfl) h.library
  | register input => exact report_agree _ hresponse h.library
  | login input => exact report_agree _ hresponse h.library
  | rotate => exact report_agree _ hresponse h.library
  | provokeInvalidCredentials email tenantId => exact report_agree _ hresponse h.library

/-- A run and every run that agrees with it show the same, exactly when the code of the wire
error it ends on has no secret key. -/
theorem run_agree_iff (lib : ClientErrors E) (toJSON : E → Json) (toNumber : String → Option ℚ)
    (t : Transport E) (r : Runner) :
    (∀ (r' : Runner) (t' : Transport E), r'.withoutPassword = r.withoutPassword →
        t.Agree lib toJSON t' →
        Settles (Thrown.Agree lib toJSON) Eq (r.run lib toJSON toNumber t)
          (r'.run lib toJSON toNumber t')) ↔
      ∀ code, r.wireCode t = some code → ¬ HasKey secretKey code := by
  constructor
  · intro h code hcode hk
    have hcode' : r.wireCode t.perturb = some (Redact.perturb secretKey code) := by
      rw [wireCode_perturb, hcode]
      rfl
    have hk' : HasKey secretKey (Redact.perturb secretKey code) :=
      (agree_perturb code).hasKey_iff.2 hk
    obtain ⟨result, hrun, hc⟩ : ∃ result, r.run lib toJSON toNumber t = .ok result ∧ _ :=
      run_code hcode hk
    obtain ⟨result', hrun', hc'⟩ :
        ∃ result, r.run lib toJSON toNumber t.perturb = .ok result ∧ _ := run_code hcode' hk'
    have hagree := h r t.perturb rfl t.agree_perturb
    rw [hrun, hrun'] at hagree
    cases hagree with
    | ok heq =>
      rw [← heq, hc] at hc'
      exact perturb_ne hk (Option.some.inj hc').symm
  · intro hk r' t' hr ht
    rw [← run_withoutPassword r', hr, run_withoutPassword r]
    exact run_agree ht r hk

/-- The code of a wire error that is an object with a token. -/
def tokenCode (token : String) : Json := .obj [("token", .str token)]

/-- Every raw request fails with such a code. -/
def tokenInCode (token : String) : Transport (String × ℕ × Option AuthErrorResponse) where
  library := .ok none
  fetch _ := .ok
    { status := 500, statusText := "Internal Server Error", retryAfter := none
      json := some (.obj [("error", .obj [("code", tokenCode token)])]) }

theorem agree_tokenInCode (token token' : String) (toJSON : _ → Json) :
    (tokenInCode token).Agree plainErrors toJSON (tokenInCode token') := by
  have hcode : Redact.Agree secretKey (tokenCode token) (tokenCode token') :=
    alike_obj.2 ⟨_, rfl, .cons ⟨rfl, trivial⟩ .nil⟩
  refine ⟨.ok .none, fun i => .ok ⟨rfl, rfl, .some ?_⟩⟩
  exact alike_obj.2 ⟨_, rfl, .cons ⟨rfl, alike_obj.2 ⟨_, rfl, .cons ⟨rfl, hcode⟩ .nil⟩⟩ .nil⟩

/-- `forceLockout` shows the token. -/
theorem not_run_agree_tokenInCode :
    ¬ ∀ (r r' : Runner) (t t' : Transport (String × ℕ × Option AuthErrorResponse)),
      r'.withoutPassword = r.withoutPassword → t.Agree plainErrors (fun _ => .null) t' →
      Settles (Thrown.Agree plainErrors fun _ => .null) Eq
        (r.run plainErrors (fun _ => .null) (fun _ => none) t)
        (r'.run plainErrors (fun _ => .null) (fun _ => none) t') := by
  intro h
  have hk (token : String) : HasKey secretKey (tokenCode token) :=
    .key (List.mem_singleton_self _) rfl
  have hsettles := h (.forceLockout "user@example.test" "acme") _ (tokenInCode "a")
    (tokenInCode "b") rfl (agree_tokenInCode "a" "b" _)
  have hshown (token : String) :
      ∃ result, (Runner.forceLockout "user@example.test" "acme").run plainErrors
        (fun _ => .null) (fun _ => none) (tokenInCode token) = .ok result ∧
          result.code = some (tokenCode token) :=
    run_code rfl (hk token)
  obtain ⟨a, ha, hca⟩ := hshown "a"
  obtain ⟨b, hb, hcb⟩ := hshown "b"
  rw [ha, hb] at hsettles
  cases hsettles with
  | ok heq =>
    rw [← heq, hca] at hcb
    simp [tokenCode] at hcb

end

end AuthExample
