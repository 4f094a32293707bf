import AuthExample.Json

/-!
# Failed responses

`apiFetch` and `platformApiFetch` turn a non-2xx response into an `AuthClientError`
that carries the wire error, read from the envelope `{ error: { code, message } }`. The
two clients keep copies of the same code, and both are written out here.

`AuthClientError` is the library's, so it is a parameter : `ClientErrors` is its
constructor and what callers read of it. A body comes from anywhere, so reading a
property of it can throw; `contract_iff` says which bodies make it.
-/

namespace AuthExample

/-! ## Responses and errors -/

/-- A `Response`, with what `res.json()` resolves to; `none` where it rejects. -/
structure Response where
  status : ℕ
  statusText : String
  json : Option Json

/-- `res.ok`. -/
def Response.ok (res : Response) : Bool := decide (200 ≤ res.status ∧ res.status ≤ 299)

/-- `AuthErrorResponse`. -/
structure AuthErrorResponse where
  code : String
  message : String

/-- `AuthClientError` : `new AuthClientError(message, status, body)`, and its properties. -/
structure ClientErrors (E : Type) where
  new : String → ℕ → Option AuthErrorResponse → E
  message : E → String
  status : E → ℕ
  code : E → Option String
  message_new : ∀ m s b, message (new m s b) = m
  status_new : ∀ m s b, status (new m s b) = s
  code_new : ∀ m s b, code (new m s b) = b.map AuthErrorResponse.code

/-- What a request throws : an `AuthClientError`, the `TypeError` of a property read off
`null`, the rejection of `res.json()`, or that of the fetch. -/
inductive Thrown (E : Type) where
  | authClientError (error : E)
  | typeError
  | json
  | fetch

variable {E : Type}

/-- The code a page shows for what it caught. -/
def codeOf (lib : ClientErrors E) : Thrown E → String
  | .authClientError error => (lib.code error).getD "auth.internal"
  | _ => "auth.internal"

/-- The property read `v.key`. -/
def readMember (v : Json) (key : String) : Except (Thrown E) (Option Json) :=
  match v.member key with
  | some m => .ok m
  | none => .error .typeError

/-! ## The console's client -/

/-- Parse the `{ error: { code, message } }` envelope, if present and well-formed. -/
def readErrorBody (res : Response) : Except (Thrown E) (Option AuthErrorResponse) :=
  match res.json with
  | none => return none
  | some .null => return none
  | some parsed => do
    let some err ← readMember parsed "error" | return none
    let some code := (← readMember err "code").bind Json.str? | return none
    let some message := (← readMember err "message").bind Json.str? | return none
    return some { code, message }

/-- Build an `AuthClientError` from a failed response. -/
def toAuthClientError (lib : ClientErrors E) (res : Response) : Except (Thrown E) E := do
  let body ← readErrorBody res
  let message := (body.map AuthErrorResponse.message).getD
    (if res.statusText = "" then "Request failed" else res.statusText)
  return lib.new message res.status body

/-- Throw on a non-2xx response. `fetched` is what `authFetch` settles to. -/
def apiFetch (lib : ClientErrors E) (fetched : Except (Thrown E) Response) :
    Except (Thrown E) Response := do
  let res ← fetched
  if res.ok then return res
  throw (.authClientError (← toAuthClientError lib res))

/-- Throw on a non-2xx response, else parse its body. -/
def apiJson (lib : ClientErrors E) (fetched : Except (Thrown E) Response) :
    Except (Thrown E) Json := do
  let res ← apiFetch lib fetched
  match res.json with
  | some body => return body
  | none => throw .json

/-! ## The platform client -/

namespace Platform

/-- Parse the `{ error: { code, message } }` envelope, if present and well-formed. -/
def readErrorBody (res : Response) : Except (Thrown E) (Option AuthErrorResponse) :=
  match res.json with
  | none => return none
  | some .null => return none
  | some parsed => do
    let some err ← readMember parsed "error" | return none
    let some code := (← readMember err "code").bind Json.str? | return none
    let some message := (← readMember err "message").bind Json.str? | return none
    return some { code, message }

/-- Throw on a non-2xx response. `fetched` is what `platformFetch` settles to. -/
def platformApiFetch (lib : ClientErrors E) (fetched : Except (Thrown E) Response) :
    Except (Thrown E) Response := do
  let res ← fetched
  if res.ok then return res
  let body ← readErrorBody res
  let message := (body.map AuthErrorResponse.message).getD
    (if res.statusText = "" then "Request failed" else res.statusText)
  throw (.authClientError (lib.new message res.status body))

/-- Throw on a non-2xx response, else parse its body. -/
def platformApiJson (lib : ClientErrors E) (fetched : Except (Thrown E) Response) :
    Except (Thrown E) Json := do
  let res ← platformApiFetch lib fetched
  match res.json with
  | some body => return body
  | none => throw .json

end Platform

/-! ## The wire error -/

/-- The wire error of a response : its body is an object whose `error` is an object with
string members `code` and `message`. -/
def Response.wireError (res : Response) : Option AuthErrorResponse := do
  let err ← (← res.json).get? "error"
  let code ← (err.get? "code").bind Json.str?
  let message ← (err.get? "message").bind Json.str?
  return { code, message }

/-- The status text, or the generic message where it is empty. -/
def Response.fallback (res : Response) : String :=
  if res.statusText = "" then "Request failed" else res.statusText

/-- The body is an object whose `error` is `null`. -/
def Response.NullError (res : Response) : Prop :=
  ∃ body, res.json = some body ∧ body.get? "error" = some .null

theorem readMember_of_ne_null {v : Json} (h : v ≠ .null) (key : String) :
    (readMember v key : Except (Thrown E) _) = .ok (v.get? key) := by
  simp [readMember, Json.member_of_ne_null h]

/-- Reading the envelope throws on a `null` error. -/
theorem readErrorBody_of_nullError {res : Response} (h : res.NullError) :
    (readErrorBody res : Except (Thrown E) _) = .error .typeError := by
  obtain ⟨body, hbody, herr⟩ := h
  cases body with
  | obj fields =>
    simp only [Json.get?] at herr
    simp [readErrorBody, hbody, readMember, Json.member, Json.get?, herr, bind, Except.bind]
  | _ => simp [Json.get?] at herr

/-- Reading the envelope of any other body finds the wire error. -/
theorem readErrorBody_eq {res : Response} (h : ¬ res.NullError) :
    (readErrorBody res : Except (Thrown E) _) = .ok res.wireError := by
  unfold readErrorBody Response.wireError
  split
  · next hbody => simp [hbody, pure, Except.pure]
  · next hbody => simp [hbody, Json.get?, pure, Except.pure]
  · next body hne hbody =>
    rw [readMember_of_ne_null hne, hbody]
    cases herr : body.get? "error" with
    | none => simp [herr, bind, Except.bind, pure, Except.pure]
    | some err =>
      have herrne : err ≠ .null := fun hn => h ⟨body, hbody, hn ▸ herr⟩
      cases hcode : (err.get? "code").bind Json.str? <;>
        cases hmessage : (err.get? "message").bind Json.str? <;>
          simp [readMember_of_ne_null herrne, herr, hcode, hmessage, bind, Except.bind, pure,
            Except.pure]

/-! ## The contract -/

/-- A request on a non-2xx response rejects with an `AuthClientError` that carries the
status, and the wire error if there is one; else no code, and the status text or the
generic message. -/
def Rejects {α : Type} (lib : ClientErrors E) (res : Response) (r : Except (Thrown E) α) : Prop :=
  ∃ error, r = .error (.authClientError error) ∧ lib.status error = res.status ∧
    lib.code error = res.wireError.map AuthErrorResponse.code ∧
    lib.message error = (res.wireError.map AuthErrorResponse.message).getD res.fallback

/-- The throw-on-failure contract of the two clients, and that they agree. -/
structure Contract (lib : ClientErrors E) (res : Response) : Prop where
  apiFetch : res.ok = false → Rejects lib res (apiFetch lib (.ok res))
  apiJson : res.ok = false → Rejects lib res (apiJson lib (.ok res))
  platformApiFetch : res.ok = false → Rejects lib res (Platform.platformApiFetch lib (.ok res))
  platformApiJson : res.ok = false → Rejects lib res (Platform.platformApiJson lib (.ok res))
  agreeFetch : Platform.platformApiFetch lib (.ok res) = AuthExample.apiFetch lib (.ok res)
  agreeJson : Platform.platformApiJson lib (.ok res) = AuthExample.apiJson lib (.ok res)

/-- The two copies agree on every input. -/
theorem platformApiFetch_eq (lib : ClientErrors E) (fetched : Except (Thrown E) Response) :
    Platform.platformApiFetch lib fetched = apiFetch lib fetched := by
  have hread : ∀ res, (Platform.readErrorBody res : Except (Thrown E) _) = readErrorBody res :=
    fun _ => rfl
  simp only [Platform.platformApiFetch, apiFetch, toAuthClientError, hread, bind_assoc, pure_bind]

theorem platformApiJson_eq (lib : ClientErrors E) (fetched : Except (Thrown E) Response) :
    Platform.platformApiJson lib fetched = apiJson lib fetched := by
  rw [Platform.platformApiJson, platformApiFetch_eq]
  rfl

/-- `apiFetch` on a failed response throws what `toAuthClientError` builds or throws. -/
theorem apiFetch_of_not_ok {lib : ClientErrors E} {res : Response} (hok : res.ok = false) :
    apiFetch lib (.ok res) =
      (toAuthClientError lib res).bind fun error => .error (.authClientError error) := by
  simp [apiFetch, hok, bind, Except.bind, throw, throwThe, MonadExceptOf.throw]

/-- A failed response whose `error` is not `null` rejects as the contract says. -/
theorem rejects_apiFetch {lib : ClientErrors E} {res : Response} (hok : res.ok = false)
    (h : ¬ res.NullError) : Rejects lib res (apiFetch lib (.ok res)) := by
  rw [apiFetch_of_not_ok hok, toAuthClientError, readErrorBody_eq h]
  exact ⟨_, rfl, lib.status_new .., lib.code_new .., lib.message_new ..⟩

/-- A failed response whose `error` is `null` throws a `TypeError`. -/
theorem apiFetch_of_nullError {lib : ClientErrors E} {res : Response} (hok : res.ok = false)
    (h : res.NullError) : apiFetch lib (.ok res) = .error .typeError := by
  rw [apiFetch_of_not_ok hok, toAuthClientError, readErrorBody_of_nullError h]
  rfl

/-- `apiJson` passes on what `apiFetch` throws. -/
theorem Rejects.apiJson {lib : ClientErrors E} {res : Response}
    (h : Rejects lib res (apiFetch lib (.ok res))) : Rejects lib res (apiJson lib (.ok res)) := by
  obtain ⟨error, hthrow, h⟩ := h
  refine ⟨error, ?_, h⟩
  rw [AuthExample.apiJson, hthrow]
  rfl

/-- The two clients keep the contract on a response exactly unless it is a failure whose
`error` is `null`. -/
theorem contract_iff (lib : ClientErrors E) (res : Response) :
    Contract lib res ↔ ¬ (res.ok = false ∧ res.NullError) := by
  constructor
  · rintro h ⟨hok, hnull⟩
    obtain ⟨error, hthrow, -⟩ := h.apiFetch hok
    simp [apiFetch_of_nullError hok hnull] at hthrow
  · intro h
    have hrej : res.ok = false → Rejects lib res (apiFetch lib (.ok res)) := fun hok =>
      rejects_apiFetch hok fun hnull => h ⟨hok, hnull⟩
    exact
      { apiFetch := hrej
        apiJson := fun hok => (hrej hok).apiJson
        platformApiFetch := fun hok => by
          rw [platformApiFetch_eq]
          exact hrej hok
        platformApiJson := fun hok => by
          rw [platformApiJson_eq]
          exact (hrej hok).apiJson
        agreeFetch := platformApiFetch_eq lib _
        agreeJson := platformApiJson_eq lib _ }

/-- The errors as the library builds them : a message, a status and a body. -/
def plainErrors : ClientErrors (String × ℕ × Option AuthErrorResponse) where
  new m s b := (m, s, b)
  message e := e.1
  status e := e.2.1
  code e := e.2.2.map AuthErrorResponse.code
  message_new _ _ _ := rfl
  status_new _ _ _ := rfl
  code_new _ _ _ := rfl

/-- A 500 with the body `{ "error": null }`. -/
def nullErrorResponse : Response where
  status := 500
  statusText := "Internal Server Error"
  json := some (.obj [("error", .null)])

theorem not_contract_nullErrorResponse : ¬ Contract plainErrors nullErrorResponse := by
  intro h
  obtain ⟨error, hthrow, -⟩ := h.apiFetch rfl
  rw [apiFetch_of_nullError rfl ⟨_, rfl, rfl⟩] at hthrow
  cases hthrow

end AuthExample
