import AuthExample.Api
import AuthExample.Regex

/-!
# The verify-email and accept-invitation pages

Both pages submit one request through the raw `authFetch`, which resolves with the
response whatever its status, and go to the dashboard when it resolves. A submission has
two phases : the handler up to its `await`, which issues the request, and the rest, which
runs when the request settles.

`submissions_end_iff` : a submission ends as its outcome says, except on a failed response,
which both pages take for success.
-/

namespace AuthExample

variable {E : Type}

/-- The routes the two pages post to. -/
inductive AuthRoute where
  | verifyEmail
  | invitationsAccept

/-- A `POST`, with what its body is the JSON of. -/
structure AuthRequest where
  route : AuthRoute
  body : Json

/-! ## The verify-email page -/

/-- `/^[a-z0-9][a-z0-9-]{0,62}$/`. -/
def tenantIdRe : Regex :=
  let alnum := fun c : Char => c.isLower || c.isDigit
  .seq .bos (.seq (.set alnum) (.seq (.upTo (.set fun c => alnum c || c == '-') 62) .eos))

/-- The page : the session's email and the `tenant` query parameter, and its state.
`pushed` is where it has sent the router. -/
structure VerifyEmailPage where
  email : Option String
  rawTenantId : String
  errorCode : Option String := none
  isVerifying : Bool := false
  pushed : List String := []

namespace VerifyEmailPage

/-- A malformed tenant slug is the default one. -/
def tenantId (p : VerifyEmailPage) : String :=
  if tenantIdRe.test p.rawTenantId then p.rawTenantId else "acme"

/-- `verify` up to its request. A call while one is in flight does nothing. -/
def verify (p : VerifyEmailPage) (otp : String) : VerifyEmailPage × Option AuthRequest :=
  if p.isVerifying then (p, none)
  else
    match p.email with
    | none => ({ p with errorCode := some "auth.internal" }, none)
    | some email =>
      ({ p with isVerifying := true, errorCode := none },
        some { route := .verifyEmail
               body := .obj [("email", .str email), ("otp", .str otp),
                 ("tenantId", .str p.tenantId)] })

/-- `verify` once its request settles. -/
def verifySettled (lib : ClientErrors E) (outcome : Except (Thrown E) Response)
    (p : VerifyEmailPage) : VerifyEmailPage :=
  let p := match outcome with
    | .ok _ => { p with pushed := p.pushed ++ ["/dashboard"] }
    | .error err => { p with errorCode := some (codeOf lib err) }
  { p with isVerifying := false }

/-- A whole call of `verify`, its request settling with `outcome`. -/
def runVerify (lib : ClientErrors E) (otp : String) (outcome : Except (Thrown E) Response)
    (p : VerifyEmailPage) : VerifyEmailPage :=
  match p.verify otp with
  | (p, none) => p
  | (p, some _) => p.verifySettled lib outcome

end VerifyEmailPage

/-! ## The accept-invitation page -/

/-- The page : the `token` query parameter, and its state. -/
structure AcceptInvitationPage where
  token : Option String
  errorCode : Option String := none
  name : String := ""
  password : String := ""
  isSubmitting : Bool := false
  pushed : List String := []

namespace AcceptInvitationPage

/-- The form is rendered for a nonempty token only. -/
def showsForm (p : AcceptInvitationPage) : Bool := p.token.any fun token => token ≠ ""

/-- `accept` up to its request. -/
def accept (p : AcceptInvitationPage) : AcceptInvitationPage × Option AuthRequest :=
  match p.token with
  | none => (p, none)
  | some token =>
    ({ p with errorCode := none, isSubmitting := true },
      some { route := .invitationsAccept
             body := .obj [("token", .str token), ("name", .str p.name),
               ("password", .str p.password)] })

/-- `accept` once its request settles. -/
def acceptSettled (lib : ClientErrors E) (outcome : Except (Thrown E) Response)
    (p : AcceptInvitationPage) : AcceptInvitationPage :=
  let p := match outcome with
    | .ok _ => { p with pushed := p.pushed ++ ["/dashboard"] }
    | .error err => { p with errorCode := some (codeOf lib err) }
  { p with isSubmitting := false }

/-- A whole call of `accept`, its request settling with `outcome`. -/
def runAccept (lib : ClientErrors E) (outcome : Except (Thrown E) Response)
    (p : AcceptInvitationPage) : AcceptInvitationPage :=
  match p.accept with
  | (p, none) => p
  | (p, some _) => p.acceptSettled lib outcome

end AcceptInvitationPage

/-! ## How a submission ends -/

/-- A submission ends on the dashboard exactly when it succeeded, else where it was with
an error shown, and no longer in flight. -/
structure Ends (success : Prop) (pushed pushed' : List String) (errorCode' : Option String)
    (inFlight' : Bool) : Prop where
  navigates : pushed' = pushed ++ ["/dashboard"] ↔ success
  stays : ¬ success → pushed' = pushed ∧ errorCode' ≠ none
  cleared : inFlight' = false

/-- The request resolved with a status of this kind. -/
def ResolvedOk (outcome : Except (Thrown E) Response) (ok : Bool) : Prop :=
  ∃ res, outcome = .ok res ∧ res.ok = ok

/-- A call of `verify` on a page with no verification in flight ends as its response
says. -/
def VerifyEmailPage.Contract (lib : ClientErrors E) (otp : String)
    (outcome : Except (Thrown E) Response) (p : VerifyEmailPage) : Prop :=
  p.isVerifying = false →
    Ends ((p.verify otp).2.isSome = true ∧ ResolvedOk outcome true) p.pushed
      (p.runVerify lib otp outcome).pushed (p.runVerify lib otp outcome).errorCode
      (p.runVerify lib otp outcome).isVerifying

/-- A call of `accept` from the form ends as its response says. -/
def AcceptInvitationPage.Contract (lib : ClientErrors E) (outcome : Except (Thrown E) Response)
    (p : AcceptInvitationPage) : Prop :=
  p.showsForm = true →
    Ends (p.accept.2.isSome = true ∧ ResolvedOk outcome true) p.pushed
      (p.runAccept lib outcome).pushed (p.runAccept lib outcome).errorCode
      (p.runAccept lib outcome).isSubmitting

@[simp] theorem resolvedOk_ok {res : Response} {ok : Bool} :
    ResolvedOk (.ok res : Except (Thrown E) Response) ok ↔ res.ok = ok := by
  simp [ResolvedOk]

@[simp] theorem resolvedOk_error {err : Thrown E} {ok : Bool} :
    ¬ ResolvedOk (.error err : Except (Thrown E) Response) ok := by
  simp [ResolvedOk]

/-- A settled request leaves the page for the dashboard if it resolved, else shows an
error : as it should, unless it resolved with a failed response. -/
theorem ends_iff (lib : ClientErrors E) (outcome : Except (Thrown E) Response)
    (pushed : List String) (errorCode : Option String) :
    Ends (ResolvedOk outcome true) pushed
      (match outcome with | .ok _ => pushed ++ ["/dashboard"] | .error _ => pushed)
      (match outcome with | .ok _ => errorCode | .error err => some (codeOf lib err)) false ↔
      ¬ ResolvedOk outcome false := by
  cases outcome with
  | error err =>
    refine iff_of_true ⟨?_, fun _ => ⟨rfl, nofun⟩, rfl⟩ resolvedOk_error
    exact iff_of_false (by simp) resolvedOk_error
  | ok res =>
    rw [resolvedOk_ok, resolvedOk_ok, Bool.not_eq_false]
    refine ⟨fun h => h.navigates.1 rfl, fun h => ⟨iff_of_true rfl h, fun hn => absurd h hn, rfl⟩⟩

/-- A call of `verify` ends as it should unless its request resolves with a failed
response. Without an email there is no request, and an error is shown. -/
theorem VerifyEmailPage.ends_verify_iff (lib : ClientErrors E) (otp : String)
    (outcome : Except (Thrown E) Response) (p : VerifyEmailPage) :
    p.Contract lib otp outcome ↔
      ¬ (p.isVerifying = false ∧ p.email.isSome = true ∧ ResolvedOk outcome false) := by
  unfold Contract
  by_cases hv : p.isVerifying = false
  · cases hemail : p.email with
    | none =>
      have hcall : p.verify otp = ({ p with errorCode := some "auth.internal" }, none) := by
        simp [verify, hv, hemail]
      simp only [runVerify, hcall, hv]
      refine iff_of_true (fun _ => ⟨?_, fun _ => ⟨rfl, nofun⟩, rfl⟩) (by simp)
      exact iff_of_false (by simp) (by simp)
    | some email =>
      obtain ⟨request, hcall⟩ : ∃ request, p.verify otp =
          ({ p with isVerifying := true, errorCode := none }, some request) := by
        simp [verify, hv, hemail]
      simp only [runVerify, hcall, hv]
      simp only [Option.isSome_some, true_and, forall_const]
      rw [← ends_iff lib outcome p.pushed none]
      cases outcome <;> rfl
  · exact iff_of_true (fun h => absurd h hv) (fun h => hv h.1)

/-- A call of `accept` ends as it should unless its request resolves with a failed
response. -/
theorem AcceptInvitationPage.ends_accept_iff (lib : ClientErrors E)
    (outcome : Except (Thrown E) Response) (p : AcceptInvitationPage) :
    p.Contract lib outcome ↔ ¬ (p.showsForm = true ∧ ResolvedOk outcome false) := by
  unfold Contract
  cases htoken : p.token with
  | none => simp [showsForm, htoken]
  | some token =>
    obtain ⟨request, hcall⟩ : ∃ request, p.accept =
        ({ p with errorCode := none, isSubmitting := true }, some request) := by
      simp [accept, htoken]
    simp only [runAccept, hcall, Option.isSome_some, true_and, not_and]
    refine forall_congr' fun _ => ?_
    rw [← ends_iff lib outcome p.pushed none]
    cases outcome <;> rfl

/-- On both pages a submission ends on the dashboard exactly when its request resolved
with a 2xx status, and with an error otherwise, unless the request resolves with a failed
response. -/
theorem submissions_end_iff (lib : ClientErrors E) (otp : String)
    (outcome : Except (Thrown E) Response) (p : VerifyEmailPage) (q : AcceptInvitationPage) :
    (p.Contract lib otp outcome ↔
      ¬ (p.isVerifying = false ∧ p.email.isSome = true ∧ ResolvedOk outcome false)) ∧
    (q.Contract lib outcome ↔ ¬ (q.showsForm = true ∧ ResolvedOk outcome false)) :=
  ⟨p.ends_verify_iff lib otp outcome, q.ends_accept_iff lib outcome⟩

/-- A refused code or token : a 422 with a wire error. -/
def refusedResponse : Response where
  status := 422
  statusText := "Unprocessable Entity"
  json := some (.obj [("error", .obj [("code", .str "auth.otp_invalid"),
    ("message", .str "invalid")])])

theorem not_contract_refusedResponse :
    (¬ VerifyEmailPage.Contract plainErrors "000000" (.ok refusedResponse)
      { email := some "user@example.test", rawTenantId := "acme" }) ∧
    ¬ AcceptInvitationPage.Contract plainErrors (.ok refusedResponse)
      { token := some "expired" } := by
  rw [VerifyEmailPage.ends_verify_iff, AcceptInvitationPage.ends_accept_iff]
  exact ⟨fun h => h ⟨rfl, rfl, refusedResponse, rfl, rfl⟩,
    fun h => h ⟨rfl, refusedResponse, rfl, rfl⟩⟩

end AuthExample
