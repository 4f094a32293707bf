import AuthExample.AuthPages
import AuthExample.Runs
import Mathlib.Data.List.Forall2

/-!
# Requests whose outcome is not shown

The forgot-password page asks for a reset code for any email, and the verify-email page for
another code : the visitor is shown the same whether or not the account exists or mail was
sent.

Both pages run here whole, with everything the visitor does and every request in flight.
`settles_alike` : two runs that differ in nothing but how these requests settle pass through
the same states and issue the same requests.
-/

namespace AuthExample

open Runs

variable {E : Type}

/-! ## The forgot-password page -/

/-- `WizardStep`. -/
inductive WizardStep where
  | email
  | otp
  deriving DecidableEq

/-- What the forgot-password page requests. -/
inductive ForgotPasswordRequest where
  | forgotPassword (email tenantId : String)
  | verifyOtp (body : Json)

/-- The page : the `tenant` query parameter and its state, the in-memory holder of the verified
token, where the router was sent, the requests issued, and how many of each are in flight. -/
structure ForgotPasswordPage where
  rawTenantId : String
  step : WizardStep := .email
  email : String := ""
  errorCode : Option String := none
  isSubmitting : Bool := false
  isVerifying : Bool := false
  resetVerifiedToken : Option String := none
  pushed : List String := []
  requests : List ForgotPasswordRequest := []
  submitsInFlight : ℕ := 0
  verifiesInFlight : ℕ := 0

namespace ForgotPasswordPage

/-- A malformed tenant slug is the default one. -/
def tenantId (p : ForgotPasswordPage) : String :=
  if tenantIdRe.test p.rawTenantId then p.rawTenantId else "acme"

/-- `onEmailSubmit` up to its request, which it awaits. -/
def onEmailSubmit (p : ForgotPasswordPage) : ForgotPasswordPage × ForgotPasswordRequest :=
  ({ p with errorCode := none, isSubmitting := true }, .forgotPassword p.email p.tenantId)

/-- `onEmailSubmit` once its request settles : an `AuthClientError` is swallowed. -/
def emailSettled (outcome : Except (Thrown E) Unit) (p : ForgotPasswordPage) :
    ForgotPasswordPage :=
  let p := { p with isSubmitting := false }
  match outcome with
  | .ok () | .error (.authClientError _) => { p with step := .otp }
  | .error _ => { p with errorCode := some "auth.internal" }

/-- `onOtpComplete` up to its request, if it makes one. A call while one is in flight does
nothing. -/
def onOtpComplete (otp : String) (p : ForgotPasswordPage) :
    ForgotPasswordPage × Option ForgotPasswordRequest :=
  if p.isVerifying then (p, none)
  else
    ({ p with isVerifying := true, errorCode := none },
      some (.verifyOtp (.obj [("email", .str p.email), ("otp", .str otp),
        ("tenantId", .str p.tenantId)])))

/-- `onOtpComplete` once its request settles. A body without the verified token is not
trusted. -/
def otpSettled (lib : ClientErrors E) (outcome : Except (Thrown E) Response)
    (p : ForgotPasswordPage) : ForgotPasswordPage :=
  let p := { p with isVerifying := false }
  match outcome with
  | .ok res =>
    match res.json with
    | some body =>
      match (body.get? "verifiedToken").bind Json.str? with
      | some token =>
        { p with
          resetVerifiedToken := some token
          pushed := p.pushed ++ ["/auth/reset-password"] }
      | none => { p with errorCode := some "auth.internal" }
    | none => { p with errorCode := some (codeOf lib .json) }
  | .error err => { p with errorCode := some (codeOf lib err) }

/-- What happens : the visitor types, submits, completes the code or starts over, or a request
settles. -/
inductive Act (E : Type) where
  | type (email : String)
  | submit
  | emailSettles (outcome : Except (Thrown E) Unit)
  | complete (otp : String)
  | otpSettles (outcome : Except (Thrown E) Response)
  | startOver

/-- A request of the form is issued and in flight. -/
def submitted (p : ForgotPasswordPage) (request : ForgotPasswordRequest) : ForgotPasswordPage :=
  { p with requests := p.requests ++ [request], submitsInFlight := p.submitsInFlight + 1 }

/-- A request of the code is issued and in flight, if there is one. -/
def verified (p : ForgotPasswordPage) : Option ForgotPasswordRequest → ForgotPasswordPage
  | some request =>
    { p with requests := p.requests ++ [request], verifiesInFlight := p.verifiesInFlight + 1 }
  | none => p

/-- The form is on the first screen, its button disabled while it submits, and the code and
`Start over` on the second. A request that settles is no longer in flight, whatever the handler
makes of it. -/
def next (lib : ClientErrors E) (p : ForgotPasswordPage) : Act E → Option ForgotPasswordPage
  | .type email => if p.step = .email then some { p with email } else none
  | .submit =>
    if p.step = .email ∧ p.isSubmitting = false then
      let (p, request) := p.onEmailSubmit
      some (p.submitted request)
    else none
  | .emailSettles outcome =>
    if 0 < p.submitsInFlight then
      some ({ p with submitsInFlight := p.submitsInFlight - 1 }.emailSettled outcome)
    else none
  | .complete otp =>
    if p.step = .otp then
      let (p, request) := p.onOtpComplete otp
      some (p.verified request)
    else none
  | .otpSettles outcome =>
    if 0 < p.verifiesInFlight then
      some ({ p with verifiesInFlight := p.verifiesInFlight - 1 }.otpSettled lib outcome)
    else none
  | .startOver => if p.step = .otp then some { p with step := .email } else none

/-- The outcomes the visitor must not tell apart. -/
def Neutral (outcome : Except (Thrown E) Unit) : Prop :=
  outcome = .ok () ∨ ∃ error, outcome = .error (.authClientError error)

/-- The same event, but for how a `forgotPassword` call settles. -/
def SameEvent (a b : Act E) : Prop :=
  a = b ∨ ∃ o o', a = .emailSettles o ∧ b = .emailSettles o' ∧ Neutral o ∧ Neutral o'

/-- A neutral outcome leads to the second screen. -/
theorem emailSettled_of_neutral {outcome : Except (Thrown E) Unit} (h : Neutral outcome)
    (p : ForgotPasswordPage) : p.emailSettled outcome =
      { p with isSubmitting := false, step := .otp } := by
  rcases h with rfl | ⟨error, rfl⟩ <;> rfl

theorem next_sameEvent (lib : ClientErrors E) (p : ForgotPasswordPage) {a b : Act E}
    (h : SameEvent a b) : next lib p a = next lib p b := by
  rcases h with rfl | ⟨o, o', rfl, rfl, ho, ho'⟩
  · rfl
  · simp only [next, emailSettled_of_neutral ho, emailSettled_of_neutral ho']

end ForgotPasswordPage

/-! ## Resending from the verify-email page -/

/-- `useSession().status`. -/
inductive SessionStatus where
  | loading
  | authenticated
  | unauthenticated
  deriving DecidableEq

/-- What the verify-email page requests. -/
inductive VerifyEmailRequest where
  | verify (request : AuthRequest)
  | resend (body : Json)

/-- `RESEND_COOLDOWN_MS`. -/
def resendCooldownMs : ℕ := 30000

/-- The verify-email page with its resend control : the session's status, the message shown,
the cooldown with its timers, the clock, the requests issued, and how many of each are in
flight. -/
structure ResendPage where
  page : VerifyEmailPage
  status : SessionStatus
  resendMessage : Option String := none
  resendDisabled : Bool := false
  timers : List ℕ := []
  now : ℕ := 0
  requests : List VerifyEmailRequest := []
  verifiesInFlight : ℕ := 0
  resendsInFlight : ℕ := 0

namespace ResendPage

/-- The neutral confirmation. -/
def neutralMessage : String := "If your email is unverified, a new code is on its way."

/-- `resend` up to its request, if it makes one. A click before the cooldown has elapsed does
nothing. -/
def resend (p : ResendPage) : ResendPage × Option Json :=
  if p.resendDisabled then (p, none)
  else
    match p.page.email with
    | none => ({ p with resendMessage := some neutralMessage }, none)
    | some email =>
      ({ p with resendDisabled := true },
        some (.obj [("email", .str email), ("tenantId", .str p.page.tenantId)]))

/-- `resend` once its request settles : every error is swallowed, the confirmation is shown,
and the cooldown starts. -/
def resendSettled (outcome : Except (Thrown E) Response) (p : ResendPage) : ResendPage :=
  let finish := fun p : ResendPage =>
    { p with
      resendMessage := some neutralMessage
      timers := p.timers ++ [p.now + resendCooldownMs] }
  match outcome with
  | .ok _ => finish p
  | .error _ => finish p

/-- What happens : the session changes, the visitor completes the code or clicks, a request
settles, time passes, or a timer fires. -/
inductive Act (E : Type) where
  | session (status : SessionStatus) (email : Option String)
  | complete (otp : String)
  | verifySettles (outcome : Except (Thrown E) Response)
  | click
  | resendSettles (outcome : Except (Thrown E) Response)
  | elapse (ms : ℕ)
  | fire (timer : ℕ)

/-- A verification is issued and in flight, if there is one. -/
def verified (p : ResendPage) : Option AuthRequest → ResendPage
  | some request =>
    { p with
      requests := p.requests ++ [.verify request], verifiesInFlight := p.verifiesInFlight + 1 }
  | none => p

/-- A resend is issued and in flight, if there is one. -/
def resent (p : ResendPage) : Option Json → ResendPage
  | some body =>
    { p with requests := p.requests ++ [.resend body], resendsInFlight := p.resendsInFlight + 1 }
  | none => p

/-- The controls are rendered for an authenticated visitor only. A request that settles is no
longer in flight, whatever the handler makes of it. -/
def next (lib : ClientErrors E) (p : ResendPage) : Act E → Option ResendPage
  | .session status email => some { p with status, page := { p.page with email } }
  | .complete otp =>
    if p.status = .authenticated then
      let (page, request) := p.page.verify otp
      some ({ p with page }.verified request)
    else none
  | .verifySettles outcome =>
    if 0 < p.verifiesInFlight then
      some { p with
        page := p.page.verifySettled lib outcome
        verifiesInFlight := p.verifiesInFlight - 1 }
    else none
  | .click =>
    if p.status = .authenticated then
      let (p, body) := p.resend
      some (p.resent body)
    else none
  | .resendSettles outcome =>
    if 0 < p.resendsInFlight then
      some ({ p with resendsInFlight := p.resendsInFlight - 1 }.resendSettled outcome)
    else none
  | .elapse ms => some { p with now := p.now + ms }
  | .fire i =>
    match p.timers[i]? with
    | some due =>
      if due ≤ p.now then some { p with resendDisabled := false, timers := p.timers.eraseIdx i }
      else none
    | none => none

/-- The same event, but for how a resend settles. -/
def SameEvent (a b : Act E) : Prop :=
  a = b ∨ ∃ o o', a = .resendSettles o ∧ b = .resendSettles o'

/-- Every outcome is settled alike. -/
theorem resendSettled_eq (outcome : Except (Thrown E) Response) (p : ResendPage) :
    p.resendSettled outcome =
      { p with
        resendMessage := some neutralMessage
        timers := p.timers ++ [p.now + resendCooldownMs] } := by
  cases outcome <;> rfl

theorem next_sameEvent (lib : ClientErrors E) (p : ResendPage) {a b : Act E}
    (h : SameEvent a b) : next lib p a = next lib p b := by
  rcases h with rfl | ⟨o, o', rfl, rfl⟩
  · rfl
  · simp only [next, resendSettled_eq]

end ResendPage

/-! ## Two runs -/

/-- Runs with the same events, but for how the requests settle whose outcome is not to be
shown, are in the same state after each event : the screens, codes, messages and flags are
the same, and the requests issued. -/
theorem settles_alike (lib : ClientErrors E) :
    (∀ p (as bs : List (ForgotPasswordPage.Act E)),
      List.Forall₂ ForgotPasswordPage.SameEvent as bs → ∀ n,
        run (ForgotPasswordPage.next lib) p (as.take n) =
          run (ForgotPasswordPage.next lib) p (bs.take n)) ∧
    ∀ p (as bs : List (ResendPage.Act E)), List.Forall₂ ResendPage.SameEvent as bs → ∀ n,
      run (ResendPage.next lib) p (as.take n) = run (ResendPage.next lib) p (bs.take n) := by
  constructor
  · intro p as bs h n
    exact run_eq_of_forall₂ (R := ForgotPasswordPage.SameEvent)
      (fun p _ _ => ForgotPasswordPage.next_sameEvent lib p) p (List.forall₂_take n h)
  · intro p as bs h n
    exact run_eq_of_forall₂ (R := ResendPage.SameEvent)
      (fun p _ _ => ResendPage.next_sameEvent lib p) p (List.forall₂_take n h)

/-- A visitor asks for a code, and starts over. -/
def asks (outcome : Except (Thrown E) Unit) : List (ForgotPasswordPage.Act E) :=
  [.type "user@example.test", .submit, .emailSettles outcome, .startOver, .submit]

/-- A visitor asks for the code to be sent again, twice. -/
def resends (outcome : Except (Thrown E) Response) : List (ResendPage.Act E) :=
  [.click, .resendSettles outcome, .elapse resendCooldownMs, .fire 0, .click]

/-- The server knows no such account. -/
def noAccount : Except (Thrown (String × ℕ × Option AuthErrorResponse)) Unit :=
  .error (.authClientError (plainErrors.new "no account" 404
    (some { code := "auth.user_not_found", message := "no account" })))

/-- The account exists or not, the mail is sent or the browser is offline. -/
theorem settles_alike_asks_resends :
    (∃ p, run (ForgotPasswordPage.next plainErrors) { rawTenantId := "acme" } (asks (.ok ())) =
        some p ∧ p.requests.length = 2 ∧
      run (ForgotPasswordPage.next plainErrors) { rawTenantId := "acme" }
        (asks noAccount) = some p) ∧
    ∃ p, run (ResendPage.next plainErrors)
        { page := { email := some "user@example.test", rawTenantId := "acme" }
          status := .authenticated } (resends (.ok nullErrorResponse)) = some p ∧
      p.requests.length = 2 ∧ run (ResendPage.next plainErrors)
        { page := { email := some "user@example.test", rawTenantId := "acme" }
          status := .authenticated } (resends (.error .fetch)) = some p := by
  obtain ⟨hasks, hresends⟩ := settles_alike plainErrors
  have hsame : List.Forall₂ ForgotPasswordPage.SameEvent (asks (.ok ())) (asks noAccount) :=
    .cons (Or.inl rfl) (.cons (Or.inl rfl) (.cons
      (Or.inr ⟨_, _, rfl, rfl, Or.inl rfl, Or.inr ⟨_, rfl⟩⟩)
      (.cons (Or.inl rfl) (.cons (Or.inl rfl) .nil))))
  have hsame' : List.Forall₂ ResendPage.SameEvent (resends (.ok nullErrorResponse))
      (resends (.error (.fetch : Thrown (String × ℕ × Option AuthErrorResponse)))) :=
    .cons (Or.inl rfl) (.cons (Or.inr ⟨_, _, rfl, rfl⟩)
      (.cons (Or.inl rfl) (.cons (Or.inl rfl) (.cons (Or.inl rfl) .nil))))
  refine ⟨⟨_, rfl, rfl, (hasks _ _ _ hsame 5).symm⟩, ⟨_, rfl, rfl, (hresends _ _ _ hsame' 5).symm⟩⟩

end AuthExample
