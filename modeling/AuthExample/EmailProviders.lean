import AuthExample.Email
import AuthExample.JsonText

/-!
# Mail transports

The two implementations of `EmailProvider` : SMTP through `lettre`, and a POST to Resend. Each
has a method of its own for every message, with its own subject.

`sends_agree` : the same messages through either transport reach their recipients the same. What
the Resend API reads in its requests is what is handed to the relay, for every recipient that is
a mailbox.
-/

namespace AuthExample

open Html

variable {Ts M : Type*}

/-- `EmailError::Delivery`, by its cause : no mailbox, nothing delivered, or the status of a
response. -/
inductive EmailError where
  | mailbox
  | transport
  | status (status : ℕ)

/-- A message with its addresses. -/
structure Envelope (M : Type*) where
  sender : M
  recipient : M
  subject : String
  html : String

/-! ## SMTP -/

/-- `LettreEmailProvider` : its sender, and how a mailbox is parsed. -/
structure LettreEmailProvider (M : Type*) where
  sender : M
  mailbox : String → Option M

namespace LettreEmailProvider

variable (p : LettreEmailProvider M) (accepts : Bool)

/-- `deliver` : the message handed to the relay, which accepts it or not, and the result. A
recipient that is no mailbox is refused before anything is sent. -/
def deliver (recipient subject html : String) : Option (Envelope M) × Except EmailError Unit :=
  match p.mailbox recipient with
  | none => (none, .error .mailbox)
  | some mailbox =>
    (some ⟨p.sender, mailbox, subject, html⟩, if accepts then .ok () else .error .transport)

variable (e : Escaper) (w : Wire Ts) (email : String) (locale : Option String)

/-- `send_password_reset_token`. -/
def sendPasswordResetToken (token : String) :=
  p.deliver accepts email "Reset your password" (Templates.passwordResetToken e token locale)

/-- `send_password_reset_otp`. -/
def sendPasswordResetOtp (otp : String) :=
  p.deliver accepts email "Reset your password" (Templates.passwordResetOtp e otp locale)

/-- `send_email_verification_otp`. -/
def sendEmailVerificationOtp (otp : String) :=
  p.deliver accepts email "Verify your email" (Templates.verificationOtp e otp locale)

/-- `send_mfa_enabled`. -/
def sendMfaEnabled :=
  p.deliver accepts email "Two-factor authentication enabled" (Templates.mfaEnabled e locale)

/-- `send_mfa_disabled`. -/
def sendMfaDisabled :=
  p.deliver accepts email "Two-factor authentication disabled" (Templates.mfaDisabled e locale)

/-- `send_new_session_alert`. -/
def sendNewSessionAlert (session : SessionInfo) :=
  p.deliver accepts email "New sign-in to your account"
    (Templates.newSessionAlert e session locale)

/-- `send_invitation`. -/
def sendInvitation (invite : InviteData Ts) :=
  p.deliver accepts email "You have been invited" (Templates.invitation e w invite locale)

/-- The method of a message. -/
def send : Email Ts → Option (Envelope M) × Except EmailError Unit
  | .passwordResetToken token => p.sendPasswordResetToken accepts e email locale token
  | .passwordResetOtp otp => p.sendPasswordResetOtp accepts e email locale otp
  | .emailVerificationOtp otp => p.sendEmailVerificationOtp accepts e email locale otp
  | .mfaEnabled => p.sendMfaEnabled accepts e email locale
  | .mfaDisabled => p.sendMfaDisabled accepts e email locale
  | .newSessionAlert session => p.sendNewSessionAlert accepts e email locale session
  | .invitation invite => p.sendInvitation accepts e w email locale invite

theorem deliver_fst (recipient subject html : String) :
    (p.deliver accepts recipient subject html).1 =
      (p.mailbox recipient).map fun mailbox => ⟨p.sender, mailbox, subject, html⟩ := by
  unfold deliver
  cases p.mailbox recipient <;> rfl

theorem isOk_deliver (recipient subject html : String) :
    (p.deliver accepts recipient subject html).2.isOk =
      ((p.deliver accepts recipient subject html).1.isSome && accepts) := by
  unfold deliver
  cases p.mailbox recipient with
  | none => rfl
  | some mailbox => cases accepts <;> rfl

end LettreEmailProvider

/-! ## Resend -/

/-- A status of success, of a response that there is. -/
def isSuccess (response : Option ℕ) : Bool :=
  match response with
  | some status => decide (200 ≤ status ∧ status < 300)
  | none => false

/-- The request posted to the Resend API. -/
structure ResendRequest where
  bearer : String
  body : String

/-- What the API reads in a request. -/
def ResendRequest.read (N : Json.Numbers) (r : ResendRequest) : Option (Envelope String) := do
  let body ← Json.parse N r.body
  return {
    sender := ← (← body.get? "from").str?
    recipient := ← (← body.get? "to").str?
    subject := ← (← body.get? "subject").str?
    html := ← (← body.get? "html").str? }

/-- `ResendEmailProvider`. -/
structure ResendEmailProvider where
  apiKey : String
  sender : String

namespace ResendEmailProvider

variable (p : ResendEmailProvider) (N : Json.Numbers) (response : Option ℕ)

/-- The members of the request, sorted. -/
def payload (recipient subject html : String) : Json :=
  .obj [("from", .str p.sender), ("html", .str html), ("subject", .str subject),
    ("to", .str recipient)]

/-- `deliver` : the request posted, to which there is a response or none, and the result. -/
def deliver (recipient subject html : String) : ResendRequest × Except EmailError Unit :=
  (⟨p.apiKey, String.ofList (Json.text N (p.payload recipient subject html))⟩,
    match response with
    | none => .error .transport
    | some status => if isSuccess (some status) then .ok () else .error (.status status))

variable (e : Escaper) (w : Wire Ts) (email : String) (locale : Option String)

/-- `send_password_reset_token`. -/
def sendPasswordResetToken (token : String) :=
  p.deliver N response email "Reset your password" (Templates.passwordResetToken e token locale)

/-- `send_password_reset_otp`. -/
def sendPasswordResetOtp (otp : String) :=
  p.deliver N response email "Reset your password" (Templates.passwordResetOtp e otp locale)

/-- `send_email_verification_otp`. -/
def sendEmailVerificationOtp (otp : String) :=
  p.deliver N response email "Verify your email" (Templates.verificationOtp e otp locale)

/-- `send_mfa_enabled`. -/
def sendMfaEnabled :=
  p.deliver N response email "Two-factor authentication enabled" (Templates.mfaEnabled e locale)

/-- `send_mfa_disabled`. -/
def sendMfaDisabled :=
  p.deliver N response email "Two-factor authentication disabled" (Templates.mfaDisabled e locale)

/-- `send_new_session_alert`. -/
def sendNewSessionAlert (session : SessionInfo) :=
  p.deliver N response email "New sign-in to your account"
    (Templates.newSessionAlert e session locale)

/-- `send_invitation`. -/
def sendInvitation (invite : InviteData Ts) :=
  p.deliver N response email "You have been invited" (Templates.invitation e w invite locale)

/-- The method of a message. -/
def send : Email Ts → ResendRequest × Except EmailError Unit
  | .passwordResetToken token => p.sendPasswordResetToken N response e email locale token
  | .passwordResetOtp otp => p.sendPasswordResetOtp N response e email locale otp
  | .emailVerificationOtp otp => p.sendEmailVerificationOtp N response e email locale otp
  | .mfaEnabled => p.sendMfaEnabled N response e email locale
  | .mfaDisabled => p.sendMfaDisabled N response e email locale
  | .newSessionAlert session => p.sendNewSessionAlert N response e email locale session
  | .invitation invite => p.sendInvitation N response e w email locale invite

/-- The API reads what was written. -/
theorem read_deliver (recipient subject html : String) :
    (p.deliver N response recipient subject html).1.read N =
      some ⟨p.sender, recipient, subject, html⟩ := by
  have hparse : Json.parse N (String.ofList (Json.text N (p.payload recipient subject html))) =
      some (p.payload recipient subject html) := by
    refine Json.parse_text N (.obj _ (by simp) ?_)
    simp only [List.forall_mem_cons]
    exact ⟨.str _, .str _, .str _, .str _, by simp⟩
  simp only [ResendRequest.read, deliver, hparse]
  rfl

theorem isOk_deliver (recipient subject html : String) :
    (p.deliver N response recipient subject html).2.isOk = isSuccess response := by
  unfold deliver
  cases response with
  | none => rfl
  | some status =>
    cases h : isSuccess (some status) <;> simp only [h] <;> rfl

end ResendEmailProvider

/-! ## The two transports -/

/-- A mail : its recipient, its message and the locale. -/
structure Mail (Ts : Type*) where
  email : String
  message : Email Ts
  locale : Option String

section

variable (e : Escaper) (w : Wire Ts) (N : Json.Numbers) (lettre : LettreEmailProvider M)
  (resend : ResendEmailProvider)

/-- Either method of a message delivers its template, under one subject. -/
theorem exists_subject (mail : Mail Ts) : ∃ subject,
    (∀ response, resend.send N response e w mail.email mail.locale mail.message =
      resend.deliver N response mail.email subject (mail.message.body e w mail.locale)) ∧
    ∀ accepts, lettre.send accepts e w mail.email mail.locale mail.message =
      lettre.deliver accepts mail.email subject (mail.message.body e w mail.locale) := by
  obtain ⟨email, message, locale⟩ := mail
  cases message <;> exact ⟨_, fun _ => rfl, fun _ => rfl⟩

/-- Mails sent through either transport, each with the response of the API, the relay accepting
what the API does. The API reads every mail, rendered, in the requests it gets, and the relay is
handed the same mails under the same subjects where the recipient is a mailbox. A send succeeds
by Resend exactly on a status of success, and by SMTP when moreover there was a mailbox. -/
theorem sends_agree (sends : List (Option ℕ × Mail Ts)) :
    let posts := sends.map fun s =>
      resend.send N s.1 e w s.2.email s.2.locale s.2.message
    let handed := sends.map fun s =>
      lettre.send (isSuccess s.1) e w s.2.email s.2.locale s.2.message
    posts.map (fun post => (post.1.bearer,
        (post.1.read N).map fun m => (m.sender, m.recipient, m.html))) =
      sends.map (fun s => (resend.apiKey,
        some (resend.sender, s.2.email, s.2.message.body e w s.2.locale))) ∧
    handed.map Prod.fst = posts.map (fun post => (post.1.read N).bind fun m =>
      (lettre.mailbox m.recipient).map fun recipient =>
        ⟨lettre.sender, recipient, m.subject, m.html⟩) ∧
    posts.map (·.2.isOk) = sends.map (fun s => isSuccess s.1) ∧
    handed.map (·.2.isOk) =
      List.zipWith (· && ·) (handed.map (·.1.isSome)) (posts.map (·.2.isOk)) := by
  intro posts handed
  simp only [posts, handed, List.map_map, List.zipWith_map, List.zipWith_self]
  refine ⟨?_, ?_, ?_, ?_⟩ <;> refine List.map_congr_left fun s _ => ?_ <;>
    obtain ⟨subject, hresend, hlettre⟩ := exists_subject e w N lettre resend s.2 <;>
    simp only [Function.comp_apply, hresend, hlettre]
  · rw [resend.read_deliver]
    rfl
  · rw [resend.read_deliver, lettre.deliver_fst]
    rfl
  · exact resend.isOk_deliver ..
  · rw [lettre.isOk_deliver, resend.isOk_deliver]

end

end AuthExample
