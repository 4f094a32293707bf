import AuthExample.AuditHooks
import AuthExample.AuditLog
import AuthExample.Html

/-!
# Transactional email

Every message is rendered from one template, in the language of its locale.

`Email.tokens_body` : whatever the values a message carries, its body is read as the tags of
its template and, as characters, the copy of its locale and the values themselves.
-/

namespace AuthExample

open Html

/-! ## Copy -/

/-- `Copy` : the localized text of every template. -/
structure Copy where
  verifyHeading : String
  verifyIntro : String
  resetOtpHeading : String
  resetOtpIntro : String
  resetTokenHeading : String
  resetTokenIntro : String
  mfaEnabledHeading : String
  mfaEnabledIntro : String
  mfaDisabledHeading : String
  mfaDisabledIntro : String
  sessionHeading : String
  sessionIntro : String
  deviceLabel : String
  ipLabel : String
  sessionLabel : String
  inviteHeading : String
  inviteIntro : String
  inviterLabel : String
  tenantLabel : String
  tokenLabel : String
  expiryLabel : String
  codeExpiry : String
  linkExpiry : String
  footer : String

/-- `EN`. -/
def Copy.en : Copy where
  verifyHeading := "Verify your email"
  verifyIntro := "Use this one-time code to confirm your email address:"
  resetOtpHeading := "Reset your password"
  resetOtpIntro := "Use this one-time code to reset your password:"
  resetTokenHeading := "Reset your password"
  resetTokenIntro := "Use this token to reset your password:"
  mfaEnabledHeading := "Two-factor authentication enabled"
  mfaEnabledIntro := "Two-factor authentication was just turned on for your account."
  mfaDisabledHeading := "Two-factor authentication disabled"
  mfaDisabledIntro := "Two-factor authentication was just turned off for your account."
  sessionHeading := "New sign-in to your account"
  sessionIntro := "We noticed a sign-in from a new device or location:"
  deviceLabel := "Device"
  ipLabel := "IP address"
  sessionLabel := "Session"
  inviteHeading := "You have been invited"
  inviteIntro := "You have been invited to join a workspace:"
  inviterLabel := "Invited by"
  tenantLabel := "Workspace"
  tokenLabel := "Invitation token"
  expiryLabel := "Expires"
  codeExpiry := "This code expires shortly, so please use it soon."
  linkExpiry := "This token expires shortly, so please use it soon."
  footer := "If you did not expect this email, you can safely ignore it."

/-- `ES`. -/
def Copy.es : Copy where
  verifyHeading := "Verifica tu correo"
  verifyIntro := "Usa este código de un solo uso para confirmar tu correo:"
  resetOtpHeading := "Restablece tu contraseña"
  resetOtpIntro := "Usa este código de un solo uso para restablecer tu contraseña:"
  resetTokenHeading := "Restablece tu contraseña"
  resetTokenIntro := "Usa este token para restablecer tu contraseña:"
  mfaEnabledHeading := "Verificación en dos pasos activada"
  mfaEnabledIntro := "Se acaba de activar la verificación en dos pasos en tu cuenta."
  mfaDisabledHeading := "Verificación en dos pasos desactivada"
  mfaDisabledIntro := "Se acaba de desactivar la verificación en dos pasos en tu cuenta."
  sessionHeading := "Nuevo inicio de sesión en tu cuenta"
  sessionIntro := "Detectamos un inicio de sesión desde un dispositivo o lugar nuevo:"
  deviceLabel := "Dispositivo"
  ipLabel := "Dirección IP"
  sessionLabel := "Sesión"
  inviteHeading := "Te han invitado"
  inviteIntro := "Te han invitado a unirte a un espacio de trabajo:"
  inviterLabel := "Invitado por"
  tenantLabel := "Espacio de trabajo"
  tokenLabel := "Token de invitación"
  expiryLabel := "Caduca"
  codeExpiry := "Este código caduca pronto, úsalo cuanto antes."
  linkExpiry := "Este token caduca pronto, úsalo cuanto antes."
  footer := "Si no esperabas este correo, puedes ignorarlo con seguridad."

/-- The primary subtag of a language tag, in lower case. -/
def primarySubtag (tag : String) : List Char :=
  (tag.toList.takeWhile fun c => c ≠ '-' ∧ c ≠ '_').map Char.toLower

/-- `copy_for` : Spanish for a primary subtag `es`, and else English. -/
def copyFor (locale : Option String) : Copy :=
  if locale.map primarySubtag = some ['e', 's'] then .es else .en

/-! ## Templates -/

/-- What every template has around its own part : the heading, the introduction and the
footer. -/
def page (heading intro footer : String) (content : List Part) : List Part :=
  [.raw ("<!doctype html>\n<html lang=\"en\">\n" ++
      "  <body style=\"font-family: system-ui, sans-serif; color: #111\">\n    <h1>"),
    .value heading, .raw "</h1>\n    <p>", .value intro, .raw "</p>\n"] ++ content ++
  [.raw "    <hr />\n    <p style=\"color: #888; font-size: 12px\">", .value footer,
    .raw "</p>\n  </body>\n</html>"]

/-- `email_verification_otp.html` and `password_reset_otp.html`. -/
def otpHtml (heading intro otp expiry footer : String) : List Part :=
  page heading intro footer
    [.raw "    <p style=\"font-size: 28px; font-weight: 700; letter-spacing: 4px\">", .value otp,
      .raw "</p>\n    <p style=\"color: #555\">", .value expiry, .raw "</p>\n"]

/-- `password_reset_token.html`. -/
def passwordResetTokenHtml (heading intro token expiry footer : String) : List Part :=
  page heading intro footer
    [.raw "    <p style=\"font-family: ui-monospace, monospace; word-break: break-all\">",
      .value token, .raw "</p>\n    <p style=\"color: #555\">", .value expiry, .raw "</p>\n"]

/-- `mfa_enabled.html` and `mfa_disabled.html`. -/
def mfaHtml (heading intro footer : String) : List Part := page heading intro footer []

/-- `new_session_alert.html`. -/
def newSessionAlertHtml (heading intro deviceLabel device ipLabel ip sessionLabel sessionHash
    footer : String) : List Part :=
  page heading intro footer
    [.raw "    <ul>\n      <li>", .value deviceLabel, .raw ": ", .value device,
      .raw "</li>\n      <li>", .value ipLabel, .raw ": ", .value ip,
      .raw "</li>\n      <li>", .value sessionLabel, .raw ": ", .value sessionHash,
      .raw "</li>\n    </ul>\n"]

/-- `invitation.html`. -/
def invitationHtml (heading intro inviterLabel inviterName tenantLabel tenantName tokenLabel
    inviteToken expiryLabel expiresAt footer : String) : List Part :=
  page heading intro footer
    [.raw "    <ul>\n      <li>", .value inviterLabel, .raw ": ", .value inviterName,
      .raw "</li>\n      <li>", .value tenantLabel, .raw ": ", .value tenantName,
      .raw "</li>\n      <li>\n        ", .value tokenLabel,
      .raw ":\n        <span style=\"font-family: ui-monospace, monospace\">",
      .value inviteToken, .raw "</span>\n      </li>\n      <li>", .value expiryLabel, .raw ": ",
      .value expiresAt, .raw "</li>\n    </ul>\n"]

variable {Ts : Type*}

/-- `InviteData`. -/
structure InviteData (Ts : Type*) where
  inviterName : String
  tenantName : String
  inviteToken : String
  expiresAt : Ts

namespace Templates

variable (e : Escaper) (w : Wire Ts)

/-- `verification_otp`. -/
def verificationOtp (otp : String) (locale : Option String) : String :=
  let c := copyFor locale
  render e (otpHtml c.verifyHeading c.verifyIntro otp c.codeExpiry c.footer)

/-- `password_reset_otp`. -/
def passwordResetOtp (otp : String) (locale : Option String) : String :=
  let c := copyFor locale
  render e (otpHtml c.resetOtpHeading c.resetOtpIntro otp c.codeExpiry c.footer)

/-- `password_reset_token`. -/
def passwordResetToken (token : String) (locale : Option String) : String :=
  let c := copyFor locale
  render e (passwordResetTokenHtml c.resetTokenHeading c.resetTokenIntro token c.linkExpiry
    c.footer)

/-- `mfa_enabled`. -/
def mfaEnabled (locale : Option String) : String :=
  let c := copyFor locale
  render e (mfaHtml c.mfaEnabledHeading c.mfaEnabledIntro c.footer)

/-- `mfa_disabled`. -/
def mfaDisabled (locale : Option String) : String :=
  let c := copyFor locale
  render e (mfaHtml c.mfaDisabledHeading c.mfaDisabledIntro c.footer)

/-- `new_session_alert`. -/
def newSessionAlert (session : SessionInfo) (locale : Option String) : String :=
  let c := copyFor locale
  render e (newSessionAlertHtml c.sessionHeading c.sessionIntro c.deviceLabel session.device
    c.ipLabel session.ip c.sessionLabel session.sessionHash c.footer)

/-- `invitation` : the time of expiry is written in RFC 3339. -/
def invitation (invite : InviteData Ts) (locale : Option String) : String :=
  let c := copyFor locale
  render e (invitationHtml c.inviteHeading c.inviteIntro c.inviterLabel invite.inviterName
    c.tenantLabel invite.tenantName c.tokenLabel invite.inviteToken c.expiryLabel
    (formatTs w invite.expiresAt) c.footer)

end Templates

/-! ## Messages -/

/-- What an `EmailProvider` is asked to send. -/
inductive Email (Ts : Type*) where
  | passwordResetToken (token : String)
  | passwordResetOtp (otp : String)
  | emailVerificationOtp (otp : String)
  | mfaEnabled
  | mfaDisabled
  | newSessionAlert (session : SessionInfo)
  | invitation (invite : InviteData Ts)

namespace Email

/-- The rendered body : the template function of the message. -/
def body (e : Escaper) (w : Wire Ts) (locale : Option String) : Email Ts → String
  | passwordResetToken token => Templates.passwordResetToken e token locale
  | passwordResetOtp otp => Templates.passwordResetOtp e otp locale
  | emailVerificationOtp otp => Templates.verificationOtp e otp locale
  | mfaEnabled => Templates.mfaEnabled e locale
  | mfaDisabled => Templates.mfaDisabled e locale
  | newSessionAlert session => Templates.newSessionAlert e session locale
  | invitation invite => Templates.invitation e w invite locale

/-- The template of the message, with its copy and its values. -/
def parts (w : Wire Ts) (c : Copy) : Email Ts → List Part
  | passwordResetToken token =>
    passwordResetTokenHtml c.resetTokenHeading c.resetTokenIntro token c.linkExpiry c.footer
  | passwordResetOtp otp => otpHtml c.resetOtpHeading c.resetOtpIntro otp c.codeExpiry c.footer
  | emailVerificationOtp otp => otpHtml c.verifyHeading c.verifyIntro otp c.codeExpiry c.footer
  | mfaEnabled => mfaHtml c.mfaEnabledHeading c.mfaEnabledIntro c.footer
  | mfaDisabled => mfaHtml c.mfaDisabledHeading c.mfaDisabledIntro c.footer
  | newSessionAlert session =>
    newSessionAlertHtml c.sessionHeading c.sessionIntro c.deviceLabel session.device c.ipLabel
      session.ip c.sessionLabel session.sessionHash c.footer
  | invitation invite =>
    invitationHtml c.inviteHeading c.inviteIntro c.inviterLabel invite.inviterName c.tenantLabel
      invite.tenantName c.tokenLabel invite.inviteToken c.expiryLabel
      (formatTs w invite.expiresAt) c.footer

theorem body_eq_render (e : Escaper) (w : Wire Ts) (locale : Option String) (m : Email Ts) :
    m.body e w locale = render e (m.parts w (copyFor locale)) := by
  cases m <;> rfl

/-- The tags of every template, around those of its own part. -/
def pageTags (content : List String) : List String :=
  ["!doctype html", "html lang=\"en\"",
    "body style=\"font-family: system-ui, sans-serif; color: #111\"", "h1", "/h1", "p", "/p"] ++
    content ++ ["hr /", "p style=\"color: #888; font-size: 12px\"", "/p", "/body", "/html"]

/-- The tags of the message's template. -/
def tags : Email Ts → List String
  | passwordResetToken _ =>
    pageTags ["p style=\"font-family: ui-monospace, monospace; word-break: break-all\"", "/p",
      "p style=\"color: #555\"", "/p"]
  | passwordResetOtp _ | emailVerificationOtp _ =>
    pageTags ["p style=\"font-size: 28px; font-weight: 700; letter-spacing: 4px\"", "/p",
      "p style=\"color: #555\"", "/p"]
  | mfaEnabled | mfaDisabled => pageTags []
  | newSessionAlert _ => pageTags ["ul", "li", "/li", "li", "/li", "li", "/li", "/ul"]
  | invitation _ =>
    pageTags ["ul", "li", "/li", "li", "/li", "li",
      "span style=\"font-family: ui-monospace, monospace\"", "/span", "/li", "li", "/li", "/ul"]

theorem hasTags_page {content : List Part} {ts : List String} (h : HasTags content ts)
    (heading intro footer : String) :
    HasTags (page heading intro footer content) (pageTags ts) := by
  refine .append (.append ?_ h) ?_
  · exact .raw ["!doctype html", "html lang=\"en\"",
      "body style=\"font-family: system-ui, sans-serif; color: #111\"", "h1"] (by decide +kernel)
      (.value (.raw ["/h1", "p"] (by decide +kernel) (.value
        (.raw ["/p"] (by decide +kernel) .nil))))
  · exact .raw ["hr /", "p style=\"color: #888; font-size: 12px\""] (by decide +kernel)
      (.value (.raw ["/p", "/body", "/html"] (by decide +kernel) .nil))

/-- The message's template has its tags, and the values stand outside of them. -/
theorem hasTags_parts (w : Wire Ts) (c : Copy) (m : Email Ts) :
    HasTags (m.parts w c) m.tags := by
  have hcolon : (run .data ": ".toList).1 = .data ∧
      Html.tags (run .data ": ".toList).2 = ([] : List String).map String.toList := by
    decide +kernel
  have hitem : (run .data "</li>\n      <li>".toList).1 = .data ∧
      Html.tags (run .data "</li>\n      <li>".toList).2 = ["/li", "li"].map String.toList := by
    decide +kernel
  cases m with
  | passwordResetToken token =>
    refine hasTags_page ?_ _ _ _
    exact .raw ["p style=\"font-family: ui-monospace, monospace; word-break: break-all\""]
      (by decide +kernel) (.value (.raw ["/p", "p style=\"color: #555\""] (by decide +kernel)
        (.value (.raw ["/p"] (by decide +kernel) .nil))))
  | passwordResetOtp otp | emailVerificationOtp otp =>
    refine hasTags_page ?_ _ _ _
    exact .raw ["p style=\"font-size: 28px; font-weight: 700; letter-spacing: 4px\""]
      (by decide +kernel) (.value (.raw ["/p", "p style=\"color: #555\""] (by decide +kernel)
        (.value (.raw ["/p"] (by decide +kernel) .nil))))
  | mfaEnabled | mfaDisabled => exact hasTags_page .nil _ _ _
  | newSessionAlert session =>
    refine hasTags_page ?_ _ _ _
    exact .raw ["ul", "li"] (by decide +kernel) (.value (.raw [] hcolon (.value
      (.raw _ hitem (.value (.raw [] hcolon (.value (.raw _ hitem (.value (.raw [] hcolon (.value
        (.raw ["/li", "/ul"] (by decide +kernel) .nil))))))))))))
  | invitation invite =>
    refine hasTags_page ?_ _ _ _
    exact .raw ["ul", "li"] (by decide +kernel) (.value (.raw [] hcolon (.value
      (.raw _ hitem (.value (.raw [] hcolon (.value (.raw ["/li", "li"] (by decide +kernel) (.value
        (.raw ["span style=\"font-family: ui-monospace, monospace\""] (by decide +kernel) (.value
          (.raw ["/span", "/li", "li"] (by decide +kernel) (.value (.raw [] hcolon (.value
            (.raw ["/li", "/ul"] (by decide +kernel) .nil))))))))))))))))

/-- Whatever the values, the body is read as the tags of its template and, as characters, the
template's own text, the copy and the values. -/
theorem tokens_body (e : Escaper) (w : Wire Ts) (locale : Option String) (m : Email Ts) :
    tokens (m.body e w locale).toList = (m.parts w (copyFor locale)).flatMap Part.tokens ∧
      Html.tags (tokens (m.body e w locale).toList) = m.tags.map String.toList := by
  rw [body_eq_render]
  exact ⟨tokens_render (hasTags_parts w _ m).closed, (hasTags_parts w _ m).tags_render⟩

/-- The alert of a device that calls itself a tag shows that tag as text. -/
theorem tokens_body_tagDevice :
    let m : Email String := .newSessionAlert ⟨"<script>", "203.0.113.4", "deadbeef"⟩
    let read := tokens (m.body numericEscaper textWire (some "es-MX")).toList
    "script".toList ∉ Html.tags read ∧ "<script>".toList.map .char <:+: read := by
  intro m read
  obtain ⟨htokens, htags⟩ := tokens_body numericEscaper textWire (some "es-MX") m
  refine ⟨?_, ?_⟩
  · rw [htags]
    decide
  · have hdevice : Part.value "<script>" ∈ m.parts textWire (copyFor (some "es-MX")) := by
      simp [m, parts, newSessionAlertHtml, page]
    have hread : read = (m.parts textWire (copyFor (some "es-MX"))).flatMap Part.tokens := htokens
    rw [hread, List.flatMap_def]
    exact List.infix_of_mem_flatten (List.mem_map_of_mem hdevice)

end Email

end AuthExample
