import AuthExample.AntiEnumeration

/-!
# The guards of the code screens

`OtpInput` completes a code again on every edit of a full one, so each page holds a guard in a
ref from its request to the end of its handler; the verify-email page holds another from a
resend to the end of its cooldown, and the MFA page submits nothing once it has rendered that
the challenge expired.

A handler returns the request it awaits, and what is in flight is counted by the runs.
`guards_hold` : on each of the three pages one request at most is in flight, and once its handler
has ended, on whichever path, the next completion is sent; resends are a cooldown apart.
-/

namespace AuthExample

open Runs

variable {E : Type}

/-! ## A guard held while a request is in flight -/

section Guard

variable {n : ℕ} {guard : Bool}

/-- One request at most is in flight where one is exactly while the guard is held. -/
theorem flight_le_one (h : n = guard.toNat) : n ≤ 1 := h ▸ Bool.toNat_le guard

/-- Once it has settled none is. -/
theorem flight_settled (h : n = guard.toNat) : n - 1 = 0 :=
  Nat.sub_eq_zero_of_le (flight_le_one h)

theorem flight_taken (h : n = guard.toNat) (hfree : guard = false) : n + 1 = 1 := by
  rw [h, hfree, Bool.toNat_false]

theorem guard_free (h : n = guard.toNat) (hrest : n = 0) : guard = false :=
  Bool.toNat_eq_zero.1 (h.symm.trans hrest)

end Guard

/-! ## The MFA page -/

/-- The page : the pending token, whether the challenge has expired, in its state and in the
render committed last, the guard, where the router was sent, the challenges submitted, and how
many of its two awaits are in flight. -/
structure MfaChallengePage where
  tempToken : Option String
  isExpired : Bool := false
  renderedExpired : Bool := false
  errorCode : Option String := none
  isSubmitting : Bool := false
  replaced : List String := []
  requests : List (String × String) := []
  challengesInFlight : ℕ := 0
  refreshesInFlight : ℕ := 0

namespace MfaChallengePage

/-- What `submit` awaits : the challenge of a token and a code, or the session's revalidation. -/
inductive Await where
  | mfaChallenge (tempToken totp : String)
  | refresh

/-- `submit` up to its request, if it makes one. The expiry it reads is that of the render it was
made in. -/
def submit (totp : String) (p : MfaChallengePage) : MfaChallengePage × Option Await :=
  match p.tempToken with
  | none => (p, none)
  | some tempToken =>
    if p.renderedExpired ∨ p.isSubmitting then (p, none)
    else
      ({ p with isSubmitting := true, errorCode := none }, some (.mfaChallenge tempToken totp))

/-- `submit` once the challenge settles : it revalidates the session, or ends. -/
def challengeSettled (lib : ClientErrors E) (outcome : Except (Thrown E) Unit)
    (p : MfaChallengePage) : MfaChallengePage × Option Await :=
  match outcome with
  | .ok () => (p, some .refresh)
  | .error err => ({ p with errorCode := some (codeOf lib err), isSubmitting := false }, none)

/-- `submit` once the session is revalidated. -/
def refreshSettled (lib : ClientErrors E) (outcome : Except (Thrown E) Unit)
    (p : MfaChallengePage) : MfaChallengePage :=
  let p := match outcome with
    | .ok () => { p with replaced := p.replaced ++ ["/dashboard"] }
    | .error err => { p with errorCode := some (codeOf lib err) }
  { p with isSubmitting := false }

/-- What happens : the visitor completes the code, a request settles, the pill calls `onExpired`,
or a render is committed. -/
inductive Act (E : Type) where
  | complete (totp : String)
  | challengeSettles (outcome : Except (Thrown E) Unit)
  | refreshSettles (outcome : Except (Thrown E) Unit)
  | expire
  | commit

/-- What a handler awaits is in flight. -/
def awaiting (p : MfaChallengePage) : Option Await → MfaChallengePage
  | some (.mfaChallenge tempToken totp) =>
    { p with
      requests := p.requests ++ [(tempToken, totp)]
      challengesInFlight := p.challengesInFlight + 1 }
  | some .refresh => { p with refreshesInFlight := p.refreshesInFlight + 1 }
  | none => p

/-- The code and the pill are rendered where there is a pending token. What settles is no longer
in flight, whatever the handler makes of it. -/
def next (lib : ClientErrors E) (p : MfaChallengePage) : Act E → Option MfaChallengePage
  | .complete totp =>
    if p.tempToken.isSome then
      let (p, await) := p.submit totp
      some (p.awaiting await)
    else none
  | .challengeSettles outcome =>
    if 0 < p.challengesInFlight then
      let (p, await) := { p with
        challengesInFlight := p.challengesInFlight - 1 }.challengeSettled lib outcome
      some (p.awaiting await)
    else none
  | .refreshSettles outcome =>
    if 0 < p.refreshesInFlight then
      some ({ p with refreshesInFlight := p.refreshesInFlight - 1 }.refreshSettled lib outcome)
    else none
  | .expire => if p.tempToken.isSome then some { p with isExpired := true } else none
  | .commit => some { p with renderedExpired := p.isExpired }

/-- A handler is in flight exactly while the guard is held, and only one. An expiry that was
rendered is still in the state. -/
structure Inv (p : MfaChallengePage) : Prop where
  flight : p.challengesInFlight + p.refreshesInFlight = p.isSubmitting.toNat
  expired : p.renderedExpired = true → p.isExpired = true

/-- What a completion does : nothing, or it takes the guard and submits. -/
theorem complete_cases {lib : ClientErrors E} {p p' : MfaChallengePage} {totp : String}
    (h : next lib p (.complete totp) = some p') : p' = p ∨
    ∃ tempToken, p.tempToken = some tempToken ∧ p.renderedExpired = false ∧
      p.isSubmitting = false ∧ p' = { p with
        isSubmitting := true
        errorCode := none
        requests := p.requests ++ [(tempToken, totp)]
        challengesInFlight := p.challengesInFlight + 1 } := by
  simp only [next, submit] at h
  cases htoken : p.tempToken with
  | none => simp [htoken] at h
  | some tempToken =>
    rw [htoken] at h
    by_cases hheld : p.renderedExpired = true ∨ p.isSubmitting = true
    · simp only [if_pos hheld] at h
      exact Or.inl (Option.some.inj h).symm
    · simp only [if_neg hheld] at h
      rw [not_or, Bool.not_eq_true, Bool.not_eq_true] at hheld
      refine Or.inr ⟨tempToken, rfl, hheld.1, hheld.2, ?_⟩
      rw [← Option.some.inj h, awaiting, ← htoken]

theorem Inv.next {lib : ClientErrors E} {p p' : MfaChallengePage} {a : Act E} (h : Inv p)
    (hstep : next lib p a = some p') : Inv p' := by
  have hflight := h.flight
  cases a with
  | complete totp =>
    rcases complete_cases hstep with rfl | ⟨tempToken, -, -, hguard, rfl⟩
    · exact h
    · refine ⟨?_, h.expired⟩
      show p.challengesInFlight + 1 + p.refreshesInFlight = 1
      rw [Nat.add_right_comm]
      exact flight_taken hflight hguard
  | challengeSettles outcome =>
    obtain ⟨hpos, rfl⟩ := enabled_iff.1 hstep
    have hone := flight_le_one hflight
    cases outcome with
    | ok _ =>
      refine ⟨?_, h.expired⟩
      show p.challengesInFlight - 1 + (p.refreshesInFlight + 1) = p.isSubmitting.toNat
      omega
    | error err =>
      refine ⟨?_, h.expired⟩
      show p.challengesInFlight - 1 + p.refreshesInFlight = 0
      omega
  | refreshSettles outcome =>
    obtain ⟨hpos, rfl⟩ := enabled_iff.1 hstep
    have hone := flight_le_one hflight
    have hnone : p.challengesInFlight + (p.refreshesInFlight - 1) = 0 := by omega
    cases outcome with
    | ok _ => exact ⟨hnone, h.expired⟩
    | error err => exact ⟨hnone, h.expired⟩
  | expire =>
    obtain ⟨-, rfl⟩ := enabled_iff.1 hstep
    exact ⟨hflight, fun _ => rfl⟩
  | commit =>
    obtain rfl := Option.some.inj hstep
    exact ⟨hflight, id⟩

/-- Once an expiry is rendered it stays, and nothing is submitted. -/
theorem next_of_expired {lib : ClientErrors E} {p p' : MfaChallengePage} {a : Act E} (h : Inv p)
    (hexpired : p.renderedExpired = true) (hstep : MfaChallengePage.next lib p a = some p') :
    p'.renderedExpired = true ∧ p'.requests = p.requests := by
  cases a with
  | complete totp =>
    rcases complete_cases hstep with rfl | ⟨_, -, hnot, -, -⟩
    · exact ⟨hexpired, rfl⟩
    · exact nomatch hexpired.symm.trans hnot
  | challengeSettles outcome =>
    obtain ⟨-, rfl⟩ := enabled_iff.1 hstep
    cases outcome <;> exact ⟨hexpired, rfl⟩
  | refreshSettles outcome =>
    obtain ⟨-, rfl⟩ := enabled_iff.1 hstep
    cases outcome <;> exact ⟨hexpired, rfl⟩
  | expire =>
    obtain ⟨-, rfl⟩ := enabled_iff.1 hstep
    exact ⟨hexpired, rfl⟩
  | commit =>
    obtain rfl := Option.some.inj hstep
    exact ⟨h.expired hexpired, rfl⟩

/-- The guard is free : with a token and no expiry rendered the next code is submitted. -/
def Free (lib : ClientErrors E) (p : MfaChallengePage) : Prop :=
  p.isSubmitting = false ∧ ∀ token totp, p.tempToken = some token → p.renderedExpired = false →
    ∃ p', next lib p (.complete totp) = some p' ∧ p'.requests = p.requests ++ [(token, totp)]

theorem free_of_guard {lib : ClientErrors E} {p : MfaChallengePage}
    (hguard : p.isSubmitting = false) : Free lib p := by
  refine ⟨hguard, fun token totp htoken hexpired => ⟨?_, ?_, ?_⟩⟩
  · exact (p.submit totp).1.awaiting (p.submit totp).2
  · exact if_pos (by rw [htoken]; rfl)
  · simp [submit, awaiting, htoken, hexpired, hguard]

/-- The ends of the handler : a challenge that fails, and any revalidation. -/
def EndsSubmit (a : Act E) : Prop :=
  (∃ err, a = .challengeSettles (.error err)) ∨ ∃ outcome, a = .refreshSettles outcome

/-- The guard is released at each. -/
theorem free_of_endsSubmit {lib : ClientErrors E} {p p' : MfaChallengePage} {a : Act E}
    (ha : EndsSubmit a) (hstep : next lib p a = some p') : Free lib p' := by
  refine free_of_guard ?_
  rcases ha with ⟨err, rfl⟩ | ⟨outcome, rfl⟩
  · obtain ⟨-, rfl⟩ := enabled_iff.1 hstep
    rfl
  · obtain ⟨-, rfl⟩ := enabled_iff.1 hstep
    rfl

end MfaChallengePage

/-! ## The forgot-password page -/

namespace ForgotPasswordPage

/-- A verification is in flight exactly while the guard is held, and only one. -/
def Guarded (p : ForgotPasswordPage) : Prop := p.verifiesInFlight = p.isVerifying.toNat

/-- A settled verification releases the guard on every path, and starts none. -/
theorem otpSettled_guard (lib : ClientErrors E) (outcome : Except (Thrown E) Response)
    (p : ForgotPasswordPage) :
    (p.otpSettled lib outcome).verifiesInFlight = p.verifiesInFlight ∧
      (p.otpSettled lib outcome).isVerifying = false := by
  simp only [otpSettled]
  split
  · split
    · split <;> exact ⟨rfl, rfl⟩
    · exact ⟨rfl, rfl⟩
  · exact ⟨rfl, rfl⟩

/-- What `onOtpComplete` posts. -/
def verifyRequest (p : ForgotPasswordPage) (otp : String) : ForgotPasswordRequest :=
  .verifyOtp (.obj [("email", .str p.email), ("otp", .str otp), ("tenantId", .str p.tenantId)])

/-- What a completion does : nothing, or it takes the guard and sends. -/
theorem complete_cases {lib : ClientErrors E} {p p' : ForgotPasswordPage} {otp : String}
    (h : next lib p (.complete otp) = some p') : p' = p ∨ p.isVerifying = false ∧ p' = { p with
      isVerifying := true
      errorCode := none
      requests := p.requests ++ [p.verifyRequest otp]
      verifiesInFlight := p.verifiesInFlight + 1 } := by
  simp only [next, onOtpComplete] at h
  split_ifs at h with hstep hheld
  · exact Or.inl (Option.some.inj h).symm
  · exact Or.inr ⟨Bool.eq_false_iff.2 hheld, (Option.some.inj h).symm⟩

theorem Guarded.next {lib : ClientErrors E} {p p' : ForgotPasswordPage} {a : Act E}
    (h : Guarded p) (hstep : next lib p a = some p') : Guarded p' := by
  cases a with
  | type email =>
    obtain ⟨-, rfl⟩ := enabled_iff.1 hstep
    exact h
  | submit =>
    obtain ⟨-, rfl⟩ := enabled_iff.1 hstep
    exact h
  | emailSettles outcome =>
    obtain ⟨-, rfl⟩ := enabled_iff.1 hstep
    simp only [emailSettled]
    split <;> exact h
  | complete otp =>
    rcases complete_cases hstep with rfl | ⟨hguard, rfl⟩
    · exact h
    · exact flight_taken h hguard
  | otpSettles outcome =>
    obtain ⟨-, rfl⟩ := enabled_iff.1 hstep
    obtain ⟨hflight, hguard⟩ := otpSettled_guard lib outcome
      { p with verifiesInFlight := p.verifiesInFlight - 1 }
    rw [Guarded, hflight, hguard]
    exact flight_settled h
  | startOver =>
    obtain ⟨-, rfl⟩ := enabled_iff.1 hstep
    exact h

/-- The guard is free : on the code screen the next code is sent. -/
def Free (lib : ClientErrors E) (p : ForgotPasswordPage) : Prop :=
  p.isVerifying = false ∧ (p.step = .otp → ∀ otp,
    ∃ p', ForgotPasswordPage.next lib p (.complete otp) = some p' ∧
      p'.requests = p.requests ++ [.verifyOtp (.obj [("email", .str p.email), ("otp", .str otp),
        ("tenantId", .str p.tenantId)])])

theorem free_of_guard {lib : ClientErrors E} {p : ForgotPasswordPage}
    (hguard : p.isVerifying = false) : Free lib p := by
  refine ⟨hguard, fun hstep otp => ⟨?_, ?_, ?_⟩⟩
  · exact (p.onOtpComplete otp).1.verified (p.onOtpComplete otp).2
  · exact if_pos hstep
  · rw [onOtpComplete, if_neg (by rw [hguard]; exact Bool.false_ne_true)]
    rfl

/-- The guard is released whenever the verification settles. -/
theorem free_of_otpSettles {lib : ClientErrors E} {p p' : ForgotPasswordPage}
    {outcome : Except (Thrown E) Response}
    (hstep : ForgotPasswordPage.next lib p (.otpSettles outcome) = some p') : Free lib p' := by
  obtain ⟨-, rfl⟩ := enabled_iff.1 hstep
  exact free_of_guard (otpSettled_guard lib outcome _).2

end ForgotPasswordPage

/-! ## The verify-email page -/

/-- What `verify` posts. -/
def VerifyEmailPage.verifyRequest (p : VerifyEmailPage) (email otp : String) : AuthRequest where
  route := .verifyEmail
  body := .obj [("email", .str email), ("otp", .str otp), ("tenantId", .str p.tenantId)]

/-- `verify` takes the guard and sends, or only shows an error. -/
theorem VerifyEmailPage.verify_cases (otp : String) (p : VerifyEmailPage) :
    (∃ errorCode, p.verify otp = ({ p with errorCode }, none)) ∨
      ∃ email, p.email = some email ∧ p.isVerifying = false ∧ p.verify otp =
        ({ p with isVerifying := true, errorCode := none }, some (p.verifyRequest email otp)) := by
  unfold verify
  cases hguard : p.isVerifying with
  | true => exact Or.inl ⟨p.errorCode, by simp [← hguard]⟩
  | false =>
    cases hemail : p.email with
    | none => exact Or.inl ⟨some "auth.internal", by simp⟩
    | some email => exact Or.inr ⟨email, rfl, rfl, by simp [verifyRequest]⟩

namespace ResendPage

/-- A verification is in flight exactly while its guard is held, and only one; the other guard
is held while a resend is in flight or its cooldown runs, and only one is or does. -/
structure Guarded (p : ResendPage) : Prop where
  verify : p.verifiesInFlight = p.page.isVerifying.toNat
  resend : p.resendsInFlight + p.timers.length = p.resendDisabled.toNat

/-- A timer fires once it is due. -/
theorem fire_eq_some {lib : ClientErrors E} {p p' : ResendPage} {i : ℕ}
    (h : next lib p (.fire i) = some p') : ∃ due, p.timers[i]? = some due ∧ due ≤ p.now ∧
      p' = { p with resendDisabled := false, timers := p.timers.eraseIdx i } := by
  simp only [next] at h
  split at h
  · next due htimer =>
    split_ifs at h with hdue
    exact ⟨due, htimer, hdue, (Option.some.inj h).symm⟩
  · cases h

/-- What a completion does : it takes the guard and sends, or only shows an error. -/
theorem complete_cases {lib : ClientErrors E} {p p' : ResendPage} {otp : String}
    (h : next lib p (.complete otp) = some p') :
    (∃ errorCode, p' = { p with page := { p.page with errorCode } }) ∨
      ∃ email, p.page.email = some email ∧ p.page.isVerifying = false ∧ p' = { p with
        page := { p.page with isVerifying := true, errorCode := none }
        requests := p.requests ++ [.verify (p.page.verifyRequest email otp)]
        verifiesInFlight := p.verifiesInFlight + 1 } := by
  simp only [next] at h
  split_ifs at h with hstatus
  rcases p.page.verify_cases otp with ⟨errorCode, hkept⟩ | ⟨email, hemail, hguard, hsent⟩
  · rw [hkept] at h
    exact Or.inl ⟨errorCode, (Option.some.inj h).symm⟩
  · rw [hsent] at h
    exact Or.inr ⟨email, hemail, hguard, (Option.some.inj h).symm⟩

/-- What a click does : it takes the guard and sends, or only shows the confirmation. -/
theorem click_cases {lib : ClientErrors E} {p p' : ResendPage}
    (h : next lib p .click = some p') :
    (∃ resendMessage, p' = { p with resendMessage }) ∨
      ∃ email, p.page.email = some email ∧ p.resendDisabled = false ∧ p' = { p with
        resendDisabled := true
        requests := p.requests ++
          [.resend (.obj [("email", .str email), ("tenantId", .str p.page.tenantId)])]
        resendsInFlight := p.resendsInFlight + 1 } := by
  simp only [next, ResendPage.resend] at h
  split_ifs at h with hstatus hheld
  · exact Or.inl ⟨p.resendMessage, (Option.some.inj h).symm⟩
  · cases hemail : p.page.email with
    | none =>
      rw [hemail] at h
      exact Or.inl ⟨some neutralMessage, (Option.some.inj h).symm⟩
    | some email =>
      rw [hemail] at h
      exact Or.inr ⟨email, rfl, Bool.eq_false_iff.2 hheld, (Option.some.inj h).symm⟩

/-- What a step does to the resends : it leaves them alone, starts one, settles one, or ends a
cooldown. -/
inductive ResendStep (p p' : ResendPage) : Prop
  | quiet (disabled : p'.resendDisabled = p.resendDisabled)
    (flight : p'.resendsInFlight = p.resendsInFlight) (timers : p'.timers = p.timers)
    (now : p.now ≤ p'.now)
  | start (free : p.resendDisabled = false) (disabled : p'.resendDisabled = true)
    (flight : p'.resendsInFlight = p.resendsInFlight + 1) (timers : p'.timers = p.timers)
    (now : p'.now = p.now)
  | settle (pos : 0 < p.resendsInFlight) (disabled : p'.resendDisabled = p.resendDisabled)
    (flight : p'.resendsInFlight = p.resendsInFlight - 1)
    (timers : p'.timers = p.timers ++ [p.now + resendCooldownMs]) (now : p'.now = p.now)
  | fire (i due : ℕ) (timer : p.timers[i]? = some due) (due_le : due ≤ p.now)
    (disabled : p'.resendDisabled = false) (flight : p'.resendsInFlight = p.resendsInFlight)
    (timers : p'.timers = p.timers.eraseIdx i) (now : p'.now = p.now)

theorem resendStep {lib : ClientErrors E} {p p' : ResendPage} {a : Act E}
    (hstep : next lib p a = some p') : ResendStep p p' := by
  cases a with
  | session status email =>
    obtain rfl := Option.some.inj hstep
    exact .quiet rfl rfl rfl le_rfl
  | complete otp =>
    rcases complete_cases hstep with ⟨errorCode, rfl⟩ | ⟨email, -, -, rfl⟩
    · exact .quiet rfl rfl rfl le_rfl
    · exact .quiet rfl rfl rfl le_rfl
  | verifySettles outcome =>
    obtain ⟨-, rfl⟩ := enabled_iff.1 hstep
    exact .quiet rfl rfl rfl le_rfl
  | click =>
    rcases click_cases hstep with ⟨message, rfl⟩ | ⟨email, -, hfree, rfl⟩
    · exact .quiet rfl rfl rfl le_rfl
    · exact .start hfree rfl rfl rfl rfl
  | resendSettles outcome =>
    obtain ⟨hpos, rfl⟩ := enabled_iff.1 hstep
    rw [resendSettled_eq]
    exact .settle hpos rfl rfl rfl rfl
  | elapse ms =>
    obtain rfl := Option.some.inj hstep
    exact .quiet rfl rfl rfl (Nat.le_add_right p.now ms)
  | fire i =>
    obtain ⟨due, htimer, hdue, rfl⟩ := fire_eq_some hstep
    exact .fire i due htimer hdue rfl rfl rfl rfl

/-- The guard of the verifications. -/
theorem verify_next {lib : ClientErrors E} {p p' : ResendPage} {a : Act E}
    (h : p.verifiesInFlight = p.page.isVerifying.toNat) (hstep : next lib p a = some p') :
    p'.verifiesInFlight = p'.page.isVerifying.toNat := by
  cases a with
  | session status email =>
    obtain rfl := Option.some.inj hstep
    exact h
  | complete otp =>
    rcases complete_cases hstep with ⟨errorCode, rfl⟩ | ⟨email, -, hguard, rfl⟩
    · exact h
    · exact flight_taken h hguard
  | verifySettles outcome =>
    obtain ⟨-, rfl⟩ := enabled_iff.1 hstep
    cases outcome <;> exact flight_settled h
  | click =>
    rcases click_cases hstep with ⟨message, rfl⟩ | ⟨email, -, -, rfl⟩
    · exact h
    · exact h
  | resendSettles outcome =>
    obtain ⟨-, rfl⟩ := enabled_iff.1 hstep
    rw [resendSettled_eq]
    exact h
  | elapse ms =>
    obtain rfl := Option.some.inj hstep
    exact h
  | fire i =>
    obtain ⟨due, -, -, rfl⟩ := fire_eq_some hstep
    exact h

theorem Guarded.next {lib : ClientErrors E} {p p' : ResendPage} {a : Act E} (h : Guarded p)
    (hstep : next lib p a = some p') : Guarded p' := by
  refine ⟨verify_next h.verify hstep, ?_⟩
  have hresend := h.resend
  have hone := flight_le_one hresend
  cases resendStep hstep with
  | quiet disabled flight timers now => rw [disabled, flight, timers, hresend]
  | start free disabled flight timers now =>
    rw [free, Bool.toNat_false] at hresend
    rw [disabled, flight, timers, Bool.toNat_true]
    omega
  | settle pos disabled flight timers now =>
    rw [disabled, flight, timers, List.length_append, List.length_singleton]
    omega
  | fire i due timer due_le disabled flight timers now =>
    have hi : i < p.timers.length := (List.getElem?_eq_some_iff.1 timer).1
    rw [disabled, flight, timers, List.length_eraseIdx_of_lt hi, Bool.toNat_false]
    omega

/-- The guard is free : with an email and signed in the next code is sent. -/
def Free (lib : ClientErrors E) (p : ResendPage) : Prop :=
  p.page.isVerifying = false ∧
    ∀ email otp, p.status = .authenticated → p.page.email = some email →
      ∃ p', ResendPage.next lib p (.complete otp) = some p' ∧
        p'.requests = p.requests ++ [.verify (p.page.verifyRequest email otp)]

theorem free_of_guard {lib : ClientErrors E} {p : ResendPage}
    (hguard : p.page.isVerifying = false) : Free lib p := by
  refine ⟨hguard, fun email otp hstatus hemail => ⟨?_, ?_, ?_⟩⟩
  · exact { p with page := (p.page.verify otp).1 }.verified (p.page.verify otp).2
  · exact if_pos hstatus
  · simp [VerifyEmailPage.verify, hguard, hemail, verified, VerifyEmailPage.verifyRequest]

/-- The guard is released whenever the verification settles. -/
theorem free_of_verifySettles {lib : ClientErrors E} {p p' : ResendPage}
    {outcome : Except (Thrown E) Response}
    (hstep : ResendPage.next lib p (.verifySettles outcome) = some p') : Free lib p' := by
  obtain ⟨-, rfl⟩ := enabled_iff.1 hstep
  refine free_of_guard ?_
  cases outcome <;> rfl

/-! ## The cooldown -/

/-- The resend that settled at `settled` keeps the guard held until its cooldown has run. -/
def Cooling (settled : ℕ) (p : ResendPage) : Prop :=
  settled + resendCooldownMs ≤ p.now ∨
    p.resendDisabled = true ∧ p.resendsInFlight = 0 ∧ p.timers = [settled + resendCooldownMs]

/-- A settled resend starts its cooldown. -/
theorem cooling_of_settles {lib : ClientErrors E} {p p' : ResendPage}
    {outcome : Except (Thrown E) Response} (h : Guarded p)
    (hstep : next lib p (.resendSettles outcome) = some p') : Cooling p.now p' := by
  obtain ⟨hpos, rfl⟩ := enabled_iff.1 hstep
  have hone := Bool.toNat_le p.resendDisabled
  have hresend := h.resend
  have hheld : p.resendDisabled.toNat = 1 := by omega
  have hflight : p.resendsInFlight - 1 = 0 := by omega
  have htimers : p.timers = [] := List.length_eq_zero_iff.1 (by omega)
  rw [resendSettled_eq]
  refine Or.inr ⟨Bool.toNat_eq_one.1 hheld, hflight, ?_⟩
  show p.timers ++ _ = _
  rw [htimers, List.nil_append]

/-- The cooldown runs on whatever happens. -/
theorem Cooling.next {lib : ClientErrors E} {settled : ℕ} {p p' : ResendPage} {a : Act E}
    (h : Cooling settled p) (hstep : next lib p a = some p') : Cooling settled p' := by
  have hnow : p.now ≤ p'.now := by
    cases resendStep hstep with
    | quiet _ _ _ now => exact now
    | start _ _ _ _ now | settle _ _ _ _ now | fire _ _ _ _ _ _ _ now => exact now.ge
  rcases h with hover | ⟨hheld, hflight, htimers⟩
  · exact Or.inl (hover.trans hnow)
  cases resendStep hstep with
  | quiet disabled flight timers now =>
    exact Or.inr ⟨disabled.trans hheld, flight.trans hflight, timers.trans htimers⟩
  | start free => exact nomatch hheld.symm.trans free
  | settle pos => omega
  | fire i due timer due_le =>
    rw [htimers] at timer
    obtain rfl := List.mem_singleton.1 (List.mem_of_getElem? timer)
    exact Or.inl (due_le.trans hnow)

/-- After a resend has settled, the next starts a cooldown later. -/
theorem cooldown_elapsed {lib : ClientErrors E} {settled : ℕ} {p p' : ResendPage} {a : Act E}
    (h : Cooling settled p) (hstep : next lib p a = some p')
    (hstarts : p.resendsInFlight < p'.resendsInFlight) : settled + resendCooldownMs ≤ p.now := by
  refine h.resolve_right fun hcools => ?_
  cases resendStep hstep with
  | start free => exact nomatch hcools.1.symm.trans free
  | quiet _ flight => omega
  | settle _ _ flight => omega
  | fire _ _ _ _ _ flight => omega

end ResendPage

/-! ## The three pages -/

theorem MfaChallengePage.inv_run {lib : ClientErrors E} {tempToken : Option String}
    {acts : List (MfaChallengePage.Act E)} {p : MfaChallengePage}
    (hrun : run (MfaChallengePage.next lib) { tempToken } acts = some p) : p.Inv :=
  have hmount : MfaChallengePage.Inv { tempToken } := ⟨rfl, fun h => absurd h Bool.false_ne_true⟩
  run_induction (P := fun _ p => MfaChallengePage.Inv p) hmount
    (fun _ _ _ _ _ h hstep => h.next hstep) hrun

theorem ForgotPasswordPage.guarded_run {lib : ClientErrors E} {rawTenantId : String}
    {acts : List (ForgotPasswordPage.Act E)} {p : ForgotPasswordPage}
    (hrun : run (ForgotPasswordPage.next lib) { rawTenantId } acts = some p) : p.Guarded :=
  have hmount : ForgotPasswordPage.Guarded { rawTenantId } := rfl
  run_induction (P := fun _ p => ForgotPasswordPage.Guarded p) hmount
    (fun _ _ _ _ _ h hstep => h.next hstep) hrun

theorem ResendPage.guarded_run {lib : ClientErrors E} {page : VerifyEmailPage}
    (hpage : page.isVerifying = false) {status : SessionStatus} {acts : List (ResendPage.Act E)}
    {p : ResendPage} (hrun : run (ResendPage.next lib) { page, status } acts = some p) :
    p.Guarded :=
  have hmount : ResendPage.Guarded { page, status } := ⟨by rw [hpage]; rfl, rfl⟩
  run_induction (P := fun _ p => ResendPage.Guarded p) hmount
    (fun _ _ _ _ _ h hstep => h.next hstep) hrun

/-- A run that starts with its expiry rendered submits nothing. -/
theorem MfaChallengePage.requests_of_expired {lib : ClientErrors E} {p p' : MfaChallengePage}
    {acts : List (MfaChallengePage.Act E)} (h : p.Inv) (hexpired : p.renderedExpired = true)
    (hrun : run (MfaChallengePage.next lib) p acts = some p') : p'.requests = p.requests := by
  have hkept : p'.Inv ∧ p'.renderedExpired = true ∧ p'.requests = p.requests :=
    run_induction (P := fun _ q => MfaChallengePage.Inv q ∧ q.renderedExpired = true ∧
      q.requests = p.requests) ⟨h, hexpired, rfl⟩
      (fun _ q _ q' _ hq hstep =>
        have hnext := MfaChallengePage.next_of_expired hq.1 hq.2.1 hstep
        ⟨hq.1.next hstep, hnext.1, hnext.2.trans hq.2.2⟩) hrun
  exact hkept.2.2

/-- The next resend after one has settled starts a cooldown later, whatever happens between. -/
theorem ResendPage.cooldown_run {lib : ClientErrors E} {p p₁ p₂ p₃ : ResendPage}
    {outcome : Except (Thrown E) Response} {acts : List (ResendPage.Act E)}
    {a : ResendPage.Act E} (h : p.Guarded)
    (hsettles : ResendPage.next lib p (.resendSettles outcome) = some p₁)
    (hrun : run (ResendPage.next lib) p₁ acts = some p₂)
    (hstep : ResendPage.next lib p₂ a = some p₃)
    (hstarts : p₂.resendsInFlight < p₃.resendsInFlight) :
    p.now + resendCooldownMs ≤ p₂.now := by
  have hcooling : ResendPage.Cooling p.now p₂ :=
    run_induction (P := fun _ q => ResendPage.Cooling p.now q)
      (ResendPage.cooling_of_settles h hsettles)
      (fun _ _ _ _ _ hq hstep => hq.next hstep) hrun
  exact ResendPage.cooldown_elapsed hcooling hstep hstarts

/-- In every run of a page one request of its kind is in flight at most. Where none is, and
whenever one has settled together with what follows it, the guard is free and the next completion
is sent. An expiry that was rendered ends the challenges, and resends are a cooldown apart, counted
from when the one before settled. -/
theorem guards_hold (lib : ClientErrors E) :
    (∀ tempToken acts p, run (MfaChallengePage.next lib) { tempToken } acts = some p →
      p.challengesInFlight ≤ 1 ∧
      (p.challengesInFlight = 0 ∧ p.refreshesInFlight = 0 → MfaChallengePage.Free lib p) ∧
      (∀ a p', MfaChallengePage.next lib p a = some p' → MfaChallengePage.EndsSubmit a →
        MfaChallengePage.Free lib p') ∧
      (p.renderedExpired = true → ∀ acts' p', run (MfaChallengePage.next lib) p acts' = some p' →
        p'.requests = p.requests)) ∧
    (∀ rawTenantId acts p, run (ForgotPasswordPage.next lib) { rawTenantId } acts = some p →
      p.verifiesInFlight ≤ 1 ∧
      (p.verifiesInFlight = 0 → ForgotPasswordPage.Free lib p) ∧
      ∀ outcome p', ForgotPasswordPage.next lib p (.otpSettles outcome) = some p' →
        ForgotPasswordPage.Free lib p') ∧
    (∀ email rawTenantId status acts p,
      run (ResendPage.next lib) { page := { email, rawTenantId }, status } acts = some p →
      p.verifiesInFlight ≤ 1 ∧
      (p.verifiesInFlight = 0 → ResendPage.Free lib p) ∧
      (∀ outcome p', ResendPage.next lib p (.verifySettles outcome) = some p' →
        ResendPage.Free lib p') ∧
      p.resendsInFlight ≤ 1 ∧
      ∀ outcome p₁ acts' p₂ a p₃, ResendPage.next lib p (.resendSettles outcome) = some p₁ →
        run (ResendPage.next lib) p₁ acts' = some p₂ → ResendPage.next lib p₂ a = some p₃ →
          p₂.resendsInFlight < p₃.resendsInFlight → p.now + 30000 ≤ p₂.now) := by
  refine ⟨fun tempToken acts p hrun => ?_, fun rawTenantId acts p hrun => ?_,
    fun email rawTenantId status acts p hrun => ?_⟩
  · have h := MfaChallengePage.inv_run hrun
    refine ⟨(Nat.le_add_right _ _).trans (flight_le_one h.flight), fun hrest => ?_,
      fun a p' hstep hends => MfaChallengePage.free_of_endsSubmit hends hstep,
      fun hexpired acts' p' hrun' => MfaChallengePage.requests_of_expired h hexpired hrun'⟩
    exact MfaChallengePage.free_of_guard (guard_free h.flight (by rw [hrest.1, hrest.2]))
  · have h : p.verifiesInFlight = p.isVerifying.toNat := ForgotPasswordPage.guarded_run hrun
    exact ⟨flight_le_one h, fun hrest => ForgotPasswordPage.free_of_guard (guard_free h hrest),
      fun outcome p' hstep => ForgotPasswordPage.free_of_otpSettles hstep⟩
  · have h := ResendPage.guarded_run rfl hrun
    refine ⟨flight_le_one h.verify,
      fun hrest => ResendPage.free_of_guard (guard_free h.verify hrest),
      fun outcome p' hstep => ResendPage.free_of_verifySettles hstep,
      (Nat.le_add_right _ _).trans (flight_le_one h.resend),
      fun outcome p₁ acts' p₂ a p₃ hsettles hrun' hstep hstarts => ?_⟩
    exact ResendPage.cooldown_run h hsettles hrun' hstep hstarts

/-- A visitor who clicks as soon as the cooldown is over. -/
theorem cooldown_clicks : ∃ p₂ : ResendPage, 30000 ≤ p₂.now ∧
    run (ResendPage.next plainErrors)
      { page := { email := some "user@example.test", rawTenantId := "acme" }
        status := .authenticated }
      [.click, .resendSettles (.error .fetch), .elapse 30000, .fire 0] = some p₂ := by
  refine ⟨_, ?_, rfl⟩
  have hpage := (guards_hold plainErrors).2.2 (some "user@example.test") "acme" .authenticated
    [.click] _ rfl
  exact hpage.2.2.2.2 (.error .fetch) _ [.elapse 30000, .fire 0] _ .click _ rfl rfl rfl (by decide)

end AuthExample
