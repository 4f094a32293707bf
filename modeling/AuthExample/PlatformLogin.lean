import AuthExample.Handoff
import AuthExample.OtpInput
import AuthExample.SignInTab

/-!
# The platform login page

One component shows the sign-in form and, once a login demands a challenge, the code input and
its button. The token of the challenge and the last full code are React state, and "Back to sign
in" drops both while a challenge may be in flight. A handler returns the request it awaits, and
what is in flight is counted by the runs.

`challenges_paired` : in every run the requests are those of the clicks on "Verify", each the token
of the login answered last with a full code of the input that was mounted for this token, and one
login and one challenge at most are in flight.
-/

namespace AuthExample

open Runs Handoff

variable {E : Type}

/-- The page : its state, the code input where it is mounted, where the router was sent, the
requests issued, and how many are in flight. -/
structure PlatformLoginForm where
  errorCode : Option String := none
  email : String := ""
  password : String := ""
  isSubmitting : Bool := false
  mfaTempToken : Option String := none
  pendingMfaCode : Option String := none
  isMfaSubmitting : Bool := false
  otp : Option OtpInput := none
  pushed : List String := []
  logins : List (String × String) := []
  challenges : List (String × String) := []
  loginsInFlight : ℕ := 0
  challengesInFlight : ℕ := 0

namespace PlatformLoginForm

/-! ## The handlers -/

/-- `onLogin` up to its request. -/
def onLogin (p : PlatformLoginForm) : PlatformLoginForm × (String × String) :=
  ({ p with errorCode := none, isSubmitting := true }, (p.email, p.password))

/-- `onLogin` once its request settles. With a token the code input is rendered, and mounted
where it was not. -/
def loginSettled (lib : ClientErrors E) (outcome : Except (Thrown E) LoginResult)
    (p : PlatformLoginForm) : PlatformLoginForm :=
  let p := { p with isSubmitting := false }
  match outcome with
  | .ok (.challenge mfaTempToken true) =>
    { p with mfaTempToken := some mfaTempToken, otp := p.otp.or (some (OtpInput.mount 6 none)) }
  | .ok _ => { p with pushed := p.pushed ++ ["/platform/security"] }
  | .error err => { p with errorCode := some (codeOf lib err) }

/-- An event on the code input, and the calls of `onComplete` it makes. -/
def otpEvent (otp otp' : OtpInput) (p : PlatformLoginForm) : PlatformLoginForm :=
  { p with
    otp := some otp'
    pendingMfaCode := (otp'.completed.drop otp.completed.length).getLast?.or p.pendingMfaCode }

/-- `onMfaSubmit` up to its request, if it makes one. -/
def onMfaSubmit (p : PlatformLoginForm) : PlatformLoginForm × Option (String × String) :=
  match p.mfaTempToken, p.pendingMfaCode with
  | some mfaTempToken, some pendingMfaCode =>
    ({ p with errorCode := none, isMfaSubmitting := true }, some (mfaTempToken, pendingMfaCode))
  | _, _ => (p, none)

/-- `onMfaSubmit` once its request settles. -/
def challengeSettled (lib : ClientErrors E) (outcome : Except (Thrown E) Unit)
    (p : PlatformLoginForm) : PlatformLoginForm :=
  let p := { p with isMfaSubmitting := false }
  match outcome with
  | .ok () => { p with pushed := p.pushed ++ ["/platform/security"] }
  | .error err => { p with errorCode := some (codeOf lib err) }

/-- "Back to sign in". The code input goes with its screen. -/
def back (p : PlatformLoginForm) : PlatformLoginForm :=
  { p with mfaTempToken := none, pendingMfaCode := none, errorCode := none, otp := none }

/-! ## Runs -/

/-- What happens : the visitor types, submits the form, edits the code, clicks "Verify" or goes
back, or a request settles. -/
inductive Act (E : Type) where
  | typeEmail (email : String)
  | typePassword (password : String)
  | login
  | loginSettles (outcome : Except (Thrown E) LoginResult)
  | otp (event : OtpInput.Event)
  | verify
  | challengeSettles (outcome : Except (Thrown E) Unit)
  | back

/-- The challenge a handler awaits is in flight. -/
def awaiting (p : PlatformLoginForm) : Option (String × String) → PlatformLoginForm
  | some challenge =>
    { p with
      challenges := p.challenges ++ [challenge]
      challengesInFlight := p.challengesInFlight + 1 }
  | none => p

/-- Without a token the form is rendered, with one the code input. Each button is disabled while
its request is in flight, that of the code also without a full code. What settles is no longer
in flight, whatever the handler makes of it. -/
def next (lib : ClientErrors E) (p : PlatformLoginForm) : Act E → Option PlatformLoginForm
  | .typeEmail email => if p.mfaTempToken = none then some { p with email } else none
  | .typePassword password => if p.mfaTempToken = none then some { p with password } else none
  | .login =>
    if p.mfaTempToken = none ∧ p.isSubmitting = false then
      let (p, login) := p.onLogin
      some { p with logins := p.logins ++ [login], loginsInFlight := p.loginsInFlight + 1 }
    else none
  | .loginSettles outcome =>
    if 0 < p.loginsInFlight then
      some ({ p with loginsInFlight := p.loginsInFlight - 1 }.loginSettled lib outcome)
    else none
  | .otp event => do
    let otp ← p.otp
    let otp' ← OtpInput.step 6 otp event
    return p.otpEvent otp otp'
  | .verify =>
    if p.mfaTempToken.isSome ∧ p.pendingMfaCode.isSome ∧ p.isMfaSubmitting = false then
      let (p, challenge) := p.onMfaSubmit
      some (p.awaiting challenge)
    else none
  | .challengeSettles outcome =>
    if 0 < p.challengesInFlight then
      some ({ p with challengesInFlight := p.challengesInFlight - 1 }.challengeSettled lib outcome)
    else none
  | .back => if p.mfaTempToken.isSome then some p.back else none

/-! ## What the acts say -/

/-- What an act does to the token : an answer puts one, "Back" takes it. -/
def tokenEvents : Act E → List (Handoff.Event String)
  | .loginSettles (.ok (.challenge mfaTempToken true)) => [.put mfaTempToken]
  | .back => [.take]
  | _ => []

/-- The tokens of the answers that demanded a challenge. -/
def demanded (acts : List (Act E)) : List String := puts (acts.flatMap tokenEvents)

/-- What an act makes of the events on the code input since it was mounted. -/
def inputsNext (events : List OtpInput.Event) : Act E → List OtpInput.Event
  | .loginSettles (.ok (.challenge _ true)) => []
  | .otp event => events ++ [event]
  | _ => events

/-- The events on the code input since the last answer that demanded a challenge. -/
def inputs (acts : List (Act E)) : List OtpInput.Event := acts.foldl inputsNext []

/-- What happened before each click on "Verify", after `before`. -/
def verifications (before : List (Act E)) : List (Act E) → List (List (Act E))
  | [] => []
  | a :: acts => (if a matches .verify then [before] else []) ++ verifications (before ++ [a]) acts

/-- A request is right for what happened before : the token is that of the last answer, and has
not been dropped, and the code is the last full one of the input mounted since. -/
structure Paired (before : List (Act E)) (request : String × String) : Prop where
  token : held none (before.flatMap tokenEvents) = some request.1
  newest : (demanded before).getLast? = some request.1
  code : ∃ otp, run (OtpInput.step 6) (OtpInput.mount 6 none) (inputs before) = some otp ∧
    otp.completed.getLast? = some request.2
  digits : OtpInput.IsCode 6 request.2

theorem verifications_snoc (before acts : List (Act E)) (a : Act E) :
    verifications before (acts ++ [a]) = verifications before acts ++
      if a matches .verify then [before ++ acts] else [] := by
  induction acts generalizing before with
  | nil => simp [verifications]
  | cons b acts ih => simp [verifications, ih]

theorem inputs_snoc (acts : List (Act E)) (a : Act E) :
    inputs (acts ++ [a]) = inputsNext (inputs acts) a := by
  rw [inputs, List.foldl_append]
  rfl

/-- An event on the code input takes no call of `onComplete` back. -/
theorem otp_calls {s s' : OtpInput} {e : OtpInput.Event} (h : OtpInput.Cells 6 s.values)
    (hstep : OtpInput.step 6 s e = some s') :
    ∃ calls, s'.completed = s.completed ++ calls := by
  obtain ⟨-, hreports⟩ := OtpInput.step_spec h hstep
  by_cases hfull : e.Edits ∧ ∀ v ∈ s'.values, v ≠ ""
  · exact ⟨_, hreports.full hfull.1 hfull.2⟩
  · exact ⟨[], (hreports.otherwise hfull).trans (List.append_nil _).symm⟩

/-! ## What every act keeps -/

/-- A guard is held exactly while its request is in flight, and no login is while there is a
token. The token is what the answers and "Back" have left. The code input is mounted where there
is a token, has had the events since, and its last full code is the pending one. -/
structure Inv (acts : List (Act E)) (p : PlatformLoginForm) : Prop where
  login : p.loginsInFlight = p.isSubmitting.toNat
  challenge : p.challengesInFlight = p.isMfaSubmitting.toNat
  alone : p.mfaTempToken.isSome → p.loginsInFlight = 0
  token : p.mfaTempToken = held none (acts.flatMap tokenEvents)
  screen : p.otp.isSome = p.mfaTempToken.isSome
  input : ∀ otp, p.otp = some otp →
    run (OtpInput.step 6) (OtpInput.mount 6 none) (inputs acts) = some otp
  code : p.pendingMfaCode = p.otp.bind fun otp => otp.completed.getLast?
  requests : List.Forall₂ Paired (verifications [] acts) p.challenges

variable {acts : List (Act E)} {p p' : PlatformLoginForm} {a : Act E}

/-- An act that leaves the token, the code input and the requests alone. -/
theorem Inv.quiet (h : Inv acts p) (hlogin : p'.loginsInFlight = p'.isSubmitting.toNat)
    (hchallenge : p'.challengesInFlight = p'.isMfaSubmitting.toNat)
    (halone : p'.mfaTempToken.isSome → p'.loginsInFlight = 0)
    (hsame : p'.mfaTempToken = p.mfaTempToken ∧ p'.otp = p.otp ∧
      p'.pendingMfaCode = p.pendingMfaCode ∧ p'.challenges = p.challenges)
    (ha : tokenEvents a = [] ∧ inputsNext (inputs acts) a = inputs acts ∧
      (a matches .verify) = false) : Inv (acts ++ [a]) p' := by
  obtain ⟨htoken, hotp, hcode, hchallenges⟩ := hsame
  obtain ⟨hevents, hinputs, hverify⟩ := ha
  refine ⟨hlogin, hchallenge, halone, ?_, ?_, ?_, ?_, ?_⟩
  · rw [htoken, h.token, List.flatMap_append, held_append, List.flatMap_singleton, hevents]
    rfl
  · rw [hotp, htoken]
    exact h.screen
  · rw [hotp, inputs_snoc, hinputs]
    exact h.input
  · rw [hotp, hcode]
    exact h.code
  · rw [hchallenges, verifications_snoc, hverify]
    simpa using h.requests

/-- While a login is in flight there is no token. -/
theorem Inv.no_token (h : Inv acts p) (hpos : 0 < p.loginsInFlight) : p.mfaTempToken = none := by
  cases hsome : p.mfaTempToken with
  | none => rfl
  | some token => exact absurd (h.alone (by rw [hsome]; rfl)) hpos.ne'

/-- Without a token there is no code input, and no code is kept. -/
theorem Inv.no_input (h : Inv acts p) (htoken : p.mfaTempToken = none) :
    p.otp = none ∧ p.pendingMfaCode = none := by
  have hscreen := h.screen
  rw [htoken, Option.isSome_none, Option.isSome_eq_false_iff, Option.isNone_iff_eq_none]
    at hscreen
  refine ⟨hscreen, ?_⟩
  rw [h.code, hscreen]
  rfl

/-- The answer of a login that demands a challenge mounts the code input for its token. -/
theorem Inv.demand {lib : ClientErrors E} (h : Inv acts p) (hpos : 0 < p.loginsInFlight)
    (mfaTempToken : String) :
    Inv (acts ++ [.loginSettles (.ok (.challenge mfaTempToken true))])
      ({ p with loginsInFlight := p.loginsInFlight - 1 }.loginSettled lib
        (.ok (.challenge mfaTempToken true))) := by
  obtain ⟨hotp, hcode⟩ := h.no_input (h.no_token hpos)
  have hzero : p.loginsInFlight - 1 = 0 := flight_settled h.login
  refine
    { login := hzero
      challenge := h.challenge
      alone := fun _ => hzero
      token := ?_
      screen := by simp [loginSettled, hotp]
      input := fun otp hmounted => ?_
      code := by simp [loginSettled, hotp, hcode, OtpInput.mount]
      requests := ?_ }
  · rw [List.flatMap_append, held_append]
    rfl
  · simp only [loginSettled, hotp, Option.none_or, Option.some_inj] at hmounted
    rw [inputs_snoc, ← hmounted]
    rfl
  · rw [verifications_snoc]
    simpa [loginSettled] using h.requests

theorem Inv.loginSettles {lib : ClientErrors E} {outcome : Except (Thrown E) LoginResult}
    (h : Inv acts p) (hstep : p.next lib (.loginSettles outcome) = some p') :
    Inv (acts ++ [.loginSettles outcome]) p' := by
  obtain ⟨hpos, rfl⟩ := enabled_iff.1 hstep
  have hzero : p.loginsInFlight - 1 = 0 := flight_settled h.login
  rcases outcome with err | (_ | ⟨mfaTempToken, _ | _⟩)
  · exact h.quiet hzero h.challenge (fun _ => hzero) ⟨rfl, rfl, rfl, rfl⟩ ⟨rfl, rfl, rfl⟩
  · exact h.quiet hzero h.challenge (fun _ => hzero) ⟨rfl, rfl, rfl, rfl⟩ ⟨rfl, rfl, rfl⟩
  · exact h.quiet hzero h.challenge (fun _ => hzero) ⟨rfl, rfl, rfl, rfl⟩ ⟨rfl, rfl, rfl⟩
  · exact h.demand hpos mfaTempToken

/-- The pending code is the last full one of the input, also after an event on it. -/
theorem Inv.otp {lib : ClientErrors E} {event : OtpInput.Event} (h : Inv acts p)
    (hstep : p.next lib (.otp event) = some p') : Inv (acts ++ [.otp event]) p' := by
  simp only [PlatformLoginForm.next, Option.bind_eq_bind, Option.bind_eq_some_iff] at hstep
  obtain ⟨otp, hotp, otp', hevent, hstep⟩ := hstep
  cases hstep
  have hrun := h.input otp hotp
  obtain ⟨calls, hcalls⟩ := otp_calls (OtpInput.run_spec hrun).1 hevent
  have hscreen := h.screen
  have hcode := h.code
  rw [hotp] at hscreen hcode
  refine ⟨h.login, h.challenge, h.alone, ?_, hscreen, ?_, ?_, ?_⟩
  · rw [List.flatMap_append, held_append]
    exact h.token
  · rintro _ ⟨rfl⟩
    rw [inputs_snoc]
    exact run_snoc.2 ⟨otp, hrun, hevent⟩
  · simp [otpEvent, hcalls, hcode, List.getLast?_append]
  · rw [verifications_snoc]
    simpa [otpEvent] using h.requests

/-- The token and the code of a page are right for what happened. -/
theorem Inv.paired {token code : String} (h : Inv acts p) (htoken : p.mfaTempToken = some token)
    (hcode : p.pendingMfaCode = some code) : Paired acts (token, code) := by
  have hlast := h.code
  rw [hcode] at hlast
  obtain ⟨otp, hotp, hlast⟩ := Option.bind_eq_some_iff.1 hlast.symm
  have hrun := h.input otp hotp
  have hheld := h.token.symm.trans htoken
  exact ⟨hheld, getLast?_puts hheld, ⟨otp, hrun, hlast⟩,
    (OtpInput.run_spec hrun).2 code (List.mem_of_getLast? hlast)⟩

/-- A click on "Verify" sends the token with the code. -/
theorem verify_eq_some {lib : ClientErrors E} (h : p.next lib .verify = some p') :
    p.isMfaSubmitting = false ∧ ∃ token code, p.mfaTempToken = some token ∧
      p.pendingMfaCode = some code ∧ p' = { p with
        errorCode := none
        isMfaSubmitting := true
        challenges := p.challenges ++ [(token, code)]
        challengesInFlight := p.challengesInFlight + 1 } := by
  obtain ⟨⟨hsome, hfull, hfree⟩, rfl⟩ := enabled_iff.1 h
  obtain ⟨token, htoken⟩ := Option.isSome_iff_exists.1 hsome
  obtain ⟨code, hcode⟩ := Option.isSome_iff_exists.1 hfull
  refine ⟨hfree, token, code, htoken, hcode, ?_⟩
  simp [htoken, hcode, awaiting]

theorem Inv.verify {lib : ClientErrors E} (h : Inv acts p)
    (hstep : p.next lib .verify = some p') : Inv (acts ++ [.verify]) p' := by
  obtain ⟨hfree, token, code, htoken, hcode, rfl⟩ := verify_eq_some hstep
  refine ⟨h.login, flight_taken h.challenge hfree, h.alone, ?_, h.screen, ?_, h.code, ?_⟩
  · rw [List.flatMap_append, held_append]
    exact h.token
  · rw [inputs_snoc]
    exact h.input
  · rw [verifications_snoc]
    exact List.rel_append h.requests (.cons (h.paired htoken hcode) .nil)

theorem Inv.back {lib : ClientErrors E} (h : Inv acts p) (hstep : p.next lib .back = some p') :
    Inv (acts ++ [.back]) p' := by
  obtain ⟨-, rfl⟩ := enabled_iff.1 hstep
  refine ⟨h.login, h.challenge, nofun, ?_, rfl, nofun, rfl, ?_⟩
  · rw [List.flatMap_append, held_append]
    rfl
  · rw [verifications_snoc]
    simpa [PlatformLoginForm.back] using h.requests

theorem Inv.next {lib : ClientErrors E} (h : Inv acts p) (hstep : p.next lib a = some p') :
    Inv (acts ++ [a]) p' := by
  cases a with
  | typeEmail email =>
    obtain ⟨-, rfl⟩ := enabled_iff.1 hstep
    exact h.quiet h.login h.challenge h.alone ⟨rfl, rfl, rfl, rfl⟩ ⟨rfl, rfl, rfl⟩
  | typePassword password =>
    obtain ⟨-, rfl⟩ := enabled_iff.1 hstep
    exact h.quiet h.login h.challenge h.alone ⟨rfl, rfl, rfl, rfl⟩ ⟨rfl, rfl, rfl⟩
  | login =>
    obtain ⟨⟨htoken, hfree⟩, rfl⟩ := enabled_iff.1 hstep
    refine h.quiet (flight_taken h.login hfree) h.challenge (fun hsome => ?_)
      ⟨rfl, rfl, rfl, rfl⟩ ⟨rfl, rfl, rfl⟩
    simp [htoken] at hsome
  | loginSettles outcome => exact h.loginSettles hstep
  | otp event => exact h.otp hstep
  | verify => exact h.verify hstep
  | challengeSettles outcome =>
    obtain ⟨-, rfl⟩ := enabled_iff.1 hstep
    have hzero : p.challengesInFlight - 1 = 0 := flight_settled h.challenge
    cases outcome <;>
      exact h.quiet h.login hzero h.alone ⟨rfl, rfl, rfl, rfl⟩ ⟨rfl, rfl, rfl⟩
  | back => exact h.back hstep

theorem inv_run {lib : ClientErrors E} (h : run (next lib) {} acts = some p) : Inv acts p :=
  run_induction (P := fun acts p => Inv acts p)
    ⟨rfl, rfl, by simp, rfl, rfl, by simp, rfl, .nil⟩ (fun _ _ _ _ _ h hstep => h.next hstep) h

/-- Over every order of handlers, settled requests and events on the code input, each click on
"Verify" sends one request, the token of the last answer with the last full code of the input
mounted since, and nothing else sends one. One login and one challenge at most are in flight, no
login while there is a token, and no code is kept without one. -/
theorem challenges_paired {lib : ClientErrors E} (h : run (next lib) {} acts = some p) :
    List.Forall₂ Paired (verifications [] acts) p.challenges ∧
      p.loginsInFlight ≤ 1 ∧ p.challengesInFlight ≤ 1 ∧
      (p.mfaTempToken.isSome → p.loginsInFlight = 0) ∧
      (p.mfaTempToken = none → p.pendingMfaCode = none) := by
  have hinv := inv_run h
  exact ⟨hinv.requests, flight_le_one hinv.login, flight_le_one hinv.challenge, hinv.alone,
    fun htoken => (hinv.no_input htoken).2⟩

/-- A challenge that is left in flight for another login, and fails on the screen of the next. -/
def backAndAgain : List (Act (String × ℕ × Option AuthErrorResponse)) :=
  [.login, .loginSettles (.ok (.challenge "t1" true)), .otp (.paste "111111"), .verify, .back,
    .login, .loginSettles (.ok (.challenge "t2" true)), .otp (.paste "222222"),
    .challengeSettles (.error .fetch), .verify]

theorem challenges_paired_backAndAgain : ∃ p, run (next plainErrors) {} backAndAgain = some p ∧
    p.challenges = [("t1", "111111"), ("t2", "222222")] ∧
    List.Forall₂ Paired (verifications [] backAndAgain) p.challenges := by
  have hrun : run (next plainErrors) {} backAndAgain = some _ := rfl
  exact ⟨_, hrun, rfl, (challenges_paired hrun).1⟩

end PlatformLoginForm

end AuthExample
