import AuthExample.Handoff
import AuthExample.SingleFlight

/-!
# The pages of a tab

The login page hands the token of an MFA challenge to the challenge page, and the
forgot-password page hands its verified token to the reset page, each through a slot of the
module that is read once. All four pages run here in one tab, mounted and left in any order, with
every request in flight.

`handoffs` : in every run a token is sent by one page only, and only where a response of this
tab had handed it over; a page opened without one sends nothing, and a page opened with one has
the newest.
-/

namespace AuthExample

open Runs Handoff

variable {E : Type}

/-! ## The login page -/

/-- The values of `TENANT_OPTIONS`, the workspaces of the picker. -/
def tenantOptions : List String := ["acme", "globex"]

/-- `DEFAULT_TENANT`. -/
def defaultTenant : String := "acme"

/-- What `login` resolves with. -/
inductive LoginResult where
  | session
  | challenge (mfaTempToken : String) (mfaRequired : Bool)

/-- What the page sends. -/
structure LoginRequest where
  email : String
  password : String
  tenantId : String

/-- The page : the `tenant` query parameter and its state, where the router was sent, the
requests issued, and how many are in flight. -/
structure LoginPage where
  rawTenantId : String
  email : String := ""
  password : String := ""
  errorCode : Option String := none
  isSubmitting : Bool := false
  pushed : List String := []
  requests : List LoginRequest := []
  inFlight : ℕ := 0

namespace LoginPage

/-- An unknown tenant is the default one. -/
def tenantId (p : LoginPage) : String :=
  if p.rawTenantId ∈ tenantOptions then p.rawTenantId else defaultTenant

/-- `onSubmit` up to its request. -/
def onSubmit (p : LoginPage) : LoginPage × LoginRequest :=
  ({ p with errorCode := none, isSubmitting := true }, ⟨p.email, p.password, p.tenantId⟩)

/-- `onSubmit` once its request settles, with what the slot of the challenge holds then. -/
def settled (lib : ClientErrors E) (outcome : Except (Thrown E) LoginResult)
    (pending : Option String) (p : LoginPage) : Option String × LoginPage :=
  let p := { p with isSubmitting := false }
  match outcome with
  | .ok (.challenge mfaTempToken true) =>
    (some mfaTempToken, { p with pushed := p.pushed ++ ["/auth/mfa-challenge"] })
  | .ok _ => (pending, { p with pushed := p.pushed ++ ["/dashboard"] })
  | .error err => (pending, { p with errorCode := some (codeOf lib err) })

/-- What happens : the visitor types, the query parameter changes, the form is submitted, or its
request settles. -/
inductive Act (E : Type) where
  | typeEmail (email : String)
  | typePassword (password : String)
  | setTenantId (rawTenantId : String)
  | submit
  | settles (outcome : Except (Thrown E) LoginResult)

/-- The button is disabled while the page submits. What settles is no longer in flight, whatever
the handler makes of it. -/
def next (lib : ClientErrors E) (pending : Option String) (p : LoginPage) :
    Act E → Option (Option String × LoginPage)
  | .typeEmail email => some (pending, { p with email })
  | .typePassword password => some (pending, { p with password })
  | .setTenantId rawTenantId => some (pending, { p with rawTenantId })
  | .submit =>
    if p.isSubmitting = false then
      let (p, request) := p.onSubmit
      some (pending, { p with requests := p.requests ++ [request], inFlight := p.inFlight + 1 })
    else none
  | .settles outcome =>
    if 0 < p.inFlight then
      some ({ p with inFlight := p.inFlight - 1 }.settled lib outcome pending)
    else none

end LoginPage

/-! ## The reset-password page -/

/-- What the page sends. -/
structure ResetPasswordRequest where
  email : String
  tenantId : String
  newPassword : String
  verifiedToken : String

/-- The page : the `tenant` query parameter, the token it has taken on its mount, its state,
where the router was sent, the requests issued, and how many are in flight. -/
structure ResetPasswordPage where
  rawTenantId : String
  verifiedToken : Option String
  email : String := ""
  newPassword : String := ""
  errorCode : Option String := none
  isSubmitting : Bool := false
  pushed : List String := []
  requests : List ResetPasswordRequest := []
  inFlight : ℕ := 0

namespace ResetPasswordPage

/-- A malformed tenant slug is the default one. -/
def tenantId (p : ResetPasswordPage) : String :=
  if tenantIdRe.test p.rawTenantId then p.rawTenantId else "acme"

/-- `onSubmit` up to its request, if it makes one. -/
def onSubmit (p : ResetPasswordPage) : ResetPasswordPage × Option ResetPasswordRequest :=
  match p.verifiedToken with
  | none => (p, none)
  | some verifiedToken =>
    ({ p with errorCode := none, isSubmitting := true },
      some ⟨p.email, p.tenantId, p.newPassword, verifiedToken⟩)

/-- `onSubmit` once its request settles. -/
def settled (lib : ClientErrors E) (outcome : Except (Thrown E) Unit) (p : ResetPasswordPage) :
    ResetPasswordPage :=
  let p := { p with isSubmitting := false }
  match outcome with
  | .ok () => { p with pushed := p.pushed ++ ["/auth/login"] }
  | .error err => { p with errorCode := some (codeOf lib err) }

/-- What happens : the visitor types, the form is submitted, or its request settles. -/
inductive Act (E : Type) where
  | typeEmail (email : String)
  | typePassword (newPassword : String)
  | submit
  | settles (outcome : Except (Thrown E) Unit)

/-- What `onSubmit` awaits is in flight. -/
def awaiting (p : ResetPasswordPage) : Option ResetPasswordRequest → ResetPasswordPage
  | some request => { p with requests := p.requests ++ [request], inFlight := p.inFlight + 1 }
  | none => p

/-- The form is rendered where there is a token, its button disabled while the page submits. -/
def next (lib : ClientErrors E) (p : ResetPasswordPage) : Act E → Option ResetPasswordPage
  | .typeEmail email => if p.verifiedToken.isSome then some { p with email } else none
  | .typePassword newPassword =>
    if p.verifiedToken.isSome then some { p with newPassword } else none
  | .submit =>
    if p.verifiedToken.isSome ∧ p.isSubmitting = false then
      let (p, request) := p.onSubmit
      some (p.awaiting request)
    else none
  | .settles outcome =>
    if 0 < p.inFlight then some ({ p with inFlight := p.inFlight - 1 }.settled lib outcome)
    else none

end ResetPasswordPage

/-! ## The tab -/

/-- The slots of the two stores, and the pages that were ever mounted. -/
structure Tab where
  pendingMfaTempToken : Option String := none
  pendingVerifiedToken : Option String := none
  logins : List LoginPage := []
  challenges : List MfaChallengePage := []
  forgots : List ForgotPasswordPage := []
  resets : List ResetPasswordPage := []

namespace Tab

/-- What happens : a page is mounted, or something happens to the page of a number. -/
inductive Act (E : Type) where
  | openLogin (rawTenantId : String)
  | login (i : ℕ) (act : LoginPage.Act E)
  | openChallenge
  | challenge (i : ℕ) (act : MfaChallengePage.Act E)
  | openForgot (rawTenantId : String)
  | forgot (i : ℕ) (act : ForgotPasswordPage.Act E)
  | openReset (rawTenantId : String)
  | reset (i : ℕ) (act : ResetPasswordPage.Act E)

/-- A challenge page and a reset page take what their slot holds when they are mounted. The
forgot-password page has the slot of the verified token as its holder. -/
def step (lib : ClientErrors E) (t : Tab) : Act E → Option Tab
  | .openLogin rawTenantId => some { t with logins := t.logins ++ [{ rawTenantId }] }
  | .login i act => do
    let p ← t.logins[i]?
    let (pendingMfaTempToken, p) ← p.next lib t.pendingMfaTempToken act
    return { t with pendingMfaTempToken, logins := t.logins.set i p }
  | .openChallenge =>
    some { t with
      pendingMfaTempToken := none
      challenges := t.challenges ++ [{ tempToken := t.pendingMfaTempToken }] }
  | .challenge i act => do
    let p ← t.challenges[i]?
    let p ← p.next lib act
    return { t with challenges := t.challenges.set i p }
  | .openForgot rawTenantId => some { t with forgots := t.forgots ++ [{ rawTenantId }] }
  | .forgot i act => do
    let p ← t.forgots[i]?
    let p ← ForgotPasswordPage.next lib { p with resetVerifiedToken := t.pendingVerifiedToken } act
    return { t with pendingVerifiedToken := p.resetVerifiedToken, forgots := t.forgots.set i p }
  | .openReset rawTenantId =>
    some { t with
      pendingVerifiedToken := none
      resets := t.resets ++ [{ rawTenantId, verifiedToken := t.pendingVerifiedToken }] }
  | .reset i act => do
    let p ← t.resets[i]?
    let p ← p.next lib act
    return { t with resets := t.resets.set i p }

/-! ## What happens to the slots -/

/-- The verified token of a response's body. -/
def verifiedToken (res : Response) : Option String :=
  res.json.bind fun body => (body.get? "verifiedToken").bind Json.str?

/-- What an act does to the slot of the challenge. -/
def mfaEvents : Act E → List (Event String)
  | .login _ (.settles (.ok (.challenge mfaTempToken true))) => [.put mfaTempToken]
  | .openChallenge => [.take]
  | _ => []

/-- What an act does to the slot of the verified token. -/
def resetEvents : Act E → List (Event String)
  | .forgot _ (.otpSettles (.ok res)) => (verifiedToken res).toList.map .put
  | .openReset _ => [.take]
  | _ => []

end Tab

/-- The slot of the challenge after something happens to a login page. -/
theorem LoginPage.next_pending {lib : ClientErrors E} {pending pending' : Option String}
    {p p' : LoginPage} {a : Act E} (h : p.next lib pending a = some (pending', p')) (i : ℕ) :
    pending' = held pending (Tab.mfaEvents (.login i a)) := by
  cases a with
  | settles outcome =>
    obtain ⟨-, he⟩ := enabled_iff.1 h
    rcases outcome with err | (_ | ⟨mfaTempToken, _ | _⟩) <;> cases he <;> rfl
  | submit =>
    obtain ⟨-, he⟩ := enabled_iff.1 h
    cases he
    rfl
  | _ =>
    cases h
    rfl

/-- Every login is for a workspace of the picker. -/
theorem LoginPage.next_requests {lib : ClientErrors E} {pending pending' : Option String}
    {p p' : LoginPage} {a : Act E} (h : p.next lib pending a = some (pending', p'))
    (hp : ∀ r ∈ p.requests, r.tenantId ∈ tenantOptions) :
    ∀ r ∈ p'.requests, r.tenantId ∈ tenantOptions := by
  cases a with
  | settles outcome =>
    obtain ⟨-, he⟩ := enabled_iff.1 h
    rcases outcome with err | (_ | ⟨mfaTempToken, _ | _⟩) <;> cases he <;> exact hp
  | submit =>
    obtain ⟨-, he⟩ := enabled_iff.1 h
    cases he
    intro r hr
    rcases List.mem_append.1 hr with hr | hr
    · exact hp r hr
    · obtain rfl := List.mem_singleton.1 hr
      show p.tenantId ∈ tenantOptions
      unfold tenantId
      split_ifs with hknown
      · exact hknown
      · decide
  | _ =>
    cases h
    exact hp

/-- A challenge page sends the token it was mounted with. -/
theorem MfaChallengePage.next_sent {lib : ClientErrors E} {p p' : MfaChallengePage} {a : Act E}
    (h : p.next lib a = some p') (hp : ∀ r ∈ p.requests, p.tempToken = some r.1) :
    p'.tempToken = p.tempToken ∧ ∀ r ∈ p'.requests, p'.tempToken = some r.1 := by
  cases a with
  | complete totp =>
    rcases complete_cases h with rfl | ⟨tempToken, htoken, -, -, rfl⟩
    · exact ⟨rfl, hp⟩
    · refine ⟨rfl, fun r hr => ?_⟩
      rcases List.mem_append.1 hr with hr | hr
      · exact hp r hr
      · obtain rfl := List.mem_singleton.1 hr
        exact htoken
  | challengeSettles outcome =>
    obtain ⟨-, rfl⟩ := enabled_iff.1 h
    cases outcome <;> exact ⟨rfl, hp⟩
  | refreshSettles outcome =>
    obtain ⟨-, rfl⟩ := enabled_iff.1 h
    cases outcome <;> exact ⟨rfl, hp⟩
  | expire =>
    obtain ⟨-, rfl⟩ := enabled_iff.1 h
    exact ⟨rfl, hp⟩
  | commit =>
    cases h
    exact ⟨rfl, hp⟩

theorem ResetPasswordPage.submit_eq_some {lib : ClientErrors E} {p p' : ResetPasswordPage}
    (h : p.next lib .submit = some p') :
    ∃ token, p.verifiedToken = some token ∧ p' = { p with
      errorCode := none
      isSubmitting := true
      requests := p.requests ++ [⟨p.email, p.tenantId, p.newPassword, token⟩]
      inFlight := p.inFlight + 1 } := by
  obtain ⟨⟨hsome, -⟩, rfl⟩ := enabled_iff.1 h
  obtain ⟨token, htoken⟩ := Option.isSome_iff_exists.1 hsome
  exact ⟨token, htoken, by simp [htoken, awaiting]⟩

/-- A reset page sends the token it was mounted with. -/
theorem ResetPasswordPage.next_sent {lib : ClientErrors E} {p p' : ResetPasswordPage} {a : Act E}
    (h : p.next lib a = some p')
    (hp : ∀ r ∈ p.requests, p.verifiedToken = some r.verifiedToken) :
    p'.verifiedToken = p.verifiedToken ∧
      ∀ r ∈ p'.requests, p'.verifiedToken = some r.verifiedToken := by
  cases a with
  | submit =>
    obtain ⟨token, htoken, rfl⟩ := submit_eq_some h
    refine ⟨rfl, fun r hr => ?_⟩
    rcases List.mem_append.1 hr with hr | hr
    · exact hp r hr
    · obtain rfl := List.mem_singleton.1 hr
      exact htoken
  | settles outcome =>
    obtain ⟨-, rfl⟩ := enabled_iff.1 h
    cases outcome <;> exact ⟨rfl, hp⟩
  | _ =>
    obtain ⟨-, rfl⟩ := enabled_iff.1 h
    exact ⟨rfl, hp⟩

/-- The holder of the verified token after something happens to a forgot-password page. -/
theorem ForgotPasswordPage.next_holder {lib : ClientErrors E} {p p' : ForgotPasswordPage}
    {a : Act E} (h : p.next lib a = some p') (i : ℕ) :
    p'.resetVerifiedToken = held p.resetVerifiedToken (Tab.resetEvents (.forgot i a)) := by
  cases a with
  | complete otp =>
    rcases complete_cases h with rfl | ⟨-, rfl⟩ <;> rfl
  | otpSettles outcome =>
    obtain ⟨-, rfl⟩ := enabled_iff.1 h
    cases outcome with
    | error err => rfl
    | ok res =>
      simp only [otpSettled, Tab.resetEvents, Tab.verifiedToken]
      cases res.json with
      | none => rfl
      | some body =>
        simp only [Option.bind_some]
        cases (body.get? "verifiedToken").bind Json.str? <;> rfl
  | emailSettles outcome =>
    obtain ⟨-, rfl⟩ := enabled_iff.1 h
    unfold emailSettled
    rcases outcome with (_ | _ | _ | _) | _ <;> rfl
  | _ =>
    obtain ⟨-, rfl⟩ := enabled_iff.1 h
    rfl

namespace Tab

variable {lib : ClientErrors E}

/-- The tab's slots and pages are as the acts have left them : the slots hold what the events of
the acts leave in them, the pages of each kind have in turn what the takes returned, and every
page sends its own token. -/
structure Tracks (acts : List (Act E)) (t : Tab) : Prop where
  mfaHeld : t.pendingMfaTempToken = held none (acts.flatMap mfaEvents)
  mfaTaken : t.challenges.map MfaChallengePage.tempToken = taken none (acts.flatMap mfaEvents)
  mfaSent : ∀ p ∈ t.challenges, ∀ r ∈ p.requests, p.tempToken = some r.1
  resetHeld : t.pendingVerifiedToken = held none (acts.flatMap resetEvents)
  resetTaken : t.resets.map ResetPasswordPage.verifiedToken =
    taken none (acts.flatMap resetEvents)
  resetSent : ∀ p ∈ t.resets, ∀ r ∈ p.requests, p.verifiedToken = some r.verifiedToken
  tenants : ∀ p ∈ t.logins, ∀ r ∈ p.requests, r.tenantId ∈ tenantOptions

/-- A page's own value stays where something happens to the page. -/
theorem map_set {P β : Type*} {f : P → β} {l : List P} {i : ℕ} {p p' : P} (hp : l[i]? = some p)
    (hf : f p' = f p) : (l.set i p').map f = l.map f := by
  rw [List.map_set, hf]
  refine List.ext_getElem? fun j => ?_
  rw [List.getElem?_set]
  split_ifs with hj hlt
  · subst hj
    rw [List.getElem?_map, hp]
    rfl
  · subst hj
    rw [List.length_map, not_lt] at hlt
    rw [List.getElem?_eq_none hlt] at hp
    cases hp
  · rfl

/-- What holds of every page holds after something happens to one. -/
theorem forall_set {P : Type*} {q : P → Prop} {l : List P} {i : ℕ} {p' : P}
    (hl : ∀ p ∈ l, q p) (hp' : q p') : ∀ p ∈ l.set i p', q p := by
  intro p hp
  rcases List.mem_or_eq_of_mem_set hp with hmem | rfl
  · exact hl p hmem
  · exact hp'

/-- And after another is mounted. -/
theorem forall_append {P : Type*} {q : P → Prop} {l : List P} {p' : P}
    (hl : ∀ p ∈ l, q p) (hp' : q p') : ∀ p ∈ l ++ [p'], q p := by
  intro p hp
  rcases List.mem_append.1 hp with hmem | hmem
  · exact hl p hmem
  · exact List.mem_singleton.1 hmem ▸ hp'

/-- A login page takes nothing. -/
theorem taken_login (slot : Option String) (i : ℕ) (act : LoginPage.Act E) :
    taken slot (mfaEvents (.login i act)) = [] := by
  rcases act with _ | _ | _ | _ | (err | (_ | ⟨mfaTempToken, _ | _⟩)) <;> rfl

/-- Nor does a forgot-password page. -/
theorem taken_forgot (slot : Option String) (i : ℕ) (act : ForgotPasswordPage.Act E) :
    taken slot (resetEvents (.forgot i act)) = [] := by
  cases act with
  | otpSettles outcome =>
    cases outcome with
    | error err => rfl
    | ok res =>
      simp only [resetEvents]
      cases verifiedToken res <;> rfl
  | _ => rfl

/-- What one more act has to do. -/
theorem Tracks.snoc {acts : List (Act E)} {t t' : Tab} {a : Act E} (h : Tracks acts t)
    (mfaHeld : t'.pendingMfaTempToken = held t.pendingMfaTempToken (mfaEvents a))
    (mfaTaken : t'.challenges.map MfaChallengePage.tempToken =
      t.challenges.map MfaChallengePage.tempToken ++ taken t.pendingMfaTempToken (mfaEvents a))
    (mfaSent : ∀ p ∈ t'.challenges, ∀ r ∈ p.requests, p.tempToken = some r.1)
    (resetHeld : t'.pendingVerifiedToken = held t.pendingVerifiedToken (resetEvents a))
    (resetTaken : t'.resets.map ResetPasswordPage.verifiedToken =
      t.resets.map ResetPasswordPage.verifiedToken ++
        taken t.pendingVerifiedToken (resetEvents a))
    (resetSent : ∀ p ∈ t'.resets, ∀ r ∈ p.requests, p.verifiedToken = some r.verifiedToken)
    (tenants : ∀ p ∈ t'.logins, ∀ r ∈ p.requests, r.tenantId ∈ tenantOptions) :
    Tracks (acts ++ [a]) t' := by
  refine ⟨?_, ?_, mfaSent, ?_, ?_, resetSent, tenants⟩
  · rw [mfaHeld, h.mfaHeld, List.flatMap_append, held_append, List.flatMap_singleton]
  · rw [mfaTaken, h.mfaTaken, h.mfaHeld, List.flatMap_append, taken_append,
      List.flatMap_singleton]
  · rw [resetHeld, h.resetHeld, List.flatMap_append, held_append, List.flatMap_singleton]
  · rw [resetTaken, h.resetTaken, h.resetHeld, List.flatMap_append, taken_append,
      List.flatMap_singleton]

theorem Tracks.next {acts : List (Act E)} {t t' : Tab} {a : Act E} (h : Tracks acts t)
    (hstep : t.step lib a = some t') : Tracks (acts ++ [a]) t' := by
  have hnil {β : Type} (l : List β) : l = l ++ [] := (List.append_nil l).symm
  cases a with
  | openLogin rawTenantId =>
    cases hstep
    exact h.snoc rfl (hnil _) h.mfaSent rfl (hnil _) h.resetSent
      (forall_append h.tenants (by simp))
  | login i act =>
    simp only [step, Option.bind_eq_bind, Option.bind_eq_some_iff] at hstep
    obtain ⟨p, hp, ⟨pending, p'⟩, hnext, hstep⟩ := hstep
    cases hstep
    refine h.snoc (LoginPage.next_pending hnext i) ?_ h.mfaSent rfl (hnil _) h.resetSent
      (forall_set h.tenants (LoginPage.next_requests hnext
        (h.tenants p (List.mem_of_getElem? hp))))
    rw [taken_login]
    exact hnil _
  | openChallenge =>
    cases hstep
    refine h.snoc rfl ?_ (forall_append h.mfaSent (by simp)) rfl (hnil _) h.resetSent h.tenants
    rw [List.map_append]
    rfl
  | challenge i act =>
    simp only [step, Option.bind_eq_bind, Option.bind_eq_some_iff] at hstep
    obtain ⟨p, hp, p', hnext, hstep⟩ := hstep
    cases hstep
    obtain ⟨htoken, hsent⟩ := MfaChallengePage.next_sent hnext
      (h.mfaSent p (List.mem_of_getElem? hp))
    exact h.snoc rfl ((map_set hp htoken).trans (hnil _)) (forall_set h.mfaSent hsent) rfl (hnil _)
      h.resetSent h.tenants
  | openForgot rawTenantId =>
    cases hstep
    exact h.snoc rfl (hnil _) h.mfaSent rfl (hnil _) h.resetSent h.tenants
  | forgot i act =>
    simp only [step, Option.bind_eq_bind, Option.bind_eq_some_iff] at hstep
    obtain ⟨p, hp, p', hnext, hstep⟩ := hstep
    cases hstep
    refine h.snoc rfl (hnil _) h.mfaSent (ForgotPasswordPage.next_holder hnext i) ?_ h.resetSent
      h.tenants
    rw [taken_forgot]
    exact hnil _
  | openReset rawTenantId =>
    cases hstep
    refine h.snoc rfl (hnil _) h.mfaSent rfl ?_ (forall_append h.resetSent (by simp)) h.tenants
    rw [List.map_append]
    rfl
  | reset i act =>
    simp only [step, Option.bind_eq_bind, Option.bind_eq_some_iff] at hstep
    obtain ⟨p, hp, p', hnext, hstep⟩ := hstep
    cases hstep
    obtain ⟨htoken, hsent⟩ := ResetPasswordPage.next_sent hnext
      (h.resetSent p (List.mem_of_getElem? hp))
    exact h.snoc rfl (hnil _) h.mfaSent rfl ((map_set hp htoken).trans (hnil _))
      (forall_set h.resetSent hsent) h.tenants

theorem tracks_run {acts : List (Act E)} {t : Tab} (h : run (step lib) {} acts = some t) :
    Tracks acts t := by
  have hstart : Tracks ([] : List (Act E)) {} := ⟨rfl, rfl, by simp, rfl, rfl, by simp, by simp⟩
  exact run_induction (P := fun acts t => Tracks acts t) hstart
    (fun _ _ _ _ _ h hstep => h.next hstep) h

/-- The tokens of the responses that demanded a challenge. -/
def demanded (acts : List (Act E)) : List String := puts (acts.flatMap mfaEvents)

/-- The verified tokens of the responses to a code. -/
def verified (acts : List (Act E)) : List String := puts (acts.flatMap resetEvents)

/-- What a run of the tab keeps. Challenge pages hold in turn what the takes of their slot
return, so the tokens they hold, and the one that waits, are tokens of responses, each for one
page and in their order; so do the reset pages. Every request of a page has the token of the
page, and every login is for a workspace of the picker. -/
structure HandedOver (acts : List (Act E)) (t : Tab) : Prop where
  challengePages : t.challenges.map MfaChallengePage.tempToken =
    taken none (acts.flatMap mfaEvents)
  resetPages : t.resets.map ResetPasswordPage.verifiedToken =
    taken none (acts.flatMap resetEvents)
  challengeTokens : ((t.challenges.map MfaChallengePage.tempToken).reduceOption ++
    t.pendingMfaTempToken.toList).Sublist (demanded acts)
  resetTokens : ((t.resets.map ResetPasswordPage.verifiedToken).reduceOption ++
    t.pendingVerifiedToken.toList).Sublist (verified acts)
  newestChallenge : ∀ token, t.pendingMfaTempToken = some token →
    (demanded acts).getLast? = some token
  newestReset : ∀ token, t.pendingVerifiedToken = some token →
    (verified acts).getLast? = some token
  challengeRequests : ∀ p ∈ t.challenges, ∀ r ∈ p.requests, p.tempToken = some r.1
  resetRequests : ∀ p ∈ t.resets, ∀ r ∈ p.requests, p.verifiedToken = some r.verifiedToken
  loginRequests : ∀ p ∈ t.logins, ∀ r ∈ p.requests, r.tenantId ∈ tenantOptions

/-- Over every order of mounts, handlers and settled requests, on any number of pages of each
kind, tokens are handed over : each of a response of this tab, to one page at most, the newest
to the page mounted next, and sent by that page only. -/
theorem handoffs {acts : List (Act E)} {t : Tab} (h : run (step lib) {} acts = some t) :
    HandedOver acts t := by
  have htracks := tracks_run h
  refine ⟨htracks.mfaTaken, htracks.resetTaken, ?_, ?_, fun token hp => ?_, fun token hp => ?_,
    htracks.mfaSent, htracks.resetSent, htracks.tenants⟩
  · rw [htracks.mfaTaken, htracks.mfaHeld]
    exact taken_sublist none _
  · rw [htracks.resetTaken, htracks.resetHeld]
    exact taken_sublist none _
  · exact getLast?_puts (htracks.mfaHeld.symm.trans hp)
  · exact getLast?_puts (htracks.resetHeld.symm.trans hp)

/-- The answer to a code that is right. -/
def verifiedResponse : Response where
  status := 200
  statusText := "OK"
  json := some (.obj [("verifiedToken", .str "v1")])

/-- A login that demands a challenge, and a visitor who opens the challenge page twice; then a
code that is verified, and the reset page twice. -/
def twoChallenges : List (Act (String × ℕ × Option AuthErrorResponse)) :=
  [.openLogin "acme", .login 0 .submit, .login 0 (.settles (.ok (.challenge "t1" true))),
    .openChallenge, .openChallenge, .challenge 0 (.complete "123456"), .openForgot "globex",
    .forgot 0 (.type "user@example.test"), .forgot 0 .submit, .forgot 0 (.emailSettles (.ok ())),
    .forgot 0 (.complete "654321"), .forgot 0 (.otpSettles (.ok verifiedResponse)),
    .openReset "globex", .reset 0 .submit, .openReset "globex"]

theorem handoffs_twoChallenges : ∃ t, run (step plainErrors) {} twoChallenges = some t ∧
    t.challenges.map MfaChallengePage.tempToken = [some "t1", none] ∧
    t.resets.map (fun p => p.requests.map ResetPasswordRequest.verifiedToken) = [["v1"], []] ∧
    HandedOver twoChallenges t := by
  have hrun : run (step plainErrors) {} twoChallenges = some _ := rfl
  exact ⟨_, hrun, rfl, rfl, handoffs hrun⟩

end Tab

end AuthExample
