import AuthExample.AuditLog
import Mathlib.Data.List.Forall2

/-!
# The lifecycle hooks

`AuditAuthHooks` writes one masked audit row for each auth event, broadcasts a frame for
each new session, and decides OAuth logins. Every hook goes through `record`, whose
insert may fail : a failed insert is the hook's error, except in `on_oauth_login`, which
logs it and returns its decision.

A hook here is a function of the outcome of its insert and of the `Sink`, the rows and
frames written so far. `runCalls_exact` describes any sequence of calls by what each one
writes, broadcasts and returns, none of which reads a session, an evicted hash or an
OAuth profile.
-/

namespace AuthExample

/-! ## What the library hands over -/

/-- `HookContext` : the request a hook runs in. -/
structure HookContext where
  userId : Option String
  email : Option String
  tenantId : Option String
  ip : String
  userAgent : String
  sanitizedHeaders : List (String × String)

/-- `SafeAuthUser`, as far as the hooks read it. -/
structure SafeAuthUser where
  id : String
  status : String
  tenantId : String

/-- `SessionInfo` : the new session, with its hash. -/
structure SessionInfo where
  device : String
  ip : String
  sessionHash : String

/-- `OAuthProfile` : the provider's verified profile. -/
structure OAuthProfile where
  provider : String
  providerId : String
  email : String
  name : Option String
  avatar : Option String

/-- `OAuthLoginResult`. -/
inductive OAuthLoginResult where
  | create
  | link
  | reject (reason : Option String)
  deriving DecidableEq

/-- `HookError`, in the one case these hooks raise : a failed insert. -/
inductive HookError (ε : Type*) where
  | internal (error : ε)

/-- `SessionEvent` : a new session as the WebSocket shows it. -/
structure SessionEvent where
  sub : String
  tenant : String
  ip : String
  deriving DecidableEq

/-! ## The OAuth policy -/

/-- The account status that permits an OAuth link. -/
def activeStatus : String := "active"

/-- Create an account for an unseen identity, link an active one, refuse any other. -/
def decideOauthLogin (_profile : OAuthProfile) (existingUser : Option SafeAuthUser) :
    OAuthLoginResult :=
  match existingUser with
  | some user =>
    if user.status ≠ activeStatus then .reject (some "linked account is not active") else .link
  | none => .create

/-! ## The hooks -/

/-- The rows inserted and the frames broadcast so far. -/
structure Sink where
  rows : List NewRow
  frames : List SessionEvent

/-- The hooks. `sessionEvents` : whether a sender is wired. -/
structure AuditAuthHooks where
  sessionEvents : Bool

/-- A hook that returns an `α` : what it returns and the sink it leaves. -/
abbrev Hook (ε α : Type*) := Sink → Except (HookError ε) α × Sink

namespace AuditAuthHooks

variable {ε : Type*}

/-- Insert one masked row. `insert` is the outcome of the `INSERT`. -/
def record (insert : Except ε Unit) (event : String) (actorId : Option String)
    (ctx : HookContext) : Hook ε Unit := fun s =>
  match insert with
  | .ok () =>
    (.ok (), { s with rows := s.rows ++
      [{ event, actorId, actorEmail := ctx.email, tenantId := ctx.tenantId, ip := some ctx.ip,
         userAgent := some ctx.userAgent }] })
  | .error error => (.error (.internal error), s)

/-- Record the decision. A failed insert is logged and swallowed. -/
def recordOauthDecision (insert : Except ε Unit) (decision : OAuthLoginResult)
    (ctx : HookContext) (s : Sink) : Sink :=
  let event := match decision with
    | .create => "oauth_login_create"
    | .link => "oauth_login_link"
    | .reject _ => "oauth_login_reject"
  (record insert event ctx.userId ctx s).2

def onOauthLogin (insert : Except ε Unit) (profile : OAuthProfile)
    (existingUser : Option SafeAuthUser) (ctx : HookContext) : Hook ε OAuthLoginResult := fun s =>
  let decision := decideOauthLogin profile existingUser
  (.ok decision, recordOauthDecision insert decision ctx s)

def afterRegister (insert : Except ε Unit) (user : SafeAuthUser) (ctx : HookContext) :
    Hook ε Unit :=
  record insert "after_register" (some user.id) ctx

def afterLogin (insert : Except ε Unit) (user : SafeAuthUser) (ctx : HookContext) :
    Hook ε Unit :=
  record insert "after_login" (some user.id) ctx

def afterLogout (insert : Except ε Unit) (userId : String) (ctx : HookContext) : Hook ε Unit :=
  record insert "after_logout" (some userId) ctx

def afterEmailVerified (insert : Except ε Unit) (user : SafeAuthUser) (ctx : HookContext) :
    Hook ε Unit :=
  record insert "after_email_verified" (some user.id) ctx

def afterPasswordReset (insert : Except ε Unit) (user : SafeAuthUser) (ctx : HookContext) :
    Hook ε Unit :=
  record insert "after_password_reset" (some user.id) ctx

def afterMfaEnabled (insert : Except ε Unit) (user : SafeAuthUser) (ctx : HookContext) :
    Hook ε Unit :=
  record insert "after_mfa_enabled" (some user.id) ctx

def afterMfaDisabled (insert : Except ε Unit) (user : SafeAuthUser) (ctx : HookContext) :
    Hook ε Unit :=
  record insert "after_mfa_disabled" (some user.id) ctx

def afterMfaRecoveryCodesRegenerated (insert : Except ε Unit) (user : SafeAuthUser)
    (ctx : HookContext) : Hook ε Unit :=
  record insert "after_mfa_recovery_codes_regenerated" (some user.id) ctx

def afterInvitationAccepted (insert : Except ε Unit) (user : SafeAuthUser) (ctx : HookContext) :
    Hook ε Unit :=
  record insert "after_invitation_accepted" (some user.id) ctx

/-- Broadcast the masked frame, then record. A send with no subscriber is no error. -/
def onNewSession (hooks : AuditAuthHooks) (insert : Except ε Unit) (user : SafeAuthUser)
    (_session : SessionInfo) (ctx : HookContext) : Hook ε Unit := fun s =>
  let frame : SessionEvent := { sub := user.id, tenant := user.tenantId, ip := ctx.ip }
  let s := if hooks.sessionEvents then { s with frames := s.frames ++ [frame] } else s
  record insert "on_new_session" (some user.id) ctx s

/-- The evicted session hash is dropped. -/
def onSessionEvicted (insert : Except ε Unit) (userId : String) (_evictedSessionHash : String)
    (ctx : HookContext) : Hook ε Unit :=
  record insert "on_session_evicted" (some userId) ctx

end AuditAuthHooks

/-! ## Sequences of calls -/

/-- A call of a hook, with its arguments. -/
inductive HookCall where
  | onOauthLogin (profile : OAuthProfile) (existingUser : Option SafeAuthUser) (ctx : HookContext)
  | afterRegister (user : SafeAuthUser) (ctx : HookContext)
  | afterLogin (user : SafeAuthUser) (ctx : HookContext)
  | afterLogout (userId : String) (ctx : HookContext)
  | afterEmailVerified (user : SafeAuthUser) (ctx : HookContext)
  | afterPasswordReset (user : SafeAuthUser) (ctx : HookContext)
  | afterMfaEnabled (user : SafeAuthUser) (ctx : HookContext)
  | afterMfaDisabled (user : SafeAuthUser) (ctx : HookContext)
  | afterMfaRecoveryCodesRegenerated (user : SafeAuthUser) (ctx : HookContext)
  | afterInvitationAccepted (user : SafeAuthUser) (ctx : HookContext)
  | onNewSession (user : SafeAuthUser) (session : SessionInfo) (ctx : HookContext)
  | onSessionEvicted (userId : String) (evictedSessionHash : String) (ctx : HookContext)

/-- What a call returns : a decision from `on_oauth_login`, nothing from the others. -/
inductive HookReply where
  | done
  | login (decision : OAuthLoginResult)

namespace HookCall

variable {ε : Type*}

/-- A hook's result as a reply. -/
def reply {α : Type*} (f : α → HookReply) (hook : Hook ε α) : Hook ε HookReply := fun s =>
  ((hook s).1.map f, (hook s).2)

/-- The reply of a hook that returns nothing. -/
def done (hook : Hook ε Unit) : Hook ε HookReply := reply (fun _ => .done) hook

/-- Make the call. -/
def invoke (hooks : AuditAuthHooks) (insert : Except ε Unit) : HookCall → Hook ε HookReply
  | onOauthLogin profile existingUser ctx =>
    reply .login (AuditAuthHooks.onOauthLogin insert profile existingUser ctx)
  | afterRegister user ctx => done (AuditAuthHooks.afterRegister insert user ctx)
  | afterLogin user ctx => done (AuditAuthHooks.afterLogin insert user ctx)
  | afterLogout userId ctx => done (AuditAuthHooks.afterLogout insert userId ctx)
  | afterEmailVerified user ctx =>
    done (AuditAuthHooks.afterEmailVerified insert user ctx)
  | afterPasswordReset user ctx =>
    done (AuditAuthHooks.afterPasswordReset insert user ctx)
  | afterMfaEnabled user ctx =>
    done (AuditAuthHooks.afterMfaEnabled insert user ctx)
  | afterMfaDisabled user ctx =>
    done (AuditAuthHooks.afterMfaDisabled insert user ctx)
  | afterMfaRecoveryCodesRegenerated user ctx =>
    done (AuditAuthHooks.afterMfaRecoveryCodesRegenerated insert user ctx)
  | afterInvitationAccepted user ctx =>
    done (AuditAuthHooks.afterInvitationAccepted insert user ctx)
  | onNewSession user session ctx =>
    done (hooks.onNewSession insert user session ctx)
  | onSessionEvicted userId evictedSessionHash ctx =>
    done (AuditAuthHooks.onSessionEvicted insert userId evictedSessionHash ctx)

/-- The event, the acting user and the request a call is about. -/
def entry : HookCall → String × Option String × HookContext
  | onOauthLogin profile existingUser ctx =>
    match decideOauthLogin profile existingUser with
    | .create => ("oauth_login_create", ctx.userId, ctx)
    | .link => ("oauth_login_link", ctx.userId, ctx)
    | .reject _ => ("oauth_login_reject", ctx.userId, ctx)
  | afterRegister user ctx => ("after_register", user.id, ctx)
  | afterLogin user ctx => ("after_login", user.id, ctx)
  | afterLogout userId ctx => ("after_logout", userId, ctx)
  | afterEmailVerified user ctx => ("after_email_verified", user.id, ctx)
  | afterPasswordReset user ctx => ("after_password_reset", user.id, ctx)
  | afterMfaEnabled user ctx => ("after_mfa_enabled", user.id, ctx)
  | afterMfaDisabled user ctx => ("after_mfa_disabled", user.id, ctx)
  | afterMfaRecoveryCodesRegenerated user ctx =>
    ("after_mfa_recovery_codes_regenerated", user.id, ctx)
  | afterInvitationAccepted user ctx => ("after_invitation_accepted", user.id, ctx)
  | onNewSession user _ ctx => ("on_new_session", user.id, ctx)
  | onSessionEvicted userId _ ctx => ("on_session_evicted", userId, ctx)

/-- The row a call writes if its insert succeeds. -/
def row (c : HookCall) : NewRow :=
  let (event, actorId, ctx) := c.entry
  { event, actorId, actorEmail := ctx.email, tenantId := ctx.tenantId, ip := ctx.ip,
    userAgent := ctx.userAgent }

/-- The frame of a new session. No other call has one. -/
def frame : HookCall → Option SessionEvent
  | onNewSession user _ ctx => some { sub := user.id, tenant := user.tenantId, ip := ctx.ip }
  | _ => none

/-- What a call returns : an OAuth login its decision, any other call its insert's
outcome. -/
def result (insert : Except ε Unit) : HookCall → Except (HookError ε) HookReply
  | onOauthLogin profile existingUser _ => .ok (.login (decideOauthLogin profile existingUser))
  | _ =>
    match insert with
    | .ok () => .ok .done
    | .error error => .error (.internal error)

/-- A call writes its row if the insert succeeds, broadcasts its frame if a sender is
wired, and returns its result. -/
theorem invoke_eq (hooks : AuditAuthHooks) (insert : Except ε Unit) (c : HookCall) (s : Sink) :
    c.invoke hooks insert s = (c.result insert,
      { rows := s.rows ++ if insert.isOk then [c.row] else []
        frames := s.frames ++ if hooks.sessionEvents then c.frame.toList else [] }) := by
  cases c with
  | onOauthLogin profile existingUser ctx =>
    simp only [invoke, reply, AuditAuthHooks.onOauthLogin, AuditAuthHooks.recordOauthDecision,
      result, row, entry, frame]
    cases decideOauthLogin profile existingUser <;> cases insert <;>
      simp [AuditAuthHooks.record, Except.map, Except.isOk, Except.toBool]
  | onNewSession user session ctx =>
    simp only [invoke, done, reply, AuditAuthHooks.onNewSession, result, row, entry, frame]
    cases hooks.sessionEvents <;> cases insert <;>
      simp [AuditAuthHooks.record, Except.map, Except.isOk, Except.toBool]
  | _ =>
    cases insert <;> simp [invoke, done, reply, result, row, entry, frame, Except.map, Except.isOk,
      Except.toBool, AuditAuthHooks.record, AuditAuthHooks.afterRegister,
      AuditAuthHooks.afterLogin, AuditAuthHooks.afterLogout, AuditAuthHooks.afterEmailVerified,
      AuditAuthHooks.afterPasswordReset, AuditAuthHooks.afterMfaEnabled,
      AuditAuthHooks.afterMfaDisabled, AuditAuthHooks.afterMfaRecoveryCodesRegenerated,
      AuditAuthHooks.afterInvitationAccepted, AuditAuthHooks.onSessionEvicted]

/-- Two calls that differ only in the session, the evicted hash or the OAuth profile. -/
inductive Agree : HookCall → HookCall → Prop
  | refl (c : HookCall) : Agree c c
  | onOauthLogin (p p' : OAuthProfile) (existingUser : Option SafeAuthUser) (ctx : HookContext) :
    Agree (.onOauthLogin p existingUser ctx) (.onOauthLogin p' existingUser ctx)
  | onNewSession (user : SafeAuthUser) (s s' : SessionInfo) (ctx : HookContext) :
    Agree (.onNewSession user s ctx) (.onNewSession user s' ctx)
  | onSessionEvicted (userId : String) (h h' : String) (ctx : HookContext) :
    Agree (.onSessionEvicted userId h ctx) (.onSessionEvicted userId h' ctx)

/-- A call does not read what it is trusted not to leak. -/
theorem Agree.invoke_eq {hooks : AuditAuthHooks} {insert : Except ε Unit} {c c' : HookCall}
    (h : Agree c c') : c.invoke hooks insert = c'.invoke hooks insert := by
  cases h <;> rfl

end HookCall

/-- A sequence of calls, each with the outcome of its insert : what they return, and
the sink they leave. -/
def runCalls {ε : Type*} (hooks : AuditAuthHooks) :
    List (HookCall × Except ε Unit) → Sink → List (Except (HookError ε) HookReply) × Sink
  | [], s => ([], s)
  | (c, insert) :: calls, s =>
    let (result, s) := c.invoke hooks insert s
    let (results, s) := runCalls hooks calls s
    (result :: results, s)

section

variable {ε : Type*} (hooks : AuditAuthHooks)

theorem runCalls_rows (calls : List (HookCall × Except ε Unit)) (s : Sink) :
    (runCalls hooks calls s).2.rows =
      s.rows ++ (calls.filter fun c => c.2.isOk).map (fun c => c.1.row) := by
  induction calls generalizing s with
  | nil => simp [runCalls]
  | cons c calls ih =>
    simp only [runCalls, HookCall.invoke_eq, ih]
    cases hc : c.2.isOk <;> simp [hc]

theorem runCalls_frames (calls : List (HookCall × Except ε Unit)) (s : Sink) :
    (runCalls hooks calls s).2.frames =
      s.frames ++ (if hooks.sessionEvents then calls.filterMap (fun c => c.1.frame) else []) := by
  induction calls generalizing s with
  | nil => simp [runCalls]
  | cons c calls ih =>
    simp only [runCalls, HookCall.invoke_eq, ih]
    cases hooks.sessionEvents <;> cases hc : c.1.frame <;> simp [hc]

theorem runCalls_results (calls : List (HookCall × Except ε Unit)) (s : Sink) :
    (runCalls hooks calls s).1 = calls.map (fun c => c.1.result c.2) := by
  induction calls generalizing s with
  | nil => rfl
  | cons c calls ih => simp only [runCalls, HookCall.invoke_eq, ih, List.map_cons]

variable {hooks} in
/-- Sequences of calls that agree do the same. -/
theorem runCalls_agree {calls calls' : List (HookCall × Except ε Unit)}
    (h : List.Forall₂ (fun c c' => c.1.Agree c'.1 ∧ c.2 = c'.2) calls calls') :
    ∀ s, runCalls hooks calls s = runCalls hooks calls' s := by
  induction h with
  | nil => exact fun s => rfl
  | @cons c c' _ _ hc _ ih =>
    intro s
    obtain ⟨c, insert⟩ := c
    obtain ⟨c', insert'⟩ := c'
    obtain ⟨hc, rfl⟩ := hc
    simp only [runCalls, hc.invoke_eq, ih]

end

/-- A sequence of calls appends the row of each call whose insert succeeds, in order,
broadcasts the frame of each new session where a sender is wired, and returns the
results of the calls. Sequences that agree outside sessions, evicted hashes and OAuth
profiles do the same. -/
theorem runCalls_exact {ε : Type*} (hooks : AuditAuthHooks)
    (calls : List (HookCall × Except ε Unit)) (s : Sink) :
    (runCalls hooks calls s).2.rows =
        s.rows ++ (calls.filter fun c => c.2.isOk).map (fun c => c.1.row) ∧
      (runCalls hooks calls s).2.frames =
        s.frames ++ (if hooks.sessionEvents then calls.filterMap (fun c => c.1.frame) else []) ∧
      (runCalls hooks calls s).1 = calls.map (fun c => c.1.result c.2) ∧
      ∀ calls', List.Forall₂ (fun c c' => c.1.Agree c'.1 ∧ c.2 = c'.2) calls calls' →
        runCalls hooks calls' s = runCalls hooks calls s := by
  refine ⟨runCalls_rows .., runCalls_frames .., runCalls_results .., fun calls' h => ?_⟩
  exact (runCalls_agree h s).symm

/-- A new session whose insert fails, then a login that is recorded. -/
def sessionThenLogin (sessionHash : String) : List (HookCall × Except Unit Unit) :=
  let user : SafeAuthUser := { id := "user-1", status := "active", tenantId := "acme" }
  let ctx : HookContext :=
    { userId := some "user-1", email := some "user@example.test", tenantId := some "acme",
      ip := "203.0.113.4", userAgent := "agent/1.0", sanitizedHeaders := [] }
  [(.onNewSession user { device := "Chrome", ip := "203.0.113.4", sessionHash } ctx, .error ()),
    (.afterLogin user ctx, .ok ())]

theorem runCalls_exact_sessionThenLogin :
    (runCalls { sessionEvents := true } (sessionThenLogin "a") ⟨[], []⟩).2.rows.map
        NewRow.event = ["after_login"] ∧
      (runCalls { sessionEvents := true } (sessionThenLogin "a") ⟨[], []⟩).2.frames =
        [{ sub := "user-1", tenant := "acme", ip := "203.0.113.4" }] ∧
      runCalls { sessionEvents := true } (sessionThenLogin "b") ⟨[], []⟩ =
        runCalls { sessionEvents := true } (sessionThenLogin "a") ⟨[], []⟩ := by
  obtain ⟨hrows, hframes, -, hagree⟩ :=
    runCalls_exact { sessionEvents := true } (sessionThenLogin "a") ⟨[], []⟩
  refine ⟨by rw [hrows]; rfl, by rw [hframes]; rfl, hagree _ ?_⟩
  exact .cons ⟨.onNewSession .., rfl⟩ (.cons ⟨.refl _, rfl⟩ .nil)

end AuthExample
