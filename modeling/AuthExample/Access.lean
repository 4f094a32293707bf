import AuthExample.Guards

/-!
# Who may call what

The example's own routes, which of them an environment mounts, the guards in front of their
handlers and how a failure is rendered. The engine verifies tokens and the handlers answer : both
are parameters.

`respond_noninterference` : without the token of an administrator no response depends on the
database, but for the hook view of a development deployment. `respond_opaque` : no response
depends on the source of an infrastructure failure.
-/

namespace AuthExample

namespace Access

/-! ## Errors -/

/-- `AuthError` : the cases the guards raise or tell apart, any other with its code, and an
infrastructure failure with its source. -/
inductive AuthError where
  | tokenMissing
  | tokenInvalid
  | tokenExpired
  | tokenRevoked
  | platformAuthRequired
  | insufficientRole
  | internal (source : String)
  | other (code : String)

/-- `AppError`. -/
inductive AppError where
  | auth (error : AuthError)
  | database (source : String)
  | internal (source : String)

variable {R : Type}

/-- `into_response`, where `errorResponse` is the adapter's. -/
def AppError.intoResponse (errorResponse : AuthError → R) : AppError → R
  | auth error => errorResponse error
  | database source => errorResponse (.internal source)
  | internal source => errorResponse (.internal source)

/-- The response of a handler. -/
def render (errorResponse : AuthError → R) : Except AppError R → R
  | .ok response => response
  | .error error => error.intoResponse errorResponse

/-! ## The engine -/

/-- `DashboardClaims`, as far as the routes read them. -/
structure DashboardClaims where
  sub : String
  role : String

/-- `PlatformClaims`, as far as the routes read them. -/
structure PlatformClaims where
  sub : String
  role : String

/-- What the guards ask the engine. -/
structure AuthEngine where
  accessTokenName : String
  verifyAccessToken : String → Except AuthError DashboardClaims
  verifyPlatformToken : String → Except AuthError PlatformClaims
  roleSatisfies : String → String → Bool
  platformRoleSatisfies : String → String → Bool

/-- `config.roles.hierarchy`. -/
def roleHierarchy : List (String × List String) :=
  [("admin", ["admin", "user"]), ("user", ["user"])]

/-- `config.roles.platform_hierarchy`. -/
def platformRoleHierarchy : List (String × List String) :=
  [("admin", ["admin", "support"]), ("support", ["support"])]

/-- A role satisfies those its entry lists. -/
def satisfies (hierarchy : List (String × List String)) (role required : String) : Bool :=
  ((hierarchy.lookup role).getD []).contains required

/-- The engine looks roles up in the hierarchies it is configured with. -/
structure AuthEngine.Configured (engine : AuthEngine) : Prop where
  roles : ∀ role required, engine.roleSatisfies role required =
    satisfies roleHierarchy role required
  platformRoles : ∀ role required, engine.platformRoleSatisfies role required =
    satisfies platformRoleHierarchy role required

/-! ## The guards -/

/-- `AUDIT_ADMIN_ROLE`. -/
def auditAdminRole : String := "admin"

/-- `PLATFORM_ADMIN_ROLE`. -/
def platformAdminRole : String := "admin"

/-- The token of the request, or the error of a request without one. -/
def requireToken (engine : AuthEngine) (parts : Parts) (missing : AuthError) :
    Except AppError String :=
  match accessToken parts engine.accessTokenName with
  | some token => .ok token
  | none => .error (.auth missing)

/-- `DashboardUser`. -/
def dashboardUser (engine : AuthEngine) (parts : Parts) : Except AppError DashboardClaims := do
  let token ← requireToken engine parts .tokenMissing
  (engine.verifyAccessToken token).mapError .auth

/-- A guard of a role : the token, its verification, and the role of its claims. -/
def requireRole {C : Type} (engine : AuthEngine) (parts : Parts) (missing : AuthError)
    (verify : String → Except AppError C) (satisfied : C → Bool) : Except AppError C := do
  let token ← requireToken engine parts missing
  let claims ← verify token
  if satisfied claims then .ok claims else .error (.auth .insufficientRole)

/-- `DashboardAdmin`. -/
def dashboardAdmin (engine : AuthEngine) (parts : Parts) : Except AppError DashboardClaims :=
  requireRole engine parts .tokenMissing
    (fun token => (engine.verifyAccessToken token).mapError .auth)
    fun claims => engine.roleSatisfies claims.role auditAdminRole

/-- `map_platform_error`. -/
def mapPlatformError : AuthError → AuthError
  | .tokenInvalid | .tokenExpired | .tokenRevoked => .platformAuthRequired
  | other => other

/-- `PlatformAdmin`. -/
def platformAdmin (engine : AuthEngine) (parts : Parts) : Except AppError PlatformClaims :=
  requireRole engine parts .platformAuthRequired
    (fun token => (engine.verifyPlatformToken token).mapError fun error =>
      .auth (mapPlatformError error))
    fun claims => engine.platformRoleSatisfies claims.role platformAdminRole

/-! ## The routes -/

/-- `RuntimeEnvironment`. -/
inductive RuntimeEnvironment where
  | development
  | production
  | test
  deriving DecidableEq

inductive Method where
  | get
  | head
  | post
  | other
  deriving DecidableEq

/-- A request : its method, its head and its body. -/
structure Request where
  method : Method
  parts : Parts
  body : String

/-- The path of the URI. -/
def Request.path (req : Request) : String :=
  String.ofList (req.parts.uri.toList.takeWhile (· != '?'))

/-- The routes of the example. -/
inductive Route where
  | health
  | listPlatformUsers
  | realtime
  | listLogs
  | streamLogs
  | aggregate
  | hashStrength
  | forceLockout
  | resetLockout
  | recentHooks
  | whoami
  | platformWhoami

namespace Route

def path : Route → String
  | health => "/health"
  | listPlatformUsers => "/platform/users"
  | realtime => "/ws/example"
  | listLogs => "/audit/logs"
  | streamLogs => "/audit/stream"
  | aggregate => "/audit/aggregate"
  | hashStrength => "/diagnostics/hash-strength"
  | forceLockout => "/diagnostics/force-lockout"
  | resetLockout => "/diagnostics/reset-lockout"
  | recentHooks => "/diagnostics/hooks"
  | whoami => "/diagnostics/whoami"
  | platformWhoami => "/diagnostics/platform"

def method : Route → Method
  | hashStrength | forceLockout | resetLockout => .post
  | _ => .get

end Route

/-- `example_routes` : the audit and diagnostics groups are mounted in development only. -/
def exampleRoutes (appEnv : RuntimeEnvironment) : List Route :=
  [.health, .listPlatformUsers, .realtime] ++
    if appEnv = .development then
      [.listLogs, .streamLogs, .aggregate, .hashStrength, .forceLockout, .resetLockout,
        .recentHooks, .whoami, .platformWhoami]
    else []

/-- The handlers, each a function of what it reads : the database `D`, and the request where it
takes more of it than its guard. What they read of the engine and of its stores is in them. -/
structure Handlers (D R : Type) where
  health : R
  listPlatformUsers : D → Except AppError R
  realtime : Request → Except AppError R
  listLogs : D → Request → Except AppError R
  streamLogs : D → Request → Except AppError R
  aggregate : D → Except AppError R
  hashStrength : Request → R
  forceLockout : Request → Except AppError R
  resetLockout : Request → Except AppError R
  recentHooks : D → Except AppError R
  whoami : DashboardClaims → R
  platformWhoami : PlatformClaims → R

variable {D : Type}

/-- A route answers : its guard, and then its handler. -/
def Route.serve (engine : AuthEngine) (handlers : Handlers D R) (db : D) (req : Request) :
    Route → Except AppError R
  | health => .ok handlers.health
  | listPlatformUsers => do
    let _ ← platformAdmin engine req.parts
    handlers.listPlatformUsers db
  | realtime => handlers.realtime req
  | listLogs => do
    let _ ← dashboardAdmin engine req.parts
    handlers.listLogs db req
  | streamLogs => do
    let _ ← dashboardAdmin engine req.parts
    handlers.streamLogs db req
  | aggregate => do
    let _ ← dashboardAdmin engine req.parts
    handlers.aggregate db
  | hashStrength => .ok (handlers.hashStrength req)
  | forceLockout => handlers.forceLockout req
  | resetLockout => handlers.resetLockout req
  | recentHooks => handlers.recentHooks db
  | whoami => do
    let claims ← dashboardUser engine req.parts
    return handlers.whoami claims
  | platformWhoami => do
    let claims ← platformAdmin engine req.parts
    return handlers.platformWhoami claims

/-- What the adapter and the router make of a response : that of an error, one without its body,
and the refusal of a method. -/
structure Responses (R : Type) where
  errorResponse : AuthError → R
  withoutBody : R → R
  methodNotAllowed : R

/-- The router on a request, `none` where the example mounts no route at its path. A `GET` route
answers a `HEAD` without its body. -/
def respond (responses : Responses R) (appEnv : RuntimeEnvironment) (engine : AuthEngine)
    (handlers : Handlers D R) (db : D) (req : Request) : Option R :=
  ((exampleRoutes appEnv).find? fun route => route.path == req.path).map fun route =>
    let response := render responses.errorResponse (route.serve engine handlers db req)
    if req.method = route.method then response
    else if req.method = .head ∧ route.method = .get then responses.withoutBody response
    else responses.methodNotAllowed

/-! ## Admission -/

/-- The request has the token of a dashboard administrator. -/
def HasDashboardAdmin (engine : AuthEngine) (parts : Parts) : Prop :=
  ∃ token claims, accessToken parts engine.accessTokenName = some token ∧
    engine.verifyAccessToken token = .ok claims ∧ claims.role = "admin"

/-- The request has the token of a platform administrator. -/
def HasPlatformAdmin (engine : AuthEngine) (parts : Parts) : Prop :=
  ∃ token claims, accessToken parts engine.accessTokenName = some token ∧
    engine.verifyPlatformToken token = .ok claims ∧ claims.role = "admin"

/-- In neither hierarchy another role satisfies that of the administrator. -/
theorem satisfies_admin (other : String) (hother : other ≠ "admin") (role : String) :
    satisfies [("admin", ["admin", other]), (other, [other])] role "admin" = true ↔
      role = "admin" := by
  by_cases hadmin : role = "admin"
  · subst hadmin
    simp [satisfies]
  · have hne : (role == "admin") = false := beq_false_of_ne hadmin
    cases hrole : role == other <;>
      simp [satisfies, List.lookup_cons, hne, hrole, hadmin, Ne.symm hother]

variable {engine : AuthEngine} {parts : Parts}

/-- A guard refuses a request whose token is not verified with its role. -/
theorem requireRole_refuses {C : Type} {missing : AuthError} {verify : String → Except AppError C}
    {satisfied : C → Bool}
    (h : ∀ token claims, accessToken parts engine.accessTokenName = some token →
      verify token = .ok claims → satisfied claims = false) :
    ∃ error, requireRole engine parts missing verify satisfied = .error error := by
  unfold requireRole requireToken
  cases htoken : accessToken parts engine.accessTokenName with
  | none => exact ⟨.auth missing, rfl⟩
  | some token =>
    cases hclaims : verify token with
    | error error => exact ⟨error, by simp [bind, Except.bind, hclaims]⟩
    | ok claims =>
      have hrole := h token claims htoken hclaims
      exact ⟨.auth .insufficientRole, by simp [bind, Except.bind, hclaims, hrole]⟩

theorem mapError_eq_ok {ε ε' α : Type} {x : Except ε α} {f : ε → ε'} {a : α} :
    x.mapError f = .ok a ↔ x = .ok a := by
  cases x <;> simp [Except.mapError]

/-- A request without a dashboard administrator's token is refused before its handler runs. -/
theorem dashboardAdmin_refuses (hroles : engine.Configured)
    (h : ¬ HasDashboardAdmin engine parts) :
    ∃ error, dashboardAdmin engine parts = .error error := by
  refine requireRole_refuses fun token claims htoken hclaims => ?_
  rw [hroles.roles, auditAdminRole, ← Bool.not_eq_true, roleHierarchy,
    satisfies_admin "user" (by decide)]
  exact fun hadmin => h ⟨token, claims, htoken, mapError_eq_ok.1 hclaims, hadmin⟩

/-- So is one without a platform administrator's. -/
theorem platformAdmin_refuses (hroles : engine.Configured)
    (h : ¬ HasPlatformAdmin engine parts) :
    ∃ error, platformAdmin engine parts = .error error := by
  refine requireRole_refuses fun token claims htoken hclaims => ?_
  rw [hroles.platformRoles, platformAdminRole, ← Bool.not_eq_true, platformRoleHierarchy,
    satisfies_admin "support" (by decide)]
  exact fun hadmin => h ⟨token, claims, htoken, mapError_eq_ok.1 hclaims, hadmin⟩

/-- One with it is admitted. -/
theorem platformAdmin_admits (hroles : engine.Configured) (h : HasPlatformAdmin engine parts) :
    ∃ claims, platformAdmin engine parts = .ok claims := by
  obtain ⟨token, claims, htoken, hclaims, hrole⟩ := h
  have hadmin : engine.platformRoleSatisfies claims.role platformAdminRole = true := by
    rw [hroles.platformRoles, platformAdminRole, platformRoleHierarchy,
      satisfies_admin "support" (by decide), hrole]
  refine ⟨claims, ?_⟩
  simp [platformAdmin, requireRole, requireToken, htoken, hclaims, hadmin, bind, Except.bind,
    Except.mapError]

/-- A refused guard hides what its handler would have answered. -/
theorem bind_refused {C α : Type} {guard : Except AppError C}
    (h : ∃ error, guard = .error error) (k k' : C → Except AppError α) :
    guard >>= k = guard >>= k' := by
  obtain ⟨error, rfl⟩ := h
  rfl

section

variable {appEnv : RuntimeEnvironment} {handlers : Handlers D R} {db db' : D} {req : Request}

/-- The hook view is mounted in development only. -/
theorem development_of_recentHooks (h : Route.recentHooks ∈ exampleRoutes appEnv) :
    appEnv = .development := by
  unfold exampleRoutes at h
  split_ifs at h with hdev
  · exact hdev
  · simp at h

/-- To who is no administrator no route but the hook view answers from the database. -/
theorem Route.serve_noninterference (hroles : engine.Configured)
    (hdashboard : ¬ HasDashboardAdmin engine req.parts)
    (hplatform : ¬ HasPlatformAdmin engine req.parts) (route : Route) :
    (route = .recentHooks ∧ ∀ db, route.serve engine handlers db req = handlers.recentHooks db) ∨
      route.serve engine handlers db req = route.serve engine handlers db' req := by
  cases route with
  | listPlatformUsers => exact Or.inr (bind_refused (platformAdmin_refuses hroles hplatform) _ _)
  | listLogs | streamLogs | aggregate =>
    exact Or.inr (bind_refused (dashboardAdmin_refuses hroles hdashboard) _ _)
  | recentHooks => exact Or.inl ⟨rfl, fun _ => rfl⟩
  | _ => exact Or.inr rfl

/-- A request without the token of a dashboard administrator, and without that of a platform
administrator, has the same response whatever the database holds, on every path but that of the
hook view, and also there up to what the hook view of a development deployment shows of it. -/
theorem respond_noninterference (hroles : engine.Configured) (responses : Responses R)
    (hdashboard : ¬ HasDashboardAdmin engine req.parts)
    (hplatform : ¬ HasPlatformAdmin engine req.parts)
    (hhooks : req.path = Route.recentHooks.path → appEnv = .development →
      handlers.recentHooks db = handlers.recentHooks db') :
    respond responses appEnv engine handlers db req =
      respond responses appEnv engine handlers db' req := by
  unfold respond
  cases hroute : (exampleRoutes appEnv).find? fun route => route.path == req.path with
  | none => rfl
  | some route =>
    have hserve : route.serve engine handlers db req = route.serve engine handlers db' req := by
      rcases Route.serve_noninterference hroles hdashboard hplatform route with
        ⟨rfl, hserve⟩ | hserve
      · have hpath := List.find?_some hroute
        rw [hserve, hserve]
        exact hhooks (beq_iff_eq.1 hpath).symm
          (development_of_recentHooks (List.mem_of_find?_eq_some hroute))
      · exact hserve
    simp only [Option.map_some, hserve]

end

/-- An engine that knows the tokens of a user and of a support agent. -/
def exampleEngine : AuthEngine where
  accessTokenName := "access_token"
  verifyAccessToken token := if token = "ada" then .ok ⟨"u1", "user"⟩ else .error .tokenInvalid
  verifyPlatformToken token :=
    if token = "sam" then .ok ⟨"p1", "support"⟩ else .error (.internal "redis: timed out")
  roleSatisfies := satisfies roleHierarchy
  platformRoleSatisfies := satisfies platformRoleHierarchy

/-- Handlers that answer with the database, or fail with it. -/
def exampleHandlers : Handlers String String where
  health := "ok"
  listPlatformUsers := .ok
  realtime _ := .error (.auth .tokenMissing)
  listLogs db _ := .ok db
  streamLogs db _ := .ok db
  aggregate db := .error (.database db)
  hashStrength _ := "fresh"
  forceLockout _ := .ok "locked"
  resetLockout _ := .ok "unlocked"
  recentHooks := .ok
  whoami claims := claims.sub
  platformWhoami claims := claims.sub

/-- Responses that name the status, with an empty body for `HEAD`. -/
def exampleResponses : Responses String where
  errorResponse error := match error with
    | .insufficientRole => "403"
    | .internal _ => "500"
    | _ => "401"
  withoutBody _ := ""
  methodNotAllowed := "405"

/-- The support agent asks for the platform users. -/
def supportRequest : Request where
  method := .get
  parts := { uri := "/platform/users?page=1", headers := [("authorization", "Bearer sam")] }
  body := ""

theorem respond_supportRequest :
    respond exampleResponses .development exampleEngine exampleHandlers "ada's row"
        supportRequest = some "403" ∧
      respond exampleResponses .development exampleEngine exampleHandlers "ada's row"
          supportRequest =
        respond exampleResponses .development exampleEngine exampleHandlers "eve's row"
          supportRequest := by
  have htoken : accessToken supportRequest.parts "access_token" = some "sam" := by decide
  refine ⟨by decide, respond_noninterference ⟨fun _ _ => rfl, fun _ _ => rfl⟩ _ ?_ ?_ ?_⟩
  · rintro ⟨token, claims, ht, hverify, -⟩
    obtain rfl := Option.some.inj (htoken.symm.trans ht)
    cases hverify
  · rintro ⟨token, claims, ht, hverify, hrole⟩
    obtain rfl := Option.some.inj (htoken.symm.trans ht)
    cases hverify
    exact absurd hrole (by decide)
  · exact fun hpath => absurd hpath (by decide)

/-! ## Sources of failures -/

/-- The error without the source of an infrastructure failure. -/
def AuthError.erase : AuthError → AuthError
  | internal _ => .internal ""
  | error => error

/-- The error without the source of an infrastructure failure. -/
def AppError.erase : AppError → AppError
  | auth error => .auth error.erase
  | database _ | internal _ => .auth (.internal "")

/-- The adapter renders every infrastructure failure alike. -/
def Responses.Opaque (responses : Responses R) : Prop :=
  ∀ source source', responses.errorResponse (.internal source) =
    responses.errorResponse (.internal source')

/-- The engine, with the sources of its failures erased. -/
def AuthEngine.erase (engine : AuthEngine) : AuthEngine :=
  { engine with
    verifyAccessToken := fun token => (engine.verifyAccessToken token).mapError AuthError.erase
    verifyPlatformToken := fun token =>
      (engine.verifyPlatformToken token).mapError AuthError.erase }

/-- The handlers, with the sources of their failures erased. -/
def Handlers.erase (handlers : Handlers D R) : Handlers D R where
  health := handlers.health
  listPlatformUsers db := (handlers.listPlatformUsers db).mapError AppError.erase
  realtime req := (handlers.realtime req).mapError AppError.erase
  listLogs db req := (handlers.listLogs db req).mapError AppError.erase
  streamLogs db req := (handlers.streamLogs db req).mapError AppError.erase
  aggregate db := (handlers.aggregate db).mapError AppError.erase
  hashStrength := handlers.hashStrength
  forceLockout req := (handlers.forceLockout req).mapError AppError.erase
  resetLockout req := (handlers.resetLockout req).mapError AppError.erase
  recentHooks db := (handlers.recentHooks db).mapError AppError.erase
  whoami := handlers.whoami
  platformWhoami := handlers.platformWhoami

@[simp] theorem AuthError.erase_erase (error : AuthError) : error.erase.erase = error.erase := by
  cases error <;> rfl

@[simp] theorem AppError.erase_erase (error : AppError) : error.erase.erase = error.erase := by
  cases error with
  | auth error => exact congrArg AppError.auth error.erase_erase
  | _ => rfl

/-- The same result, up to the sources of failures. -/
def SameResult {α : Type} (x x' : Except AppError α) : Prop :=
  x.mapError AppError.erase = x'.mapError AppError.erase

theorem SameResult.erase {α : Type} (x : Except AppError α) :
    SameResult x (x.mapError AppError.erase) := by
  cases x with
  | ok a => rfl
  | error error => simp [SameResult, Except.mapError]

/-- Programs that go on alike after results that are the same. -/
theorem SameResult.bind {α β : Type} {x x' : Except AppError α} {k k' : α → Except AppError β}
    (hx : SameResult x x') (hk : ∀ a, SameResult (k a) (k' a)) :
    SameResult (x >>= k) (x' >>= k') := by
  cases x with
  | ok a =>
    cases x' with
    | ok a' =>
      obtain rfl : a = a' := Except.ok.inj hx
      exact hk a
    | error error => cases hx
  | error error =>
    cases x' with
    | ok a => cases hx
    | error error' => exact congrArg Except.error (Except.error.inj hx)

theorem AppError.intoResponse_erase {responses : Responses R} (h : responses.Opaque)
    (error : AppError) : error.erase.intoResponse responses.errorResponse =
      error.intoResponse responses.errorResponse := by
  cases error with
  | auth error =>
    cases error with
    | internal source => exact h _ _
    | _ => rfl
  | database source => exact h _ _
  | internal source => exact h _ _

theorem SameResult.render {responses : Responses R} (h : responses.Opaque)
    {x x' : Except AppError R} (hx : SameResult x x') :
    Access.render responses.errorResponse x = Access.render responses.errorResponse x' := by
  have hrender : ∀ x : Except AppError R,
      Access.render responses.errorResponse (x.mapError AppError.erase) =
        Access.render responses.errorResponse x := fun x => by
    cases x with
    | ok response => rfl
    | error error => exact AppError.intoResponse_erase h error
  rw [← hrender x, ← hrender x', hx]

/-- The sources of the engine's failures do not reach what a guard lets through or refuses. -/
theorem SameResult.requireRole {C : Type} {missing : AuthError}
    {verify verify' : String → Except AppError C} {satisfied : C → Bool}
    (h : ∀ token, SameResult (verify token) (verify' token)) :
    SameResult (Access.requireRole engine parts missing verify satisfied)
      (Access.requireRole engine.erase parts missing verify' satisfied) :=
  .bind rfl fun token => .bind (h token) fun _ => rfl

theorem SameResult.mapError {ε α : Type} {f : ε → AppError} {g : ε → ε} {x : Except ε α}
    (h : ∀ error, (f (g error)).erase = (f error).erase) :
    SameResult (x.mapError f) ((x.mapError g).mapError f) := by
  cases x with
  | ok a => rfl
  | error error => exact congrArg Except.error (h error).symm

theorem sameResult_dashboardAdmin :
    SameResult (dashboardAdmin engine parts) (dashboardAdmin engine.erase parts) :=
  .requireRole fun _ => .mapError fun error => congrArg AppError.auth error.erase_erase

theorem sameResult_platformAdmin :
    SameResult (platformAdmin engine parts) (platformAdmin engine.erase parts) := by
  refine .requireRole fun _ => .mapError fun error => congrArg AppError.auth ?_
  cases error <;> rfl

theorem sameResult_dashboardUser :
    SameResult (dashboardUser engine parts) (dashboardUser engine.erase parts) :=
  .bind rfl fun _ => .mapError fun error => congrArg AppError.auth error.erase_erase

/-- A route answers the same, up to the sources of failures. -/
theorem Route.sameResult_serve (handlers : Handlers D R) (db : D) (req : Request)
    (route : Route) : SameResult (route.serve engine handlers db req)
      (route.serve engine.erase handlers.erase db req) := by
  cases route with
  | health | hashStrength => rfl
  | listPlatformUsers => exact sameResult_platformAdmin.bind fun _ => .erase _
  | listLogs | streamLogs | aggregate => exact sameResult_dashboardAdmin.bind fun _ => .erase _
  | realtime | forceLockout | resetLockout | recentHooks => exact .erase _
  | whoami => exact sameResult_dashboardUser.bind fun _ => rfl
  | platformWhoami => exact sameResult_platformAdmin.bind fun _ => rfl

/-- Whatever the request, its response is that of the deployment in which no failure has a
source. -/
theorem respond_opaque {responses : Responses R} (h : responses.Opaque)
    (appEnv : RuntimeEnvironment) (engine : AuthEngine) (handlers : Handlers D R) (db : D)
    (req : Request) : respond responses appEnv engine handlers db req =
      respond responses appEnv engine.erase handlers.erase db req := by
  unfold respond
  refine congrArg (fun f => Option.map f _) (funext fun route => ?_)
  simp only [(Route.sameResult_serve handlers db req route).render h]

/-- The engine fails on the guard of the platform users. -/
def outageRequest : Request where
  method := .get
  parts := { uri := "/platform/users", headers := [("authorization", "Bearer ada")] }
  body := ""

theorem respond_outageRequest :
    respond exampleResponses .production exampleEngine exampleHandlers "ada's row"
        outageRequest = some "500" ∧
      respond exampleResponses .production exampleEngine exampleHandlers "ada's row"
          outageRequest =
        respond exampleResponses .production exampleEngine.erase exampleHandlers.erase "ada's row"
          outageRequest :=
  ⟨by decide, respond_opaque (fun _ _ => rfl) _ _ _ _ _⟩

end Access

end AuthExample
