import AuthExample.Access
import AuthExample.PlatformUsers
import AuthExample.Proxy

/-!
# The platform console

A page of the platform tree is behind the edge gate, and below `/platform` also behind a layout
that decodes the cookie again without its signature. The page of the users asks the API for them,
with the cookie as a bearer token, and the API verifies it a third time. What fails redirects.

`console_gated` : from any plain path of the tree a browser is shown a page after three requests
at most, four with a slash at the end. It is a page of the console exactly where both gates admit
the cookie, and the users are shown, as the API lists them, exactly where the API does too and its
query succeeds.
-/

namespace AuthExample

namespace PlatformConsole

open Access Scan

/-! ## The deployment -/

/-- A response of the API, with the users where its body is the list of them. -/
structure ApiReply where
  status : ℕ
  users : Option (List SafeAuthPlatformUser)

/-- `res.ok`. -/
def ApiReply.ok (res : ApiReply) : Bool := decide (200 ≤ res.status ∧ res.status ≤ 299)

/-- The edge gate, the decoder of the layout, which verifies no signature, and the API, of which
the adapter renders no error as a success. `reachable` : whether a request to it is answered,
`query` : the outcome of its query. -/
structure Deployment (ε ρ : Type) where
  edge : Edge ε ρ
  decodeJwtToken : String → Except ε Decoded
  appEnv : RuntimeEnvironment
  engine : AuthEngine
  handlers : Handlers PlatformUsers ApiReply
  responses : Responses ApiReply
  reachable : Bool
  query : Except String Unit
  notOk : ∀ error, (responses.errorResponse error).ok = false

variable {ε ρ : Type}

/-! ## The API -/

/-- `list_platform_users`. -/
def listUsers (query : Except String Unit) (table : PlatformUsers) :
    Except Access.AppError ApiReply := do
  query.mapError .database
  return { status := 200, users := some (listPlatformUsers table) }

/-- What a header value may not end in. -/
def isHttpWhitespace (c : Char) : Bool := ['\t', '\n', '\r', ' '].contains c

/-- A header value as `fetch` sends it, `none` where it throws. -/
def headerValue (value : List Char) : Option String :=
  let value := trim isHttpWhitespace value
  if value.all fun c => c.toNat ≤ 255 && !(['\x00', '\n', '\r'].contains c) then
    some (String.ofList value)
  else none

/-- The head of the request for the users. -/
def usersParts (cookie : Option String) : Option Parts :=
  match cookie with
  | none => some { uri := "/platform/users", headers := [] }
  | some token => (headerValue ("Bearer ".toList ++ token.toList)).map fun value =>
    { uri := "/platform/users", headers := [("authorization", value)] }

/-- What the request settles to, `none` where it rejects. -/
def fetched (d : Deployment ε ρ) (table : PlatformUsers) (cookie : Option String) :
    Option ApiReply := do
  let parts ← usersParts cookie
  if d.reachable then
    respond d.responses d.appEnv d.engine
      { d.handlers with listPlatformUsers := listUsers d.query } table ⟨.get, parts, ""⟩
  else none

/-! ## The pages -/

/-- A location : its path, and its `reason` query parameter. -/
structure Url where
  pathname : String
  reason : Option String
  deriving DecidableEq

/-- What the browser shows. -/
inductive View where
  | login (reason : Option String)
  | security
  | sessions
  | users (rows : List SafeAuthPlatformUser)
  | errorBoundary
  | notFound
  deriving DecidableEq

/-- The answer to a request : another location, or a page. -/
inductive Loaded where
  | redirect (url : Url)
  | page (view : View)

def loginUrl (reason : Option String) : Url := ⟨"/platform/login", reason⟩

/-- `PlatformProtectedLayout`, around a page. -/
def layout (d : Deployment ε ρ) (cookie : Option String) (children : Loaded) : Loaded :=
  match cookie with
  | none => .redirect (loginUrl (some "session-expired"))
  | some token =>
    match d.decodeJwtToken token with
    | .error _ => .redirect (loginUrl (some "session-expired"))
    | .ok decoded =>
      if decoded.isValid ≠ true then .redirect (loginUrl (some "session-expired"))
      else if (decoded.payload.bind TokenPayload.type).bind Json.str? ≠ some "platform" then
        .redirect (loginUrl (some "wrong-domain"))
      else children

/-- `PlatformUsersPage`, with its `fetchPlatformUsers`. -/
def usersPage (d : Deployment ε ρ) (table : PlatformUsers) (cookie : Option String) : Loaded :=
  match fetched d table cookie with
  | none => .page .errorBoundary
  | some res =>
    if res.status = 401 then .redirect (loginUrl (some "session-expired"))
    else if res.ok = false then .page .errorBoundary
    else (res.users.map fun rows => Loaded.page (.users rows)).getD (.page .errorBoundary)

/-- The pages of the tree. -/
def route (d : Deployment ε ρ) (table : PlatformUsers) (cookie : Option String) (url : Url) :
    Loaded :=
  if url.pathname = "/platform" then .redirect ⟨"/platform/security", none⟩
  else if url.pathname = "/platform/login" then .page (.login url.reason)
  else if url.pathname = "/platform/security" then layout d cookie (.page .security)
  else if url.pathname = "/platform/sessions" then layout d cookie (.page .sessions)
  else if url.pathname = "/platform/users" then layout d cookie (usersPage d table cookie)
  else .page .notFound

/-- A path with a slash at its end, without it. -/
def withoutSlash (path : String) : Option String :=
  if 1 < path.toList.length ∧ path.toList.getLast? = some '/' then
    some (String.ofList path.toList.dropLast)
  else none

/-- The edge gate, then the page. -/
def serve (d : Deployment ε ρ) (table : PlatformUsers) (cookie : Option String) (url : Url) :
    Loaded :=
  match proxy d.edge { url := url.pathname, pathname := url.pathname, accessCookie := cookie } with
  | .next => route d table cookie url
  | .redirect _ loginPath reason => .redirect ⟨loginPath, reason⟩
  | .authProxy _ => .page .notFound

/-- A request of the browser : a slash at the end of the path is redirected away, before the gate
is asked. -/
def load (d : Deployment ε ρ) (table : PlatformUsers) (cookie : Option String) (url : Url) :
    Loaded :=
  match withoutSlash url.pathname with
  | some pathname => .redirect { url with pathname }
  | none => serve d table cookie url

/-- Follow redirects, for at most so many requests. -/
def visit (d : Deployment ε ρ) (table : PlatformUsers) (cookie : Option String) :
    ℕ → Url → Option View
  | 0, _ => none
  | n + 1, url =>
    match load d table cookie url with
    | .redirect url => visit d table cookie n url
    | .page view => some view

/-! ## Admission -/

/-- The edge gate verifies the cookie as one of the platform. -/
def EdgeAdmits (d : Deployment ε ρ) (cookie : Option String) : Prop :=
  ∃ token payload, cookie = some token ∧
    d.edge.verifyJwtToken token d.edge.accessTokenSecret = .ok { isValid := true, payload } ∧
    payload.bind TokenPayload.type = some (.str "platform")

/-- The layout decodes it as one. -/
def LayoutAdmits (d : Deployment ε ρ) (cookie : Option String) : Prop :=
  ∃ token payload, cookie = some token ∧
    d.decodeJwtToken token = .ok { isValid := true, payload } ∧
    payload.bind TokenPayload.type = some (.str "platform")

/-- The API is reached with the token of a platform administrator, and its query succeeds. -/
def ApiLists (d : Deployment ε ρ) (cookie : Option String) : Prop :=
  ∃ parts, usersParts cookie = some parts ∧ d.reachable = true ∧
    HasPlatformAdmin d.engine parts ∧ d.query = .ok ()

variable {d : Deployment ε ρ} {table : PlatformUsers} {cookie : Option String}

/-! ## The list of the users -/

theorem uri_usersParts {parts : Parts} (h : usersParts cookie = some parts) :
    parts.uri = "/platform/users" := by
  cases cookie with
  | none =>
    cases h
    rfl
  | some token =>
    obtain ⟨value, -, rfl⟩ := Option.map_eq_some_iff.1 h
    rfl

/-- The API on the request for the users. -/
theorem respond_users {parts : Parts} (h : usersParts cookie = some parts) :
    respond d.responses d.appEnv d.engine
        { d.handlers with listPlatformUsers := listUsers d.query } table ⟨.get, parts, ""⟩ =
      some (render d.responses.errorResponse (do
        let _ ← platformAdmin d.engine parts
        listUsers d.query table)) := by
  have hpath : Request.path ⟨.get, parts, ""⟩ = "/platform/users" := by
    rw [Request.path, uri_usersParts h]
    decide
  have hroute : (exampleRoutes d.appEnv).find? (fun route => route.path == "/platform/users") =
      some .listPlatformUsers := by
    cases d.appEnv <;> rfl
  rw [respond, hpath, hroute]
  rfl

/-- An error is rendered as none of the successes. -/
theorem ok_intoResponse (error : Access.AppError) :
    (error.intoResponse d.responses.errorResponse).ok = false := by
  cases error <;> exact d.notOk _

/-- The request is answered with the users where the API lists them, and with no success
otherwise. -/
theorem fetched_cases (hroles : d.engine.Configured) :
    (ApiLists d cookie ∧
        fetched d table cookie = some ⟨200, some (listPlatformUsers table)⟩) ∨
      ¬ApiLists d cookie ∧ ∀ res, fetched d table cookie = some res → res.ok = false := by
  unfold fetched
  cases hparts : usersParts cookie with
  | none =>
    refine .inr ⟨?_, nofun⟩
    rintro ⟨parts, hsome, -⟩
    cases hparts.symm.trans hsome
  | some parts =>
    have hsame {parts' : Parts} (hsome : usersParts cookie = some parts') : parts' = parts :=
      Option.some.inj (hsome.symm.trans hparts)
    simp only [Option.bind_eq_bind, Option.bind_some, respond_users hparts]
    by_cases hreach : d.reachable = true
    · rw [if_pos hreach]
      by_cases hadmin : HasPlatformAdmin d.engine parts
      · obtain ⟨claims, hguard⟩ := platformAdmin_admits hroles hadmin
        rw [hguard]
        cases hquery : d.query with
        | ok done => exact .inl ⟨⟨parts, hparts, hreach, hadmin, hquery⟩, rfl⟩
        | error source =>
          refine .inr ⟨?_, ?_⟩
          · rintro ⟨-, -, -, -, hok⟩
            cases hquery.symm.trans hok
          · rintro res ⟨rfl⟩
            exact ok_intoResponse (.database source)
      · obtain ⟨error, hguard⟩ := platformAdmin_refuses hroles hadmin
        rw [hguard]
        refine .inr ⟨?_, ?_⟩
        · rintro ⟨parts', hsome, -, hadmin', -⟩
          exact hadmin (hsame hsome ▸ hadmin')
        · rintro res ⟨rfl⟩
          exact ok_intoResponse error
    · rw [if_neg hreach]
      refine .inr ⟨?_, nofun⟩
      rintro ⟨-, -, hr, -⟩
      exact hreach hr

/-- The page shows the users where the API lists them, and otherwise fails or redirects. -/
theorem usersPage_cases (hroles : d.engine.Configured) :
    (ApiLists d cookie ∧
        usersPage d table cookie = .page (.users (listPlatformUsers table))) ∨
      ¬ApiLists d cookie ∧ (usersPage d table cookie = .page .errorBoundary ∨
        usersPage d table cookie = .redirect (loginUrl (some "session-expired"))) := by
  unfold usersPage
  rcases fetched_cases hroles with ⟨hlists, hf⟩ | ⟨hnot, hf⟩
  · rw [hf]
    exact .inl ⟨hlists, rfl⟩
  · refine .inr ⟨hnot, ?_⟩
    cases hres : fetched d table cookie with
    | none => exact .inl rfl
    | some res =>
      by_cases h401 : res.status = 401
      · exact .inr (if_pos h401)
      · exact .inl ((if_neg h401).trans (if_pos (hf res hres)))

/-! ## The gates -/

/-- The layout renders its page where it admits the cookie, and redirects otherwise. -/
theorem layout_cases (children : Loaded) :
    (LayoutAdmits d cookie ∧ layout d cookie children = children) ∨
      ¬LayoutAdmits d cookie ∧
        ∃ reason, layout d cookie children = .redirect (loginUrl reason) := by
  cases cookie with
  | none =>
    refine .inr ⟨?_, _, rfl⟩
    rintro ⟨_, _, h, -⟩
    cases h
  | some token =>
    simp only [layout]
    cases hdecode : d.decodeJwtToken token with
    | error e =>
      refine .inr ⟨?_, _, rfl⟩
      rintro ⟨_, _, ⟨rfl⟩, h, -⟩
      cases hdecode.symm.trans h
    | ok decoded =>
      obtain ⟨isValid, payload⟩ := decoded
      cases isValid with
      | false =>
        refine .inr ⟨?_, _, rfl⟩
        rintro ⟨_, _, ⟨rfl⟩, h, -⟩
        cases hdecode.symm.trans h
      | true =>
        by_cases htype : (payload.bind TokenPayload.type).bind Json.str? = some "platform"
        · exact .inl ⟨⟨token, payload, rfl, hdecode, str?_bind_eq_some.1 htype⟩, by simp [htype]⟩
        · refine .inr ⟨?_, some "wrong-domain", by simp [htype]⟩
          rintro ⟨_, payload', ⟨rfl⟩, h, htype'⟩
          cases hdecode.symm.trans h
          exact htype (str?_bind_eq_some.2 htype')

theorem load_eq_serve {url : Url} (h : withoutSlash url.pathname = none) :
    load d table cookie url = serve d table cookie url := by
  rw [load, h]

/-- The login of the console is behind no gate. -/
theorem load_login (reason : Option String) :
    load d table cookie (loginUrl reason) = .page (.login reason) := by
  have hun : ∀ tree : Tree, ¬tree.Protects "/platform/login" := by
    intro tree hprot
    have hany := any_protectedPatterns.2 ⟨tree, hprot⟩
    revert hany
    decide
  have hapi : startsWith "/platform/login" "/api/auth/" = false := by decide
  have hslash : withoutSlash "/platform/login" = none := by decide
  rw [load_eq_serve hslash, serve, loginUrl, proxy_of_unprotected hapi hun]
  rfl

/-- Behind the gate a path is loaded where the gate admits the cookie, and redirects otherwise. -/
theorem load_cases {url : Url} (hslash : withoutSlash url.pathname = none)
    (h : Tree.platform.Protects url.pathname) :
    (EdgeAdmits d cookie ∧ load d table cookie url = route d table cookie url) ∨
      ¬EdgeAdmits d cookie ∧ ∃ reason, load d table cookie url = .redirect (loginUrl reason) := by
  set request : NextRequest :=
    { url := url.pathname, pathname := url.pathname, accessCookie := cookie } with hrequest
  have hapi : startsWith request.pathname "/api/auth/" = false := by
    rcases h with hpath | ⟨rest, hpath, -⟩ <;> simp only [hrequest, hpath]
    · decide
    · simp [startsWith, List.isPrefixOf]
  have hiff : proxy d.edge request = .next ↔ EdgeAdmits d cookie := proxy_eq_next_iff hapi h
  by_cases hedge : EdgeAdmits d cookie
  · refine .inl ⟨hedge, ?_⟩
    rw [load_eq_serve hslash, serve, ← hrequest, hiff.2 hedge]
  · obtain ⟨reason, hredirect, -⟩ := proxy_eq_redirect hapi h (mt hiff.1 hedge)
    refine .inr ⟨hedge, reason, ?_⟩
    rw [load_eq_serve hslash, serve, ← hrequest, hredirect]
    rfl

/-! ## Visits -/

/-- A redirect to the login shows it. -/
theorem visit_redirect {url : Url} {reason : Option String} (n : ℕ)
    (h : load d table cookie url = .redirect (loginUrl reason)) :
    visit d table cookie (n + 2) url = some (.login reason) := by
  rw [visit, h]
  simp only [visit, load_login]

/-- What a page of the tree shows : a page of the console for both gates, the users also for the
API. -/
def Gated (d : Deployment ε ρ) (table : PlatformUsers) (cookie : Option String) : View → Prop
  | .security | .sessions => EdgeAdmits d cookie ∧ LayoutAdmits d cookie
  | .users rows => (EdgeAdmits d cookie ∧ LayoutAdmits d cookie) ∧ ApiLists d cookie ∧
      rows = listPlatformUsers table
  | .login _ | .errorBoundary | .notFound => True

/-- A page within the layout is shown for both gates, and the login otherwise. -/
theorem visit_layout {url : Url} {children : Loaded} (hslash : withoutSlash url.pathname = none)
    (h : Tree.platform.Protects url.pathname)
    (hroute : route d table cookie url = layout d cookie children) :
    ((EdgeAdmits d cookie ∧ LayoutAdmits d cookie) ∧ load d table cookie url = children) ∨
      ¬(EdgeAdmits d cookie ∧ LayoutAdmits d cookie) ∧
        ∃ reason, load d table cookie url = .redirect (loginUrl reason) := by
  rcases load_cases hslash h with
    ⟨hedge, hload⟩ | ⟨hedge, hload⟩
  · rcases layout_cases children with
      ⟨hlayout, hpage⟩ | ⟨hlayout, reason, hpage⟩
    · exact .inl ⟨⟨hedge, hlayout⟩, hload.trans (hroute.trans hpage)⟩
    · exact .inr ⟨fun hboth => hlayout hboth.2, reason, hload.trans (hroute.trans hpage)⟩
  · exact .inr ⟨fun hboth => hedge hboth.1, hload⟩

/-- A path below `/platform` that is protected. -/
theorem protects_of_test (path : String)
    (h : (protectedPatterns.any fun pattern => pattern.test path) = true)
    (hplatform : startsWith path "/platform" = true) : Tree.platform.Protects path := by
  obtain ⟨tree, htree⟩ := any_protectedPatterns.1 h
  cases tree with
  | platform => exact htree
  | dashboard => exact absurd (htree.startsWith.symm.trans hplatform) (by decide)

/-- The pages within the layout. -/
def pages (d : Deployment ε ρ) (table : PlatformUsers) (cookie : Option String) :
    List (String × Loaded) :=
  [("/platform/security", .page .security), ("/platform/sessions", .page .sessions),
    ("/platform/users", usersPage d table cookie)]

theorem security_mem : ("/platform/security", .page .security) ∈ pages d table cookie :=
  List.mem_cons_self

theorem sessions_mem : ("/platform/sessions", .page .sessions) ∈ pages d table cookie :=
  List.mem_cons_of_mem _ List.mem_cons_self

theorem load_page {path : String} {children : Loaded}
    (h : (path, children) ∈ pages d table cookie) (reason : Option String) :
    ((EdgeAdmits d cookie ∧ LayoutAdmits d cookie) ∧
        load d table cookie ⟨path, reason⟩ = children) ∨
      ¬(EdgeAdmits d cookie ∧ LayoutAdmits d cookie) ∧
        ∃ reason', load d table cookie ⟨path, reason⟩ = .redirect (loginUrl reason') := by
  simp only [pages, List.mem_cons, Prod.mk.injEq, List.not_mem_nil, or_false] at h
  rcases h with ⟨rfl, rfl⟩ | ⟨rfl, rfl⟩ | ⟨rfl, rfl⟩
  · have hslash : withoutSlash "/platform/security" = none := by decide
    exact visit_layout hslash (protects_of_test "/platform/security" (by decide) (by decide)) rfl
  · have hslash : withoutSlash "/platform/sessions" = none := by decide
    exact visit_layout hslash (protects_of_test "/platform/sessions" (by decide) (by decide)) rfl
  · have hslash : withoutSlash "/platform/users" = none := by decide
    exact visit_layout hslash (protects_of_test "/platform/users" (by decide) (by decide)) rfl

/-- A page without requests of its own. -/
theorem visit_page {path : String} {view : View}
    (h : (path, Loaded.page view) ∈ pages d table cookie) (reason : Option String) (n : ℕ) :
    ((EdgeAdmits d cookie ∧ LayoutAdmits d cookie) ∧
        visit d table cookie (n + 2) ⟨path, reason⟩ = some view) ∨
      ¬(EdgeAdmits d cookie ∧ LayoutAdmits d cookie) ∧
        ∃ reason', visit d table cookie (n + 2) ⟨path, reason⟩ = some (.login reason') := by
  rcases load_page h reason with ⟨hboth, hload⟩ | ⟨hnot, reason', hload⟩
  · refine .inl ⟨hboth, ?_⟩
    rw [visit, hload]
  · exact .inr ⟨hnot, reason', visit_redirect n hload⟩

/-- The page of the users. -/
theorem visit_users (hroles : d.engine.Configured) (reason : Option String) (n : ℕ) :
    (((EdgeAdmits d cookie ∧ LayoutAdmits d cookie) ∧ ApiLists d cookie) ∧
        visit d table cookie (n + 2) ⟨"/platform/users", reason⟩ =
          some (.users (listPlatformUsers table))) ∨
      ¬((EdgeAdmits d cookie ∧ LayoutAdmits d cookie) ∧ ApiLists d cookie) ∧
        (visit d table cookie (n + 2) ⟨"/platform/users", reason⟩ = some .errorBoundary ∨
          ∃ reason', visit d table cookie (n + 2) ⟨"/platform/users", reason⟩ =
            some (.login reason')) := by
  have hmem : ("/platform/users", usersPage d table cookie) ∈ pages d table cookie := by
    simp [pages]
  rcases load_page hmem reason with ⟨hboth, hload⟩ | ⟨hnot, reason', hload⟩
  · rcases usersPage_cases hroles with
      ⟨hlists, hpage⟩ | ⟨hnot, hpage | hpage⟩
    · refine .inl ⟨⟨hboth, hlists⟩, ?_⟩
      rw [visit, hload, hpage]
    · refine .inr ⟨fun h => hnot h.2, .inl ?_⟩
      rw [visit, hload, hpage]
    · exact .inr ⟨fun h => hnot h.2, .inr ⟨_, visit_redirect n (hload.trans hpage)⟩⟩
  · exact .inr ⟨fun h => hnot h.1, .inr ⟨reason', visit_redirect n hload⟩⟩

/-- The root of the tree leads to the security page. -/
theorem visit_root (reason : Option String) :
    ((EdgeAdmits d cookie ∧ LayoutAdmits d cookie) ∧
        visit d table cookie 3 ⟨"/platform", reason⟩ = some .security) ∨
      ¬(EdgeAdmits d cookie ∧ LayoutAdmits d cookie) ∧
        ∃ reason', visit d table cookie 3 ⟨"/platform", reason⟩ = some (.login reason') := by
  have hroot : Tree.platform.Protects (Url.mk "/platform" reason).pathname := Or.inl rfl
  have hslash : withoutSlash "/platform" = none := by decide
  rcases load_cases hslash hroot with ⟨-, hload⟩ | ⟨hnot, reason', hload⟩
  · have hnext : visit d table cookie 3 ⟨"/platform", reason⟩ =
        visit d table cookie 2 ⟨"/platform/security", none⟩ := by
      rw [visit, hload]
      rfl
    rw [hnext]
    exact visit_page security_mem none 0
  · exact .inr ⟨fun hboth => hnot hboth.1, reason', visit_redirect 1 hload⟩

/-- A path without a page shows none. -/
theorem visit_other {url : Url} (hslash : withoutSlash url.pathname = none)
    (hplatform : startsWith url.pathname "/platform" = true)
    (hroute : route d table cookie url = .page .notFound) :
    visit d table cookie 3 url = some .notFound ∨
      ∃ reason, visit d table cookie 3 url = some (.login reason) := by
  by_cases hprot : Tree.platform.Protects url.pathname
  · rcases load_cases hslash hprot with ⟨-, hload⟩ | ⟨-, reason, hload⟩
    · exact .inl (by rw [visit, hload, hroute])
    · exact .inr ⟨reason, visit_redirect 1 hload⟩
  · have hun : ∀ tree : Tree, ¬tree.Protects url.pathname := by
      rintro (_ | _) htree
      · exact absurd (htree.startsWith.symm.trans hplatform) (by decide)
      · exact hprot htree
    have hapi : startsWith url.pathname "/api/auth/" = false := by
      obtain ⟨rest, hrest⟩ := startsWith_iff.1 hplatform
      rw [hrest]
      simp [startsWith, List.isPrefixOf]
    have hload : load d table cookie url = .page .notFound := by
      rw [load_eq_serve hslash, serve, proxy_of_unprotected hapi hun]
      exact hroute
    exact .inl (by rw [visit, hload])

/-- Three requests end on any path of the tree without a slash at its end. -/
theorem visit_tree (hroles : d.engine.Configured) {path : String}
    (hslash : withoutSlash path = none) (h : startsWith path "/platform" = true)
    (reason : Option String) :
    ∃ view, visit d table cookie 3 ⟨path, reason⟩ = some view ∧ Gated d table cookie view := by
  by_cases hsecurity : path = "/platform/security"
  · subst hsecurity
    rcases visit_page security_mem reason 1 with ⟨hboth, hview⟩ | ⟨-, reason', hview⟩
    · exact ⟨_, hview, hboth⟩
    · exact ⟨_, hview, trivial⟩
  by_cases hsessions : path = "/platform/sessions"
  · subst hsessions
    rcases visit_page sessions_mem reason 1 with ⟨hboth, hview⟩ | ⟨-, reason', hview⟩
    · exact ⟨_, hview, hboth⟩
    · exact ⟨_, hview, trivial⟩
  by_cases husers : path = "/platform/users"
  · subst husers
    rcases visit_users hroles reason 1 with ⟨⟨hboth, hlists⟩, hview⟩ | ⟨-, hview | ⟨_, hview⟩⟩
    · exact ⟨_, hview, hboth, hlists, rfl⟩
    · exact ⟨_, hview, trivial⟩
    · exact ⟨_, hview, trivial⟩
  by_cases hlogin : path = "/platform/login"
  · subst hlogin
    have hload : load d table cookie ⟨"/platform/login", reason⟩ = .page (.login reason) :=
      load_login reason
    exact ⟨.login reason, by rw [visit, hload], trivial⟩
  by_cases hroot : path = "/platform"
  · subst hroot
    rcases visit_root reason with ⟨hboth, hview⟩ | ⟨-, reason', hview⟩
    · exact ⟨_, hview, hboth⟩
    · exact ⟨_, hview, trivial⟩
  have hroute : route d table cookie ⟨path, reason⟩ = .page .notFound := by
    simp [route, hsecurity, hsessions, husers, hlogin, hroot]
  rcases visit_other hslash h hroute with hview | ⟨_, hview⟩
  · exact ⟨_, hview, trivial⟩
  · exact ⟨_, hview, trivial⟩

/-! ## Plain paths -/

/-- A path that Next takes as it is, but for a slash at its end : of letters, digits, `-` and `_`,
its slashes single. -/
structure IsPlain (path : String) : Prop where
  chars : ∀ c ∈ path.toList, c.isAlphanum ∨ c = '-' ∨ c = '_' ∨ c = '/'
  slashes : ¬ ['/', '/'] <:+: path.toList

theorem withoutSlash_eq_some {path path' : String} (h : withoutSlash path = some path') :
    path.toList = path'.toList ++ ['/'] := by
  unfold withoutSlash at h
  split_ifs at h with hslash
  obtain rfl := Option.some.inj h
  obtain ⟨hne, hlast⟩ := List.getLast?_eq_some_iff.1 hslash.2
  rw [String.toList_ofList, hlast, List.dropLast_concat]

/-- One slash is redirected away, and no more. -/
theorem IsPlain.withoutSlash_eq_none {path path' : String} (h : IsPlain path)
    (hslash : withoutSlash path = some path') : withoutSlash path' = none := by
  have hpath := withoutSlash_eq_some hslash
  cases hagain : withoutSlash path' with
  | none => rfl
  | some path'' =>
    rw [withoutSlash_eq_some hagain, List.append_assoc] at hpath
    exact absurd ⟨path''.toList, [], by rw [hpath, List.append_nil]; rfl⟩ h.slashes

theorem startsWith_withoutSlash {path path' : String} (h : startsWith path "/platform" = true)
    (hslash : withoutSlash path = some path') : startsWith path' "/platform" = true := by
  obtain ⟨rest, rfl⟩ := startsWith_iff.1 h
  have hpath := withoutSlash_eq_some hslash
  rw [String.toList_append] at hpath
  rcases List.eq_nil_or_concat' rest.toList with hnil | ⟨rest', c, hrest⟩
  · rw [hnil, List.append_nil] at hpath
    have hlast := congrArg List.getLast? hpath
    rw [List.getLast?_concat] at hlast
    exact absurd hlast (by decide)
  · rw [hrest, ← List.append_assoc] at hpath
    obtain ⟨hpath, -⟩ := List.append_inj' hpath rfl
    refine startsWith_iff.2 ⟨String.ofList rest', ?_⟩
    rw [← String.toList_inj, String.toList_append, ← hpath]
    exact congrArg _ String.toList_ofList.symm

/-- A slash at the end of a path takes one request more. -/
theorem visit_plain (hroles : d.engine.Configured) {path : String} (hplain : IsPlain path)
    (h : startsWith path "/platform" = true) (reason : Option String) :
    ∃ view, visit d table cookie (if (withoutSlash path).isSome then 4 else 3) ⟨path, reason⟩ =
      some view ∧ Gated d table cookie view := by
  cases hslash : withoutSlash path with
  | none => exact visit_tree hroles hslash h reason
  | some path' =>
    have hload : load d table cookie ⟨path, reason⟩ = .redirect ⟨path', reason⟩ := by
      rw [load, hslash]
    rw [Option.isSome_some, if_pos rfl, visit, hload]
    exact visit_tree hroles (hplain.withoutSlash_eq_none hslash)
      (startsWith_withoutSlash h hslash) reason

/-! ## The token -/

/-- Nothing is cut off a text that neither starts nor ends in what is cut. -/
theorem trim_eq_self {p : Char → Bool} {l : List Char} (hhead : ∀ c ∈ l.head?, p c = false)
    (hlast : ∀ c ∈ l.getLast?, p c = false) : trim p l = l :=
  trim_eq_iff.2 ⟨[], [], by simp, nofun, nofun, hhead, hlast⟩

theorem not_isHttpWhitespace {c : Char} (h : IsVisible c) (hspace : c ≠ ' ') :
    isHttpWhitespace c = false := by
  have hne (c' : Char) (hlow : c'.toNat < 32) : c ≠ c' := by
    rintro rfl
    exact absurd h.1 (by omega)
  simp [isHttpWhitespace, hspace, hne '\t' (by decide), hne '\n' (by decide),
    hne '\r' (by decide)]

/-- The header of a token of visible characters. -/
theorem headerValue_bearer {token : String} (hne : token ≠ "")
    (hvisible : ∀ c ∈ token.toList, IsVisible c ∧ c ≠ ' ') :
    headerValue ("Bearer ".toList ++ token.toList) = some ("Bearer " ++ token) := by
  have hnil : token.toList ≠ [] := fun h => hne (String.toList_eq_nil_iff.1 h)
  have hlast : ∀ c ∈ ("Bearer ".toList ++ token.toList).getLast?, isHttpWhitespace c = false := by
    intro c hc
    rw [List.getLast?_append_of_ne_nil _ hnil] at hc
    obtain ⟨hv, hspace⟩ := hvisible c (List.mem_of_getLast? hc)
    exact not_isHttpWhitespace hv hspace
  have htrim : trim isHttpWhitespace ("Bearer ".toList ++ token.toList) =
      "Bearer ".toList ++ token.toList := by
    refine trim_eq_self ?_ hlast
    rintro c ⟨rfl⟩
    decide
  have hlegal : ∀ c ∈ "Bearer ".toList ++ token.toList,
      (decide (c.toNat ≤ 255) && !(['\x00', '\n', '\r'].contains c)) = true := by
    intro c hc
    have hv : IsVisible c := by
      rcases List.mem_append.1 hc with hc | hc
      · exact forall_mem_of_all (p := IsVisible) (by decide) c hc
      · exact (hvisible c hc).1
    obtain ⟨hlow, hhigh⟩ := hv
    have hnot (c' : Char) (hcontrol : c'.toNat < 32) : c ≠ c' := by
      rintro rfl
      omega
    simp [hnot '\x00' (by decide), hnot '\n' (by decide), hnot '\r' (by decide)]
    omega
  rw [headerValue]
  simp only [htrim]
  rw [if_pos (List.all_eq_true.2 hlegal), ← String.toList_append, String.ofList_toList]

/-- A token of visible characters reaches the API as it is. -/
theorem accessToken_usersParts {token : String} (hne : token ≠ "")
    (hvisible : ∀ c ∈ token.toList, IsVisible c ∧ c ≠ ' ') (name : String) :
    ∃ parts, usersParts (some token) = some parts ∧ accessToken parts name = some token := by
  have hnil : token.toList ≠ [] := fun h => hne (String.toList_eq_nil_iff.1 h)
  have htrim : trim isWhitespace token.toList = token.toList :=
    trim_eq_self
      (fun c hc => not_isWhitespace (hvisible c (List.mem_of_head? hc)).1
        (hvisible c (List.mem_of_head? hc)).2)
      fun c hc => not_isWhitespace (hvisible c (List.mem_of_getLast? hc)).1
        (hvisible c (List.mem_of_getLast? hc)).2
  refine ⟨{ uri := "/platform/users", headers := [("authorization", "Bearer " ++ token)] }, ?_, ?_⟩
  · rw [usersParts, headerValue_bearer hne hvisible]
    rfl
  · have hbearer : IsBearer ("Bearer " ++ token) token := by
      refine ⟨"Bearer".toList, token.toList, String.toList_append, by decide, ?_, ?_⟩
      · rwa [htrim]
      · rw [htrim, String.ofList_toList]
    have hread : ∀ c ∈ ("Bearer " ++ token).toList, IsVisible c := by
      intro c hc
      rw [String.toList_append] at hc
      rcases List.mem_append.1 hc with hc | hc
      · exact forall_mem_of_all (p := IsVisible) (by decide) c hc
      · exact (hvisible c hc).1
    rw [accessToken, (bearerToken_eq_some_iff rfl hread token).2 hbearer]
    rfl

/-- The API lists the users for the very token of the cookie. -/
theorem apiLists_iff {token : String} (hne : token ≠ "")
    (hvisible : ∀ c ∈ token.toList, IsVisible c ∧ c ≠ ' ') :
    ApiLists d (some token) ↔ d.reachable = true ∧
      (∃ claims, d.engine.verifyPlatformToken token = .ok claims ∧ claims.role = "admin") ∧
        d.query = .ok () := by
  obtain ⟨parts, hparts, htoken⟩ :=
    accessToken_usersParts hne hvisible d.engine.accessTokenName
  constructor
  · rintro ⟨parts', hparts', hreach, ⟨token', claims, htoken', hclaims, hrole⟩, hquery⟩
    obtain rfl := Option.some.inj (hparts.symm.trans hparts')
    obtain rfl := Option.some.inj (htoken.symm.trans htoken')
    exact ⟨hreach, ⟨claims, hclaims, hrole⟩, hquery⟩
  · rintro ⟨hreach, ⟨claims, hclaims, hrole⟩, hquery⟩
    exact ⟨parts, hparts, hreach, ⟨token, claims, htoken, hclaims, hrole⟩, hquery⟩

/-- Whatever the cookie, the verifier, the decoder and the API, three requests end on any plain
path of the tree, four on one with a slash at its end, and no page of the console is shown unless
both gates admit the cookie. The security and sessions pages are then, and the users are shown
exactly where the API lists them too, which for a token of visible characters is where it verifies
this token as that of an administrator. -/
theorem console_gated (hroles : d.engine.Configured) (table : PlatformUsers)
    (cookie reason : Option String) :
    (∀ path, IsPlain path → startsWith path "/platform" = true → ∃ view,
      visit d table cookie (if (withoutSlash path).isSome then 4 else 3) ⟨path, reason⟩ =
        some view ∧ Gated d table cookie view) ∧
    (EdgeAdmits d cookie ∧ LayoutAdmits d cookie →
      visit d table cookie 3 ⟨"/platform", reason⟩ = some .security ∧
        visit d table cookie 3 ⟨"/platform/security", reason⟩ = some .security ∧
          visit d table cookie 3 ⟨"/platform/sessions", reason⟩ = some .sessions) ∧
    (∀ rows, visit d table cookie 3 ⟨"/platform/users", reason⟩ = some (.users rows) ↔
      ((EdgeAdmits d cookie ∧ LayoutAdmits d cookie) ∧ ApiLists d cookie) ∧
        rows = listPlatformUsers table) ∧
    ∀ token, cookie = some token → token ≠ "" →
      (∀ c ∈ token.toList, IsVisible c ∧ c ≠ ' ') →
      (ApiLists d cookie ↔ d.reachable = true ∧
        (∃ claims, d.engine.verifyPlatformToken token = .ok claims ∧ claims.role = "admin") ∧
          d.query = .ok ()) := by
  refine ⟨fun path hplain h => visit_plain hroles hplain h reason, fun hboth => ⟨?_, ?_, ?_⟩,
    fun rows => ?_, ?_⟩
  · exact ((visit_root reason).resolve_right fun h => h.1 hboth).2
  · exact ((visit_page security_mem reason 1).resolve_right fun h => h.1 hboth).2
  · exact ((visit_page sessions_mem reason 1).resolve_right fun h => h.1 hboth).2
  · rcases visit_users hroles reason 1 with
      ⟨hlisted, hview⟩ | ⟨hnot, hview | ⟨_, hview⟩⟩
    · rw [hview, Option.some_inj, View.users.injEq, eq_comm]
      exact (and_iff_right hlisted).symm
    · rw [hview]
      exact iff_of_false nofun fun h => hnot h.1
    · rw [hview]
      exact iff_of_false nofun fun h => hnot h.1
  · rintro token rfl hne hvisible
    exact apiLists_iff hne hvisible

/-- A deployment in which every token is one of the platform, and one that of an administrator. -/
def exampleDeployment : Deployment Empty Unit where
  edge :=
    { accessTokenSecret := "edge-secret"
      verifyJwtToken := fun _ _ => .ok ⟨true, some ⟨some (.str "platform")⟩⟩
      authProxy := fun _ => () }
  decodeJwtToken _ := .ok ⟨true, some ⟨some (.str "platform")⟩⟩
  appEnv := .production
  engine :=
    { exampleEngine with
      verifyPlatformToken := fun token =>
        .ok ⟨"p1", if token = "pat" then "admin" else "support"⟩ }
  handlers :=
    { health := ⟨200, none⟩
      listPlatformUsers := fun _ => .ok ⟨500, none⟩
      realtime := fun _ => .error (.auth .tokenMissing)
      listLogs := fun _ _ => .ok ⟨200, none⟩
      streamLogs := fun _ _ => .ok ⟨200, none⟩
      aggregate := fun _ => .ok ⟨200, none⟩
      hashStrength := fun _ => ⟨200, none⟩
      forceLockout := fun _ => .ok ⟨200, none⟩
      resetLockout := fun _ => .ok ⟨200, none⟩
      recentHooks := fun _ => .ok ⟨200, none⟩
      whoami := fun _ => ⟨200, none⟩
      platformWhoami := fun _ => ⟨200, none⟩ }
  responses :=
    { errorResponse := fun error => match error with
        | .insufficientRole => ⟨403, none⟩
        | .internal _ => ⟨500, none⟩
        | _ => ⟨401, none⟩
      withoutBody := id
      methodNotAllowed := ⟨405, none⟩ }
  reachable := true
  query := .ok ()
  notOk error := by cases error <;> rfl

/-- The table with the demo administrator. -/
def demoTable : PlatformUsers := runPlatform [(.seed "h1", platformEnv)] noPlatformUsers

/-- An administrator sees the table. A support agent does not, and from the root of the tree
written with a slash lands on the security page. -/
theorem console_gated_supportAgent :
    visit exampleDeployment demoTable (some "pat") 3 ⟨"/platform/users", none⟩ =
        some (.users [⟨"p1", "admin@platform.local", "Demo Admin", "admin", "active", false, none,
          none, 7, 7⟩]) ∧
      (∀ rows, visit exampleDeployment demoTable (some "sam") 3 ⟨"/platform/users", none⟩ ≠
        some (.users rows)) ∧
      visit exampleDeployment demoTable (some "sam") 4 ⟨"/platform/", none⟩ = some .security := by
  have hroles : exampleDeployment.engine.Configured := ⟨fun _ _ => rfl, fun _ _ => rfl⟩
  have hgates (token : String) :
      EdgeAdmits exampleDeployment (some token) ∧ LayoutAdmits exampleDeployment (some token) :=
    ⟨⟨token, _, rfl, rfl, rfl⟩, token, _, rfl, rfl, rfl⟩
  obtain ⟨-, hshown, hlists, hapi⟩ :=
    console_gated (d := exampleDeployment) hroles demoTable (some "sam") none
  refine ⟨?_, fun rows hview => ?_, ?_⟩
  · obtain ⟨-, -, hlists, hapi⟩ :=
      console_gated (d := exampleDeployment) hroles demoTable (some "pat") none
    exact (hlists _).2 ⟨⟨hgates "pat",
      (hapi "pat" rfl (by decide) (forall_mem_of_all (by decide))).2
        ⟨rfl, ⟨_, rfl, rfl⟩, rfl⟩⟩, by decide⟩
  · obtain ⟨-, ⟨claims, hclaims, hrole⟩, -⟩ :=
      (hapi "sam" rfl (by decide) (forall_mem_of_all (by decide))).1 ((hlists rows).1 hview).1.2
    cases hclaims
    exact absurd hrole (by decide)
  · have hslash : withoutSlash "/platform/" = some "/platform" := by decide
    rw [visit, load, hslash]
    exact (hshown (hgates "sam")).1

end PlatformConsole

end AuthExample
