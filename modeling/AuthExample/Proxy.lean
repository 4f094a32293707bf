import AuthExample.Json
import AuthExample.Regex

/-!
# The edge gate

`proxy` decides every request that reaches the edge : `/api/auth/` traffic is delegated,
a path outside `PROTECTED` passes, and a protected path passes on a session cookie that
verifies and whose token type is that of the path's tree. Verification is the library's,
so the verifier is a parameter; nothing is assumed of it.

`proxy_gate` : no path and no token gets through another way, and every refusal is a
redirect to the login of the tree.
-/

namespace AuthExample

/-! ## Requests, the verifier and answers -/

/-- The payload of a verified token, with its `type` if it has one. -/
structure TokenPayload where
  type : Option Json

/-- What `verifyJwtToken` resolves to. -/
structure Decoded where
  isValid : Bool
  payload : Option TokenPayload

/-- `NextRequest` : the URL, its path and the access cookie. -/
structure NextRequest where
  url : String
  pathname : String
  accessCookie : Option String

/-- What the gate is built from : the secret, the verifier and the `/api/auth/*` proxy. -/
structure Edge (ε ρ : Type*) where
  accessTokenSecret : String
  verifyJwtToken : String → String → Except ε Decoded
  authProxy : NextRequest → ρ

/-- A pass-through, a redirect to a login, or the answer of the auth proxy. -/
inductive Answer (ρ : Type*) where
  | next
  | redirect (base loginPath : String) (reason : Option String)
  | authProxy (answer : ρ)
  deriving DecidableEq

/-! ## The gate -/

/-- `s.startsWith(w)`. -/
def startsWith (s w : String) : Bool := w.toList.isPrefixOf s.toList

/-- `/^\/dashboard(?:\/|$)/` and `/^\/platform(?:$|\/(?!login(?:\/|$)))/`. -/
def protectedPatterns : List Regex :=
  [.seq .bos (.seq (.lit "/dashboard") (.alt (.lit "/") .eos)),
    .seq .bos (.seq (.lit "/platform") (.alt .eos
      (.seq (.lit "/") (.notAhead (.seq (.lit "login") (.alt (.lit "/") .eos))))))]

/-- Return a redirect to the matching login URL. -/
def loginRedirect {ρ : Type*} (base loginPath : String) (reason : Option String) : Answer ρ :=
  .redirect base loginPath reason

/-- What the access cookie decodes to. A rejected verification is no session. -/
def decodedOf {ε ρ : Type*} (edge : Edge ε ρ) (request : NextRequest) : Option Decoded :=
  request.accessCookie.bind fun token =>
    (edge.verifyJwtToken token edge.accessTokenSecret).toOption

/-- Gate a request. -/
def proxy {ε ρ : Type*} (edge : Edge ε ρ) (request : NextRequest) : Answer ρ :=
  if startsWith request.pathname "/api/auth/" then .authProxy (edge.authProxy request)
  else if !protectedPatterns.any (fun pattern => pattern.test request.pathname) then .next
  else
    let isPlatform := startsWith request.pathname "/platform"
    let loginPath := if isPlatform then "/platform/login" else "/auth/login"
    let expectedType := if isPlatform then "platform" else "dashboard"
    match decodedOf edge request with
    | some { isValid := true, payload } =>
      let tokenType := payload.bind TokenPayload.type
      if tokenType.bind Json.str? ≠ some expectedType
      then loginRedirect request.url loginPath (some "wrong-domain")
      else .next
    | _ => loginRedirect request.url loginPath none

/-! ## The protected trees -/

/-- The two trees of protected pages. -/
inductive Tree where
  | dashboard
  | platform
  deriving DecidableEq

namespace Tree

/-- The token type the tree admits. -/
def type : Tree → String
  | dashboard => "dashboard"
  | platform => "platform"

/-- The login of the tree. -/
def loginPath : Tree → String
  | dashboard => "/auth/login"
  | platform => "/platform/login"

/-- A path of the dashboard tree is `/dashboard` or below it; one of the platform tree
is `/platform` or below it with a next segment other than `login`. -/
def Protects : Tree → String → Prop
  | dashboard, path => path = "/dashboard" ∨ ∃ rest, path = "/dashboard/" ++ rest
  | platform, path => path = "/platform" ∨
      ∃ rest, path = "/platform/" ++ rest ∧ rest ≠ "login" ∧ ∀ more, rest ≠ "login/" ++ more

end Tree

theorem exists_toList (xs : List Char) : ∃ s : String, s.toList = xs :=
  ⟨String.ofList xs, String.toList_ofList⟩

theorem startsWith_iff {s w : String} : startsWith s w = true ↔ ∃ rest, s = w ++ rest := by
  simp only [startsWith, List.isPrefixOf_iff_prefix, ← String.toList_inj, String.toList_append]
  constructor
  · rintro ⟨xs, h⟩
    obtain ⟨rest, rfl⟩ := exists_toList xs
    exact ⟨rest, h.symm⟩
  · rintro ⟨rest, h⟩
    exact ⟨rest.toList, h.symm⟩

/-- `w(?:/|$)` : the text is `w`, or continues with a slash. -/
theorem here_segment {w : String} {before after : List Char} :
    (Regex.seq (.lit w) (.alt (.lit "/") .eos)).Here before after ↔
      after = w.toList ∨ ∃ more, after = w.toList ++ "/".toList ++ more := by
  simp only [Regex.here_seq_lit, Regex.here_alt, Regex.here_lit, Regex.here_eos]
  constructor
  · rintro ⟨_, h, ⟨more, rfl⟩ | rfl⟩
    · exact Or.inr ⟨more, by rw [h, List.append_assoc]⟩
    · exact Or.inl (by rw [h, List.append_nil])
  · rintro (h | ⟨more, h⟩)
    · exact ⟨[], by rw [h, List.append_nil], Or.inr rfl⟩
    · exact ⟨"/".toList ++ more, by rw [h, List.append_assoc], Or.inl ⟨more, rfl⟩⟩

theorem test_dashboard {path : String} :
    (Regex.seq .bos (.seq (.lit "/dashboard") (.alt (.lit "/") .eos))).test path = true ↔
      Tree.dashboard.Protects path := by
  have hslash : "/dashboard/".toList = "/dashboard".toList ++ "/".toList := rfl
  simp only [Regex.test_bos, here_segment, Tree.Protects, ← String.toList_inj,
    String.toList_append, hslash]
  refine or_congr Iff.rfl ⟨fun ⟨xs, h⟩ => ?_, fun ⟨rest, h⟩ => ⟨rest.toList, h⟩⟩
  obtain ⟨rest, rfl⟩ := exists_toList xs
  exact ⟨rest, h⟩

theorem test_platform {path : String} :
    (Regex.seq .bos (.seq (.lit "/platform") (.alt .eos (.seq (.lit "/")
      (.notAhead (.seq (.lit "login") (.alt (.lit "/") .eos))))))).test path = true ↔
      Tree.platform.Protects path := by
  have hslash : "/platform/".toList = "/platform".toList ++ "/".toList := rfl
  have hlogin : "login/".toList = "login".toList ++ "/".toList := rfl
  simp only [Regex.test_bos, Regex.here_seq_lit, Regex.here_alt, Regex.here_eos,
    Regex.here_notAhead, ↓here_segment, Tree.Protects, ne_eq, ← String.toList_inj,
    String.toList_append, not_or, not_exists, hslash, hlogin]
  constructor
  · rintro ⟨_, hpath, rfl | ⟨rest, rfl, hne, hmore⟩⟩
    · exact Or.inl (by rw [hpath, List.append_nil])
    · obtain ⟨rest, rfl⟩ := exists_toList rest
      exact Or.inr ⟨rest, by rw [hpath, List.append_assoc], hne, fun more => hmore more.toList⟩
  · rintro (hpath | ⟨rest, hpath, hne, hmore⟩)
    · exact ⟨[], by rw [hpath, List.append_nil], Or.inl rfl⟩
    · refine ⟨"/".toList ++ rest.toList, by rw [hpath, List.append_assoc],
        Or.inr ⟨rest.toList, rfl, hne, fun more hm => ?_⟩⟩
      obtain ⟨more, rfl⟩ := exists_toList more
      exact hmore more hm

/-- A path is protected when it is in one of the trees. -/
theorem any_protectedPatterns {path : String} :
    protectedPatterns.any (fun pattern => pattern.test path) = true ↔
      ∃ tree : Tree, tree.Protects path := by
  simp only [protectedPatterns, List.any_cons, List.any_nil, Bool.or_false, Bool.or_eq_true,
    test_dashboard, test_platform]
  constructor
  · rintro (h | h)
    · exact ⟨.dashboard, h⟩
    · exact ⟨.platform, h⟩
  · rintro ⟨tree, h⟩
    cases tree with
    | dashboard => exact Or.inl h
    | platform => exact Or.inr h

/-- The prefix test tells the tree of a protected path. -/
theorem Tree.Protects.startsWith {tree : Tree} {path : String} (h : tree.Protects path) :
    startsWith path "/platform" = decide (tree = .platform) := by
  cases tree with
  | dashboard =>
    rw [decide_eq_false nofun]
    rcases h with rfl | ⟨rest, rfl⟩
    · rfl
    · simp [AuthExample.startsWith, List.isPrefixOf]
  | platform =>
    rw [decide_eq_true rfl, startsWith_iff]
    rcases h with rfl | ⟨rest, rfl, -⟩
    · exact ⟨"", rfl⟩
    · exact ⟨"/" ++ rest, by rw [← String.append_assoc]; rfl⟩

/-- The cookie verifies, with this token type. -/
def Verifies {ε ρ : Type*} (edge : Edge ε ρ) (request : NextRequest) (type : Option Json) : Prop :=
  ∃ token payload, request.accessCookie = some token ∧
    edge.verifyJwtToken token edge.accessTokenSecret = .ok { isValid := true, payload } ∧
    payload.bind TokenPayload.type = type

section

variable {ε ρ : Type*} {edge : Edge ε ρ} {request : NextRequest}

theorem verifies_iff {type : Option Json} : Verifies edge request type ↔
    ∃ payload, decodedOf edge request = some { isValid := true, payload } ∧
      payload.bind TokenPayload.type = type := by
  unfold Verifies decodedOf
  cases request.accessCookie with
  | none => simp
  | some token =>
    cases hv : edge.verifyJwtToken token edge.accessTokenSecret <;> simp [Except.toOption, hv]

theorem str?_bind_eq_some {v : Option Json} {s : String} :
    v.bind Json.str? = some s ↔ v = some (.str s) := by
  cases v <;> simp [Json.str?_eq_some]

variable (hapi : startsWith request.pathname "/api/auth/" = false)

include hapi

theorem proxy_of_unprotected (h : ∀ tree : Tree, ¬ tree.Protects request.pathname) :
    proxy edge request = .next := by
  have hany : protectedPatterns.any (fun pattern => pattern.test request.pathname) = false := by
    rw [← Bool.not_eq_true, any_protectedPatterns]
    exact fun ⟨tree, ht⟩ => h tree ht
  simp [proxy, hapi, hany]

/-- The gate on a path of the tree. -/
theorem proxy_of_protects {tree : Tree} (h : tree.Protects request.pathname) :
    proxy edge request = match decodedOf edge request with
      | some { isValid := true, payload } =>
        if (payload.bind TokenPayload.type).bind Json.str? ≠ some tree.type
        then loginRedirect request.url tree.loginPath (some "wrong-domain")
        else .next
      | _ => loginRedirect request.url tree.loginPath none := by
  have hany := any_protectedPatterns.2 ⟨tree, h⟩
  simp only [proxy, hapi, hany, h.startsWith, Bool.false_eq_true, if_false, Bool.not_true]
  cases tree <;> rfl

/-- A path of the tree passes exactly when the cookie verifies with its token type. -/
theorem proxy_eq_next_iff {tree : Tree} (h : tree.Protects request.pathname) :
    proxy edge request = .next ↔ Verifies edge request (some (.str tree.type)) := by
  rw [proxy_of_protects hapi h, verifies_iff]
  cases decodedOf edge request with
  | none => simp [loginRedirect]
  | some decoded =>
    obtain ⟨isValid, payload⟩ := decoded
    cases isValid <;> simp [loginRedirect, ← str?_bind_eq_some]

/-- A refused path of the tree is redirected to its login. -/
theorem proxy_eq_redirect {tree : Tree} (h : tree.Protects request.pathname)
    (hne : proxy edge request ≠ .next) : ∃ reason,
      proxy edge request = .redirect request.url tree.loginPath reason ∧
        (reason = some "wrong-domain" ↔ ∃ type, Verifies edge request type ∧
          type ≠ some (.str tree.type)) ∧
        (reason ≠ some "wrong-domain" → reason = none) := by
  simp only [proxy_of_protects hapi h, verifies_iff] at hne ⊢
  generalize decodedOf edge request = decoded at hne ⊢
  cases decoded with
  | none => exact ⟨none, rfl, by simp⟩
  | some decoded =>
    obtain ⟨isValid, payload⟩ := decoded
    cases isValid with
    | false => exact ⟨none, rfl, by simp⟩
    | true =>
      have htype : (payload.bind TokenPayload.type).bind Json.str? ≠ some tree.type := by
        intro htype
        simp [htype] at hne
      refine ⟨some "wrong-domain", by simp [htype, loginRedirect], ?_, by simp⟩
      rw [ne_eq, str?_bind_eq_some] at htype
      exact iff_of_true rfl ⟨_, ⟨payload, rfl, rfl⟩, htype⟩

end

/-- Outside `/api/auth/`, a request passes exactly when its path is unprotected, or its
cookie verifies with the token type of the path's tree. Any other request is redirected
to the login of the tree, with a reason when the cookie verifies with another type. -/
theorem proxy_gate {ε ρ : Type*} (edge : Edge ε ρ) (request : NextRequest)
    (hapi : startsWith request.pathname "/api/auth/" = false) :
    (proxy edge request = .next ↔ (∀ tree : Tree, ¬ tree.Protects request.pathname) ∨
      ∃ tree : Tree, tree.Protects request.pathname ∧
        Verifies edge request (some (.str tree.type))) ∧
    (proxy edge request ≠ .next → ∃ (tree : Tree) (reason : Option String),
      tree.Protects request.pathname ∧
        proxy edge request = .redirect request.url tree.loginPath reason ∧
        (reason = some "wrong-domain" ↔ ∃ type, Verifies edge request type ∧
          type ≠ some (.str tree.type)) ∧
        (reason ≠ some "wrong-domain" → reason = none)) := by
  by_cases hprot : ∃ tree : Tree, tree.Protects request.pathname
  · refine ⟨⟨fun hnext => Or.inr ?_, ?_⟩, fun hne => ?_⟩
    · obtain ⟨tree, h⟩ := hprot
      exact ⟨tree, h, (proxy_eq_next_iff hapi h).1 hnext⟩
    · rintro (hun | ⟨tree, h, hv⟩)
      · exact proxy_of_unprotected hapi hun
      · exact (proxy_eq_next_iff hapi h).2 hv
    · obtain ⟨tree, h⟩ := hprot
      obtain ⟨reason, hreason⟩ := proxy_eq_redirect hapi h hne
      exact ⟨tree, reason, h, hreason⟩
  · have hun : ∀ tree : Tree, ¬ tree.Protects request.pathname := not_exists.1 hprot
    have hnext : proxy edge request = .next := proxy_of_unprotected hapi hun
    exact ⟨iff_of_true hnext (Or.inl hun), fun hne => absurd hnext hne⟩

/-- A verifier that takes every token for one of the dashboard. -/
def dashboardEdge : Edge Empty Unit where
  accessTokenSecret := "edge-secret"
  verifyJwtToken _ _ := .ok { isValid := true, payload := some { type := some (.str "dashboard") } }
  authProxy _ := ()

/-- A request for a platform page. -/
def platformUsers : NextRequest where
  url := "http://localhost/platform/users"
  pathname := "/platform/users"
  accessCookie := some "dashboard-token"

theorem proxy_gate_platformUsers :
    proxy dashboardEdge platformUsers ≠ .next ∧ ∃ (tree : Tree) (reason : Option String),
      tree.Protects platformUsers.pathname ∧
        proxy dashboardEdge platformUsers = .redirect platformUsers.url tree.loginPath reason := by
  have hne : proxy dashboardEdge platformUsers ≠ .next := by
    have heval : proxy dashboardEdge platformUsers =
      .redirect platformUsers.url "/platform/login" (some "wrong-domain") := by decide
    rw [heval]
    exact nofun
  obtain ⟨tree, reason, hprot, hredirect, -⟩ :=
    (proxy_gate dashboardEdge platformUsers (by decide)).2 hne
  exact ⟨hne, tree, reason, hprot, hredirect⟩

end AuthExample
