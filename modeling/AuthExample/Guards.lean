import AuthExample.Scan

/-!
# The credential of a request

The guards of the example's own routes take the access token from the `Authorization` header,
or else from a cookie. Both headers are parsed by hand.

`cookieToken_render` : in a header that renders a list of cookies, the token is the value of the
first of that name. `bearerToken_eq_some_iff` : the bearer token is what follows the scheme.
-/

namespace AuthExample

open Scan

/-! ## The code -/

/-- The head of a request : its URI and its headers, under lower-case names. -/
structure Parts where
  uri : String
  headers : List (String × String)

/-- `headers.get(name)`, the first header of the name. -/
def Parts.header (parts : Parts) (name : String) : Option String :=
  (parts.headers.find? fun header => header.1 == name).map Prod.snd

/-- The characters `HeaderValue::to_str` lets through. -/
def isVisibleAscii (c : Char) : Bool := 32 ≤ c.toNat && c.toNat < 127 || c == '\t'

/-- `to_str`. -/
def toStr (value : String) : Option String :=
  if value.toList.all isVisibleAscii then some value else none

/-- `char::is_whitespace` : the Unicode white space. -/
def isWhitespace (c : Char) : Bool :=
  9 ≤ c.toNat && c.toNat ≤ 13 || 0x2000 ≤ c.toNat && c.toNat ≤ 0x200A ||
    [0x20, 0x85, 0xA0, 0x1680, 0x2028, 0x2029, 0x202F, 0x205F, 0x3000].contains c.toNat

/-- The text as a string, none where it is empty. -/
def someUnlessEmpty (text : List Char) : Option String :=
  if text.isEmpty then none else some (String.ofList text)

def bearerToken (parts : Parts) : Option String := do
  let value ← toStr (← parts.header "authorization")
  let (scheme, rest) ← splitOnce [' '] value.toList
  if eqIgnoreAsciiCase scheme "Bearer".toList then someUnlessEmpty (trim isWhitespace rest)
  else none

/-- The value of a pair of that name. -/
def cookieValue (name pair : List Char) : Option (List Char) := do
  let (key, value) ← splitOnce ['='] (trim isWhitespace pair)
  if key = name then some (trim isWhitespace value) else none

def cookieToken (parts : Parts) (name : String) : Option String := do
  let header ← toStr (← parts.header "cookie")
  let value ← (header.toList.splitOn ';').findSome? (cookieValue name.toList)
  someUnlessEmpty value

def accessToken (parts : Parts) (cookieName : String) : Option String :=
  (bearerToken parts).or (cookieToken parts cookieName)

/-! ## Rendered cookies -/

/-- Visible ASCII, the space included. -/
def IsVisible (c : Char) : Prop := 32 ≤ c.toNat ∧ c.toNat < 127

instance (c : Char) : Decidable (IsVisible c) := inferInstanceAs (Decidable (_ ∧ _))

/-- A cookie, and the spaces it is rendered with : before it, after its `=`, and after it. -/
structure CookiePair where
  name : List Char
  value : List Char
  before : ℕ
  inner : ℕ
  after : ℕ
  nameLegal : ∀ c ∈ name, IsVisible c ∧ c ≠ '=' ∧ c ≠ ';' ∧ c ≠ ' '
  valueLegal : ∀ c ∈ value, IsVisible c ∧ c ≠ ';'

def spaces (count : ℕ) : List Char := List.replicate count ' '

/-- What follows the `=`. -/
def CookiePair.valueText (pair : CookiePair) : List Char :=
  spaces pair.inner ++ pair.value ++ spaces pair.after

/-- The cookie as it stands in a header. -/
def CookiePair.text (pair : CookiePair) : List Char :=
  spaces pair.before ++ (pair.name ++ '=' :: pair.valueText)

/-- The header of the cookies. -/
def renderCookies (pairs : List CookiePair) : String :=
  String.ofList ([';'].intercalate (pairs.map CookiePair.text))

theorem isWhitespace_of_mem_spaces {count : ℕ} : ∀ c ∈ spaces count, isWhitespace c = true := by
  intro c hc
  rw [List.eq_of_mem_replicate hc]
  decide

/-- The space is the only visible white space. -/
theorem not_isWhitespace {c : Char} (h : IsVisible c) (hspace : c ≠ ' ') :
    isWhitespace c = false := by
  obtain ⟨hlow, hhigh⟩ := h
  have hne : c.toNat ≠ 32 := fun heq => hspace (Char.toNat_inj.1 heq)
  simp [isWhitespace]
  omega

/-- Trimming a rendered cookie cuts the spaces before it, and those after its value. -/
theorem trim_text (pair : CookiePair) : trim isWhitespace pair.text =
    pair.name ++ '=' :: pair.valueText.rdropWhile isWhitespace := by
  obtain ⟨cut, hvalue, hcut, hlast⟩ := rdropWhile_eq_iff.1
    (rfl : pair.valueText.rdropWhile isWhitespace = _)
  refine trim_eq_iff.2 ⟨spaces pair.before, cut, ?_, isWhitespace_of_mem_spaces, hcut, ?_, ?_⟩
  · conv_lhs => rw [CookiePair.text, hvalue]
    simp only [List.append_assoc, List.cons_append]
  · intro c hc
    cases hname : pair.name with
    | nil =>
      rw [hname] at hc
      obtain rfl := Option.some.inj hc
      decide
    | cons d name =>
      rw [hname] at hc
      obtain rfl := Option.some.inj hc
      have hlegal := pair.nameLegal d (hname ▸ List.mem_cons_self)
      exact not_isWhitespace hlegal.1 hlegal.2.2.2
  · intro c hc
    rw [List.getLast?_append_of_ne_nil _ (List.cons_ne_nil _ _)] at hc
    cases hrest : pair.valueText.rdropWhile isWhitespace with
    | nil =>
      rw [hrest] at hc
      obtain rfl := Option.some.inj hc
      decide
    | cons d rest =>
      rw [hrest, List.getLast?_cons_cons] at hc
      exact hlast c (hrest ▸ hc)

/-- Trimming what is left of the value trims the value. -/
theorem trim_valueText (pair : CookiePair) :
    trim isWhitespace (pair.valueText.rdropWhile isWhitespace) = trim isWhitespace pair.value := by
  obtain ⟨cut, hvalue, hcut, -⟩ := rdropWhile_eq_iff.1
    (rfl : pair.valueText.rdropWhile isWhitespace = _)
  have hwhole := trim_append (b := []) nofun hcut (pair.valueText.rdropWhile isWhitespace)
  rw [List.nil_append, ← hvalue] at hwhole
  rw [← hwhole]
  exact trim_append isWhitespace_of_mem_spaces isWhitespace_of_mem_spaces pair.value

/-- The value is found under the name, and under no other. -/
theorem cookieValue_text (name : List Char) (pair : CookiePair) :
    cookieValue name pair.text =
      if pair.name = name then some (trim isWhitespace pair.value) else none := by
  have hname : '=' ∉ pair.name := fun h => (pair.nameLegal '=' h).2.1 rfl
  have hsplit : splitOnce ['='] (pair.name ++ '=' :: pair.valueText.rdropWhile isWhitespace) =
      some (pair.name, pair.valueText.rdropWhile isWhitespace) := splitOnce_append _ hname
  rw [cookieValue, trim_text, hsplit]
  simp only [Option.bind_eq_bind, Option.bind_some, trim_valueText]

/-- A rendered cookie has no separator. -/
theorem semicolon_not_mem_text (pair : CookiePair) : ';' ∉ pair.text := by
  have hspaces (count : ℕ) : ';' ∉ spaces count := fun h =>
    absurd (List.eq_of_mem_replicate h) (by decide)
  intro h
  simp only [CookiePair.text, CookiePair.valueText, List.mem_append, List.mem_cons] at h
  rcases h with h | h | h | (h | h) | h
  · exact hspaces _ h
  · exact (pair.nameLegal _ h).2.2.1 rfl
  · exact absurd h (by decide)
  · exact hspaces _ h
  · exact (pair.valueLegal _ h).2 rfl
  · exact hspaces _ h

/-- Splitting a rendered header gives back its cookies. -/
theorem findSome?_splitOn (name : List Char) (pairs : List CookiePair) :
    (([';'].intercalate (pairs.map CookiePair.text)).splitOn ';').findSome? (cookieValue name) =
      (pairs.find? fun pair => pair.name = name).map fun pair => trim isWhitespace pair.value := by
  cases pairs with
  | nil => rfl
  | cons pair pairs =>
    have hsemicolon : ∀ text ∈ (pair :: pairs).map CookiePair.text, ';' ∉ text := fun text h => by
      obtain ⟨pair, -, rfl⟩ := List.mem_map.1 h
      exact semicolon_not_mem_text pair
    rw [List.splitOn_intercalate ';' hsemicolon (List.map_eq_nil_iff.not.2 (List.cons_ne_nil _ _)),
      List.findSome?_map]
    generalize pair :: pairs = all
    induction all with
    | nil => rfl
    | cons pair all ih =>
      rw [List.findSome?_cons, List.find?_cons, Function.comp_apply, cookieValue_text]
      by_cases hname : pair.name = name
      · simp [hname]
      · simp only [hname, if_false, decide_false]
        exact ih

/-- Every character of a rendered header is visible. -/
theorem isVisible_renderCookies (pairs : List CookiePair) :
    ∀ c ∈ (renderCookies pairs).toList, IsVisible c := by
  have hspaces (count : ℕ) : ∀ c ∈ spaces count, IsVisible c := fun c hc => by
    rw [List.eq_of_mem_replicate hc]
    decide
  rw [renderCookies, String.toList_ofList]
  intro c hc
  rcases mem_intercalate hc with rfl | ⟨text, htext, hc⟩
  · decide
  · obtain ⟨pair, -, rfl⟩ := List.mem_map.1 htext
    simp only [CookiePair.text, CookiePair.valueText, List.mem_append, List.mem_cons] at hc
    rcases hc with hc | hc | rfl | (hc | hc) | hc
    · exact hspaces _ c hc
    · exact (pair.nameLegal c hc).1
    · decide
    · exact hspaces _ c hc
    · exact (pair.valueLegal c hc).1
    · exact hspaces _ c hc

/-- A visible header is read as it is. -/
theorem toStr_of_isVisible {value : String} (h : ∀ c ∈ value.toList, IsVisible c) :
    toStr value = some value := by
  refine if_pos (List.all_eq_true.2 fun c hc => ?_)
  obtain ⟨hlow, hhigh⟩ := h c hc
  simp [isVisibleAscii, hlow, hhigh]

/-! ## Tokens -/

/-- The value of the first cookie of the name, unless it is blank. -/
def cookieNamed (pairs : List CookiePair) (name : String) : Option String :=
  match pairs.find? fun pair => pair.name = name.toList with
  | some pair => someUnlessEmpty (trim isWhitespace pair.value)
  | none => none

/-- The token in a header that renders cookies. -/
theorem cookieToken_render {parts : Parts} {pairs : List CookiePair}
    (h : parts.header "cookie" = some (renderCookies pairs)) (name : String) :
    cookieToken parts name = cookieNamed pairs name := by
  have hvalue := findSome?_splitOn name.toList pairs
  have hread := toStr_of_isVisible (isVisible_renderCookies pairs)
  simp only [cookieToken, h, hread, Option.bind_eq_bind, Option.bind_some]
  rw [renderCookies, String.toList_ofList, hvalue, cookieNamed]
  cases pairs.find? fun pair => pair.name = name.toList with
  | some pair => rfl
  | none => rfl

theorem someUnlessEmpty_eq_some_iff {text : List Char} {token : String} :
    someUnlessEmpty text = some token ↔ text ≠ [] ∧ token = String.ofList text := by
  unfold someUnlessEmpty
  cases text with
  | nil => simp
  | cons c text => simp [eq_comm]

/-- `Bearer` in any case has no space. -/
theorem space_not_mem_scheme {scheme : List Char}
    (h : eqIgnoreAsciiCase scheme "Bearer".toList = true) : ' ' ∉ scheme := by
  intro hspace
  have hlower : Char.toLower ' ' ∈ scheme.map Char.toLower := List.mem_map_of_mem hspace
  rw [eqIgnoreAsciiCase_iff.1 h] at hlower
  exact absurd hlower (by decide)

/-- The header is `Bearer` in any case, a space, and a text that is not blank : the token is the
text trimmed. -/
def IsBearer (value token : String) : Prop :=
  ∃ scheme rest, value.toList = scheme ++ ' ' :: rest ∧
    eqIgnoreAsciiCase scheme "Bearer".toList = true ∧ trim isWhitespace rest ≠ [] ∧
    token = String.ofList (trim isWhitespace rest)

/-- The token in a visible `Authorization` header. -/
theorem bearerToken_eq_some_iff {parts : Parts} {value : String}
    (h : parts.header "authorization" = some value) (hvisible : ∀ c ∈ value.toList, IsVisible c)
    (token : String) : bearerToken parts = some token ↔ IsBearer value token := by
  have hread := toStr_of_isVisible hvisible
  simp only [bearerToken, h, hread, Option.bind_eq_bind, Option.bind_some]
  constructor
  · intro htoken
    obtain ⟨⟨scheme, rest⟩, hsplit, htoken⟩ := Option.bind_eq_some_iff.1 htoken
    obtain ⟨hscheme, htoken⟩ := Option.ite_none_right_eq_some.1 htoken
    obtain ⟨hblank, rfl⟩ := someUnlessEmpty_eq_some_iff.1 htoken
    exact ⟨scheme, rest, eq_of_splitOnce hsplit, hscheme, hblank, rfl⟩
  · rintro ⟨scheme, rest, hvalue, hscheme, hblank, rfl⟩
    have hsplit : splitOnce [' '] (scheme ++ ' ' :: rest) = some (scheme, rest) :=
      splitOnce_append rest (space_not_mem_scheme hscheme)
    rw [hvalue, hsplit]
    simp only [Option.bind_some, if_pos hscheme]
    exact someUnlessEmpty_eq_some_iff.2 ⟨hblank, rfl⟩

/-- The tokens depend on the two headers alone. -/
theorem accessToken_congr {parts parts' : Parts}
    (hauthorization : parts'.header "authorization" = parts.header "authorization")
    (hcookie : parts'.header "cookie" = parts.header "cookie") (name : String) :
    accessToken parts' name = accessToken parts name := by
  rw [accessToken, accessToken, bearerToken, bearerToken, cookieToken, cookieToken,
    hauthorization, hcookie]

/-- The cookie token is the value of the first cookie of the name unless it is blank, the bearer
token follows its scheme, the access token is the bearer token or else the cookie token, and
nothing else of the request counts. -/
theorem credential_spec (parts : Parts) :
    ((∀ pairs, parts.header "cookie" = some (renderCookies pairs) → ∀ name,
        cookieToken parts name = cookieNamed pairs name) ∧
      (parts.header "cookie" = none → ∀ name, cookieToken parts name = none)) ∧
    ((∀ value, parts.header "authorization" = some value → (∀ c ∈ value.toList, IsVisible c) →
        ∀ token, bearerToken parts = some token ↔ IsBearer value token) ∧
      (parts.header "authorization" = none → bearerToken parts = none)) ∧
    (∀ name, (∀ token, bearerToken parts = some token → accessToken parts name = some token) ∧
      (bearerToken parts = none → accessToken parts name = cookieToken parts name)) ∧
    ∀ parts' : Parts, parts'.header "authorization" = parts.header "authorization" →
      parts'.header "cookie" = parts.header "cookie" → ∀ name,
        accessToken parts' name = accessToken parts name := by
  refine ⟨⟨fun pairs h name => cookieToken_render h name, fun h name => ?_⟩,
    ⟨fun value h hvisible token => bearerToken_eq_some_iff h hvisible token, fun h => ?_⟩,
    fun name => ⟨fun token h => ?_, fun h => ?_⟩,
    fun parts' hauthorization hcookie name => accessToken_congr hauthorization hcookie name⟩
  · rw [cookieToken, h]
    rfl
  · rw [bearerToken, h]
    rfl
  · rw [accessToken, h]
    rfl
  · rw [accessToken, h]
    rfl

/-- A cookie under a longer name, and the one that is looked for. -/
def sessionCookies : List CookiePair :=
  [{ name := "access_tokens".toList, value := "other".toList, before := 0, inner := 0, after := 1
     nameLegal := forall_mem_of_all (by decide), valueLegal := forall_mem_of_all (by decide) },
   { name := "access_token".toList, value := "a=b".toList, before := 2, inner := 1, after := 1
     nameLegal := forall_mem_of_all (by decide), valueLegal := forall_mem_of_all (by decide) }]

/-- A request with both credentials, and one in its query. -/
def signedIn : Parts where
  uri := "/audit?access_token=query"
  headers := [("cookie", renderCookies sessionCookies), ("authorization", "bEaRer  tok ")]

/-- A value with a `=`, in odd spacing, and a scheme in odd case. -/
theorem credentials_signedIn : cookieToken signedIn "access_token" = some "a=b" ∧
    bearerToken signedIn = some "tok" ∧ accessToken signedIn "access_token" = some "tok" := by
  obtain ⟨⟨hcookie, -⟩, ⟨hbearer, -⟩, haccess, -⟩ := credential_spec signedIn
  have hnamed : cookieNamed sessionCookies "access_token" = some "a=b" := by decide
  have hscheme : IsBearer "bEaRer  tok " "tok" :=
    ⟨"bEaRer".toList, " tok ".toList, by decide, by decide, by decide, by decide⟩
  have hvisible : ∀ c ∈ "bEaRer  tok ".toList, IsVisible c := forall_mem_of_all (by decide)
  have htoken : bearerToken signedIn = some "tok" := (hbearer _ rfl hvisible "tok").2 hscheme
  exact ⟨hnamed ▸ hcookie _ rfl "access_token", htoken, (haccess "access_token").1 "tok" htoken⟩

end AuthExample
