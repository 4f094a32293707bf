import AuthExample.OAuth

/-!
# The OAuth configuration

`oauth_config` derives three redirect URLs from the web origin without its trailing slashes,
and the allow-list from the web origin as it is and from the callback URL. Trimming the slashes
changes the host of an origin in one case (`stray_iff`) : where they are those of its first
`://`, and what is left starts with a `//` of its own.

`allowlisted_iff` : the derived redirects are allow-listed exactly where that host, if there is
one, is the callback's.
-/

namespace AuthExample

open Scan

/-! ## The code -/

/-- The settings the OAuth configuration is made from. -/
structure Settings where
  webOrigin : String
  oauthGoogleClientId : Option String
  oauthGoogleClientSecret : Option String
  oauthGoogleCallbackUrl : Option String

/-- The Google credentials, as the library takes them. -/
structure GoogleOAuthConfig where
  clientId : String
  clientSecret : String
  callbackUrl : String

/-- The library's OAuth configuration. Its default is OAuth disabled. -/
structure OAuthConfig where
  successRedirectUrl : Option String := none
  mfaRedirectUrl : Option String := none
  errorRedirectUrl : Option String := none
  redirectAllowlist : List String := []
  google : Option GoogleOAuthConfig := none

def successPath : String := "/auth/oauth/success"

def mfaPath : String := "/auth/mfa"

def errorPath : String := "/auth/oauth/error"

/-- `google_oauth_config` : the credentials where all three are set. -/
def googleOauthConfig (settings : Settings) : Option GoogleOAuthConfig := do
  let clientId ← settings.oauthGoogleClientId
  let clientSecret ← settings.oauthGoogleClientSecret
  let callbackUrl ← settings.oauthGoogleCallbackUrl
  return { clientId, clientSecret, callbackUrl }

/-- `trim_end_matches('/')`. -/
def trimEndSlashes (text : String) : String :=
  String.ofList (text.toList.rdropWhile (· == '/'))

/-- The host of one URL, after those already listed. -/
def addHost (hosts : List String) (url : String) : List String :=
  match hostOf url with
  | some host =>
    if hosts.any fun existing => eqIgnoreAsciiCase existing.toList host.toList then hosts
    else hosts ++ [host]
  | none => hosts

/-- `redirect_allowlist`. -/
def redirectAllowlist (webOrigin callbackUrl : String) : List String :=
  [webOrigin, callbackUrl].foldl addHost []

/-- `oauth_config`. -/
def oauthConfig (settings : Settings) : OAuthConfig :=
  match googleOauthConfig settings with
  | none => {}
  | some google =>
    let origin := trimEndSlashes settings.webOrigin
    { successRedirectUrl := some (origin ++ successPath)
      mfaRedirectUrl := some (origin ++ mfaPath)
      errorRedirectUrl := some (origin ++ errorPath)
      redirectAllowlist := redirectAllowlist settings.webOrigin google.callbackUrl
      google := some google }

/-! ## Trimming and appending -/

/-- What starts with a delimiter is not part of the authority before it. -/
theorem hostText_append {rest : List Char} (h : ∀ c ∈ rest.head?, isDelimiter c = true)
    (text : List Char) : hostText (text ++ rest) = hostText text := by
  have hauthority : (text ++ rest).takeWhile (fun c => !isDelimiter c) =
      text.takeWhile fun c => !isDelimiter c := by
    obtain ⟨tail, htext, hauth, htail⟩ := takeWhile_eq_iff.1
      (rfl : text.takeWhile (fun c => !isDelimiter c) = _)
    refine takeWhile_eq_iff.2 ⟨tail ++ rest, ?_, hauth, fun c hc => ?_⟩
    · rw [← List.append_assoc, ← htext]
    · cases tail with
      | nil => rw [h c hc]; rfl
      | cons d tail => exact htail c hc
  simp only [hostText, hauthority]

/-- A `://` that appending completes has its slashes in what is appended. -/
theorem scheme_infix_append {text rest : List Char} (hlast : text.getLast? ≠ some '/')
    (hrest : ':' ∉ rest) (h : "://".toList <:+: text ++ rest) :
    "://".toList <:+: text ∨ text.getLast? = some ':' ∧ "//".toList <+: rest := by
  induction text with
  | nil => exact absurd (h.subset (by decide)) hrest
  | cons c text ih =>
    rcases List.infix_cons_iff.1 h with hprefix | hwithin
    · obtain ⟨rfl, hslashes⟩ := List.cons_prefix_cons.1 hprefix
      match text with
      | [] => exact Or.inr ⟨rfl, hslashes⟩
      | [d] =>
        obtain ⟨rfl, -⟩ := List.cons_prefix_cons.1 hslashes
        exact absurd rfl hlast
      | d :: e :: text =>
        obtain ⟨rfl, hslash⟩ := List.cons_prefix_cons.1 hslashes
        obtain ⟨rfl, -⟩ := List.cons_prefix_cons.1 hslash
        exact Or.inl ⟨[], text, rfl⟩
    · cases text with
      | nil => exact absurd (hwithin.subset (by decide)) hrest
      | cons d text =>
        rw [List.getLast?_cons_cons] at hlast ⊢
        exact (ih hlast hwithin).imp_left fun hleft => List.infix_cons_iff.2 (Or.inr hleft)

/-- Appending keeps a leading `//`, and makes none. -/
theorem slashes_prefix_append {text : List Char} (hne : text ≠ [])
    (hlast : text.getLast? ≠ some '/') (rest : List Char) :
    "//".toList <+: text ++ rest ↔ "//".toList <+: text := by
  refine ⟨fun h => ?_, fun h => h.trans (List.prefix_append text rest)⟩
  match text with
  | [] => exact absurd rfl hne
  | [c] =>
    obtain ⟨rfl, -⟩ := List.cons_prefix_cons.1 h
    exact absurd rfl hlast
  | c :: d :: text =>
    obtain ⟨rfl, hslash⟩ := List.cons_prefix_cons.1 h
    obtain ⟨rfl, -⟩ := List.cons_prefix_cons.1 hslash
    exact ⟨text, rfl⟩

/-- Appending what starts with a slash keeps the host, unless it makes a `://`. -/
theorem hostOf_append {text rest : List Char} (hne : text ≠ []) (hlast : text.getLast? ≠ some '/')
    (hslash : ∀ c ∈ rest.head?, c = '/')
    (hscheme : "://".toList <:+: text ++ rest → "://".toList <:+: text) :
    hostOf (String.ofList (text ++ rest)) = hostOf (String.ofList text) := by
  have hdelimiter : ∀ c ∈ rest.head?, isDelimiter c = true := fun c hc => by
    rw [hslash c hc]
    rfl
  rw [hostOf, hostOf, String.toList_ofList, String.toList_ofList, afterScheme, afterScheme]
  cases hsplit : splitOnce "://".toList text with
  | some parts =>
    rw [splitOnce_append_right hsplit]
    exact congrArg nonEmpty (hostText_append hdelimiter parts.2)
  | none =>
    have hno : ¬"://".toList <:+: text := splitOnce_eq_none_iff.1 hsplit
    rw [splitOnce_eq_none_iff.2 (mt hscheme hno)]
    by_cases hprefix : "//".toList <+: text
    · have hlong := (slashes_prefix_append hne hlast rest).2 hprefix
      simp only [List.isPrefixOf_iff_prefix.2 hprefix, List.isPrefixOf_iff_prefix.2 hlong,
        if_true, Option.bind_eq_bind, Option.bind_some]
      have hlength : 2 ≤ text.length := hprefix.length_le
      rw [List.drop_append_of_le_length hlength, hostText_append hdelimiter]
    · have hshort := mt (slashes_prefix_append hne hlast rest).1 hprefix
      rw [if_neg (mt List.isPrefixOf_iff_prefix.1 hprefix),
        if_neg (mt List.isPrefixOf_iff_prefix.1 hshort)]

/-- A text with neither `://` nor a leading `//` has no host. -/
theorem hostOf_eq_none {text : List Char} (hscheme : ¬"://".toList <:+: text)
    (hslashes : ¬"//".toList <+: text) : hostOf (String.ofList text) = none := by
  rw [hostOf, String.toList_ofList, afterScheme, splitOnce_eq_none_iff.2 hscheme]
  simp only [mt List.isPrefixOf_iff_prefix.1 hslashes]
  rfl

/-- Slashes have no host. -/
theorem hostText_replicate (k : ℕ) : hostText (List.replicate k '/') = [] := by
  cases k with
  | zero => rfl
  | succ k =>
    have hslash : ∀ c ∈ (List.replicate (k + 1) '/').head?, isDelimiter c = true := fun c hc => by
      rw [List.eq_of_mem_replicate (List.mem_of_mem_head? hc)]
      rfl
    exact hostText_append hslash []

/-- Trimming cuts the slashes at the end, and all of them. -/
theorem trimEndSlashes_eq_iff {text : String} {trimmed : List Char} :
    trimEndSlashes text = String.ofList trimmed ↔
      trimmed.getLast? ≠ some '/' ∧ ∃ k, text.toList = trimmed ++ List.replicate k '/' := by
  rw [trimEndSlashes, String.ofList_inj, rdropWhile_eq_iff]
  constructor
  · rintro ⟨slashes, htext, hslashes, hlast⟩
    refine ⟨fun h => ?_, slashes.length, ?_⟩
    · exact absurd (hlast '/' h) (by decide)
    · rw [htext, List.eq_replicate_of_mem fun c hc => beq_iff_eq.1 (hslashes c hc),
        List.length_replicate]
  · rintro ⟨hlast, k, htext⟩
    refine ⟨_, htext, fun c hc => ?_, fun c hc => ?_⟩
    · exact beq_iff_eq.2 (List.eq_of_mem_replicate hc)
    · exact beq_false_of_ne fun heq => hlast (heq ▸ hc)

/-! ## The hosts of the derived redirects -/

/-- A redirect has the host of the trimmed origin. -/
theorem hostOf_redirect (webOrigin path : String)
    (hslash : path.toList.head? = some '/') (hcolon : ':' ∉ path.toList)
    (hsingle : ¬"//".toList <+: path.toList) :
    hostOf (trimEndSlashes webOrigin ++ path) = hostOf (trimEndSlashes webOrigin) := by
  obtain ⟨trimmed, htrimmed⟩ : ∃ trimmed, trimEndSlashes webOrigin = String.ofList trimmed :=
    ⟨_, rfl⟩
  obtain ⟨hlast, -⟩ := trimEndSlashes_eq_iff.1 htrimmed
  have happend : trimEndSlashes webOrigin ++ path = String.ofList (trimmed ++ path.toList) := by
    rw [htrimmed, String.ofList_append, String.ofList_toList]
  rw [happend, htrimmed]
  by_cases hne : trimmed = []
  · subst hne
    have hscheme : ¬"://".toList <:+: path.toList := fun h => hcolon (h.subset (by decide))
    exact hostOf_eq_none hscheme hsingle
  · have hhead : ∀ c ∈ path.toList.head?, c = '/' := fun c hc =>
      (Option.some.inj (hslash.symm.trans hc)).symm
    refine hostOf_append hne hlast hhead fun hwithin => ?_
    exact (scheme_infix_append hlast hcolon hwithin).resolve_right fun h => hsingle h.2

/-- The slashes trimmed from the origin are those of its first `://`, and what is left is a
protocol-relative reference to the host. -/
def Stray (webOrigin host : String) : Prop :=
  ∃ authority k, webOrigin.toList =
      "//".toList ++ authority ++ ("://".toList ++ List.replicate k '/') ∧
    ¬"://".toList <:+: authority ∧ nonEmpty (hostText (authority ++ [':'])) = some host

/-- The first `://` after a text without one is the one that is appended. -/
theorem not_scheme_infix_append {text : List Char} (h : ¬"://".toList <:+: text) :
    ¬"://".toList <:+: text ++ ":/".toList := by
  induction text with
  | nil => decide
  | cons c text ih =>
    rw [List.infix_cons_iff, not_or] at h
    rw [List.cons_append, List.infix_cons_iff, not_or]
    refine ⟨fun hprefix => ?_, ih h.2⟩
    obtain ⟨rfl, hslashes⟩ := List.cons_prefix_cons.1 hprefix
    match text with
    | [] => exact absurd hslashes (by decide)
    | [d] => exact absurd (List.cons_prefix_cons.1 hslashes).2 (by decide)
    | d :: e :: text =>
      obtain ⟨rfl, hslash⟩ := List.cons_prefix_cons.1 hslashes
      obtain ⟨rfl, -⟩ := List.cons_prefix_cons.1 hslash
      exact h.1 ⟨text, rfl⟩

theorem scheme_infix_slashes {text : List Char} :
    "://".toList <:+: "//".toList ++ text ↔ "://".toList <:+: text := by
  have hslash (l : List Char) : "://".toList <:+: '/' :: l ↔ "://".toList <:+: l := by
    rw [List.infix_cons_iff]
    refine or_iff_right fun hprefix => ?_
    exact absurd (List.cons_prefix_cons.1 hprefix).1 (by decide)
  exact (hslash _).trans (hslash text)

/-- A stray origin has no host, and its trimmed text has the one it names. -/
theorem hostOf_of_stray {webOrigin host : String} (h : Stray webOrigin host) :
    hostOf webOrigin = none ∧ hostOf (trimEndSlashes webOrigin) = some host := by
  obtain ⟨authority, k, horigin, hfirst, hhost⟩ := h
  have hscheme := not_scheme_infix_append (mt scheme_infix_slashes.1 hfirst)
  have htrimmed : trimEndSlashes webOrigin =
      String.ofList ("//".toList ++ (authority ++ [':'])) := by
    refine trimEndSlashes_eq_iff.2 ⟨?_, k + 2, ?_⟩
    · rw [← List.append_assoc, List.getLast?_concat]
      decide
    · rw [horigin]
      simp [List.replicate_succ]
  constructor
  · rw [hostOf, horigin, afterScheme, splitOnce_append_of_not_infix _ hscheme]
    simp only [Option.bind_eq_bind, Option.bind_some, hostText_replicate]
    rfl
  · have hnone : splitOnce "://".toList ("//".toList ++ (authority ++ [':'])) = none := by
      refine splitOnce_eq_none_iff.2 fun hwithin => hscheme ?_
      refine hwithin.trans (List.IsPrefix.isInfix ⟨['/'], ?_⟩)
      simp
    rw [htrimmed, hostOf, String.toList_ofList, afterScheme, hnone]
    exact hhost

/-- Without a `://`, a host is that of a protocol-relative reference. -/
theorem exists_of_hostOf_eq_some {text : List Char} {host : String}
    (hscheme : ¬"://".toList <:+: text) (h : hostOf (String.ofList text) = some host) :
    ∃ rest, text = "//".toList ++ rest ∧ nonEmpty (hostText rest) = some host := by
  by_cases hslashes : "//".toList <+: text
  · obtain ⟨rest, rfl⟩ := hslashes
    rw [hostOf, String.toList_ofList, afterScheme, splitOnce_eq_none_iff.2 hscheme] at h
    exact ⟨rest, rfl, h⟩
  · rw [hostOf_eq_none hscheme hslashes] at h
    cases h

/-- Where slashes after a text hide its host, they are those of a `://` that it does not hold. -/
theorem scheme_of_hostOf_ne {trimmed : List Char} {k : ℕ} {host : String}
    (hlast : trimmed.getLast? ≠ some '/') (hhost : hostOf (String.ofList trimmed) = some host)
    (hother : hostOf (String.ofList (trimmed ++ List.replicate k '/')) ≠ some host) :
    ¬"://".toList <:+: trimmed ∧ trimmed.getLast? = some ':' ∧
      "//".toList <+: List.replicate k '/' := by
  have hne : trimmed ≠ [] := by
    rintro rfl
    exact nomatch hhost
  have hsame :
      ¬("://".toList <:+: trimmed ++ List.replicate k '/' → "://".toList <:+: trimmed) := by
    intro hscheme
    have hhosts := hostOf_append hne hlast
      (fun c hc => List.eq_of_mem_replicate (List.mem_of_mem_head? hc)) hscheme
    exact hother (hhosts.trans hhost)
  obtain ⟨hwithin, hno⟩ := Classical.not_imp.1 hsame
  have hcolon : ':' ∉ List.replicate k '/' := fun hc =>
    absurd (List.eq_of_mem_replicate hc) (by decide)
  exact ⟨hno, (scheme_infix_append hlast hcolon hwithin).resolve_left hno⟩

/-- Trimming gives the origin a host it did not have exactly where it is a stray one. -/
theorem stray_iff {webOrigin host : String} : Stray webOrigin host ↔
    hostOf (trimEndSlashes webOrigin) = some host ∧ hostOf webOrigin ≠ some host := by
  constructor
  · intro h
    obtain ⟨hnone, hhost⟩ := hostOf_of_stray h
    exact ⟨hhost, fun hother => nomatch hnone.symm.trans hother⟩
  · rintro ⟨hhost, hother⟩
    obtain ⟨trimmed, htrimmed⟩ : ∃ trimmed, trimEndSlashes webOrigin = String.ofList trimmed :=
      ⟨_, rfl⟩
    obtain ⟨hlast, k, horigin⟩ := trimEndSlashes_eq_iff.1 htrimmed
    rw [htrimmed] at hhost
    rw [← String.ofList_toList (s := webOrigin), horigin] at hother
    obtain ⟨hno, hend, tail, htail⟩ := scheme_of_hostOf_ne hlast hhost hother
    obtain ⟨rest, rfl, hrest⟩ := exists_of_hostOf_eq_some hno hhost
    have hk : k = tail.length + 2 := by simpa using (congrArg List.length htail).symm
    rcases List.eq_nil_or_concat rest with rfl | ⟨authority, c, rfl⟩
    · exact absurd hend (by decide)
    · rw [List.concat_eq_append] at hrest horigin hno hend
      rw [← List.append_assoc, List.getLast?_concat] at hend
      obtain rfl := Option.some.inj hend
      refine ⟨authority, tail.length, ?_, fun h => hno ?_, hrest⟩
      · rw [horigin, hk]
        simp [List.replicate_succ]
      · exact scheme_infix_slashes.2 (h.trans (List.prefix_append authority [':']).isInfix)

/-! ## The allow-list -/

/-- The hosts are equal up to the case of ASCII letters. -/
def SameHost (host host' : String) : Prop :=
  eqIgnoreAsciiCase host.toList host'.toList = true

instance (host host' : String) : Decidable (SameHost host host') :=
  inferInstanceAs (Decidable (_ = true))

theorem SameHost.refl (host : String) : SameHost host host := eqIgnoreAsciiCase_iff.2 rfl

theorem SameHost.trans {host host' host'' : String} (h : SameHost host host')
    (h' : SameHost host' host'') : SameHost host host'' :=
  eqIgnoreAsciiCase_iff.2 ((eqIgnoreAsciiCase_iff.1 h).trans (eqIgnoreAsciiCase_iff.1 h'))

/-- What adding the host of a URL does to a list : nothing, where the URL has none or it is
listed, or the host is new and goes last. -/
theorem addHost_cases (hosts : List String) (url : String) :
    addHost hosts url = hosts ∧ (∀ host, hostOf url = some host →
        ∃ entry ∈ hosts, SameHost entry host) ∨
      ∃ host, hostOf url = some host ∧ addHost hosts url = hosts ++ [host] ∧
        ∀ entry ∈ hosts, ¬SameHost entry host := by
  unfold addHost
  cases hhost : hostOf url with
  | none => exact Or.inl ⟨rfl, nofun⟩
  | some host =>
    by_cases hany : hosts.any fun existing => eqIgnoreAsciiCase existing.toList host.toList
    · refine Or.inl ⟨if_pos hany, fun host' heq => ?_⟩
      obtain rfl := Option.some.inj heq
      exact List.any_eq_true.1 hany
    · refine Or.inr ⟨host, rfl, if_neg hany, fun entry hentry hsame => hany ?_⟩
      exact List.any_eq_true.2 ⟨entry, hentry, hsame⟩

/-- Every URL's host is listed, nothing else is, and nothing twice. -/
structure Lists (urls hosts : List String) : Prop where
  covers : ∀ url ∈ urls, ∀ host, hostOf url = some host → ∃ entry ∈ hosts, SameHost entry host
  only : ∀ entry ∈ hosts, ∃ url ∈ urls, hostOf url = some entry
  distinct : hosts.Pairwise fun entry entry' => ¬SameHost entry entry'

theorem Lists.addHost {urls hosts : List String} (h : Lists urls hosts) (url : String) :
    Lists (urls ++ [url]) (addHost hosts url) := by
  rcases addHost_cases hosts url with ⟨hsame, hlisted⟩ | ⟨host, hhost, hadd, hnew⟩
  · rw [hsame]
    refine ⟨fun url' hurl host hhost => ?_, fun entry hentry => ?_, h.distinct⟩
    · rcases List.mem_append.1 hurl with hurl | hurl
      · exact h.covers url' hurl host hhost
      · exact hlisted host (List.mem_singleton.1 hurl ▸ hhost)
    · obtain ⟨url', hurl, hentry⟩ := h.only entry hentry
      exact ⟨url', List.mem_append_left _ hurl, hentry⟩
  · rw [hadd]
    refine ⟨fun url' hurl host' hhost' => ?_, fun entry hentry => ?_, ?_⟩
    · rcases List.mem_append.1 hurl with hurl | hurl
      · obtain ⟨entry, hentry, hsame⟩ := h.covers url' hurl host' hhost'
        exact ⟨entry, List.mem_append_left _ hentry, hsame⟩
      · rw [List.mem_singleton.1 hurl, hhost] at hhost'
        obtain rfl := Option.some.inj hhost'
        exact ⟨host, List.mem_append_right _ (List.mem_singleton_self host), SameHost.refl host⟩
    · rcases List.mem_append.1 hentry with hentry | hentry
      · obtain ⟨url', hurl, hentry⟩ := h.only entry hentry
        exact ⟨url', List.mem_append_left _ hurl, hentry⟩
      · rw [List.mem_singleton.1 hentry]
        exact ⟨url, List.mem_append_right _ (List.mem_singleton_self url), hhost⟩
    · refine List.pairwise_append.2 ⟨h.distinct, List.pairwise_singleton _ _, ?_⟩
      intro entry hentry entry' hentry'
      rw [List.mem_singleton.1 hentry']
      exact hnew entry hentry

/-- The allow-list is the hosts of the two URLs. -/
theorem lists_redirectAllowlist (webOrigin callbackUrl : String) :
    Lists [webOrigin, callbackUrl] (redirectAllowlist webOrigin callbackUrl) :=
  have hnil : Lists [] [] := ⟨nofun, nofun, List.Pairwise.nil⟩
  (hnil.addHost webOrigin).addHost callbackUrl

/-- The URLs of the configuration whose hosts are checked. -/
def OAuthConfig.urls (config : OAuthConfig) : List String :=
  config.successRedirectUrl.toList ++ config.mfaRedirectUrl.toList ++
    config.errorRedirectUrl.toList ++ (config.google.map (·.callbackUrl)).toList

/-- Every derived redirect and the callback are allow-listed, and the allow-list is made of the
hosts of the two configured URLs. -/
structure Allowlisted (settings : Settings) (google : GoogleOAuthConfig) : Prop where
  redirects : ∀ url ∈ (oauthConfig settings).urls, ∀ host, hostOf url = some host →
    ∃ entry ∈ (oauthConfig settings).redirectAllowlist, SameHost entry host
  origins : ∀ entry ∈ (oauthConfig settings).redirectAllowlist,
    hostOf settings.webOrigin = some entry ∨ hostOf google.callbackUrl = some entry
  distinct : (oauthConfig settings).redirectAllowlist.Pairwise fun entry entry' =>
    ¬SameHost entry entry'

/-- The hosts of the URLs are that of the trimmed origin and that of the callback. -/
theorem mem_urls {settings : Settings} {google : GoogleOAuthConfig}
    (h : googleOauthConfig settings = some google) {host : String} :
    (∃ url ∈ (oauthConfig settings).urls, hostOf url = some host) ↔
      hostOf (trimEndSlashes settings.webOrigin) = some host ∨
        hostOf google.callbackUrl = some host := by
  have hsuccess := hostOf_redirect settings.webOrigin successPath
    (by decide) (by decide) (by decide)
  have hmfa := hostOf_redirect settings.webOrigin mfaPath
    (by decide) (by decide) (by decide)
  have herror := hostOf_redirect settings.webOrigin errorPath
    (by decide) (by decide) (by decide)
  simp [OAuthConfig.urls, oauthConfig, h, hsuccess, hmfa, herror]

/-- The redirects are allow-listed exactly where the host of a stray origin is the
callback's. -/
theorem allowlisted_iff {settings : Settings} {google : GoogleOAuthConfig}
    (h : googleOauthConfig settings = some google) :
    Allowlisted settings google ↔ ∀ host, Stray settings.webOrigin host →
      ∃ callbackHost, hostOf google.callbackUrl = some callbackHost ∧
        SameHost callbackHost host := by
  have hlist : (oauthConfig settings).redirectAllowlist =
      redirectAllowlist settings.webOrigin google.callbackUrl := by
    rw [oauthConfig, h]
  have hlists := lists_redirectAllowlist settings.webOrigin google.callbackUrl
  rw [← hlist] at hlists
  constructor
  · intro hallow host hstray
    obtain ⟨hnone, hhost⟩ := hostOf_of_stray hstray
    obtain ⟨url, hurl, hurlHost⟩ := (mem_urls h).2 (Or.inl hhost)
    obtain ⟨entry, hentry, hsame⟩ := hallow.redirects url hurl host hurlHost
    refine ⟨entry, (hallow.origins entry hentry).resolve_left fun horigin => ?_, hsame⟩
    exact nomatch hnone.symm.trans horigin
  · intro hstray
    refine ⟨fun url hurl host hhost => ?_, fun entry hentry => ?_, hlists.distinct⟩
    · rcases (mem_urls h).1 ⟨url, hurl, hhost⟩ with htrimmed | hcallback
      · by_cases horigin : hostOf settings.webOrigin = some host
        · exact hlists.covers _ List.mem_cons_self host horigin
        · obtain ⟨callbackHost, hcallback, hsame⟩ := hstray host (stray_iff.2 ⟨htrimmed, horigin⟩)
          obtain ⟨entry, hentry, hentrySame⟩ :=
            hlists.covers _ (List.mem_cons_of_mem _ (List.mem_singleton_self _)) _ hcallback
          exact ⟨entry, hentry, hentrySame.trans hsame⟩
      · exact hlists.covers _ (List.mem_cons_of_mem _ (List.mem_singleton_self _)) host hcallback
    · simpa using hlists.only entry hentry

/-- Settings with Google configured. -/
def oauthSettings (webOrigin callbackUrl : String) : Settings :=
  { webOrigin
    oauthGoogleClientId := some "client-id"
    oauthGoogleClientSecret := some "client-secret"
    oauthGoogleCallbackUrl := some callbackUrl }

/-- The Google credentials of those settings. -/
def oauthGoogle (callbackUrl : String) : GoogleOAuthConfig :=
  { clientId := "client-id", clientSecret := "client-secret", callbackUrl }

/-- An origin with a slash at its end is not a stray one. -/
theorem allowlisted_appOrigin : Allowlisted
    (oauthSettings "https://app.example.com/" "https://api.example.com/callback")
    (oauthGoogle "https://api.example.com/callback") := by
  refine (allowlisted_iff rfl).2 fun host hstray => ?_
  have hnone := (hostOf_of_stray hstray).1
  have hhost : hostOf "https://app.example.com/" = some "app.example.com" := by decide
  exact nomatch hhost.symm.trans hnone

/-- The redirects of this origin go to a host that is not listed. -/
theorem not_allowlisted_strayOrigin : ¬Allowlisted
    (oauthSettings "//app.example.com://" "https://api.example.com/callback")
    (oauthGoogle "https://api.example.com/callback") := by
  intro hallow
  have hhost : hostOf "//app.example.com:/auth/mfa" = some "app.example.com" := by decide
  have hlist : redirectAllowlist "//app.example.com://" "https://api.example.com/callback" =
    ["api.example.com"] := by decide
  have hurl : "//app.example.com:/auth/mfa" ∈ (oauthConfig
    (oauthSettings "//app.example.com://" "https://api.example.com/callback")).urls := by decide
  obtain ⟨entry, hentry, hsame⟩ := hallow.redirects _ hurl _ hhost
  have hentry' : entry ∈ ["api.example.com"] := hlist ▸ hentry
  rw [List.mem_singleton.1 hentry'] at hsame
  exact absurd hsame (by decide)

end AuthExample
