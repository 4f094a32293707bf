import AuthExample.Scan

/-!
# The hosts of the OAuth redirects

The allow-list of the OAuth redirects is made of the hosts of two configured URLs. `host_of`
takes the text after the first `://`, or after a leading `//`, as an authority, and cuts the
path, the userinfo and the port from it.

A `Reference` is a URL reference by its components. `hostOf_eq_iff` : the host of its text is
the host it is built from exactly where the text after a `://` in it names that host, and the
text of an absolute reference always does (`hostOf_absolute`).
-/

namespace AuthExample

open Scan

/-! ## The code -/

/-- What ends an authority. -/
def isDelimiter (c : Char) : Bool := c == '/' || c == '?' || c == '#' || c == '\\'

/-- The host in an authority without userinfo : up to the bracket that closes an IPv6 literal,
or up to the port. -/
def withoutPort (text : List Char) : List Char :=
  match text with
  | '[' :: _ =>
    match text.findIdx? (· == ']') with
    | some close => text.take (close + 1)
    | none => text
  | _ => text.takeWhile (· != ':')

/-- The host in what follows the scheme. -/
def hostText (afterScheme : List Char) : List Char :=
  let authority := afterScheme.takeWhile fun c => !isDelimiter c
  let withoutUserinfo := authority.rtakeWhile (· != '@')
  withoutPort withoutUserinfo

/-- What follows the scheme, or the leading `//`. -/
def afterScheme (url : List Char) : Option (List Char) :=
  match splitOnce "://".toList url with
  | some (_, rest) => some rest
  | none => if "//".toList.isPrefixOf url then some (url.drop 2) else none

/-- The host as a string, none where it is empty. -/
def nonEmpty (host : List Char) : Option String :=
  if host.isEmpty then none else some (String.ofList host)

/-- `host_of`. -/
def hostOf (url : String) : Option String := do
  nonEmpty (hostText (← afterScheme url.toList))

example : hostOf "https://user:pw@example.com:8443/p" = some "example.com" ∧
    hostOf "https://[::1]:8443/p" = some "[::1]" ∧ hostOf "//cdn.example.com/p" =
      some "cdn.example.com" ∧ hostOf "/relative/path" = none ∧ hostOf "https://" = none := by
  decide

/-! ## Authorities -/

/-- The text of a host, or none : no port could start in it, or it is in brackets. -/
inductive IsHostText : List Char → Prop
  | plain {host : List Char} (hcolon : ':' ∉ host) (hopen : host.head? ≠ some '[') :
    IsHostText host
  | bracketed {addr : List Char} (hclose : ']' ∉ addr) : IsHostText ('[' :: addr ++ [']'])

/-- The text can follow the host : a port, or anything after a closing bracket. -/
def AfterHost (host port : List Char) : Prop :=
  host.head? = some '[' ∨ ∀ c ∈ port.head?, c = ':'

/-- The text starts with an authority of that host : userinfo up to an `@`, the host, and no
more than a port before a delimiter or the end. -/
def Names (host text : List Char) : Prop :=
  ∃ userinfo port tail, text = userinfo ++ (host ++ port) ++ tail ∧
    (∀ c ∈ userinfo ++ (host ++ port), isDelimiter c = false) ∧
    (∀ c ∈ tail.head?, isDelimiter c = true) ∧ '@' ∉ host ++ port ∧
    (∀ c ∈ userinfo.getLast?, c = '@') ∧ AfterHost host port

theorem withoutPort_of_not_open {text : List Char} (h : text.head? ≠ some '[') :
    withoutPort text = text.takeWhile (· != ':') := by
  unfold withoutPort
  split
  · exact absurd rfl h
  · rfl

/-- An IPv6 literal ends at its bracket. -/
theorem withoutPort_bracketed {addr : List Char} (h : ']' ∉ addr) (port : List Char) :
    withoutPort ('[' :: addr ++ [']'] ++ port) = '[' :: addr ++ [']'] := by
  have hidx : ('[' :: addr ++ ']' :: port).findIdx? (· == ']') = some (addr.length + 1) := by
    refine findIdx?_append_cons (fun c hc => ?_) rfl
    rcases List.mem_cons.1 hc with rfl | hc
    · rfl
    · exact beq_false_of_ne fun heq => h (heq ▸ hc)
  have htext : '[' :: addr ++ [']'] ++ port = '[' :: addr ++ ']' :: port := by simp
  rw [← htext] at hidx
  rw [List.cons_append, List.cons_append, withoutPort, ← List.cons_append, ← List.cons_append,
    hidx]
  exact List.take_left' (by simp)

/-- What is cut after the host is a port, or follows a bracket. -/
theorem exists_afterHost (text : List Char) :
    ∃ port, text = withoutPort text ++ port ∧ AfterHost (withoutPort text) port := by
  by_cases hopen : text.head? = some '['
  · obtain ⟨rest, rfl⟩ := List.head?_eq_some_iff.1 hopen
    simp only [withoutPort]
    cases ('[' :: rest).findIdx? (· == ']') with
    | some close => exact ⟨_, (List.take_append_drop (close + 1) _).symm, Or.inl rfl⟩
    | none => exact ⟨[], (List.append_nil _).symm, Or.inl rfl⟩
  · obtain ⟨port, htext, -, hport⟩ := takeWhile_eq_iff.1 (withoutPort_of_not_open hopen).symm
    exact ⟨port, htext, Or.inr fun c hc => bne_eq_false_iff_eq.1 (hport c hc)⟩

/-- The host of an authority without userinfo. -/
theorem withoutPort_eq_iff {host text : List Char} (h : IsHostText host) :
    withoutPort text = host ↔ ∃ port, text = host ++ port ∧ AfterHost host port := by
  constructor
  · rintro rfl
    exact exists_afterHost text
  · rintro ⟨port, rfl, hafter⟩
    cases h with
    | plain hcolon hno =>
      have hport : ∀ c ∈ port.head?, c = ':' := hafter.resolve_left hno
      have hopen : (host ++ port).head? ≠ some '[' := by
        cases host with
        | nil => exact fun hc => absurd (hport '[' hc) (by decide)
        | cons c host => exact hno
      rw [withoutPort_of_not_open hopen]
      refine takeWhile_eq_iff.2 ⟨port, rfl, fun c hc => ?_, fun c hc => ?_⟩
      · exact bne_iff_ne.2 fun heq => hcolon (heq ▸ hc)
      · exact bne_eq_false_iff_eq.2 (hport c hc)
    | bracketed hclose => exact withoutPort_bracketed hclose port

/-- The host of a text is `host` exactly where it starts with an authority of that host. -/
theorem hostText_eq_iff {host text : List Char} (h : IsHostText host) :
    hostText text = host ↔ Names host text := by
  simp only [hostText]
  rw [withoutPort_eq_iff h]
  constructor
  · rintro ⟨port, hport, hafter⟩
    obtain ⟨userinfo, hauthority, hat, hlast⟩ := rtakeWhile_eq_iff.1 hport
    obtain ⟨tail, htext, hauth, htail⟩ := takeWhile_eq_iff.1 hauthority
    refine ⟨userinfo, port, tail, htext, fun c hc => ?_, fun c hc => ?_, fun hc => ?_,
      fun c hc => ?_, hafter⟩
    · simpa using hauth c hc
    · simpa using htail c hc
    · simpa using hat '@' hc
    · simpa using hlast c hc
  · rintro ⟨userinfo, port, tail, htext, hauth, htail, hat, hlast, hafter⟩
    refine ⟨port, rtakeWhile_eq_iff.2 ⟨userinfo, takeWhile_eq_iff.2 ⟨tail, htext, fun c hc => ?_,
      fun c hc => ?_⟩, fun c hc => ?_, fun c hc => ?_⟩, hafter⟩
    · simpa using hauth c hc
    · simpa using htail c hc
    · exact bne_iff_ne.2 fun heq => hat (heq ▸ hc)
    · simpa using hlast c hc

/-! ## References -/

/-- A host : a registered name without a delimiter, or an IPv6 literal in brackets. -/
inductive Host where
  | regName (name : List Char) (nonempty : name ≠ [])
      (legal : ∀ c ∈ name, isDelimiter c = false ∧ c ≠ '@' ∧ c ≠ ':' ∧ c ≠ '[' ∧ c ≠ ']')
  | ipv6 (addr : List Char) (legal : ∀ c ∈ addr, isDelimiter c = false ∧ c ≠ '@' ∧ c ≠ ']')

/-- The host as it stands in a reference. -/
def Host.text : Host → List Char
  | regName name _ _ => name
  | ipv6 addr _ => '[' :: addr ++ [']']

/-- `[userinfo@]host[:port]`. -/
structure Authority where
  userinfo : Option (List Char)
  host : Host
  port : Option (List Char)
  userinfoLegal : ∀ text ∈ userinfo, ∀ c ∈ text, isDelimiter c = false
  portLegal : ∀ text ∈ port, ∀ c ∈ text, isDelimiter c = false ∧ c ≠ '@'

/-- `userinfo@`, or nothing. -/
def Authority.userinfoText (a : Authority) : List Char := (a.userinfo.map (· ++ ['@'])).getD []

/-- `:port`, or nothing. -/
def Authority.portText (a : Authority) : List Char := (a.port.map (':' :: ·)).getD []

/-- The authority as it stands in a reference. -/
def Authority.text (a : Authority) : List Char :=
  a.userinfoText ++ (a.host.text ++ a.portText)

/-- `[?query][#fragment]`, of any characters. -/
structure Suffix where
  query : Option (List Char)
  fragment : Option (List Char)

/-- The query and the fragment as they stand in a reference. -/
def Suffix.text (s : Suffix) : List Char :=
  (s.query.map ('?' :: ·)).getD [] ++ (s.fragment.map ('#' :: ·)).getD []

/-- A URL reference by its components. The path after an authority is empty or starts with a
`/`, and is else of any characters; a same-origin path starts with a single one. -/
inductive Reference where
  | absolute (scheme : List Char) (authority : Authority) (path : List Char) (suffix : Suffix)
      (schemeLegal : ':' ∉ scheme) (pathLegal : ∀ c ∈ path.head?, c = '/')
  | protocolRelative (authority : Authority) (path : List Char) (suffix : Suffix)
      (pathLegal : ∀ c ∈ path.head?, c = '/')
  | sameOrigin (path : List Char) (suffix : Suffix) (pathLegal : path.head? ≠ some '/')

namespace Reference

/-- The characters of the reference. -/
def chars : Reference → List Char
  | absolute scheme a path suffix _ _ =>
    scheme ++ ("://".toList ++ (a.text ++ (path ++ suffix.text)))
  | protocolRelative a path suffix _ => "//".toList ++ (a.text ++ (path ++ suffix.text))
  | sameOrigin path suffix _ => '/' :: (path ++ suffix.text)

/-- The reference as a text. -/
def text (r : Reference) : String := String.ofList r.chars

/-- The host the reference is built from, empty for a same-origin path. -/
def hostChars : Reference → List Char
  | absolute _ a _ _ _ _ | protocolRelative a _ _ _ => a.host.text
  | sameOrigin _ _ _ => []

/-- The host the reference is built from. -/
def host (r : Reference) : Option String :=
  match r with
  | absolute _ a _ _ _ _ | protocolRelative a _ _ _ => some (String.ofList a.host.text)
  | sameOrigin _ _ _ => none

/-- What follows the first `://` of a reference that is not absolute starts with an authority
of its host, of an empty one for a same-origin path. -/
def Unfooled (r : Reference) : Prop :=
  match r with
  | absolute _ _ _ _ _ _ => True
  | _ => ∀ before rest, splitOnce "://".toList r.chars = some (before, rest) →
    Names r.hostChars rest

end Reference

theorem nonEmpty_injective : Function.Injective nonEmpty := by
  intro h h' heq
  cases h with
  | nil =>
    cases h' with
    | nil => rfl
    | cons c h' => cases heq
  | cons c h =>
    cases h' with
    | nil => cases heq
    | cons c' h' => exact String.ofList_injective (Option.some.inj heq)

theorem Host.text_ne_nil (host : Host) : host.text ≠ [] := by
  cases host with
  | regName name nonempty legal => exact nonempty
  | ipv6 addr legal => exact List.cons_ne_nil _ _

theorem Host.isHostText (host : Host) : IsHostText host.text := by
  cases host with
  | regName name nonempty legal =>
    refine .plain (fun h => (legal _ h).2.2.1 rfl) fun h => ?_
    exact (legal _ (List.mem_of_mem_head? h)).2.2.2.1 rfl
  | ipv6 addr legal => exact .bracketed fun h => (legal _ h).2.2 rfl

/-- A host has no delimiter and no `@`. -/
theorem Host.legal (host : Host) : ∀ c ∈ host.text, isDelimiter c = false ∧ c ≠ '@' := by
  cases host with
  | regName name nonempty legal => exact fun c hc => ⟨(legal c hc).1, (legal c hc).2.1⟩
  | ipv6 addr legal =>
    intro c hc
    rcases List.mem_append.1 hc with hc | hc
    · rcases List.mem_cons.1 hc with rfl | hc
      · decide
      · exact ⟨(legal c hc).1, (legal c hc).2.1⟩
    · rw [List.mem_singleton.1 hc]
      decide

theorem Reference.host_eq (r : Reference) : r.host = nonEmpty r.hostChars := by
  have h (host : Host) : some (String.ofList host.text) = nonEmpty host.text := by
    rw [nonEmpty, if_neg (mt List.isEmpty_iff.1 host.text_ne_nil)]
  cases r with
  | absolute scheme a path suffix _ _ => exact h a.host
  | protocolRelative a path suffix _ => exact h a.host
  | sameOrigin path suffix _ => rfl

theorem Reference.isHostText (r : Reference) : IsHostText r.hostChars := by
  cases r with
  | absolute scheme a path suffix _ _ => exact a.host.isHostText
  | protocolRelative a path suffix _ => exact a.host.isHostText
  | sameOrigin path suffix _ => exact .plain List.not_mem_nil nofun

namespace Authority

variable (a : Authority)

theorem userinfoText_legal : ∀ c ∈ a.userinfoText, isDelimiter c = false := by
  unfold userinfoText
  cases hu : a.userinfo with
  | none => exact fun c hc => absurd hc List.not_mem_nil
  | some text =>
    intro c hc
    rcases List.mem_append.1 hc with hc | hc
    · exact a.userinfoLegal text hu c hc
    · rw [List.mem_singleton.1 hc]
      rfl

theorem getLast?_userinfoText : ∀ c ∈ a.userinfoText.getLast?, c = '@' := by
  unfold userinfoText
  cases a.userinfo with
  | none => exact nofun
  | some text => simp [eq_comm]

theorem portText_legal : ∀ c ∈ a.portText, isDelimiter c = false ∧ c ≠ '@' := by
  unfold portText
  cases hp : a.port with
  | none => exact fun c hc => absurd hc List.not_mem_nil
  | some text =>
    intro c hc
    rcases List.mem_cons.1 hc with rfl | hc
    · decide
    · exact a.portLegal text hp c hc

theorem head?_portText : ∀ c ∈ a.portText.head?, c = ':' := by
  unfold portText
  cases a.port with
  | none => exact nofun
  | some text => simp [eq_comm]

end Authority

/-- What follows an authority starts with a delimiter. -/
theorem Suffix.head?_text {path : List Char} (hpath : ∀ c ∈ path.head?, c = '/')
    (suffix : Suffix) : ∀ c ∈ (path ++ suffix.text).head?, isDelimiter c = true := by
  cases path with
  | cons c path =>
    rintro d hd
    obtain rfl := Option.some.inj hd
    rw [hpath c rfl]
    rfl
  | nil =>
    obtain ⟨query, fragment⟩ := suffix
    rintro c hc
    cases query with
    | some query => exact Option.some.inj hc ▸ rfl
    | none =>
      cases fragment with
      | some fragment => exact Option.some.inj hc ▸ rfl
      | none => cases hc

/-- An authority names its host, whatever path and suffix follow. -/
theorem Authority.names (a : Authority) {path : List Char} (hpath : ∀ c ∈ path.head?, c = '/')
    (suffix : Suffix) : Names a.host.text (a.text ++ (path ++ suffix.text)) := by
  refine ⟨a.userinfoText, a.portText, path ++ suffix.text, rfl, fun c hc => ?_,
    suffix.head?_text hpath, fun hat => ?_, a.getLast?_userinfoText, Or.inr a.head?_portText⟩
  · rcases List.mem_append.1 hc with hc | hc
    · exact a.userinfoText_legal c hc
    · exact (List.mem_append.1 hc).elim (fun hc => (a.host.legal c hc).1)
        fun hc => (a.portText_legal c hc).1
  · exact (List.mem_append.1 hat).elim (fun hc => (a.host.legal _ hc).2 rfl)
      fun hc => (a.portText_legal _ hc).2 rfl

/-- The host found is that of the reference exactly where what follows the scheme names it. -/
theorem hostOf_text_iff {r : Reference} {rest : List Char} (h : afterScheme r.chars = some rest) :
    hostOf r.text = r.host ↔ Names r.hostChars rest := by
  rw [hostOf, Reference.text, String.toList_ofList, h, Reference.host_eq]
  exact nonEmpty_injective.eq_iff.trans (hostText_eq_iff r.isHostText)

/-- The host of an absolute reference is always found. -/
theorem hostOf_absolute {scheme : List Char} {a : Authority} {path : List Char} {suffix : Suffix}
    (hscheme : ':' ∉ scheme) (hpath : ∀ c ∈ path.head?, c = '/') :
    hostOf (Reference.absolute scheme a path suffix hscheme hpath).text =
      (Reference.absolute scheme a path suffix hscheme hpath).host := by
  have hsplit : splitOnce "://".toList
      (Reference.absolute scheme a path suffix hscheme hpath).chars =
        some (scheme, a.text ++ (path ++ suffix.text)) :=
    splitOnce_append (a.text ++ (path ++ suffix.text)) hscheme
  have hrest : afterScheme (Reference.absolute scheme a path suffix hscheme hpath).chars =
      some (a.text ++ (path ++ suffix.text)) := by
    rw [afterScheme, hsplit]
  exact (hostOf_text_iff hrest).2 (a.names hpath suffix)

/-- Where a reference with no `://` has its host found, it has it found exactly where what
follows a `://` names it. -/
theorem hostOf_eq_iff_names {r : Reference}
    (h : splitOnce "://".toList r.chars = none → hostOf r.text = r.host) :
    hostOf r.text = r.host ↔ ∀ before rest, splitOnce "://".toList r.chars = some (before, rest) →
      Names r.hostChars rest := by
  cases hsplit : splitOnce "://".toList r.chars with
  | some parts =>
    have hrest : afterScheme r.chars = some parts.2 := by rw [afterScheme, hsplit]
    rw [hostOf_text_iff hrest]
    refine ⟨fun hnames before rest heq => ?_, fun hnames => hnames parts.1 parts.2 rfl⟩
    obtain rfl := Option.some.inj heq
    exact hnames
  | none => exact iff_of_true (h hsplit) nofun

/-- A same-origin path does not start with two slashes. -/
theorem Suffix.head?_path_text {path : List Char} (hpath : path.head? ≠ some '/')
    (suffix : Suffix) : (path ++ suffix.text).head? ≠ some '/' := by
  cases path with
  | cons c path => exact hpath
  | nil =>
    obtain ⟨query, fragment⟩ := suffix
    cases query with
    | some query => exact fun h => absurd (Option.some.inj h) (by decide)
    | none =>
      cases fragment with
      | some fragment => exact fun h => absurd (Option.some.inj h) (by decide)
      | none => exact nofun

/-- The host found in a reference is its own exactly where no `://` in another component
names another. -/
theorem hostOf_eq_iff (r : Reference) : hostOf r.text = r.host ↔ r.Unfooled := by
  cases r with
  | absolute scheme a path suffix hscheme hpath =>
    exact iff_of_true (hostOf_absolute hscheme hpath) trivial
  | protocolRelative a path suffix hpath =>
    refine hostOf_eq_iff_names fun hsplit => ?_
    have hrest : afterScheme (Reference.protocolRelative a path suffix hpath).chars =
        some (a.text ++ (path ++ suffix.text)) := by
      rw [afterScheme, hsplit]
      rfl
    exact (hostOf_text_iff hrest).2 (a.names hpath suffix)
  | sameOrigin path suffix hpath =>
    refine hostOf_eq_iff_names fun hsplit => ?_
    have hrest : afterScheme (Reference.sameOrigin path suffix hpath).chars = none := by
      rw [afterScheme, hsplit]
      refine if_neg fun hprefix => ?_
      have hhead := suffix.head?_path_text hpath
      obtain ⟨rest, hrest⟩ := List.isPrefixOf_iff_prefix.1 hprefix
      have htail : path ++ suffix.text = '/' :: rest := (List.cons.inj hrest).2.symm
      rw [htail] at hhead
      exact hhead rfl
    rw [hostOf, Reference.text, String.toList_ofList, hrest]
    rfl

/-- A path that passes a URL on. -/
def loginPath : Reference :=
  .sameOrigin "login".toList
    { query := some "next=https://evil.example/x".toList, fragment := none } (by decide)

/-- The path has no host, and that of its query is found. -/
theorem not_hostOf_loginPath : hostOf loginPath.text ≠ loginPath.host := by
  have hfound : hostOf loginPath.text = some "evil.example" := by decide
  have hhost : loginPath.host = none := rfl
  rw [hfound, hhost]
  exact nofun

end AuthExample
