import AuthExample.Json
import AuthExample.Runs
import Mathlib.Data.List.Nodup

/-!
# Live alerts of new sessions

`useNewSessionAlerts` mints a ticket in an effect and opens a WebSocket with it, unless the
effect has been cleaned up by then. Every frame of a new session calls the callback the
effect has closed over. A render with another callback, or an unmount, cleans the effect up.

Mints settle and frames arrive in any order, of any run of the effect. `socket_lifecycle` :
a run creates at most one socket and only before its cleanup, at most one socket is not told
to close, none once the component is unmounted, and the frames of that one call the callback
of the last render.
-/

namespace AuthExample

open Runs

/-! ## The ticket -/

/-- An absolute URL, as far as its origin needs it : the host is empty where there is none, and a
port is one that its scheme does not have by default. -/
structure Url where
  scheme : String
  host : String
  port : Option ℕ
  path : String

namespace Url

/-- The special schemes. -/
def special : List String := ["ftp", "file", "http", "https", "ws", "wss"]

/-- The port a special scheme has by default. -/
def defaultPort : String → Option ℕ
  | "ftp" => some 21
  | "http" | "ws" => some 80
  | "https" | "wss" => some 443
  | _ => none

/-- `u.protocol`. -/
def protocol (u : Url) : String := u.scheme ++ ":"

/-- Assign `u.protocol` a special scheme other than `file`. It is ignored where the URL has no
special scheme, or is of a file without a host. -/
def setProtocol (scheme : String) (u : Url) : Url :=
  if u.scheme ∉ special ∨ u.scheme = "file" ∧ u.host = "" then u
  else { u with scheme, port := if u.port = defaultPort scheme then none else u.port }

/-- The scheme, host and port. -/
def tupleOrigin (u : Url) : String :=
  u.scheme ++ "://" ++ u.host ++
    match u.port with
    | none => ""
    | some port => ":" ++ toString port

/-- `u.origin` : that of a `blob:` URL is the one of the URL in its path. -/
def origin (parseUrl : String → Option Url) (u : Url) : String :=
  if u.scheme = "blob" then
    match parseUrl u.path with
    | some v => if v.scheme = "http" ∨ v.scheme = "https" then v.tupleOrigin else "null"
    | none => "null"
  else if u.scheme ∈ special ∧ u.scheme ≠ "file" then u.tupleOrigin
  else "null"

end Url

/-- What the hook takes from the browser, `none` or `false` where a call throws, and from the
build : `JSON.parse`, `new URL`, `encodeURIComponent`, `new WebSocket`, and the URL of the
API. -/
structure WebApp where
  parse : String → Option Json
  parseUrl : String → Option Url
  encodeURIComponent : Option Json → Option String
  opens : String → Bool
  apiUrl : Option String

/-- `mintWsTicket` : the ticket of the body the mint resolves with. -/
def mintWsTicket (settled : Option Json) : Option (Option Json) := do
  let body ← settled
  body.member "ticket"

/-- `buildWsUrl` : the API's origin upgraded to `ws(s)`, or a relative path where it is missing
or not absolute. -/
def buildWsUrl (w : WebApp) (ticket : Option Json) : Option String := do
  let origin :=
    match w.parseUrl (w.apiUrl.getD "") with
    | some u =>
      (u.setProtocol (if u.protocol = "https:" then "wss" else "ws")).origin w.parseUrl
    | none => ""
  let ticket ← w.encodeURIComponent ticket
  return origin ++ "/ws/example?ticket=" ++ ticket

/-! ## The frames -/

/-- `frame.ip ?? 'unknown'`. -/
def orUnknown : Option Json → Json
  | none | some .null => .str "unknown"
  | some ip => ip

/-- `handleMessage` : the address the callback is called with. A frame that throws is
ignored. -/
def handleMessage (w : WebApp) (data : String) : Option Json := do
  let frame ← w.parse data
  let event ← frame.member "event"
  if event.bind Json.str? = some "on_new_session" then
    let ip ← frame.member "ip"
    return orUnknown ip
  else none

/-- The data is a well-formed frame of a new session from `ip`. -/
def IsNewSession (w : WebApp) (data : String) (ip : Json) : Prop :=
  ∃ fields, w.parse data = some (.obj fields) ∧
    fields.lookup "event" = some (.str "on_new_session") ∧ ip = orUnknown (fields.lookup "ip")

/-- The well-formed frames of new sessions call the callback, and no others. -/
theorem handleMessage_eq_some {w : WebApp} {data : String} {ip : Json} :
    handleMessage w data = some ip ↔ IsNewSession w data ip := by
  unfold handleMessage IsNewSession
  cases hparse : w.parse data with
  | none => simp
  | some frame =>
    cases frame with
    | obj fields =>
      simp [Json.member, Json.get?, Option.bind_eq_some_iff, Json.str?_eq_some, eq_comm]
    | _ => simp [Json.member, Json.get?]

/-! ## The hook -/

/-- A socket, the run of the effect that created it, and whether it has been told to close. -/
structure WebSocket where
  run : ℕ
  url : String
  closeCalled : Bool

/-- A run of the effect : the callback it has closed over, whether its mint is outstanding, and
its variables `cancelled` and `socket`, the latter as an index. -/
structure EffectRun (C : Type*) where
  onAlert : C
  minting : Bool
  cancelled : Bool
  socket : Option ℕ

/-- What React keeps of a mounted effect : the run whose cleanup it has, and its dependency. -/
structure Mounted (C : Type*) where
  run : ℕ
  onAlert : C

/-- The hook : every run of its effect, what is kept of the last while the component is mounted,
every socket created, and the calls of the callbacks. -/
structure NewSessionAlerts (C : Type*) where
  runs : List (EffectRun C)
  mounted : Option (Mounted C)
  sockets : List WebSocket
  calls : List (C × Json)

namespace NewSessionAlerts

variable {C : Type*}

/-- No component mounted yet. -/
def start : NewSessionAlerts C := { runs := [], mounted := none, sockets := [], calls := [] }

/-- `socket?.close()`. -/
def closeSocket (socket : Option ℕ) (sockets : List WebSocket) : List WebSocket :=
  match socket with
  | some i => sockets.modify i fun k => { k with closeCalled := true }
  | none => sockets

/-- The effect runs : the mint is requested. -/
def runEffect (onAlert : C) (s : NewSessionAlerts C) : NewSessionAlerts C :=
  { s with
    runs := s.runs ++ [{ onAlert, minting := true, cancelled := false, socket := none }]
    mounted := some { run := s.runs.length, onAlert } }

/-- The cleanup of the run `g`. -/
def cleanup (g : ℕ) (s : NewSessionAlerts C) : NewSessionAlerts C :=
  { s with
    runs := s.runs.modify g fun r => { r with cancelled := true }
    mounted := none
    sockets := closeSocket (s.runs[g]?.bind EffectRun.socket) s.sockets }

/-- `connect` after the mint of the run has settled : the URL of the socket it creates. -/
def connect (w : WebApp) (r : EffectRun C) (settled : Option Json) : Option String := do
  let ticket ← mintWsTicket settled
  if r.cancelled then none
  else
    let url ← buildWsUrl w ticket
    if w.opens url then some url else none

/-- The mint of the run `g` settles. -/
def settle (w : WebApp) (g : ℕ) (r : EffectRun C) (settled : Option Json)
    (s : NewSessionAlerts C) : NewSessionAlerts C :=
  match connect w r settled with
  | some url =>
    { s with
      runs := s.runs.set g { r with minting := false, socket := some s.sockets.length }
      sockets := s.sockets ++ [{ run := g, url, closeCalled := false }] }
  | none => { s with runs := s.runs.set g { r with minting := false } }

/-- What happens : the component mounts, renders again or unmounts, the mint of a run settles
(`none` where it rejects), or a socket receives a frame. -/
inductive Act (C : Type*) where
  | mount (onAlert : C)
  | rerender (onAlert : C)
  | unmount
  | mint (run : ℕ) (settled : Option Json)
  | receive (socket : ℕ) (data : String)

/-- One step. A render with the same callback leaves the effect alone, and a socket receives
until it is told to close. -/
def step [DecidableEq C] (w : WebApp) (s : NewSessionAlerts C) :
    Act C → Option (NewSessionAlerts C)
  | .mount onAlert =>
    match s.mounted with
    | none => some (s.runEffect onAlert)
    | some _ => none
  | .rerender onAlert =>
    match s.mounted with
    | none => none
    | some m => if onAlert = m.onAlert then some s else some ((s.cleanup m.run).runEffect onAlert)
  | .unmount => s.mounted.map fun m => s.cleanup m.run
  | .mint g settled =>
    match s.runs[g]? with
    | some r => if r.minting then some (s.settle w g r settled) else none
    | none => none
  | .receive i data =>
    match s.sockets[i]? with
    | some k =>
      if k.closeCalled then none
      else
        some { s with
          calls := s.calls ++
            ((s.runs[k.run]?.map EffectRun.onAlert).bind fun onAlert =>
              (handleMessage w data).map (onAlert, ·)).toList }
    | none => none

/-! ## The invariant -/

/-- The runs, what is mounted and the sockets agree. -/
structure Inv (s : NewSessionAlerts C) : Prop where
  cancelled : ∀ (g : ℕ) (r : EffectRun C), s.runs[g]? = some r →
    (r.cancelled = false ↔ ∃ m, s.mounted = some m ∧ m.run = g)
  mounted : ∀ m, s.mounted = some m →
    ∃ r : EffectRun C, s.runs[m.run]? = some r ∧ r.onAlert = m.onAlert
  minting : ∀ (g : ℕ) (r : EffectRun C), s.runs[g]? = some r → r.minting = true → r.socket = none
  owner : ∀ (i : ℕ) (k : WebSocket), s.sockets[i]? = some k →
    ∃ r : EffectRun C, s.runs[k.run]? = some r ∧ r.socket = some i ∧ k.closeCalled = r.cancelled
  owned : ∀ (g : ℕ) (r : EffectRun C) (i : ℕ), s.runs[g]? = some r → r.socket = some i →
    ∃ k : WebSocket, s.sockets[i]? = some k ∧ k.run = g

theorem inv_start : Inv (start : NewSessionAlerts C) where
  cancelled g r h := by simp [start] at h
  mounted m h := by cases h
  minting g r h := by simp [start] at h
  owner i k h := by simp [start] at h
  owned g r i h := by simp [start] at h

variable {s s' : NewSessionAlerts C}

/-- A new run of the effect, where none is mounted. -/
theorem Inv.runEffect (h : Inv s) (hm : s.mounted = none) (onAlert : C) :
    Inv (s.runEffect onAlert) := by
  have hnew : ∀ (g : ℕ) (r : EffectRun C), (s.runs ++ [⟨onAlert, true, false, none⟩])[g]? = some r →
      s.runs[g]? = some r ∨ g = s.runs.length ∧ r = ⟨onAlert, true, false, none⟩ := by
    intro g r hr
    rw [List.getElem?_append] at hr
    split_ifs at hr with hlt
    · exact Or.inl hr
    · rw [List.getElem?_singleton] at hr
      split_ifs at hr with hz
      exact Or.inr ⟨by omega, (Option.some.inj hr).symm⟩
  refine ⟨fun g r hr => ?_, fun m hmm => ?_, fun g r hr hmint => ?_, fun i k hk => ?_,
    fun g r i hr hi => ?_⟩
  · rcases hnew g r hr with hr | ⟨rfl, rfl⟩
    · have hlt := (List.getElem?_eq_some_iff.1 hr).1
      rw [h.cancelled g r hr, hm]
      refine iff_of_false nofun ?_
      rintro ⟨m, hmm, hg⟩
      obtain rfl := Option.some.inj hmm
      exact hlt.ne hg.symm
    · exact iff_of_true rfl ⟨_, rfl, rfl⟩
  · obtain rfl := Option.some.inj hmm
    exact ⟨_, List.getElem?_concat_length, rfl⟩
  · rcases hnew g r hr with hr | ⟨rfl, rfl⟩
    · exact h.minting g r hr hmint
    · rfl
  · obtain ⟨r, hr, hi, hc⟩ := h.owner i k hk
    refine ⟨r, ?_, hi, hc⟩
    have hlt := (List.getElem?_eq_some_iff.1 hr).1
    exact (List.getElem?_append_left hlt).trans hr
  · rcases hnew g r hr with hr | ⟨rfl, rfl⟩
    · exact h.owned g r i hr hi
    · cases hi

/-- An entry of a list one entry of which is modified. -/
theorem getElem?_modify_eq_some {α : Type*} {l : List α} {f : α → α} {i j : ℕ} {y : α} :
    (l.modify i f)[j]? = some y ↔ ∃ x, l[j]? = some x ∧ y = if i = j then f x else x := by
  rw [List.getElem?_modify, Option.map_eq_map, Option.map_eq_some_iff]
  simp only [eq_comm]

/-- An entry of a list one entry of which is set. -/
theorem getElem?_set_eq_some {α : Type*} {l : List α} {i j : ℕ} {x y z : α} (h : l[i]? = some z) :
    (l.set i x)[j]? = some y ↔ i = j ∧ y = x ∨ i ≠ j ∧ l[j]? = some y := by
  have hlt := (List.getElem?_eq_some_iff.1 h).1
  rw [List.getElem?_set]
  split_ifs with hij <;> simp [hij, eq_comm]

theorem closeSocket_eq_some {o : Option ℕ} {ks : List WebSocket} {i : ℕ} {k' : WebSocket} :
    (closeSocket o ks)[i]? = some k' ↔
      ∃ k, ks[i]? = some k ∧ k' = if o = some i then { k with closeCalled := true } else k := by
  cases o with
  | none => simp [closeSocket, eq_comm]
  | some j => simp only [closeSocket, getElem?_modify_eq_some, Option.some.injEq]

/-- The cleanup of the run that is mounted. -/
theorem Inv.cleanup (h : Inv s) {m : Mounted C} (hm : s.mounted = some m) :
    Inv (s.cleanup m.run) := by
  refine ⟨fun g r' hr' => ?_, nofun, fun g r' hr' hmint => ?_, fun i k' hk' => ?_,
    fun g r' i hr' hi => ?_⟩
  · obtain ⟨r, hr, rfl⟩ := getElem?_modify_eq_some.1 hr'
    refine iff_of_false (fun hc => ?_) nofun
    split_ifs at hc with hg
    obtain ⟨m', hm', hg'⟩ := (h.cancelled g r hr).1 hc
    obtain rfl := Option.some.inj (hm.symm.trans hm')
    exact hg hg'
  · obtain ⟨r, hr, rfl⟩ := getElem?_modify_eq_some.1 hr'
    have hr := h.minting g r hr
    split_ifs at hmint ⊢ <;> exact hr hmint
  · obtain ⟨k, hk, rfl⟩ := closeSocket_eq_some.1 hk'
    obtain ⟨r, hr, hi, hc⟩ := h.owner i k hk
    by_cases hrun : m.run = k.run
    · have hown : s.runs[m.run]?.bind EffectRun.socket = some i := by rw [hrun, hr]; exact hi
      rw [if_pos hown]
      exact ⟨_, getElem?_modify_eq_some.2 ⟨r, hr, (if_pos hrun).symm⟩, hi, rfl⟩
    · have hown : s.runs[m.run]?.bind EffectRun.socket ≠ some i := by
        intro hsock
        obtain ⟨r₀, hr₀, hi₀⟩ := Option.bind_eq_some_iff.1 hsock
        obtain ⟨k₀, hk₀, hrun₀⟩ := h.owned m.run r₀ i hr₀ hi₀
        obtain rfl := Option.some.inj (hk.symm.trans hk₀)
        exact hrun hrun₀.symm
      rw [if_neg hown]
      exact ⟨r, getElem?_modify_eq_some.2 ⟨r, hr, (if_neg hrun).symm⟩, hi, hc⟩
  · obtain ⟨r, hr, rfl⟩ := getElem?_modify_eq_some.1 hr'
    have hi : r.socket = some i := by split_ifs at hi <;> exact hi
    obtain ⟨k, hk, hg⟩ := h.owned g r i hr hi
    refine ⟨_, closeSocket_eq_some.2 ⟨k, hk, rfl⟩, ?_⟩
    split_ifs <;> exact hg

/-- A run creates a socket only before its cleanup. -/
theorem connect_eq_some {w : WebApp} {r : EffectRun C} {settled : Option Json} {url : String}
    (h : connect w r settled = some url) : r.cancelled = false := by
  obtain ⟨ticket, -, h⟩ := Option.bind_eq_some_iff.1 h
  split_ifs at h with hc
  exact Bool.eq_false_iff.2 hc

/-- A run whose mint settles creates a socket, which it owns, or none. -/
theorem settle_cases (w : WebApp) (g : ℕ) (r : EffectRun C) (settled : Option Json)
    (s : NewSessionAlerts C) :
    (∃ url, r.cancelled = false ∧ s.settle w g r settled = { s with
        runs := s.runs.set g { r with minting := false, socket := some s.sockets.length }
        sockets := s.sockets ++ [{ run := g, url, closeCalled := false }] }) ∨
      s.settle w g r settled = { s with runs := s.runs.set g { r with minting := false } } := by
  unfold settle
  cases hc : connect w r settled with
  | some url => exact Or.inl ⟨url, connect_eq_some hc, rfl⟩
  | none => exact Or.inr rfl

section

variable {g : ℕ} {r r' : EffectRun C}

/-- A run that is set keeps its callback and whether it is cancelled. -/
theorem Inv.cancelled_set (h : Inv s) (hr : s.runs[g]? = some r)
    (hc : r'.cancelled = r.cancelled) (j : ℕ) (x : EffectRun C)
    (hx : (s.runs.set g r')[j]? = some x) :
    x.cancelled = false ↔ ∃ m, s.mounted = some m ∧ m.run = j := by
  rcases (getElem?_set_eq_some hr).1 hx with ⟨rfl, rfl⟩ | ⟨-, hx⟩
  · rw [hc]
    exact h.cancelled g r hr
  · exact h.cancelled j x hx

theorem Inv.mounted_set (h : Inv s) (hr : s.runs[g]? = some r) (ha : r'.onAlert = r.onAlert)
    (m : Mounted C) (hm : s.mounted = some m) :
    ∃ x : EffectRun C, (s.runs.set g r')[m.run]? = some x ∧ x.onAlert = m.onAlert := by
  obtain ⟨x, hx, hxa⟩ := h.mounted m hm
  by_cases hg : g = m.run
  · subst hg
    obtain rfl := Option.some.inj (hr.symm.trans hx)
    exact ⟨r', (getElem?_set_eq_some hr).2 (Or.inl ⟨rfl, rfl⟩), ha.trans hxa⟩
  · exact ⟨x, (getElem?_set_eq_some hr).2 (Or.inr ⟨hg, hx⟩), hxa⟩

theorem Inv.minting_set (h : Inv s) (hr : s.runs[g]? = some r) (hm : r'.minting = false) (j : ℕ)
    (x : EffectRun C) (hx : (s.runs.set g r')[j]? = some x) (hxm : x.minting = true) :
    x.socket = none := by
  rcases (getElem?_set_eq_some hr).1 hx with ⟨rfl, rfl⟩ | ⟨-, hx⟩
  · rw [hm] at hxm
    cases hxm
  · exact h.minting j x hx hxm

/-- The sockets are those of other runs than one whose mint is outstanding. -/
theorem Inv.owner_set (h : Inv s) (hr : s.runs[g]? = some r) (hmint : r.minting = true) (i : ℕ)
    (k : WebSocket) (hk : s.sockets[i]? = some k) :
    ∃ x : EffectRun C, (s.runs.set g r')[k.run]? = some x ∧ x.socket = some i ∧
      k.closeCalled = x.cancelled := by
  obtain ⟨x, hx, hi, hcl⟩ := h.owner i k hk
  have hg : g ≠ k.run := by
    rintro rfl
    obtain rfl := Option.some.inj (hr.symm.trans hx)
    rw [h.minting _ r hr hmint] at hi
    cases hi
  exact ⟨x, (getElem?_set_eq_some hr).2 (Or.inr ⟨hg, hx⟩), hi, hcl⟩

/-- The mint of a run settles. -/
theorem Inv.settle (h : Inv s) (w : WebApp) (hr : s.runs[g]? = some r) (hmint : r.minting = true)
    (settled : Option Json) : Inv (s.settle w g r settled) := by
  rcases settle_cases w g r settled s with ⟨url, hc, he⟩ | he <;> rw [he]
  · refine ⟨h.cancelled_set hr rfl, h.mounted_set hr rfl, h.minting_set hr rfl, fun i k hk => ?_,
      fun j x i hx hi => ?_⟩
    · rw [List.getElem?_append] at hk
      split_ifs at hk with hlt
      · exact h.owner_set hr hmint i k hk
      · rw [List.getElem?_singleton] at hk
        split_ifs at hk with hz
        obtain rfl := Option.some.inj hk
        obtain rfl : i = s.sockets.length := by omega
        exact ⟨_, (getElem?_set_eq_some hr).2 (Or.inl ⟨rfl, rfl⟩), rfl, hc.symm⟩
    · rcases (getElem?_set_eq_some hr).1 hx with ⟨rfl, rfl⟩ | ⟨-, hx⟩
      · obtain rfl := Option.some.inj hi
        exact ⟨_, List.getElem?_concat_length, rfl⟩
      · obtain ⟨k, hk, hg⟩ := h.owned j x i hx hi
        have hlt := (List.getElem?_eq_some_iff.1 hk).1
        exact ⟨k, (List.getElem?_append_left hlt).trans hk, hg⟩
  · refine ⟨h.cancelled_set hr rfl, h.mounted_set hr rfl, h.minting_set hr rfl,
      h.owner_set hr hmint, fun j x i hx hi => ?_⟩
    rcases (getElem?_set_eq_some hr).1 hx with ⟨rfl, rfl⟩ | ⟨-, hx⟩
    · have hsocket : r.socket = some i := hi
      rw [h.minting g r hr hmint] at hsocket
      cases hsocket
    · exact h.owned j x i hx hi

end

/-! ## Steps -/

variable [DecidableEq C] {w : WebApp}

theorem mint_eq_some {g : ℕ} {settled : Option Json} (h : step w s (.mint g settled) = some s') :
    ∃ r : EffectRun C, s.runs[g]? = some r ∧ r.minting = true ∧ s' = s.settle w g r settled := by
  simp only [step] at h
  split at h
  · next r hr =>
    split_ifs at h with hm
    exact ⟨r, hr, hm, (Option.some.inj h).symm⟩
  · cases h

theorem mount_eq_some {onAlert : C} (h : step w s (.mount onAlert) = some s') :
    s.mounted = none ∧ s' = s.runEffect onAlert := by
  simp only [step] at h
  split at h
  · next hm => exact ⟨hm, (Option.some.inj h).symm⟩
  · cases h

theorem rerender_eq_some {onAlert : C} (h : step w s (.rerender onAlert) = some s') :
    ∃ m, s.mounted = some m ∧ (onAlert = m.onAlert ∧ s' = s ∨
      onAlert ≠ m.onAlert ∧ s' = (s.cleanup m.run).runEffect onAlert) := by
  simp only [step] at h
  split at h
  · cases h
  · next m hm =>
    split_ifs at h with ha
    · exact ⟨m, hm, Or.inl ⟨ha, (Option.some.inj h).symm⟩⟩
    · exact ⟨m, hm, Or.inr ⟨ha, (Option.some.inj h).symm⟩⟩

theorem receive_eq_some {i : ℕ} {data : String} (h : step w s (.receive i data) = some s') :
    ∃ k : WebSocket, s.sockets[i]? = some k ∧ k.closeCalled = false ∧
      s' = { s with calls := s.calls ++
        ((s.runs[k.run]?.map EffectRun.onAlert).bind fun onAlert =>
          (handleMessage w data).map (onAlert, ·)).toList } := by
  simp only [step] at h
  split at h
  · next k hk =>
    split_ifs at h with hc
    exact ⟨k, hk, Bool.eq_false_iff.2 hc, (Option.some.inj h).symm⟩
  · cases h

theorem Inv.step {a : Act C} (h : Inv s) (hstep : step w s a = some s') : Inv s' := by
  cases a with
  | mount onAlert =>
    obtain ⟨hm, rfl⟩ := mount_eq_some hstep
    exact h.runEffect hm onAlert
  | rerender onAlert =>
    obtain ⟨m, hm, ⟨-, rfl⟩ | ⟨-, rfl⟩⟩ := rerender_eq_some hstep
    · exact h
    · exact (h.cleanup hm).runEffect rfl onAlert
  | unmount =>
    obtain ⟨m, hm, rfl⟩ := Option.map_eq_some_iff.1 hstep
    exact h.cleanup hm
  | mint g settled =>
    obtain ⟨r, hr, hmint, rfl⟩ := mint_eq_some hstep
    exact h.settle w hr hmint settled
  | receive i data =>
    obtain ⟨k, -, -, rfl⟩ := receive_eq_some hstep
    exact ⟨h.cancelled, h.mounted, h.minting, h.owner, h.owned⟩

theorem run_inv {as : List (Act C)} (h : run (step w) start as = some s) : Inv s :=
  run_induction (P := fun _ s => Inv s) inv_start (fun _ _ _ _ _ hi hstep => hi.step hstep) h

/-! ## The lifecycle of the sockets -/

/-- What holds of the sockets of a state, and of the next step. -/
structure Lifecycle (w : WebApp) (s : NewSessionAlerts C) : Prop where
  /-- A run has created at most one socket. -/
  oneSocket : ∀ (i j : ℕ) (k l : WebSocket), s.sockets[i]? = some k → s.sockets[j]? = some l →
    k.run = l.run → i = j
  /-- At most one socket is not told to close. -/
  oneOpen : ∀ (i j : ℕ) (k l : WebSocket), s.sockets[i]? = some k → s.sockets[j]? = some l →
    k.closeCalled = false → l.closeCalled = false → i = j
  /-- Where nothing is mounted every socket has been told to close. -/
  unmounted : s.mounted = none → ∀ k ∈ s.sockets, k.closeCalled = true
  /-- A step creates no socket, or one of a run that is mounted and not cleaned up. -/
  created : ∀ a s', step w s a = some s' → s'.sockets.length = s.sockets.length ∨
    ∃ (k : WebSocket) (r : EffectRun C), s'.sockets = s.sockets ++ [k] ∧
      s.runs[k.run]? = some r ∧ r.cancelled = false ∧ s.mounted ≠ none
  /-- A frame on an open socket, which is one of the run that is mounted, calls its callback
  once where it is of a new session, and else none. -/
  received : ∀ (i : ℕ) (k : WebSocket), s.sockets[i]? = some k → k.closeCalled = false →
    ∃ m, s.mounted = some m ∧ m.run = k.run ∧ ∀ data, ∃ s', step w s (.receive i data) = some s' ∧
      (∀ ip, IsNewSession w data ip → s'.calls = s.calls ++ [(m.onAlert, ip)]) ∧
      ((∀ ip, ¬ IsNewSession w data ip) → s'.calls = s.calls)
  /-- Nothing else calls a callback. -/
  silent : ∀ a s', step w s a = some s' → (∀ i data, a ≠ .receive i data) → s'.calls = s.calls
  /-- The callback mounted is that of the last render. -/
  current : ∀ onAlert s', step w s (.mount onAlert) = some s' ∨
    step w s (.rerender onAlert) = some s' → ∃ m, s'.mounted = some m ∧ m.onAlert = onAlert

omit [DecidableEq C] in
theorem Inv.oneSocket (h : Inv s) {i j : ℕ} {k l : WebSocket} (hk : s.sockets[i]? = some k)
    (hl : s.sockets[j]? = some l) (hrun : k.run = l.run) : i = j := by
  obtain ⟨r, hr, hi, -⟩ := h.owner i k hk
  obtain ⟨r', hr', hj, -⟩ := h.owner j l hl
  rw [hrun, hr'] at hr
  obtain rfl := Option.some.inj hr
  exact Option.some.inj (hi.symm.trans hj)

omit [DecidableEq C] in
/-- An open socket is one of the run that is mounted. -/
theorem Inv.open_mounted (h : Inv s) {i : ℕ} {k : WebSocket} (hk : s.sockets[i]? = some k)
    (hopen : k.closeCalled = false) : ∃ m, s.mounted = some m ∧ m.run = k.run := by
  obtain ⟨r, hr, -, hc⟩ := h.owner i k hk
  exact (h.cancelled k.run r hr).1 (hc.symm.trans hopen)

omit [DecidableEq C] in
@[simp] theorem length_closeSocket (o : Option ℕ) (ks : List WebSocket) :
    (closeSocket o ks).length = ks.length := by
  cases o <;> simp [closeSocket]

theorem created_cases (h : Inv s) {a : Act C} (hstep : step w s a = some s') :
    s'.sockets.length = s.sockets.length ∨
      ∃ (k : WebSocket) (r : EffectRun C), s'.sockets = s.sockets ++ [k] ∧
        s.runs[k.run]? = some r ∧ r.cancelled = false ∧ s.mounted ≠ none := by
  cases a with
  | mount onAlert =>
    obtain ⟨-, rfl⟩ := mount_eq_some hstep
    exact Or.inl rfl
  | rerender onAlert =>
    obtain ⟨m, -, ⟨-, rfl⟩ | ⟨-, rfl⟩⟩ := rerender_eq_some hstep
    · exact Or.inl rfl
    · exact Or.inl (length_closeSocket _ _)
  | unmount =>
    obtain ⟨m, -, rfl⟩ := Option.map_eq_some_iff.1 hstep
    exact Or.inl (length_closeSocket _ _)
  | mint g settled =>
    obtain ⟨r, hr, -, rfl⟩ := mint_eq_some hstep
    rcases settle_cases w g r settled s with ⟨url, hc, he⟩ | he <;> rw [he]
    · obtain ⟨m, hm, -⟩ := (h.cancelled g r hr).1 hc
      refine Or.inr ⟨_, r, rfl, hr, hc, fun hn => ?_⟩
      rw [hm] at hn
      cases hn
    · exact Or.inl rfl
  | receive i data =>
    obtain ⟨k, -, -, rfl⟩ := receive_eq_some hstep
    exact Or.inl rfl

theorem received_calls (h : Inv s) {i : ℕ} {k : WebSocket} (hk : s.sockets[i]? = some k)
    (hopen : k.closeCalled = false) :
    ∃ m, s.mounted = some m ∧ m.run = k.run ∧ ∀ data, ∃ s', step w s (.receive i data) = some s' ∧
      (∀ ip, IsNewSession w data ip → s'.calls = s.calls ++ [(m.onAlert, ip)]) ∧
      ((∀ ip, ¬ IsNewSession w data ip) → s'.calls = s.calls) := by
  obtain ⟨m, hm, hrun⟩ := h.open_mounted hk hopen
  obtain ⟨r, hr, ha⟩ := h.mounted m hm
  rw [hrun] at hr
  refine ⟨m, hm, hrun, fun data => ⟨_, by simp only [step, hk, hopen]; rfl, fun ip hip => ?_,
    fun hno => ?_⟩⟩
  · rw [hr, handleMessage_eq_some.2 hip, ← ha]
    rfl
  · have hnone : handleMessage w data = none :=
      Option.eq_none_iff_forall_ne_some.2 fun ip hip => hno ip (handleMessage_eq_some.1 hip)
    rw [hr, hnone]
    exact List.append_nil _

theorem calls_eq {a : Act C} (hstep : step w s a = some s') (ha : ∀ i data, a ≠ .receive i data) :
    s'.calls = s.calls := by
  cases a with
  | mount onAlert =>
    obtain ⟨-, rfl⟩ := mount_eq_some hstep
    rfl
  | rerender onAlert =>
    obtain ⟨m, -, ⟨-, rfl⟩ | ⟨-, rfl⟩⟩ := rerender_eq_some hstep <;> rfl
  | unmount =>
    obtain ⟨m, -, rfl⟩ := Option.map_eq_some_iff.1 hstep
    rfl
  | mint g settled =>
    obtain ⟨r, -, -, rfl⟩ := mint_eq_some hstep
    rcases settle_cases w g r settled s with ⟨url, -, he⟩ | he <;> rw [he]
  | receive i data => exact (ha i data rfl).elim

theorem mounted_of_render {onAlert : C}
    (h : step w s (.mount onAlert) = some s' ∨ step w s (.rerender onAlert) = some s') :
    ∃ m, s'.mounted = some m ∧ m.onAlert = onAlert := by
  rcases h with h | h
  · obtain ⟨-, rfl⟩ := mount_eq_some h
    exact ⟨_, rfl, rfl⟩
  · obtain ⟨m, hm, ⟨rfl, rfl⟩ | ⟨-, rfl⟩⟩ := rerender_eq_some h
    · exact ⟨m, hm, rfl⟩
    · exact ⟨_, rfl, rfl⟩

/-- Over any run, whatever the order in which the mints settle. -/
theorem socket_lifecycle {as : List (Act C)} (h : run (step w) start as = some s) :
    Lifecycle w s where
  oneSocket _ _ _ _ hk hl hrun := (run_inv h).oneSocket hk hl hrun
  oneOpen i j k l hk hl hko hlo := by
    have hi := run_inv h
    obtain ⟨m, hm, hrun⟩ := hi.open_mounted hk hko
    obtain ⟨m', hm', hrun'⟩ := hi.open_mounted hl hlo
    obtain rfl := Option.some.inj (hm.symm.trans hm')
    exact hi.oneSocket hk hl (hrun.symm.trans hrun')
  unmounted hm k hk := by
    obtain ⟨i, hk⟩ := List.mem_iff_getElem?.1 hk
    by_contra hopen
    obtain ⟨m, hm', -⟩ := (run_inv h).open_mounted hk (Bool.eq_false_iff.2 hopen)
    rw [hm] at hm'
    cases hm'
  created _ _ hstep := created_cases (run_inv h) hstep
  received _ _ hk hopen := received_calls (run_inv h) hk hopen
  silent _ _ hstep ha := calls_eq hstep ha
  current _ _ hstep := mounted_of_render hstep

/-- The console at an API origin, in a browser that knows one frame. -/
def console : WebApp where
  parse data :=
    if data = "\x7b\x22event\x22:\x22on_new_session\x22,\x22ip\x22:\x22203.0.113.7\x22\x7d" then
      some (.obj [("event", .str "on_new_session"), ("ip", .str "203.0.113.7")])
    else none
  parseUrl url :=
    if url = "https://api.example.test" then some ⟨"https", "api.example.test", none, "/"⟩
    else if url = "localhost:3001" then some ⟨"localhost", "", none, "3001"⟩
    else none
  encodeURIComponent ticket := ticket.bind Json.str?
  opens _ := true
  apiUrl := some "https://api.example.test"

-- A base without a scheme is a URL of the scheme `localhost`, which stays.
example : buildWsUrl { console with apiUrl := some "localhost:3001" } (some (.str "tck")) =
    some "null/ws/example?ticket=tck" := by
  decide

/-- The first mint resolves after its run is cleaned up, the second opens a socket. -/
def lateMint : List (Act String) :=
  [.mount "first", .rerender "second", .mint 0 (some (.obj [("ticket", .str "late")])),
    .mint 1 (some (.obj [("ticket", .str "tck")])),
    .receive 0 "\x7b\x22event\x22:\x22on_new_session\x22,\x22ip\x22:\x22203.0.113.7\x22\x7d",
    .receive 0 "not-json", .unmount]

theorem socket_lifecycle_lateMint :
    ∃ s, run (step console) start lateMint = some s ∧ s.sockets.length = 1 ∧
      s.calls = [("second", .str "203.0.113.7")] ∧ ∀ k ∈ s.sockets, k.closeCalled = true := by
  have hrun : run (step console) start lateMint = some
      { runs := [⟨"first", false, true, none⟩, ⟨"second", false, true, some 0⟩]
        mounted := none
        sockets := [⟨1, "wss://api.example.test/ws/example?ticket=tck", true⟩]
        calls := [("second", .str "203.0.113.7")] } := by
    simp [lateMint, run_cons, step, start, runEffect, cleanup, closeSocket, settle, connect,
      mintWsTicket, buildWsUrl, Url.origin, console, handleMessage, orUnknown, Json.member,
      Json.get?, Json.str?, List.lookup_cons]
    decide
  exact ⟨_, hrun, rfl, rfl, (socket_lifecycle hrun).unmounted rfl⟩

end NewSessionAlerts

end AuthExample
