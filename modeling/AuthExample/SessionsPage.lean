import AuthExample.Runs
import Mathlib.Data.List.Perm.Basic

/-!
# The Sessions page

The page lists the account's sessions, drops a row as soon as its revoke is sent and puts
the whole list back if it fails, and loads the list again on every new-session alert, on
Retry and after signing out the other devices.

The page runs here with its server. A request is in flight until it is delivered, and the
server answers it at some point before; requests are answered and delivered in any order.
`converged_of_current` : where no stale list lands and no session is revoked behind the
page's back, the page shows the server's sessions once nothing is in flight. So it is when
requests are sent one at a time (`converged_of_oneAtATime`).
-/

namespace AuthExample

/-- A device session. -/
structure Session where
  id : String
  device : String
  ip : String
  lastActivity : String
  isCurrent : Bool
  deriving DecidableEq

/-- The load lifecycle of the list. -/
inductive LoadState where
  | loading
  | error
  | ready (sessions : List Session)

/-- Why the list is loaded : the page was mounted or retried, the alert of a new session
came, or the other devices were signed out. -/
inductive LoadCause where
  | page
  | alert (id : String)
  | signOut

/-- A request in flight, with the server's answer once it has one. A list resolves to the
sessions or fails, the others resolve or fail. `previous` is what a failed revoke
restores. -/
inductive SessionRequest where
  | list (cause : LoadCause) (answer : Option (Option (List Session)))
  | revoke (id : String) (previous : List Session) (answer : Option Bool)
  | signOutOthers (answer : Option Bool)

/-- The session a request may still revoke or put back : its revoke has no answer, or has
failed and is not delivered. -/
def SessionRequest.revoking : SessionRequest → Option String
  | .revoke id _ none => some id
  | .revoke id _ (some false) => some id
  | _ => none

/-- The request is a sign-out that succeeded and is not delivered. -/
def SessionRequest.signedOut : SessionRequest → Bool
  | .signOutOthers (some true) => true
  | _ => false

/-- The server's sessions, the page's state and the requests in flight. `confirming` is
the open sign-out dialog, and `unsynced` records the sessions created whose alert has not
led to a load that succeeded. -/
structure SessionsPage where
  server : List Session
  state : LoadState
  revokingId : Option String
  signingOutOthers : Bool
  confirming : Bool
  inFlight : List SessionRequest
  unsynced : List String

namespace SessionsPage

/-! ## The page -/

/-- `load` up to its request. -/
def load (cause : LoadCause) (p : SessionsPage) : SessionsPage :=
  { p with state := .loading, inFlight := p.inFlight ++ [.list cause none] }

/-- `load` once its request settles. After a sign-out the flag is cleared next. -/
def loadSettled (cause : LoadCause) (answer : Option (List Session)) (p : SessionsPage) :
    SessionsPage :=
  let p := match answer with
    | some sessions => { p with state := .ready sessions }
    | none => { p with state := .error }
  match cause, answer with
  | .alert id, some _ => { p with unsynced := p.unsynced.filter (· ≠ id) }
  | .signOut, _ => { p with signingOutOthers := false }
  | _, _ => p

/-- The page just mounted. -/
def mount (server : List Session) : SessionsPage :=
  load .page
    { server := server, state := .loading, revokingId := none, signingOutOthers := false,
      confirming := false, inFlight := [], unsynced := [] }

/-- `handleRevoke` up to its request, from a row the page shows. The row of the current
device has no button, and that of `revokingId` a disabled one. -/
def handleRevoke (id : String) (p : SessionsPage) : Option SessionsPage :=
  match p.state with
  | .ready previous =>
    if previous.any (fun s => s.id == id && !s.isCurrent) && p.revokingId != some id then
      some { p with
        revokingId := some id
        state := .ready (previous.filter fun s => s.id ≠ id)
        inFlight := p.inFlight ++ [.revoke id previous none] }
    else none
  | _ => none

/-- `handleRevoke` once its request settles. -/
def revokeSettled (previous : List Session) (ok : Bool) (p : SessionsPage) : SessionsPage :=
  let p := if ok then p else { p with state := .ready previous }
  { p with revokingId := none }

/-- Open the sign-out dialog, or close it. -/
def setConfirming (isOpen : Bool) (p : SessionsPage) : Option SessionsPage :=
  match isOpen, p.state with
  | true, .ready _ => if p.signingOutOthers then none else some { p with confirming := true }
  | true, _ => none
  | false, _ => some { p with confirming := false }

/-- `handleSignOutOthers` up to its request, from the dialog. -/
def handleSignOutOthers (p : SessionsPage) : Option SessionsPage :=
  if p.confirming then
    some { p with
      confirming := false
      signingOutOthers := true
      inFlight := p.inFlight ++ [.signOutOthers none] }
  else none

/-- `handleSignOutOthers` once its request settles : the list is loaded again. -/
def signOutSettled (ok : Bool) (p : SessionsPage) : SessionsPage :=
  if ok then p.load .signOut else { p with signingOutOthers := false }

/-! ## The server and the network -/

/-- A session signs in elsewhere, with an id of its own. -/
def create (s : Session) (p : SessionsPage) : Option SessionsPage :=
  if s.isCurrent = true ∨ s.id ∈ p.server.map Session.id ++ p.unsynced then none
  else some { p with server := p.server ++ [s], unsynced := s.id :: p.unsynced }

/-- The alert of a created session : the page loads the list. -/
def onNewSession (id : String) (p : SessionsPage) : Option SessionsPage :=
  if id ∈ p.unsynced then some (p.load (.alert id)) else none

/-- Retry, from the error state. -/
def retry (p : SessionsPage) : Option SessionsPage :=
  match p.state with
  | .error => some (p.load .page)
  | _ => none

/-- The server answers the request at `i`. A request that fails changes nothing. -/
def serve (i : ℕ) (ok : Bool) (p : SessionsPage) : Option SessionsPage :=
  match p.inFlight[i]? with
  | some (.list cause none) =>
    some { p with
      inFlight := p.inFlight.set i (.list cause (some (if ok then some p.server else none))) }
  | some (.revoke id previous none) =>
    some { p with
      server := if ok then p.server.filter fun s => s.id ≠ id else p.server
      inFlight := p.inFlight.set i (.revoke id previous (some ok)) }
  | some (.signOutOthers none) =>
    some { p with
      server := if ok then p.server.filter Session.isCurrent else p.server
      inFlight := p.inFlight.set i (.signOutOthers (some ok)) }
  | _ => none

/-- The answer at `i` is delivered. -/
def deliver (i : ℕ) (p : SessionsPage) : Option SessionsPage :=
  let p' := { p with inFlight := p.inFlight.eraseIdx i }
  match p.inFlight[i]? with
  | some (.list cause (some answer)) => some (p'.loadSettled cause answer)
  | some (.revoke _ previous (some ok)) => some (p'.revokeSettled previous ok)
  | some (.signOutOthers (some ok)) => some (p'.signOutSettled ok)
  | _ => none

/-- What can happen. -/
inductive Act where
  | create (s : Session)
  | onNewSession (id : String)
  | retry
  | handleRevoke (id : String)
  | setConfirming (isOpen : Bool)
  | handleSignOutOthers
  | serve (i : ℕ) (ok : Bool)
  | deliver (i : ℕ)

/-- One step of the page, of its server or of the network. -/
def step (p : SessionsPage) : Act → Option SessionsPage
  | .create s => p.create s
  | .onNewSession id => p.onNewSession id
  | .retry => p.retry
  | .handleRevoke id => p.handleRevoke id
  | .setConfirming isOpen => p.setConfirming isOpen
  | .handleSignOutOthers => p.handleSignOutOthers
  | .serve i ok => p.serve i ok
  | .deliver i => p.deliver i

/-! ## What a step does -/

theorem create_eq_some {p p' : SessionsPage} {s : Session} (h : p.create s = some p') :
    s.id ∉ p.unsynced ∧
      p' = { p with server := p.server ++ [s], unsynced := s.id :: p.unsynced } := by
  unfold create at h
  split_ifs at h with hs
  refine ⟨fun hmem => hs (Or.inr (List.mem_append_right _ hmem)), (Option.some.inj h).symm⟩

theorem onNewSession_eq_some {p p' : SessionsPage} {id : String}
    (h : p.onNewSession id = some p') : id ∈ p.unsynced ∧ p' = p.load (.alert id) := by
  unfold onNewSession at h
  split_ifs at h with hid
  exact ⟨hid, (Option.some.inj h).symm⟩

theorem retry_eq_some {p p' : SessionsPage} (h : p.retry = some p') : p' = p.load .page := by
  unfold retry at h
  split at h
  · exact (Option.some.inj h).symm
  · simp at h

theorem handleRevoke_eq_some {p p' : SessionsPage} {id : String}
    (h : p.handleRevoke id = some p') : ∃ previous, p.state = .ready previous ∧
      p' = { p with
        revokingId := some id
        state := .ready (previous.filter fun s => s.id ≠ id)
        inFlight := p.inFlight ++ [.revoke id previous none] } := by
  unfold handleRevoke at h
  split at h
  · next previous hprevious =>
    split_ifs at h
    exact ⟨previous, hprevious, (Option.some.inj h).symm⟩
  · simp at h

theorem setConfirming_eq_some {p p' : SessionsPage} {isOpen : Bool}
    (h : p.setConfirming isOpen = some p') : ∃ c, p' = { p with confirming := c } := by
  unfold setConfirming at h
  split at h
  · split_ifs at h
    exact ⟨true, (Option.some.inj h).symm⟩
  · simp at h
  · exact ⟨false, (Option.some.inj h).symm⟩

theorem handleSignOutOthers_eq_some {p p' : SessionsPage} (h : p.handleSignOutOthers = some p') :
    p' = { p with
      confirming := false
      signingOutOthers := true
      inFlight := p.inFlight ++ [.signOutOthers none] } := by
  unfold handleSignOutOthers at h
  split_ifs at h
  exact (Option.some.inj h).symm

/-! ## Staying in sync -/

/-- Once nothing is in flight, and every created session's alert has led to a load that
succeeded, a page that is ready shows the server's sessions. -/
def Converged (p : SessionsPage) : Prop :=
  p.inFlight = [] → p.unsynced = [] → ∀ shown, p.state = .ready shown →
    ∀ s, s ∈ shown ↔ s ∈ p.server

/-- A revoke of the session is in flight that may still take it away or put it back. -/
def Revoking (flight : List SessionRequest) (id : String) : Prop :=
  ∃ r ∈ flight, r.revoking = some id

/-- A sign-out has succeeded and the page has not heard of it. -/
def SignedOut (flight : List SessionRequest) : Prop := ∃ r ∈ flight, r.signedOut = true

/-- A list agrees with the server : it holds live sessions only, and each live session it
lacks is one the page is still to hear of, or one whose revoke is in flight. -/
def Agrees (server : List Session) (unsynced : List String) (flight : List SessionRequest)
    (shown : List Session) : Prop :=
  (∀ s ∈ shown, s ∈ server) ∧
    ∀ s ∈ server, s ∈ shown ∨ s.id ∈ unsynced ∨ Revoking flight s.id

/-- The list the page shows agrees with the server, unless a sign-out is about to reload
it. -/
def Synced (p : SessionsPage) : Prop :=
  ¬ SignedOut p.inFlight → ∀ shown, p.state = .ready shown →
    Agrees p.server p.unsynced p.inFlight shown

/-- A page in sync has converged once nothing is in flight. -/
theorem Synced.converged {p : SessionsPage} (h : p.Synced) : p.Converged := by
  intro hflight hunsynced shown hshown s
  have hout : ¬ SignedOut p.inFlight := by simp [SignedOut, hflight]
  obtain ⟨hlive, hall⟩ := h hout shown hshown
  refine ⟨hlive s, fun hs => ?_⟩
  simpa [hunsynced, hflight, Revoking] using hall s hs

/-- The list the delivery of the answer at `i` would show. -/
def brings (p : SessionsPage) (i : ℕ) : Option (List Session) :=
  match p.inFlight[i]? with
  | some (.list _ (some (some sessions))) => some sessions
  | some (.revoke _ previous (some false)) => some previous
  | _ => none

/-- The sessions the page is still to hear of after the delivery of the answer at `i`. -/
def unsyncedAfter (p : SessionsPage) (i : ℕ) : List String :=
  match p.inFlight[i]? with
  | some (.list (.alert id) (some (some _))) => p.unsynced.filter (· ≠ id)
  | _ => p.unsynced

/-- A step that leaves the page in sync : a session whose revoke succeeds is not shown, and
a list that lands, loaded or put back by a failed revoke, agrees with the server as it is
by then. Neither matters while a sign-out is about to reload the list. -/
def Current (p : SessionsPage) : Act → Prop
  | .serve i true => ∀ id previous, p.inFlight[i]? = some (.revoke id previous none) →
      ¬ SignedOut p.inFlight → ∀ shown, p.state = .ready shown → ∀ s ∈ shown, s.id ≠ id
  | .deliver i => ∀ shown, p.brings i = some shown → ¬ SignedOut p.inFlight →
      Agrees p.server (p.unsyncedAfter i) (p.inFlight.eraseIdx i) shown
  | _ => True

/-! ## Requests come and go -/

section

variable {flight : List SessionRequest} {i : ℕ} {r : SessionRequest}

/-- A request in flight is the one at `i` or another. -/
theorem exists_mem_iff (h : flight[i]? = some r) {P : SessionRequest → Prop} :
    (∃ q ∈ flight, P q) ↔ P r ∨ ∃ q ∈ flight.eraseIdx i, P q := by
  obtain ⟨hi, rfl⟩ := List.getElem?_eq_some_iff.1 h
  simp [← (List.getElem_cons_eraseIdx_perm hi).mem_iff]

/-- Once the one at `i` is answered, it is that or another. -/
theorem exists_mem_set (h : flight[i]? = some r) (r' : SessionRequest)
    {P : SessionRequest → Prop} :
    (∃ q ∈ flight.set i r', P q) ↔ P r' ∨ ∃ q ∈ flight.eraseIdx i, P q := by
  simp [(List.set_perm_cons_eraseIdx (List.getElem?_eq_some_iff.1 h).1 r').mem_iff]

theorem exists_mem_append {P : SessionRequest → Prop} :
    (∃ q ∈ flight ++ [r], P q) ↔ (∃ q ∈ flight, P q) ∨ P r := by
  simp [or_and_right, exists_or]

end

/-- What the page shows, what the server has and what is in flight decide whether it is in
sync. -/
theorem Synced.congr {p p' : SessionsPage} (h : p.Synced) (hserver : p'.server = p.server)
    (hstate : p'.state = p.state) (hunsynced : p'.unsynced = p.unsynced)
    (hrevoking : ∀ id, Revoking p'.inFlight id ↔ Revoking p.inFlight id)
    (hsigned : SignedOut p'.inFlight ↔ SignedOut p.inFlight) : p'.Synced := by
  intro hout shown hshown
  rw [hsigned] at hout
  rw [hstate] at hshown
  simpa only [Agrees, hserver, hunsynced, hrevoking] using h hout shown hshown

theorem synced_load (cause : LoadCause) (p : SessionsPage) : (p.load cause).Synced :=
  fun _ _ h => nomatch h

/-- A session that signs in elsewhere leaves a list in agreement : the page is still to
hear of it. -/
theorem Agrees.create {server : List Session} {unsynced : List String}
    {flight : List SessionRequest} {shown : List Session}
    (h : Agrees server unsynced flight shown) (s : Session) :
    Agrees (server ++ [s]) (s.id :: unsynced) flight shown := by
  obtain ⟨hlive, hall⟩ := h
  refine ⟨fun t ht => List.mem_append_left _ (hlive t ht), fun t ht => ?_⟩
  rcases List.mem_append.1 ht with ht | ht
  · exact (hall t ht).imp_right (Or.imp_left (List.mem_cons_of_mem _))
  · obtain rfl := List.mem_singleton.1 ht
    exact Or.inr (Or.inl List.mem_cons_self)

theorem synced_create {p p' : SessionsPage} {s : Session} (hp : p.Synced)
    (h : p.create s = some p') : p'.Synced := by
  obtain ⟨-, rfl⟩ := create_eq_some h
  exact fun hout shown hshown => (hp hout shown hshown).create s

theorem synced_handleRevoke {p p' : SessionsPage} {id : String} (hp : p.Synced)
    (h : p.handleRevoke id = some p') : p'.Synced := by
  obtain ⟨previous, hprevious, rfl⟩ := handleRevoke_eq_some h
  intro hout shown hshown
  obtain rfl := LoadState.ready.inj hshown
  have hout' : ¬ SignedOut p.inFlight := fun hs => hout (exists_mem_append.2 (Or.inl hs))
  obtain ⟨hlive, hall⟩ := hp hout' previous hprevious
  refine ⟨fun t ht => hlive t (List.mem_of_mem_filter ht), fun t ht => ?_⟩
  by_cases hid : t.id = id
  · exact Or.inr (Or.inr (exists_mem_append.2 (Or.inr (hid ▸ rfl))))
  · rcases hall t ht with hshow | hmiss | hrev
    · exact Or.inl (List.mem_filter.2 ⟨hshow, by simpa using hid⟩)
    · exact Or.inr (Or.inl hmiss)
    · exact Or.inr (Or.inr (exists_mem_append.2 (Or.inl hrev)))

/-- Asking for something else leaves the page in sync. -/
theorem Synced.send {p p' : SessionsPage} {r : SessionRequest} (h : p.Synced)
    (hserver : p'.server = p.server) (hstate : p'.state = p.state)
    (hunsynced : p'.unsynced = p.unsynced) (hflight : p'.inFlight = p.inFlight ++ [r])
    (hr : r.revoking = none) (hs : r.signedOut = false) : p'.Synced :=
  h.congr hserver hstate hunsynced
    (fun id => by simp [hflight, Revoking, hr]) (by simp [hflight, SignedOut, hs])

/-- An answer that changes neither what may be revoked nor the list keeps the page in
sync. -/
theorem Synced.answer {p p' : SessionsPage} {i : ℕ} {r r' : SessionRequest} (h : p.Synced)
    (hr : p.inFlight[i]? = some r) (hserver : p'.server = p.server) (hstate : p'.state = p.state)
    (hunsynced : p'.unsynced = p.unsynced) (hflight : p'.inFlight = p.inFlight.set i r')
    (hrevoking : r'.revoking = r.revoking) (hsigned : r'.signedOut = r.signedOut) : p'.Synced :=
  h.congr hserver hstate hunsynced
    (fun id => by rw [hflight, Revoking, Revoking, exists_mem_iff hr, exists_mem_set hr, hrevoking])
    (by rw [hflight, SignedOut, SignedOut, exists_mem_iff hr, exists_mem_set hr, hsigned])

/-- A revoke that succeeds keeps the page in sync exactly when its session is not shown. -/
theorem synced_revoked {p : SessionsPage} {i : ℕ} {id : String} {previous : List Session}
    (hp : p.Synced) (hr : p.inFlight[i]? = some (.revoke id previous none)) :
    ({ p with
      server := p.server.filter fun s => s.id ≠ id
      inFlight := p.inFlight.set i (.revoke id previous (some true)) } : SessionsPage).Synced ↔
      (¬ SignedOut p.inFlight → ∀ shown, p.state = .ready shown → ∀ s ∈ shown, s.id ≠ id) := by
  have hsigned : SignedOut (p.inFlight.set i (.revoke id previous (some true))) ↔
      SignedOut p.inFlight := by
    rw [SignedOut, SignedOut, exists_mem_iff hr, exists_mem_set hr]
    rfl
  unfold Synced
  simp only [hsigned]
  refine forall_congr' fun hout => forall₂_congr fun shown hshown => ?_
  obtain ⟨hlive, hall⟩ := hp hout shown hshown
  constructor
  · rintro ⟨hlive', -⟩ s hs
    simpa using (List.mem_filter.1 (hlive' s hs)).2
  · refine fun hne => ⟨fun s hs => List.mem_filter.2 ⟨hlive s hs, by simpa using hne s hs⟩, ?_⟩
    intro s hs
    obtain ⟨hs, hid⟩ := List.mem_filter.1 hs
    refine (hall s hs).imp_right (Or.imp_right fun hrev => ?_)
    rw [Revoking, exists_mem_iff hr] at hrev
    rw [Revoking, exists_mem_set hr]
    refine Or.inr (hrev.resolve_left fun h => ?_)
    have hid' : s.id ≠ id := by simpa using hid
    exact hid' (Option.some.inj h).symm

/-- An answer keeps the page in sync exactly when no session it revokes is shown. -/
theorem synced_serve {p p' : SessionsPage} {i : ℕ} {ok : Bool} (hp : p.Synced)
    (h : p.serve i ok = some p') : p'.Synced ↔ p.Current (.serve i ok) := by
  unfold serve at h
  split at h
  · next cause hr =>
    obtain rfl := Option.some.inj h
    refine iff_of_true (hp.answer hr rfl rfl rfl rfl rfl rfl) ?_
    cases ok <;> simp [Current, hr]
  · next id previous hr =>
    obtain rfl := Option.some.inj h
    cases ok with
    | false => exact iff_of_true (hp.answer hr rfl rfl rfl rfl rfl rfl) trivial
    | true =>
      refine (synced_revoked hp hr).trans ?_
      simp only [Current, hr, Option.some.injEq, SessionRequest.revoke.injEq, and_true, and_imp]
      exact ⟨fun h _ _ hid _ => hid ▸ h, fun h => h id previous rfl rfl⟩
  · next hr =>
    obtain rfl := Option.some.inj h
    cases ok with
    | false => exact iff_of_true (hp.answer hr rfl rfl rfl rfl rfl rfl) trivial
    | true =>
      refine iff_of_true (fun hout => absurd ?_ hout) (by simp [Current, hr])
      exact (exists_mem_set hr _).2 (Or.inl rfl)
  · simp at h

/-- A delivery that brings no list keeps the page in sync. -/
theorem Synced.drop {p p' : SessionsPage} {i : ℕ} {r : SessionRequest} (h : p.Synced)
    (hr : p.inFlight[i]? = some r) (hserver : p'.server = p.server) (hstate : p'.state = p.state)
    (hunsynced : p'.unsynced = p.unsynced) (hflight : p'.inFlight = p.inFlight.eraseIdx i)
    (hrevoking : r.revoking = none) (hsigned : r.signedOut = false) : p'.Synced :=
  h.congr hserver hstate hunsynced
    (fun id => by simp [hflight, Revoking, exists_mem_iff hr, hrevoking])
    (by simp [hflight, SignedOut, exists_mem_iff hr, hsigned])

/-- A delivery that brings a list keeps the page in sync exactly when the list agrees with
the server. -/
theorem synced_brings {p p' : SessionsPage} {i : ℕ} {r : SessionRequest} {shown : List Session}
    (hr : p.inFlight[i]? = some r) (hbrings : p.brings i = some shown)
    (hserver : p'.server = p.server) (hstate : p'.state = .ready shown)
    (hunsynced : p'.unsynced = p.unsyncedAfter i) (hflight : p'.inFlight = p.inFlight.eraseIdx i)
    (hsigned : r.signedOut = false) : p'.Synced ↔ p.Current (.deliver i) := by
  have hout : SignedOut p.inFlight ↔ SignedOut (p.inFlight.eraseIdx i) := by
    simp [SignedOut, exists_mem_iff hr, hsigned]
  simp only [Synced, Current, hserver, hstate, hunsynced, hflight, hbrings, hout,
    LoadState.ready.injEq, Option.some.injEq]
  exact ⟨fun h t ht hs => h hs t ht, fun h hs t ht => h t ht hs⟩

/-- A delivery keeps the page in sync exactly when the list it brings agrees with the
server. -/
theorem synced_deliver {p p' : SessionsPage} {i : ℕ} (hp : p.Synced)
    (h : p.deliver i = some p') : p'.Synced ↔ p.Current (.deliver i) := by
  unfold deliver at h
  split at h
  · next cause answer hr =>
    obtain rfl := Option.some.inj h
    cases answer with
    | none =>
      refine iff_of_true (fun _ _ hshown => ?_) (by simp [Current, brings, hr])
      cases cause <;> cases hshown
    | some sessions =>
      have hbrings : p.brings i = some sessions := by simp [brings, hr]
      cases cause <;>
        exact synced_brings hr hbrings rfl rfl (by simp [unsyncedAfter, hr, loadSettled]) rfl rfl
  · next id previous ok hr =>
    obtain rfl := Option.some.inj h
    cases ok with
    | true => exact iff_of_true (hp.drop hr rfl rfl rfl rfl rfl rfl) (by simp [Current, brings, hr])
    | false =>
      have hbrings : p.brings i = some previous := by simp [brings, hr]
      have hunsynced : p.unsynced = p.unsyncedAfter i := by simp [unsyncedAfter, hr]
      exact synced_brings hr hbrings rfl rfl hunsynced rfl rfl
  · next ok hr =>
    obtain rfl := Option.some.inj h
    refine iff_of_true ?_ (by simp [Current, brings, hr])
    cases ok with
    | true => exact synced_load _ _
    | false => exact hp.drop hr rfl rfl rfl rfl rfl rfl
  · simp at h

/-- A step keeps the page in sync exactly when it is current. -/
theorem synced_step {p p' : SessionsPage} {a : Act} (hp : p.Synced)
    (h : p.step a = some p') : p'.Synced ↔ p.Current a := by
  cases a with
  | create s => exact iff_of_true (synced_create hp h) trivial
  | onNewSession id =>
    obtain ⟨-, rfl⟩ := onNewSession_eq_some h
    exact iff_of_true (synced_load _ _) trivial
  | retry =>
    obtain rfl := retry_eq_some h
    exact iff_of_true (synced_load _ _) trivial
  | handleRevoke id => exact iff_of_true (synced_handleRevoke hp h) trivial
  | setConfirming isOpen =>
    obtain ⟨confirming, rfl⟩ := setConfirming_eq_some h
    exact iff_of_true hp trivial
  | handleSignOutOthers =>
    obtain rfl := handleSignOutOthers_eq_some h
    exact iff_of_true (hp.send rfl rfl rfl rfl rfl rfl) trivial
  | serve i ok => exact synced_serve hp h
  | deliver i => exact synced_deliver hp h

/-- A run stays in sync exactly when its steps are current. -/
theorem always_synced_iff (server : List Session) (as : List Act) :
    Runs.Always step Synced (mount server) as ↔ Runs.Along step Current (mount server) as :=
  Runs.always_iff_along (K := fun _ => True) (fun _ _ _ _ _ _ => trivial)
    (fun _ _ _ _ hp h => synced_step hp h) trivial (synced_load _ _)

/-- In every run whose steps are current, the page has converged in every state. -/
theorem converged_of_current (server : List Session) (as : List Act)
    (h : Runs.Along step Current (mount server) as) :
    Runs.Always step Converged (mount server) as :=
  ((always_synced_iff server as).2 h).mono fun _ => Synced.converged

/-! ## One request at a time -/

/-- A step that sends a request only when none is in flight. -/
def OneAtATime (p : SessionsPage) : Act → Prop
  | .onNewSession _ | .retry | .handleRevoke _ | .handleSignOutOthers => p.inFlight = []
  | _ => True

/-- At most one request is in flight, and it fits the page : the list its delivery would
show agrees with the server, the alert it loads for is not answered yet, and the session
it may still revoke is not shown but was, in a list that agrees. -/
structure Tidy (p : SessionsPage) : Prop where
  one : p.inFlight.length ≤ 1
  lands : ∀ shown, p.brings 0 = some shown → Agrees p.server (p.unsyncedAfter 0) [] shown
  alert : ∀ id answer, p.inFlight = [.list (.alert id) answer] → id ∈ p.unsynced
  revoke : ∀ id previous, p.inFlight = [.revoke id previous none] →
    Agrees p.server p.unsynced [] previous ∧
      ∀ shown, p.state = .ready shown → ∀ s ∈ shown, s.id ≠ id

theorem Tidy.of_nil {p : SessionsPage} (h : p.inFlight = []) : p.Tidy where
  one := by simp [h]
  lands := by simp [brings, h]
  alert := by simp [h]
  revoke := by simp [h]

theorem Tidy.eq_singleton {p : SessionsPage} (h : p.Tidy) {i : ℕ} {r : SessionRequest}
    (hr : p.inFlight[i]? = some r) : i = 0 ∧ p.inFlight = [r] := by
  have hone := h.one
  match hflight : p.inFlight with
  | [] => simp [hflight] at hr
  | [q] =>
    rw [hflight, List.getElem?_eq_some_iff] at hr
    obtain ⟨hi, rfl⟩ := hr
    obtain rfl : i = 0 := by simpa using hi
    exact ⟨rfl, rfl⟩
  | _ :: _ :: _ => simp [hflight] at hone

/-- On a tidy page every step is current. -/
theorem Tidy.current {p : SessionsPage} (h : p.Tidy) (a : Act) : p.Current a := by
  cases a with
  | serve i ok =>
    cases ok with
    | false => trivial
    | true =>
      intro id previous hr _
      exact (h.revoke id previous (h.eq_singleton hr).2).2
  | deliver i =>
    intro shown hbrings _
    obtain ⟨r, hr⟩ : ∃ r, p.inFlight[i]? = some r := by
      cases hr : p.inFlight[i]? with
      | none => simp [brings, hr] at hbrings
      | some r => exact ⟨r, rfl⟩
    obtain ⟨rfl, hflight⟩ := h.eq_singleton hr
    simpa [hflight] using h.lands shown hbrings
  | _ => trivial

theorem tidy_load {cause : LoadCause} {p : SessionsPage} (h : p.inFlight = [])
    (hcause : ∀ id, cause = .alert id → id ∈ p.unsynced) : (p.load cause).Tidy where
  one := by simp [load, h]
  lands := by simp [load, brings, h]
  alert := by simpa [load, h] using hcause
  revoke := by simp [load, h]

theorem tidy_create {p p' : SessionsPage} {s : Session} (ht : p.Tidy)
    (h : p.create s = some p') : p'.Tidy := by
  obtain ⟨hfresh, rfl⟩ := create_eq_some h
  refine
    { one := ht.one
      lands := fun shown hbrings => ?_
      alert := fun id answer hflight => List.mem_cons_of_mem _ (ht.alert id answer hflight)
      revoke := fun id previous hflight => (ht.revoke id previous hflight).imp_left (·.create s) }
  have hafter : unsyncedAfter
      { p with server := p.server ++ [s], unsynced := s.id :: p.unsynced } 0 =
        s.id :: p.unsyncedAfter 0 := by
    unfold unsyncedAfter
    split
    · next id sessions hr =>
      change p.inFlight[0]? = _ at hr
      have hne : s.id ≠ id := fun hid => hfresh (hid ▸ ht.alert id _ (ht.eq_singleton hr).2)
      simp [hr, hne]
    · rfl
  rw [hafter]
  exact (ht.lands shown hbrings).create s

theorem tidy_serve {p p' : SessionsPage} {i : ℕ} {ok : Bool} (ht : p.Tidy)
    (h : p.serve i ok = some p') : p'.Tidy := by
  unfold serve at h
  split at h
  · next cause hr =>
    obtain ⟨rfl, hflight⟩ := ht.eq_singleton hr
    obtain rfl := Option.some.inj h
    refine { one := by simp [hflight], lands := ?_, alert := ?_, revoke := by simp [hflight] }
    · cases ok with
      | false => simp [brings, hflight]
      | true =>
        intro shown hshown
        obtain rfl : p.server = shown := by simpa [brings, hflight] using hshown
        exact ⟨fun _ hs => hs, fun _ hs => Or.inl hs⟩
    · intro id answer hflight'
      obtain ⟨rfl, -⟩ : cause = .alert id ∧ _ := by simpa [hflight] using hflight'
      exact ht.alert id none hflight
  · next id previous hr =>
    obtain ⟨rfl, hflight⟩ := ht.eq_singleton hr
    obtain rfl := Option.some.inj h
    refine
      { one := by simp [hflight], lands := ?_, alert := by simp [hflight],
        revoke := by simp [hflight] }
    cases ok with
    | true => simp [brings, hflight]
    | false =>
      intro shown hshown
      obtain rfl : previous = shown := by simpa [brings, hflight] using hshown
      simpa [unsyncedAfter, hflight] using (ht.revoke id previous hflight).1
  · next hr =>
    obtain ⟨rfl, hflight⟩ := ht.eq_singleton hr
    obtain rfl := Option.some.inj h
    exact
      { one := by simp [hflight], lands := by simp [brings, hflight],
        alert := by simp [hflight], revoke := by simp [hflight] }
  · simp at h

theorem tidy_deliver {p p' : SessionsPage} {i : ℕ} (ht : p.Tidy)
    (h : p.deliver i = some p') : p'.Tidy := by
  have hnil : ∀ {r}, p.inFlight[i]? = some r → p.inFlight.eraseIdx i = [] := by
    intro r hr
    obtain ⟨rfl, hflight⟩ := ht.eq_singleton hr
    simp [hflight]
  unfold deliver at h
  split at h
  · next cause answer hr =>
    obtain rfl := Option.some.inj h
    refine Tidy.of_nil ?_
    cases cause <;> cases answer <;> exact hnil hr
  · next id previous ok hr =>
    obtain rfl := Option.some.inj h
    refine Tidy.of_nil ?_
    cases ok <;> exact hnil hr
  · next ok hr =>
    obtain rfl := Option.some.inj h
    cases ok with
    | false => exact Tidy.of_nil (hnil hr)
    | true => exact tidy_load (hnil hr) (by simp)
  · simp at h

/-- A step that sends no second request keeps the page tidy. -/
theorem tidy_step {p p' : SessionsPage} {a : Act} (hp : p.Synced) (ht : p.Tidy)
    (ha : p.OneAtATime a) (h : p.step a = some p') : p'.Tidy := by
  cases a with
  | create s => exact tidy_create ht h
  | onNewSession id =>
    obtain ⟨hid, rfl⟩ := onNewSession_eq_some h
    refine tidy_load ha fun id' hcause => ?_
    rwa [← LoadCause.alert.inj hcause]
  | retry =>
    obtain rfl := retry_eq_some h
    exact tidy_load ha (by simp)
  | handleRevoke id =>
    obtain ⟨previous, hprevious, rfl⟩ := handleRevoke_eq_some h
    have hflight : p.inFlight = [] := ha
    have hagrees : Agrees p.server p.unsynced [] previous := by
      simpa [hflight] using hp (by simp [SignedOut, hflight]) previous hprevious
    refine
      { one := by simp [hflight], lands := by simp [brings, hflight],
        alert := by simp [hflight], revoke := fun id' previous' hr => ?_ }
    obtain ⟨rfl, rfl⟩ : id = id' ∧ previous = previous' := by simpa [hflight] using hr
    refine ⟨hagrees, fun shown hshown s hs => ?_⟩
    obtain rfl := LoadState.ready.inj hshown
    simpa using (List.mem_filter.1 hs).2
  | setConfirming isOpen =>
    obtain ⟨confirming, rfl⟩ := setConfirming_eq_some h
    exact { ht with }
  | handleSignOutOthers =>
    obtain rfl := handleSignOutOthers_eq_some h
    have hflight : p.inFlight = [] := ha
    exact
      { one := by simp [hflight], lands := by simp [brings, hflight],
        alert := by simp [hflight], revoke := by simp [hflight] }
  | serve i ok => exact tidy_serve ht h
  | deliver i => exact tidy_deliver ht h

/-- In every run that sends its requests one at a time, the page has converged in every
state. -/
theorem converged_of_oneAtATime (server : List Session) (as : List Act)
    (h : Runs.Along step OneAtATime (mount server) as) :
    Runs.Always step Converged (mount server) as := by
  have hcurrent : Runs.Along step Current (mount server) as :=
    h.mono_of_invariant (I := fun p => p.Synced ∧ p.Tidy)
      (fun p a p' hi ha hstep => ⟨hi.2.current a, (synced_step hi.1 hstep).2 (hi.2.current a),
        tidy_step hi.1 hi.2 ha hstep⟩)
      ⟨synced_load _ _, tidy_load rfl (by simp)⟩
  exact ((always_synced_iff server as).2 hcurrent).mono fun _ => Synced.converged

/-! ## Two revokes that overlap -/

/-- A session by its id. -/
def device (id : String) (isCurrent : Bool) : Session :=
  { id := id, device := "Chrome on macOS", ip := "192.0.2.1",
    lastActivity := "2026-01-01T00:00:00.000Z", isCurrent := isCurrent }

/-- This device and two others. -/
def devices : List Session := [device "this" true, device "a" false, device "b" false]

/-- Two sessions are revoked : the first revoke succeeds, then the second fails and puts
back the list without the first. -/
def revokedInOrder : List Act :=
  [.serve 0 true, .deliver 0, .handleRevoke "a", .handleRevoke "b", .serve 0 true, .deliver 0,
    .serve 0 false, .deliver 0]

theorem converged_of_current_revokedInOrder :
    Runs.Always step Converged (mount devices) revokedInOrder := by
  refine converged_of_current devices revokedInOrder ?_
  refine .cons rfl (fun _ _ hr => nomatch hr) <| .cons rfl (fun shown hshown _ => ?_) <|
    .cons rfl trivial <| .cons rfl trivial <| .cons rfl (fun id previous hr _ shown hshown => ?_) <|
    .cons rfl (fun shown hshown => nomatch hshown) <| .cons rfl trivial <|
    .cons rfl (fun shown hshown _ => ?_) trivial
  · obtain rfl := Option.some.inj hshown
    exact ⟨fun _ hs => hs, fun _ hs => Or.inl hs⟩
  · obtain ⟨rfl, -, -⟩ := SessionRequest.revoke.inj (Option.some.inj hr)
    obtain rfl := LoadState.ready.inj hshown
    decide
  · obtain rfl := Option.some.inj hshown
    exact ⟨by decide, fun s hs => Or.inl (by revert s; decide)⟩

/-- Two sessions are revoked : the second revoke succeeds, then the first fails and puts
the whole list back. -/
def rolledBack : List Act :=
  [.serve 0 true, .deliver 0, .handleRevoke "a", .handleRevoke "b", .serve 1 true, .deliver 1,
    .serve 0 false, .deliver 0]

theorem not_converged_rolledBack :
    ¬ Runs.Always step Converged (mount devices) rolledBack := by
  intro h
  have hend := Runs.always_iff.1 h rolledBack _ (List.prefix_refl _) rfl rfl rfl _ rfl
  exact absurd ((hend (device "b" false)).1 (by decide)) (by decide)

end SessionsPage

end AuthExample
