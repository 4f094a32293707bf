import AuthExample.JsonText
import AuthExample.NewSessionAlerts
import AuthExample.Realtime
import AuthExample.Tickets
import AuthExample.UrlEncoded

/-!
# Alerts, end to end

A page of a signed-in user runs the hook `useNewSessionAlerts`. Its tickets are minted for that
user (`OwnTickets`) in a ticket store of the engine's; a socket reaches the server with its ticket
in the URL, the ticket is redeemed into the claims the socket runs under, and the socket subscribes
to what the audit hooks broadcast. Frames arrive in the order they were sent.

`alerts_sound` : over any run, whoever else mints and redeems tickets, however often the page
renders again and whatever is overwritten, the alerts are of the user's own new sessions, in the
order the hooks were called and each at most once. `alerts_complete` : a socket of which nothing
was overwritten has alerted of them all once it has nothing left to deliver.
-/

namespace AuthExample

open Runs

/-! ## The request of a socket -/

/-- The snapshot a ticket redeems into. -/
structure DashboardClaims where
  sub : String
  tenantId : String
  deriving DecidableEq

/-- `Query<TicketQuery>` on the URL of an upgrade. -/
def ticketOf (lossy : List UInt8 → String) (url : String) : Option String :=
  (Scan.splitOnce ['?'] url.toList).bind fun parts =>
    (UrlEncoded.lookupOnce "ticket" (UrlEncoded.parse lossy parts.2)).join

/-- What a browser does as its standards say : `JSON.parse`, `encodeURIComponent` of a string,
and no `?` in the host of a parsed URL. -/
structure WebApp.Standard (N : Json.Numbers) (w : WebApp) : Prop where
  parse : ∀ data, w.parse data = Json.parse N data
  encode : ∀ t, w.encodeURIComponent (some (.str t)) =
    some (String.ofList (UrlEncoded.encodeComponent t))
  host : ∀ s u, w.parseUrl s = some u → '?' ∉ u.host.toList

namespace Url

/-- An origin of a special scheme has a `?` only in its host. -/
theorem no_query_tupleOrigin {u : Url} (hs : u.scheme ∈ special) (hh : '?' ∉ u.host.toList) :
    '?' ∉ u.tupleOrigin.toList := by
  have hscheme : '?' ∉ u.scheme.toList := by
    have hall : ∀ scheme ∈ special, '?' ∉ scheme.toList := by decide
    exact hall _ hs
  have hcolon : '?' ∉ "://".toList := by decide
  simp only [tupleOrigin, String.toList_append, List.mem_append, not_or]
  refine ⟨⟨⟨hscheme, hcolon⟩, hh⟩, ?_⟩
  cases u.port with
  | none => decide
  | some port =>
    have hdigits : (toString port).toList = Nat.toDigits 10 port := Nat.toList_repr
    simp only [String.toList_append, List.mem_append, not_or, hdigits]
    refine ⟨by decide, fun hmem => ?_⟩
    exact absurd (Nat.isDigit_of_mem_toDigits (by decide) (by decide) hmem) (by decide)

theorem no_query_origin {parseUrl : String → Option Url} {scheme : String} {u : Url}
    (hparse : ∀ s v, parseUrl s = some v → '?' ∉ v.host.toList) (hh : '?' ∉ u.host.toList) :
    '?' ∉ ((u.setProtocol scheme).origin parseUrl).toList := by
  have hhost : (u.setProtocol scheme).host = u.host := by
    unfold setProtocol
    split_ifs <;> rfl
  unfold origin
  split_ifs with hblob hspecial
  · cases hv : parseUrl (u.setProtocol scheme).path with
    | none => decide
    | some v =>
      simp only
      split_ifs with hhttp
      · refine no_query_tupleOrigin ?_ (hparse _ v hv)
        rcases hhttp with hhttp | hhttp <;> rw [hhttp] <;> decide
      · decide
  · exact no_query_tupleOrigin hspecial.1 (hhost ▸ hh)
  · decide

end Url

variable {N : Json.Numbers} {w : WebApp}

/-- The origin a socket's URL starts with has no `?`. -/
theorem buildWsUrl_eq_some (hw : w.Standard N) {t url : String}
    (h : buildWsUrl w (some (.str t)) = some url) :
    ∃ origin : String, '?' ∉ origin.toList ∧ url = origin ++ "/ws/example?ticket=" ++
      String.ofList (UrlEncoded.encodeComponent t) := by
  simp only [buildWsUrl, hw.encode, Option.bind_eq_bind, Option.bind_some, Option.pure_def] at h
  obtain rfl := Option.some.inj h
  cases hu : w.parseUrl (w.apiUrl.getD "") with
  | none => exact ⟨"", by decide, rfl⟩
  | some u => exact ⟨_, Url.no_query_origin hw.host (hw.host _ u hu), rfl⟩

/-- The server reads the ticket the URL was built for. -/
theorem ticketOf_buildWsUrl (lossy : List UInt8 → String) (hw : w.Standard N) {t url : String}
    (h : buildWsUrl w (some (.str t)) = some url) : ticketOf lossy url = some t := by
  obtain ⟨origin, horigin, rfl⟩ := buildWsUrl_eq_some hw h
  have hurl : (origin ++ "/ws/example?ticket=" ++
      String.ofList (UrlEncoded.encodeComponent t)).toList =
        (origin.toList ++ "/ws/example".toList) ++
          (['?'] ++ ("ticket".toList ++ '=' :: UrlEncoded.encodeComponent t)) := by
    simp
  have hpath : '?' ∉ origin.toList ++ "/ws/example".toList := by
    rw [List.mem_append, not_or]
    exact ⟨horigin, by decide⟩
  have hname : UrlEncoded.Encodes "ticket".toList "ticket" :=
    UrlEncoded.encodes_encode UrlEncoded.plain_componentKeep "ticket"
  have hvalue : UrlEncoded.Encodes (UrlEncoded.encodeComponent t) t :=
    UrlEncoded.encodes_encode UrlEncoded.plain_componentKeep t
  have hparse : UrlEncoded.parse lossy ("ticket".toList ++ '=' :: UrlEncoded.encodeComponent t) =
      [("ticket", t)] := by
    have hpart : List.Forall₂ (fun q p => UrlEncoded.Encodes q.1 p.1 ∧ UrlEncoded.Encodes q.2 p.2)
        [("ticket".toList, UrlEncoded.encodeComponent t)] [("ticket", t)] :=
      .cons ⟨hname, hvalue⟩ .nil
    have hjoined := UrlEncoded.parse_joined lossy hpart
    rwa [List.map_singleton, List.intercalate_singleton] at hjoined
  rw [ticketOf, hurl, Scan.splitOnce_append _ hpath]
  rw [Option.bind_some, hparse]
  rfl

/-- The frame of a session alerts of its address. -/
theorem handleMessage_sessionFrame (hw : w.Standard N) (ip : String) :
    handleMessage w (sessionFrame ip) = some (.str ip) := by
  have htext : sessionFrame ip = String.ofList (Json.text N
      (.obj [("event", .str "on_new_session"), ("ip", .str ip)])) := by
    have hevent : (Json.quote "event").toList = "\"event\"".toList := by decide
    have hname : (Json.quote "on_new_session").toList = "\"on_new_session\"".toList := by decide
    have hip : (Json.quote "ip").toList = "\"ip\"".toList := by decide
    rw [← String.toList_inj, String.toList_ofList]
    unfold sessionFrame
    simp [Json.text, Json.textFields, hevent, hname, hip]
  have hparse : w.parse (sessionFrame ip) =
      some (.obj [("event", .str "on_new_session"), ("ip", .str ip)]) := by
    rw [hw.parse, htext]
    refine Json.parse_text N (.obj _ (by simp) ?_)
    simp only [List.forall_mem_cons]
    exact ⟨.str _, .str _, by simp⟩
  rw [handleMessage_eq_some]
  exact ⟨_, hparse, rfl, rfl⟩

/-! ## The system -/

/-- An upgraded socket : its claims, its forwarding loop, the number of events broadcast before
it subscribed, and the number of frames the browser has received of it. -/
structure Upgraded where
  claims : DashboardClaims
  server : Forwarder
  since : ℕ
  delivered : ℕ

/-- An event reaches a subscribed loop. -/
def Upgraded.publish (e : SessionEvent) (u : Upgraded) : Upgraded :=
  { u with server :=
      (u.server.step u.claims.sub u.claims.tenantId (.publish e)).getD u.server }

/-- The browser receives one more frame. -/
def Upgraded.deliver (u : Upgraded) : Upgraded := { u with delivered := u.delivered + 1 }

namespace Upgraded

/-- The events the browser has had the frames of. -/
def alerted (u : Upgraded) : List SessionEvent :=
  (targeted u.claims.sub u.claims.tenantId u.server.received).take u.delivered

/-- What holds of a socket upgraded for `claims` after the events `frames`. -/
structure Ok (claims : DashboardClaims) (frames : List SessionEvent) (u : Upgraded) : Prop where
  claims_eq : u.claims = claims
  forwarder : Forwarder.Inv u.claims.sub u.claims.tenantId u.server
  isOpen : u.server.events.isOpen = true
  since_le : u.since ≤ frames.length
  published : u.server.published = frames.drop u.since
  delivered_le : u.delivered ≤ u.server.sent.length

variable {claims : DashboardClaims} {frames : List SessionEvent} {u : Upgraded}

theorem Ok.start (claims : DashboardClaims) (frames : List SessionEvent) :
    Ok claims frames ⟨claims, .start, frames.length, 0⟩ where
  claims_eq := rfl
  forwarder := .start
  isOpen := rfl
  since_le := le_refl _
  published := by simp [Forwarder.start]
  delivered_le := le_refl _

/-- The frames sent are of events received. -/
theorem Ok.sent_le (h : u.Ok claims frames) : u.server.sent.length ≤
    (targeted u.claims.sub u.claims.tenantId u.server.received).length := by
  have hlen := congrArg List.length h.forwarder.frames
  rw [List.length_map, List.length_append] at hlen
  omega

/-- An event reaches an open receiver. -/
theorem publish_eq (h : u.server.events.isOpen = true) (e : SessionEvent) :
    u.publish e = { u with server := { u.server with
      events := { u.server.events with unread := u.server.events.unread ++ [e] }
      published := u.server.published ++ [e] } } := by
  simp only [Upgraded.publish, Forwarder.step, Broadcast.Receiver.publish, h, if_true,
    Option.map_some, Option.getD_some]

/-- An event leaves what was received and delivered as it was. -/
theorem Ok.publish (h : u.Ok claims frames) (e : SessionEvent) :
    (u.publish e).Ok claims (frames ++ [e]) ∧ (u.publish e).alerted = u.alerted ∧
      (u.publish e).since = u.since := by
  have hstep : u.server.step u.claims.sub u.claims.tenantId (.publish e) =
      some (u.publish e).server := by
    simp only [publish_eq h.isOpen, Forwarder.step, Broadcast.Receiver.publish, h.isOpen, if_true,
      Option.map_some]
  have hinv := Forwarder.step_inv h.forwarder hstep
  rw [publish_eq h.isOpen] at hinv ⊢
  refine ⟨⟨h.claims_eq, hinv, h.isOpen, ?_, ?_, h.delivered_le⟩, rfl, rfl⟩
  · exact h.since_le.trans (by simp)
  · rw [List.drop_append_of_le_length h.since_le, ← h.published]

theorem Ok.foldl_publish (h : u.Ok claims frames) (events : List SessionEvent) :
    (events.foldl (fun u e => u.publish e) u).Ok claims (frames ++ events) ∧
      (events.foldl (fun u e => u.publish e) u).alerted = u.alerted ∧
      (events.foldl (fun u e => u.publish e) u).since = u.since := by
  induction events generalizing u frames with
  | nil => exact ⟨by rwa [List.append_nil], rfl, rfl⟩
  | cons e events ih =>
    obtain ⟨hok, halerted, hsince⟩ := h.publish e
    obtain ⟨hok', halerted', hsince'⟩ := ih hok
    refine ⟨?_, halerted'.trans halerted, hsince'.trans hsince⟩
    rwa [List.append_cons]

/-- Events reach a loop that has received all before them. -/
theorem Ok.foldl_publish_received (h : u.Ok claims frames)
    (hu : u.server.received ++ u.server.events.unread = u.server.published)
    (events : List SessionEvent) :
    let u' := events.foldl (fun u e => u.publish e) u
    u'.server.received ++ u'.server.events.unread = u'.server.published := by
  induction events generalizing u frames with
  | nil => exact hu
  | cons e events ih =>
    have hnext : (u.publish e).server.received ++ (u.publish e).server.events.unread =
        (u.publish e).server.published := by
      rw [publish_eq h.isOpen, ← hu, List.append_assoc]
    exact ih (h.publish e).1 hnext

/-- Neither a receive nor what is overwritten closes the channel. -/
theorem isOpen_recv {r r' : Broadcast.Receiver SessionEvent}
    {out : Except Broadcast.RecvError SessionEvent} (h : r.recv = some (out, r')) :
    r'.isOpen = r.isOpen := by
  rw [Broadcast.Receiver.recv.eq_def] at h
  split at h
  · cases h
    rfl
  · split at h
    · cases h
      rfl
    · split at h
      · cases h
      · cases h
        rfl

/-- A step of the loop itself : nothing is published, and what it receives and sends comes after
what it had. -/
theorem step_own {sub tenant : String} {f f' : Forwarder} {a : ForwardAct}
    (h : f.step sub tenant a = some f') (hpublish : ∀ e, a ≠ .publish e)
    (hdrop : a ≠ .dropSenders) : f'.published = f.published ∧
      f'.events.isOpen = f.events.isOpen ∧ f.received <+: f'.received ∧ f.sent <+: f'.sent := by
  cases a with
  | publish event => exact absurd rfl (hpublish event)
  | dropSenders => exact absurd rfl hdrop
  | overwrite k =>
    obtain ⟨r, hr, rfl⟩ := Option.map_eq_some_iff.1 h
    obtain rfl := Broadcast.Receiver.overwrite_eq_some hr
    exact ⟨rfl, rfl, List.prefix_refl _, List.prefix_refl _⟩
  | arrive message =>
    obtain rfl := Option.some.inj h
    exact ⟨rfl, rfl, List.prefix_refl _, List.prefix_refl _⟩
  | recv =>
    obtain ⟨out, events, -, hr, rfl⟩ := Forwarder.recv_eq_some h
    exact ⟨rfl, isOpen_recv hr, List.prefix_append _ _, List.prefix_refl _⟩
  | readInbound =>
    obtain ⟨message, inbound, -, -, rfl⟩ := Forwarder.readInbound_eq_some h
    exact ⟨rfl, rfl, List.prefix_refl _, List.prefix_refl _⟩
  | sendDone ok =>
    obtain ⟨frame, -, rfl⟩ := Forwarder.sendDone_eq_some h
    cases ok
    · exact ⟨rfl, rfl, List.prefix_refl _, List.prefix_refl _⟩
    · exact ⟨rfl, rfl, List.prefix_refl _, List.prefix_append _ _⟩

/-- A step of the loop itself other than an overwrite : what it receives was unread. -/
theorem received_own {sub tenant : String} {f f' : Forwarder} {a : ForwardAct}
    (h : f.step sub tenant a = some f') (hpublish : ∀ e, a ≠ .publish e)
    (hoverwrite : ∀ n, a ≠ .overwrite n) :
    f'.received ++ f'.events.unread = f.received ++ f.events.unread ∧
      f'.published = f.published := by
  cases a with
  | publish event => exact absurd rfl (hpublish event)
  | overwrite k => exact absurd rfl (hoverwrite k)
  | dropSenders | arrive message =>
    obtain rfl := Option.some.inj h
    exact ⟨rfl, rfl⟩
  | recv =>
    obtain ⟨out, events, -, hr, rfl⟩ := Forwarder.recv_eq_some h
    exact ⟨by rw [Broadcast.Receiver.recv_unread hr, List.append_assoc], rfl⟩
  | readInbound =>
    obtain ⟨message, inbound, -, -, rfl⟩ := Forwarder.readInbound_eq_some h
    exact ⟨rfl, rfl⟩
  | sendDone ok =>
    obtain ⟨frame, -, rfl⟩ := Forwarder.sendDone_eq_some h
    cases ok <;> exact ⟨rfl, rfl⟩

/-- A step of the loop leaves what was delivered as it was. -/
theorem Ok.forward {server : Forwarder} {a : ForwardAct} (h : u.Ok claims frames)
    (hstep : u.server.step u.claims.sub u.claims.tenantId a = some server)
    (hpublish : ∀ e, a ≠ .publish e) (hdrop : a ≠ .dropSenders) :
    ({ u with server } : Upgraded).Ok claims frames ∧
      ({ u with server } : Upgraded).alerted = u.alerted := by
  obtain ⟨hpublished, hopen, ⟨more, hmore⟩, hsent⟩ := step_own hstep hpublish hdrop
  refine ⟨⟨h.claims_eq, Forwarder.step_inv h.forwarder hstep, hopen.trans h.isOpen, h.since_le,
    hpublished.trans h.published, h.delivered_le.trans hsent.length_le⟩, ?_⟩
  show (targeted _ _ server.received).take u.delivered = u.alerted
  rw [← hmore, targeted_append,
    List.take_append_of_le_length (h.delivered_le.trans h.sent_le), alerted]

/-- The next frame is of the next event received. -/
theorem Ok.deliver {frame : String} (h : u.Ok claims frames)
    (hframe : u.server.sent[u.delivered]? = some frame) :
    u.deliver.Ok claims frames ∧
      ∃ e, frame = sessionFrame e.ip ∧ u.deliver.alerted = u.alerted ++ [e] := by
  have hlt := (List.getElem?_eq_some_iff.1 hframe).1
  refine ⟨⟨h.claims_eq, h.forwarder, h.isOpen, h.since_le, h.published, hlt⟩, ?_⟩
  have hfull := congrArg (·[u.delivered]?) h.forwarder.frames
  simp only [List.getElem?_map, List.getElem?_append_left hlt, hframe] at hfull
  obtain ⟨e, he, rfl⟩ := Option.map_eq_some_iff.1 hfull
  exact ⟨e, rfl, by simp only [alerted, Upgraded.deliver, List.take_add_one, he,
    Option.toList_some]⟩

/-- What was alerted of was broadcast since the socket subscribed, and targets its claims. -/
theorem Ok.alerted_sublist (h : u.Ok claims frames) :
    u.alerted.Sublist (frames.drop u.since) ∧
      ∀ e ∈ u.alerted, e.sub = claims.sub ∧ e.tenant = claims.tenantId := by
  constructor
  · rw [← h.published]
    refine ((List.take_sublist _ _).trans List.filter_sublist).trans ?_
    exact (List.sublist_append_left _ _).trans h.forwarder.accounts.sublist
  · intro e he
    have hmem := List.mem_of_mem_take he
    rw [targeted, List.mem_filter, h.claims_eq] at hmem
    exact of_decide_eq_true hmem.2

end Upgraded

/-- One page of a user's session and the server. `tickets` is the state of the ticket store and
`issued` every ticket it has minted, each with the claims it is for; `upgraded` is the server's side
of the page's sockets. -/
structure LiveAlerts (C S : Type*) where
  claims : DashboardClaims
  page : NewSessionAlerts C
  sink : Sink
  tickets : S
  issued : List (String × DashboardClaims)
  upgraded : ℕ → Option Upgraded

namespace LiveAlerts

variable {C S E ε : Type*}

/-- No component mounted, no ticket minted and no hook called yet. -/
def start (store : Tickets.Store S E DashboardClaims) (claims : DashboardClaims) :
    LiveAlerts C S where
  claims := claims
  page := .start
  sink := ⟨[], []⟩
  tickets := store.start
  issued := []
  upgraded _ := none

/-- What happens : the component renders; a ticket is minted, of this page or not, or is redeemed
elsewhere; a mint the hook awaits settles (`none` where it rejects); a socket's request reaches the
server; a hook is called; a forwarding loop or its surroundings take a step; the browser receives
the next frame of a socket. -/
inductive Act (C E ε : Type*) where
  | mount (onAlert : C)
  | rerender (onAlert : C)
  | unmount
  | issue (e : E) (claims : DashboardClaims)
  | redeem (e : E) (ticket : String)
  | mint (run : ℕ) (settled : Option Json)
  | upgrade (socket : ℕ) (e : E)
  | hook (call : HookCall) (insert : Except ε Unit)
  | forward (socket : ℕ) (a : ForwardAct)
  | deliver (socket : ℕ)

/-- `issue_ws_ticket`. -/
def issueTicket (store : Tickets.Store S E DashboardClaims) (e : E) (claims : DashboardClaims)
    (s : LiveAlerts C S) : LiveAlerts C S :=
  { s with
    tickets := (store.issue e claims s.tickets).2
    issued := s.issued ++ store.issued e claims s.tickets }

/-- What a call of `redeem_ws_ticket` leaves. -/
def redeemTicket (store : Tickets.Store S E DashboardClaims) (e : E) (ticket : String)
    (s : LiveAlerts C S) : LiveAlerts C S :=
  { s with tickets := (store.redeem e ticket s.tickets).2 }

/-- The socket is upgraded : it subscribes. -/
def upgrade (i : ℕ) (claims : DashboardClaims) (s : LiveAlerts C S) : LiveAlerts C S :=
  { s with upgraded := Function.update s.upgraded i (some
      { claims, server := .start, since := s.sink.frames.length, delivered := 0 }) }

/-- `realtime` : the ticket of the request is redeemed. A request without one, or whose ticket is
refused, is not upgraded. -/
def realtime (store : Tickets.Store S E DashboardClaims) (lossy : List UInt8 → String) (i : ℕ)
    (e : E) (s : LiveAlerts C S) : Option (LiveAlerts C S) :=
  match s.upgraded i, s.page.sockets[i]? with
  | none, some k =>
    (ticketOf lossy k.url).map fun ticket =>
      match (store.redeem e ticket s.tickets).1 with
      | some claims => (s.redeemTicket store e ticket).upgrade i claims
      | none => s.redeemTicket store e ticket
  | _, _ => none

/-- A hook is called. What it broadcasts reaches every subscribed loop. -/
def callHook (hooks : AuditAuthHooks) (call : HookCall) (insert : Except ε Unit)
    (s : LiveAlerts C S) : LiveAlerts C S :=
  let sink := (call.invoke hooks insert s.sink).2
  let events := sink.frames.drop s.sink.frames.length
  { s with
    sink
    upgraded := fun i => (s.upgraded i).map fun u => events.foldl (fun u e => u.publish e) u }

/-- A loop takes a step of its own. The events are the hooks', and the application keeps a
sender. -/
def forwardStep (i : ℕ) (a : ForwardAct) (s : LiveAlerts C S) : Option (LiveAlerts C S) :=
  match a, s.upgraded i with
  | .publish _, _ | .dropSenders, _ | _, none => none
  | a, some u =>
    (u.server.step u.claims.sub u.claims.tenantId a).map fun server =>
      { s with upgraded := Function.update s.upgraded i (some { u with server }) }

variable [DecidableEq C]

/-- A step of the page alone. -/
def pageStep (w : WebApp) (a : NewSessionAlerts.Act C) (s : LiveAlerts C S) :
    Option (LiveAlerts C S) :=
  (s.page.step w a).map fun page => { s with page }

/-- The browser receives the next frame of a socket. -/
def receive (w : WebApp) (i : ℕ) (s : LiveAlerts C S) : Option (LiveAlerts C S) :=
  (s.upgraded i).bind fun u =>
    u.server.sent[u.delivered]?.bind fun frame =>
      (s.page.step w (.receive i frame)).map fun page =>
        { s with page, upgraded := Function.update s.upgraded i (some u.deliver) }

def step (store : Tickets.Store S E DashboardClaims) (lossy : List UInt8 → String) (w : WebApp)
    (hooks : AuditAuthHooks) (s : LiveAlerts C S) : Act C E ε → Option (LiveAlerts C S)
  | .mount onAlert => s.pageStep w (.mount onAlert)
  | .rerender onAlert => s.pageStep w (.rerender onAlert)
  | .unmount => s.pageStep w .unmount
  | .issue e claims => some (s.issueTicket store e claims)
  | .redeem e ticket => some (s.redeemTicket store e ticket)
  | .mint run settled => s.pageStep w (.mint run settled)
  | .upgrade socket e => s.realtime store lossy socket e
  | .hook call insert => some (s.callHook hooks call insert)
  | .forward socket a => s.forwardStep socket a
  | .deliver socket => s.receive w socket

/-- The body that a mint the hook awaits resolves with. -/
def Act.resolved : Act C E ε → Option Json
  | .mint _ settled => settled
  | _ => none

/-- A mint resolves with a ticket that was issued to the page's user. -/
def OwnTickets (s : LiveAlerts C S) (a : Act C E ε) : Prop :=
  ∀ body ∈ a.resolved, ∃ ticket ∈ (body.get? "ticket").bind Json.str?, (ticket, s.claims) ∈ s.issued

instance (s : LiveAlerts C S) (a : Act C E ε) : Decidable (s.OwnTickets a) :=
  inferInstanceAs (Decidable (∀ body ∈ a.resolved,
    ∃ ticket ∈ (body.get? "ticket").bind Json.str?, (ticket, s.claims) ∈ s.issued))

/-! ## The sockets of the page -/

section

variable {p p' : NewSessionAlerts C} {a : NewSessionAlerts.Act C}

omit [DecidableEq C] in
/-- A socket after a cleanup. -/
theorem socket_of_closeSocket {o : Option ℕ} {ks : List WebSocket} {i : ℕ} {k' : WebSocket}
    (h : (NewSessionAlerts.closeSocket o ks)[i]? = some k') :
    ∃ k : WebSocket, ks[i]? = some k ∧ k'.url = k.url ∧
      (k'.closeCalled = false → k.closeCalled = false) := by
  obtain ⟨k, hk, rfl⟩ := NewSessionAlerts.closeSocket_eq_some.1 h
  refine ⟨k, hk, ?_, ?_⟩ <;> split_ifs <;> simp

/-- A socket after a step of the page is one it had, told to close no less, or the one that a
mint has just opened. -/
theorem socket_of_step (h : p.step w a = some p') {i : ℕ} {k' : WebSocket}
    (hk' : p'.sockets[i]? = some k') :
    (∃ k : WebSocket, p.sockets[i]? = some k ∧ k'.url = k.url ∧
      (k'.closeCalled = false → k.closeCalled = false)) ∨
    i = p.sockets.length ∧ ∃ g settled ticket, a = .mint g settled ∧
      mintWsTicket settled = some ticket ∧ buildWsUrl w ticket = some k'.url := by
  cases a with
  | mount onAlert =>
    obtain ⟨-, rfl⟩ := NewSessionAlerts.mount_eq_some h
    exact Or.inl ⟨k', hk', rfl, id⟩
  | rerender onAlert =>
    obtain ⟨m, -, ⟨-, rfl⟩ | ⟨-, rfl⟩⟩ := NewSessionAlerts.rerender_eq_some h
    · exact Or.inl ⟨k', hk', rfl, id⟩
    · exact Or.inl (socket_of_closeSocket hk')
  | unmount =>
    obtain ⟨m, -, rfl⟩ := Option.map_eq_some_iff.1 h
    exact Or.inl (socket_of_closeSocket hk')
  | mint g settled =>
    obtain ⟨r, -, -, rfl⟩ := NewSessionAlerts.mint_eq_some h
    unfold NewSessionAlerts.settle at hk'
    cases hc : NewSessionAlerts.connect w r settled with
    | none =>
      rw [hc] at hk'
      exact Or.inl ⟨k', hk', rfl, id⟩
    | some url =>
      rw [hc] at hk'
      rw [List.getElem?_append] at hk'
      split_ifs at hk' with hlt
      · exact Or.inl ⟨k', hk', rfl, id⟩
      · rw [List.getElem?_singleton] at hk'
        split_ifs at hk' with hz
        obtain rfl := Option.some.inj hk'
        obtain ⟨ticket, hticket, hurl⟩ := Option.bind_eq_some_iff.1 hc
        split_ifs at hurl with hcancelled
        obtain ⟨url', hbuild, hopens⟩ := Option.bind_eq_some_iff.1 hurl
        split_ifs at hopens with ho
        obtain rfl := Option.some.inj hopens
        exact Or.inr ⟨by omega, g, settled, ticket, rfl, hticket, hbuild⟩
  | receive j data =>
    obtain ⟨k, -, -, rfl⟩ := NewSessionAlerts.receive_eq_some h
    exact Or.inl ⟨k', hk', rfl, id⟩

/-- No socket is forgotten. -/
theorem length_sockets_le (hp : p.Inv) (h : p.step w a = some p') :
    p.sockets.length ≤ p'.sockets.length := by
  rcases NewSessionAlerts.created_cases hp h with hlen | ⟨k, r, hsockets, -⟩
  · exact hlen.ge
  · rw [hsockets, List.length_append]
    exact Nat.le_add_right _ _

end

/-! ## Steps -/

section

variable {store : Tickets.Store S E DashboardClaims} {lossy : List UInt8 → String}
  {hooks : AuditAuthHooks} {s s' : LiveAlerts C S}

omit [DecidableEq C] in
theorem realtime_eq_some {i : ℕ} {e : E} (h : s.realtime store lossy i e = some s') :
    ∃ (k : WebSocket) (ticket : String), s.page.sockets[i]? = some k ∧
      ticketOf lossy k.url = some ticket ∧
      ((∃ claims, (store.redeem e ticket s.tickets).1 = some claims ∧
          s' = (s.redeemTicket store e ticket).upgrade i claims) ∨
        s' = s.redeemTicket store e ticket) := by
  unfold realtime at h
  split at h
  · next k hnone hk =>
    obtain ⟨ticket, hticket, rfl⟩ := Option.map_eq_some_iff.1 h
    refine ⟨k, ticket, hk, hticket, ?_⟩
    cases hr : (store.redeem e ticket s.tickets).1 with
    | some claims => exact Or.inl ⟨claims, rfl, rfl⟩
    | none => exact Or.inr rfl
  · cases h

omit [DecidableEq C] in
theorem forwardStep_eq_some {i : ℕ} {b : ForwardAct} (h : s.forwardStep i b = some s') :
    ∃ u server, s.upgraded i = some u ∧ (∀ e, b ≠ .publish e) ∧ b ≠ .dropSenders ∧
      u.server.step u.claims.sub u.claims.tenantId b = some server ∧
      s' = { s with upgraded := Function.update s.upgraded i (some { u with server }) } := by
  unfold forwardStep at h
  split at h
  · cases h
  · cases h
  · cases h
  · next u hpublish hdrop hu =>
    obtain ⟨server, hserver, rfl⟩ := Option.map_eq_some_iff.1 h
    exact ⟨u, server, hu, hpublish, hdrop, hserver, rfl⟩

theorem receive_eq_some {i : ℕ} (h : s.receive w i = some s') :
    ∃ u frame page, s.upgraded i = some u ∧ u.server.sent[u.delivered]? = some frame ∧
      s.page.step w (.receive i frame) = some page ∧
      s' = { s with page, upgraded := Function.update s.upgraded i (some u.deliver) } := by
  obtain ⟨u, hu, h⟩ := Option.bind_eq_some_iff.1 h
  obtain ⟨frame, hframe, h⟩ := Option.bind_eq_some_iff.1 h
  obtain ⟨page, hpage, rfl⟩ := Option.map_eq_some_iff.1 h
  exact ⟨u, frame, page, hu, hframe, hpage, rfl⟩

/-- A step of the page but a frame, or of a ticket. -/
def Act.IsQuiet : Act C E ε → Prop
  | .upgrade _ _ | .hook _ _ | .forward _ _ | .deliver _ => False
  | _ => True

/-- Such a step leaves the rest of the server alone. -/
theorem step_quiet {a : Act C E ε} (hstep : step store lossy w hooks s a = some s')
    (ha : a.IsQuiet) :
    s'.sink = s.sink ∧ s'.claims = s.claims ∧ s'.upgraded = s.upgraded := by
  have hpage : ∀ b, s.pageStep w b = some s' →
      s'.sink = s.sink ∧ s'.claims = s.claims ∧ s'.upgraded = s.upgraded := by
    intro b hb
    obtain ⟨page, -, rfl⟩ := Option.map_eq_some_iff.1 hb
    exact ⟨rfl, rfl, rfl⟩
  cases a with
  | mount | rerender | unmount | mint => exact hpage _ hstep
  | issue | redeem =>
    obtain rfl := Option.some.inj hstep
    exact ⟨rfl, rfl, rfl⟩
  | upgrade | hook | forward | deliver => exact ha.elim

end

/-! ## The invariant -/

/-- The alerts are of some of the user's events among `past`, in their order, and then of the
events `now`. -/
def Alerted (s : LiveAlerts C S) (past now : List SessionEvent) : Prop :=
  ∃ events : List SessionEvent, events.Sublist past ∧
    (∀ e ∈ events, e.sub = s.claims.sub ∧ e.tenant = s.claims.tenantId) ∧
    s.page.calls.map Prod.snd = (events ++ now).map fun e => .str e.ip

/-- The tickets, the sockets of the page and those of the server agree, the alerts are of events
that were broadcast, and an open socket has alerted of what it delivered, after alerts of earlier
events alone. -/
structure Inv (store : Tickets.Store S E DashboardClaims) (lossy : List UInt8 → String)
    (s : LiveAlerts C S) : Prop where
  page : s.page.Inv
  tickets : store.Reached s.tickets s.issued
  own : ∀ (i : ℕ) (k : WebSocket), s.page.sockets[i]? = some k →
    ∃ ticket, ticketOf lossy k.url = some ticket ∧ (ticket, s.claims) ∈ s.issued
  upgraded : ∀ i u, s.upgraded i = some u →
    i < s.page.sockets.length ∧ u.Ok s.claims s.sink.frames
  alerts : s.Alerted s.sink.frames []
  current : ∀ (i : ℕ) (k : WebSocket) u, s.page.sockets[i]? = some k → k.closeCalled = false →
    s.upgraded i = some u → s.Alerted (s.sink.frames.take u.since) u.alerted

variable {store : Tickets.Store S E DashboardClaims} {lossy : List UInt8 → String}
  {s s' : LiveAlerts C S}

omit [DecidableEq C] in
theorem Inv.start (claims : DashboardClaims) :
    Inv store lossy (start store claims : LiveAlerts C S) where
  page := NewSessionAlerts.inv_start
  tickets := .start
  own i k h := by simp [LiveAlerts.start, NewSessionAlerts.start] at h
  upgraded := nofun
  alerts := ⟨[], .slnil, nofun, rfl⟩
  current := nofun

omit [DecidableEq C] in
/-- A ticket is minted. -/
theorem Inv.issueTicket (h : Inv store lossy s) (e : E) (claims : DashboardClaims) :
    Inv store lossy (s.issueTicket store e claims) := by
  refine ⟨h.page, h.tickets.issue e claims, fun i k hk => ?_, h.upgraded, h.alerts, h.current⟩
  obtain ⟨ticket, hticket, hmem⟩ := h.own i k hk
  exact ⟨ticket, hticket, List.mem_append_left _ hmem⟩

omit [DecidableEq C] in
/-- A ticket is redeemed. -/
theorem Inv.redeemTicket (h : Inv store lossy s) (e : E) (ticket : String) :
    Inv store lossy (s.redeemTicket store e ticket) :=
  ⟨h.page, h.tickets.redeem e ticket, h.own, h.upgraded, h.alerts, h.current⟩

/-- An entry of a map one entry of which is set. -/
theorem update_eq_some {f : ℕ → Option Upgraded} {i j : ℕ} {u u' : Upgraded}
    (h : Function.update f i (some u) j = some u') : j = i ∧ u' = u ∨ j ≠ i ∧ f j = some u' := by
  rcases eq_or_ne j i with rfl | hne
  · rw [Function.update_self] at h
    exact Or.inl ⟨rfl, (Option.some.inj h).symm⟩
  · rw [Function.update_of_ne hne] at h
    exact Or.inr ⟨hne, h⟩

omit [DecidableEq C] in
/-- The server's side of a socket changes, and what it has delivered stays what was alerted of. -/
theorem Inv.update (h : Inv store lossy s) {i : ℕ} {u : Upgraded} (hlt : i < s.page.sockets.length)
    (hok : u.Ok s.claims s.sink.frames)
    (hcurrent : ∀ k : WebSocket, s.page.sockets[i]? = some k → k.closeCalled = false →
      s.Alerted (s.sink.frames.take u.since) u.alerted) :
    Inv store lossy { s with upgraded := Function.update s.upgraded i (some u) } := by
  refine ⟨h.page, h.tickets, h.own, fun j u' hu' => ?_, h.alerts,
    fun j k u' hk hopen hu' => ?_⟩
  · rcases update_eq_some hu' with ⟨rfl, rfl⟩ | ⟨-, hu'⟩
    · exact ⟨hlt, hok⟩
    · exact h.upgraded j u' hu'
  · rcases update_eq_some hu' with ⟨rfl, rfl⟩ | ⟨-, hu'⟩
    · exact hcurrent k hk hopen
    · exact h.current j k u' hk hopen hu'

omit [DecidableEq C] in
/-- A socket of the page reaches the server : it runs under the claims of the page's user. -/
theorem Inv.realtime (hstore : store.Documented) (h : Inv store lossy s) {i : ℕ} {e : E}
    (hs : s.realtime store lossy i e = some s') : Inv store lossy s' := by
  obtain ⟨k, ticket, hk, hticket, ⟨claims, hredeem, rfl⟩ | rfl⟩ := realtime_eq_some hs
  · obtain ⟨ticket', hticket', hissued⟩ := h.own i k hk
    obtain rfl := Option.some.inj (hticket.symm.trans hticket')
    obtain rfl := hstore.claims_eq h.tickets hredeem hissued
    refine (h.redeemTicket e ticket).update (List.getElem?_eq_some_iff.1 hk).1 (.start _ _)
      fun _ _ _ => ?_
    obtain ⟨events, hsub, htarget, hcalls⟩ := h.alerts
    exact ⟨events, by simpa [LiveAlerts.redeemTicket] using hsub, htarget, hcalls⟩
  · exact h.redeemTicket e ticket

omit [DecidableEq C] in
/-- The alerts are of events broadcast before, also once more are. -/
theorem Alerted.append {past now : List SessionEvent} (h : s.Alerted past now)
    (more : List SessionEvent) : s.Alerted (past ++ more) now := by
  obtain ⟨events, hsub, htarget, hcalls⟩ := h
  exact ⟨events, hsub.trans (List.sublist_append_left _ _), htarget, hcalls⟩

omit [DecidableEq C] in
/-- A hook is called. -/
theorem Inv.callHook (h : Inv store lossy s) (hooks : AuditAuthHooks) (call : HookCall)
    (insert : Except ε Unit) : Inv store lossy (s.callHook hooks call insert) := by
  set events := if hooks.sessionEvents then call.frame.toList else [] with hevents
  have hframes : (call.invoke hooks insert s.sink).2.frames = s.sink.frames ++ events := by
    rw [HookCall.invoke_eq]
  refine ⟨h.page, h.tickets, h.own, fun i u' hu' => ?_, ?_, fun i k u' hk hopen hu' => ?_⟩
  · obtain ⟨u, hu, rfl⟩ := Option.map_eq_some_iff.1 hu'
    obtain ⟨hlt, hok⟩ := h.upgraded i u hu
    refine ⟨hlt, ?_⟩
    simp only [LiveAlerts.callHook, hframes, List.drop_left]
    exact (hok.foldl_publish events).1
  · simp only [LiveAlerts.callHook, hframes]
    exact h.alerts.append events
  · obtain ⟨u, hu, rfl⟩ := Option.map_eq_some_iff.1 hu'
    obtain ⟨hlt, hok⟩ := h.upgraded i u hu
    obtain ⟨-, halerted, hsince⟩ := hok.foldl_publish events
    simp only [LiveAlerts.callHook, hframes, List.drop_left, halerted, hsince,
      List.take_append_of_le_length hok.since_le]
    exact h.current i k u hk hopen hu

omit [DecidableEq C] in
/-- A loop takes a step of its own. -/
theorem Inv.forwardStep (h : Inv store lossy s) {i : ℕ} {a : ForwardAct}
    (hs : s.forwardStep i a = some s') : Inv store lossy s' := by
  obtain ⟨u, server, hu, hpublish, hdrop, hserver, rfl⟩ := forwardStep_eq_some hs
  obtain ⟨hlt, hok⟩ := h.upgraded i u hu
  obtain ⟨hok', halerted⟩ := hok.forward hserver hpublish hdrop
  refine h.update hlt hok' fun k hk hopen => ?_
  rw [halerted]
  exact h.current i k u hk hopen hu

/-- A step of the page other than a frame. A socket it opens has the ticket of the mint. -/
theorem Inv.pageStep (h : Inv store lossy s) {a : NewSessionAlerts.Act C}
    (ha : ∀ i data, a ≠ .receive i data)
    (hmint : ∀ g settled ticket url, a = .mint g settled → mintWsTicket settled = some ticket →
      buildWsUrl w ticket = some url →
      ∃ t, ticketOf lossy url = some t ∧ (t, s.claims) ∈ s.issued)
    (hs : s.pageStep w a = some s') : Inv store lossy s' := by
  obtain ⟨page, hpage, rfl⟩ := Option.map_eq_some_iff.1 hs
  have hcalls := NewSessionAlerts.calls_eq hpage ha
  have halerted : ∀ past now, s.Alerted past now → { s with page }.Alerted past now :=
    fun past now ⟨events, hsub, htarget, heq⟩ => ⟨events, hsub, htarget, hcalls ▸ heq⟩
  refine ⟨h.page.step hpage, h.tickets, fun i k' hk' => ?_, fun i u hu => ?_,
    halerted _ _ h.alerts, fun i k' u hk' hopen hu => ?_⟩
  · rcases socket_of_step hpage hk' with ⟨k, hk, hurl, -⟩ | ⟨-, g, settled, ticket, rfl, ht, hurl⟩
    · rw [hurl]
      exact h.own i k hk
    · exact hmint g settled ticket k'.url rfl ht hurl
  · obtain ⟨hlt, hok⟩ := h.upgraded i u hu
    exact ⟨hlt.trans_le (length_sockets_le h.page hpage), hok⟩
  · rcases socket_of_step hpage hk' with ⟨k, hk, -, hclose⟩ | ⟨rfl, -⟩
    · exact halerted _ _ (h.current i k u hk (hclose hopen) hu)
    · exact absurd (h.upgraded _ u hu).1 (lt_irrefl _)

/-- The browser receives a frame : of an event that targets the user, after those alerted of. -/
theorem Inv.receive (hw : w.Standard N) (h : Inv store lossy s) {i : ℕ}
    (hs : s.receive w i = some s') : Inv store lossy s' := by
  obtain ⟨u, frame, page, hu, hframe, hpage, rfl⟩ := receive_eq_some hs
  obtain ⟨k, hk, hopen, rfl⟩ := NewSessionAlerts.receive_eq_some hpage
  obtain ⟨hlt, hok⟩ := h.upgraded i u hu
  obtain ⟨hok', e, rfl, hnext⟩ := hok.deliver hframe
  obtain ⟨m, hm, hrun⟩ := h.page.open_mounted hk hopen
  obtain ⟨r, hr, -⟩ := h.page.mounted m hm
  rw [hrun] at hr
  rw [hr, handleMessage_sessionFrame hw]
  obtain ⟨events, hsub, htarget, hcalls⟩ := h.current i k u hk hopen hu
  obtain ⟨hsub', htarget'⟩ := hok'.alerted_sublist
  have hnow : (s.page.calls ++ [(r.onAlert, Json.str e.ip)]).map Prod.snd =
      (events ++ u.deliver.alerted).map fun e => .str e.ip := by
    simp only [hnext, List.map_append, hcalls, List.append_assoc, List.map_cons, List.map_nil]
  refine ⟨⟨h.page.cancelled, h.page.mounted, h.page.minting, h.page.owner, h.page.owned⟩,
    h.tickets, h.own, fun j v hv => ?_, ⟨events ++ u.deliver.alerted, ?_, ?_, ?_⟩,
    fun j l v hl hlopen hv => ?_⟩
  · rcases update_eq_some hv with ⟨rfl, rfl⟩ | ⟨-, hv⟩
    · exact ⟨hlt, hok'⟩
    · exact h.upgraded j v hv
  · rw [← List.take_append_drop u.since s.sink.frames]
    exact hsub.append hsub'
  · intro e he
    rcases List.mem_append.1 he with he | he
    · exact htarget e he
    · exact htarget' e he
  · rw [List.append_nil]
    exact hnow
  · rcases update_eq_some hv with ⟨rfl, rfl⟩ | ⟨hne, -⟩
    · exact ⟨events, hsub, htarget, hnow⟩
    · obtain ⟨m', hm', hrun'⟩ := h.page.open_mounted hl hlopen
      obtain rfl := Option.some.inj (hm.symm.trans hm')
      exact absurd (h.page.oneSocket hl hk (hrun'.symm.trans hrun)) hne

theorem Inv.step (hstore : store.Documented) (hw : w.Standard N) (h : Inv store lossy s)
    {hooks : AuditAuthHooks} {a : Act C E ε} (hown : s.OwnTickets a)
    (hstep : step store lossy w hooks s a = some s') : Inv store lossy s' := by
  cases a with
  | mount | rerender | unmount =>
    exact h.pageStep (fun _ _ ha => by cases ha) (fun _ _ _ _ ha => by cases ha) hstep
  | issue e claims =>
    obtain rfl := Option.some.inj hstep
    exact h.issueTicket e claims
  | redeem e ticket =>
    obtain rfl := Option.some.inj hstep
    exact h.redeemTicket e ticket
  | mint run settled =>
    refine h.pageStep (fun _ _ ha => by cases ha) (fun g body ticket url ha hmint hurl => ?_) hstep
    obtain ⟨rfl, rfl⟩ := NewSessionAlerts.Act.mint.inj ha
    obtain ⟨body, rfl, hbody⟩ := Option.bind_eq_some_iff.1 hmint
    obtain ⟨t, ht, hissued⟩ := hown body rfl
    obtain ⟨value, hvalue, hstr⟩ := Option.bind_eq_some_iff.1 ht
    obtain rfl := Json.str?_eq_some.1 hstr
    obtain rfl := Json.eq_of_member hvalue hbody
    exact ⟨t, ticketOf_buildWsUrl lossy hw hurl, hissued⟩
  | upgrade socket e => exact h.realtime hstore hstep
  | hook call insert =>
    obtain rfl := Option.some.inj hstep
    exact h.callHook hooks call insert
  | forward socket a => exact h.forwardStep hstep
  | deliver socket => exact h.receive hw hstep

/-! ## Whole runs -/

/-- The sessions the hooks are called with. -/
def sessions (as : List (Act C E ε)) : List SessionEvent :=
  as.filterMap fun
    | .hook call _ => call.frame
    | _ => none

/-- What the hooks broadcast : nothing where no sender is wired. -/
def broadcasts (hooks : AuditAuthHooks) (as : List (Act C E ε)) : List SessionEvent :=
  if hooks.sessionEvents then sessions as else []

omit [DecidableEq C] in
theorem broadcasts_snoc (hooks : AuditAuthHooks) (as : List (Act C E ε)) (a : Act C E ε) :
    broadcasts hooks (as ++ [a]) = broadcasts hooks as ++ broadcasts hooks [a] := by
  unfold broadcasts sessions
  split_ifs <;> simp [List.filterMap_append]

variable {hooks : AuditAuthHooks}

/-- A step broadcasts what its hook does, and the page stays its user's. -/
theorem step_frames {a : Act C E ε} (hstep : step store lossy w hooks s a = some s') :
    s'.sink.frames = s.sink.frames ++ broadcasts hooks [a] ∧ s'.claims = s.claims := by
  have hsame : broadcasts hooks [a] = [] → s'.sink = s.sink ∧ s'.claims = s.claims →
      s'.sink.frames = s.sink.frames ++ broadcasts hooks [a] ∧ s'.claims = s.claims := by
    rintro hnone ⟨hsink, hclaims⟩
    exact ⟨by rw [hsink, hnone, List.append_nil], hclaims⟩
  cases a with
  | hook call insert =>
    obtain rfl := Option.some.inj hstep
    refine ⟨?_, rfl⟩
    simp only [callHook, HookCall.invoke_eq, broadcasts, sessions]
    cases hframe : call.frame <;> simp [hframe]
  | upgrade i e =>
    obtain ⟨k, ticket, -, -, ⟨claims, -, rfl⟩ | rfl⟩ := realtime_eq_some hstep <;>
      exact hsame (ite_self _) ⟨rfl, rfl⟩
  | forward i b =>
    obtain ⟨u, server, -, -, -, -, rfl⟩ := forwardStep_eq_some hstep
    exact hsame (ite_self _) ⟨rfl, rfl⟩
  | deliver i =>
    obtain ⟨u, frame, page, -, -, -, rfl⟩ := receive_eq_some hstep
    exact hsame (ite_self _) ⟨rfl, rfl⟩
  | _ =>
    obtain ⟨hsink, hclaims, -⟩ := step_quiet hstep trivial
    exact hsame (ite_self _) ⟨hsink, hclaims⟩

/-- The loop of the socket has received all that was broadcast to it, but for what it can still
receive. -/
def Lossless (i : ℕ) (s : LiveAlerts C S) : Prop :=
  ∀ u, s.upgraded i = some u → u.server.received ++ u.server.events.unread = u.server.published

/-- A step other than an overwrite. -/
theorem Lossless.step {i : ℕ} {a : Act C E ε} (hi : Lossless i s) (h : Inv store lossy s)
    (ha : ∀ n, a ≠ .forward i (.overwrite n)) (hstep : step store lossy w hooks s a = some s') :
    Lossless i s' := by
  cases a with
  | hook call insert =>
    obtain rfl := Option.some.inj hstep
    intro u' hu'
    obtain ⟨u, hu, rfl⟩ := Option.map_eq_some_iff.1 hu'
    exact (h.upgraded i u hu).2.foldl_publish_received (hi u hu) _
  | upgrade j e =>
    obtain ⟨k, ticket, -, -, ⟨claims, -, rfl⟩ | rfl⟩ := realtime_eq_some hstep
    · intro u' hu'
      rcases update_eq_some hu' with ⟨rfl, rfl⟩ | ⟨-, hu⟩
      · rfl
      · exact hi u' hu
    · exact hi
  | forward j b =>
    obtain ⟨u, server, hu, hpublish, -, hserver, rfl⟩ := forwardStep_eq_some hstep
    intro u' hu'
    rcases update_eq_some hu' with ⟨rfl, rfl⟩ | ⟨-, hu'⟩
    · have hreceived := Upgraded.received_own hserver hpublish fun n hn => ha n (by rw [hn])
      exact hreceived.1.trans ((hi u hu).trans hreceived.2.symm)
    · exact hi u' hu'
  | deliver j =>
    obtain ⟨u, frame, page, hu, -, -, rfl⟩ := receive_eq_some hstep
    intro u' hu'
    rcases update_eq_some hu' with ⟨rfl, rfl⟩ | ⟨-, hu'⟩
    · exact hi u hu
    · exact hi u' hu'
  | _ =>
    obtain ⟨-, -, hupgraded⟩ := step_quiet hstep trivial
    intro u hu
    exact hi u (hupgraded ▸ hu)

/-- What holds after every run of a page of `claims` whose mints are its user's. -/
theorem run_inv (hstore : store.Documented) (hw : w.Standard N) {claims : DashboardClaims}
    {as : List (Act C E ε)}
    (hown : Along (step store lossy w hooks) OwnTickets (start store claims) as)
    (h : run (step store lossy w hooks) (start store claims) as = some s) :
    Inv store lossy s ∧ s.sink.frames = broadcasts hooks as ∧ s.claims = claims := by
  refine run_induction_along (P := fun as s => Inv store lossy s ∧
    s.sink.frames = broadcasts hooks as ∧ s.claims = claims)
    ⟨.start claims, (ite_self _).symm, rfl⟩ ?_ hown h
  rintro as s a s' ⟨hi, hframes, hclaims⟩ ha hstep
  obtain ⟨hframes', hclaims'⟩ := step_frames hstep
  exact ⟨hi.step hstore hw ha hstep, by rw [hframes', hframes, broadcasts_snoc],
    hclaims'.trans hclaims⟩

/-- A run that overwrites nothing of a socket receives all that was broadcast to it. -/
theorem run_lossless (hstore : store.Documented) (hw : w.Standard N) {claims : DashboardClaims}
    {as : List (Act C E ε)}
    (hown : Along (step store lossy w hooks) OwnTickets (start store claims) as)
    (h : run (step store lossy w hooks) (start store claims) as = some s) {i : ℕ}
    (has : ∀ n, .forward i (.overwrite n) ∉ as) : Lossless i s := by
  refine (run_induction_along (P := fun as s => Inv store lossy s ∧
    ((∀ n, .forward i (.overwrite n) ∉ as) → Lossless i s)) ⟨.start claims, fun _ => nofun⟩ ?_
    hown h).2 has
  rintro as s a s' ⟨hi, ih⟩ ha hstep
  refine ⟨hi.step hstore hw ha hstep, fun has => ?_⟩
  refine (ih fun n hn => has n (List.mem_append_left _ hn)).step hi (fun n hn => has n ?_) hstep
  rw [← hn]
  exact List.mem_append_right _ List.mem_cons_self

/-- A browser, and the API it is built for. -/
def browser : WebApp where
  parse := Json.parse .integers
  parseUrl url :=
    if url = "https://api.example.test" then some ⟨"https", "api.example.test", none, "/"⟩
    else none
  encodeURIComponent ticket :=
    (ticket.bind Json.str?).map fun t => String.ofList (UrlEncoded.encodeComponent t)
  opens _ := true
  apiUrl := some "https://api.example.test"

theorem standard_browser : browser.Standard .integers where
  parse _ := rfl
  encode _ := rfl
  host s u h := by
    simp only [browser] at h
    split_ifs at h
    obtain rfl := Option.some.inj h
    decide

/-- A session of the user `id`. -/
def newSession (id ip : String) : HookCall :=
  .onNewSession { id, status := "active", tenantId := "acme" }
    { device := "Firefox", ip, sessionHash := "" }
    { userId := some id, email := none, tenantId := some "acme", ip, userAgent := "agent/1.0",
      sanitizedHeaders := [] }

/-- Somebody else and then the user start a session while a socket of the user's is open. -/
def twoSessions : List (Act String String Unit) :=
  [.mount "toast", .issue "t 1" ⟨"user-1", "acme"⟩, .issue "t 2" ⟨"user-2", "acme"⟩,
    .mint 0 (some (.obj [("ticket", .str "t 1")])), .redeem "" "t 2", .upgrade 0 "",
    .hook (newSession "user-2" "203.0.113.9") (.ok ()),
    .hook (newSession "user-1" "203.0.113.7") (.ok ()), .forward 0 .recv, .forward 0 .recv,
    .forward 0 (.sendDone true), .deliver 0]

/-- The steps of the page's user `user-1`, with a ticket store in memory. -/
abbrev stepMemory := step (C := String) (ε := Unit) (Tickets.Memory.store DashboardClaims)
  (fun _ => "") browser { sessionEvents := true }

/-- Its page before it is mounted. -/
abbrev startMemory : LiveAlerts String (Tickets.Memory DashboardClaims) :=
  start (Tickets.Memory.store DashboardClaims) ⟨"user-1", "acme"⟩

theorem ownTickets_twoSessions : Along stepMemory OwnTickets startMemory twoSessions := by
  decide +kernel

theorem run_twoSessions : ∃ s k u, run stepMemory startMemory twoSessions = some s ∧
    s.page.sockets[0]? = some k ∧ s.upgraded 0 = some u ∧
      (k.closeCalled, u.server.phase, u.server.events.unread.length, u.delivered,
        u.server.sent.length, u.since) = (false, .select, 0, 1, 1, 0) := by
  have h : ((run stepMemory startMemory twoSessions).bind fun s => s.page.sockets[0]?.bind fun k =>
        (s.upgraded 0).map fun u => (k.closeCalled, u.server.phase, u.server.events.unread.length,
          u.delivered, u.server.sent.length, u.since)) = some (false, .select, 0, 1, 1, 0) := by
    decide +kernel
  obtain ⟨s, hs, h⟩ := Option.bind_eq_some_iff.1 h
  obtain ⟨k, hk, h⟩ := Option.bind_eq_some_iff.1 h
  obtain ⟨u, hu, h⟩ := Option.map_eq_some_iff.1 h
  exact ⟨s, k, u, hs, hk, hu, h⟩

/-- Over any run with a store that keeps its documentation and mints of the user's own, the alerts
are of the user's own new sessions, each of one call of the hooks and in the order of the calls,
and there are none where no sender is wired. -/
theorem alerts_sound (hstore : store.Documented) (hw : w.Standard N) {claims : DashboardClaims}
    {as : List (Act C E ε)}
    (hown : Along (step store lossy w hooks) OwnTickets (start store claims) as)
    (h : run (step store lossy w hooks) (start store claims) as = some s) :
    ∃ events : List SessionEvent, events.Sublist (broadcasts hooks as) ∧
      (∀ e ∈ events, e.sub = claims.sub ∧ e.tenant = claims.tenantId) ∧
      s.page.calls.map Prod.snd = events.map fun e => .str e.ip := by
  obtain ⟨hi, hframes, rfl⟩ := run_inv hstore hw hown h
  obtain ⟨events, hsub, htarget, hcalls⟩ := hi.alerts
  rw [hframes] at hsub
  rw [List.append_nil] at hcalls
  exact ⟨events, hsub, htarget, hcalls⟩

theorem alerts_sound_twoSessions : ∃ s, ∃ events : List SessionEvent,
    run stepMemory startMemory twoSessions = some s ∧
      events.Sublist [⟨"user-2", "acme", "203.0.113.9"⟩, ⟨"user-1", "acme", "203.0.113.7"⟩] ∧
      (∀ e ∈ events, e.sub = "user-1" ∧ e.tenant = "acme") ∧
      s.page.calls.map Prod.snd = events.map fun e => .str e.ip := by
  obtain ⟨s, k, u, hs, -⟩ := run_twoSessions
  obtain ⟨events, hsub, htarget, hcalls⟩ := alerts_sound Tickets.Memory.documented
    standard_browser ownTickets_twoSessions hs
  exact ⟨s, events, hs, hsub, htarget, hcalls⟩

/-- An open socket of which nothing was overwritten, once its loop waits with nothing to receive
and the browser has had its frames : the page has alerted of every session of the user since the
socket subscribed, in order, after alerts of earlier sessions alone. -/
theorem alerts_complete (hstore : store.Documented) (hw : w.Standard N)
    {claims : DashboardClaims} {as : List (Act C E ε)}
    (hown : Along (step store lossy w hooks) OwnTickets (start store claims) as)
    (h : run (step store lossy w hooks) (start store claims) as = some s) {i : ℕ} {k : WebSocket}
    {u : Upgraded} (hk : s.page.sockets[i]? = some k) (hopen : k.closeCalled = false)
    (hu : s.upgraded i = some u) (has : ∀ n, .forward i (.overwrite n) ∉ as)
    (hwaits : u.server.phase = .select) (hunread : u.server.events.unread = [])
    (hdelivered : u.delivered = u.server.sent.length) :
    ∃ earlier : List SessionEvent, earlier.Sublist ((broadcasts hooks as).take u.since) ∧
      (∀ e ∈ earlier, e.sub = claims.sub ∧ e.tenant = claims.tenantId) ∧
      s.page.calls.map Prod.snd =
        (earlier ++ targeted claims.sub claims.tenantId ((broadcasts hooks as).drop u.since)).map
          fun e => .str e.ip := by
  obtain ⟨hi, hframes, rfl⟩ := run_inv hstore hw hown h
  obtain ⟨-, hok⟩ := hi.upgraded i u hu
  have hreceived : u.server.received = (broadcasts hooks as).drop u.since := by
    have hall := run_lossless hstore hw hown h has u hu
    rw [hunread, List.append_nil] at hall
    rw [hall, hok.published, hframes]
  have halerted : u.alerted = targeted s.claims.sub s.claims.tenantId u.server.received := by
    have hunsent : u.server.phase.unsent = [] := by
      rw [hwaits]
      rfl
    have hlen := congrArg List.length hok.forwarder.frames
    rw [List.length_map, hunsent, List.append_nil] at hlen
    rw [Upgraded.alerted, hdelivered, ← hlen, List.take_length, hok.claims_eq]
  obtain ⟨events, hsub, htarget, hcalls⟩ := hi.current i k u hk hopen hu
  rw [hframes] at hsub
  rw [halerted, hreceived] at hcalls
  exact ⟨events, hsub, htarget, hcalls⟩

theorem alerts_complete_twoSessions : ∃ s, run stepMemory startMemory twoSessions = some s ∧
    s.page.calls.map Prod.snd = [.str "203.0.113.7"] := by
  obtain ⟨s, k, u, hs, hk, hu, h⟩ := run_twoSessions
  simp only [Prod.mk.injEq, List.length_eq_zero_iff] at h
  obtain ⟨hopen, hwaits, hunread, hdelivered, hsent, hsince⟩ := h
  obtain ⟨earlier, hsub, -, hcalls⟩ := alerts_complete Tickets.Memory.documented standard_browser
    ownTickets_twoSessions hs hk hopen hu (fun n => by simp [twoSessions]) hwaits hunread
    (hdelivered.trans hsent.symm)
  rw [hsince, List.take_zero, List.sublist_nil] at hsub
  rw [hsub, hsince] at hcalls
  exact ⟨s, hs, hcalls⟩

end LiveAlerts

end AuthExample
