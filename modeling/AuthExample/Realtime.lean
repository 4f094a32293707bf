import AuthExample.AuditHooks
import AuthExample.Broadcast
import AuthExample.Json
import AuthExample.Runs

/-!
# The realtime socket

`forward_session_events` serves one WebSocket : it waits at once for the next broadcast
session event and for the peer to go away, sends the frame of an event that targets the
socket's subject and tenant, skips what it lagged behind, and stops when the peer is gone,
when a send fails or when every publisher is dropped.

A `Forwarder` is the loop with its receiver and the socket's inbound stream, and the record of
the run : what was published, what the receiver yielded, what was overwritten in it and what was
sent. `forwards_exactly` is the contract over every schedule.
-/

namespace AuthExample

open Broadcast Runs

/-! ## Frames -/

/-- `{ "event": "on_new_session", "ip": … }`, as `serde_json` writes it. -/
def sessionFrame (ip : String) : String :=
  "\x7b\"event\":\"on_new_session\",\"ip\":" ++ Json.quote ip ++ "\x7d"

/-- `frame_for` : the frame of an event that targets the subject and tenant. -/
def frameFor (event : SessionEvent) (sub tenant : String) : Option String :=
  if event.sub ≠ sub ∨ event.tenant ≠ tenant then none else some (sessionFrame event.ip)

theorem frameFor_eq (event : SessionEvent) (sub tenant : String) :
    frameFor event sub tenant =
      if event.sub = sub ∧ event.tenant = tenant then some (sessionFrame event.ip) else none := by
  unfold frameFor
  split_ifs <;> grind

/-- The events that target the socket. -/
def targeted (sub tenant : String) (events : List SessionEvent) : List SessionEvent :=
  events.filter fun e => e.sub = sub ∧ e.tenant = tenant

theorem targeted_append (sub tenant : String) (es fs : List SessionEvent) :
    targeted sub tenant (es ++ fs) = targeted sub tenant es ++ targeted sub tenant fs :=
  List.filter_append ..

/-- One more event is one more frame, or none. -/
theorem targeted_singleton (e : SessionEvent) (sub tenant : String) :
    (targeted sub tenant [e]).map (fun e => sessionFrame e.ip) =
      (frameFor e sub tenant).toList := by
  rw [frameFor_eq]
  by_cases h : e.sub = sub ∧ e.tenant = tenant <;> simp [targeted, h]

/-! ## The socket -/

/-- `Message` : a WebSocket message. -/
inductive Message where
  | text (text : String)
  | binary
  | ping
  | pong
  | close

/-- What the socket's `recv` yields : a message, a transport error, or the end. -/
abbrev Inbound := Option (Except Unit Message)

/-- `closed` returns on a Close frame, an error or the end, and reads on otherwise. -/
def Inbound.isGone : Inbound → Bool
  | some (.ok .close) | some (.error _) | none => true
  | some (.ok _) => false

/-- Why the loop stopped. -/
inductive Stop where
  | peerGone
  | sendError (frame : String)
  | closed
  deriving DecidableEq

/-- Where the loop is : at the `select!`, in `send_text`, or past the loop. -/
inductive Phase where
  | select
  | sending (frame : String)
  | stopped (why : Stop)
  deriving DecidableEq

/-- The frame an event received last has not had sent. -/
def Phase.unsent : Phase → List String
  | sending frame | stopped (.sendError frame) => [frame]
  | _ => []

/-- The loop and its surroundings, with what happened so far : the events published, those the
receiver yielded and those overwritten in it, and the frames sent. -/
structure Forwarder where
  events : Receiver SessionEvent
  inbound : List Inbound
  phase : Phase
  published : List SessionEvent
  received : List SessionEvent
  overwritten : List SessionEvent
  sent : List String

/-- What happens : an event is published, unread events are overwritten, the last sender
is dropped, the peer sends, the `select!` resolves with a receive or with an inbound
message, or `send_text` returns. -/
inductive ForwardAct where
  | publish (event : SessionEvent)
  | overwrite (k : ℕ)
  | dropSenders
  | arrive (message : Inbound)
  | recv
  | readInbound
  | sendDone (ok : Bool)

namespace Forwarder

/-- The socket just upgraded. -/
def start : Forwarder where
  events := .subscribe
  inbound := []
  phase := .select
  published := []
  received := []
  overwritten := []
  sent := []

/-- The loop body on what the receiver yields : where the loop goes. -/
def handle (sub tenant : String) : Except RecvError SessionEvent → Phase
  | .ok event =>
    match frameFor event sub tenant with
    | some frame => .sending frame
    | none => .select
  | .error (.lagged _) => .select
  | .error .closed => .stopped .closed

/-- One step. What the receiver yields is received, whatever the loop makes of it. -/
def step (sub tenant : String) (s : Forwarder) : ForwardAct → Option Forwarder
  | .publish event =>
    (s.events.publish event).map fun events =>
      { s with events, published := s.published ++ [event] }
  | .overwrite k =>
    (s.events.overwrite k).map fun events =>
      { s with events, overwritten := s.overwritten ++ s.events.unread.take k }
  | .dropSenders => some { s with events := s.events.close }
  | .arrive message => some { s with inbound := s.inbound ++ [message] }
  | .recv =>
    match s.phase with
    | .select => s.events.recv.map fun (out, events) =>
      { s with
        events
        phase := handle sub tenant out
        received := s.received ++ out.toOption.toList }
    | _ => none
  | .readInbound =>
    match s.phase, s.inbound with
    | .select, message :: inbound =>
      some { s with
        inbound, phase := if message.isGone then .stopped .peerGone else .select }
    | _, _ => none
  | .sendDone ok =>
    match s.phase with
    | .sending frame =>
      some (if ok then { s with sent := s.sent ++ [frame], phase := .select }
        else { s with phase := .stopped (.sendError frame) })
    | _ => none

variable {sub tenant : String} {s s' : Forwarder}

/-- Whether the loop has stopped. -/
def isStopped (s : Forwarder) : Prop := ∃ why, s.phase = .stopped why

/-! ## Steps -/

theorem recv_eq_some (h : step sub tenant s .recv = some s') :
    ∃ out events, s.phase = .select ∧ s.events.recv = some (out, events) ∧ s' = { s with
      events
      phase := handle sub tenant out
      received := s.received ++ out.toOption.toList } := by
  simp only [step] at h
  split at h
  · next hp =>
    obtain ⟨⟨out, events⟩, hr, rfl⟩ := Option.map_eq_some_iff.1 h
    exact ⟨out, events, hp, hr, rfl⟩
  · cases h

theorem readInbound_eq_some (h : step sub tenant s .readInbound = some s') :
    ∃ message inbound, s.phase = .select ∧ s.inbound = message :: inbound ∧
      s' = { s with
        inbound, phase := if message.isGone then .stopped .peerGone else .select } := by
  simp only [step] at h
  split at h
  · next message inbound hp hi => exact ⟨message, inbound, hp, hi, (Option.some.inj h).symm⟩
  · cases h

theorem sendDone_eq_some {ok : Bool} (h : step sub tenant s (.sendDone ok) = some s') :
    ∃ frame, s.phase = .sending frame ∧
      s' = if ok then { s with sent := s.sent ++ [frame], phase := .select }
        else { s with phase := .stopped (.sendError frame) } := by
  simp only [step] at h
  split at h
  · next frame hp => exact ⟨frame, hp, (Option.some.inj h).symm⟩
  · cases h

/-- An event is received : its frame, if it has one, is the one left to send. -/
theorem unsent_handle_ok (e : SessionEvent) :
    (handle sub tenant (.ok e)).unsent = (frameFor e sub tenant).toList := by
  simp only [handle]
  cases frameFor e sub tenant <;> rfl

/-! ## The invariant -/

/-- What was sent, with what is left to send of the last event, is the frames of the
received events that target the socket; each event published was received or overwritten, or is
unread. -/
structure Inv (sub tenant : String) (s : Forwarder) : Prop where
  frames : (targeted sub tenant s.received).map (fun e => sessionFrame e.ip) =
    s.sent ++ s.phase.unsent
  accounts : Accounts s.published s.received s.overwritten s.events.unread

theorem Inv.start : Inv sub tenant start := ⟨rfl, .nil⟩

theorem step_inv {a : ForwardAct} (hi : Inv sub tenant s) (h : step sub tenant s a = some s') :
    Inv sub tenant s' := by
  cases a with
  | publish event =>
    obtain ⟨r, hr, rfl⟩ := Option.map_eq_some_iff.1 h
    obtain rfl := Receiver.publish_eq_some hr
    exact ⟨hi.frames, hi.accounts.publish event⟩
  | overwrite k =>
    obtain ⟨r, hr, rfl⟩ := Option.map_eq_some_iff.1 h
    obtain rfl := Receiver.overwrite_eq_some hr
    exact ⟨hi.frames, hi.accounts.overwrite k⟩
  | dropSenders =>
    obtain rfl := Option.some.inj h
    exact ⟨hi.frames, hi.accounts⟩
  | arrive message =>
    obtain rfl := Option.some.inj h
    exact ⟨hi.frames, hi.accounts⟩
  | recv =>
    obtain ⟨out, events, hp, hr, rfl⟩ := recv_eq_some h
    have hf := hi.frames
    rw [hp] at hf
    have haccounts := hi.accounts
    rw [Receiver.recv_unread hr] at haccounts
    refine ⟨?_, haccounts.yield⟩
    rcases Receiver.recv_cases hr with ⟨e, rfl, -⟩ | ⟨⟨n, rfl⟩ | rfl, -⟩
    · show (targeted sub tenant (s.received ++ [e])).map _ = _
      rw [targeted_append, List.map_append, hf, targeted_singleton, unsent_handle_ok]
      simp [Phase.unsent]
    · simpa [Except.toOption, handle] using hf
    · simpa [Except.toOption, handle, Phase.unsent] using hf
  | readInbound =>
    obtain ⟨message, inbound, hp, -, rfl⟩ := readInbound_eq_some h
    have hf := hi.frames
    rw [hp] at hf
    refine ⟨?_, hi.accounts⟩
    rw [hf]
    cases message.isGone <;> rfl
  | sendDone ok =>
    obtain ⟨frame, hp, rfl⟩ := sendDone_eq_some h
    have hf := hi.frames
    rw [hp] at hf
    cases ok with
    | true => exact ⟨by simpa [Phase.unsent] using hf, hi.accounts⟩
    | false => exact ⟨hf, hi.accounts⟩

theorem run_inv {as : List ForwardAct} (h : run (step sub tenant) start as = some s) :
    Inv sub tenant s :=
  run_induction (P := fun _ s => Inv sub tenant s) .start
    (fun _ _ _ _ _ hi hstep => step_inv hi hstep) h

/-! ## Stopping -/

/-- What stops the loop, and why. -/
def Stops (s : Forwarder) (a : ForwardAct) : Stop → Prop
  | .peerGone => a = .readInbound ∧ ∃ message rest, s.inbound = message :: rest ∧ message.isGone
  | .sendError frame => a = .sendDone false ∧ s.phase = .sending frame
  | .closed => a = .recv ∧ ∃ events, s.events.recv = some (.error .closed, events)

/-- A running loop stops for a reason exactly on the step that is the reason. -/
theorem step_stops_iff {a : ForwardAct} (h : step sub tenant s a = some s')
    (hs : ¬ s.isStopped) (why : Stop) : s'.phase = .stopped why ↔ s.Stops a why := by
  have hrun : s.phase ≠ .stopped why := fun hw => hs ⟨why, hw⟩
  cases a with
  | publish event =>
    obtain ⟨r, -, rfl⟩ := Option.map_eq_some_iff.1 h
    cases why <;> simp [Stops, hrun]
  | overwrite k =>
    obtain ⟨r, -, rfl⟩ := Option.map_eq_some_iff.1 h
    cases why <;> simp [Stops, hrun]
  | dropSenders =>
    obtain rfl := Option.some.inj h
    cases why <;> simp [Stops, hrun]
  | arrive message =>
    obtain rfl := Option.some.inj h
    cases why <;> simp [Stops, hrun]
  | recv =>
    obtain ⟨out, events, hp, hr, rfl⟩ := recv_eq_some h
    rcases Receiver.recv_cases hr with ⟨e, rfl, -⟩ | ⟨⟨n, rfl⟩ | rfl, -⟩
    · cases hframe : frameFor e sub tenant <;> cases why <;> simp [Stops, hr, handle, hframe]
    · cases why <;> simp [Stops, hr, handle]
    · cases why <;> simp [Stops, hr, handle]
  | readInbound =>
    obtain ⟨message, inbound, -, hi, rfl⟩ := readInbound_eq_some h
    cases hm : message.isGone <;> cases why <;> simp [Stops, hi, hm]
  | sendDone ok =>
    obtain ⟨frame, hp, rfl⟩ := sendDone_eq_some h
    cases ok <;> cases why <;> simp [Stops, hp]

/-- Past the loop nothing is received or sent. -/
theorem step_isStopped {a : ForwardAct} (h : step sub tenant s a = some s')
    (hs : s.isStopped) :
    s'.phase = s.phase ∧ s'.received = s.received ∧ s'.sent = s.sent := by
  obtain ⟨why, hw⟩ := hs
  cases a with
  | publish event =>
    obtain ⟨r, -, rfl⟩ := Option.map_eq_some_iff.1 h
    exact ⟨rfl, rfl, rfl⟩
  | overwrite k =>
    obtain ⟨r, -, rfl⟩ := Option.map_eq_some_iff.1 h
    exact ⟨rfl, rfl, rfl⟩
  | dropSenders | arrive message =>
    obtain rfl := Option.some.inj h
    exact ⟨rfl, rfl, rfl⟩
  | recv =>
    obtain ⟨_, _, hp, -⟩ := recv_eq_some h
    simp [hp] at hw
  | readInbound =>
    obtain ⟨_, _, hp, -⟩ := readInbound_eq_some h
    simp [hp] at hw
  | sendDone ok =>
    obtain ⟨_, hp, -⟩ := sendDone_eq_some h
    simp [hp] at hw

theorem run_isStopped {as : List ForwardAct} (h : run (step sub tenant) s as = some s')
    (hs : s.isStopped) :
    s'.phase = s.phase ∧ s'.received = s.received ∧ s'.sent = s.sent := by
  induction as generalizing s with
  | nil =>
    obtain rfl := Option.some.inj h
    exact ⟨rfl, rfl, rfl⟩
  | cons a as ih =>
    obtain ⟨t, ht, hrest⟩ := Option.bind_eq_some_iff.1 h
    obtain ⟨hp, hr, hsent⟩ := step_isStopped ht hs
    obtain ⟨hp', hr', hsent'⟩ := ih hrest (hs.imp fun why hw => hp.trans hw)
    exact ⟨hp'.trans hp, hr'.trans hr, hsent'.trans hsent⟩

/-- The loop reads messages until one says that the peer is gone. -/
theorem peerGone_stops (hs : s.phase = .select) (hg : ∃ m ∈ s.inbound, m.isGone) :
    ∃ n s', run (step sub tenant) s (List.replicate n .readInbound) = some s' ∧
      s'.phase = .stopped .peerGone := by
  generalize hi : s.inbound = inbound at hg
  induction inbound generalizing s with
  | nil => simp at hg
  | cons m rest ih =>
    have hstep : step sub tenant s .readInbound = some { s with
        inbound := rest, phase := if m.isGone then .stopped .peerGone else .select } := by
      simp only [step, hs, hi]
    cases hm : m.isGone with
    | true => exact ⟨1, _, by rw [List.replicate_one, run_cons, hstep]; rfl, by simp [hm]⟩
    | false =>
      have hrest : ∃ m ∈ rest, m.isGone := by simpa [hm] using hg
      rw [hm] at hstep
      obtain ⟨n, s', hrun, hp⟩ := ih (s := { s with inbound := rest, phase := .select }) rfl rfl
        hrest
      refine ⟨n + 1, s', ?_, hp⟩
      rw [List.replicate_succ, run_cons, hstep]
      exact hrun

/-! ## The contract -/

/-- Over every schedule of publishes, overwrites, inbound messages, failed sends and the
channel's close, from the upgrade on :

* what was sent is the frames of the received events that target the socket, in order,
  less the one in hand where a send is under way or has failed;
* each event published was yielded by the receiver, and is received, or was overwritten in it,
  or is unread, the three in the order of the publications;
* a running loop stops exactly when it reads that the peer is gone, a send fails, or the
  receive says that the channel is closed;
* at its `select!` with the peer's departure inbound, reading on stops it;
* once stopped it receives and sends nothing. -/
theorem forwards_exactly {as : List ForwardAct} (h : run (step sub tenant) start as = some s) :
    (targeted sub tenant s.received).map (fun e => sessionFrame e.ip) =
        s.sent ++ s.phase.unsent ∧
      Accounts s.published s.received s.overwritten s.events.unread ∧
      (¬ s.isStopped → ∀ a s', step sub tenant s a = some s' →
        ∀ why, s'.phase = .stopped why ↔ s.Stops a why) ∧
      (s.phase = .select → (∃ m ∈ s.inbound, m.isGone) →
        ∃ n s', run (step sub tenant) s (List.replicate n .readInbound) = some s' ∧
          s'.phase = .stopped .peerGone) ∧
      (s.isStopped → ∀ bs s', run (step sub tenant) s bs = some s' →
        s'.phase = s.phase ∧ s'.received = s.received ∧ s'.sent = s.sent) :=
  ⟨(run_inv h).frames, (run_inv h).accounts, fun hs _ _ hstep why => step_stops_iff hstep hs why,
    peerGone_stops, fun hs _ _ hrun => run_isStopped hrun hs⟩

/-- An event of another tenant is overwritten; the next two, one of another user, are
received; a ping is read and the channel closes. -/
def laggingSchedule : List ForwardAct :=
  [.publish { sub := "user-1", tenant := "beta", ip := "192.0.2.1" },
    .publish { sub := "user-9", tenant := "acme", ip := "192.0.2.9" },
    .publish { sub := "user-1", tenant := "acme", ip := "203.0.113.7" },
    .arrive (some (.ok .ping)), .overwrite 1, .recv, .recv, .recv, .sendDone true,
    .readInbound, .dropSenders, .recv]

theorem forwards_exactly_laggingSchedule :
    ∃ s, run (step "user-1" "acme") start laggingSchedule = some s ∧
      s.phase = .stopped .closed ∧ s.sent ++ s.phase.unsent = [sessionFrame "203.0.113.7"] ∧
      (s.received ++ s.overwritten).Perm s.published := by
  have hrun : run (step "user-1" "acme") start laggingSchedule = some
      { events := { unread := [], skipped := 0, isOpen := false }
        inbound := []
        phase := .stopped .closed
        published := [⟨"user-1", "beta", "192.0.2.1"⟩, ⟨"user-9", "acme", "192.0.2.9"⟩,
          ⟨"user-1", "acme", "203.0.113.7"⟩]
        received := [⟨"user-9", "acme", "192.0.2.9"⟩, ⟨"user-1", "acme", "203.0.113.7"⟩]
        overwritten := [⟨"user-1", "beta", "192.0.2.1"⟩]
        sent := [sessionFrame "203.0.113.7"] } := rfl
  obtain ⟨hframes, ⟨gone, hpublished, -, -, hperm⟩, -⟩ := forwards_exactly hrun
  rw [List.append_nil] at hpublished
  exact ⟨_, hrun, rfl, hframes.symm.trans (by simp [targeted]), hpublished ▸ hperm⟩

end Forwarder

end AuthExample
