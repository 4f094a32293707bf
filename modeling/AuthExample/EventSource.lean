import AuthExample.AuditStream

/-!
# A client that reconnects

`new EventSource('/audit/stream')` opens a connection without `Last-Event-ID`. When the
connection drops the browser opens another, with the id of the last event it received.
Events the server yielded and the client never received are lost with the connection,
and served again from the cursor of the next one.

`received_rows` : over any run, whatever the drops, the client has received each row at
most once, in id order.
-/

namespace AuthExample

variable {Ts : Type*}

/-- A client of the live tail. `stream` is its current connection and `seen` counts the
events of that connection it has received; `received` is what it has received over all
of them. -/
structure EventSource (Ts : Type*) where
  filter : AuditStreamQuery
  stream : Stream Ts
  seen : ℕ
  received : List Event

namespace EventSource

/-- `new EventSource(url)`. -/
def «open» (filter : AuditStreamQuery) : EventSource Ts where
  filter := filter
  stream := streamLogs filter none
  seen := 0
  received := []

/-- The server's generator takes a step, the next event arrives, or the connection drops
and the browser opens another. -/
inductive Act where
  | server (a : Stream.Act)
  | recv
  | reconnect
  deriving DecidableEq

/-- The next event of the connection arrives. -/
def recv (c : EventSource Ts) : Option (EventSource Ts) :=
  c.stream.yielded[c.seen]?.map fun e =>
    { c with seen := c.seen + 1, received := c.received ++ [e] }

/-- The `Last-Event-ID` the browser sends, none before the first event. -/
def lastEventId (c : EventSource Ts) : Option String := c.received.getLast?.map Event.id

/-- The connection is dropped and opened again. -/
def reconnect (c : EventSource Ts) : EventSource Ts :=
  { c with stream := streamLogs c.filter c.lastEventId, seen := 0 }

/-- One step of the client and its connection over the committed rows. -/
def step (w : Wire Ts) (committed : List (LogRow Ts)) (c : EventSource Ts) :
    Act → Option (EventSource Ts)
  | .server a => (c.stream.step w committed a).map fun stream => { c with stream }
  | .recv => c.recv
  | .reconnect => some c.reconnect

theorem step_cases {w : Wire Ts} {committed : List (LogRow Ts)} {c c' : EventSource Ts} {a : Act}
    (h : c.step w committed a = some c') :
    (∃ b stream, a = .server b ∧ c.stream.step w committed b = some stream ∧
        c' = { c with stream }) ∨
      (∃ e, a = .recv ∧ c.stream.yielded[c.seen]? = some e ∧
        c' = { c with seen := c.seen + 1, received := c.received ++ [e] }) ∨
      a = .reconnect ∧ c' = c.reconnect := by
  cases a with
  | server b =>
    obtain ⟨stream, hst, rfl⟩ := Option.map_eq_some_iff.1 h
    exact Or.inl ⟨b, stream, rfl, hst, rfl⟩
  | recv =>
    obtain ⟨e, he, rfl⟩ := Option.map_eq_some_iff.1 h
    exact Or.inr (Or.inl ⟨e, rfl, he, rfl⟩)
  | reconnect => exact Or.inr (Or.inr ⟨rfl, (Option.some.inj h).symm⟩)

/-- A client keeps its filter. -/
theorem step_filter {w : Wire Ts} {committed : List (LogRow Ts)} {c c' : EventSource Ts} {a : Act}
    (h : c.step w committed a = some c') : c'.filter = c.filter := by
  obtain ⟨b, stream, -, -, rfl⟩ | ⟨e, -, -, rfl⟩ | ⟨-, rfl⟩ := step_cases h <;> rfl

/-- What holds of a client : its connection has yielded `rows`, and it has received the
rows `old` from earlier connections, all up to where this one started, and then the
first `seen` of `rows`. -/
structure Ordered (w : Wire Ts) (committed : List (LogRow Ts)) (c : EventSource Ts)
    (old rows : List (LogRow Ts)) : Prop where
  stream : c.stream.Ordered w committed rows
  filter : c.stream.filter = c.filter
  seen_le : c.seen ≤ rows.length
  received : c.received = (old ++ rows.take c.seen).map (eventOf w)
  sorted : old.Pairwise fun a b => a.id < b.id
  sound : ∀ r ∈ old, r ∈ committed ∧ c.filter.Matches r
  upTo : ∀ r ∈ old, r.id ≤ c.stream.start

theorem Ordered.open (w : Wire Ts) (committed : List (LogRow Ts)) (filter : AuditStreamQuery) :
    Ordered w committed (EventSource.open filter) [] [] where
  stream := Stream.Ordered.open w committed filter none
  filter := rfl
  seen_le := le_refl _
  received := rfl
  sorted := List.Pairwise.nil
  sound := by simp
  upTo := by simp

theorem Ordered.mono {w : Wire Ts} {committed committed' : List (LogRow Ts)} {c : EventSource Ts}
    {old rows : List (LogRow Ts)} (h : Ordered w committed c old rows)
    (hsub : ∀ r ∈ committed, r ∈ committed') : Ordered w committed' c old rows :=
  { h with
    stream := h.stream.mono hsub
    sound := fun r hr => ⟨hsub r (h.sound r hr).1, (h.sound r hr).2⟩ }

/-- The received rows are in id order. -/
theorem Ordered.pairwise {w : Wire Ts} {committed : List (LogRow Ts)} {c : EventSource Ts}
    {old rows : List (LogRow Ts)} (h : Ordered w committed c old rows) :
    (old ++ rows.take c.seen).Pairwise fun a b => a.id < b.id := by
  refine List.pairwise_append.2 ⟨h.sorted, ?_, fun a ha b hb => ?_⟩
  · exact (List.pairwise_append.1 h.stream.sorted).1.sublist (List.take_sublist _ _)
  · exact (h.upTo a ha).trans_lt (h.stream.above b (List.mem_of_mem_take hb))

/-- The received rows are committed and match. -/
theorem Ordered.sound_take {w : Wire Ts} {committed : List (LogRow Ts)} {c : EventSource Ts}
    {old rows : List (LogRow Ts)} (h : Ordered w committed c old rows) :
    ∀ r ∈ old ++ rows.take c.seen, r ∈ committed ∧ c.filter.Matches r := by
  intro r hr
  rcases List.mem_append.1 hr with hr | hr
  · exact h.sound r hr
  · rw [← h.filter]
    exact h.stream.sound r (List.mem_append_left _ (List.mem_of_mem_take hr))

/-- A reconnection starts at the last row received, or at 0 before the first. -/
theorem Ordered.startCursor_lastEventId {w : Wire Ts} {db : Db Ts} {c : EventSource Ts}
    {old rows : List (LogRow Ts)} (h : Ordered w db.committed c old rows) :
    startCursor c.lastEventId = ((old ++ rows.take c.seen).getLast?.map LogRow.id).getD 0 := by
  rw [lastEventId, h.received, List.getLast?_map]
  cases hl : (old ++ rows.take c.seen).getLast? with
  | none => rfl
  | some r =>
    have hr := db.id_bounds (h.sound_take r (List.mem_of_getLast? hl)).1
    have hmin : Decimal.i64Min ≤ r.id := by
      simp only [Decimal.i64Min]
      omega
    show (Decimal.parseI64 (toString r.id)).getD 0 = r.id
    rw [Decimal.parseI64_toString hmin hr.2, Option.getD_some]

/-- A reconnection leaves the client in order, with the received rows its old ones. -/
theorem Ordered.reconnect {w : Wire Ts} {db : Db Ts} {c : EventSource Ts}
    {old rows : List (LogRow Ts)} (h : Ordered w db.committed c old rows) :
    Ordered w db.committed c.reconnect (old ++ rows.take c.seen) [] where
  stream := Stream.Ordered.open w db.committed c.filter c.lastEventId
  filter := rfl
  seen_le := le_refl _
  received := by simpa [EventSource.reconnect] using h.received
  sorted := h.pairwise
  sound := h.sound_take
  upTo := by
    intro r hr
    show r.id ≤ startCursor c.lastEventId
    rw [h.startCursor_lastEventId]
    obtain ⟨init, last, hl⟩ : ∃ init last, old ++ rows.take c.seen = init ++ [last] :=
      ⟨_, _, (List.dropLast_append_getLast (List.ne_nil_of_mem hr)).symm⟩
    have hs := h.pairwise
    rw [hl] at hr hs ⊢
    rw [List.getLast?_concat, Option.map_some, Option.getD_some]
    rcases List.mem_append.1 hr with hr | hr
    · exact ((List.pairwise_append.1 hs).2.2 r hr last (by simp)).le
    · rw [List.mem_singleton.1 hr]

/-- A step keeps the client in order, and only a poll brings rows in. -/
theorem Ordered.step {w : Wire Ts} {db : Db Ts} {c c' : EventSource Ts} {a : Act}
    {old rows : List (LogRow Ts)} (h : Ordered w db.committed c old rows)
    (hstep : c.step w db.committed a = some c') :
    ∃ old' rows', Ordered w db.committed c' old' rows' ∧
      ∀ r ∈ old' ++ rows' ++ c'.stream.batch, r ∈ old ++ rows ++ c.stream.batch ∨
        a = .server .poll ∧ r ∈ selectStream c.filter c.stream.last db.committed := by
  obtain ⟨b, stream, rfl, hst, rfl⟩ | ⟨e, rfl, he, rfl⟩ | ⟨rfl, rfl⟩ := step_cases hstep
  · obtain ⟨new, hnew, hfrom⟩ := h.stream.step db.nodup_committed hst
    obtain ⟨hfilter, hstart⟩ := Stream.step_const hst
    refine ⟨old, rows ++ new, ?_, fun r hr => ?_⟩
    · exact
        { h with
          stream := hnew
          filter := hfilter.trans h.filter
          seen_le := h.seen_le.trans (by simp)
          received := by rw [List.take_append_of_le_length h.seen_le, ← h.received]
          upTo := fun r hr => (h.upTo r hr).trans_eq hstart.symm }
    · rw [← h.filter]
      simp only [List.append_assoc, List.mem_append] at hr hfrom ⊢
      grind
  · rw [h.stream.yielded, List.getElem?_map, Option.map_eq_some_iff] at he
    obtain ⟨r, hr, rfl⟩ := he
    have hlt : c.seen < rows.length := (List.getElem?_eq_some_iff.1 hr).1
    refine ⟨old, rows, { h with seen_le := hlt, received := ?_ }, fun r hr => Or.inl hr⟩
    rw [List.take_add_one, hr, h.received]
    simp
  · refine ⟨_, [], h.reconnect, fun r hr => Or.inl ?_⟩
    have hr : r ∈ old ++ rows.take c.seen := by simpa [EventSource.reconnect, streamLogs] using hr
    exact List.mem_append_left _
      ((List.append_sublist_append_left old).2 (List.take_sublist _ _) |>.subset hr)

end EventSource

/-! ## Writers and one client -/

/-- The table and one client of the live tail. -/
structure Client (Ts : Type*) where
  db : Db Ts
  source : EventSource Ts

namespace Client

/-- A writer's step or the client's. -/
inductive Act (Ts : Type*) where
  | db (a : Db.Act Ts)
  | source (a : EventSource.Act)

/-- One step of the table or of the client. -/
def step (w : Wire Ts) (s : Client Ts) : Act Ts → Option (Client Ts)
  | .db a => (s.db.step a).map fun db => { s with db }
  | .source a => (s.source.step w s.db.committed a).map fun source => { s with source }

theorem step_cases {w : Wire Ts} {s s' : Client Ts} {a : Act Ts} (h : step w s a = some s') :
    (∃ b db, a = .db b ∧ s.db.step b = some db ∧ s' = { s with db }) ∨
      ∃ b source, a = .source b ∧ s.source.step w s.db.committed b = some source ∧
        s' = { s with source } := by
  cases a with
  | db b =>
    obtain ⟨db, hdb, rfl⟩ := Option.map_eq_some_iff.1 h
    exact Or.inl ⟨b, db, rfl, hdb, rfl⟩
  | source b =>
    obtain ⟨source, hsrc, rfl⟩ := Option.map_eq_some_iff.1 h
    exact Or.inr ⟨b, source, rfl, hsrc, rfl⟩

/-- A client that opens over a table. -/
def «open» (db : Db Ts) (filter : AuditStreamQuery) : Client Ts := ⟨db, EventSource.open filter⟩

/-- A poll of the run fetched the row, committed by then. -/
def Polled (w : Wire Ts) (s₀ : Client Ts) (as : List (Act Ts)) (row : LogRow Ts) : Prop :=
  ∃ pre t, pre ++ [.source (.server .poll)] <+: as ∧ Runs.run (step w) s₀ pre = some t ∧
    row ∈ t.db.committed ∧ row ∈ selectStream t.source.filter t.source.stream.last t.db.committed

theorem Polled.snoc {w : Wire Ts} {s₀ : Client Ts} {as : List (Act Ts)} {row : LogRow Ts}
    (h : Polled w s₀ as row) (a : Act Ts) : Polled w s₀ (as ++ [a]) row := by
  obtain ⟨pre, t, hpre, h⟩ := h
  exact ⟨pre, t, hpre.trans (List.prefix_append _ _), h⟩

/-- After any run the client is in order, and polls fetched all its rows. -/
theorem exists_ordered {w : Wire Ts} {db : Db Ts} {filter : AuditStreamQuery}
    {as : List (Act Ts)} {s : Client Ts}
    (h : Runs.run (step w) (Client.open db filter) as = some s) :
    s.source.filter = filter ∧
      ∃ old rows, s.source.Ordered w s.db.committed old rows ∧
        ∀ r ∈ old ++ rows ++ s.source.stream.batch, Polled w (Client.open db filter) as r := by
  have hopen : ∀ r ∈ [] ++ [] ++ (Client.open db filter).source.stream.batch,
      Polled w (Client.open db filter) [] r := by
    simp [Client.open, EventSource.open, streamLogs]
  refine Runs.run_induction (P := fun as s => s.source.filter = filter ∧
    ∃ old rows, s.source.Ordered w s.db.committed old rows ∧
      ∀ r ∈ old ++ rows ++ s.source.stream.batch, Polled w (Client.open db filter) as r)
    ⟨rfl, [], [], EventSource.Ordered.open w db.committed filter, hopen⟩ ?_ h
  rintro as s a s' hrun ⟨hfilter, old, rows, ho, hpolled⟩ hstep
  obtain ⟨b, db', rfl, hdb, rfl⟩ | ⟨b, source, rfl, hsrc, rfl⟩ := step_cases hstep
  · exact ⟨hfilter, old, rows, ho.mono fun r => Db.step_mono hdb,
      fun r hr => (hpolled r hr).snoc _⟩
  · obtain ⟨old', rows', ho', hfrom⟩ := ho.step hsrc
    refine ⟨(EventSource.step_filter hsrc).trans hfilter, old', rows', ho', fun r hr => ?_⟩
    rcases hfrom r hr with hr | ⟨rfl, hr⟩
    · exact (hpolled r hr).snoc _
    · exact ⟨as, s, List.prefix_refl _, hrun, (mem_selectStream hr).1, hr⟩

/-- What a client has received after any run, its connections cut anywhere, is the
events of rows in strict id order, each matching the filter and committed when a poll
fetched it. -/
theorem received_rows {w : Wire Ts} {db : Db Ts} {filter : AuditStreamQuery}
    {as : List (Act Ts)} {s : Client Ts}
    (h : Runs.run (step w) (Client.open db filter) as = some s) :
    ∃ rows : List (LogRow Ts), s.source.received = rows.map (eventOf w) ∧
      rows.Pairwise (fun a b => a.id < b.id) ∧
      ∀ row ∈ rows, (eventOf w row).id = toString row.id ∧
        (eventOf w row).data.get? "id" = some (.ofInt row.id) ∧
        filter.Matches row ∧ Polled w (Client.open db filter) as row := by
  obtain ⟨rfl, old, rows, ho, hpolled⟩ := exists_ordered h
  refine ⟨_, ho.received, ho.pairwise, fun row hrow => ⟨rfl, ?_, (ho.sound_take row hrow).2, ?_⟩⟩
  · simp [eventOf, AuditRow.toJson, Json.get?]
  · refine hpolled row (List.mem_append_left _ ?_)
    exact ((List.append_sublist_append_left old).2 (List.take_sublist _ _)).subset hrow

/-- A row received, a drop, the next row received. -/
def dropped : List (Act String) :=
  [.db (loginInsert "a"), .db (.commit 0), .source (.server .poll), .source (.server .next),
    .source .recv, .source .reconnect, .db (loginInsert "b"), .db (.commit 0),
    .source (.server .poll), .source (.server .next), .source .recv]

theorem received_rows_dropped :
    ∃ s, Runs.run (step textWire) (Client.open Db.empty {}) dropped = some s ∧
      s.source.received.length = 2 ∧
      ∃ rows : List (LogRow String), s.source.received = rows.map (eventOf textWire) ∧
        rows.Pairwise fun a b => a.id < b.id := by
  have hrun : Runs.run (step textWire) (Client.open Db.empty {}) dropped = some _ := rfl
  obtain ⟨rows, hrows, hsorted, -⟩ := received_rows hrun
  exact ⟨_, hrun, rfl, rows, hrows, hsorted⟩

end Client

end AuthExample
