import AuthExample.AuditLog
import AuthExample.Runs

/-!
# The live tail

`stream_logs` polls the committed rows above its cursor, oldest first and at most
`STREAM_BATCH` at a time, and yields them one by one, moving the cursor to each row
before it is yielded. A `Stream` is one connection : the generator's variables, the
cursor it started at and what it has yielded.

A `Tail` runs a connection with the writers. A row that commits behind what the connection
has fetched is passed over (`exists_not_lossless`); where inserts commit in the order of
their ids none is (`lossless_of_commitsInOrder`).
-/

namespace AuthExample

variable {Ts ε : Type*}

/-! ## One connection -/

/-- A server-sent event. -/
structure Event where
  id : String
  data : Json

/-- The event of a row : its id is the row's, its data the wire row. `json_data` does
not fail on a wire row. -/
def eventOf (w : Wire Ts) (row : LogRow Ts) : Event where
  id := toString row.id
  data := (auditRow w row).toJson

/-- The most rows a poll drains. -/
def streamBatch : ℕ := 100

/-- One `stream_logs` connection. `batch` is the rows fetched and not yet yielded;
`start` and `yielded` record where the connection began and what it has sent. -/
structure Stream (Ts : Type*) where
  filter : AuditStreamQuery
  start : Int
  last : Int
  batch : List (LogRow Ts)
  yielded : List Event

/-- The cursor a connection starts at. An absent or unparseable `Last-Event-ID` is `0`. -/
def startCursor (lastEventId : Option String) : Int :=
  (lastEventId.bind Decimal.parseI64).getD 0

/-- `GET /audit/stream`. -/
def streamLogs (filter : AuditStreamQuery) (lastEventId : Option String) : Stream Ts where
  filter := filter
  start := startCursor lastEventId
  last := startCursor lastEventId
  batch := []
  yielded := []

/-- The `WHERE` clause of a poll. -/
def streamCond (filter : AuditStreamQuery) (last : Int) (row : LogRow Ts) : Sql.Cond :=
  Sql.and (Sql.and (Sql.and
    (Sql.lt (some last) (some row.id))
    (actorCond filter.actor row))
    (eventCond filter.event row))
    (tenantCond filter.tenantId row)

/-- A poll's query. -/
def selectStream (filter : AuditStreamQuery) (last : Int) (table : List (LogRow Ts)) :
    List (LogRow Ts) :=
  Sql.select (streamCond filter last) (· ≤ ·) LogRow.id streamBatch table

namespace Stream

/-- A poll, once the rows of the one before are all yielded. A failed poll is logged
and the loop goes on. -/
def poll (s : Stream Ts) (pool : Except ε (List (LogRow Ts))) : Option (Stream Ts) :=
  match s.batch, pool with
  | [], .ok table => some { s with batch := selectStream s.filter s.last table }
  | [], .error _ => some s
  | _ :: _, _ => none

/-- The loop takes the next fetched row, moves the cursor to it and yields its event. -/
def next (w : Wire Ts) (s : Stream Ts) : Option (Stream Ts) :=
  match s.batch with
  | [] => none
  | row :: rest =>
    some { s with last := row.id, batch := rest, yielded := s.yielded ++ [eventOf w row] }

/-- What the generator does. -/
inductive Act where
  | poll
  | pollFail
  | next
  deriving DecidableEq

/-- One step of the generator over the committed rows. -/
def step (w : Wire Ts) (committed : List (LogRow Ts)) (s : Stream Ts) : Act → Option (Stream Ts)
  | .poll => s.poll (.ok committed : Except Unit _)
  | .pollFail => s.poll (.error ())
  | .next => s.next w

/-- The greatest id fetched so far. -/
def fetched (s : Stream Ts) : Int := (s.batch.getLast?.map LogRow.id).getD s.last

end Stream

/-! ## What a poll fetches -/

theorem mem_selectStream {filter : AuditStreamQuery} {last : Int} {table : List (LogRow Ts)}
    {row : LogRow Ts} (h : row ∈ selectStream filter last table) :
    row ∈ table ∧ last < row.id ∧ filter.Matches row := by
  obtain ⟨hrow, hc⟩ := Sql.mem_of_mem_select h
  simp only [streamCond, Sql.holds_and, Bool.and_eq_true, and_assoc, holds_facets] at hc
  obtain ⟨x, y, hx, hy, hlt⟩ := Sql.holds_lt.1 hc.1
  obtain rfl := Option.some.inj hx
  obtain rfl := Option.some.inj hy
  exact ⟨hrow, hlt, hc.2⟩

theorem pairwise_selectStream (filter : AuditStreamQuery) (last : Int)
    {table : List (LogRow Ts)} (hd : (table.map LogRow.id).Nodup) :
    (selectStream filter last table).Pairwise fun a b => a.id < b.id :=
  (Sql.pairwise_orderBy_asc (hd.sublist (List.filter_sublist.map _))).sublist
    (List.take_sublist _ _)

/-- A poll leaves out no matching row below one it fetches. -/
theorem mem_selectStream_of_le {filter : AuditStreamQuery} {last : Int}
    {table : List (LogRow Ts)} (hd : (table.map LogRow.id).Nodup) {row r : LogRow Ts}
    (hrow : row ∈ table) (hlast : last < row.id) (hm : filter.Matches row)
    (hr : r ∈ selectStream filter last table) (hle : row.id ≤ r.id) :
    row ∈ selectStream filter last table := by
  refine Sql.mem_select_of_le hd hrow ?_ hr hle
  simp only [streamCond, Sql.holds_and, Bool.and_eq_true, and_assoc, holds_facets]
  exact ⟨Sql.holds_lt.2 ⟨last, row.id, rfl, rfl, hlast⟩, hm⟩

namespace Stream

theorem poll_eq_some {s s' : Stream Ts} {pool : Except ε (List (LogRow Ts))}
    (h : s.poll pool = some s') : s.batch = [] ∧
      ((∃ table, pool = .ok table ∧ s' = { s with batch := selectStream s.filter s.last table }) ∨
        ((∃ e, pool = .error e) ∧ s' = s)) := by
  unfold poll at h
  split at h
  · next hb =>
    exact ⟨hb, Or.inl ⟨_, rfl, (Option.some.inj h).symm⟩⟩
  · next hb =>
    exact ⟨hb, Or.inr ⟨⟨_, rfl⟩, (Option.some.inj h).symm⟩⟩
  · simp at h

theorem next_eq_some {w : Wire Ts} {s s' : Stream Ts} (h : s.next w = some s') :
    ∃ row rest, s.batch = row :: rest ∧
      s' = { s with last := row.id, batch := rest, yielded := s.yielded ++ [eventOf w row] } := by
  unfold next at h
  split at h
  · simp at h
  · next row rest hb => exact ⟨row, rest, hb, (Option.some.inj h).symm⟩

/-- What a step of the generator does : a poll over an empty batch, a failed one, or
one row yielded. -/
theorem step_cases {w : Wire Ts} {committed : List (LogRow Ts)} {s s' : Stream Ts} {a : Act}
    (h : s.step w committed a = some s') :
    (a = .poll ∧ s.batch = [] ∧
        s' = { s with batch := selectStream s.filter s.last committed }) ∨
      (a = .pollFail ∧ s' = s) ∨
      ∃ row rest, a = .next ∧ s.batch = row :: rest ∧
        s' = { s with last := row.id, batch := rest, yielded := s.yielded ++ [eventOf w row] } := by
  cases a with
  | poll =>
    obtain ⟨hb, ⟨table, ht, rfl⟩ | ⟨⟨e, he⟩, -⟩⟩ := poll_eq_some h
    · obtain rfl := Except.ok.inj ht
      exact Or.inl ⟨rfl, hb, rfl⟩
    · simp at he
  | pollFail =>
    obtain ⟨-, ⟨table, ht, -⟩ | ⟨-, rfl⟩⟩ := poll_eq_some h
    · simp at ht
    · exact Or.inr (Or.inl ⟨rfl, rfl⟩)
  | next =>
    obtain ⟨row, rest, hb, rfl⟩ := next_eq_some h
    exact Or.inr (Or.inr ⟨row, rest, rfl, hb, rfl⟩)

/-- A connection keeps its filter and where it started. -/
theorem step_const {w : Wire Ts} {committed : List (LogRow Ts)} {s s' : Stream Ts} {a : Act}
    (h : s.step w committed a = some s') : s'.filter = s.filter ∧ s'.start = s.start := by
  obtain ⟨-, -, rfl⟩ | ⟨-, rfl⟩ | ⟨row, rest, -, -, rfl⟩ := step_cases h <;> exact ⟨rfl, rfl⟩

/-- What holds of a connection over the committed rows : its batch is matching
committed rows in id order above the cursor, and it has yielded `rows`, committed,
matching and in id order from `start` up to the cursor. -/
structure Ordered (w : Wire Ts) (committed : List (LogRow Ts)) (s : Stream Ts)
    (rows : List (LogRow Ts)) : Prop where
  yielded : s.yielded = rows.map (eventOf w)
  sorted : (rows ++ s.batch).Pairwise fun a b => a.id < b.id
  sound : ∀ r ∈ rows ++ s.batch, r ∈ committed ∧ s.filter.Matches r
  above : ∀ r ∈ rows, s.start < r.id
  upTo : ∀ r ∈ rows, r.id ≤ s.last
  ahead : ∀ r ∈ s.batch, s.last < r.id
  start_le : s.start ≤ s.last

theorem Ordered.open (w : Wire Ts) (committed : List (LogRow Ts)) (filter : AuditStreamQuery)
    (lastEventId : Option String) : Ordered w committed (streamLogs filter lastEventId) [] where
  yielded := rfl
  sorted := List.Pairwise.nil
  sound := by simp [streamLogs]
  above := by simp
  upTo := by simp
  ahead := by simp [streamLogs]
  start_le := le_refl _

/-- More committed rows leave a connection as it was. -/
theorem Ordered.mono {w : Wire Ts} {committed committed' : List (LogRow Ts)} {s : Stream Ts}
    {rows : List (LogRow Ts)} (h : Ordered w committed s rows)
    (hsub : ∀ r ∈ committed, r ∈ committed') : Ordered w committed' s rows :=
  { h with sound := fun r hr => ⟨hsub r (h.sound r hr).1, (h.sound r hr).2⟩ }

/-- A step of the generator yields fetched rows only, and only a poll fetches. -/
theorem Ordered.step {w : Wire Ts} {committed : List (LogRow Ts)} {s s' : Stream Ts} {a : Act}
    {rows : List (LogRow Ts)} (hd : (committed.map LogRow.id).Nodup)
    (h : Ordered w committed s rows) (hstep : s.step w committed a = some s') :
    ∃ new, Ordered w committed s' (rows ++ new) ∧
      ∀ r ∈ new ++ s'.batch,
        r ∈ s.batch ∨ a = .poll ∧ r ∈ selectStream s.filter s.last committed := by
  obtain ⟨ha, hb, rfl⟩ | ⟨-, rfl⟩ | ⟨row, rest, -, hb, rfl⟩ := step_cases hstep
  · have hrows : rows.Pairwise fun a b => a.id < b.id := by simpa [hb] using h.sorted
    have hsel : ∀ r ∈ selectStream s.filter s.last committed, _ := fun r => mem_selectStream
    refine ⟨[], ?_, fun r hr => Or.inr ⟨ha, hr⟩⟩
    rw [List.append_nil]
    refine { h with sorted := ?_, sound := ?_, ahead := fun r hr => (hsel r hr).2.1 }
    · refine List.pairwise_append.2 ⟨hrows, pairwise_selectStream _ _ hd, fun a ha b hbm => ?_⟩
      exact lt_of_le_of_lt (h.upTo a ha) (hsel b hbm).2.1
    · intro r hr
      rcases List.mem_append.1 hr with hr | hr
      · exact h.sound r (List.mem_append_left _ hr)
      · exact ⟨(hsel r hr).1, (hsel r hr).2.2⟩
  · exact ⟨[], by rwa [List.append_nil], fun r hr => Or.inl hr⟩
  · refine ⟨[row], ?_, fun r hr => Or.inl (by simpa [hb] using hr)⟩
    have hrow : s.last < row.id := h.ahead row (by simp [hb])
    have hsorted : ((rows ++ [row]) ++ rest).Pairwise fun a b => a.id < b.id := by
      simpa [hb] using h.sorted
    exact
      { yielded := by simp [h.yielded]
        sorted := hsorted
        sound := fun r hr => h.sound r (by simpa [hb] using hr)
        above := fun r hr => by
          rcases List.mem_append.1 hr with hr | hr
          · exact h.above r hr
          · rw [List.mem_singleton.1 hr]
            exact lt_of_le_of_lt h.start_le hrow
        upTo := fun r hr => by
          rcases List.mem_append.1 hr with hr | hr
          · exact (h.upTo r hr).trans hrow.le
          · rw [List.mem_singleton.1 hr]
        ahead := fun r hr =>
          (List.pairwise_append.1 hsorted).2.2 row (by simp) r hr
        start_le := h.start_le.trans hrow.le }

theorem Ordered.last_le_fetched {w : Wire Ts} {committed rows : List (LogRow Ts)} {s : Stream Ts}
    (h : Ordered w committed s rows) : s.last ≤ s.fetched := by
  unfold fetched
  cases hl : s.batch.getLast? with
  | none => exact le_refl _
  | some r => exact (h.ahead r (List.mem_of_getLast? hl)).le

/-- A poll covers the matching rows it fetches and those up to the cursor. -/
theorem le_fetched_poll {s : Stream Ts} {committed : List (LogRow Ts)}
    (hd : (committed.map LogRow.id).Nodup) {row : LogRow Ts} (hrow : row ∈ committed)
    (hm : s.filter.Matches row) :
    row.id ≤ ({ s with batch := selectStream s.filter s.last committed } : Stream Ts).fetched ↔
      row.id ≤ s.last ∨ row ∈ selectStream s.filter s.last committed := by
  simp only [fetched]
  cases hl : (selectStream s.filter s.last committed).getLast? with
  | none => simp [List.getLast?_eq_none_iff.1 hl]
  | some r =>
    simp only [Option.map_some, Option.getD_some]
    have hr := List.mem_of_getLast? hl
    refine ⟨fun hle => ?_, ?_⟩
    · rcases le_or_gt row.id s.last with hlast | hlast
      · exact Or.inl hlast
      · exact Or.inr (mem_selectStream_of_le hd hrow hlast hm hr hle)
    · rintro (hle | hmem)
      · exact hle.trans (mem_selectStream hr).2.1.le
      · obtain ⟨init, hinit⟩ := List.getLast?_eq_some_iff.1 hl
        have hsorted := pairwise_selectStream s.filter s.last hd
        rw [hinit] at hmem hsorted
        rcases List.mem_append.1 hmem with hmem | hmem
        · exact ((List.pairwise_append.1 hsorted).2.2 row hmem r (by simp)).le
        · rw [List.mem_singleton.1 hmem]

theorem fetched_of_batch_nil {s : Stream Ts} (h : s.batch = []) : s.fetched = s.last := by
  simp [fetched, h]

/-- Yielding a row fetches nothing. -/
theorem fetched_cons {s : Stream Ts} {row : LogRow Ts} {rest : List (LogRow Ts)} {es : List Event}
    (h : s.batch = row :: rest) :
    ({ s with last := row.id, batch := rest, yielded := es } : Stream Ts).fetched = s.fetched := by
  cases hl : rest.getLast? with
  | none =>
    obtain rfl := List.getLast?_eq_none_iff.1 hl
    simp [fetched, h]
  | some r => simp [fetched, h, hl, List.getLast?_cons]

end Stream

/-- Rows with the same event have the same id. -/
theorem id_eq_of_eventOf_eq {w : Wire Ts} {r r' : LogRow Ts} (h : eventOf w r = eventOf w r') :
    r.id = r'.id := by
  have hid := congrArg (fun e => Decimal.parseSigned e.id.toList) h
  simp only [eventOf, Decimal.parseSigned_toString] at hid
  exact Option.some.inj hid

/-! ## Writers and one connection -/

/-- The table and one connection over it. -/
structure Tail (Ts : Type*) where
  db : Db Ts
  stream : Stream Ts

namespace Tail

/-- A writer's step or the generator's. -/
inductive Act (Ts : Type*) where
  | db (a : Db.Act Ts)
  | stream (a : Stream.Act)

/-- One step of the table or of the connection. -/
def step (w : Wire Ts) (s : Tail Ts) : Act Ts → Option (Tail Ts)
  | .db a => (s.db.step a).map fun db => { s with db }
  | .stream a => (s.stream.step w s.db.committed a).map fun stream => { s with stream }

/-- The cursor has passed no matching row without yielding it. -/
def Lossless (w : Wire Ts) (s : Tail Ts) : Prop :=
  ∀ row ∈ s.db.committed, s.stream.filter.Matches row → s.stream.start < row.id →
    row.id ≤ s.stream.last → eventOf w row ∈ s.stream.yielded

/-- A matching row that commits is above every row the connection has fetched. -/
def CommitsAhead (s : Tail Ts) : Act Ts → Prop
  | .db (.commit i) => ∀ row, s.db.pending[i]? = some row → s.stream.filter.Matches row →
      s.stream.start < row.id → s.stream.fetched < row.id
  | _ => True

/-- Every matching row up to the last one fetched is fetched or yielded. -/
def Covered (w : Wire Ts) (s : Tail Ts) : Prop :=
  ∀ row ∈ s.db.committed, s.stream.filter.Matches row → s.stream.start < row.id →
    row.id ≤ s.stream.fetched → row ∈ s.stream.batch ∨ eventOf w row ∈ s.stream.yielded

/-- The connection is in order over its table. -/
def Ordered (w : Wire Ts) (s : Tail Ts) : Prop :=
  ∃ rows, s.stream.Ordered w s.db.committed rows

theorem step_cases {w : Wire Ts} {s s' : Tail Ts} {a : Act Ts} (h : step w s a = some s') :
    (∃ b db, a = .db b ∧ s.db.step b = some db ∧ s' = { s with db }) ∨
      ∃ b stream, a = .stream b ∧ s.stream.step w s.db.committed b = some stream ∧
        s' = { s with stream } := by
  cases a with
  | db b =>
    obtain ⟨db, hdb, rfl⟩ := Option.map_eq_some_iff.1 h
    exact Or.inl ⟨b, db, rfl, hdb, rfl⟩
  | stream b =>
    obtain ⟨stream, hst, rfl⟩ := Option.map_eq_some_iff.1 h
    exact Or.inr ⟨b, stream, rfl, hst, rfl⟩

theorem Ordered.step {w : Wire Ts} {s s' : Tail Ts} {a : Act Ts} (h : s.Ordered w)
    (hstep : Tail.step w s a = some s') : s'.Ordered w := by
  obtain ⟨rows, h⟩ := h
  obtain ⟨b, db, -, hdb, rfl⟩ | ⟨b, stream, -, hst, rfl⟩ := step_cases hstep
  · exact ⟨rows, h.mono fun r => Db.step_mono hdb⟩
  · obtain ⟨new, h', -⟩ := h.step s.db.nodup_committed hst
    exact ⟨_, h'⟩

/-- A row still being inserted is neither fetched nor yielded. -/
theorem Ordered.not_mem_of_pending {w : Wire Ts} {s : Tail Ts} (h : s.Ordered w) {row : LogRow Ts}
    (hrow : row ∈ s.db.pending) :
    row ∉ s.stream.batch ∧ eventOf w row ∉ s.stream.yielded := by
  obtain ⟨rows, h⟩ := h
  have hne : ∀ r ∈ rows ++ s.stream.batch, row.id ≠ r.id := fun r hr =>
    s.db.pending_id_ne hrow (h.sound r hr).1
  refine ⟨fun hm => hne row (List.mem_append_right _ hm) rfl, fun hm => ?_⟩
  rw [h.yielded] at hm
  obtain ⟨r, hr, heq⟩ := List.mem_map.1 hm
  exact hne r (List.mem_append_left _ hr) (id_eq_of_eventOf_eq heq).symm

/-- A step of a writer keeps every matching row covered exactly when it commits ahead. -/
theorem covered_db {w : Wire Ts} {s : Tail Ts} {b : Db.Act Ts} {db : Db Ts} (ho : s.Ordered w)
    (hdb : s.db.step b = some db) :
    ({ s with db } : Tail Ts).Covered w ↔ s.Covered w ∧ s.CommitsAhead (.db b) := by
  obtain ⟨hc, hb⟩ | ⟨i, row, rfl, hrow, hc⟩ := Db.step_cases hdb
  · have htrue : s.CommitsAhead (.db b) := by
      cases b with
      | commit i => exact absurd rfl (hb i)
      | _ => trivial
    simp only [Covered, hc, and_iff_left htrue]
  · obtain ⟨hbatch, hyielded⟩ := ho.not_mem_of_pending (List.mem_of_getElem? hrow)
    simp only [Covered, CommitsAhead, hc, hrow, List.forall_mem_cons, hbatch, hyielded,
      Option.some.injEq, forall_eq', or_self, imp_false, not_le]
    exact and_comm

/-- A step of the generator covers what was covered. -/
theorem covered_stream {w : Wire Ts} {s : Tail Ts} {b : Stream.Act} {stream : Stream Ts}
    (ho : s.Ordered w) (hst : s.stream.step w s.db.committed b = some stream) :
    ({ s with stream } : Tail Ts).Covered w ↔ s.Covered w := by
  obtain ⟨rows, h⟩ := ho
  obtain ⟨-, hb, rfl⟩ | ⟨-, rfl⟩ | ⟨head, rest, -, hb, rfl⟩ := Stream.step_cases hst
  · simp only [Covered, Stream.fetched_of_batch_nil hb, hb, List.not_mem_nil, false_or]
    refine forall₄_congr fun row hrow hm _ => ?_
    rw [Stream.le_fetched_poll s.db.nodup_committed hrow hm]
    refine ⟨fun hcov hle => ?_, ?_⟩
    · refine (hcov (Or.inl hle)).resolve_left fun hsel => ?_
      exact absurd hle (mem_selectStream hsel).2.1.not_ge
    · rintro hcov (hle | hsel)
      · exact Or.inr (hcov hle)
      · exact Or.inl hsel
  · exact Iff.rfl
  · have hevent : ∀ row ∈ s.db.committed, eventOf w row = eventOf w head ↔ row = head := by
      intro row hrow
      refine ⟨fun heq => ?_, fun heq => by rw [heq]⟩
      exact List.inj_on_of_nodup_map s.db.nodup_committed hrow
        (h.sound head (by simp [hb])).1 (id_eq_of_eventOf_eq heq)
    simp only [Covered, Stream.fetched_cons hb, hb]
    refine forall₂_congr fun row hrow => ?_
    -- the row moved from the batch to the yielded events, so either way it is there
    simp only [List.mem_append, hevent row hrow, List.mem_cons]
    grind

/-- A step keeps every matching row covered exactly when it commits ahead. -/
theorem covered_step {w : Wire Ts} {s s' : Tail Ts} {a : Act Ts} (ho : s.Ordered w)
    (hstep : Tail.step w s a = some s') : s'.Covered w ↔ s.Covered w ∧ s.CommitsAhead a := by
  obtain ⟨b, db, rfl, hdb, rfl⟩ | ⟨b, stream, rfl, hst, rfl⟩ := step_cases hstep
  · exact covered_db ho hdb
  · have htrue : s.CommitsAhead (.stream b) := trivial
    rw [and_iff_left htrue]
    exact covered_stream ho hst

/-- What is covered and no longer in the batch has been yielded. -/
theorem Covered.lossless {w : Wire Ts} {s : Tail Ts} (ho : s.Ordered w) (h : s.Covered w) :
    s.Lossless w := by
  obtain ⟨rows, ho⟩ := ho
  intro row hrow hm hstart hle
  refine (h row hrow hm hstart (hle.trans ho.last_le_fetched)).resolve_left fun hb => ?_
  exact absurd hle (ho.ahead row hb).not_ge

/-- With nothing left to yield, what the cursor has passed is covered. -/
theorem Lossless.covered {w : Wire Ts} {s : Tail Ts} (h : s.Lossless w)
    (hb : s.stream.batch = []) : s.Covered w := by
  intro row hrow hm hstart hle
  rw [Stream.fetched_of_batch_nil hb] at hle
  exact Or.inr (h row hrow hm hstart hle)

/-- A run keeps every matching row covered exactly when all of them commit ahead. -/
theorem always_covered_iff {w : Wire Ts} {s : Tail Ts} {as : List (Act Ts)} (ho : s.Ordered w)
    (hc : s.Covered w) :
    Runs.Always (Tail.step w) (fun t => t.Ordered w ∧ t.Covered w) s as ↔
      Runs.Along (Tail.step w) CommitsAhead s as := by
  refine Runs.always_iff_along (K := fun _ => True) (fun _ _ _ _ _ _ => trivial)
    (fun t a t' _ ht hstep => ?_) trivial ⟨ho, hc⟩
  rw [covered_step ht.1 hstep, and_iff_right ht.2, and_iff_right (ht.1.step hstep)]

/-- The loop yields what it has fetched, and reaches its next poll. -/
theorem exists_drain (w : Wire Ts) {s : Tail Ts} (ho : s.Ordered w) :
    ∃ n t, Runs.run (Tail.step w) s (List.replicate n (.stream .next)) = some t ∧
      t.stream.batch = [] ∧ t.Ordered w ∧ (t.Covered w ↔ s.Covered w) := by
  induction hb : s.stream.batch generalizing s with
  | nil => exact ⟨0, s, rfl, hb, ho, Iff.rfl⟩
  | cons row rest ih =>
    obtain ⟨s', hs', hrest⟩ : ∃ s', Tail.step w s (.stream .next) = some s' ∧
        s'.stream.batch = rest := by
      simp [Tail.step, Stream.step, Stream.next, hb]
    obtain ⟨n, t, hrun, hnil, ht, hcov⟩ := ih (ho.step hs') hrest
    refine ⟨n + 1, t, ?_, hnil, ht, hcov.trans ?_⟩
    · rw [List.replicate_succ, Runs.run_cons, hs']
      exact hrun
    · rw [covered_step ho hs']
      exact and_iff_left trivial

/-- One commit behind the rows already fetched and a matching row is passed over. -/
theorem exists_not_lossless (w : Wire Ts) {s s' : Tail Ts} {a : Act Ts} (ho : s.Ordered w)
    (hstep : Tail.step w s a = some s') (hlate : ¬ s.CommitsAhead a) :
    ∃ n t, Runs.run (Tail.step w) s' (List.replicate n (.stream .next)) = some t ∧
      ¬ t.Lossless w := by
  obtain ⟨n, t, hrun, hnil, -, hcov⟩ := exists_drain w (ho.step hstep)
  refine ⟨n, t, hrun, fun h => hlate ?_⟩
  exact ((covered_step ho hstep).1 (hcov.1 (h.covered hnil))).2

end Tail

/-- A connection just opened over any table. -/
def openTail (db : Db Ts) (filter : AuditStreamQuery) (lastEventId : Option String) : Tail Ts :=
  ⟨db, streamLogs filter lastEventId⟩

theorem openTail_ordered (w : Wire Ts) (db : Db Ts) (filter : AuditStreamQuery)
    (lastEventId : Option String) : (openTail db filter lastEventId).Ordered w :=
  ⟨[], Stream.Ordered.open w db.committed filter lastEventId⟩

theorem openTail_covered (w : Wire Ts) (db : Db Ts) (filter : AuditStreamQuery)
    (lastEventId : Option String) : (openTail db filter lastEventId).Covered w :=
  fun _ _ _ hlt hle => absurd hle (not_le_of_gt hlt)

/-- Where every matching row commits ahead of the rows fetched, the connection passes
none over. -/
theorem lossless_of_commitsAhead (w : Wire Ts) (db : Db Ts) (filter : AuditStreamQuery)
    (lastEventId : Option String) {as : List (Tail.Act Ts)}
    (h : Runs.Along (Tail.step w) Tail.CommitsAhead (openTail db filter lastEventId) as) :
    Runs.Always (Tail.step w) (Tail.Lossless w) (openTail db filter lastEventId) as :=
  ((Tail.always_covered_iff (openTail_ordered w db filter lastEventId)
    (openTail_covered w db filter lastEventId)).2 h).mono fun _ ht => ht.2.lossless ht.1

/-- A commit is that of the oldest open insert. -/
def Tail.CommitsInOrder (s : Tail Ts) : Tail.Act Ts → Prop
  | .db (.commit i) => ∀ row, s.db.pending[i]? = some row → ∀ q ∈ s.db.pending, row.id ≤ q.id
  | _ => True

/-- Nothing past the starting cursor is fetched but committed rows. -/
def Tail.Reached (s : Tail Ts) : Prop :=
  s.stream.fetched ≤ s.stream.start ∨ ∃ r ∈ s.db.committed, s.stream.fetched ≤ r.id

theorem Tail.Reached.step {w : Wire Ts} {s s' : Tail Ts} {a : Tail.Act Ts} (h : s.Reached)
    (hstep : Tail.step w s a = some s') : s'.Reached := by
  obtain ⟨b, db, -, hdb, rfl⟩ | ⟨b, stream, -, hst, rfl⟩ := Tail.step_cases hstep
  · exact h.imp_right fun ⟨r, hr, hle⟩ => ⟨r, Db.step_mono hdb hr, hle⟩
  · obtain ⟨-, hb, rfl⟩ | ⟨-, rfl⟩ | ⟨row, rest, -, hb, rfl⟩ := Stream.step_cases hst
    · cases hl : (selectStream s.stream.filter s.stream.last s.db.committed).getLast? with
      | none =>
        rw [Tail.Reached, Stream.fetched_of_batch_nil hb] at h
        simpa [Tail.Reached, Stream.fetched, hl] using h
      | some r =>
        refine Or.inr ⟨r, (mem_selectStream (List.mem_of_getLast? hl)).1, ?_⟩
        simp [Stream.fetched, hl]
    · exact h
    · rw [Tail.Reached, Stream.fetched_cons hb]
      exact h

/-- Newer open inserts commit ahead of what is fetched. -/
theorem Tail.Reached.commitsAhead {s : Tail Ts} (h : s.Reached) (hdb : s.db.InOrder)
    (a : Tail.Act Ts) : s.CommitsAhead a := by
  cases a with
  | db b =>
    cases b with
    | commit i =>
      intro row hrow _ hstart
      rcases h with hle | ⟨r, hr, hle⟩
      · exact hle.trans_lt hstart
      · exact hle.trans_lt (hdb r hr row (List.mem_of_getElem? hrow))
    | _ => trivial
  | stream b => trivial

theorem Tail.inOrder_step {w : Wire Ts} {s s' : Tail Ts} {a : Tail.Act Ts} (h : s.db.InOrder)
    (ha : s.CommitsInOrder a) (hstep : Tail.step w s a = some s') : s'.db.InOrder := by
  obtain ⟨b, db, rfl, hdb, rfl⟩ | ⟨b, stream, -, -, rfl⟩ := Tail.step_cases hstep
  · refine h.step hdb fun i row hb hrow => ?_
    subst hb
    exact ha row hrow
  · exact h

/-- Where inserts commit in the order of their ids, as with a single writer, the
connection passes no row over. -/
theorem lossless_of_commitsInOrder (w : Wire Ts) {db : Db Ts} (filter : AuditStreamQuery)
    (lastEventId : Option String) (hdb : db.InOrder) {as : List (Tail.Act Ts)}
    (h : Runs.Along (Tail.step w) Tail.CommitsInOrder (openTail db filter lastEventId) as) :
    Runs.Always (Tail.step w) (Tail.Lossless w) (openTail db filter lastEventId) as := by
  have hahead : Runs.Along (Tail.step w) Tail.CommitsAhead (openTail db filter lastEventId) as :=
    h.mono_of_invariant (I := fun s => s.db.InOrder ∧ s.Reached)
      (fun s a s' hi ha hstep =>
        ⟨hi.2.commitsAhead hi.1 a, Tail.inOrder_step hi.1 ha hstep, hi.2.step hstep⟩)
      ⟨hdb, Or.inl (le_refl _)⟩
  exact ((Tail.always_covered_iff (openTail_ordered w db filter lastEventId)
    (openTail_covered w db filter lastEventId)).2 hahead).mono fun _ ht => ht.2.lossless ht.1

/-- The insert of a login by `actorId`. -/
def loginInsert (actorId : String) : Db.Act String :=
  .begin ⟨"after_login", some actorId, none, none, none, none⟩ "2026-01-01T00:00:00Z"

/-- Two inserts overlap and commit out of the order of their ids, both before the poll. -/
theorem lossless_of_commitsAhead_outOfOrder :
    Runs.Always (Tail.step textWire) (Tail.Lossless textWire) (openTail Db.empty {} none)
      [.db (loginInsert "a"), .db (loginInsert "b"), .db (.commit 0), .db (.commit 0),
        .stream .poll, .stream .next, .stream .next] := by
  refine lossless_of_commitsAhead textWire Db.empty {} none ?_
  -- nothing is fetched when `b` commits, nor when `a` does
  refine .cons rfl trivial <| .cons rfl trivial <| .cons rfl (fun row hrow _ _ => ?_) <|
    .cons rfl (fun row hrow _ _ => ?_) <| .cons rfl trivial <| .cons rfl trivial <|
    .cons rfl trivial trivial
  · obtain rfl := Option.some.inj hrow
    decide
  · obtain rfl := Option.some.inj hrow
    decide

/-- The insert of `a` draws id 1 and that of `b` id 2. `b` commits and is yielded, then
`a` commits. -/
def lateCommit : List (Tail.Act String) :=
  [.db (loginInsert "a"), .db (loginInsert "b"), .db (.commit 0), .stream .poll,
    .stream .next, .db (.commit 0)]

theorem not_lossless_lateCommit :
    ¬ Runs.Always (Tail.step textWire) (Tail.Lossless textWire) (openTail Db.empty {} none)
      lateCommit := by
  intro h
  have hend := Runs.always_iff.1 h lateCommit _ (List.prefix_refl _) rfl
  have hlost := hend _ List.mem_cons_self (AuditStreamQuery.matches_default _) (by decide)
    (by decide)
  have hid := id_eq_of_eventOf_eq (List.mem_singleton.1 hlost)
  revert hid
  decide

end AuthExample
