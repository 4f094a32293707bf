import AuthExample.EventSource
import AuthExample.Feed

/-!
# A tail delivers a log

With inserts that commit in the order of their ids, as those of a single writer do, the
matching committed rows are a log that grows at its end, and a client of the live tail is a
reader of it. `received_refines_feed` : through drops, reconnections, failed polls and
writers, what the client has received is an initial part of that log, each event once.
`catches_up` : from any state its connection still delivers the rest.
-/

namespace AuthExample

variable {Ts : Type*}

instance (q : AuditStreamQuery) (row : LogRow Ts) : Decidable (q.Matches row) :=
  decidable_of_iff _ holds_facets

/-- The committed rows that match, oldest first. -/
def Db.matching (filter : AuditStreamQuery) (db : Db Ts) : List (LogRow Ts) :=
  Sql.orderBy (· ≤ ·) LogRow.id (db.committed.filter fun row => filter.Matches row)

theorem Db.mem_matching {filter : AuditStreamQuery} {db : Db Ts} {row : LogRow Ts} :
    row ∈ db.matching filter ↔ row ∈ db.committed ∧ filter.Matches row := by
  simp [Db.matching]

theorem Db.matching_sorted (filter : AuditStreamQuery) (db : Db Ts) :
    (db.matching filter).Pairwise fun a b => a.id < b.id :=
  Sql.pairwise_orderBy_asc (db.nodup_committed.sublist (List.filter_sublist.map _))

/-- A matching row newer than the others is appended. -/
theorem Db.matching_append (filter : AuditStreamQuery) {db db' : Db Ts} {row : LogRow Ts}
    (hc : db'.committed = row :: db.committed) (hnew : ∀ r ∈ db.committed, r.id < row.id) :
    db'.matching filter = db.matching filter ++ if filter.Matches row then [row] else [] := by
  refine List.Perm.eq_of_pairwise (fun a b _ _ hab hba => absurd hab hba.asymm)
    (db'.matching_sorted filter) ?_ ?_
  · refine List.pairwise_append.2 ⟨db.matching_sorted filter, by split_ifs <;> simp, ?_⟩
    intro a ha b hb
    split_ifs at hb with hm
    · rw [List.mem_singleton.1 hb]
      exact hnew a (Db.mem_matching.1 ha).1
    · simp at hb
  · have hperm : (db.committed.filter fun r => filter.Matches r).Perm (db.matching filter) :=
      (Sql.perm_orderBy (· ≤ ·) LogRow.id _).symm
    refine (Sql.perm_orderBy (· ≤ ·) LogRow.id _).trans ?_
    rw [hc]
    by_cases hm : filter.Matches row
    · simp only [List.filter_cons, hm, decide_true, if_true]
      exact (hperm.cons row).trans (List.perm_append_singleton row _).symm
    · simpa only [List.filter_cons, hm, decide_false, Bool.false_eq_true, if_false,
        List.append_nil] using hperm

namespace Client

/-- The table and the client's current connection. -/
def tail (s : Client Ts) : Tail Ts := ⟨s.db, s.source.stream⟩

/-- A commit is that of the oldest open insert. -/
def CommitsInOrder (s : Client Ts) : Act Ts → Prop
  | .db a => s.tail.CommitsInOrder (.db a)
  | .source _ => True

instance (s : Client Ts) (a : Act Ts) : Decidable (s.CommitsInOrder a) :=
  match a with
  | .db (.commit i) =>
    decidable_of_iff (∀ row ∈ s.db.pending[i]?.toList, ∀ q ∈ s.db.pending, row.id ≤ q.id)
      (by simp [CommitsInOrder, Tail.CommitsInOrder, tail])
  | .db (.begin ..) | .db (.rollback _) | .source _ => isTrue trivial

/-! ## No gap -/

/-- What holds of a client that has passed no row over : its current connection has passed
none, and what matches up to where that one started is received. -/
structure Gapless (w : Wire Ts) (s : Client Ts) : Prop where
  ordered : ∃ old rows, s.source.Ordered w s.db.committed old rows
  covered : s.tail.Covered w
  behind : ∀ row ∈ s.db.committed, s.source.filter.Matches row → row.id ≤ s.source.stream.start →
    eventOf w row ∈ s.source.received

variable {w : Wire Ts} {s s' : Client Ts} {old rows : List (LogRow Ts)}

/-- A committed row whose event is that of a row read is that row. -/
theorem mem_of_eventOf_mem {rs : List (LogRow Ts)} {row : LogRow Ts}
    (hrs : ∀ r ∈ rs, r ∈ s.db.committed) (hrow : row ∈ s.db.committed)
    (h : eventOf w row ∈ rs.map (eventOf w)) : row ∈ rs := by
  obtain ⟨r, hr, heq⟩ := List.mem_map.1 h
  have hid := id_eq_of_eventOf_eq heq
  rwa [← List.inj_on_of_nodup_map s.db.nodup_committed (hrs r hr) hrow hid]

section

variable (h : s.Gapless w) (ho : s.source.Ordered w s.db.committed old rows) {row : LogRow Ts}
  (hrow : row ∈ s.db.committed) (hm : s.source.filter.Matches row)
include h ho hrow hm

theorem Gapless.mem_old (hle : row.id ≤ s.source.stream.start) : row ∈ old := by
  have hmem := h.behind row hrow hm hle
  rw [ho.received] at hmem
  have hmem := mem_of_eventOf_mem (fun r hr => (ho.sound_take r hr).1) hrow hmem
  refine (List.mem_append.1 hmem).resolve_right fun hr => ?_
  exact absurd hle (ho.stream.above row (List.mem_of_mem_take hr)).not_ge

/-- The matching rows up to the last one fetched are received, yielded or fetched. -/
theorem Gapless.mem_of_le_fetched (hle : row.id ≤ s.source.stream.fetched) :
    row ∈ old ∨ row ∈ rows ∨ row ∈ s.source.stream.batch := by
  rcases le_or_gt row.id s.source.stream.start with hstart | hstart
  · exact Or.inl (h.mem_old ho hrow hm hstart)
  have hm' : s.source.stream.filter.Matches row := by rwa [ho.filter]
  refine Or.inr ((h.covered row hrow hm' hstart hle).symm.imp_left fun hy => ?_)
  have hrows : ∀ r ∈ rows, r ∈ s.db.committed := fun r hr =>
    (ho.stream.sound r (List.mem_append_left _ hr)).1
  refine mem_of_eventOf_mem (w := w) hrows hrow ?_
  rw [← ho.stream.yielded]
  exact hy

/-- A matching row below one received is received. -/
theorem Gapless.mem_received_of_le {r : LogRow Ts} (hr : r ∈ old ++ rows.take s.source.seen)
    (hle : row.id ≤ r.id) : row ∈ old ++ rows.take s.source.seen := by
  rcases le_or_gt row.id s.source.stream.start with hstart | hstart
  · exact List.mem_append_left _ (h.mem_old ho hrow hm hstart)
  have hr : r ∈ rows.take s.source.seen := (List.mem_append.1 hr).resolve_left fun hold =>
    absurd (hle.trans (ho.upTo r hold)) hstart.not_ge
  have hlast : r.id ≤ s.source.stream.last := ho.stream.upTo r (List.mem_of_mem_take hr)
  have hfetched := (hle.trans hlast).trans ho.stream.last_le_fetched
  rcases h.mem_of_le_fetched ho hrow hm hfetched with hmem | hmem | hmem
  · exact List.mem_append_left _ hmem
  · refine List.mem_append_right _ ?_
    have hsorted := (List.pairwise_append.1 ho.stream.sorted).1
    rw [← List.take_append_drop s.source.seen rows] at hmem hsorted
    refine (List.mem_append.1 hmem).resolve_right fun hdrop => ?_
    -- the rows yielded and not yet received are above those received
    exact absurd hle ((List.pairwise_append.1 hsorted).2.2 r hr row hdrop).not_ge
  · exact absurd (hle.trans hlast) (ho.stream.ahead row hmem).not_ge

end

/-- The rows received are the first that match. -/
theorem Gapless.isPrefix (h : s.Gapless w)
    (ho : s.source.Ordered w s.db.committed old rows) :
    old ++ rows.take s.source.seen <+: s.db.matching s.source.filter :=
  Feed.isPrefix_of_lower ho.pairwise (s.db.matching_sorted _)
    (fun r hr => Db.mem_matching.2 (ho.sound_take r hr))
    fun _ hr _ hrow hle =>
      h.mem_received_of_le ho (Db.mem_matching.1 hrow).1 (Db.mem_matching.1 hrow).2 hr hle

theorem Gapless.exists_received (h : s.Gapless w) :
    ∃ l, l <+: s.db.matching s.source.filter ∧ s.source.received = l.map (eventOf w) := by
  obtain ⟨old, rows, ho⟩ := h.ordered
  exact ⟨_, h.isPrefix ho, ho.received⟩

/-- A reconnection passes no row over : the next connection starts at the last row received. -/
theorem Gapless.reconnect (h : s.Gapless w) :
    Gapless w { s with source := s.source.reconnect } := by
  obtain ⟨old, rows, ho⟩ := h.ordered
  refine ⟨⟨_, [], ho.reconnect⟩,
    openTail_covered w s.db s.source.filter s.source.lastEventId, fun row hrow hm hle => ?_⟩
  have hstart : s.source.reconnect.stream.start =
      ((old ++ rows.take s.source.seen).getLast?.map LogRow.id).getD 0 :=
    ho.startCursor_lastEventId
  show eventOf w row ∈ s.source.received
  rw [hstart] at hle
  rw [ho.received]
  refine List.mem_map_of_mem ?_
  cases hl : (old ++ rows.take s.source.seen).getLast? with
  | none =>
    have hpos := (s.db.id_bounds hrow).1
    simp only [hl, Option.map_none, Option.getD_none] at hle
    omega
  | some r =>
    simp only [hl, Option.map_some, Option.getD_some] at hle
    exact h.mem_received_of_le ho hrow hm (List.mem_of_getLast? hl) hle

/-- Every step of the client passes no row over. -/
theorem Gapless.source {a : EventSource.Act} {source : EventSource Ts} (h : s.Gapless w)
    (hstep : s.source.step w s.db.committed a = some source) :
    Gapless w { s with source } := by
  obtain ⟨old, rows, ho⟩ := h.ordered
  obtain ⟨old', rows', ho', -⟩ := ho.step hstep
  obtain ⟨b, stream, rfl, hst, rfl⟩ | ⟨e, rfl, -, rfl⟩ | ⟨rfl, rfl⟩ :=
    EventSource.step_cases hstep
  · refine ⟨⟨old', rows', ho'⟩, ?_, fun row hrow hm hle => ?_⟩
    · exact (Tail.covered_stream (s := s.tail) ⟨rows, ho.stream⟩ hst).2 h.covered
    · exact h.behind row hrow hm (hle.trans_eq (Stream.step_const hst).2)
  · exact ⟨⟨old', rows', ho'⟩, h.covered, fun row hrow hm hle =>
      List.mem_append_left _ (h.behind row hrow hm hle)⟩
  · exact h.reconnect

/-! ## The log -/

/-- What holds of a client while inserts commit in order : it passes no row over, and its
cursor is behind every open insert. -/
structure Tailing (w : Wire Ts) (filter : AuditStreamQuery) (s : Client Ts)
    (f : Feed (LogRow Ts)) : Prop where
  sameFilter : s.source.filter = filter
  gapless : s.Gapless w
  inOrder : s.db.InOrder
  reached : s.tail.Reached
  started : s.source.stream.start ≤ 0 ∨ ∃ r ∈ s.db.committed, s.source.stream.start ≤ r.id
  entries : f.entries = s.db.matching filter
  read : f.read = s.source.received.length

variable {filter : AuditStreamQuery} {f : Feed (LogRow Ts)}

theorem Tailing.open (w : Wire Ts) (filter : AuditStreamQuery) {db : Db Ts} (hdb : db.InOrder) :
    Tailing w filter (Client.open db filter) (Feed.ofEntries (db.matching filter)) where
  sameFilter := rfl
  gapless := by
    refine ⟨⟨[], [], EventSource.Ordered.open w db.committed filter⟩,
      openTail_covered w db filter none, fun row hrow _ hle => ?_⟩
    have hpos := (db.id_bounds hrow).1
    have hle : row.id ≤ 0 := hle
    omega
  inOrder := hdb
  reached := Or.inl (le_refl _)
  started := Or.inl (le_refl _)
  entries := rfl
  read := rfl

/-- What was delivered is what the client has received. -/
theorem Tailing.received (h : Tailing w filter s f) :
    s.source.received = f.delivered.map (eventOf w) := by
  obtain ⟨l, hl, hr⟩ := h.gapless.exists_received
  rw [h.sameFilter, ← h.entries] at hl
  rw [hr, Feed.delivered_eq hl (by rw [h.read, hr, List.length_map])]

/-- An insert starts or rolls back, and the log is as it was. -/
theorem Tailing.db {b : Db.Act Ts} {db : Db Ts} (h : Tailing w filter s f)
    (hdb : s.db.step b = some db) (hc : db.committed = s.db.committed)
    (hb : ∀ i, b ≠ .commit i) : Tailing w filter { s with db } f := by
  obtain ⟨old, rows, ho⟩ := h.gapless.ordered
  have hstep : Tail.step w s.tail (.db b) = some ⟨db, s.source.stream⟩ := by
    simp only [Tail.step, tail, hdb, Option.map_some]
  refine ⟨h.sameFilter, ⟨⟨old, rows, ho.mono fun r => Db.step_mono hdb⟩, ?_, ?_⟩, ?_,
    h.reached.step hstep, ?_, ?_, h.read⟩
  · have hcov := h.gapless.covered
    simpa only [Tail.Covered, tail, hc] using hcov
  · simpa only [hc] using h.gapless.behind
  · exact h.inOrder.step hdb fun i row hi _ => absurd hi (hb i)
  · simpa only [hc] using h.started
  · rw [h.entries, Db.matching, Db.matching, hc]

/-- The oldest open insert commits, and its row is appended to the log if it matches. -/
theorem Tailing.commit {i : ℕ} {row : LogRow Ts} {db : Db Ts} (h : Tailing w filter s f)
    (hdb : s.db.step (.commit i) = some db) (hrow : s.db.pending[i]? = some row)
    (hc : db.committed = row :: s.db.committed)
    (holdest : s.tail.CommitsInOrder (.db (.commit i))) :
    ∃ bs f', Runs.run Feed.step f bs = some f' ∧ Tailing w filter { s with db } f' := by
  obtain ⟨old, rows, ho⟩ := h.gapless.ordered
  have hpending := List.mem_of_getElem? hrow
  have hnew : ∀ r ∈ s.db.committed, r.id < row.id := fun r hr => h.inOrder r hr row hpending
  have hstart : s.source.stream.start < row.id := by
    rcases h.started with hle | ⟨r, hr, hle⟩
    · have hpos := (s.db.drawn row (List.mem_append_left _ hpending)).1
      omega
    · exact hle.trans_lt (hnew r hr)
  have hstep : Tail.step w s.tail (.db (.commit i)) = some ⟨db, s.source.stream⟩ := by
    simp only [Tail.step, tail, hdb, Option.map_some]
  have hsub : ∀ r ∈ s.db.committed, r ∈ db.committed := fun r => Db.step_mono hdb
  have htailing : ∀ f' : Feed (LogRow Ts), f'.entries = db.matching filter → f'.read = f.read →
      Tailing w filter { s with db } f' := fun f' he hr =>
    { sameFilter := h.sameFilter
      gapless :=
        { ordered := ⟨old, rows, ho.mono hsub⟩
          covered := (Tail.covered_step ⟨rows, ho.stream⟩ hstep).2
            ⟨h.gapless.covered, h.reached.commitsAhead h.inOrder _⟩
          behind := fun r hr hm hle => by
            rw [hc] at hr
            rcases List.mem_cons.1 hr with rfl | hr
            · exact absurd hle hstart.not_ge
            · exact h.gapless.behind r hr hm hle }
      inOrder := Tail.inOrder_step (s := s.tail) h.inOrder holdest hstep
      reached := h.reached.step hstep
      started := h.started.imp_right (Exists.imp fun r hr => ⟨hsub r hr.1, hr.2⟩)
      entries := he
      read := hr.trans h.read }
  have happend := Db.matching_append filter hc hnew
  split_ifs at happend
  · refine ⟨[.append row], _, rfl, htailing _ ?_ rfl⟩
    rw [happend, ← h.entries]
  · refine ⟨[], f, rfl, htailing f ?_ rfl⟩
    rw [happend, List.append_nil, h.entries]

/-- A step of the client reads the next entry of the log, or none. -/
theorem Tailing.source {a : EventSource.Act} {source : EventSource Ts}
    (h : Tailing w filter s f) (hstep : s.source.step w s.db.committed a = some source) :
    ∃ bs f', Runs.run Feed.step f bs = some f' ∧ Tailing w filter { s with source } f' := by
  have hgapless := h.gapless.source hstep
  have hfilter := (EventSource.step_filter hstep).trans h.sameFilter
  obtain ⟨b, stream, rfl, hst, rfl⟩ | ⟨e, rfl, -, rfl⟩ | ⟨rfl, rfl⟩ :=
    EventSource.step_cases hstep
  · have htail : Tail.step w s.tail (.stream b) = some ⟨s.db, stream⟩ := by
      simp only [Tail.step, tail, hst, Option.map_some]
    have hstart := (Stream.step_const hst).2
    refine ⟨[], f, rfl, hfilter, hgapless, h.inOrder, h.reached.step htail, ?_, h.entries, h.read⟩
    simpa only [hstart] using h.started
  · obtain ⟨l, hl, hr⟩ := hgapless.exists_received
    have hlen : l.length = f.read + 1 := by
      have hsnoc := congrArg List.length hr
      rw [List.length_append, List.length_singleton, List.length_map] at hsnoc
      rw [h.read, hsnoc]
    have hlt : f.read < f.entries.length := by
      have := hl.length_le
      rw [show (s.source.filter) = filter from h.sameFilter, ← h.entries] at this
      omega
    refine ⟨[.read], { f with read := f.read + 1, read_le := hlt }, ?_,
      hfilter, hgapless, h.inOrder, h.reached, h.started, h.entries, ?_⟩
    · simp only [Runs.run_cons, Feed.step, dif_pos hlt]
      rfl
    · simp [h.read]
  · obtain ⟨old, rows, ho⟩ := h.gapless.ordered
    refine ⟨[], f, rfl, hfilter, hgapless, h.inOrder, Or.inl (le_refl _), ?_, h.entries, h.read⟩
    have hstart : s.source.reconnect.stream.start =
        ((old ++ rows.take s.source.seen).getLast?.map LogRow.id).getD 0 :=
      ho.startCursor_lastEventId
    rw [hstart]
    cases hl : (old ++ rows.take s.source.seen).getLast? with
    | none => exact Or.inl (le_refl _)
    | some r => exact Or.inr ⟨r, (ho.sound_take r (List.mem_of_getLast? hl)).1, le_refl _⟩

/-- One step of the table or of the client is a step of the log and its reader, or none. -/
theorem Tailing.step {a : Act Ts} (h : Tailing w filter s f) (ha : s.CommitsInOrder a)
    (hstep : Client.step w s a = some s') :
    ∃ bs f', Runs.run Feed.step f bs = some f' ∧ Tailing w filter s' f' := by
  obtain ⟨b, db, rfl, hdb, rfl⟩ | ⟨b, source, rfl, hsrc, rfl⟩ := step_cases hstep
  · obtain ⟨hc, hb⟩ | ⟨i, row, rfl, hrow, hc⟩ := Db.step_cases hdb
    · exact ⟨[], f, rfl, h.db hdb hc hb⟩
    · exact h.commit hdb hrow hc ha
  · exact h.source hsrc

/-- Where inserts commit in the order of their ids, a run of the table and a client, its
connections cut anywhere, is a run of a log and a reader of it : the log is the matching
committed rows, oldest first, and what the client has received is the events of what the
reader has been given. -/
theorem received_refines_feed {db : Db Ts} (hdb : db.InOrder) {as : List (Act Ts)}
    (hord : Runs.Along (Client.step w) CommitsInOrder (Client.open db filter) as)
    (hrun : Runs.run (Client.step w) (Client.open db filter) as = some s) :
    ∃ bs f, Runs.run Feed.step (Feed.ofEntries (db.matching filter)) bs = some f ∧
      f.entries = s.db.matching filter ∧ s.source.received = f.delivered.map (eventOf w) := by
  obtain ⟨bs, f, hbs, hf⟩ := Runs.run_simulates (R := Tailing w filter)
    (fun s t a s' h ha hstep => h.step ha hstep) (Tailing.open w filter hdb) hord hrun
  exact ⟨bs, f, hbs, hf.entries, hf.received⟩

/-! ## Catching up -/

/-- A step of the connection : the generator's, or an event that arrives. -/
def OfConnection (a : Act Ts) : Prop := ∃ b, a = .source b ∧ b ≠ .reconnect

/-- Nothing is on its way : every fetched row is yielded and every yielded event received,
and a poll would fetch nothing. -/
def Quiet (s : Client Ts) : Prop :=
  s.source.seen = s.source.stream.yielded.length ∧ s.source.stream.batch = [] ∧
    selectStream s.source.stream.filter s.source.stream.last s.db.committed = []

/-- A poll fetches something where a matching row is above the cursor. -/
theorem selectStream_ne_nil {filter : AuditStreamQuery} {last : Int} {table : List (LogRow Ts)}
    {row : LogRow Ts} (hrow : row ∈ table) (hlast : last < row.id) (hm : filter.Matches row) :
    selectStream filter last table ≠ [] := by
  have hc : Sql.holds (streamCond filter last row) = true := by
    simp only [streamCond, Sql.holds_and, Bool.and_eq_true, and_assoc, holds_facets]
    exact ⟨Sql.holds_lt.2 ⟨last, row.id, rfl, rfl, hlast⟩, hm⟩
  have hmem : row ∈ Sql.orderBy (· ≤ ·) LogRow.id
      (table.filter fun r => Sql.holds (streamCond filter last r)) := by
    simp [hrow, hc]
  simp [selectStream, Sql.select, streamBatch, List.ne_nil_of_mem hmem]

/-- With nothing on its way, all that matches is received. -/
theorem Gapless.received_of_quiet (h : s.Gapless w) (hq : s.Quiet) :
    s.source.received = (s.db.matching s.source.filter).map (eventOf w) := by
  obtain ⟨old, rows, ho⟩ := h.ordered
  obtain ⟨hseen, hbatch, hpoll⟩ := hq
  have hrows : rows.take s.source.seen = rows := by
    rw [hseen, ho.stream.yielded, List.length_map, List.take_length]
  have hprefix := h.isPrefix ho
  rw [ho.received]
  rw [hrows] at hprefix ⊢
  obtain ⟨rest, hrest⟩ := hprefix
  cases rest with
  | nil => rw [← hrest, List.append_nil]
  | cons row rest =>
    -- a row not received is above the cursor, so the next poll would fetch it
    obtain ⟨hrow, hm⟩ : row ∈ s.db.committed ∧ s.source.filter.Matches row :=
      Db.mem_matching.1 (hrest ▸ List.mem_append_right _ List.mem_cons_self)
    have hnot : row ∉ old ++ rows := fun hmem => by
      have hsorted := s.db.matching_sorted s.source.filter
      rw [← hrest] at hsorted
      exact lt_irrefl _ ((List.pairwise_append.1 hsorted).2.2 row hmem row List.mem_cons_self)
    rw [List.mem_append, not_or] at hnot
    have hfetched : s.source.stream.last < row.id := by
      rw [← Stream.fetched_of_batch_nil hbatch]
      refine lt_of_not_ge fun hle => ?_
      rcases h.mem_of_le_fetched ho hrow hm hle with hmem | hmem | hmem
      · exact hnot.1 hmem
      · exact hnot.2 hmem
      · rw [hbatch] at hmem
        cases hmem
    exact absurd hpoll (selectStream_ne_nil hrow hfetched (by rwa [ho.filter]))

/-- From `s`, steps of the connection alone lead to `t`. -/
def Leads (w : Wire Ts) (s t : Client Ts) : Prop :=
  ∃ bs : List (Act Ts), (∀ b ∈ bs, OfConnection b) ∧ Runs.run (Client.step w) s bs = some t

theorem Leads.trans {t u : Client Ts} (h : Leads w s t) (h' : Leads w t u) : Leads w s u := by
  obtain ⟨bs, hbs, hrun⟩ := h
  obtain ⟨cs, hcs, hrun'⟩ := h'
  refine ⟨bs ++ cs, fun b hb => (List.mem_append.1 hb).elim (hbs b) (hcs b), ?_⟩
  rw [Runs.run_append, hrun]
  exact hrun'

theorem Leads.one {a : EventSource.Act} {source : EventSource Ts}
    (hstep : s.source.step w s.db.committed a = some source) (ha : a ≠ .reconnect) :
    Leads w s { s with source } := by
  refine ⟨[.source a], fun b hb => ?_, ?_⟩
  · rw [List.mem_singleton.1 hb]
    exact ⟨a, rfl, ha⟩
  · simp only [Runs.run_cons, Client.step, hstep, Option.map_some]
    rfl

/-- What is yielded is received, what is fetched is yielded. -/
theorem exists_leads_recv (h : s.Gapless w)
    (hlt : s.source.seen < s.source.stream.yielded.length) :
    ∃ source, Leads w s { s with source } ∧ source.filter = s.source.filter ∧
      Gapless w { s with source } ∧ s.source.received.length < source.received.length := by
  have hstep : s.source.step w s.db.committed .recv = some { s.source with
      seen := s.source.seen + 1
      received := s.source.received ++ [s.source.stream.yielded[s.source.seen]] } := by
    simp only [EventSource.step, EventSource.recv, List.getElem?_eq_getElem hlt, Option.map_some]
  refine ⟨_, .one hstep (by simp), rfl, h.source hstep, ?_⟩
  simp

theorem exists_leads_next (h : s.Gapless w)
    (hseen : s.source.seen ≤ s.source.stream.yielded.length)
    (hbatch : s.source.stream.batch ≠ []) :
    ∃ source, Leads w s { s with source } ∧ source.filter = s.source.filter ∧
      Gapless w { s with source } ∧ s.source.received.length < source.received.length := by
  obtain ⟨row, rest, hb⟩ := List.exists_cons_of_ne_nil hbatch
  have hstep : s.source.step w s.db.committed (.server .next) = some { s.source with
      stream := { s.source.stream with
        last := row.id, batch := rest
        yielded := s.source.stream.yielded ++ [eventOf w row] } } := by
    simp only [EventSource.step, Stream.step, Stream.next, hb, Option.map_some]
  obtain ⟨source, hlead, hfilter, hgapless, hlt⟩ :=
    exists_leads_recv (h.source hstep) (by simpa using Nat.lt_succ_of_le hseen)
  exact ⟨source, (Leads.one hstep (by simp)).trans hlead, hfilter, hgapless, hlt⟩

/-- Where something is on its way, an event more is received. -/
theorem exists_leads (h : s.Gapless w) (hq : ¬ s.Quiet) :
    ∃ source, Leads w s { s with source } ∧ source.filter = s.source.filter ∧
      Gapless w { s with source } ∧ s.source.received.length < source.received.length := by
  obtain ⟨old, rows, ho⟩ := h.ordered
  have hseen : s.source.seen ≤ s.source.stream.yielded.length := by
    rw [ho.stream.yielded, List.length_map]
    exact ho.seen_le
  rcases hseen.lt_or_eq with hlt | heq
  · exact exists_leads_recv h hlt
  rcases eq_or_ne s.source.stream.batch [] with hbatch | hbatch
  · have hpoll : s.source.step w s.db.committed (.server .poll) = some { s.source with
        stream := { s.source.stream with
          batch := selectStream s.source.stream.filter s.source.stream.last s.db.committed } } := by
      simp only [EventSource.step, Stream.step, Stream.poll, hbatch, Option.map_some]
    obtain ⟨source, hlead, hfilter, hgapless, hlt⟩ :=
      exists_leads_next (h.source hpoll) hseen fun hnil => hq ⟨heq, hbatch, hnil⟩
    exact ⟨source, (Leads.one hpoll (by simp)).trans hlead, hfilter, hgapless, hlt⟩
  · exact exists_leads_next h hseen hbatch

/-- Steps of the connection bring it to where nothing is on its way. -/
theorem exists_quiet (h : s.Gapless w) :
    ∃ source, Leads w s { s with source } ∧ source.filter = s.source.filter ∧
      Gapless w { s with source } ∧ Quiet { s with source } := by
  -- each event more is one less to receive of those that match
  induction hn : (s.db.matching s.source.filter).length - s.source.received.length using
    Nat.strong_induction_on generalizing s with
  | _ n ih =>
    by_cases hq : s.Quiet
    · exact ⟨s.source, ⟨[], by simp, rfl⟩, rfl, h, hq⟩
    obtain ⟨source, hlead, hfilter, hgapless, hlt⟩ := exists_leads h hq
    have hle : source.received.length ≤ (s.db.matching s.source.filter).length := by
      obtain ⟨l, hl, hr⟩ := hgapless.exists_received
      rw [hr, List.length_map, ← hfilter]
      exact hl.length_le
    have hdec : (s.db.matching source.filter).length - source.received.length < n := by
      rw [hfilter]
      omega
    obtain ⟨source', hlead', hfilter', hgapless', hquiet⟩ := ih _ hdec hgapless rfl
    exact ⟨source', hlead.trans hlead', hfilter'.trans hfilter, hgapless', hquiet⟩

/-- After any run whose inserts commit in the order of their ids : the client has received
every matching row once nothing is on its way, and the steps of its connection bring it
there, if it is not cut again. -/
theorem catches_up {db : Db Ts} (hdb : db.InOrder) {as : List (Act Ts)}
    (hord : Runs.Along (Client.step w) CommitsInOrder (Client.open db filter) as)
    (hrun : Runs.run (Client.step w) (Client.open db filter) as = some s) :
    (s.Quiet → s.source.received = (s.db.matching filter).map (eventOf w)) ∧
      ∃ bs t, (∀ b ∈ bs, OfConnection b) ∧ Runs.run (Client.step w) s bs = some t ∧
        t.db = s.db ∧ t.Quiet ∧
        t.source.received = (s.db.matching filter).map (eventOf w) := by
  obtain ⟨_, f, -, hf⟩ := Runs.run_simulates (R := Tailing w filter)
    (fun s t a s' h ha hstep => h.step ha hstep) (Tailing.open w filter hdb) hord hrun
  obtain ⟨source, ⟨bs, hbs, hrun'⟩, hfilter, hgapless, hquiet⟩ := exists_quiet hf.gapless
  refine ⟨fun hq => ?_, bs, _, hbs, hrun', rfl, hquiet, ?_⟩
  · rw [hf.gapless.received_of_quiet hq, hf.sameFilter]
  · rw [← hf.sameFilter, ← hfilter]
    exact hgapless.received_of_quiet hquiet

/-- The first insert is received, the connection drops with a second row fetched, and a third
insert is open. -/
def dropsThenCommits : List (Act String) :=
  [.db (loginInsert "a"), .db (.commit 0), .source (.server .poll), .source (.server .next),
    .source .recv, .db (loginInsert "b"), .db (.commit 0), .source (.server .poll),
    .source .reconnect, .source (.server .pollFail), .db (loginInsert "c")]

theorem received_refines_feed_dropsThenCommits :
    ∃ s bs f, Runs.run (step textWire) (Client.open Db.empty {}) dropsThenCommits = some s ∧
      Runs.run Feed.step (Feed.ofEntries []) bs = some f ∧ f.entries.map LogRow.id = [1, 2] ∧
      s.source.received = f.delivered.map (eventOf textWire) := by
  have hrun : Runs.run (step textWire) (Client.open Db.empty {}) dropsThenCommits = some _ := rfl
  obtain ⟨bs, f, hbs, he, hr⟩ :=
    received_refines_feed (fun _ h => by cases h) (by decide) hrun
  exact ⟨_, bs, f, hrun, hbs, by rw [he]; rfl, hr⟩

theorem catches_up_dropsThenCommits :
    ∃ s bs t, Runs.run (step textWire) (Client.open Db.empty {}) dropsThenCommits = some s ∧
      (∀ b ∈ bs, OfConnection b) ∧ Runs.run (step textWire) s bs = some t ∧
      s.source.received.length = 1 ∧ t.source.received.length = 2 := by
  have hrun : Runs.run (step textWire) (Client.open Db.empty {}) dropsThenCommits = some _ := rfl
  obtain ⟨-, bs, t, hbs, hrun', -, -, hr⟩ := catches_up (fun _ h => by cases h) (by decide) hrun
  exact ⟨_, bs, t, hrun, hbs, hrun', rfl, by rw [hr]; rfl⟩

end Client

end AuthExample
