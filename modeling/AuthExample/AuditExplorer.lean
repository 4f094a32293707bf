import AuthExample.AuditList
import AuthExample.EventSource

/-!
# The Audit Explorer

The page loads the newest rows once, newest first, and appends the rows of the live tail
to them. Each Live period opens its own `EventSource`, which starts without
`Last-Event-ID` and so is served from the oldest row again; the rows of earlier periods
stay.

The page runs here with its server : the table and its writers, the load, the stream and
its reconnections, and the Live toggle. `always_inOrder_iff` says which runs hand the
table its rows once each and oldest first.
-/

namespace AuthExample

variable {Ts : Type*}

/-- A load : none running, requested, or answered and not yet arrived. -/
inductive Load where
  | idle
  | requested
  | served (outcome : Except Unit AuditPage)

/-- The page and its server. `source` is the connection of the current Live period, and
`earlier` records the rows received when it opened. -/
structure AuditExplorer (Ts : Type*) where
  db : Db Ts
  live : Bool
  pageRows : List AuditRow
  loadError : Bool
  load : Load
  source : Option (EventSource Ts)
  tailRows : List AuditRow
  earlier : List AuditRow

namespace AuditExplorer

/-- The page just mounted : live, its load requested. -/
def mount (db : Db Ts) : AuditExplorer Ts where
  db := db
  live := true
  pageRows := []
  loadError := false
  load := .requested
  source := some (EventSource.open {})
  tailRows := []
  earlier := []

/-- The rows handed to the table. -/
def rows (p : AuditExplorer Ts) : List AuditRow := p.pageRows ++ p.tailRows

/-- The server answers `fetchAuditPage({ limit: 50 })`, or the request fails. -/
def serve (w : Wire Ts) (p : AuditExplorer Ts) (ok : Bool) : Option (AuditExplorer Ts) :=
  match p.load with
  | .requested =>
    let outcome := if ok then
        (listLogs w (.ok p.db.committed : Except Unit _) { limit := 50 }).mapError fun _ => ()
      else .error ()
    some { p with load := .served outcome }
  | _ => none

/-- The answer arrives. -/
def loaded (p : AuditExplorer Ts) : Option (AuditExplorer Ts) :=
  match p.load with
  | .served (.ok page) => some { p with pageRows := page.data, load := .idle }
  | .served (.error ()) => some { p with loadError := true, load := .idle }
  | _ => none

/-- Load again, from the button a failed load shows. -/
def retry (p : AuditExplorer Ts) : Option (AuditExplorer Ts) :=
  if p.loadError then some { p with loadError := false, load := .requested } else none

/-- Turn Live off, which closes the stream, or on, which opens another. -/
def toggleLive (p : AuditExplorer Ts) : AuditExplorer Ts :=
  if p.live then { p with live := false, source := none, earlier := p.tailRows }
  else { p with live := true, source := some (EventSource.open {}) }

/-- The stream's message handler. Malformed frames are ignored. -/
def onMessage (p : AuditExplorer Ts) (event : Event) : AuditExplorer Ts :=
  match AuditRow.ofJson event.data with
  | some row => { p with tailRows := p.tailRows ++ [row] }
  | none => p

/-- A step of the open stream. An event that arrives is handled. -/
def streamed (w : Wire Ts) (p : AuditExplorer Ts) (a : EventSource.Act) :
    Option (AuditExplorer Ts) :=
  match p.source with
  | none => none
  | some c =>
    (c.step w p.db.committed a).map fun c' =>
      let p' := { p with source := some c' }
      match a, c.stream.yielded[c.seen]? with
      | .recv, some event => p'.onMessage event
      | _, _ => p'

/-- What can happen. -/
inductive Act (Ts : Type*) where
  | db (a : Db.Act Ts)
  | serve (ok : Bool)
  | loaded
  | retry
  | toggleLive
  | source (a : EventSource.Act)

/-- One step of the page or of its server. -/
def step (w : Wire Ts) (p : AuditExplorer Ts) : Act Ts → Option (AuditExplorer Ts)
  | .db a => (p.db.step a).map fun db => { p with db }
  | .serve ok => p.serve w ok
  | .loaded => p.loaded
  | .retry => p.retry
  | .toggleLive => some p.toggleLive
  | .source a => p.streamed w a

/-! ## The order of the rows -/

/-- The table is handed each row once, oldest first. -/
def InOrder (p : AuditExplorer Ts) : Prop := p.rows.Pairwise fun a b => a.id < b.id

/-- The row of the next event the stream brings in. -/
def nextRow (p : AuditExplorer Ts) : Option AuditRow :=
  p.source.bind fun c => c.stream.yielded[c.seen]?.bind fun event => AuditRow.ofJson event.data

/-- A page that arrives holds at most one row, older than every row of the stream; a row
that arrives on the stream is newer than every row of the page and of earlier Live
periods. -/
def ArrivesInOrder (p : AuditExplorer Ts) : Act Ts → Prop
  | .loaded => ∀ page, p.load = .served (.ok page) →
      page.data.length ≤ 1 ∧ ∀ r ∈ page.data, ∀ t ∈ p.tailRows, r.id < t.id
  | .source .recv =>
    ∀ row, p.nextRow = some row → ∀ r ∈ p.pageRows ++ p.earlier, r.id < row.id
  | _ => True

/-- The rows of a list of events. -/
def rowsOf (events : List Event) : List AuditRow :=
  events.filterMap fun event => AuditRow.ofJson event.data

theorem rowsOf_map_eventOf (w : Wire Ts) (rows : List (LogRow Ts)) :
    rowsOf (rows.map (eventOf w)) = rows.map (auditRow w) := by
  simp only [rowsOf, List.filterMap_map, Function.comp_def, eventOf, AuditRow.ofJson_toJson,
    List.filterMap_eq_map']

/-- A connection's rows arrive oldest first. -/
theorem pairwise_rowsOf {w : Wire Ts} {committed old rows : List (LogRow Ts)}
    {c : EventSource Ts} (h : c.Ordered w committed old rows) :
    (rowsOf c.received).Pairwise fun a b => a.id < b.id := by
  rw [h.received, rowsOf_map_eventOf, List.pairwise_map]
  exact h.pairwise

/-- What holds of the page in every run : an answered page is newest first, and the rows
received since the period opened are those of its connection. -/
structure Merged (w : Wire Ts) (p : AuditExplorer Ts) : Prop where
  load : ∀ page, p.load = .served (.ok page) → Keyset.Descending AuditRow.id page.data
  closed : p.source = none → p.tailRows = p.earlier
  opened : ∀ c, p.source = some c → p.tailRows = p.earlier ++ rowsOf c.received ∧
    ∃ old rows, c.Ordered w p.db.committed old rows
  live : p.live = p.source.isSome

theorem Merged.mount (w : Wire Ts) (db : Db Ts) : Merged w (mount db) where
  load := nofun
  closed := nofun
  opened := by
    intro c hc
    obtain rfl := Option.some.inj hc
    exact ⟨rfl, [], [], EventSource.Ordered.open w db.committed {}⟩
  live := rfl

/-- A step of the open stream, and the event it brings in. -/
theorem streamed_cases {w : Wire Ts} {p p' : AuditExplorer Ts} {a : EventSource.Act}
    (h : p.streamed w a = some p') : ∃ c c', p.source = some c ∧
      c.step w p.db.committed a = some c' ∧
        ((a ≠ .recv ∧ c'.received = c.received ∧ p' = { p with source := some c' }) ∨
          ∃ event, a = .recv ∧ c.stream.yielded[c.seen]? = some event ∧
            c'.received = c.received ++ [event] ∧
            p' = { p with source := some c' }.onMessage event) := by
  unfold streamed at h
  split at h
  · simp at h
  · next c hc =>
    obtain ⟨c', hstep, rfl⟩ := Option.map_eq_some_iff.1 h
    refine ⟨c, c', hc, hstep, ?_⟩
    obtain ⟨b, stream, rfl, -, rfl⟩ | ⟨event, rfl, hevent, rfl⟩ | ⟨rfl, rfl⟩ :=
      EventSource.step_cases hstep
    · exact Or.inl ⟨by simp, rfl, rfl⟩
    · exact Or.inr ⟨event, rfl, hevent, rfl, by simp [hevent]⟩
    · exact Or.inl ⟨by simp, rfl, rfl⟩

theorem serve_eq_some {w : Wire Ts} {p p' : AuditExplorer Ts} {ok : Bool}
    (h : p.serve w ok = some p') : ∃ outcome, p' = { p with load := .served outcome } ∧
      ∀ page, outcome = .ok page → Keyset.Descending AuditRow.id page.data := by
  unfold serve at h
  split at h
  · refine ⟨_, (Option.some.inj h).symm, fun page hpage => ?_⟩
    split_ifs at hpage
    cases hlist : (listLogs w (.ok p.db.committed : Except Unit _) { limit := 50 }) with
    | error e => simp [hlist, Except.mapError] at hpage
    | ok page' =>
      rw [hlist] at hpage
      obtain rfl := Except.ok.inj hpage
      exact descending_listLogs p.db.nodup_committed hlist
  · simp at h

theorem loaded_eq_some {p p' : AuditExplorer Ts} (h : p.loaded = some p') :
    (∃ page, p.load = .served (.ok page) ∧ p' = { p with pageRows := page.data, load := .idle }) ∨
      (∀ page, p.load ≠ .served (.ok page)) ∧ p' = { p with loadError := true, load := .idle } := by
  unfold loaded at h
  split at h
  · next page hload => exact Or.inl ⟨page, hload, (Option.some.inj h).symm⟩
  · next hload => exact Or.inr ⟨by simp [hload], (Option.some.inj h).symm⟩
  · simp at h

theorem retry_eq_some {p p' : AuditExplorer Ts} (h : p.retry = some p') :
    p' = { p with loadError := false, load := .requested } := by
  unfold retry at h
  split_ifs at h
  exact (Option.some.inj h).symm

/-- A handled event adds the row it carries. -/
theorem onMessage_eq {p : AuditExplorer Ts} (event : Event) :
    p.onMessage event = { p with tailRows := p.tailRows ++ rowsOf [event] } := by
  unfold onMessage
  cases hrow : AuditRow.ofJson event.data <;> simp [rowsOf, hrow]

/-- A step of the open stream keeps the page merged. -/
theorem Merged.streamed {w : Wire Ts} {p p' : AuditExplorer Ts} {a : EventSource.Act}
    (h : Merged w p) (hstep : p.streamed w a = some p') : Merged w p' := by
  obtain ⟨c, c', hc, hsource, hp'⟩ := streamed_cases hstep
  obtain ⟨htail, old, rows, ho⟩ := h.opened c hc
  obtain ⟨old', rows', ho', -⟩ := ho.step hsource
  have hopened : ∀ tailRows, tailRows = p.earlier ++ rowsOf c'.received → ∀ d, some c' = some d →
      tailRows = p.earlier ++ rowsOf d.received ∧
        ∃ old rows, d.Ordered w p.db.committed old rows := by
    rintro _ rfl d hd
    obtain rfl := Option.some.inj hd
    exact ⟨rfl, old', rows', ho'⟩
  have hlive : p.live = true := by simpa [hc] using h.live
  obtain ⟨-, hreceived, rfl⟩ | ⟨event, -, -, hreceived, rfl⟩ := hp'
  · refine { load := h.load, closed := by simp, opened := hopened _ ?_, live := hlive }
    rw [hreceived]
    exact htail
  · rw [onMessage_eq]
    refine { load := h.load, closed := by simp, opened := hopened _ ?_, live := hlive }
    show p.tailRows ++ rowsOf [event] = _
    rw [hreceived, htail, rowsOf, rowsOf, rowsOf, List.filterMap_append, List.append_assoc]

/-- Every step keeps the page merged. -/
theorem Merged.step {w : Wire Ts} {p p' : AuditExplorer Ts} {a : Act Ts} (h : Merged w p)
    (hstep : AuditExplorer.step w p a = some p') : Merged w p' := by
  cases a with
  | db a =>
    obtain ⟨db, hdb, rfl⟩ := Option.map_eq_some_iff.1 hstep
    refine { h with opened := fun c hc => ?_ }
    obtain ⟨htail, old, rows, ho⟩ := h.opened c hc
    exact ⟨htail, old, rows, ho.mono fun r => Db.step_mono hdb⟩
  | serve ok =>
    obtain ⟨outcome, rfl, hdesc⟩ := serve_eq_some hstep
    exact { h with load := fun page hpage => hdesc page (Load.served.inj hpage) }
  | loaded =>
    obtain ⟨page, -, rfl⟩ | ⟨-, rfl⟩ := loaded_eq_some hstep <;>
      exact { h with load := by simp }
  | retry =>
    obtain rfl := retry_eq_some hstep
    exact { h with load := by simp }
  | toggleLive =>
    obtain rfl := Option.some.inj hstep
    unfold toggleLive
    split_ifs with hlive
    · exact { h with closed := fun _ => rfl, opened := by simp, live := rfl }
    · have hnone : p.source = none := by simpa [hlive] using h.live.symm
      refine { h with closed := by simp, opened := fun c hc => ?_, live := rfl }
      obtain rfl := Option.some.inj hc
      refine ⟨?_, [], [], EventSource.Ordered.open w p.db.committed {}⟩
      simpa [EventSource.open, rowsOf] using h.closed hnone
  | source a => exact h.streamed hstep

/-- A page that arrives keeps the rows in order exactly when it arrives in order. -/
theorem inOrder_loaded {w : Wire Ts} {p : AuditExplorer Ts} {page : AuditPage} (hm : Merged w p)
    (hi : p.InOrder) (hload : p.load = .served (.ok page)) :
    ({ p with pageRows := page.data, load := .idle } : AuditExplorer Ts).InOrder ↔
      page.data.length ≤ 1 ∧ ∀ r ∈ page.data, ∀ t ∈ p.tailRows, r.id < t.id := by
  have htail : p.tailRows.Pairwise fun a b => a.id < b.id := (List.pairwise_append.1 hi).2.1
  rw [InOrder, rows, List.pairwise_append, (hm.load page hload).ascending_iff, and_iff_right htail]

/-- A row that arrives on the stream keeps the rows in order exactly when it is newer
than the page and the earlier periods : it is newer than the rest of its own. -/
theorem inOrder_recv {w : Wire Ts} {p : AuditExplorer Ts} {c c' : EventSource Ts} {event : Event}
    {row : AuditRow} (hm : Merged w p) (hi : p.InOrder) (hc : p.source = some c)
    (hsource : c.step w p.db.committed .recv = some c')
    (hreceived : c'.received = c.received ++ [event])
    (hrow : AuditRow.ofJson event.data = some row) :
    (p.rows ++ [row]).Pairwise (fun a b => a.id < b.id) ↔
      ∀ r ∈ p.pageRows ++ p.earlier, r.id < row.id := by
  obtain ⟨htail, old, rows, ho⟩ := hm.opened c hc
  obtain ⟨old', rows', ho', -⟩ := ho.step hsource
  have hown : ∀ r ∈ rowsOf c.received, r.id < row.id := by
    have hsorted := pairwise_rowsOf ho'
    rw [hreceived, rowsOf, List.filterMap_append] at hsorted
    exact fun r hr => (List.pairwise_append.1 hsorted).2.2 r hr row (by simp [hrow])
  unfold InOrder at hi
  rw [List.pairwise_append, and_iff_right hi, and_iff_right (List.pairwise_singleton _ _),
    AuditExplorer.rows, htail, ← List.append_assoc]
  refine ⟨fun h r hr => h r (List.mem_append_left _ hr) row (List.mem_singleton.2 rfl), ?_⟩
  intro h r hr r' hr'
  rw [List.mem_singleton.1 hr']
  rcases List.mem_append.1 hr with hr | hr
  · exact h r hr
  · exact hown r hr

/-- A step of the open stream keeps the rows in order exactly when its row arrives in
order. -/
theorem inOrder_streamed {w : Wire Ts} {p p' : AuditExplorer Ts} {a : EventSource.Act}
    (hm : Merged w p) (hi : p.InOrder) (hstep : p.streamed w a = some p') :
    p'.InOrder ↔ p.ArrivesInOrder (.source a) := by
  obtain ⟨c, c', hc, hsource, ⟨ha, -, rfl⟩ | ⟨event, rfl, hevent, hreceived, rfl⟩⟩ :=
    streamed_cases hstep
  · refine iff_of_true hi ?_
    cases a with
    | recv => exact absurd rfl ha
    | _ => trivial
  · have hnext : p.nextRow = AuditRow.ofJson event.data := by simp [nextRow, hc, hevent]
    rw [onMessage_eq]
    simp only [ArrivesInOrder, hnext]
    cases hrow : AuditRow.ofJson event.data with
    | none =>
      have hnil : rowsOf [event] = [] := by simp [rowsOf, hrow]
      refine iff_of_true ?_ nofun
      simpa only [InOrder, rows, hnil, List.append_nil] using hi
    | some row =>
      have hone : rowsOf [event] = [row] := by simp [rowsOf, hrow]
      have harrives := inOrder_recv hm hi hc hsource hreceived hrow
      rw [rows, List.append_assoc] at harrives
      simp only [InOrder, rows, hone, harrives, Option.some.injEq, forall_eq']

/-- A step keeps the rows in order exactly when it brings them in in order. -/
theorem inOrder_step {w : Wire Ts} {p p' : AuditExplorer Ts} {a : Act Ts} (hm : Merged w p)
    (hi : p.InOrder) (hstep : AuditExplorer.step w p a = some p') :
    p'.InOrder ↔ p.ArrivesInOrder a := by
  cases a with
  | db a =>
    obtain ⟨db, -, rfl⟩ := Option.map_eq_some_iff.1 hstep
    exact iff_of_true hi trivial
  | serve ok =>
    obtain ⟨outcome, rfl, -⟩ := serve_eq_some hstep
    exact iff_of_true hi trivial
  | loaded =>
    obtain ⟨page, hload, rfl⟩ | ⟨hload, rfl⟩ := loaded_eq_some hstep
    · rw [inOrder_loaded hm hi hload]
      simp [ArrivesInOrder, hload]
    · exact iff_of_true hi fun page hpage => absurd hpage (hload page)
  | retry =>
    obtain rfl := retry_eq_some hstep
    exact iff_of_true hi trivial
  | toggleLive =>
    obtain rfl := Option.some.inj hstep
    refine iff_of_true ?_ trivial
    unfold toggleLive
    split_ifs <;> exact hi
  | source a => exact inOrder_streamed hm hi hstep

/-- A run of the page hands the table each row once, oldest first, exactly when its pages
and its stream rows all arrive in order. -/
theorem always_inOrder_iff (w : Wire Ts) (db : Db Ts) (as : List (Act Ts)) :
    Runs.Always (AuditExplorer.step w) InOrder (mount db) as ↔
      Runs.Along (AuditExplorer.step w) ArrivesInOrder (mount db) as :=
  Runs.always_iff_along (K := Merged w) (fun _ _ _ hm _ hstep => hm.step hstep)
    (fun _ _ _ hm hi hstep => inOrder_step hm hi hstep) (Merged.mount w db) List.Pairwise.nil

/-- One row is logged, loaded with the page, and served again by the stream. -/
def loadedAndStreamed : List (Act String) :=
  [.db (loginInsert "a"), .db (.commit 0), .serve true, .loaded, .source (.server .poll),
    .source (.server .next), .source .recv]

theorem not_always_inOrder :
    ¬ Runs.Always (AuditExplorer.step textWire) InOrder (mount Db.empty) loadedAndStreamed := by
  intro h
  have hend := Runs.always_iff.1 h loadedAndStreamed _ (List.prefix_refl _) rfl
  have hlt := List.rel_of_pairwise_cons hend (List.mem_singleton.2 rfl)
  revert hlt
  decide

end AuditExplorer

end AuthExample
