import AuthExample.Decimal
import AuthExample.Json
import AuthExample.Sql
import Mathlib.Data.List.Perm.Basic

/-!
# The audit log

The `audit_log` table, the facets its two readers filter by, and the row they put on
the wire.

`id` is a `BIGSERIAL` : the sequence hands out the next id when an insert starts, and
the row is visible once that insert commits. A `Db` is the sequence with the open and
the committed inserts, and carries the primary key and the sequence's bound on every
id. Inserts commit, or roll back, in any order.
-/

namespace AuthExample

/-- A row of `audit_log`, `metadata` being the selected `metadata::text`. -/
structure LogRow (Ts : Type*) where
  id : Int
  tenantId : Option String
  actorId : Option String
  actorEmail : Option String
  event : String
  ip : Option String
  userAgent : Option String
  metadata : Option String
  createdAt : Ts
  deriving DecidableEq

/-- The columns an insert binds. The others take their defaults. -/
structure NewRow where
  event : String
  actorId : Option String
  actorEmail : Option String
  tenantId : Option String
  ip : Option String
  userAgent : Option String
  deriving DecidableEq

variable {Ts : Type*}

/-- The inserted row : `id` from the sequence, no metadata, `created_at` now. -/
def NewRow.toRow (new : NewRow) (id : Int) (now : Ts) : LogRow Ts where
  id := id
  tenantId := new.tenantId
  actorId := new.actorId
  actorEmail := new.actorEmail
  event := new.event
  ip := new.ip
  userAgent := new.userAgent
  metadata := none
  createdAt := now

/-! ## Facets -/

/-- `AuditStreamQuery` : the optional facets of the live tail, mirroring the listing. -/
structure AuditStreamQuery where
  actor : Option String := none
  event : Option String := none
  tenantId : Option String := none

/-- `$2::text IS NULL OR actor_id = $2 OR actor_email = $2`. -/
def actorCond (actor : Option String) (row : LogRow Ts) : Sql.Cond :=
  Sql.or (Sql.or (Sql.isNull actor) (Sql.eq row.actorId actor)) (Sql.eq row.actorEmail actor)

/-- `$3::text IS NULL OR event = $3`. -/
def eventCond (event : Option String) (row : LogRow Ts) : Sql.Cond :=
  Sql.or (Sql.isNull event) (Sql.eq (some row.event) event)

/-- `$4::text IS NULL OR tenant_id = $4`. -/
def tenantCond (tenantId : Option String) (row : LogRow Ts) : Sql.Cond :=
  Sql.or (Sql.isNull tenantId) (Sql.eq row.tenantId tenantId)

/-- A row matches the facets : it has each value that is asked for. -/
structure AuditStreamQuery.Matches (q : AuditStreamQuery) (row : LogRow Ts) : Prop where
  actor : ∀ a, q.actor = some a → row.actorId = some a ∨ row.actorEmail = some a
  event : ∀ e, q.event = some e → row.event = e
  tenantId : ∀ t, q.tenantId = some t → row.tenantId = some t

/-- No facet asks for anything. -/
theorem AuditStreamQuery.matches_default (row : LogRow Ts) :
    ({} : AuditStreamQuery).Matches row :=
  ⟨nofun, nofun, nofun⟩

theorem holds_actorCond {actor : Option String} {row : LogRow Ts} :
    Sql.holds (actorCond actor row) = true ↔
      ∀ a, actor = some a → row.actorId = some a ∨ row.actorEmail = some a := by
  cases actor <;> simp [actorCond, Sql.holds_eq]

theorem holds_eventCond {event : Option String} {row : LogRow Ts} :
    Sql.holds (eventCond event row) = true ↔ ∀ e, event = some e → row.event = e := by
  cases event with
  | none => simp [eventCond]
  | some e => simp [eventCond]

theorem holds_tenantCond {tenantId : Option String} {row : LogRow Ts} :
    Sql.holds (tenantCond tenantId row) = true ↔
      ∀ t, tenantId = some t → row.tenantId = some t := by
  cases tenantId <;> simp [tenantCond, Sql.holds_eq]

/-- The three facet conditions hold of a row exactly when it matches. -/
theorem holds_facets {q : AuditStreamQuery} {row : LogRow Ts} :
    (Sql.holds (actorCond q.actor row) = true ∧ Sql.holds (eventCond q.event row) = true ∧
      Sql.holds (tenantCond q.tenantId row) = true) ↔ q.Matches row := by
  rw [holds_actorCond, holds_eventCond, holds_tenantCond]
  exact ⟨fun ⟨ha, he, ht⟩ => ⟨ha, he, ht⟩, fun h => ⟨h.actor, h.event, h.tenantId⟩⟩

/-! ## Rows on the wire -/

/-- What the handlers use of their formatting crates : `ts.format(&Rfc3339)` and
`serde_json::from_str`, `none` where they fail. -/
structure Wire (Ts : Type*) where
  rfc3339 : Ts → Option String
  fromStr : String → Option Json

/-- Timestamps kept as their RFC 3339 text, and no metadata to parse. -/
def textWire : Wire String := ⟨some, fun _ => none⟩

/-- `AuditRow` : one masked audit row on the wire. The browser reads it back as its
`AuditLogRow`. -/
structure AuditRow where
  id : Int
  event : String
  actor : String
  tenantId : Option String
  ip : Option String
  createdAt : String
  details : Json

/-- The actor email, else the actor id, else the `system` sentinel. -/
def actorDisplay (actorEmail actorId : Option String) : String :=
  (actorEmail.or actorId).getD "system"

/-- The `metadata` column as JSON, an empty object when absent or unparseable. -/
def detailsOf (w : Wire Ts) (metadata : Option String) : Json :=
  (metadata.bind w.fromStr).getD (.obj [])

/-- An RFC 3339 timestamp, empty when it does not format. -/
def formatTs (w : Wire Ts) (ts : Ts) : String :=
  (w.rfc3339 ts).getD ""

/-- The wire row both readers build from a selected row. -/
def auditRow (w : Wire Ts) (row : LogRow Ts) : AuditRow where
  id := row.id
  event := row.event
  actor := actorDisplay row.actorEmail row.actorId
  tenantId := row.tenantId
  ip := row.ip
  createdAt := formatTs w row.createdAt
  details := detailsOf w row.metadata

@[simp] theorem auditRow_id (w : Wire Ts) (row : LogRow Ts) : (auditRow w row).id = row.id := rfl

/-- `Serialize` with camel-case members. -/
def AuditRow.toJson (r : AuditRow) : Json :=
  .obj [("id", .ofInt r.id), ("event", .str r.event), ("actor", .str r.actor),
    ("tenantId", .ofOptStr r.tenantId), ("ip", .ofOptStr r.ip), ("createdAt", .str r.createdAt),
    ("details", r.details)]

/-- The wire row a JSON value holds. -/
def AuditRow.ofJson (v : Json) : Option AuditRow := do
  let id ← (← v.get? "id").int?
  let event ← (← v.get? "event").str?
  let actor ← (← v.get? "actor").str?
  let tenantId ← (← v.get? "tenantId").optStr?
  let ip ← (← v.get? "ip").optStr?
  let createdAt ← (← v.get? "createdAt").str?
  let details ← v.get? "details"
  return { id, event, actor, tenantId, ip, createdAt, details }

/-- A wire row reads back as itself. -/
theorem AuditRow.ofJson_toJson (r : AuditRow) : AuditRow.ofJson r.toJson = some r := by
  simp [AuditRow.ofJson, AuditRow.toJson, Json.get?, List.lookup_cons, Json.str?]

/-! ## The table -/

/-- The sequence behind `id`, the open inserts and the committed rows. -/
structure Db (Ts : Type*) where
  nextId : Int
  pending : List (LogRow Ts)
  committed : List (LogRow Ts)
  /-- `PRIMARY KEY`. -/
  primaryKey : ((pending ++ committed).map LogRow.id).Nodup
  /-- Every id came from the sequence. -/
  drawn : ∀ r ∈ pending ++ committed, 1 ≤ r.id ∧ r.id < nextId
  /-- The sequence stops at the last `BIGINT`. -/
  bounded : 1 ≤ nextId ∧ nextId ≤ Decimal.i64Max + 1

namespace Db

/-- The table just created. -/
def empty : Db Ts where
  nextId := 1
  pending := []
  committed := []
  primaryKey := List.nodup_nil
  drawn := by simp
  bounded := by decide

/-- An insert starts and draws its id. An exhausted sequence refuses it. -/
def begin (db : Db Ts) (new : NewRow) (now : Ts) : Option (Db Ts) :=
  if h : db.nextId ≤ Decimal.i64Max then
    some
      { nextId := db.nextId + 1
        pending := new.toRow db.nextId now :: db.pending
        committed := db.committed
        primaryKey := by
          refine List.nodup_cons.2 ⟨fun hmem => ?_, db.primaryKey⟩
          obtain ⟨r, hr, hid⟩ := List.mem_map.1 hmem
          have := (db.drawn r hr).2
          simp only [NewRow.toRow] at hid
          omega
        drawn := by
          intro r hr
          have hb := db.bounded.1
          rcases List.mem_cons.1 hr with rfl | hr
          · simp only [NewRow.toRow]
            omega
          · have := db.drawn r hr
            omega
        bounded := by
          have := db.bounded.1
          omega }
  else none

/-- The open insert at `i` ends, its row put first among the rest. -/
theorem perm_eraseIdx (db : Db Ts) {i : ℕ} {row : LogRow Ts} (h : db.pending[i]? = some row) :
    (row :: db.pending.eraseIdx i).Perm db.pending := by
  obtain ⟨hi, rfl⟩ := List.getElem?_eq_some_iff.1 h
  exact List.getElem_cons_eraseIdx_perm hi

/-- The open insert at `i` commits and its row becomes visible. -/
def commit (db : Db Ts) (i : ℕ) : Option (Db Ts) :=
  match h : db.pending[i]? with
  | none => none
  | some row =>
    have hp : (db.pending.eraseIdx i ++ row :: db.committed).Perm (db.pending ++ db.committed) :=
      List.perm_middle.trans ((db.perm_eraseIdx h).append_right _)
    some
      { nextId := db.nextId
        pending := db.pending.eraseIdx i
        committed := row :: db.committed
        primaryKey := (hp.map LogRow.id).nodup_iff.2 db.primaryKey
        drawn := fun r hr => db.drawn r (hp.mem_iff.1 hr)
        bounded := db.bounded }

/-- The open insert at `i` fails. Its id is not drawn again. -/
def rollback (db : Db Ts) (i : ℕ) : Option (Db Ts) :=
  if i < db.pending.length then
    have hs : (db.pending.eraseIdx i ++ db.committed).Sublist (db.pending ++ db.committed) :=
      (List.eraseIdx_sublist ..).append (List.Sublist.refl _)
    some
      { nextId := db.nextId
        pending := db.pending.eraseIdx i
        committed := db.committed
        primaryKey := db.primaryKey.sublist (hs.map LogRow.id)
        drawn := fun r hr => db.drawn r (hs.subset hr)
        bounded := db.bounded }
  else none

theorem begin_eq_some {db db' : Db Ts} {new : NewRow} {now : Ts}
    (h : db.begin new now = some db') :
    db'.pending = new.toRow db.nextId now :: db.pending ∧ db'.committed = db.committed := by
  unfold begin at h
  split_ifs at h
  obtain rfl := Option.some.inj h
  exact ⟨rfl, rfl⟩

theorem commit_eq_some {db db' : Db Ts} {i : ℕ} (h : db.commit i = some db') :
    ∃ row, db.pending[i]? = some row ∧ db'.pending = db.pending.eraseIdx i ∧
      db'.committed = row :: db.committed := by
  unfold commit at h
  split at h
  · simp at h
  · next row hrow =>
    obtain rfl := Option.some.inj h
    exact ⟨row, hrow, rfl, rfl⟩

theorem rollback_eq_some {db db' : Db Ts} {i : ℕ} (h : db.rollback i = some db') :
    db'.pending = db.pending.eraseIdx i ∧ db'.committed = db.committed := by
  unfold rollback at h
  split_ifs at h
  obtain rfl := Option.some.inj h
  exact ⟨rfl, rfl⟩

/-- What can happen to an insert. -/
inductive Act (Ts : Type*) where
  | begin (new : NewRow) (now : Ts)
  | commit (i : ℕ)
  | rollback (i : ℕ)

/-- One step of the table. -/
def step (db : Db Ts) : Act Ts → Option (Db Ts)
  | .begin new now => db.begin new now
  | .commit i => db.commit i
  | .rollback i => db.rollback i

/-- A step keeps the committed rows, and adds the one that commits. -/
theorem step_cases {db db' : Db Ts} {a : Act Ts} (h : db.step a = some db') :
    db'.committed = db.committed ∧ (∀ i, a ≠ .commit i) ∨
      ∃ i row, a = .commit i ∧ db.pending[i]? = some row ∧
        db'.committed = row :: db.committed := by
  cases a with
  | begin new now => exact Or.inl ⟨(begin_eq_some h).2, by simp⟩
  | commit i =>
    obtain ⟨row, hrow, -, hc⟩ := commit_eq_some h
    exact Or.inr ⟨i, row, rfl, hrow, hc⟩
  | rollback i => exact Or.inl ⟨(rollback_eq_some h).2, by simp⟩

/-- A committed row stays. -/
theorem step_mono {db db' : Db Ts} {a : Act Ts} (h : db.step a = some db') {r : LogRow Ts}
    (hr : r ∈ db.committed) : r ∈ db'.committed := by
  obtain ⟨hc, -⟩ | ⟨i, row, -, -, hc⟩ := step_cases h
  · rwa [hc]
  · rw [hc]
    exact List.mem_cons_of_mem _ hr

/-- Committed rows have distinct ids. -/
theorem nodup_committed (db : Db Ts) : (db.committed.map LogRow.id).Nodup :=
  db.primaryKey.sublist ((List.sublist_append_right _ _).map _)

/-- A committed id is a positive signed 64-bit integer. -/
theorem id_bounds (db : Db Ts) {r : LogRow Ts} (hr : r ∈ db.committed) :
    1 ≤ r.id ∧ r.id ≤ Decimal.i64Max := by
  have h := db.drawn r (List.mem_append_right _ hr)
  have hb := db.bounded.2
  omega

/-- An open insert's id is not that of a committed row. -/
theorem pending_id_ne (db : Db Ts) {r r' : LogRow Ts} (hr : r ∈ db.pending)
    (hr' : r' ∈ db.committed) : r.id ≠ r'.id := by
  have h := db.primaryKey
  rw [List.map_append] at h
  exact (List.nodup_append.1 h).2.2 _ (List.mem_map_of_mem hr) _ (List.mem_map_of_mem hr')

/-- Every open insert is newer than the committed rows. -/
def InOrder (db : Db Ts) : Prop := ∀ r ∈ db.committed, ∀ q ∈ db.pending, r.id < q.id

/-- A step keeps the open inserts newer than the committed rows when it commits the oldest
of them. -/
theorem InOrder.step {db db' : Db Ts} {a : Act Ts} (h : db.InOrder) (hstep : db.step a = some db')
    (holdest : ∀ i row, a = .commit i → db.pending[i]? = some row →
      ∀ q ∈ db.pending, row.id ≤ q.id) : db'.InOrder := by
  intro r hr q hq
  cases a with
  | begin new now =>
    obtain ⟨hp, hc⟩ := begin_eq_some hstep
    rw [hc] at hr
    rw [hp] at hq
    rcases List.mem_cons.1 hq with rfl | hq
    · exact (db.drawn r (List.mem_append_right _ hr)).2
    · exact h r hr q hq
  | commit i =>
    obtain ⟨row, hrow, hp, hc⟩ := commit_eq_some hstep
    rw [hc] at hr
    rw [hp] at hq
    have hne : row.id ≠ q.id := by
      have hnodup := ((db.perm_eraseIdx hrow).map LogRow.id).nodup_iff.2
        (db.primaryKey.sublist ((List.sublist_append_left _ _).map _))
      rw [List.map_cons, List.nodup_cons] at hnodup
      exact fun hid => hnodup.1 (hid ▸ List.mem_map_of_mem hq)
    have hq : q ∈ db.pending := List.mem_of_mem_eraseIdx hq
    rcases List.mem_cons.1 hr with rfl | hr
    · exact lt_of_le_of_ne (holdest i r rfl hrow q hq) hne
    · exact h r hr q hq
  | rollback i =>
    obtain ⟨hp, hc⟩ := rollback_eq_some hstep
    rw [hc] at hr
    rw [hp] at hq
    exact h r hr q (List.mem_of_mem_eraseIdx hq)

end Db

end AuthExample
