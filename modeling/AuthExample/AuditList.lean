import AuthExample.AuditLog
import AuthExample.Keyset

/-!
# The keyset listing

`list_logs` answers one page of `GET /audit/logs`. It selects `limit + 1` rows below
the cursor, newest first, and uses the extra row only to tell whether more remain.

`listLogs_eq_page` connects the handler to the keyset page of the matching rows, and
`walkLogs_exact` reads the whole listing off it : a caller that follows `nextCursor`
sees every matching row of the table it started on once, newest first, whatever its
limits and whatever is appended meanwhile.
-/

namespace AuthExample

variable {Ts ε : Type*}

/-- The page size when the caller gives none. -/
def defaultLimit : Int := 50

/-- The largest page. -/
def maxLimit : Int := 200

/-- `AuditQuery` : the facets, a cursor and a page size. -/
structure AuditQuery extends AuditStreamQuery where
  cursor : Option Int := none
  limit : Int := defaultLimit

/-- `AuditPage` : a keyset page of wire rows, newest first. -/
abbrev AuditPage := Keyset.Page AuditRow Int

/-- `AppError`, in the one case these handlers raise : a failed query. -/
inductive AppError (ε : Type*) where
  | database (error : ε)

/-- The `WHERE` clause of the listing. -/
def logsCond (q : AuditQuery) (row : LogRow Ts) : Sql.Cond :=
  Sql.and (Sql.and (Sql.and
    (Sql.or (Sql.isNull q.cursor) (Sql.lt (some row.id) q.cursor))
    (actorCond q.actor row))
    (eventCond q.event row))
    (tenantCond q.tenantId row)

/-- The listing's query. -/
def selectLogs (q : AuditQuery) (limit : Int) (table : List (LogRow Ts)) : List (LogRow Ts) :=
  Sql.select (logsCond q) (· ≥ ·) LogRow.id limit.toNat table

/-- More than `limit` rows fetched means another page. The count is read as an `i64`. -/
def pageHasMore (fetched : ℕ) (limit : Int) : Bool :=
  decide (limit < if (fetched : Int) ≤ Decimal.i64Max then (fetched : Int) else Decimal.i64Max)

/-- `usize::try_from(limit).unwrap_or(usize::MAX)`. -/
def usizeOf (limit : Int) : ℕ :=
  if 0 ≤ limit ∧ limit ≤ 18446744073709551615 then limit.toNat else 18446744073709551615

/-- `limit.clamp(1, MAX_LIMIT)`. -/
def clampLimit (limit : Int) : Int := max 1 (min limit maxLimit)

/-- `GET /audit/logs`. `pool` is the committed rows when the query runs, or its failure. -/
def listLogs (w : Wire Ts) (pool : Except ε (List (LogRow Ts))) (q : AuditQuery) :
    Except (AppError ε) AuditPage :=
  let limit := clampLimit q.limit
  match pool.map (selectLogs q (limit + 1)) with
  | .error error => .error (.database error)
  | .ok rows =>
    let hasMore := pageHasMore rows.length limit
    let data := (rows.take (usizeOf limit)).map (auditRow w)
    let nextCursor := if hasMore then data.getLast?.map AuditRow.id else none
    .ok { data, nextCursor, hasMore }

/-! ## The handler is a keyset page -/

/-- The rows matching the facets, newest first. -/
def matchingRows (q : AuditStreamQuery) (table : List (LogRow Ts)) : List (LogRow Ts) :=
  Sql.orderBy (· ≥ ·) LogRow.id <| table.filter fun row =>
    Sql.holds (actorCond q.actor row) && Sql.holds (eventCond q.event row) &&
      Sql.holds (tenantCond q.tenantId row)

theorem mem_matchingRows {q : AuditStreamQuery} {table : List (LogRow Ts)} {row : LogRow Ts} :
    row ∈ matchingRows q table ↔ row ∈ table ∧ q.Matches row := by
  simp only [matchingRows, Sql.mem_orderBy, List.mem_filter, Bool.and_eq_true, and_assoc,
    holds_facets]

theorem length_matchingRows_le (q : AuditStreamQuery) (table : List (LogRow Ts)) :
    (matchingRows q table).length ≤ table.length := by
  rw [matchingRows, (Sql.perm_orderBy ..).length_eq]
  exact List.length_filter_le _ _

theorem descending_matchingRows (q : AuditStreamQuery) {table : List (LogRow Ts)}
    (hd : (table.map LogRow.id).Nodup) : Keyset.Descending LogRow.id (matchingRows q table) :=
  Sql.pairwise_orderBy_desc (hd.sublist (List.filter_sublist.map _))

theorem descending_map_auditRow (w : Wire Ts) {rows : List (LogRow Ts)} :
    Keyset.Descending AuditRow.id (rows.map (auditRow w)) ↔ Keyset.Descending LogRow.id rows := by
  simp [Keyset.Descending, List.pairwise_map]

/-- The selected rows are the first matching rows below the cursor. -/
theorem selectLogs_eq (q : AuditQuery) (limit : Int) {table : List (LogRow Ts)}
    (hd : (table.map LogRow.id).Nodup) : selectLogs q limit table =
      (Keyset.below LogRow.id q.cursor (matchingRows q.toAuditStreamQuery table)).take
        limit.toNat := by
  have hcursor : ∀ row : LogRow Ts,
      Sql.holds (Sql.or (Sql.isNull q.cursor) (Sql.lt (some row.id) q.cursor)) =
        q.cursor.all fun c => decide (row.id < c) := by
    intro row
    rw [Bool.eq_iff_iff]
    cases q.cursor <;> simp [Sql.holds_lt]
  rw [selectLogs, Sql.select, Keyset.below, matchingRows,
    ← Sql.orderBy_filter (hd.sublist (List.filter_sublist.map _)), List.filter_filter]
  simp only [logsCond, Sql.holds_and, hcursor, Bool.and_assoc]

theorem clampLimit_bounds (limit : Int) : 1 ≤ clampLimit limit ∧ clampLimit limit ≤ maxLimit := by
  unfold clampLimit maxLimit
  omega

theorem usizeOf_clampLimit (limit : Int) :
    usizeOf (clampLimit limit) = (clampLimit limit).toNat := by
  have h := clampLimit_bounds limit
  unfold maxLimit at h
  rw [usizeOf, if_pos (by omega)]

/-- With `limit + 1` rows asked for, the count tells whether rows remain past `limit`. -/
theorem pageHasMore_take {n : ℕ} {limit : Int} (h : 1 ≤ limit ∧ limit ≤ maxLimit) :
    pageHasMore (min (limit + 1).toNat n) limit = decide (limit.toNat < n) := by
  unfold maxLimit at h
  unfold pageHasMore Decimal.i64Max
  rw [decide_eq_decide]
  split_ifs <;> omega

/-- The handler answers the keyset page of the matching rows. -/
theorem listLogs_eq_page (w : Wire Ts) (q : AuditQuery) {table : List (LogRow Ts)}
    (hd : (table.map LogRow.id).Nodup) :
    listLogs w (.ok table : Except ε _) q =
      .ok (Keyset.page AuditRow.id (clampLimit q.limit).toNat q.cursor
        ((matchingRows q.toAuditStreamQuery table).map (auditRow w))) := by
  have hl := clampLimit_bounds q.limit
  have hbelow : Keyset.below AuditRow.id q.cursor
      ((matchingRows q.toAuditStreamQuery table).map (auditRow w)) =
        (Keyset.below LogRow.id q.cursor (matchingRows q.toAuditStreamQuery table)).map
          (auditRow w) := by
    rw [Keyset.below, Keyset.below, List.filter_map]
    rfl
  have htake : (clampLimit q.limit).toNat ≤ (clampLimit q.limit + 1).toNat := by omega
  simp only [listLogs, Except.map, selectLogs_eq q _ hd, List.length_take, usizeOf_clampLimit,
    pageHasMore_take hl, List.take_take, Nat.min_eq_left htake, Keyset.page, hbelow,
    List.length_map, List.map_take, decide_eq_true_eq]

/-- On a page, `hasMore`, `nextCursor` and an older matching row come together. -/
theorem listLogs_hasMore (w : Wire Ts) (q : AuditQuery) {table : List (LogRow Ts)}
    (hd : (table.map LogRow.id).Nodup) {page : AuditPage}
    (h : listLogs w (.ok table : Except ε _) q = .ok page) :
    (page.hasMore = true ↔ page.nextCursor.isSome = true) ∧
      (page.hasMore = true ↔ ∃ last, page.data.getLast? = some last ∧
        ∃ row ∈ table, q.Matches row ∧ row.id < last.id) := by
  have hone : 1 ≤ (clampLimit q.limit).toNat := by
    have := (clampLimit_bounds q.limit).1
    omega
  rw [listLogs_eq_page w q hd] at h
  obtain rfl := Except.ok.inj h
  refine ⟨by rw [Keyset.nextCursor_isSome hone], ?_⟩
  rw [Keyset.hasMore_iff ((descending_map_auditRow w).2 (descending_matchingRows _ hd)) hone]
  simp only [List.mem_map, mem_matchingRows]
  constructor
  · rintro ⟨last, hlast, _, ⟨row, ⟨hrow, hm⟩, rfl⟩, hlt⟩
    exact ⟨last, hlast, row, hrow, hm, hlt⟩
  · rintro ⟨last, hlast, row, hrow, hm, hlt⟩
    exact ⟨last, hlast, _, ⟨row, ⟨hrow, hm⟩, rfl⟩, hlt⟩

/-- A page is newest first. -/
theorem descending_listLogs {w : Wire Ts} {q : AuditQuery} {table : List (LogRow Ts)}
    (hd : (table.map LogRow.id).Nodup) {page : AuditPage}
    (h : listLogs w (.ok table : Except ε _) q = .ok page) :
    Keyset.Descending AuditRow.id page.data := by
  rw [listLogs_eq_page w q hd] at h
  obtain rfl := Except.ok.inj h
  exact ((descending_map_auditRow w).2 (descending_matchingRows _ hd)).page _ _

/-! ## Walking the listing -/

/-- The tables the requests of a walk meet. Rows are only appended, with ids above
every id there. -/
structure Snapshots (Ts : Type*) where
  rows : ℕ → List (LogRow Ts)
  primaryKey : ∀ i, ((rows i).map LogRow.id).Nodup
  grows : ∀ i, ∃ new, rows (i + 1) = rows i ++ new ∧ ∀ n ∈ new, ∀ r ∈ rows i, r.id < n.id

/-- Request `i` of a walk, with its own page size. -/
def fetchLogs (w : Wire Ts) (tables : Snapshots Ts) (q : AuditStreamQuery) (limits : ℕ → Int)
    (i : ℕ) (cursor : Option Int) : Option AuditPage :=
  (listLogs w (.ok (tables.rows i) : Except Empty _)
    { toAuditStreamQuery := q, cursor, limit := limits i }).toOption

/-- Call `list_logs` with no cursor, then with each `nextCursor`, until `hasMore` is
false. -/
def walkLogs (w : Wire Ts) (tables : Snapshots Ts) (q : AuditStreamQuery) (limits : ℕ → Int)
    (fuel : ℕ) : Option (List AuditPage) :=
  Keyset.walk (fetchLogs w tables q limits) fuel 0 none

theorem fetchLogs_eq (w : Wire Ts) (tables : Snapshots Ts) (q : AuditStreamQuery)
    (limits : ℕ → Int) (i : ℕ) (cursor : Option Int) :
    fetchLogs w tables q limits i cursor =
      some (Keyset.page AuditRow.id (clampLimit (limits i)).toNat cursor
        ((matchingRows q (tables.rows i)).map (auditRow w))) := by
  rw [fetchLogs, listLogs_eq_page w _ (tables.primaryKey i)]
  rfl

/-- The rows matching at the first request are the oldest of those matching later. -/
theorem matchingRows_suffix (tables : Snapshots Ts) (q : AuditStreamQuery) (i : ℕ) :
    matchingRows q (tables.rows 0) <:+ matchingRows q (tables.rows i) := by
  induction i with
  | zero => exact List.suffix_refl _
  | succ i ih =>
    obtain ⟨new, hnew, habove⟩ := tables.grows i
    refine ih.trans ⟨matchingRows q new, ?_⟩
    have hdn : (new.map LogRow.id).Nodup := by
      have h := tables.primaryKey (i + 1)
      rw [hnew, List.map_append] at h
      exact (List.nodup_append.1 h).2.1
    refine List.Perm.eq_of_pairwise
      (fun a b _ _ (hab : b.id < a.id) (hba : a.id < b.id) => absurd hab hba.asymm) ?_
      (descending_matchingRows q (tables.primaryKey (i + 1))) ?_
    · refine List.pairwise_append.2 ⟨descending_matchingRows q hdn,
        descending_matchingRows q (tables.primaryKey i), fun n hn r hr => ?_⟩
      exact habove n (mem_matchingRows.1 hn).1 r (mem_matchingRows.1 hr).1
    · refine ((Sql.perm_orderBy ..).append (Sql.perm_orderBy ..)).trans ?_
      refine List.perm_append_comm.trans ?_
      rw [← List.filter_append, ← hnew]
      exact (Sql.perm_orderBy ..).symm

/-- A walk of the listing ends, and lists every row that matched when it started once,
newest first. On each page `hasMore`, `nextCursor` and an older matching row in that
page's table come together. -/
theorem walkLogs_exact (w : Wire Ts) (tables : Snapshots Ts) (q : AuditStreamQuery)
    (limits : ℕ → Int) :
    ∃ (pages : List AuditPage) (rows : List (LogRow Ts)),
      (∀ fuel, (tables.rows 0).length < fuel → walkLogs w tables q limits fuel = some pages) ∧
      pages.flatMap Keyset.Page.data = rows.map (auditRow w) ∧
      rows.Pairwise (fun a b => b.id < a.id) ∧
      (∀ row, row ∈ rows ↔ row ∈ tables.rows 0 ∧ q.Matches row) ∧
      ∀ i (hi : i < pages.length),
        (pages[i].hasMore = true ↔ pages[i].nextCursor.isSome = true) ∧
        (pages[i].hasMore = true ↔ ∃ last, pages[i].data.getLast? = some last ∧
          ∃ row ∈ tables.rows i, q.Matches row ∧ row.id < last.id) := by
  have hlength : ((matchingRows q (tables.rows 0)).map (auditRow w)).length <
      (tables.rows 0).length + 1 := by
    rw [List.length_map]
    exact Nat.lt_succ_of_le (length_matchingRows_le q (tables.rows 0))
  obtain ⟨pages, hwalk, hflat⟩ := Keyset.exists_walk (fun i => by
      have := (clampLimit_bounds (limits i)).1
      omega)
    (fun i => (descending_map_auditRow w).2 (descending_matchingRows q (tables.primaryKey i)))
    (fun i => (matchingRows_suffix tables q i).map (auditRow w))
    (fetchLogs_eq w tables q limits)
    hlength
  refine ⟨pages, matchingRows q (tables.rows 0), fun fuel hfuel => Keyset.walk_mono hfuel hwalk,
    hflat, descending_matchingRows q (tables.primaryKey 0), fun _ => mem_matchingRows,
    fun i hi => ?_⟩
  obtain ⟨c, hc⟩ := Keyset.walk_getElem hwalk i hi
  rw [Nat.zero_add, fetchLogs_eq] at hc
  refine listLogs_hasMore (ε := Empty) w
    { toAuditStreamQuery := q, cursor := c, limit := limits i } (tables.primaryKey i) ?_
  rw [listLogs_eq_page w _ (tables.primaryKey i), Option.some.inj hc]

end AuthExample
