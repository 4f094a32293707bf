import AuthExample.AcceptedInvitations
import AuthExample.AuditList
import AuthExample.AuditStream
import AuthExample.JsonText
import AuthExample.UrlEncoded

/-!
# The listing over the wire

`fetchAuditPage` prints a query into the URL of `GET /audit/logs` and reads the page out of the
text of the answer; the server reads the query back from the URL and prints the page.

`fetchAuditPage_eq` : where every number is an integer that is a double, the client has the page
of `list_logs` on the query it asked with, whatever the facets and the order of the members.
`walkPages_eq` is the same of a walk by `nextCursor`, and `listAcceptedInvitations_eq` of the
invitations panel.
-/

namespace AuthExample

variable {Ts ε : Type*}

/-! ## The query on the server -/

/-- An optional `i64`. -/
def readI64 : Option String → Option (Option Int)
  | none => some none
  | some s => (Decimal.parseI64 s).map some

/-- `Query<AuditQuery>` : the query of the pairs of a URL, `none` where the extraction refuses
the request. Other names are ignored. -/
def AuditQuery.ofPairs (pairs : List (String × String)) : Option AuditQuery := do
  let cursor ← readI64 (← UrlEncoded.lookupOnce "cursor" pairs)
  let actor ← UrlEncoded.lookupOnce "actor" pairs
  let event ← UrlEncoded.lookupOnce "event" pairs
  let tenantId ← UrlEncoded.lookupOnce "tenantId" pairs
  let limit ← readI64 (← UrlEncoded.lookupOnce "limit" pairs)
  return { cursor, actor, event, tenantId, limit := limit.getD defaultLimit }

/-! ## The page on the wire -/

/-- `Serialize` of a page. -/
def pageToJson (page : AuditPage) : Json :=
  .obj [("data", .arr (page.data.map AuditRow.toJson)),
    ("nextCursor", (page.nextCursor.map Json.ofInt).getD .null), ("hasMore", .bool page.hasMore)]

/-- The page a JSON value holds. -/
def pageOfJson (v : Json) : Option AuditPage := do
  let .arr items ← v.get? "data" | none
  let data ← items.mapM AuditRow.ofJson
  let nextCursor ← match v.get? "nextCursor" with
    | some .null => some none
    | some n => n.int?.map some
    | none => none
  let .bool hasMore ← v.get? "hasMore" | none
  return { data, nextCursor, hasMore }

theorem mapM_ofJson_toJson (rows : List AuditRow) :
    rows.mapM (AuditRow.ofJson ∘ AuditRow.toJson) = some rows := by
  induction rows with
  | nil => rfl
  | cons r rows ih => simp [ih, AuditRow.ofJson_toJson]

/-- A page reads back as itself. -/
theorem pageOfJson_pageToJson (page : AuditPage) : pageOfJson (pageToJson page) = some page := by
  obtain ⟨data, nextCursor, hasMore⟩ := page
  cases nextCursor with
  | none => simp [pageOfJson, pageToJson, Json.get?, List.lookup_cons, mapM_ofJson_toJson]
  | some n =>
    simp [pageOfJson, pageToJson, Json.get?, List.lookup_cons, mapM_ofJson_toJson, Json.ofInt,
      Json.int?]

/-- The row's id is a double, and so are the numbers of its details. -/
def LogRow.Portable (w : Wire Ts) (row : LogRow Ts) : Prop :=
  row.id.natAbs ≤ Json.maxSafe ∧ (detailsOf w row.metadata).Portable

/-- A row without metadata, as the hooks write them all. -/
theorem LogRow.portable_of_metadata {w : Wire Ts} {row : LogRow Ts}
    (hid : row.id.natAbs ≤ Json.maxSafe) (hmeta : row.metadata = none) : row.Portable w := by
  refine ⟨hid, ?_⟩
  rw [hmeta]
  exact .obj [] List.nodup_nil (by simp)

theorem portable_ofOptStr (o : Option String) : (Json.ofOptStr o).Portable := by
  cases o with
  | none => exact .null
  | some s => exact .str s

theorem portable_auditRow {w : Wire Ts} {row : LogRow Ts} (h : row.Portable w) :
    (auditRow w row).toJson.Portable := by
  refine .obj _ (by simp) ?_
  simp only [List.forall_mem_cons]
  exact ⟨.num _ h.1, .str _, .str _, portable_ofOptStr _, portable_ofOptStr _, .str _, h.2, nofun⟩

theorem portable_pageToJson {page : AuditPage}
    (hdata : ∀ r ∈ page.data, r.toJson.Portable)
    (hcursor : ∀ n, page.nextCursor = some n → n.natAbs ≤ Json.maxSafe) :
    (pageToJson page).Portable := by
  refine .obj _ (by simp) ?_
  simp only [List.forall_mem_cons]
  refine ⟨.arr _ fun v hv => ?_, ?_, .bool _, nofun⟩
  · obtain ⟨r, hr, rfl⟩ := List.mem_map.1 hv
    exact hdata r hr
  · cases hn : page.nextCursor with
    | none => exact .null
    | some n => exact .num n (hcursor n hn)

/-! ## A page fetched -/

variable (lossy : List UInt8 → String) (N : Json.Numbers) (w : Wire Ts)

/-- `GET /audit/logs` on a URL : `none` where the route or the query is refused. -/
def getLogs (pool : Except ε (List (LogRow Ts))) (url : List Char) :
    Option (Except (AppError ε) String) :=
  let (path, query) := (Scan.splitOnce ['?'] url).getD (url, [])
  if path = "/audit/logs".toList then
    (AuditQuery.ofPairs (UrlEncoded.parse lossy query)).map fun q =>
      (listLogs w pool q).map fun page => String.ofList (Json.text N (pageToJson page))
  else none

/-- The route on its path and a query. -/
theorem getLogs_query (pool : Except ε (List (LogRow Ts))) (query : List Char) :
    getLogs lossy N w pool ("/audit/logs?".toList ++ query) =
      (AuditQuery.ofPairs (UrlEncoded.parse lossy query)).map fun q =>
        (listLogs w pool q).map fun page => String.ofList (Json.text N (pageToJson page)) := by
  have hpath : "/audit/logs?".toList ++ query = "/audit/logs".toList ++ (['?'] ++ query) := by
    rw [← List.append_assoc]
    rfl
  have hsplit : Scan.splitOnce ['?'] ("/audit/logs".toList ++ (['?'] ++ query)) =
      some ("/audit/logs".toList, query) := Scan.splitOnce_append query (by decide)
  rw [getLogs, hpath, hsplit, Option.getD_some]
  exact if_pos rfl

/-- `apiJson<AuditPage>` : the page of a successful answer. -/
def apiPage (pool : Except ε (List (LogRow Ts))) (url : List Char) : Option AuditPage :=
  (getLogs lossy N w pool url).bind fun answer =>
    answer.toOption.bind fun body => (Json.parse N body).bind pageOfJson

namespace AuditApi

/-- `AuditQuery` of the console : a cursor, facets and a page size, each present or not. -/
structure AuditQuery where
  cursor : Option Int := none
  actor : Option String := none
  event : Option String := none
  tenantId : Option String := none
  limit : Option Int := none

/-- The members present, each value as `String` prints it. -/
def AuditQuery.entries (q : AuditQuery) : List (String × String) :=
  (q.cursor.map fun n => ("cursor", toString n)).toList ++
    (q.actor.map fun s => ("actor", s)).toList ++ (q.event.map fun s => ("event", s)).toList ++
    (q.tenantId.map fun s => ("tenantId", s)).toList ++
    (q.limit.map fun n => ("limit", toString n)).toList

/-- The query the server has for it. -/
def AuditQuery.onServer (q : AuditQuery) : AuthExample.AuditQuery where
  actor := q.actor
  event := q.event
  tenantId := q.tenantId
  cursor := q.cursor
  limit := q.limit.getD defaultLimit

/-- The numbers of the query are integers that are doubles. -/
structure AuditQuery.Safe (q : AuditQuery) : Prop where
  cursor : ∀ n, q.cursor = some n → n.natAbs ≤ Json.maxSafe
  limit : ∀ n, q.limit = some n → n.natAbs ≤ Json.maxSafe

/-- The URL `fetchAuditPage` requests, from `Object.entries(query)`. -/
def pageUrl (entries : List (String × String)) : List Char :=
  "/audit/logs?".toList ++
    UrlEncoded.serialize (entries.foldl UrlEncoded.setParam [])

/-- `fetchAuditPage`. -/
def fetchAuditPage (pool : Except ε (List (LogRow Ts))) (entries : List (String × String)) :
    Option AuditPage :=
  apiPage lossy N w pool (pageUrl entries)

theorem AuditQuery.nodup_entries (q : AuditQuery) : (q.entries.map Prod.fst).Nodup := by
  obtain ⟨cursor, actor, event, tenantId, limit⟩ := q
  cases cursor <;> cases actor <;> cases event <;> cases tenantId <;> cases limit <;>
    simp [entries]

/-- An integer of the console is one of the server. -/
theorem readI64_toString {o : Option Int} (h : ∀ n, o = some n → n.natAbs ≤ Json.maxSafe) :
    readI64 (o.map fun n => toString n) = some o := by
  cases o with
  | none => rfl
  | some n =>
    have hn := h n rfl
    simp only [Json.maxSafe] at hn
    simp only [Option.map_some, readI64]
    rw [Decimal.parseI64_toString (by simp only [Decimal.i64Min]; omega)
      (by simp only [Decimal.i64Max]; omega), Option.map_some]

theorem lookup_member (name key : String) (o : Option String) :
    ((o.map fun v => (key, v)).toList.lookup name) = if name = key then o else none := by
  cases o with
  | none => simp
  | some v =>
    by_cases h : name = key
    · simp [h]
    · simp [h, List.lookup_cons, beq_eq_false_iff_ne.2 h]

/-- The members as optional texts. -/
theorem AuditQuery.entries_eq (q : AuditQuery) : q.entries =
    ((q.cursor.map fun n => toString n).map fun v => ("cursor", v)).toList ++
      (q.actor.map fun v => ("actor", v)).toList ++ (q.event.map fun v => ("event", v)).toList ++
      (q.tenantId.map fun v => ("tenantId", v)).toList ++
      ((q.limit.map fun n => toString n).map fun v => ("limit", v)).toList := by
  simp only [entries, Option.map_map, Function.comp_def]

/-- The server reads the query that was asked. -/
theorem ofPairs_entries {q : AuditQuery} (hq : q.Safe) {entries : List (String × String)}
    (he : entries.Perm q.entries) : AuthExample.AuditQuery.ofPairs entries = some q.onServer := by
  simp only [AuthExample.AuditQuery.ofPairs,
    fun name => UrlEncoded.lookupOnce_eq_lookup he q.nodup_entries name, Option.bind_eq_bind,
    Option.bind_some]
  simp only [q.entries_eq, List.lookup_append, lookup_member, String.reduceEq, if_true, if_false,
    Option.none_or, Option.or_none, readI64_toString hq.cursor, readI64_toString hq.limit,
    Option.bind_some]
  rfl

/-- The URL that was requested is the query's own. -/
theorem getLogs_pageUrl {q : AuditQuery} (hq : q.Safe) {entries : List (String × String)}
    (he : entries.Perm q.entries) (pool : Except ε (List (LogRow Ts))) :
    getLogs lossy N w pool (pageUrl entries) = some ((listLogs w pool q.onServer).map fun page =>
      String.ofList (Json.text N (pageToJson page))) := by
  have hnodup : (entries.map Prod.fst).Nodup :=
    (he.map Prod.fst).nodup_iff.2 q.nodup_entries
  have hfold : entries.foldl UrlEncoded.setParam [] = entries :=
    UrlEncoded.foldl_setParam (by simpa using hnodup)
  have hget := getLogs_query lossy N w pool (UrlEncoded.serialize entries)
  rw [UrlEncoded.parse_serialize, ofPairs_entries hq he, Option.map_some] at hget
  unfold pageUrl
  rw [hfold, hget]

end AuditApi

/-- A page of rows that all read back does so too. -/
theorem portable_listLogs {table : List (LogRow Ts)} (hd : (table.map LogRow.id).Nodup)
    {q : AuditQuery} (hrows : ∀ row ∈ matchingRows q.toAuditStreamQuery table, row.Portable w)
    {page : AuditPage} (h : listLogs w (.ok table : Except ε _) q = .ok page) :
    (pageToJson page).Portable ∧ ∀ n, page.nextCursor = some n → n.natAbs ≤ Json.maxSafe := by
  rw [listLogs_eq_page w q hd] at h
  obtain rfl := Except.ok.inj h
  have hdata : ∀ r ∈ (Keyset.page AuditRow.id (clampLimit q.limit).toNat q.cursor
      ((matchingRows q.toAuditStreamQuery table).map (auditRow w))).data,
      ∃ row ∈ matchingRows q.toAuditStreamQuery table, r = auditRow w row := by
    intro r hr
    obtain ⟨row, hrow, rfl⟩ := List.mem_map.1
      ((Keyset.below_sublist _ _).subset (List.mem_of_mem_take hr))
    exact ⟨row, hrow, rfl⟩
  have hcursor : ∀ n, (Keyset.page AuditRow.id (clampLimit q.limit).toNat q.cursor
      ((matchingRows q.toAuditStreamQuery table).map (auditRow w))).nextCursor = some n →
      n.natAbs ≤ Json.maxSafe := by
    intro n hn
    simp only [Keyset.page] at hn
    split_ifs at hn
    obtain ⟨r, hr, rfl⟩ := Option.map_eq_some_iff.1 hn
    obtain ⟨row, hrow, rfl⟩ := hdata r (List.mem_of_getLast? hr)
    exact (hrows row hrow).1
  refine ⟨portable_pageToJson (fun r hr => ?_) hcursor, hcursor⟩
  obtain ⟨row, hrow, rfl⟩ := hdata r hr
  exact portable_auditRow (hrows row hrow)

/-- The page of an answer is the page that was printed. -/
theorem apiPage_eq {table : List (LogRow Ts)} (hd : (table.map LogRow.id).Nodup)
    {q : AuditQuery} (hrows : ∀ row ∈ matchingRows q.toAuditStreamQuery table, row.Portable w)
    {url : List Char} (hurl : getLogs lossy N w (.ok table : Except ε _) url =
      some ((listLogs w (.ok table) q).map fun page =>
        String.ofList (Json.text N (pageToJson page)))) :
    apiPage lossy N w (.ok table : Except ε _) url =
      (listLogs w (.ok table : Except ε _) q).toOption := by
  rw [apiPage, hurl, Option.bind_some]
  cases h : listLogs w (.ok table : Except ε _) q with
  | error e => rfl
  | ok page =>
    show (Json.parse N _).bind pageOfJson = some page
    rw [Json.parse_text N (portable_listLogs w hd hrows h).1, Option.bind_some,
      pageOfJson_pageToJson]

namespace AuditApi

/-- Where every number of the matching rows is an integer that is a double, `fetchAuditPage` has
the page of `list_logs` on its query. -/
theorem fetchAuditPage_eq {table : List (LogRow Ts)} (hd : (table.map LogRow.id).Nodup)
    {q : AuditQuery} (hq : q.Safe)
    (hrows : ∀ row ∈ matchingRows q.onServer.toAuditStreamQuery table, row.Portable w)
    {entries : List (String × String)} (he : entries.Perm q.entries) :
    fetchAuditPage lossy N w (.ok table : Except ε _) entries =
      (listLogs w (.ok table : Except ε _) q.onServer).toOption :=
  apiPage_eq lossy N w hd hrows (getLogs_pageUrl lossy N w hq he _)

/-- Follow `nextCursor` from a fetch without a cursor. -/
def walkPages (tables : Snapshots Ts) (q : AuditStreamQuery) (limits : ℕ → Int) (fuel : ℕ) :
    Option (List AuditPage) :=
  Keyset.walk (fun i cursor =>
    fetchAuditPage lossy N w (.ok (tables.rows i) : Except Empty _)
      (AuditQuery.entries { q with cursor, limit := some (limits i) })) fuel 0 none

/-- Where every number of the matching rows is an integer that is a double, a walk over the wire
has the pages of a walk of the handler. -/
theorem walkPages_eq (tables : Snapshots Ts) (q : AuditStreamQuery)
    (hrows : ∀ i, ∀ row ∈ matchingRows q (tables.rows i), row.Portable w) {limits : ℕ → Int}
    (hlimits : ∀ i, (limits i).natAbs ≤ Json.maxSafe) (fuel : ℕ) :
    walkPages lossy N w tables q limits fuel = walkLogs w tables q limits fuel := by
  have hsafe : ∀ i cursor, (∀ n, cursor = some n → n.natAbs ≤ Json.maxSafe) →
      AuditQuery.Safe { q with cursor, limit := some (limits i) } := fun i cursor hc =>
    ⟨hc, fun n hn => by
      obtain rfl := Option.some.inj hn
      exact hlimits i⟩
  have hfetch : ∀ i cursor, (∀ n, cursor = some n → n.natAbs ≤ Json.maxSafe) →
      fetchAuditPage lossy N w (.ok (tables.rows i) : Except Empty _)
          (AuditQuery.entries { q with cursor, limit := some (limits i) }) =
        fetchLogs w tables q limits i cursor := fun i cursor hc =>
    fetchAuditPage_eq lossy N w (tables.primaryKey i) (hsafe i cursor hc) (hrows i)
      (List.Perm.refl _)
  refine Keyset.walk_congr (P := fun cursor => ∀ n, cursor = some n → n.natAbs ≤ Json.maxSafe)
    hfetch (fun i cursor page hc hpage => ?_) nofun
  rw [hfetch i cursor hc, fetchLogs] at hpage
  cases h : listLogs w (.ok (tables.rows i) : Except Empty _)
      { toAuditStreamQuery := q, cursor, limit := limits i } with
  | error e =>
    rw [h] at hpage
    cases hpage
  | ok answer =>
    rw [h] at hpage
    obtain rfl := Option.some.inj hpage
    exact (portable_listLogs w (tables.primaryKey i) (hrows i) h).2

/-- An acceptance and a login of `u`, and a row of somebody else's whose id is no double. No row is
appended. -/
def threeRows : Snapshots String where
  rows _ := [⟨1, none, some "u", some "u@example.test", "after_invitation_accepted", none, none,
      none, "t1"⟩,
    ⟨2, some "acme", some "u", none, "after_login", some "203.0.113.7", none, none, "t2"⟩,
    ⟨9007199254740993, none, some "v", none, "after_login", none, none, none, "t3"⟩]
  primaryKey _ := by decide
  grows _ := ⟨[], by simp, by simp⟩

/-- The rows of `u` read back. -/
theorem portable_threeRows (i : ℕ) {row : LogRow String} (hrow : row ∈ threeRows.rows i)
    (hu : row.actorId = some "u" ∨ row.event = "after_invitation_accepted") :
    row.Portable textWire := by
  simp only [threeRows, List.mem_cons, List.not_mem_nil, or_false] at hrow
  rcases hrow with rfl | rfl | rfl
  · exact LogRow.portable_of_metadata (by decide) rfl
  · exact LogRow.portable_of_metadata (by decide) rfl
  · simp at hu

theorem walkPages_eq_threeRows :
    ∃ pages, walkPages (fun _ => "") .integers textWire threeRows { actor := some "u" }
        (fun _ => 1) 3 = some pages ∧
      pages.map (fun page => page.data.map AuditRow.id) = [[2], [1]] := by
  rw [walkPages_eq (fun _ => "") .integers textWire threeRows _ (fun i row hrow => ?_)
    (fun _ => by decide)]
  · exact ⟨_, rfl, rfl⟩
  · have hmatch := mem_matchingRows.1 hrow
    refine portable_threeRows i hmatch.1 (Or.inl ?_)
    refine (hmatch.2.actor "u" rfl).resolve_right fun hemail => ?_
    simp only [threeRows, List.mem_cons, List.not_mem_nil, or_false] at hmatch
    rcases hmatch.1 with rfl | rfl | rfl <;> simp at hemail

end AuditApi

/-! ## The accepted invitations -/

/-- The event an acceptance is recorded under. -/
def invitationEvent : String := "after_invitation_accepted"

/-- `listAcceptedInvitations`. -/
def listAcceptedInvitations (pool : Except ε (List (LogRow Ts))) :
    Option (List AcceptedInvitation) :=
  (apiPage lossy N w pool ("/audit/logs?".toList ++
      ("event=".toList ++ UrlEncoded.encodeComponent invitationEvent ++ "&limit=50".toList))).map
    fun page => page.data.map fun row => ⟨row.actor, row.createdAt⟩

/-- The panel lists the newest fifty acceptances, where their numbers are integers that are
doubles. -/
theorem listAcceptedInvitations_eq {table : List (LogRow Ts)} (hd : (table.map LogRow.id).Nodup)
    (hrows : ∀ row ∈ matchingRows { event := some invitationEvent } table, row.Portable w) :
    listAcceptedInvitations lossy N w (.ok table : Except ε _) =
      some (((matchingRows { event := some invitationEvent } table).take 50).map fun row =>
        ⟨actorDisplay row.actorEmail row.actorId, formatTs w row.createdAt⟩) := by
  have hplain : ∀ t, UrlEncoded.encodeComponent t = t.toList →
      UrlEncoded.Encodes t.toList t := fun t ht => by
    rw [← ht]
    exact UrlEncoded.encodes_encode UrlEncoded.plain_componentKeep t
  have hparse : UrlEncoded.parse lossy ("event=".toList ++
      UrlEncoded.encodeComponent invitationEvent ++ "&limit=50".toList) =
        [("event", invitationEvent), ("limit", "50")] := by
    have h : List.Forall₂ (fun q p => UrlEncoded.Encodes q.1 p.1 ∧ UrlEncoded.Encodes q.2 p.2)
        [("event".toList, UrlEncoded.encodeComponent invitationEvent),
          ("limit".toList, "50".toList)] [("event", invitationEvent), ("limit", "50")] :=
      .cons ⟨hplain "event" (by decide), UrlEncoded.encodes_encode UrlEncoded.plain_componentKeep _⟩
        (.cons ⟨hplain "limit" (by decide), hplain "50" (by decide)⟩ .nil)
    rw [← UrlEncoded.parse_joined lossy h]
    simp
  have hquery : AuditQuery.ofPairs [("event", invitationEvent), ("limit", "50")] =
      some { event := some invitationEvent, limit := 50 } := rfl
  have hget := getLogs_query lossy N w (.ok table : Except ε _) ("event=".toList ++
    UrlEncoded.encodeComponent invitationEvent ++ "&limit=50".toList)
  rw [hparse, hquery, Option.map_some] at hget
  rw [listAcceptedInvitations, apiPage_eq lossy N w hd hrows hget, listLogs_eq_page w _ hd]
  have hclamp : (clampLimit 50).toNat = 50 := by decide
  simp only [Except.toOption, Option.map_some, Keyset.page, Keyset.below_none, hclamp,
    List.map_take, List.map_map]
  rfl

theorem listAcceptedInvitations_eq_threeRows :
    listAcceptedInvitations (fun _ => "") .integers textWire
      (.ok (AuditApi.threeRows.rows 0) : Except Unit _) = some [⟨"u@example.test", "t1"⟩] := by
  rw [listAcceptedInvitations_eq (fun _ => "") .integers textWire (AuditApi.threeRows.primaryKey 0)
    fun row hrow => ?_]
  · rfl
  · obtain ⟨hmem, hmatch⟩ := mem_matchingRows.1 hrow
    exact AuditApi.portable_threeRows 0 hmem (Or.inr (hmatch.event _ rfl))

end AuthExample
