import AuthExample.Histories
import AuthExample.UserRepository

/-!
# The platform users

`SqlxPlatformUserRepository` reads and updates the rows of `platform_users`, whose primary key
and unique email Postgres enforces; the seed inserts the demo administrator where no row has its
email, and `list_platform_users` reads the first two hundred rows without their credentials.

A `PlatformUsers` is a table that meets its indexes. `platform_rows` : over any calls, of any
number of seeds too, no row is ever lost or given another identity, and every column has the
value of the last call that wrote it. `list_noninterference` : no password, MFA secret or
recovery code that was ever stored has an influence on what the listing returns.
-/

namespace AuthExample

open Histories Sql

/-! ## Rows -/

/-- `platform_users` : a row. Times are in microseconds. -/
structure PlatformUserRow where
  id : String
  email : String
  name : String
  passwordHash : String
  role : String
  status : String
  mfaEnabled : Bool
  mfaSecret : Option String
  mfaRecoveryCodes : Option (List String)
  platformId : Option String
  lastLoginAt : Option ℤ
  createdAt : ℤ
  updatedAt : ℤ
  deriving DecidableEq

/-- `AuthPlatformUser` : the engine's record of a platform user. -/
structure AuthPlatformUser where
  id : String
  email : String
  name : String
  passwordHash : String
  role : String
  status : String
  mfaEnabled : Bool
  mfaSecret : Option String
  mfaRecoveryCodes : Option (List String)
  platformId : Option String
  lastLoginAt : Option ℤ
  updatedAt : ℤ
  createdAt : ℤ
  deriving DecidableEq

/-- `AuthPlatformUser::from`. -/
def AuthPlatformUser.ofRow (row : PlatformUserRow) : AuthPlatformUser where
  id := row.id
  email := row.email
  name := row.name
  passwordHash := row.passwordHash
  role := row.role
  status := row.status
  mfaEnabled := row.mfaEnabled
  mfaSecret := row.mfaSecret
  mfaRecoveryCodes := row.mfaRecoveryCodes
  platformId := row.platformId
  lastLoginAt := row.lastLoginAt
  updatedAt := row.updatedAt
  createdAt := row.createdAt

/-- `SafeAuthPlatformUser` : the columns that are no credentials. -/
structure SafeAuthPlatformUser where
  id : String
  email : String
  name : String
  role : String
  status : String
  mfaEnabled : Bool
  platformId : Option String
  lastLoginAt : Option ℤ
  updatedAt : ℤ
  createdAt : ℤ
  deriving DecidableEq

/-- The columns `list_platform_users` selects. -/
def PlatformUserRow.safe (row : PlatformUserRow) : SafeAuthPlatformUser where
  id := row.id
  email := row.email
  name := row.name
  role := row.role
  status := row.status
  mfaEnabled := row.mfaEnabled
  platformId := row.platformId
  lastLoginAt := row.lastLoginAt
  updatedAt := row.updatedAt
  createdAt := row.createdAt

/-- `UpdatePlatformMfaData`. -/
structure UpdatePlatformMfaData where
  mfaEnabled : Bool
  mfaSecret : Option String
  mfaRecoveryCodes : Option (List String)

/-- The primary key and the unique email. -/
def platformIndexes : List (UniqueIndex PlatformUserRow String) :=
  [{ name := "platform_users_pkey", key := fun r => some r.id },
    { name := "platform_users_email_key", key := fun r => some r.email }]

/-- A table whose rows have distinct ids and distinct emails. -/
structure PlatformUsers where
  rows : List PlatformUserRow
  unique : UniqueKeys platformIndexes rows

/-! ## Calls -/

/-- A statement : `SELECT … WHERE` read with `fetch_optional`, `UPDATE … SET … WHERE id = $1`, or
`INSERT … ON CONFLICT (email) DO NOTHING`. -/
inductive PlatformStatement where
  | select (cond : PlatformUserRow → Cond)
  | update (id : String) (set : PlatformUserRow → PlatformUserRow)
  | insertOrNothing (row : PlatformUserRow)

/-- What a statement returns. -/
inductive PlatformReply where
  | found (user : Option AuthPlatformUser)
  | done
  deriving DecidableEq

/-- The error of a violated index. -/
def platformViolation (ix : UniqueIndex PlatformUserRow String) : SqlxError :=
  .database (some pgUniqueViolation) (some ix.name)

/-- Run a statement. -/
def PlatformStatement.run (table : PlatformUsers) :
    PlatformStatement → Except SqlxError (PlatformReply × PlatformUsers)
  | select cond => .ok (.found ((table.rows.find? fun r => holds (cond r)).map .ofRow), table)
  | update id set =>
    match h : Sql.update platformIndexes (fun r => Sql.eq (some r.id) (some id)) set []
        table.rows with
    | .error ix => .error (platformViolation ix)
    | .ok rows => .ok (.done, ⟨rows, UniqueKeys.of_update (by exact table.unique) h⟩)
  | insertOrNothing row =>
    match h : Sql.insertOrNothing platformIndexes (fun r => some r.email) row table.rows with
    | .error ix => .error (platformViolation ix)
    | .ok rows => .ok (.done, ⟨rows, table.unique.of_insertOrNothing h⟩)

namespace SqlxPlatformUserRepository

def findById (id : String) : Env → PlatformStatement := fun _ =>
  .select fun r => Sql.eq (some r.id) (some id)

def findByEmail (email : String) : Env → PlatformStatement := fun _ =>
  .select fun r => Sql.eq (some r.email) (some email)

def updateLastLogin (id : String) : Env → PlatformStatement := fun env =>
  .update id fun r => { r with lastLoginAt := some env.now, updatedAt := env.now }

def updateMfa (id : String) (data : UpdatePlatformMfaData) : Env → PlatformStatement := fun env =>
  .update id fun r => { r with
    mfaEnabled := data.mfaEnabled
    mfaSecret := data.mfaSecret
    mfaRecoveryCodes := data.mfaRecoveryCodes
    updatedAt := env.now }

def updatePassword (id passwordHash : String) : Env → PlatformStatement := fun env =>
  .update id fun r => { r with passwordHash, updatedAt := env.now }

def updateStatus (id status : String) : Env → PlatformStatement := fun env =>
  .update id fun r => { r with status, updatedAt := env.now }

end SqlxPlatformUserRepository

/-- `DEMO_ADMIN_EMAIL`. -/
def demoAdminEmail : String := "admin@platform.local"

/-- The row the seed inserts for the demo administrator. -/
def seedRow (passwordHash : String) (env : Env) : PlatformUserRow where
  id := env.genRandomUuid
  email := demoAdminEmail
  name := "Demo Admin"
  passwordHash := passwordHash
  role := "admin"
  status := "active"
  mfaEnabled := false
  mfaSecret := none
  mfaRecoveryCodes := none
  platformId := none
  lastLoginAt := none
  createdAt := env.now
  updatedAt := env.now

/-- A failed call : with the repository's error, or with that of the seed's statement. -/
inductive PlatformError where
  | repository (error : RepositoryError)
  | sqlx (error : SqlxError)

/-- A call on the table : of the repository, or of a seed. -/
inductive PlatformOp where
  | findById (id : String)
  | findByEmail (email : String)
  | updateLastLogin (id : String)
  | updateMfa (id : String) (data : UpdatePlatformMfaData)
  | updatePassword (id passwordHash : String)
  | updateStatus (id status : String)
  | seed (passwordHash : String)

namespace PlatformOp

/-- The statement of the call. -/
def statement : PlatformOp → Env → PlatformStatement
  | findById id => SqlxPlatformUserRepository.findById id
  | findByEmail email => SqlxPlatformUserRepository.findByEmail email
  | updateLastLogin id => SqlxPlatformUserRepository.updateLastLogin id
  | updateMfa id data => SqlxPlatformUserRepository.updateMfa id data
  | updatePassword id passwordHash => SqlxPlatformUserRepository.updatePassword id passwordHash
  | updateStatus id status => SqlxPlatformUserRepository.updateStatus id status
  | seed passwordHash => fun env => .insertOrNothing (seedRow passwordHash env)

/-- The error of a call : the repository maps it, the seed does not. -/
def mapError : PlatformOp → SqlxError → PlatformError
  | seed _, error => .sqlx error
  | _, error => .repository (mapSqlxError error)

/-- Make the call. One that fails leaves the table alone. -/
def invoke (op : PlatformOp) (env : Env) (table : PlatformUsers) :
    Except PlatformError PlatformReply × PlatformUsers :=
  match env.fault with
  | some fault => (.error (op.mapError fault.error), table)
  | none =>
    match (op.statement env).run table with
    | .ok (reply, table') => (.ok reply, table')
    | .error error => (.error (op.mapError error), table)

end PlatformOp

/-- The table after a sequence of calls. -/
def runPlatform (calls : List (PlatformOp × Env)) (table : PlatformUsers) : PlatformUsers :=
  calls.foldl (fun table c => (c.1.invoke c.2 table).2) table

/-- `LIST_LIMIT`. -/
def listLimit : ℕ := 200

/-- `list_platform_users` : the oldest rows, without their credentials. Rows of one time stay in
the order of the table. -/
def listPlatformUsers (table : PlatformUsers) : List SafeAuthPlatformUser :=
  ((orderBy (· ≤ ·) PlatformUserRow.createdAt table.rows).take listLimit).map PlatformUserRow.safe

/-! ## What the rows become -/

namespace PlatformOp

/-- The id an update is for. -/
def target : PlatformOp → Option String
  | updateLastLogin id | updateMfa id _ | updatePassword id _ | updateStatus id _ => some id
  | _ => none

def newPasswordHash : PlatformOp → Option String
  | updatePassword _ passwordHash => some passwordHash
  | _ => none

def newStatus : PlatformOp → Option String
  | updateStatus _ status => some status
  | _ => none

def newMfa : PlatformOp → Option UpdatePlatformMfaData
  | updateMfa _ data => some data
  | _ => none

def newLastLoginAt (env : Env) : PlatformOp → Option (Option ℤ)
  | updateLastLogin _ => some (some env.now)
  | _ => none

/-- The call is an update of the row with this id, and nothing makes it fail. -/
def Updates (id : String) (c : PlatformOp × Env) : Bool :=
  c.2.fault.isNone && c.1.target == some id

end PlatformOp

open PlatformOp

/-- The row with every column as the last call that wrote it left it. -/
def PlatformUserRow.after (calls : List (PlatformOp × Env)) (r : PlatformUserRow) :
    PlatformUserRow :=
  let updates := calls.filter (Updates r.id)
  { r with
    passwordHash := lastWrite (fun c => c.1.newPasswordHash) updates r.passwordHash
    status := lastWrite (fun c => c.1.newStatus) updates r.status
    mfaEnabled := lastWrite (fun c => c.1.newMfa.map (·.mfaEnabled)) updates r.mfaEnabled
    mfaSecret := lastWrite (fun c => c.1.newMfa.map (·.mfaSecret)) updates r.mfaSecret
    mfaRecoveryCodes :=
      lastWrite (fun c => c.1.newMfa.map (·.mfaRecoveryCodes)) updates r.mfaRecoveryCodes
    lastLoginAt := lastWrite (fun c => c.1.newLastLoginAt c.2) updates r.lastLoginAt
    updatedAt := lastWrite (fun c => some c.2.now) updates r.updatedAt }

namespace PlatformUserRow

variable (calls : List (PlatformOp × Env)) (r : PlatformUserRow)

@[simp] theorem after_id : (r.after calls).id = r.id := rfl

@[simp] theorem after_email : (r.after calls).email = r.email := rfl

@[simp] theorem after_nil : r.after [] = r := rfl

theorem after_append (calls' : List (PlatformOp × Env)) :
    r.after (calls ++ calls') = (r.after calls).after calls' := by
  simp only [after, List.filter_append, lastWrite_append]

/-- A call that does not update the row leaves it as it was. -/
theorem after_of_not_updates {c : PlatformOp × Env} (h : Updates r.id c = false) :
    r.after [c] = r := by
  simp only [after, List.filter_cons, h, List.filter_nil]
  rfl

end PlatformUserRow

/-- The rows a call adds : that of a seed, where no row has its email or its id. -/
def seeded (rows : List PlatformUserRow) (c : PlatformOp × Env) : List PlatformUserRow :=
  match c.1 with
  | .seed passwordHash =>
    if c.2.fault.isNone ∧ ∀ r ∈ rows, r.email ≠ demoAdminEmail ∧ r.id ≠ c.2.genRandomUuid then
      [seedRow passwordHash c.2]
    else []
  | _ => []

/-- An update that keeps the id and the email is never refused. -/
theorem PlatformStatement.run_update {set : PlatformUserRow → PlatformUserRow}
    (hid : ∀ r, (set r).id = r.id) (hemail : ∀ r, (set r).email = r.email) (id : String)
    (table : PlatformUsers) :
    ∃ table', (PlatformStatement.update id set).run table = .ok (.done, table') ∧
      table'.rows = table.rows.map fun r => if r.id = id then set r else r := by
  have hkeys : ∀ ix ∈ platformIndexes, ∀ r, ix.key (set r) = ix.key r := by
    intro ix hix r
    rcases List.mem_pair.1 hix with rfl | rfl
    · exact congrArg some (hid r)
    · exact congrArg some (hemail r)
  have hunique : UniqueKeys platformIndexes ([] ++ table.rows) := table.unique
  have hok : Sql.update platformIndexes (fun r => Sql.eq (some r.id) (some id)) set [] table.rows =
      .ok (table.rows.map fun r => if r.id = id then set r else r) := by
    rw [update_eq_ok hunique hkeys, List.nil_append]
    simp only [holds_eq_some, decide_eq_true_eq]
  rw [PlatformStatement.run]
  split
  · next hrun => cases hok.symm.trans hrun
  · next rows hrun => exact ⟨_, rfl, Except.ok.inj (hrun.symm.trans hok)⟩

theorem platform_violated_eq_none {rows : List PlatformUserRow} {row : PlatformUserRow} :
    violated platformIndexes rows row = none ↔
      ∀ r ∈ rows, r.email ≠ row.email ∧ r.id ≠ row.id := by
  rw [violated_eq_none]
  constructor
  · intro h r hr
    refine ⟨fun he => ?_, fun hi => ?_⟩
    · exact h _ (List.mem_pair.2 (Or.inr rfl)) r hr ⟨row.email, rfl, congrArg some he⟩
    · exact h _ (List.mem_pair.2 (Or.inl rfl)) r hr ⟨row.id, rfl, congrArg some hi⟩
  · rintro h ix hix r hr ⟨k, hk, hk'⟩
    rcases List.mem_pair.1 hix with rfl | rfl
    · exact (h r hr).2 (Option.some.inj (hk'.trans hk.symm))
    · exact (h r hr).1 (Option.some.inj (hk'.trans hk.symm))

/-- The row of a seed goes in exactly where its email and its id are new. -/
theorem PlatformStatement.run_insertOrNothing (row : PlatformUserRow) (table : PlatformUsers) :
    (∀ r ∈ table.rows, r.email ≠ row.email ∧ r.id ≠ row.id) ∧
        (∃ table', (PlatformStatement.insertOrNothing row).run table = .ok (.done, table') ∧
          table'.rows = table.rows ++ [row]) ∨
      (¬ ∀ r ∈ table.rows, r.email ≠ row.email ∧ r.id ≠ row.id) ∧
        ((PlatformStatement.insertOrNothing row).run table = .ok (.done, table) ∨
          ∃ error, (PlatformStatement.insertOrNothing row).run table = .error error) := by
  have hsame : (∃ r ∈ table.rows, SameKey (fun r => some r.email) row r) ↔
      ∃ r ∈ table.rows, r.email = row.email := by
    simp only [SameKey, Option.some.injEq, exists_eq_left']
  rw [PlatformStatement.run]
  split
  · next ix hrun =>
    refine Or.inr ⟨fun hnew => ?_, Or.inr ⟨_, rfl⟩⟩
    have hnone : ¬ ∃ r ∈ table.rows, SameKey (fun r => some r.email) row r := by
      rw [hsame]
      rintro ⟨r, hr, hemail⟩
      exact (hnew r hr).1 hemail
    have hinsert := insert_eq_ok.2 ⟨platform_violated_eq_none.2 hnew, rfl⟩
    cases hrun.symm.trans (insertOrNothing_eq_ok.2 (Or.inr ⟨hnone, hinsert⟩))
  · next rows hrun =>
    rcases insertOrNothing_eq_ok.1 hrun with ⟨hold, rfl⟩ | ⟨-, hinsert⟩
    · obtain ⟨r, hr, hemail⟩ := hsame.1 hold
      exact Or.inr ⟨fun hnew => (hnew r hr).1 hemail, Or.inl rfl⟩
    · obtain ⟨hnew, hrows⟩ := insert_eq_ok.1 hinsert
      exact Or.inl ⟨platform_violated_eq_none.1 hnew, _, rfl, hrows⟩

/-- An update's statement sets the columns it writes in the row it is for. -/
theorem PlatformOp.statement_of_target {op : PlatformOp} {id : String} (h : op.target = some id)
    {env : Env} (hf : env.fault = none) :
    ∃ set, op.statement env = .update id set ∧ (∀ r, (set r).id = r.id) ∧
      (∀ r, (set r).email = r.email) ∧ ∀ r, r.id = id → set r = r.after [(op, env)] := by
  have hupdates : ∀ r : PlatformUserRow, r.id = id → Updates r.id (op, env) = true := by
    rintro r rfl
    simp [Updates, hf, h]
  have hafter : ∀ r : PlatformUserRow, r.id = id →
      [(op, env)].filter (Updates r.id) = [(op, env)] :=
    fun r hr => List.filter_cons_of_pos (hupdates r hr)
  cases op <;> cases h <;>
    exact ⟨_, rfl, fun r => rfl, fun r => rfl, fun r hr => by
      rw [PlatformUserRow.after, hafter r hr]
      rfl⟩

/-- What a call does to the rows. -/
theorem invoke_rows (c : PlatformOp × Env) (table : PlatformUsers) :
    (c.1.invoke c.2 table).2.rows = table.rows.map (·.after [c]) ++ seeded table.rows c := by
  obtain ⟨op, env⟩ := c
  have hkept : (∀ r : PlatformUserRow, Updates r.id (op, env) = false) →
      table.rows = table.rows.map (·.after [(op, env)]) := fun h =>
    ((List.map_congr_left fun r _ => r.after_of_not_updates (h r)).trans (List.map_id' _)).symm
  unfold PlatformOp.invoke
  cases hf : env.fault with
  | some fault =>
    have hseeded : seeded table.rows (op, env) = [] := by
      cases op <;> simp [seeded, hf]
    rw [hseeded, List.append_nil]
    exact hkept fun r => by simp [Updates, hf]
  | none =>
    cases ht : op.target with
    | some id =>
      obtain ⟨set, hst, hid, hemail, hset⟩ := PlatformOp.statement_of_target ht hf
      obtain ⟨table', hrun, hrows⟩ := PlatformStatement.run_update hid hemail id table
      have hseeded : seeded table.rows (op, env) = [] := by
        cases op <;> first | rfl | cases ht
      rw [hseeded, List.append_nil]
      simp only [hst, hrun, hrows]
      refine List.map_congr_left fun r _ => ?_
      split_ifs with hr
      · exact hset r hr
      · exact (r.after_of_not_updates (by simp [Updates, ht, Ne.symm hr])).symm
    | none =>
      have hrows := hkept fun r => by simp [Updates, ht]
      cases op with
      | findById id => exact hrows.trans (List.append_nil _).symm
      | findByEmail email => exact hrows.trans (List.append_nil _).symm
      | seed passwordHash =>
        have hnone : env.fault.isNone := by
          rw [hf]
          rfl
        rw [← hrows]
        simp only [PlatformOp.statement]
        rcases PlatformStatement.run_insertOrNothing (seedRow passwordHash env) table with
          ⟨hnew, table', hrun, hadded⟩ | ⟨hold, hrun⟩
        · have hseed : seeded table.rows (.seed passwordHash, env) = [seedRow passwordHash env] :=
            if_pos ⟨hnone, hnew⟩
          rw [hrun, hseed]
          exact hadded
        · have hseed : seeded table.rows (.seed passwordHash, env) = [] :=
            if_neg fun h => hold h.2
          rw [hseed, List.append_nil]
          rcases hrun with hrun | ⟨error, hrun⟩ <;> rw [hrun]
      | _ => cases ht

theorem mem_seeded {rows : List PlatformUserRow} {c : PlatformOp × Env} {r : PlatformUserRow}
    (h : r ∈ seeded rows c) :
    ∃ passwordHash, c.1 = .seed passwordHash ∧ c.2.fault = none ∧ r = seedRow passwordHash c.2 := by
  obtain ⟨op, env⟩ := c
  cases op with
  | seed passwordHash =>
    simp only [seeded] at h
    split_ifs at h with hnew
    · exact ⟨passwordHash, rfl, Option.isNone_iff_eq_none.1 hnew.1, List.mem_singleton.1 h⟩
    · cases h
  | _ => cases h

/-- What the calls do to the rows : those there were are updated, and those of seeds are added
and updated from then on. -/
theorem runPlatform_rows (calls : List (PlatformOp × Env)) (table : PlatformUsers) :
    ∃ created, (runPlatform calls table).rows = table.rows.map (·.after calls) ++ created ∧
      ∀ r ∈ created, ∃ pre passwordHash env post,
        calls = pre ++ (.seed passwordHash, env) :: post ∧ env.fault = none ∧
          r = (seedRow passwordHash env).after post := by
  induction calls generalizing table with
  | nil => exact ⟨[], by simp [runPlatform], by simp⟩
  | cons c calls ih =>
    obtain ⟨created, hrows, hcreated⟩ := ih (c.1.invoke c.2 table).2
    have hafter : ∀ r : PlatformUserRow, (r.after [c]).after calls = r.after (c :: calls) :=
      fun r => (r.after_append [c] calls).symm
    refine ⟨(seeded table.rows c).map (·.after calls) ++ created, ?_, fun r hr => ?_⟩
    · refine hrows.trans ?_
      rw [invoke_rows, List.map_append, List.map_map, List.append_assoc]
      exact congrArg (· ++ _) (List.map_congr_left fun r _ => hafter r)
    · rcases List.mem_append.1 hr with hr | hr
      · obtain ⟨row, hrow, rfl⟩ := List.mem_map.1 hr
        obtain ⟨passwordHash, hop, hf, rfl⟩ := mem_seeded hrow
        exact ⟨[], passwordHash, c.2, calls, by rw [← hop]; rfl, hf, rfl⟩
      · obtain ⟨pre, passwordHash, env, post, rfl, hf, rfl⟩ := hcreated r hr
        exact ⟨c :: pre, passwordHash, env, post, rfl, hf, rfl⟩

theorem PlatformUsers.nodup_emails (table : PlatformUsers) :
    (table.rows.map PlatformUserRow.email).Nodup := by
  have hunique := table.unique _ (List.mem_pair.2 (Or.inr rfl))
  rwa [List.filterMap_eq_map'] at hunique

/-- Over any calls, no row is lost or given another identity, and every column has the value of
the last call that wrote it. At most one row is added, where none had the demo administrator's
email : the row of a seed, updated from then on. -/
theorem platform_rows (calls : List (PlatformOp × Env)) (table : PlatformUsers) :
    ∃ created, (runPlatform calls table).rows = table.rows.map (·.after calls) ++ created ∧
      (created = [] ∨ (∀ r ∈ table.rows, r.email ≠ demoAdminEmail) ∧
        ∃ pre passwordHash env post,
          calls = pre ++ (.seed passwordHash, env) :: post ∧ env.fault = none ∧
            created = [(seedRow passwordHash env).after post]) := by
  obtain ⟨created, hrows, hcreated⟩ := runPlatform_rows calls table
  refine ⟨created, hrows, ?_⟩
  have hemail : ∀ r ∈ created, r.email = demoAdminEmail := by
    intro r hr
    obtain ⟨pre, passwordHash, env, post, -, -, rfl⟩ := hcreated r hr
    rfl
  -- the emails of the table at the end are distinct, and every added row has the same one
  have hnodup := (runPlatform calls table).nodup_emails
  rw [hrows, List.map_append, List.map_map] at hnodup
  obtain ⟨-, hadded, hdisjoint⟩ := List.nodup_append.1 hnodup
  cases created with
  | nil => exact Or.inl rfl
  | cons r rest =>
    have hr := hemail r List.mem_cons_self
    obtain rfl : rest = [] := by
      refine List.eq_nil_iff_forall_not_mem.2 fun r' hr' => ?_
      refine (List.nodup_cons.1 hadded).1 (List.mem_map.2 ⟨r', hr', ?_⟩)
      rw [hr, hemail r' (List.mem_cons_of_mem r hr')]
    refine Or.inr ⟨fun r₀ hr₀ he => ?_, ?_⟩
    · exact hdisjoint r₀.email (List.mem_map.2 ⟨r₀, hr₀, rfl⟩) r.email
        (List.mem_map.2 ⟨r, List.mem_cons_self, rfl⟩) (he.trans hr.symm)
    · obtain ⟨pre, passwordHash, env, post, hcalls, hf, rfl⟩ := hcreated r List.mem_cons_self
      exact ⟨pre, passwordHash, env, post, hcalls, hf, rfl⟩

/-! ## The listing -/

/-- The call without the credentials it carries. -/
def PlatformOp.redact : PlatformOp → PlatformOp
  | updateMfa id data => updateMfa id { data with mfaSecret := none, mfaRecoveryCodes := none }
  | updatePassword id _ => updatePassword id ""
  | seed _ => seed ""
  | op => op

/-- What a call does to the columns that are no credentials depends on none that it carries. -/
theorem PlatformUserRow.after_redact (r : PlatformUserRow) (c : PlatformOp × Env) :
    (r.after [c]).safe = (r.after [(c.1.redact, c.2)]).safe := by
  obtain ⟨op, env⟩ := c
  have hsame : Updates r.id (op.redact, env) = Updates r.id (op, env) := by
    cases op <;> rfl
  cases hu : Updates r.id (op, env) with
  | false => rw [r.after_of_not_updates hu, r.after_of_not_updates (hsame.trans hu)]
  | true =>
    simp only [after, List.filter_cons_of_pos hu, List.filter_cons_of_pos (hsame.trans hu),
      List.filter_nil]
    cases op <;> rfl

/-- Nor on those of the row. -/
theorem PlatformUserRow.safe_after {r r' : PlatformUserRow} (h : r.safe = r'.safe)
    (calls : List (PlatformOp × Env)) : (r.after calls).safe = (r'.after calls).safe := by
  simp only [safe, SafeAuthPlatformUser.mk.injEq] at h
  obtain ⟨hid, hemail, hname, hrole, hstatus, hmfa, hplatform, hlogin, hupdated, hcreated⟩ := h
  simp only [safe, after, hid, hemail, hname, hrole, hstatus, hmfa, hplatform, hlogin, hupdated,
    hcreated]

theorem seeded_redact (rows : List PlatformUserRow) (c : PlatformOp × Env) :
    (seeded rows c).map PlatformUserRow.safe =
      (seeded rows (c.1.redact, c.2)).map PlatformUserRow.safe := by
  obtain ⟨op, env⟩ := c
  cases op with
  | seed passwordHash =>
    simp only [seeded, PlatformOp.redact, apply_ite (List.map PlatformUserRow.safe)]
    rfl
  | _ => rfl

theorem safe_seeded {rows rows' : List PlatformUserRow}
    (h : rows.map PlatformUserRow.safe = rows'.map PlatformUserRow.safe)
    (c : PlatformOp × Env) : seeded rows c = seeded rows' c := by
  have hnew : ∀ p : SafeAuthPlatformUser → Prop,
      (∀ r ∈ rows, p r.safe) ↔ ∀ r ∈ rows', p r.safe := fun p => by
    rw [← List.forall_mem_map (P := p), h, List.forall_mem_map]
  unfold seeded
  split
  · next passwordHash =>
    have := hnew fun r => r.email ≠ demoAdminEmail ∧ r.id ≠ c.2.genRandomUuid
    simp only [PlatformUserRow.safe] at this
    simp only [this]
  · rfl

/-- Lists with equal images under `f` have equal images under what depends on `f` only. -/
theorem map_eq_of_map_eq {α β γ : Type*} {f : α → β} {g g' : α → γ}
    (hg : ∀ a a', f a = f a' → g a = g' a') {l l' : List α} (h : l.map f = l'.map f) :
    l.map g = l'.map g' := by
  rw [← List.forall₂_eq_eq_eq, List.forall₂_map_left_iff, List.forall₂_map_right_iff] at h ⊢
  exact h.imp fun a a' => hg a a'

/-- Calls that differ in credentials only, on tables that do, leave tables that do. -/
theorem invoke_safe {table table' : PlatformUsers}
    (h : table.rows.map PlatformUserRow.safe = table'.rows.map PlatformUserRow.safe)
    {c c' : PlatformOp × Env} (hc : (c.1.redact, c.2) = (c'.1.redact, c'.2)) :
    (c.1.invoke c.2 table).2.rows.map PlatformUserRow.safe =
      (c'.1.invoke c'.2 table').2.rows.map PlatformUserRow.safe := by
  rw [invoke_rows, invoke_rows, List.map_append, List.map_append, List.map_map, List.map_map]
  congr 1
  · refine map_eq_of_map_eq (fun r r' hr => ?_) h
    calc
      (r.after [c]).safe = (r.after [(c'.1.redact, c'.2)]).safe := by rw [r.after_redact, hc]
      _ = (r'.after [(c'.1.redact, c'.2)]).safe := PlatformUserRow.safe_after hr _
      _ = (r'.after [c']).safe := (r'.after_redact c').symm
  · rw [seeded_redact, hc, safe_seeded h, ← seeded_redact]

theorem runPlatform_safe {table table' : PlatformUsers}
    (h : table.rows.map PlatformUserRow.safe = table'.rows.map PlatformUserRow.safe)
    {calls calls' : List (PlatformOp × Env)}
    (hcalls : calls.map (fun c => (c.1.redact, c.2)) = calls'.map fun c => (c.1.redact, c.2)) :
    (runPlatform calls table).rows.map PlatformUserRow.safe =
      (runPlatform calls' table').rows.map PlatformUserRow.safe := by
  induction calls generalizing calls' table table' with
  | nil =>
    obtain rfl : calls' = [] := List.map_eq_nil_iff.1 hcalls.symm
    exact h
  | cons c calls ih =>
    cases calls' with
    | nil => cases hcalls
    | cons c' calls' =>
      obtain ⟨hc, hrest⟩ := List.cons.inj hcalls
      exact ih (invoke_safe h hc) hrest

/-- Two histories of the table that differ only in the password hashes, MFA secrets and recovery
codes stored in it have the same listing. -/
theorem list_noninterference {table table' : PlatformUsers}
    (h : table.rows.map PlatformUserRow.safe = table'.rows.map PlatformUserRow.safe)
    {calls calls' : List (PlatformOp × Env)}
    (hcalls : calls.map (fun c => (c.1.redact, c.2)) = calls'.map fun c => (c.1.redact, c.2)) :
    listPlatformUsers (runPlatform calls table) =
      listPlatformUsers (runPlatform calls' table') := by
  have hkey : ∀ r : PlatformUserRow, SafeAuthPlatformUser.createdAt r.safe = r.createdAt :=
    fun _ => rfl
  have hlist : ∀ table : PlatformUsers, listPlatformUsers table =
      (orderBy (· ≤ ·) SafeAuthPlatformUser.createdAt
        (table.rows.map PlatformUserRow.safe)).take listLimit := fun table =>
    List.map_take.trans (congrArg (List.take listLimit)
      (map_orderBy PlatformUserRow.safe hkey table.rows))
  rw [hlist, hlist, runPlatform_safe h hcalls]

/-- The empty table. -/
def noPlatformUsers : PlatformUsers where
  rows := []
  unique := fun _ _ => List.nodup_nil

/-- What Postgres brings to the calls of the example. -/
def platformEnv : Env where
  genRandomUuid := "p1"
  now := 7
  fault := none

theorem list_noninterference_twoPasswords :
    (runPlatform [(.seed "h1", platformEnv), (.updatePassword "p1" "h2", platformEnv)]
        noPlatformUsers).rows ≠
      (runPlatform [(.seed "h1", platformEnv), (.updatePassword "p1" "h3", platformEnv)]
        noPlatformUsers).rows ∧
    listPlatformUsers (runPlatform
        [(.seed "h1", platformEnv), (.updatePassword "p1" "h2", platformEnv)] noPlatformUsers) =
      listPlatformUsers (runPlatform
        [(.seed "h1", platformEnv), (.updatePassword "p1" "h3", platformEnv)] noPlatformUsers) :=
  ⟨by decide +kernel, list_noninterference rfl rfl⟩

end AuthExample
