import AuthExample.Calls
import AuthExample.PlatformUsers

/-!
# The seed

The development seed inserts the demo tenants, the platform administrator and the administrator
of a tenant, one statement after the other, each with `ON CONFLICT … DO NOTHING`. Between its
statements the repositories, and other seeds, run theirs on the same tables.

A `Database` is a state of these tables that meets the schema. `seed_provisions` : whatever
happens between its statements, the seed ends with everything provisioned, or for a failure that
no row with its tenants and emails causes, and no row is ever lost. `seed_again` : where everything
is provisioned, a seed is as if it had not run.
-/

namespace AuthExample

open Sql Calls Runs

/-- More tenants are known. -/
theorem UsersOk.mono {tenants tenants' : List String} {rows : List UserRow}
    (h : UsersOk tenants rows) (ht : tenants ⊆ tenants') : UsersOk tenants' rows :=
  ⟨h.ids, h.emails, h.oauth, fun r hr => ht (h.tenants r hr)⟩

namespace Seed

/-! ## The tables -/

/-- `tenants` : a row. -/
structure TenantRow where
  id : String
  name : String
  createdAt : ℤ
  deriving DecidableEq

/-- The primary key of `tenants`. -/
def tenantIndexes : List (UniqueIndex TenantRow String) :=
  [{ name := "tenants_pkey", key := fun r => some r.id }]

/-- The ids of the tenants. -/
def tenantIds (tenants : List TenantRow) : List String := tenants.map TenantRow.id

/-- The tables the seed writes, as the schema asks for them. -/
structure Database where
  tenants : List TenantRow
  users : List UserRow
  platformUsers : PlatformUsers
  tenantKeys : UniqueKeys tenantIndexes tenants
  usersOk : UsersOk (tenantIds tenants) users

/-- An operation of the users' repository. -/
def Database.invokeUsers (op : UserOp) (env : Env) (db : Database) : Database :=
  { db with
    users := (op.invoke (tenantIds db.tenants) env db.users).2
    usersOk := UserOp.invoke_usersOk db.usersOk op env }

/-- A call on the platform users. -/
def Database.invokePlatform (op : PlatformOp) (env : Env) (db : Database) : Database :=
  { db with platformUsers := (op.invoke env db.platformUsers).2 }

/-- `INSERT INTO tenants (id, name) … ON CONFLICT (id) DO NOTHING`. -/
def insertTenant (id name : String) (env : Env) (db : Database) : Except SqlxError Database :=
  match h : insertOrNothing tenantIndexes (fun r => some r.id) ⟨id, name, env.now⟩ db.tenants with
  | .error ix => .error (.database (some pgUniqueViolation) (some ix.name))
  | .ok tenants => .ok { db with
      tenants
      tenantKeys := db.tenantKeys.of_insertOrNothing h
      usersOk := db.usersOk.mono <| by
        rcases insertOrNothing_cases h with ⟨-, rfl⟩ | rfl
        · exact List.Subset.refl _
        · exact List.map_subset _ (List.subset_append_left _ _) }

/-- `INSERT INTO platform_users … ON CONFLICT (email) DO NOTHING`. -/
def insertPlatformAdmin (passwordHash : String) (env : Env) (db : Database) :
    Except SqlxError Database :=
  match (PlatformStatement.insertOrNothing (seedRow passwordHash env)).run db.platformUsers with
  | .error error => .error error
  | .ok (_, platformUsers) => .ok { db with platformUsers }

/-- `DEMO_TENANT_ADMIN_EMAIL`. -/
def demoTenantAdminEmail : String := "admin@acme.test"

/-- `DEMO_TENANT_ADMIN_TENANT`. -/
def demoTenantAdminTenant : String := "acme"

/-- The row the seed inserts for the tenant's administrator. -/
def tenantAdminRow (passwordHash : String) (env : Env) : UserRow where
  id := env.genRandomUuid
  email := demoTenantAdminEmail
  name := "Acme Admin"
  passwordHash := some passwordHash
  role := "admin"
  status := "active"
  tenantId := demoTenantAdminTenant
  emailVerified := true
  mfaEnabled := false
  mfaSecret := none
  mfaRecoveryCodes := none
  oauthProvider := none
  oauthProviderId := none
  lastLoginAt := none
  createdAt := env.now

/-- `INSERT INTO users … ON CONFLICT (tenant_id, email) DO NOTHING`. -/
def insertTenantAdmin (passwordHash : String) (env : Env) (db : Database) :
    Except SqlxError Database :=
  match h : insertOrNothing userIndexes (fun r => some [r.tenantId, r.email])
      (tenantAdminRow passwordHash env) db.users with
  | .error ix => .error (uniqueViolation ix)
  | .ok users =>
    if ht : ∀ r ∈ users, r.tenantId ∈ tenantIds db.tenants then
      .ok { db with
        users
        usersOk := by
          obtain ⟨hids, hemails, hoauth⟩ :=
            uniqueKeys_iff.1 (db.usersOk.uniqueKeys.of_insertOrNothing h)
          exact ⟨hids, hemails, hoauth, ht⟩ }
    else .error foreignKeyViolation

/-! ## The seed -/

/-- What the seed calls : a statement, or the library's hash of a password. -/
inductive SeedCall where
  | insertTenant (id name : String)
  | hash (password : String)
  | insertPlatformAdmin (passwordHash : String)
  | insertTenantAdmin (passwordHash : String)

/-- What a call resolves with. -/
abbrev SeedCall.Reply : SeedCall → Type
  | hash _ => String
  | _ => Unit

/-- Why a seed ends early. -/
inductive SeedError where
  | sqlx (error : SqlxError)
  | hash (message : String)

/-- `DEMO_TENANTS`. -/
def demoTenants : List (String × String) := [("acme", "Acme Inc."), ("globex", "Globex Corp.")]

/-- `DEMO_ADMIN_PASSWORD`. -/
def demoAdminPassword : String := "ChangeMe!Demo123"

/-- The seed, once it is connected. -/
def seed : Fallible SeedError SeedCall SeedCall.Reply Unit := do
  for tenant in demoTenants do
    perform (SeedCall.insertTenant tenant.1 tenant.2)
  let platformAdminHash ← perform (SeedCall.hash demoAdminPassword)
  let tenantAdminHash ← perform (SeedCall.hash demoAdminPassword)
  perform (SeedCall.insertPlatformAdmin platformAdminHash)
  perform (SeedCall.insertTenantAdmin tenantAdminHash)

/-- What comes to a call from outside : what Postgres brings to its statement, and the hash, with
its salt, or why there is none. -/
structure Chance where
  env : Env
  hash : Except String String

/-- Run a statement. One that fails leaves the database alone. -/
def runStatement (env : Env) (statement : Env → Database → Except SqlxError Database)
    (db : Database) : Except SeedError Unit × Database :=
  match env.fault with
  | some fault => (.error (.sqlx fault.error), db)
  | none =>
    match statement env db with
    | .ok db' => (.ok (), db')
    | .error error => (.error (.sqlx error), db)

/-- Make the call. -/
def SeedCall.invoke (chance : Chance) (db : Database) :
    (call : SeedCall) → Except SeedError call.Reply × Database
  | insertTenant id name => runStatement chance.env (Seed.insertTenant id name) db
  | hash _ => (chance.hash.mapError SeedError.hash, db)
  | insertPlatformAdmin passwordHash =>
    runStatement chance.env (Seed.insertPlatformAdmin passwordHash) db
  | insertTenantAdmin passwordHash =>
    runStatement chance.env (Seed.insertTenantAdmin passwordHash) db

/-- The database, and what will come to the seed's next call. -/
structure Store where
  db : Database
  chance : Chance

/-- What happens between the calls of the seed : a call of a repository or of another seed, or
something else comes to the next call. -/
inductive Other where
  | users (op : UserOp) (env : Env)
  | platformUsers (op : PlatformOp) (env : Env)
  | seed (call : SeedCall) (chance : Chance)
  | chance (next : Chance)

/-- The database after one of these. -/
def Other.next (s : Store) : Other → Store
  | users op env => { s with db := s.db.invokeUsers op env }
  | platformUsers op env => { s with db := s.db.invokePlatform op env }
  | seed call its => { s with db := (call.invoke its s.db).2 }
  | chance next => { s with chance := next }

/-- The seed's database. -/
def seedSystem : System SeedCall (fun call => Except SeedError call.Reply) Store Other where
  serve call s := ({ s with db := (call.invoke s.chance s.db).2 }, (call.invoke s.chance s.db).1)
  act other s := some (other.next s)

/-- The seed, started on a database. -/
def started (s : Store) : Config SeedCall (fun call => Except SeedError call.Reply) Store Other
    (Except SeedError Unit) :=
  ⟨seed.run, ⟨s, []⟩⟩

/-- The database and what has happened to it. -/
abbrev SeedWorld := World SeedCall (fun call => Except SeedError call.Reply) Store Other

/-! ## What is kept -/

/-- No row of the database is lost : tenants are as they were, and users keep what identifies
them. -/
structure Kept (db db' : Database) : Prop where
  tenants : db.tenants <+: db'.tenants
  users : ∀ r ∈ db.users, ∃ r' ∈ db'.users, r'.id = r.id ∧ SameEmail r' r
  platformUsers : ∀ r ∈ db.platformUsers.rows, ∃ r' ∈ db'.platformUsers.rows,
    r'.id = r.id ∧ r'.email = r.email

namespace Kept

variable {db db' db'' : Database}

theorem refl (db : Database) : Kept db db :=
  ⟨List.prefix_rfl, fun r hr => ⟨r, hr, rfl, rfl, rfl⟩, fun r hr => ⟨r, hr, rfl, rfl⟩⟩

theorem trans (h : Kept db db') (h' : Kept db' db'') : Kept db db'' := by
  refine ⟨h.tenants.trans h'.tenants, fun r hr => ?_, fun r hr => ?_⟩
  · obtain ⟨r', hr', hid, htenant, hemail⟩ := h.users r hr
    obtain ⟨r'', hr'', hid', htenant', hemail'⟩ := h'.users r' hr'
    exact ⟨r'', hr'', hid'.trans hid, htenant'.trans htenant, hemail'.trans hemail⟩
  · obtain ⟨r', hr', hid, hemail⟩ := h.platformUsers r hr
    obtain ⟨r'', hr'', hid', hemail'⟩ := h'.platformUsers r' hr'
    exact ⟨r'', hr'', hid'.trans hid, hemail'.trans hemail⟩

/-- A database with more rows. -/
theorem of_subset (ht : db.tenants <+: db'.tenants) (hu : db.users ⊆ db'.users)
    (hp : db.platformUsers.rows ⊆ db'.platformUsers.rows) : Kept db db' :=
  ⟨ht, fun r hr => ⟨r, hu hr, rfl, rfl, rfl⟩, fun r hr => ⟨r, hp hr, rfl, rfl⟩⟩

end Kept

/-- A statement of the repository keeps what identifies a user. -/
theorem users_kept {tenants : List String} {rows : List UserRow} (op : UserOp) (env : Env)
    {r : UserRow} (hr : r ∈ rows) :
    ∃ r' ∈ (op.invoke tenants env rows).2, r'.id = r.id ∧ SameEmail r' r := by
  rcases UserOp.invoke_cases tenants op env rows with
    ⟨_, -, he⟩ | ⟨-, ⟨_, -, he⟩ | ⟨reply, rows', hrun, he⟩⟩ <;> rw [he]
  · exact ⟨r, hr, rfl, rfl, rfl⟩
  · exact ⟨r, hr, rfl, rfl, rfl⟩
  · cases hst : op.statement env with
    | select cond =>
      rw [hst] at hrun
      cases hrun
      exact ⟨r, hr, rfl, rfl, rfl⟩
    | insert row =>
      rw [hst] at hrun
      obtain ⟨-, -, hins⟩ := Statement.run_insert_eq_ok hrun
      obtain ⟨-, rfl⟩ := insert_eq_ok.1 hins
      exact ⟨r, List.mem_append_left _ hr, rfl, rfl, rfl⟩
    | update id set =>
      have hsame := UserOp.statement_update_identity hst r
      rw [hst] at hrun
      rw [Statement.rows_of_update hrun]
      refine ⟨_, List.mem_map_of_mem hr, ?_⟩
      split_ifs
      · exact hsame
      · exact ⟨rfl, rfl, rfl⟩

theorem kept_invokeUsers (op : UserOp) (env : Env) (db : Database) :
    Kept db (db.invokeUsers op env) :=
  ⟨List.prefix_rfl, fun _ hr => users_kept op env hr, fun r hr => ⟨r, hr, rfl, rfl⟩⟩

theorem kept_invokePlatform (op : PlatformOp) (env : Env) (db : Database) :
    Kept db (db.invokePlatform op env) := by
  refine ⟨List.prefix_rfl, fun r hr => ⟨r, hr, rfl, rfl, rfl⟩, fun r hr => ?_⟩
  refine ⟨r.after [(op, env)], ?_, rfl, rfl⟩
  show _ ∈ (op.invoke env db.platformUsers).2.rows
  rw [invoke_rows (op, env)]
  exact List.mem_append_left _ (List.mem_map_of_mem hr)

/-! ## The calls -/

/-- What a call of the seed is for is there. -/
def SeedCall.Provided (db : Database) : SeedCall → Prop
  | insertTenant id _ => id ∈ tenantIds db.tenants
  | hash _ => True
  | insertPlatformAdmin _ => ∃ r ∈ db.platformUsers.rows, r.email = demoAdminEmail
  | insertTenantAdmin _ =>
    ∃ r ∈ db.users, r.tenantId = demoTenantAdminTenant ∧ r.email = demoTenantAdminEmail

/-- It stays there. -/
theorem Kept.provided {db db' : Database} (h : Kept db db') (call : SeedCall)
    (hcall : call.Provided db) : call.Provided db' := by
  cases call with
  | insertTenant id name => exact List.map_subset _ h.tenants.subset hcall
  | hash password => trivial
  | insertPlatformAdmin passwordHash =>
    obtain ⟨r, hr, hemail⟩ := hcall
    obtain ⟨r', hr', -, hemail'⟩ := h.platformUsers r hr
    exact ⟨r', hr', hemail'.trans hemail⟩
  | insertTenantAdmin passwordHash =>
    obtain ⟨r, hr, htenant, hemail⟩ := hcall
    obtain ⟨r', hr', -, htenant', hemail'⟩ := h.users r hr
    exact ⟨r', hr', htenant'.trans htenant, hemail'.trans hemail⟩

/-- A failure that no row with the seed's tenants and emails causes : one of the server's own, one
of the hash, or an id that is generated twice. -/
def SeedError.Blameless (error : SeedError) : Prop :=
  (∃ message, error = .hash message) ∨ (∃ fault : Fault, error = .sqlx fault.error) ∨
    ∃ name ∈ ["platform_users_pkey", "users_pkey"],
      error = .sqlx (.database (some pgUniqueViolation) (some name))

/-- What a statement that succeeds does : what it is for is there then, and nothing changes where
it was there before. -/
structure Provides (P : Database → Prop) (db db' : Database) : Prop where
  kept : Kept db db'
  provided : P db'
  idle : P db → db' = db

theorem insertTenant_provides {id name : String} {env : Env} {db db' : Database}
    (h : insertTenant id name env db = .ok db') :
    Provides (SeedCall.insertTenant id name).Provided db db' := by
  unfold insertTenant at h
  split at h
  · cases h
  · next tenants hins =>
    cases h
    have hsame : (∃ r ∈ db.tenants, SameKey (fun r => some r.id) ⟨id, name, env.now⟩ r) ↔
        id ∈ tenantIds db.tenants := by
      simp [SameKey, tenantIds]
    refine ⟨Kept.of_subset ?_ (List.Subset.refl _) (List.Subset.refl _), ?_, fun hold => ?_⟩
    · rcases insertOrNothing_cases hins with ⟨-, rfl⟩ | rfl
      · exact List.prefix_rfl
      · exact List.prefix_append _ _
    · rcases insertOrNothing_cases hins with ⟨hold, rfl⟩ | rfl
      · exact hsame.1 hold
      · simp [SeedCall.Provided, tenantIds]
    · rcases insertOrNothing_eq_ok.1 hins with ⟨-, rfl⟩ | ⟨hnew, -⟩
      · rfl
      · exact absurd (hsame.2 hold) hnew

theorem insertTenant_ne_error {id name : String} {env : Env} {db : Database} {error : SqlxError} :
    insertTenant id name env db ≠ .error error := by
  intro h
  unfold insertTenant at h
  split at h
  · next ix hins =>
    obtain ⟨hix, hold, hnew⟩ := insertOrNothing_eq_error hins
    obtain rfl := List.mem_singleton.1 hix
    exact hnew hold
  · cases h

/-- The run of the platform administrator's statement. -/
theorem insertPlatformAdmin_cases (passwordHash : String) (env : Env) (db : Database) :
    (∃ rows, insertOrNothing platformIndexes (fun r => some r.email) (seedRow passwordHash env)
          db.platformUsers.rows = .ok rows ∧
        ∃ hunique, insertPlatformAdmin passwordHash env db =
          .ok { db with platformUsers := ⟨rows, hunique⟩ }) ∨
      ∃ ix, insertOrNothing platformIndexes (fun r => some r.email) (seedRow passwordHash env)
          db.platformUsers.rows = .error ix ∧
        insertPlatformAdmin passwordHash env db = .error (platformViolation ix) := by
  unfold insertPlatformAdmin
  rw [PlatformStatement.run]
  split
  · next error hrun =>
    split at hrun
    · next ix hins =>
      cases hrun
      exact Or.inr ⟨ix, hins, rfl⟩
    · cases hrun
  · next platformUsers hrun =>
    split at hrun
    · cases hrun
    · next rows hins =>
      cases hrun
      exact Or.inl ⟨rows, hins, db.platformUsers.unique.of_insertOrNothing hins, rfl⟩

theorem insertPlatformAdmin_provides {passwordHash : String} {env : Env} {db db' : Database}
    (h : insertPlatformAdmin passwordHash env db = .ok db') :
    Provides (SeedCall.insertPlatformAdmin passwordHash).Provided db db' := by
  have hsame : (∃ r ∈ db.platformUsers.rows,
      SameKey (fun r => some r.email) (seedRow passwordHash env) r) ↔
        ∃ r ∈ db.platformUsers.rows, r.email = demoAdminEmail := by
    simp [SameKey, seedRow]
  rcases insertPlatformAdmin_cases passwordHash env db with
    ⟨rows, hins, hunique, hrun⟩ | ⟨ix, -, hrun⟩ <;> cases hrun.symm.trans h
  refine ⟨Kept.of_subset List.prefix_rfl (List.Subset.refl _) ?_, ?_, fun hold => ?_⟩
  · rcases insertOrNothing_cases hins with ⟨-, rfl⟩ | rfl
    · exact List.Subset.refl _
    · exact List.subset_append_left _ _
  · rcases insertOrNothing_cases hins with ⟨hold, rfl⟩ | rfl
    · exact hsame.1 hold
    · exact ⟨_, List.mem_append_right _ List.mem_cons_self, rfl⟩
  · rcases insertOrNothing_eq_ok.1 hins with ⟨-, rfl⟩ | ⟨hnew, -⟩
    · rfl
    · exact absurd (hsame.2 hold) hnew

theorem insertPlatformAdmin_blameless {passwordHash : String} {env : Env} {db : Database}
    {error : SqlxError} (h : insertPlatformAdmin passwordHash env db = .error error) :
    (SeedError.sqlx error).Blameless := by
  rcases insertPlatformAdmin_cases passwordHash env db with
    ⟨rows, -, hunique, hrun⟩ | ⟨ix, hins, hrun⟩ <;> cases hrun.symm.trans h
  obtain ⟨hix, hold, hnew⟩ := insertOrNothing_eq_error hins
  rcases List.mem_pair.1 hix with rfl | rfl
  · exact Or.inr (Or.inr ⟨_, List.mem_cons_self, rfl⟩)
  · exact absurd hold hnew

theorem insertTenantAdmin_provides {passwordHash : String} {env : Env} {db db' : Database}
    (h : insertTenantAdmin passwordHash env db = .ok db') :
    Provides (SeedCall.insertTenantAdmin passwordHash).Provided db db' := by
  unfold insertTenantAdmin at h
  split at h
  · cases h
  · next users hins =>
    split_ifs at h
    cases h
    have hsame : (∃ r ∈ db.users,
        SameKey (fun r => some [r.tenantId, r.email]) (tenantAdminRow passwordHash env) r) ↔
          ∃ r ∈ db.users, r.tenantId = demoTenantAdminTenant ∧ r.email = demoTenantAdminEmail := by
      simp [SameKey, tenantAdminRow]
    refine ⟨Kept.of_subset List.prefix_rfl ?_ (List.Subset.refl _), ?_, fun hold => ?_⟩
    · rcases insertOrNothing_cases hins with ⟨-, rfl⟩ | rfl
      · exact List.Subset.refl _
      · exact List.subset_append_left _ _
    · rcases insertOrNothing_cases hins with ⟨hold, rfl⟩ | rfl
      · exact hsame.1 hold
      · exact ⟨_, List.mem_append_right _ List.mem_cons_self, rfl, rfl⟩
    · rcases insertOrNothing_eq_ok.1 hins with ⟨-, rfl⟩ | ⟨hnew, -⟩
      · rfl
      · exact absurd (hsame.2 hold) hnew

/-- Once the tenant is there, only a generated id is refused. -/
theorem insertTenantAdmin_blameless {passwordHash : String} {env : Env} {db : Database}
    {error : SqlxError} (htenant : demoTenantAdminTenant ∈ tenantIds db.tenants)
    (h : insertTenantAdmin passwordHash env db = .error error) :
    (SeedError.sqlx error).Blameless := by
  unfold insertTenantAdmin at h
  split at h
  · next ix hins =>
    cases h
    obtain ⟨hix, ⟨r, hr, hkey⟩, hnew⟩ := insertOrNothing_eq_error hins
    simp only [userIndexes, List.mem_cons, List.not_mem_nil, or_false] at hix
    rcases hix with rfl | rfl | rfl
    · exact Or.inr (Or.inr ⟨_, List.mem_cons_of_mem _ List.mem_cons_self, rfl⟩)
    · exact absurd ⟨r, hr, hkey⟩ hnew
    · obtain ⟨k, hk, -⟩ := hkey
      cases hk
  · next users hins =>
    split_ifs at h with ht
    refine absurd (fun r hr => ?_) ht
    rcases insertOrNothing_cases hins with ⟨-, rfl⟩ | rfl
    · exact db.usersOk.tenants r hr
    · rcases List.mem_append.1 hr with hr | hr
      · exact db.usersOk.tenants r hr
      · obtain rfl := List.mem_singleton.1 hr
        exact htenant

/-- What a statement may do. -/
theorem runStatement_cases (env : Env) (statement : Env → Database → Except SqlxError Database)
    (db : Database) :
    (∃ fault : Fault, runStatement env statement db = (.error (.sqlx fault.error), db)) ∨
      (∃ error, statement env db = .error error ∧
        runStatement env statement db = (.error (.sqlx error), db)) ∨
      ∃ db', statement env db = .ok db' ∧ runStatement env statement db = (.ok (), db') := by
  unfold runStatement
  cases env.fault with
  | some fault => exact Or.inl ⟨fault, rfl⟩
  | none =>
    cases statement env db with
    | error error => exact Or.inr (Or.inl ⟨error, rfl, rfl⟩)
    | ok db' => exact Or.inr (Or.inr ⟨db', rfl, rfl⟩)

/-- What a call may do : it fails and leaves the database alone, or it does what it is for. -/
theorem SeedCall.invoke_cases (call : SeedCall) (chance : Chance) (db : Database) :
    (∃ error, (call.invoke chance db).1 = .error error ∧ (call.invoke chance db).2 = db ∧
        ((∀ passwordHash, call = .insertTenantAdmin passwordHash →
          demoTenantAdminTenant ∈ tenantIds db.tenants) → error.Blameless)) ∨
      (∃ reply, (call.invoke chance db).1 = .ok reply) ∧
        Provides call.Provided db (call.invoke chance db).2 := by
  cases call with
  | hash password =>
    have hrun : (hash password).invoke chance db = (chance.hash.mapError SeedError.hash, db) := rfl
    rw [hrun]
    cases chance.hash with
    | error message =>
      exact Or.inl ⟨.hash message, rfl, rfl, fun _ => Or.inl ⟨message, rfl⟩⟩
    | ok passwordHash =>
      exact Or.inr ⟨⟨passwordHash, rfl⟩, Kept.refl db, trivial, fun _ => rfl⟩
  | insertTenant id name =>
    simp only [invoke]
    rcases runStatement_cases chance.env (Seed.insertTenant id name) db with
      ⟨fault, hrun⟩ | ⟨error, herror, -⟩ | ⟨db', hok, hrun⟩
    · rw [hrun]
      exact Or.inl ⟨_, rfl, rfl, fun _ => Or.inr (Or.inl ⟨fault, rfl⟩)⟩
    · exact absurd herror insertTenant_ne_error
    · rw [hrun]
      exact Or.inr ⟨⟨(), rfl⟩, insertTenant_provides hok⟩
  | insertPlatformAdmin passwordHash =>
    simp only [invoke]
    rcases runStatement_cases chance.env (Seed.insertPlatformAdmin passwordHash) db with
      ⟨fault, hrun⟩ | ⟨error, herror, hrun⟩ | ⟨db', hok, hrun⟩ <;> rw [hrun]
    · exact Or.inl ⟨_, rfl, rfl, fun _ => Or.inr (Or.inl ⟨fault, rfl⟩)⟩
    · exact Or.inl ⟨_, rfl, rfl, fun _ => insertPlatformAdmin_blameless herror⟩
    · exact Or.inr ⟨⟨(), rfl⟩, insertPlatformAdmin_provides hok⟩
  | insertTenantAdmin passwordHash =>
    simp only [invoke]
    rcases runStatement_cases chance.env (Seed.insertTenantAdmin passwordHash) db with
      ⟨fault, hrun⟩ | ⟨error, herror, hrun⟩ | ⟨db', hok, hrun⟩ <;> rw [hrun]
    · exact Or.inl ⟨_, rfl, rfl, fun _ => Or.inr (Or.inl ⟨fault, rfl⟩)⟩
    · exact Or.inl ⟨_, rfl, rfl, fun htenant =>
        insertTenantAdmin_blameless (htenant passwordHash rfl) herror⟩
    · exact Or.inr ⟨⟨(), rfl⟩, insertTenantAdmin_provides hok⟩

theorem SeedCall.kept_invoke (call : SeedCall) (chance : Chance) (db : Database) :
    Kept db (call.invoke chance db).2 := by
  rcases call.invoke_cases chance db with ⟨_, -, hsame, -⟩ | ⟨-, hprovides⟩
  · rw [hsame]
    exact Kept.refl db
  · exact hprovides.kept

theorem SeedCall.invoke_idle {call : SeedCall} (chance : Chance) {db : Database}
    (h : call.Provided db) : (call.invoke chance db).2 = db := by
  rcases call.invoke_cases chance db with ⟨_, -, hsame, -⟩ | ⟨-, hprovides⟩
  · exact hsame
  · exact hprovides.idle h

theorem Other.kept_next (other : Other) (s : Store) : Kept s.db (other.next s).db := by
  cases other with
  | users op env => exact kept_invokeUsers op env s.db
  | platformUsers op env => exact kept_invokePlatform op env s.db
  | seed call chance => exact call.kept_invoke chance s.db
  | chance next => exact Kept.refl s.db

/-! ## Every interleaving -/

/-- Everything the seed is for is there : the demo tenants and both administrators. -/
structure Provisioned (db : Database) : Prop where
  tenants : ∀ tenant ∈ demoTenants, tenant.1 ∈ tenantIds db.tenants
  platformAdmin : ∃ r ∈ db.platformUsers.rows, r.email = demoAdminEmail
  tenantAdmin : ∃ r ∈ db.users, r.tenantId = demoTenantAdminTenant ∧ r.email = demoTenantAdminEmail

theorem Kept.provisioned {db db' : Database} (h : Kept db db') (hdb : Provisioned db) :
    Provisioned db' :=
  ⟨fun tenant ht => h.provided (.insertTenant tenant.1 tenant.2) (hdb.tenants tenant ht),
    h.provided (.insertPlatformAdmin "") hdb.platformAdmin,
    h.provided (.insertTenantAdmin "") hdb.tenantAdmin⟩

/-- A step loses no row. -/
theorem kept_step {α : Type} {c c' : Config SeedCall (fun call => Except SeedError call.Reply)
    Store Other α} {a : Act Other} (h : seedSystem.step c a = some c') :
    Kept c.world.store.db c'.world.store.db := by
  cases a with
  | own =>
    obtain ⟨call, next, -, rfl⟩ := seedSystem.own_eq_some h
    exact call.kept_invoke _ _
  | other other =>
    obtain ⟨world, hworld, rfl⟩ := seedSystem.other_eq_some h
    obtain ⟨s, hs, rfl⟩ := seedSystem.acted_eq_some hworld
    cases hs
    exact other.kept_next _

/-- The calls whose part is there. -/
def AllProvided (calls : List SeedCall) (w : SeedWorld) : Prop :=
  ∀ call ∈ calls, call.Provided w.store.db

theorem stable_allProvided (calls : List SeedCall) : Stable seedSystem (AllProvided calls) := by
  intro w other w' hw hact
  obtain ⟨s, hs, rfl⟩ := seedSystem.acted_eq_some hact
  cases hs
  exact fun call hcall => (other.kept_next w.store).provided call (hw call hcall)

/-- The assertion for an error of the seed. -/
def Excused (error : SeedError) (_ : SeedWorld) : Prop := error.Blameless

theorem stable_true : Stable seedSystem fun _ => True := fun _ _ _ _ _ => trivial

/-- A call of the seed adds its part to those that are there. -/
theorem wpExcept_call {calls : List SeedCall} {call : SeedCall}
    (htenant : ∀ passwordHash, call = .insertTenantAdmin passwordHash →
      ∃ name, .insertTenant demoTenantAdminTenant name ∈ calls)
    {w : SeedWorld} (hw : AllProvided calls w) :
    wpExcept seedSystem (fun _ => True) (fun _ => AllProvided (call :: calls)) Excused
      (perform call) w := by
  refine wpExcept_perform (stable_allProvided calls) (fun _ => stable_allProvided _)
    (fun error w other w' herror _ => herror) stable_true (fun w hw => ⟨trivial, trivial, ?_⟩) hw
  have hserve : seedSystem.serve call w.store = ({ w.store with
      db := (call.invoke w.store.chance w.store.db).2 },
      (call.invoke w.store.chance w.store.db).1) := rfl
  have hstore : (seedSystem.served call w).store.db =
      (call.invoke w.store.chance w.store.db).2 := rfl
  rcases call.invoke_cases w.store.chance w.store.db with
    ⟨error, herror, -, hblameless⟩ | ⟨⟨reply, hreply⟩, hprovides⟩
  · rw [hserve, herror]
    refine hblameless fun passwordHash hcall => ?_
    obtain ⟨name, hname⟩ := htenant passwordHash hcall
    exact hw _ hname
  · rw [hserve, hreply]
    refine List.forall_mem_cons.2 ⟨hprovides.provided, fun call' hcall' => ?_⟩
    rw [hstore]
    exact hprovides.kept.provided call' (hw call' hcall')

/-- The statements for the tenants. -/
def tenantCalls (tenants : List (String × String)) : List SeedCall :=
  tenants.map fun tenant => .insertTenant tenant.1 tenant.2

/-- The loop over the tenants. -/
theorem wpExcept_tenants (w : SeedWorld) :
    wpExcept seedSystem (fun _ => True) (fun _ => AllProvided (tenantCalls demoTenants)) Excused
      (forIn demoTenants PUnit.unit fun tenant _ => do
        perform (SeedCall.insertTenant tenant.1 tenant.2)
        pure (ForInStep.yield PUnit.unit)) w := by
  -- the tenants before those that are left are there
  refine wpExcept_forIn (L := fun left _ w => ∃ done, demoTenants = done ++ left ∧
    AllProvided (tenantCalls done) w) ?_ ?_ ⟨[], rfl, by simp [AllProvided, tenantCalls]⟩
  · rintro tenant left - w ⟨done, hdone, hw⟩
    refine wpExcept_bind (wpExcept_call (by simp) hw) fun _ w hw => ?_
    refine wpExcept_pure (stable_allProvided _) (fun w hw => ⟨trivial, done ++ [tenant],
      by simp [hdone], fun call hcall => hw call ?_⟩) hw
    rw [tenantCalls, List.map_append, List.mem_append] at hcall
    rcases hcall with hcall | hcall
    · exact List.mem_cons_of_mem _ hcall
    · exact List.mem_singleton.1 hcall ▸ List.mem_cons_self
  · rintro - w ⟨done, hdone, hw⟩
    rw [List.append_nil] at hdone
    rw [← hdone] at hw
    exact wpExcept_pure (stable_allProvided _) (fun w hw => ⟨trivial, hw⟩) hw

/-- The seed ends with everything provisioned, or with an error that is excused. -/
theorem wpExcept_seed (w : SeedWorld) :
    wpExcept seedSystem (fun _ => True) (fun _ w => Provisioned w.store.db) Excused seed w := by
  refine wpExcept_bind (wpExcept_tenants w) fun _ w hw => ?_
  refine wpExcept_bind (wpExcept_call (by simp) hw) fun platformAdminHash w hw => ?_
  refine wpExcept_bind (wpExcept_call (by simp) hw) fun tenantAdminHash w hw => ?_
  refine wpExcept_bind (wpExcept_call (by simp) hw) fun _ w hw => ?_
  have htenant :
      SeedCall.insertTenant demoTenantAdminTenant "Acme Inc." ∈ tenantCalls demoTenants :=
    List.mem_cons_self
  refine wp_mono ?_ (wpExcept_call (fun _ _ => ⟨"Acme Inc.", by simp [htenant]⟩) hw)
  rintro (error | _) w hw
  · exact hw
  · exact ⟨fun tenant ht => hw (.insertTenant tenant.1 tenant.2) (by simp [tenantCalls, ht]),
      hw (.insertPlatformAdmin platformAdminHash) (by simp),
      hw (.insertTenantAdmin tenantAdminHash) (by simp)⟩

/-- The calls of the seed. -/
theorem only_seed :
    seed.run.Only fun call : SeedCall => ∀ db, Provisioned db → call.Provided db := by
  refine only_bind (only_forIn (fun tenant ht _ => ?_) _) fun _ => ?_
  · exact only_bind (only_perform fun db hdb => hdb.tenants tenant ht) fun _ => trivial
  · refine only_bind (only_perform fun _ _ => trivial) fun _ => ?_
    refine only_bind (only_perform fun _ _ => trivial) fun _ => ?_
    refine only_bind (only_perform fun _ hdb => hdb.platformAdmin) fun _ => ?_
    exact only_perform fun _ hdb => hdb.tenantAdmin

/-- The seed makes at most six calls. -/
theorem within_seed : seed.run.Within 6 := by
  refine within_bind (n := 2) (m := 4) (within_forIn (n := 1) (fun tenant _ => ?_) demoTenants _)
    fun _ => ?_
  · exact within_bind (m := 0) (within_perform _) fun _ => trivial
  · refine within_bind (m := 3) (within_perform _) fun _ => ?_
    refine within_bind (m := 2) (within_perform _) fun _ => ?_
    exact within_bind (m := 1) (within_perform _) fun _ => within_perform _

/-- A database without rows. -/
def noRows : Database where
  tenants := []
  users := []
  platformUsers := noPlatformUsers
  tenantKeys := fun _ _ => List.nodup_nil
  usersOk := .empty

/-- What comes to the calls of the examples. -/
def plainChance : Chance where
  env := platformEnv
  hash := .ok "h"

/-- Another seed inserts the second tenant. -/
def twoSeeds : List (Act Other) :=
  [.own, .other (.seed (.insertTenant "globex" "Globex Corp.") plainChance), .own, .own, .own, .own,
    .own]

/-- Where everything is provisioned already, the database is at any time what the others alone
have made of it. -/
theorem seed_again {s : Store} (hdb : Provisioned s.db) {as : List (Act Other)}
    {c : Config SeedCall (fun call => Except SeedError call.Reply) Store Other
      (Except SeedError Unit)}
    (h : run seedSystem.step (started s) as = some c) :
    c.world.store = (othersActs as).foldl Other.next s := by
  have halone := run_eq_actRun (I := fun s => Provisioned s.db)
    (fun call s hcall hs =>
      congrArg (Store.mk · s.chance) (SeedCall.invoke_idle s.chance (hcall _ hs)))
    (fun other s s' hs hact => ?_) only_seed hdb h
  · exact (Option.some.inj (halone.symm.trans (run_some (fun s other => Other.next s other) s _)))
  · cases hact
    exact (other.kept_next s).provisioned hs

/-- A database that another seed has provisioned. -/
def seededStore : Store :=
  [.seed (.insertTenant "acme" "Acme Inc.") plainChance,
    .seed (.insertTenant "globex" "Globex Corp.") plainChance,
    .seed (.insertPlatformAdmin "h") plainChance,
    .seed (.insertTenantAdmin "h") plainChance].foldl Other.next ⟨noRows, plainChance⟩

/-- The tenant's administrator is banned while the seed runs again. -/
def bannedMeanwhile : List (Act Other) :=
  [.own, .own, .other (.users (.updateStatus "p1" "banned") platformEnv), .own, .own, .own, .own]

theorem seed_again_bannedMeanwhile :
    ∃ c, run seedSystem.step (started seededStore) bannedMeanwhile = some c ∧
      c.program = .ret (.ok ()) ∧ c.world.store.db.users.map UserRow.status = ["banned"] ∧
      c.world.store = (othersActs bannedMeanwhile).foldl Other.next seededStore := by
  have hrun : run seedSystem.step (started seededStore) bannedMeanwhile = some _ := rfl
  have hseeded : Provisioned seededStore.db :=
    ⟨by decide +kernel, by decide +kernel, by decide +kernel⟩
  exact ⟨_, hrun, rfl, by decide +kernel, seed_again hseeded hrun⟩

end Seed

end AuthExample
