import AuthExample.Sql

/-!
# The dashboard users

`SqlxUserRepository` runs one statement per operation against the `users` table, whose
primary key, foreign key and two unique indexes Postgres enforces. A statement fails as a
whole : on a violated index, on an unknown tenant, or for a reason of its own (`Env.fault`).

An operation here is a function of what Postgres brings to its statement (`Env`) and of
the rows. `users_contract` is the contract over every sequence of operations from an
empty table.
-/

namespace AuthExample

open Sql

/-! ## Rows -/

/-- `users` : a row. Times are in microseconds. -/
structure UserRow where
  id : String
  email : String
  name : String
  passwordHash : Option String
  role : String
  status : String
  tenantId : String
  emailVerified : Bool
  mfaEnabled : Bool
  mfaSecret : Option String
  mfaRecoveryCodes : Option (List String)
  oauthProvider : Option String
  oauthProviderId : Option String
  lastLoginAt : Option ℤ
  createdAt : ℤ
  deriving DecidableEq

/-- `AuthUser` : the engine's record of a user. -/
structure AuthUser where
  id : String
  email : String
  name : String
  passwordHash : Option String
  role : String
  status : String
  tenantId : String
  emailVerified : Bool
  mfaEnabled : Bool
  mfaSecret : Option String
  mfaRecoveryCodes : Option (List String)
  oauthProvider : Option String
  oauthProviderId : Option String
  lastLoginAt : Option ℤ
  createdAt : ℤ
  deriving DecidableEq

/-- `AuthUser::from`. -/
def AuthUser.ofRow (row : UserRow) : AuthUser where
  id := row.id
  email := row.email
  name := row.name
  passwordHash := row.passwordHash
  role := row.role
  status := row.status
  tenantId := row.tenantId
  emailVerified := row.emailVerified
  mfaEnabled := row.mfaEnabled
  mfaSecret := row.mfaSecret
  mfaRecoveryCodes := row.mfaRecoveryCodes
  oauthProvider := row.oauthProvider
  oauthProviderId := row.oauthProviderId
  lastLoginAt := row.lastLoginAt
  createdAt := row.createdAt

/-- `CreateUserData`. -/
structure CreateUserData where
  email : String
  name : String
  passwordHash : Option String
  role : Option String
  status : Option String
  tenantId : String
  emailVerified : Option Bool

/-- `CreateWithOAuthData`. -/
structure CreateWithOAuthData where
  email : String
  name : String
  role : Option String
  status : Option String
  tenantId : String
  emailVerified : Option Bool
  oauthProvider : String
  oauthProviderId : String

/-- `UpdateMfaData`. -/
structure UpdateMfaData where
  mfaEnabled : Bool
  mfaSecret : Option String
  mfaRecoveryCodes : Option (List String)

/-! ## Errors -/

/-- `sqlx::Error` : an error Postgres reports, with its code and constraint, or any other. -/
inductive SqlxError where
  | database (code : Option String) (constraint : Option String)
  | other (message : String)
  deriving DecidableEq

/-- `RepositoryError`, in the two cases this repository raises. -/
inductive RepositoryError where
  | conflict (constraint : String)
  | backend (error : SqlxError)
  deriving DecidableEq

/-- The SQLSTATE of a violated unique constraint. -/
def pgUniqueViolation : String := "23505"

/-- The SQLSTATE of a violated foreign key. -/
def pgForeignKeyViolation : String := "23503"

/-- The label of a constraint without a name. -/
def unnamedConstraint : String := "unique"

/-- `map_sqlx_error`. -/
def mapSqlxError (error : SqlxError) : RepositoryError :=
  match error with
  | .database code constraint =>
    if code = some pgUniqueViolation then .conflict (constraint.getD unnamedConstraint)
    else .backend error
  | .other _ => .backend error

/-- A failure that is no violated unique constraint : an unreachable server, a timeout, a
value the server refuses. -/
structure Fault where
  error : SqlxError
  notUnique : ∀ constraint, error ≠ .database (some pgUniqueViolation) constraint

/-- What Postgres brings to a statement : the id it generates, its clock, and a failure of
the statement that no constraint causes. -/
structure Env where
  genRandomUuid : String
  now : ℤ
  fault : Option Fault

/-! ## The schema -/

/-- The key of the OAuth index, which leaves out the rows with a `NULL` provider or provider
id. -/
def oauthKey (r : UserRow) : Option (List String) :=
  match r.oauthProvider, r.oauthProviderId with
  | some provider, some providerId => some [r.tenantId, provider, providerId]
  | _, _ => none

/-- The primary key and the two unique indexes. -/
def userIndexes : List (UniqueIndex UserRow (List String)) :=
  [{ name := "users_pkey", key := fun r => some [r.id] },
    { name := "users_tenant_email_uidx", key := fun r => some [r.tenantId, r.email] },
    { name := "users_oauth_uidx", key := oauthKey }]

/-- A statement of the repository : `SELECT … WHERE` read with `fetch_optional`,
`INSERT … RETURNING`, or `UPDATE … SET … WHERE id = $1`. -/
inductive Statement where
  | select (cond : UserRow → Cond)
  | insert (row : UserRow)
  | update (id : String) (set : UserRow → UserRow)

/-- What a statement returns. -/
inductive UserReply where
  | found (user : Option AuthUser)
  | created (user : AuthUser)
  | done
  deriving DecidableEq

/-- The error of a violated unique index. -/
def uniqueViolation (ix : UniqueIndex UserRow (List String)) : SqlxError :=
  .database (some pgUniqueViolation) (some ix.name)

/-- The error of a tenant that is not in `tenants`. -/
def foreignKeyViolation : SqlxError :=
  .database (some pgForeignKeyViolation) (some "users_tenant_id_fkey")

/-- Run a statement on the rows, where `tenants` are the ids of the `tenants` table. -/
def Statement.run (tenants : List String) (rows : List UserRow) :
    Statement → Except SqlxError (UserReply × List UserRow)
  | select cond => .ok (.found ((rows.find? fun r => holds (cond r)).map .ofRow), rows)
  | insert row =>
    match Sql.insert userIndexes row rows with
    | .error ix => .error (uniqueViolation ix)
    | .ok rows' =>
      if row.tenantId ∈ tenants then .ok (.created (.ofRow row), rows')
      else .error foreignKeyViolation
  | update id set =>
    match Sql.update userIndexes (fun r => Sql.eq (some r.id) (some id)) set [] rows with
    | .error ix => .error (uniqueViolation ix)
    | .ok rows' => .ok (.done, rows')

/-- Run one statement and map its error. A statement that fails leaves the rows alone. -/
def execute (tenants : List String) (statement : Env → Statement) (env : Env)
    (rows : List UserRow) : Except RepositoryError UserReply × List UserRow :=
  match env.fault with
  | some fault => (.error (mapSqlxError fault.error), rows)
  | none =>
    match (statement env).run tenants rows with
    | .ok (reply, rows') => (.ok reply, rows')
    | .error error => (.error (mapSqlxError error), rows)

/-! ## The repository -/

namespace SqlxUserRepository

/-- `id = $1 AND ($2 IS NULL OR tenant_id = $2)`. -/
def findById (id : String) (tenantId : Option String) : Env → Statement := fun _ =>
  .select fun r =>
    and (Sql.eq (some r.id) (some id)) (or (isNull tenantId) (Sql.eq (some r.tenantId) tenantId))

def findByEmail (email tenantId : String) : Env → Statement := fun _ =>
  .select fun r =>
    and (Sql.eq (some r.tenantId) (some tenantId)) (Sql.eq (some r.email) (some email))

def create (data : CreateUserData) : Env → Statement := fun env =>
  .insert {
    id := env.genRandomUuid
    email := data.email
    name := data.name
    passwordHash := data.passwordHash
    role := data.role.getD "user"
    status := data.status.getD "active"
    tenantId := data.tenantId
    emailVerified := data.emailVerified.getD false
    mfaEnabled := false
    mfaSecret := none
    mfaRecoveryCodes := none
    oauthProvider := none
    oauthProviderId := none
    lastLoginAt := none
    createdAt := env.now }

def updatePassword (id passwordHash : String) : Env → Statement := fun _ =>
  .update id fun r => { r with passwordHash := some passwordHash }

def updateMfa (id : String) (data : UpdateMfaData) : Env → Statement := fun _ =>
  .update id fun r => { r with
    mfaEnabled := data.mfaEnabled
    mfaSecret := data.mfaSecret
    mfaRecoveryCodes := data.mfaRecoveryCodes }

def updateLastLogin (id : String) : Env → Statement := fun env =>
  .update id fun r => { r with lastLoginAt := some env.now }

def updateStatus (id status : String) : Env → Statement := fun _ =>
  .update id fun r => { r with status }

def updateEmailVerified (id : String) (verified : Bool) : Env → Statement := fun _ =>
  .update id fun r => { r with emailVerified := verified }

def findByOauthId (provider providerId tenantId : String) : Env → Statement := fun _ =>
  .select fun r =>
    and (and (Sql.eq (some r.tenantId) (some tenantId)) (Sql.eq r.oauthProvider (some provider)))
      (Sql.eq r.oauthProviderId (some providerId))

def linkOauth (userId provider providerId : String) : Env → Statement := fun _ =>
  .update userId fun r => { r with
    oauthProvider := some provider
    oauthProviderId := some providerId }

def createWithOauth (data : CreateWithOAuthData) : Env → Statement := fun env =>
  .insert {
    id := env.genRandomUuid
    email := data.email
    name := data.name
    passwordHash := none
    role := data.role.getD "user"
    status := data.status.getD "active"
    tenantId := data.tenantId
    emailVerified := data.emailVerified.getD false
    mfaEnabled := false
    mfaSecret := none
    mfaRecoveryCodes := none
    oauthProvider := some data.oauthProvider
    oauthProviderId := some data.oauthProviderId
    lastLoginAt := none
    createdAt := env.now }

end SqlxUserRepository

/-- An operation of the repository, with its arguments. -/
inductive UserOp where
  | findById (id : String) (tenantId : Option String)
  | findByEmail (email tenantId : String)
  | create (data : CreateUserData)
  | updatePassword (id passwordHash : String)
  | updateMfa (id : String) (data : UpdateMfaData)
  | updateLastLogin (id : String)
  | updateStatus (id status : String)
  | updateEmailVerified (id : String) (verified : Bool)
  | findByOauthId (provider providerId tenantId : String)
  | linkOauth (userId provider providerId : String)
  | createWithOauth (data : CreateWithOAuthData)

namespace UserOp

/-- The statement of the operation. -/
def statement : UserOp → Env → Statement
  | findById id tenantId => SqlxUserRepository.findById id tenantId
  | findByEmail email tenantId => SqlxUserRepository.findByEmail email tenantId
  | create data => SqlxUserRepository.create data
  | updatePassword id passwordHash => SqlxUserRepository.updatePassword id passwordHash
  | updateMfa id data => SqlxUserRepository.updateMfa id data
  | updateLastLogin id => SqlxUserRepository.updateLastLogin id
  | updateStatus id status => SqlxUserRepository.updateStatus id status
  | updateEmailVerified id verified => SqlxUserRepository.updateEmailVerified id verified
  | findByOauthId provider providerId tenantId =>
    SqlxUserRepository.findByOauthId provider providerId tenantId
  | linkOauth userId provider providerId => SqlxUserRepository.linkOauth userId provider providerId
  | createWithOauth data => SqlxUserRepository.createWithOauth data

/-- Run the operation : what it returns, and the rows it leaves. -/
def invoke (tenants : List String) (op : UserOp) (env : Env) (rows : List UserRow) :
    Except RepositoryError UserReply × List UserRow :=
  execute tenants op.statement env rows

end UserOp

/-- The rows after a sequence of operations. -/
def runOps (tenants : List String) (calls : List (UserOp × Env)) (rows : List UserRow) :
    List UserRow :=
  calls.foldl (fun rows c => (c.1.invoke tenants c.2 rows).2) rows

/-! ## What the schema keeps -/

/-- Two rows of a tenant have one email. -/
def SameEmail (a b : UserRow) : Prop := a.tenantId = b.tenantId ∧ a.email = b.email

/-- Two rows of a tenant have one OAuth identity. -/
def SameOauth (a b : UserRow) : Prop :=
  ∃ provider providerId, a.tenantId = b.tenantId ∧
    (a.oauthProvider = some provider ∧ b.oauthProvider = some provider) ∧
    a.oauthProviderId = some providerId ∧ b.oauthProviderId = some providerId

/-- The rows meet the schema : its keys are unique, and every tenant is known. -/
structure UsersOk (tenants : List String) (rows : List UserRow) : Prop where
  ids : rows.Pairwise fun a b => a.id ≠ b.id
  emails : rows.Pairwise fun a b => ¬ SameEmail a b
  oauth : rows.Pairwise fun a b => ¬ SameOauth a b
  tenants : ∀ r ∈ rows, r.tenantId ∈ tenants

variable {tenants : List String} {rows rows' : List UserRow}

theorem sameKey_id {a b : UserRow} :
    SameKey (fun r : UserRow => some [r.id]) a b ↔ a.id = b.id := by
  simp [SameKey, eq_comm]

theorem sameKey_email {a b : UserRow} :
    SameKey (fun r : UserRow => some [r.tenantId, r.email]) a b ↔ SameEmail a b := by
  simp [SameKey, SameEmail, eq_comm]

theorem oauthKey_eq_some {r : UserRow} {k : List String} :
    oauthKey r = some k ↔ ∃ provider providerId, r.oauthProvider = some provider ∧
      r.oauthProviderId = some providerId ∧ k = [r.tenantId, provider, providerId] := by
  unfold oauthKey
  cases r.oauthProvider <;> cases r.oauthProviderId <;> simp [eq_comm]

theorem sameKey_oauth {a b : UserRow} : SameKey oauthKey a b ↔ SameOauth a b := by
  simp only [SameKey, SameOauth, oauthKey_eq_some]
  constructor
  · rintro ⟨_, ⟨p, pid, hp, hpid, rfl⟩, p', pid', hp', hpid', hk⟩
    obtain ⟨ht, rfl, rfl⟩ : a.tenantId = b.tenantId ∧ p = p' ∧ pid = pid' := by simpa using hk
    exact ⟨p, pid, ht, ⟨hp, hp'⟩, hpid, hpid'⟩
  · rintro ⟨p, pid, ht, ⟨hp, hp'⟩, hpid, hpid'⟩
    exact ⟨_, ⟨p, pid, hp, hpid, rfl⟩, p, pid, hp', hpid', by rw [ht]⟩

/-- What the three indexes say of the rows. -/
theorem uniqueKeys_iff :
    UniqueKeys userIndexes rows ↔
      (rows.Pairwise fun a b => a.id ≠ b.id) ∧ (rows.Pairwise fun a b => ¬ SameEmail a b) ∧
        rows.Pairwise fun a b => ¬ SameOauth a b := by
  simp [UniqueKeys, userIndexes, nodup_filterMap_iff, sameKey_id, sameKey_email, sameKey_oauth]

theorem UsersOk.uniqueKeys (h : UsersOk tenants rows) : UniqueKeys userIndexes rows :=
  uniqueKeys_iff.2 ⟨h.ids, h.emails, h.oauth⟩

/-- What violates an index. -/
theorem violated_ne_none {others : List UserRow} {r : UserRow} :
    violated userIndexes others r ≠ none ↔
      ∃ r' ∈ others, r.id = r'.id ∨ SameEmail r r' ∨ SameOauth r r' := by
  rw [Ne, violated_eq_none]
  simp only [userIndexes, List.forall_mem_cons, sameKey_id, sameKey_email, sameKey_oauth]
  grind

/-- Rows with one id are one row. -/
theorem UsersOk.eq_of_id (h : UsersOk tenants rows) {a b : UserRow} (ha : a ∈ rows)
    (hb : b ∈ rows) (hid : a.id = b.id) : a = b :=
  h.uniqueKeys.eq_of_sameKey List.mem_cons_self ha hb (sameKey_id.2 hid)

/-- The one row that has a property. -/
def OnlyRow (p : UserRow → Prop) (rows : List UserRow) (r : UserRow) : Prop :=
  (r ∈ rows ∧ p r) ∧ ∀ r' ∈ rows, p r' → r' = r

/-! ## Statements -/

/-- A statement violates a unique index : the row it writes has the id, the email or the
OAuth identity of another row. -/
def Statement.Violates (rows : List UserRow) : Statement → Prop
  | select _ => False
  | insert row => ∃ r ∈ rows, row.id = r.id ∨ SameEmail row r ∨ SameOauth row r
  | update id set => ∃ r ∈ rows, r.id = id ∧
      ∃ r' ∈ rows, r'.id ≠ id ∧ ((set r).id = r'.id ∨ SameEmail (set r) r' ∨ SameOauth (set r) r')

/-- A statement concerns a tenant : it creates or targets one of its rows. -/
def Statement.Concerns (rows : List UserRow) (tenant : String) : Statement → Prop
  | select _ => False
  | insert row => row.tenantId = tenant
  | update id _ => ∃ r ∈ rows, r.id = id ∧ r.tenantId = tenant

theorem Statement.run_insert_eq_ok {row : UserRow} {reply : UserReply}
    (h : (Statement.insert row).run tenants rows = .ok (reply, rows')) :
    row.tenantId ∈ tenants ∧ reply = .created (.ofRow row) ∧
      Sql.insert userIndexes row rows = .ok rows' := by
  simp only [Statement.run] at h
  split at h
  · cases h
  · next hins =>
    split_ifs at h with ht
    cases h
    exact ⟨ht, rfl, hins⟩

theorem Statement.run_update_eq_ok {id : String} {set : UserRow → UserRow} {reply : UserReply}
    (h : (Statement.update id set).run tenants rows = .ok (reply, rows')) :
    reply = .done ∧
      Sql.update userIndexes (fun r => Sql.eq (some r.id) (some id)) set [] rows = .ok rows' := by
  simp only [Statement.run] at h
  split at h
  · cases h
  · next hup =>
    cases h
    exact ⟨rfl, hup⟩

/-- An update sets the row with its id and leaves the others. -/
theorem Statement.rows_of_update {id : String} {set : UserRow → UserRow} {reply : UserReply}
    (h : (Statement.update id set).run tenants rows = .ok (reply, rows')) :
    rows' = rows.map fun r => if r.id = id then set r else r := by
  have hrows := eq_of_update_eq_ok (Statement.run_update_eq_ok h).2
  simpa only [holds_eq_some, decide_eq_true_eq, List.nil_append] using hrows

/-- A statement that succeeds keeps what the schema asks for. -/
theorem Statement.run_usersOk {st : Statement} {reply : UserReply} (h : UsersOk tenants rows)
    (hset : ∀ id set, st = .update id set → ∀ r, (set r).tenantId = r.tenantId)
    (hrun : st.run tenants rows = .ok (reply, rows')) : UsersOk tenants rows' := by
  cases st with
  | select cond =>
    cases hrun
    exact h
  | insert row =>
    obtain ⟨ht, -, hins⟩ := Statement.run_insert_eq_ok hrun
    obtain ⟨hids, hemails, hoauth⟩ := uniqueKeys_iff.1 (h.uniqueKeys.of_insert hins)
    refine ⟨hids, hemails, hoauth, ?_⟩
    obtain ⟨-, rfl⟩ := insert_eq_ok.1 hins
    rw [List.forall_mem_append]
    exact ⟨h.tenants, List.forall_mem_singleton.2 ht⟩
  | update id set =>
    have hu : UniqueKeys userIndexes ([] ++ rows) := h.uniqueKeys
    obtain ⟨hids, hemails, hoauth⟩ :=
      uniqueKeys_iff.1 (hu.of_update (Statement.run_update_eq_ok hrun).2)
    refine ⟨hids, hemails, hoauth, ?_⟩
    rw [Statement.rows_of_update hrun, List.forall_mem_map]
    intro r hr
    split_ifs
    · rw [hset id set rfl]
      exact h.tenants r hr
    · exact h.tenants r hr

/-- The row with an id, before the others and after them. -/
theorem UsersOk.split_at_id (h : UsersOk tenants rows) {r : UserRow} (hr : r ∈ rows) :
    ∃ pre post, rows = pre ++ r :: post ∧ ∀ a ∈ pre ++ post, a.id ≠ r.id := by
  obtain ⟨pre, post, rfl⟩ := List.append_of_mem hr
  refine ⟨pre, post, rfl, fun a ha => ?_⟩
  obtain ⟨-, hpost, hpre⟩ := List.pairwise_append.1 h.ids
  rcases List.mem_append.1 ha with ha | ha
  · exact hpre a ha r List.mem_cons_self
  · exact ((List.pairwise_cons.1 hpost).1 a ha).symm

/-- An update with the id of a row fails where the row's new version violates an index. -/
theorem UsersOk.update_isError (h : UsersOk tenants rows) {r : UserRow} (hr : r ∈ rows)
    (set : UserRow → UserRow) :
    (∃ ix, Sql.update userIndexes (fun a => Sql.eq (some a.id) (some r.id)) set [] rows =
        .error ix) ↔
      ∃ r' ∈ rows, r'.id ≠ r.id ∧
        ((set r).id = r'.id ∨ SameEmail (set r) r' ∨ SameOauth (set r) r') := by
  obtain ⟨pre, post, hrows, hne⟩ := h.split_at_id hr
  have hothers (r' : UserRow) : r' ∈ pre ++ post ↔ r' ∈ rows ∧ r'.id ≠ r.id := by
    rw [hrows]
    grind
  rw [hrows, update_one_isError _ (by simp) _, List.nil_append, violated_ne_none]
  · simp only [hothers, ← hrows, and_assoc]
  · exact fun a ha => by simpa using hne a (List.mem_append_left post ha)
  · exact fun a ha => by simpa using hne a (List.mem_append_right pre ha)

theorem uniqueViolation_ne_foreignKeyViolation (ix : UniqueIndex UserRow (List String)) :
    uniqueViolation ix ≠ foreignKeyViolation := by
  simp [uniqueViolation, foreignKeyViolation, pgUniqueViolation, pgForeignKeyViolation]

/-- A statement fails on a unique index exactly when it violates one. -/
theorem Statement.run_eq_uniqueViolation (h : UsersOk tenants rows) (st : Statement) :
    (∃ ix, st.run tenants rows = .error (uniqueViolation ix)) ↔ st.Violates rows := by
  cases st with
  | select cond => simp [Statement.run, Statement.Violates]
  | insert row =>
    rw [Statement.Violates, ← violated_ne_none]
    simp only [Statement.run, Sql.insert]
    cases hv : violated userIndexes rows row with
    | some ix => exact ⟨fun _ => Option.some_ne_none ix, fun _ => ⟨ix, rfl⟩⟩
    | none =>
      refine ⟨fun ⟨ix, he⟩ => ?_, fun he => absurd rfl he⟩
      simp only at he
      split_ifs at he
      exact absurd (Except.error.inj he).symm (uniqueViolation_ne_foreignKeyViolation ix)
  | update id set =>
    have herr : (∃ ix, (Statement.update id set).run tenants rows = .error (uniqueViolation ix)) ↔
        ∃ ix, Sql.update userIndexes (fun a => Sql.eq (some a.id) (some id)) set [] rows =
          .error ix := by
      simp only [Statement.run]
      cases Sql.update userIndexes (fun a => Sql.eq (some a.id) (some id)) set [] rows with
      | error ix => exact ⟨fun _ => ⟨ix, rfl⟩, fun _ => ⟨ix, rfl⟩⟩
      | ok rows' => simp
    by_cases hid : ∃ r ∈ rows, r.id = id
    · obtain ⟨r, hr, rfl⟩ := hid
      rw [herr, h.update_isError hr, Statement.Violates]
      refine ⟨fun hv => ⟨r, hr, rfl, hv⟩, fun ⟨r₁, hr₁, hid, hv⟩ => ?_⟩
      obtain rfl := h.eq_of_id hr₁ hr hid
      exact hv
    · have hno : ∀ a ∈ rows, holds (Sql.eq (some a.id) (some id)) = false := by
        simpa using fun a ha hid' => hid ⟨a, ha, hid'⟩
      rw [herr, update_none hno, Statement.Violates]
      refine ⟨nofun, fun ⟨r, hr, hid', _⟩ => absurd ⟨r, hr, hid'⟩ hid⟩

/-- Only a violated unique index has its code. -/
theorem Statement.run_error_unique {st : Statement} {constraint : Option String}
    (h : st.run tenants rows = .error (.database (some pgUniqueViolation) constraint)) :
    ∃ ix, st.run tenants rows = .error (uniqueViolation ix) := by
  cases st with
  | select cond => cases h
  | insert row =>
    simp only [Statement.run] at h ⊢
    cases hins : Sql.insert userIndexes row rows with
    | error ix => exact ⟨ix, rfl⟩
    | ok rows' =>
      rw [hins] at h
      simp only at h
      split_ifs at h
      simp [foreignKeyViolation, pgUniqueViolation, pgForeignKeyViolation] at h
  | update id set =>
    simp only [Statement.run] at h ⊢
    cases hup : Sql.update userIndexes (fun r => Sql.eq (some r.id) (some id)) set [] rows with
    | error ix => exact ⟨ix, rfl⟩
    | ok rows' =>
      rw [hup] at h
      cases h

/-! ## Operations -/

/-- A column of `users`. -/
inductive Column where
  | id | email | name | passwordHash | role | status | tenantId | emailVerified | mfaEnabled
  | mfaSecret | mfaRecoveryCodes | oauthProvider | oauthProviderId | lastLoginAt | createdAt
  deriving DecidableEq

/-- The value of a column. -/
inductive Value where
  | text (value : Option String)
  | bool (value : Bool)
  | texts (value : Option (List String))
  | time (value : Option ℤ)

/-- The value a row has in a column. -/
def UserRow.column (r : UserRow) : Column → Value
  | .id => .text (some r.id)
  | .email => .text (some r.email)
  | .name => .text (some r.name)
  | .passwordHash => .text r.passwordHash
  | .role => .text (some r.role)
  | .status => .text (some r.status)
  | .tenantId => .text (some r.tenantId)
  | .emailVerified => .bool r.emailVerified
  | .mfaEnabled => .bool r.mfaEnabled
  | .mfaSecret => .text r.mfaSecret
  | .mfaRecoveryCodes => .texts r.mfaRecoveryCodes
  | .oauthProvider => .text r.oauthProvider
  | .oauthProviderId => .text r.oauthProviderId
  | .lastLoginAt => .time r.lastLoginAt
  | .createdAt => .time (some r.createdAt)

namespace UserOp

/-- The id an update is for, and its own columns with the values it gives them. -/
def sets (env : Env) : UserOp → Option (String × List (Column × Value))
  | updatePassword id passwordHash => some (id, [(.passwordHash, .text (some passwordHash))])
  | updateMfa id data =>
    some (id, [(.mfaEnabled, .bool data.mfaEnabled), (.mfaSecret, .text data.mfaSecret),
      (.mfaRecoveryCodes, .texts data.mfaRecoveryCodes)])
  | updateLastLogin id => some (id, [(.lastLoginAt, .time (some env.now))])
  | updateStatus id status => some (id, [(.status, .text (some status))])
  | updateEmailVerified id verified => some (id, [(.emailVerified, .bool verified)])
  | linkOauth userId provider providerId =>
    some (userId, [(.oauthProvider, .text (some provider)),
      (.oauthProviderId, .text (some providerId))])
  | _ => none

/-- The columns of the row a create is for. -/
def creates (env : Env) : UserOp → Option (List (Column × Value))
  | create data =>
    some [(.id, .text (some env.genRandomUuid)), (.email, .text (some data.email)),
      (.name, .text (some data.name)), (.passwordHash, .text data.passwordHash),
      (.role, .text (some (data.role.getD "user"))),
      (.status, .text (some (data.status.getD "active"))),
      (.tenantId, .text (some data.tenantId)),
      (.emailVerified, .bool (data.emailVerified.getD false)), (.mfaEnabled, .bool false),
      (.mfaSecret, .text none), (.mfaRecoveryCodes, .texts none), (.oauthProvider, .text none),
      (.oauthProviderId, .text none), (.lastLoginAt, .time none),
      (.createdAt, .time (some env.now))]
  | createWithOauth data =>
    some [(.id, .text (some env.genRandomUuid)), (.email, .text (some data.email)),
      (.name, .text (some data.name)), (.passwordHash, .text none),
      (.role, .text (some (data.role.getD "user"))),
      (.status, .text (some (data.status.getD "active"))),
      (.tenantId, .text (some data.tenantId)),
      (.emailVerified, .bool (data.emailVerified.getD false)), (.mfaEnabled, .bool false),
      (.mfaSecret, .text none), (.mfaRecoveryCodes, .texts none),
      (.oauthProvider, .text (some data.oauthProvider)),
      (.oauthProviderId, .text (some data.oauthProviderId)), (.lastLoginAt, .time none),
      (.createdAt, .time (some env.now))]
  | _ => none

/-- The tenant a lookup is scoped to. -/
def scope : UserOp → Option String
  | findById _ tenantId => tenantId
  | findByEmail _ tenantId | findByOauthId _ _ tenantId => some tenantId
  | _ => none

/-- An update's statement sets its own columns. -/
theorem statement_of_sets {op : UserOp} {env : Env} {id : String}
    {cols : List (Column × Value)} (h : op.sets env = some (id, cols)) :
    ∃ set, op.statement env = .update id set ∧
      ∀ r c, (set r).column c = (cols.lookup c).getD (r.column c) := by
  cases op <;> simp only [sets, reduceCtorEq, Option.some.injEq, Prod.mk.injEq] at h <;>
    obtain ⟨rfl, rfl⟩ := h <;> exact ⟨_, rfl, fun r c => by cases c <;> rfl⟩

/-- A create's statement inserts the row with its columns. -/
theorem statement_of_creates {op : UserOp} {env : Env} {cols : List (Column × Value)}
    (h : op.creates env = some cols) :
    ∃ row, op.statement env = .insert row ∧ ∀ c, cols.lookup c = some (row.column c) := by
  cases op <;> simp only [creates, reduceCtorEq, Option.some.injEq] at h <;>
    subst h <;> exact ⟨_, rfl, fun c => by cases c <;> rfl⟩

/-- No update moves a row to another tenant. -/
theorem statement_update_tenantId {op : UserOp} {env : Env} {id : String}
    {set : UserRow → UserRow} (h : op.statement env = .update id set) (r : UserRow) :
    (set r).tenantId = r.tenantId := by
  cases op <;> cases h <;> rfl

/-- Or gives it another id or email. -/
theorem statement_update_identity {op : UserOp} {env : Env} {id : String}
    {set : UserRow → UserRow} (h : op.statement env = .update id set) (r : UserRow) :
    (set r).id = r.id ∧ SameEmail (set r) r := by
  cases op <;> cases h <;> exact ⟨rfl, rfl, rfl⟩

/-- A scoped lookup selects rows of its tenant. -/
theorem statement_of_scope {op : UserOp} {tenant : String} (h : op.scope = some tenant) :
    ∃ cond, (∀ env, op.statement env = .select cond) ∧
      ∀ r, holds (cond r) = true → r.tenantId = tenant := by
  cases op with
  | findById id tenantId =>
    obtain rfl : tenantId = some tenant := h
    refine ⟨_, fun _ => rfl, fun r hr => ?_⟩
    simp only [holds_and, holds_or, holds_isNull, Option.isNone_some, Bool.false_or, holds_eq_some,
      Bool.and_eq_true, decide_eq_true_eq] at hr
    exact hr.2
  | findByEmail email tenantId =>
    obtain rfl := Option.some.inj h
    refine ⟨_, fun _ => rfl, fun r hr => ?_⟩
    simp only [holds_and, holds_eq_some, Bool.and_eq_true, decide_eq_true_eq] at hr
    exact hr.1
  | findByOauthId provider providerId tenantId =>
    obtain rfl := Option.some.inj h
    refine ⟨_, fun _ => rfl, fun r hr => ?_⟩
    simp only [holds_and, holds_eq_some, Bool.and_eq_true, decide_eq_true_eq] at hr
    exact hr.1.1
  | _ => cases h

/-- An operation fails for a reason that is no constraint's, or by its statement, or
succeeds. -/
theorem invoke_cases (tenants : List String) (op : UserOp) (env : Env) (rows : List UserRow) :
    (∃ fault, env.fault = some fault ∧
        op.invoke tenants env rows = (.error (mapSqlxError fault.error), rows)) ∨
      env.fault = none ∧
        ((∃ error, (op.statement env).run tenants rows = .error error ∧
            op.invoke tenants env rows = (.error (mapSqlxError error), rows)) ∨
          ∃ reply rows', (op.statement env).run tenants rows = .ok (reply, rows') ∧
            op.invoke tenants env rows = (.ok reply, rows')) := by
  unfold invoke execute
  cases env.fault with
  | some fault => exact Or.inl ⟨fault, rfl, rfl⟩
  | none =>
    refine Or.inr ⟨rfl, ?_⟩
    cases (op.statement env).run tenants rows with
    | error error => exact Or.inl ⟨error, rfl, rfl⟩
    | ok out => exact Or.inr ⟨out.1, out.2, rfl, rfl⟩

/-- An operation keeps what the schema asks for. -/
theorem invoke_usersOk (h : UsersOk tenants rows) (op : UserOp) (env : Env) :
    UsersOk tenants (op.invoke tenants env rows).2 := by
  rcases invoke_cases tenants op env rows with
    ⟨_, -, he⟩ | ⟨-, ⟨_, -, he⟩ | ⟨reply, rows', hrun, he⟩⟩ <;> rw [he]
  · exact h
  · exact h
  · exact Statement.run_usersOk h (fun id set hst => statement_update_tenantId hst) hrun

theorem invoke_error {op : UserOp} {env : Env} {error : RepositoryError}
    (h : (op.invoke tenants env rows).1 = .error error) :
    (op.invoke tenants env rows).2 = rows := by
  rcases invoke_cases tenants op env rows with
    ⟨_, -, he⟩ | ⟨-, ⟨_, -, he⟩ | ⟨reply, rows', hrun, he⟩⟩
  · rw [he]
  · rw [he]
  · rw [he] at h
    cases h

theorem mapSqlxError_eq_conflict {error : SqlxError} {name : String}
    (h : mapSqlxError error = .conflict name) :
    ∃ constraint, error = .database (some pgUniqueViolation) constraint := by
  unfold mapSqlxError at h
  split at h
  · next code constraint =>
    split_ifs at h with hc
    exact ⟨constraint, by rw [hc]⟩
  · cases h

/-- A conflict is exactly a violated unique index. -/
theorem invoke_conflict_iff (h : UsersOk tenants rows) (op : UserOp) (env : Env) :
    (∃ name, (op.invoke tenants env rows).1 = .error (.conflict name)) ↔
      env.fault = none ∧ (op.statement env).Violates rows := by
  rw [← Statement.run_eq_uniqueViolation h]
  rcases invoke_cases tenants op env rows with
    ⟨fault, hf, he⟩ | ⟨hf, ⟨error, hrun, he⟩ | ⟨reply, rows', hrun, he⟩⟩
  · rw [he, hf]
    refine ⟨fun ⟨name, hn⟩ => ?_, fun hn => nomatch hn.1⟩
    obtain ⟨constraint, hc⟩ := mapSqlxError_eq_conflict (Except.error.inj hn)
    exact absurd hc (fault.notUnique constraint)
  · rw [he, hrun]
    refine ⟨fun ⟨name, hn⟩ => ⟨hf, ?_⟩, fun ⟨_, ix, hix⟩ => ⟨ix.name, ?_⟩⟩
    · obtain ⟨constraint, rfl⟩ := mapSqlxError_eq_conflict (Except.error.inj hn)
      exact (hrun ▸ Statement.run_error_unique hrun)
    · rw [Except.error.inj hix]
      rfl
  · rw [he, hrun]
    exact ⟨fun ⟨_, hn⟩ => (by cases hn), fun ⟨_, _, hix⟩ => (by cases hix)⟩

/-- An update changes its own columns of the row with its id. -/
theorem invoke_of_sets {op : UserOp} {env : Env} {id : String} {cols : List (Column × Value)}
    {reply : UserReply} (hs : op.sets env = some (id, cols))
    (hok : (op.invoke tenants env rows).1 = .ok reply) :
    List.Forall₂ (fun r r' : UserRow => (r.id ≠ id → r' = r) ∧
        (r.id = id → ∀ c, r'.column c = (cols.lookup c).getD (r.column c)))
      rows (op.invoke tenants env rows).2 := by
  obtain ⟨set, hst, hset⟩ := statement_of_sets hs
  rcases invoke_cases tenants op env rows with
    ⟨fault, hf, he⟩ | ⟨hf, ⟨error, hrun, he⟩ | ⟨reply, rows', hrun, he⟩⟩
  · rw [he] at hok
    cases hok
  · rw [he] at hok
    cases hok
  · rw [he]
    rw [hst] at hrun
    simp only [Statement.rows_of_update hrun]
    rw [List.forall₂_map_right_iff, List.forall₂_same]
    intro r _
    refine ⟨fun hne => if_neg hne, fun heq c => ?_⟩
    rw [if_pos heq]
    exact hset r c

/-- An update with an unknown id changes nothing. -/
theorem invoke_of_sets_absent {op : UserOp} {env : Env} {id : String}
    {cols : List (Column × Value)} (hs : op.sets env = some (id, cols))
    (hno : ∀ r ∈ rows, r.id ≠ id) : (op.invoke tenants env rows).2 = rows := by
  obtain ⟨set, hst, -⟩ := statement_of_sets hs
  rcases invoke_cases tenants op env rows with
    ⟨fault, hf, he⟩ | ⟨hf, ⟨error, hrun, he⟩ | ⟨reply, rows', hrun, he⟩⟩ <;> rw [he]
  rw [hst] at hrun
  simp only [Statement.rows_of_update hrun]
  exact (List.map_congr_left fun r hr => if_neg (hno r hr)).trans (List.map_id' rows)

/-- A create adds its row, last, and returns it. -/
theorem invoke_of_creates {op : UserOp} {env : Env} {cols : List (Column × Value)}
    {reply : UserReply} (hc : op.creates env = some cols)
    (hok : (op.invoke tenants env rows).1 = .ok reply) :
    ∃ row : UserRow, (∀ c, cols.lookup c = some (row.column c)) ∧ row.tenantId ∈ tenants ∧
      reply = .created (.ofRow row) ∧ (op.invoke tenants env rows).2 = rows ++ [row] := by
  obtain ⟨row, hst, hcols⟩ := statement_of_creates hc
  rcases invoke_cases tenants op env rows with
    ⟨fault, hf, he⟩ | ⟨hf, ⟨error, hrun, he⟩ | ⟨reply', rows', hrun, he⟩⟩ <;> rw [he] at hok ⊢
  · cases hok
  · cases hok
  · obtain rfl := Except.ok.inj hok
    rw [hst] at hrun
    obtain ⟨ht, hreply, hins⟩ := Statement.run_insert_eq_ok hrun
    exact ⟨row, hcols, ht, hreply, (insert_eq_ok.1 hins).2⟩

/-- What a lookup returns of rows in which nothing it may select changes. -/
theorem find?_map_eq {p : UserRow → Bool} {f : UserRow → UserRow}
    (h : ∀ r ∈ rows, f r = r ∨ p r = false ∧ p (f r) = false) :
    (rows.map f).find? p = rows.find? p := by
  induction rows with
  | nil => rfl
  | cons r rows ih =>
    rw [List.map_cons, List.find?_cons, List.find?_cons,
      ih fun r hr => h r (List.mem_cons_of_mem _ hr)]
    rcases h r List.mem_cons_self with hr | ⟨hr, hfr⟩
    · rw [hr]
    · rw [hr, hfr]

/-- A selection of one tenant's rows is the same after a statement that concerns another. -/
theorem find?_of_run {st : Statement} {reply : UserReply} {cond : UserRow → Cond} {A B : String}
    (h : UsersOk tenants rows)
    (hset : ∀ id set, st = .update id set → ∀ r, (set r).tenantId = r.tenantId)
    (hrun : st.run tenants rows = .ok (reply, rows')) (hA : st.Concerns rows A) (hAB : A ≠ B)
    (hcond : ∀ r, holds (cond r) = true → r.tenantId = B) :
    (rows'.find? fun r => holds (cond r)) = rows.find? fun r => holds (cond r) := by
  have hnot (r : UserRow) (hr : r.tenantId = A) : holds (cond r) = false :=
    Bool.eq_false_iff.2 fun hc => hAB (hr.symm.trans (hcond r hc))
  cases st with
  | select cond => cases hA
  | insert row =>
    obtain ⟨-, -, hins⟩ := Statement.run_insert_eq_ok hrun
    obtain ⟨-, rfl⟩ := insert_eq_ok.1 hins
    have hrow : [row].find? (fun r => holds (cond r)) = none :=
      List.find?_singleton.trans (by rw [hnot row hA]; rfl)
    rw [List.find?_append, hrow, Option.or_none]
  | update id set =>
    obtain ⟨r₀, hr₀, rfl, hA⟩ := hA
    rw [Statement.rows_of_update hrun]
    refine find?_map_eq fun r hr => ?_
    by_cases hid : r.id = r₀.id
    · obtain rfl := h.eq_of_id hr hr₀ hid
      rw [if_pos rfl]
      exact Or.inr ⟨hnot r hA, hnot _ ((hset _ _ rfl r).trans hA)⟩
    · rw [if_neg hid]
      exact Or.inl rfl

/-- No operation on one tenant changes what a lookup scoped to another returns. -/
theorem invoke_isolated {op lookup : UserOp} {env : Env} {A B : String} (h : UsersOk tenants rows)
    (hA : (op.statement env).Concerns rows A) (hAB : A ≠ B) (hB : lookup.scope = some B)
    (env' : Env) :
    (lookup.invoke tenants env' (op.invoke tenants env rows).2).1 =
      (lookup.invoke tenants env' rows).1 := by
  rcases invoke_cases tenants op env rows with
    ⟨_, -, he⟩ | ⟨-, ⟨_, -, he⟩ | ⟨reply, rows', hrun, he⟩⟩ <;> rw [he]
  obtain ⟨cond, hst, hcond⟩ := statement_of_scope hB
  have hfind := find?_of_run h (fun id set hset => statement_update_tenantId hset) hrun hA hAB hcond
  simp only [invoke, execute, hst, Statement.run, hfind]
  cases env'.fault <;> rfl

/-! ## Lookups -/

/-- A selection returns the one row its condition is true of, or none. -/
theorem invoke_select {op : UserOp} {env : Env} {cond : UserRow → Cond} {p : UserRow → Prop}
    (hst : op.statement env = .select cond) (hcond : ∀ r, holds (cond r) = true ↔ p r)
    (hp : ∀ a ∈ rows, ∀ b ∈ rows, p a → p b → a = b) (hf : env.fault = none) :
    ∃ user, op.invoke tenants env rows = (.ok (.found user), rows) ∧
      ∀ u, user = some u ↔ ∃ r, OnlyRow p rows r ∧ u = .ofRow r := by
  have hrun : op.invoke tenants env rows =
      (.ok (.found ((rows.find? fun r => holds (cond r)).map .ofRow)), rows) := by
    simp only [invoke, execute, hf, hst, Statement.run]
  refine ⟨_, hrun, fun u => ?_⟩
  rw [Option.map_eq_some_iff]
  constructor
  · rintro ⟨r, hr, rfl⟩
    have hmem := List.mem_of_find?_eq_some hr
    have hpr := (hcond r).1 (List.find?_some (p := fun r => holds (cond r)) hr)
    exact ⟨r, ⟨⟨hmem, hpr⟩, fun r' hr' hpr' => hp r' hr' r hmem hpr' hpr⟩, rfl⟩
  · rintro ⟨r, ⟨⟨hmem, hpr⟩, honly⟩, rfl⟩
    have hsome : (rows.find? fun r => holds (cond r)).isSome :=
      List.find?_isSome.2 ⟨r, hmem, (hcond r).2 hpr⟩
    obtain ⟨r', hr'⟩ := Option.isSome_iff_exists.1 hsome
    obtain rfl := honly r' (List.mem_of_find?_eq_some hr') 
      ((hcond r').1 (List.find?_some (p := fun r => holds (cond r)) hr'))
    exact ⟨r', hr', rfl⟩

theorem invoke_findByEmail (h : UsersOk tenants rows) (email tenant : String) {env : Env}
    (hf : env.fault = none) :
    ∃ user, (findByEmail email tenant).invoke tenants env rows = (.ok (.found user), rows) ∧
      ∀ u, user = some u ↔
        ∃ r, OnlyRow (fun r => r.tenantId = tenant ∧ r.email = email) rows r ∧ u = .ofRow r := by
  refine invoke_select rfl (fun r => ?_) (fun a ha b hb hpa hpb => ?_) hf
  · rw [holds_and, holds_eq_some, holds_eq_some, Bool.and_eq_true, decide_eq_true_eq,
      decide_eq_true_eq]
  · refine h.uniqueKeys.eq_of_sameKey (List.mem_cons_of_mem _ List.mem_cons_self) ha hb ?_
    exact sameKey_email.2 ⟨hpa.1.trans hpb.1.symm, hpa.2.trans hpb.2.symm⟩

theorem invoke_findByOauthId (h : UsersOk tenants rows) (provider providerId tenant : String)
    {env : Env} (hf : env.fault = none) :
    ∃ user, (findByOauthId provider providerId tenant).invoke tenants env rows =
        (.ok (.found user), rows) ∧
      ∀ u, user = some u ↔
        ∃ r, OnlyRow (fun r => r.tenantId = tenant ∧ r.oauthProvider = some provider ∧
          r.oauthProviderId = some providerId) rows r ∧ u = .ofRow r := by
  refine invoke_select rfl (fun r => ?_) (fun a ha b hb hpa hpb => ?_) hf
  · rw [holds_and, holds_and, holds_eq_some, Bool.and_eq_true, Bool.and_eq_true,
      decide_eq_true_eq, holds_eq, holds_eq]
    grind
  · refine h.uniqueKeys.eq_of_sameKey (List.mem_cons_of_mem _
      (List.mem_cons_of_mem _ List.mem_cons_self)) ha hb (sameKey_oauth.2 ?_)
    exact ⟨provider, providerId, hpa.1.trans hpb.1.symm, ⟨hpa.2.1, hpb.2.1⟩, hpa.2.2, hpb.2.2⟩

end UserOp

/-! ## The contract -/

theorem UsersOk.empty : UsersOk tenants [] :=
  ⟨.nil, .nil, .nil, fun _ h => absurd h List.not_mem_nil⟩

theorem runOps_usersOk (calls : List (UserOp × Env)) (h : UsersOk tenants rows) :
    UsersOk tenants (runOps tenants calls rows) := by
  induction calls generalizing rows with
  | nil => exact h
  | cons c calls ih => exact ih (UserOp.invoke_usersOk h c.1 c.2)

/-- What holds of the rows and of the next operation. -/
structure UsersContract (tenants : List String) (rows : List UserRow) : Prop where
  /-- The rows meet the schema. -/
  schema : UsersOk tenants rows
  /-- An operation that returns an error leaves the rows alone. -/
  error : ∀ (op : UserOp) env error, (op.invoke tenants env rows).1 = .error error →
    (op.invoke tenants env rows).2 = rows
  /-- The error is a conflict exactly when the statement violates a unique index. -/
  conflict : ∀ (op : UserOp) env,
    (∃ name, (op.invoke tenants env rows).1 = .error (.conflict name)) ↔
      env.fault = none ∧ (op.statement env).Violates rows
  /-- A create that succeeds adds the row with its columns and returns it. -/
  create : ∀ (op : UserOp) env cols, op.creates env = some cols →
    ∀ reply, (op.invoke tenants env rows).1 = .ok reply →
      ∃ row : UserRow, (∀ c, cols.lookup c = some (row.column c)) ∧ row.tenantId ∈ tenants ∧
        reply = .created (.ofRow row) ∧ (op.invoke tenants env rows).2 = rows ++ [row]
  /-- An update changes its own columns of the row with its id. -/
  update : ∀ (op : UserOp) env id cols, op.sets env = some (id, cols) →
    ∀ reply, (op.invoke tenants env rows).1 = .ok reply →
      List.Forall₂ (fun r r' : UserRow => (r.id ≠ id → r' = r) ∧
          (r.id = id → ∀ c, r'.column c = (cols.lookup c).getD (r.column c)))
        rows (op.invoke tenants env rows).2
  /-- An update changes nothing where there is no such row. -/
  absent : ∀ (op : UserOp) env id cols, op.sets env = some (id, cols) →
    (∀ r ∈ rows, r.id ≠ id) → (op.invoke tenants env rows).2 = rows
  /-- An operation that concerns a tenant leaves every lookup scoped to another as it was. -/
  isolated : ∀ (op lookup : UserOp) env env' A B, (op.statement env).Concerns rows A → A ≠ B →
    lookup.scope = some B →
      (lookup.invoke tenants env' (op.invoke tenants env rows).2).1 =
        (lookup.invoke tenants env' rows).1
  /-- A lookup by email that runs returns the one row of the tenant with it, or none. -/
  findByEmail : ∀ email tenant env, env.fault = none → ∃ user,
    (UserOp.findByEmail email tenant).invoke tenants env rows = (.ok (.found user), rows) ∧
      ∀ u, user = some u ↔
        ∃ r, OnlyRow (fun r => r.tenantId = tenant ∧ r.email = email) rows r ∧ u = .ofRow r
  /-- A lookup by OAuth identity that runs returns the one row of the tenant with it, or
  none. -/
  findByOauthId : ∀ provider providerId tenant env, env.fault = none → ∃ user,
    (UserOp.findByOauthId provider providerId tenant).invoke tenants env rows =
        (.ok (.found user), rows) ∧
      ∀ u, user = some u ↔
        ∃ r, OnlyRow (fun r => r.tenantId = tenant ∧ r.oauthProvider = some provider ∧
          r.oauthProviderId = some providerId) rows r ∧ u = .ofRow r

end AuthExample
