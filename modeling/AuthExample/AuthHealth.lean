import AuthExample.Access
import AuthExample.AuditHooks
import AuthExample.UserHistory
import Mathlib.Algebra.Order.Field.Rat
import Mathlib.Data.Rat.Floor
import Mathlib.Tactic.Positivity

/-!
# The auth-health aggregate

`GET /audit/aggregate` counts the rows of `users` and of `audit_log` in one query and makes the
rates of the Overview from the counts. What is in the tables the repository and the hooks wrote.

`aggregate_reports` : after any calls of the two, failed ones among them, the counts are those of
what happened. A user is signed in, verified or enrolled by the last successful call for its id
that says so, a session is recent by the hook that recorded it, and every rate is within `0..1`.
-/

namespace AuthExample

namespace AuthHealth

open Histories

/-! ## The handler -/

/-- `EmailProviderKind`. -/
inductive EmailProviderKind where
  | mailpit
  | resend
  deriving DecidableEq

/-- How `f64` rounds a finite value, exactly on `0` and on `1`. -/
structure Rounding where
  round : ℚ → ℚ
  monotone : Monotone round
  round_zero : round 0 = 0
  round_one : round 1 = 1

/-- No rounding. -/
def Rounding.exact : Rounding := ⟨id, monotone_id, rfl, rfl⟩

/-- `AuditAggregate`. -/
structure AuditAggregate where
  loginSuccessRate : ℚ
  verifySuccessRate : ℚ
  activeSessions : ℤ
  mfaEnrolledShare : ℚ
  emailProvider : EmailProviderKind
  oauthGoogleEnabled : Bool

/-- `AggregateCounts`. -/
structure AggregateCounts where
  total : ℤ
  loggedIn : ℤ
  verified : ℤ
  mfa : ℤ
  activeSessions : ℤ

/-- A share of the population, `empty` where there is none. The conversions and the quotient
round. -/
def share (fl : Rounding) (numerator denominator : ℤ) (empty : ℚ) : ℚ :=
  if denominator = 0 then empty else fl.round (fl.round numerator / fl.round denominator)

def computeAggregate (fl : Rounding) (counts : AggregateCounts)
    (emailProvider : EmailProviderKind) (oauthGoogleEnabled : Bool) : AuditAggregate where
  loginSuccessRate := share fl counts.loggedIn counts.total 1
  verifySuccessRate := share fl counts.verified counts.total 1
  activeSessions := counts.activeSessions
  mfaEnrolledShare := share fl counts.mfa counts.total 0
  emailProvider := emailProvider
  oauthGoogleEnabled := oauthGoogleEnabled

/-- `AGGREGATE_WINDOW_HOURS`. -/
def aggregateWindowHours : ℤ := 24

/-- The lower bound of the window, in microseconds as all times. -/
def aggregateCutoff (now : ℤ) : ℤ := now - aggregateWindowHours * (60 * 60 * 1000000)

/-- The tables the query reads. -/
structure Tables where
  users : List UserRow
  logs : List (LogRow ℤ)

/-- `event = 'on_new_session' AND created_at >= $1`. -/
def isRecentSession (cutoff : ℤ) (row : LogRow ℤ) : Bool :=
  row.event == "on_new_session" && decide (cutoff ≤ row.createdAt)

/-- The query. -/
def selectCounts (cutoff : ℤ) (t : Tables) : AggregateCounts where
  total := t.users.length
  loggedIn := t.users.countP (·.lastLoginAt.isSome)
  verified := t.users.countP (·.emailVerified)
  mfa := t.users.countP (·.mfaEnabled)
  activeSessions := t.logs.countP (isRecentSession cutoff)

/-- `AppState`, as far as the handler reads it. -/
structure AppState where
  emailProvider : EmailProviderKind
  oauthProviders : List String

/-- `aggregate`, behind its guard. `query` is the outcome of the query. -/
def aggregate (fl : Rounding) (state : AppState) (query : Except String Unit) (now : ℤ)
    (t : Tables) : Except Access.AppError AuditAggregate := do
  query.mapError .database
  return computeAggregate fl (selectCounts (aggregateCutoff now) t) state.emailProvider
    (state.oauthProviders.contains "google")

/-! ## What writes the tables -/

/-- A call of the repository, or of a hook with the outcome of its insert and, for the row it
inserts, the id of the sequence and the clock. -/
inductive Call (ε : Type*) where
  | user (op : UserOp) (env : Env)
  | hook (call : HookCall) (insert : Except ε Unit) (id now : ℤ)

variable {ε : Type*}

namespace Call

/-- Make the call. -/
def next (tenants : List String) (hooks : AuditAuthHooks) (t : Tables) : Call ε → Tables
  | user op env => { t with users := (op.invoke tenants env t.users).2 }
  | hook call insert id now =>
    { t with
      logs := t.logs ++ (call.invoke hooks insert ⟨[], []⟩).2.rows.map (·.toRow id now) }

/-- The call of the repository. -/
def user? : Call ε → Option (UserOp × Env)
  | user op env => some (op, env)
  | hook .. => none

/-- The call is a hook that records a new session, at `cutoff` or later. -/
def recordsSession (cutoff : ℤ) : Call ε → Bool
  | hook (.onNewSession ..) (.ok ()) _ now => decide (cutoff ≤ now)
  | _ => false

end Call

/-- Make the calls, in any order of the two kinds. -/
def run (tenants : List String) (hooks : AuditAuthHooks) (calls : List (Call ε)) (t : Tables) :
    Tables :=
  calls.foldl (Call.next tenants hooks) t

/-! ## What the calls say of a user -/

/-- The user that an operation signs in. -/
def signsIn : UserOp → Option (String × Bool)
  | .updateLastLogin id => some (id, true)
  | _ => none

/-- The user whose email an operation says is verified, or is not. -/
def verifies : UserOp → Option (String × Bool)
  | .updateEmailVerified id verified => some (id, verified)
  | _ => none

/-- The user whose second factor an operation turns on or off. -/
def enrolls : UserOp → Option (String × Bool)
  | .updateMfa id data => some (id, data.mfaEnabled)
  | _ => none

/-- What a successful call says of the user with an id. -/
def tells (said : UserOp → Option (String × Bool)) (id : String) (o : Outcome) : Option Bool :=
  match o.reply, said o.op with
  | .ok _, some (target, yes) => if target = id then some yes else none
  | _, _ => none

/-- The users there are, each with the calls since. -/
def population (tenants : List String) (calls : List (Call ε)) (t : Tables) :
    List (UserRow × List Outcome) :=
  origins Outcome.inserted t.users (outcomes tenants (calls.filterMap Call.user?) t.users)

/-- Of how many users the last call that says so says yes, where `column` is what was said
before. -/
def number (said : UserOp → Option (String × Bool)) (column : UserRow → Bool)
    (people : List (UserRow × List Outcome)) : ℕ :=
  people.countP fun person =>
    lastWrite (tells said person.1.id) person.2 (column person.1)

/-- A column is what the operations say. -/
def Records (column : UserRow → Bool) (said : UserOp → Option (String × Bool)) : Prop :=
  ∀ op env, match UserOp.statement op env with
    | .update id set =>
      (∃ yes, said op = some (id, yes) ∧ ∀ r, column (set r) = yes) ∨
        said op = none ∧ ∀ r, column (set r) = column r
    | _ => said op = none

theorem records_signsIn : Records (·.lastLoginAt.isSome) signsIn := by
  intro op env
  cases op <;> first
    | rfl
    | exact .inl ⟨_, rfl, fun _ => rfl⟩
    | exact .inr ⟨rfl, fun _ => rfl⟩

theorem records_verifies : Records (·.emailVerified) verifies := by
  intro op env
  cases op <;> first
    | rfl
    | exact .inl ⟨_, rfl, fun _ => rfl⟩
    | exact .inr ⟨rfl, fun _ => rfl⟩

theorem records_enrolls : Records (·.mfaEnabled) enrolls := by
  intro op env
  cases op <;> first
    | rfl
    | exact .inl ⟨_, rfl, fun _ => rfl⟩
    | exact .inr ⟨rfl, fun _ => rfl⟩

variable {column : UserRow → Bool} {said : UserOp → Option (String × Bool)}

theorem Records.change (h : Records column said) (o : Outcome) (r : UserRow) :
    column (o.change r) = (tells said r.id o).getD (column r) := by
  obtain ⟨op, env, reply⟩ := o
  have hop := h op env
  unfold Outcome.change tells
  cases reply with
  | error error => rfl
  | ok reply =>
    cases hst : op.statement env with
    | update id set =>
      rw [hst] at hop
      obtain ⟨yes, hsaid, hset⟩ | ⟨hsaid, hset⟩ := hop <;> simp only [hsaid, eq_comm (a := r.id)]
      · split_ifs
        · exact hset r
        · rfl
      · split_ifs
        · exact hset r
        · rfl
    | _ =>
      rw [hst] at hop
      simp only [hop]
      rfl

/-- The rows whose column says yes are the users of which the calls say so. -/
theorem Records.countP_runOps (h : Records column said) (tenants : List String)
    (calls : List (UserOp × Env)) (rows : List UserRow) :
    (runOps tenants calls rows).countP column =
      number said column (origins Outcome.inserted rows (outcomes tenants calls rows)) := by
  rw [runOps_eq_foldl, foldl_table, List.countP_map, number]
  congr 1
  funext person
  exact column_survivor column (tells said) Outcome.change_id h.change _ _

theorem length_runOps (tenants : List String) (calls : List (UserOp × Env))
    (rows : List UserRow) :
    (runOps tenants calls rows).length =
      (origins Outcome.inserted rows (outcomes tenants calls rows)).length := by
  rw [runOps_eq_foldl, foldl_table, List.length_map]

/-! ## What the calls leave -/

variable {tenants : List String} {hooks : AuditAuthHooks}

theorem run_users (calls : List (Call ε)) (t : Tables) :
    (run tenants hooks calls t).users =
      runOps tenants (calls.filterMap Call.user?) t.users := by
  induction calls generalizing t with
  | nil => rfl
  | cons c calls ih =>
    refine (ih _).trans ?_
    cases c <;> rfl

/-- Only the hook of a new session writes its event. -/
theorem event_row (c : HookCall) :
    (c.row.event == "on_new_session") = (c matches .onNewSession ..) := by
  cases c with
  | onOauthLogin profile existingUser ctx =>
    simp only [HookCall.row, HookCall.entry]
    cases decideOauthLogin profile existingUser <;> rfl
  | _ => rfl

theorem countP_next (cutoff : ℤ) (c : Call ε) (t : Tables) :
    (c.next tenants hooks t).logs.countP (isRecentSession cutoff) =
      t.logs.countP (isRecentSession cutoff) + if c.recordsSession cutoff then 1 else 0 := by
  cases c with
  | user op env => rfl
  | hook call insert id now =>
    simp only [Call.next, HookCall.invoke_eq, List.nil_append, List.countP_append]
    congr 1
    cases insert with
    | error error => cases call <;> rfl
    | ok done =>
      have hevent := event_row call
      simp only [Except.isOk, Except.toBool, if_true, List.map_singleton, List.countP_singleton,
        isRecentSession, NewRow.toRow, hevent]
      cases call <;> simp [Call.recordsSession]

theorem run_sessions (cutoff : ℤ) (calls : List (Call ε)) (t : Tables) :
    (run tenants hooks calls t).logs.countP (isRecentSession cutoff) =
      t.logs.countP (isRecentSession cutoff) + calls.countP (Call.recordsSession cutoff) := by
  induction calls generalizing t with
  | nil => rfl
  | cons c calls ih =>
    refine (ih _).trans ?_
    rw [countP_next, List.countP_cons]
    omega

/-! ## The rates -/

/-- A share of the population is a rate, in any rounding. -/
theorem share_bounds (fl : Rounding) {numerator denominator : ℤ} {empty : ℚ}
    (hnonneg : 0 ≤ numerator) (hle : numerator ≤ denominator) (hempty : 0 ≤ empty ∧ empty ≤ 1) :
    0 ≤ share fl numerator denominator empty ∧ share fl numerator denominator empty ≤ 1 := by
  unfold share
  split_ifs with hzero
  · exact hempty
  have hn : 0 ≤ fl.round numerator := by
    rw [← fl.round_zero]
    exact fl.monotone (by exact_mod_cast hnonneg)
  have hd : 1 ≤ fl.round denominator := by
    rw [← fl.round_one]
    exact fl.monotone (by exact_mod_cast (show 1 ≤ denominator by omega))
  have hnd : fl.round numerator ≤ fl.round denominator := fl.monotone (by exact_mod_cast hle)
  constructor
  · rw [← fl.round_zero]
    exact fl.monotone (by positivity)
  · rw [← fl.round_one]
    exact fl.monotone (div_le_one_of_le₀ hnd (by positivity))

example : share .exact 1 4 1 = 1 / 4 := by norm_num [share, Rounding.exact]

/-- A count of the users that have something is at most all of them. -/
theorem share_number (fl : Rounding) (said : UserOp → Option (String × Bool))
    (column : UserRow → Bool) (people : List (UserRow × List Outcome)) {empty : ℚ}
    (hempty : 0 ≤ empty ∧ empty ≤ 1) :
    0 ≤ share fl (number said column people) people.length empty ∧
      share fl (number said column people) people.length empty ≤ 1 :=
  share_bounds fl (Int.natCast_nonneg _) (by exact_mod_cast List.countP_le_length) hempty

/-- Whatever calls the repository and the hooks have had, in any order and with any of them
failing, the aggregate reports what happened : of the users there are, which are those there were
and those of the creates that succeeded, the shares of which the last successful call that says so
says that they are signed in, verified or enrolled, and the sessions of the window, which are those
there were and those of the hooks whose inserts succeeded. Every rate is within `0..1`. -/
theorem aggregate_reports (fl : Rounding) (state : AppState) (tenants : List String)
    (hooks : AuditAuthHooks) (calls : List (Call ε)) (t : Tables) (now : ℤ) :
    let people := population tenants calls t
    ∃ a, aggregate fl state (.ok ()) now (run tenants hooks calls t) = .ok a ∧
      a.loginSuccessRate =
        share fl (number signsIn (·.lastLoginAt.isSome) people) people.length 1 ∧
      a.verifySuccessRate = share fl (number verifies (·.emailVerified) people) people.length 1 ∧
      a.mfaEnrolledShare = share fl (number enrolls (·.mfaEnabled) people) people.length 0 ∧
      a.activeSessions = t.logs.countP (isRecentSession (aggregateCutoff now)) +
        calls.countP (Call.recordsSession (aggregateCutoff now)) ∧
      ∀ rate ∈ [a.loginSuccessRate, a.verifySuccessRate, a.mfaEnrolledShare],
        0 ≤ rate ∧ rate ≤ 1 := by
  intro people
  have hcounts : selectCounts (aggregateCutoff now) (run tenants hooks calls t) =
      { total := people.length
        loggedIn := number signsIn (·.lastLoginAt.isSome) people
        verified := number verifies (·.emailVerified) people
        mfa := number enrolls (·.mfaEnabled) people
        activeSessions := t.logs.countP (isRecentSession (aggregateCutoff now)) +
          calls.countP (Call.recordsSession (aggregateCutoff now)) } := by
    simp only [selectCounts, run_users, run_sessions, length_runOps,
      records_signsIn.countP_runOps, records_verifies.countP_runOps,
      records_enrolls.countP_runOps, Nat.cast_add]
    rfl
  refine ⟨_, rfl, ?_⟩
  rw [hcounts]
  refine ⟨rfl, rfl, rfl, rfl, ?_⟩
  simp only [List.forall_mem_cons, List.not_mem_nil, false_implies, implies_true, and_true]
  exact ⟨share_number fl _ _ people (by simp), share_number fl _ _ people (by simp),
    share_number fl _ _ people (by simp)⟩

/-- Rounding down to eighths. -/
def eighths : Rounding where
  round q := ⌊8 * q⌋ / 8
  monotone q r h := by
    refine div_le_div_of_nonneg_right ?_ (by norm_num)
    exact_mod_cast Int.floor_mono (mul_le_mul_of_nonneg_left h (by norm_num))
  round_zero := by norm_num
  round_one := by norm_num

/-- The create of a user of a workspace. -/
def createUser (name : String) (uuid : String) : Call String :=
  .user (.create ⟨name ++ "@acme.test", name, none, none, none, "acme", none⟩) ⟨uuid, 0, none⟩

/-- The hook of a new session of a user, a minute after the beginning. -/
def sessionOf (userId : String) (insert : Except String Unit) : Call String :=
  .hook (.onNewSession ⟨userId, "active", "acme"⟩ ⟨"Firefox", "203.0.113.4", "cafe"⟩
    ⟨some userId, none, some "acme", "203.0.113.4", "Firefox", []⟩) insert 1 60000000

/-- Three users, of which one signs in, and a create that fails. -/
theorem aggregate_reports_threeUsers :
    let calls := [createUser "ada" "u1", createUser "bob" "u2", createUser "ada" "u3",
      sessionOf "u1" (.ok ()), sessionOf "u2" (.error "timeout"), createUser "eve" "u4",
      .user (.updateLastLogin "u1") ⟨"", 60000000, none⟩]
    ∃ a, aggregate eighths ⟨.mailpit, []⟩ (.ok ()) 120000000
        (run ["acme"] ⟨true⟩ calls ⟨[], []⟩) = .ok a ∧
      a.loginSuccessRate = 1 / 4 ∧ a.verifySuccessRate = 0 ∧ a.activeSessions = 1 := by
  intro calls
  obtain ⟨a, ha, hlogin, hverify, -, hactive, -⟩ :=
    aggregate_reports eighths ⟨.mailpit, []⟩ ["acme"] ⟨true⟩ calls ⟨[], []⟩ 120000000
  have hlength : (population ["acme"] calls ⟨[], []⟩).length = 3 := by decide
  refine ⟨a, ha, ?_, ?_, ?_⟩
  · have hnumber : number signsIn (·.lastLoginAt.isSome)
        (population ["acme"] calls ⟨[], []⟩) = 1 := by decide
    rw [hlogin, hnumber, hlength]
    norm_num [share, eighths]
  · have hnumber : number verifies (·.emailVerified)
        (population ["acme"] calls ⟨[], []⟩) = 0 := by decide
    rw [hverify, hnumber, hlength]
    norm_num [share, eighths]
  · rw [hactive]
    rfl

end AuthHealth

end AuthExample
