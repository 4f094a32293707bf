import AuthExample.Calls
import Mathlib.Order.MinMax

/-!
# The forced lockout

`force_lockout` records failures with the brute-force store until the identifier is locked,
at most as many as the store allows, and reports the lock, the last count and the seconds left.
Others record failures of any identifier between its calls.

`forceLockout_locks` : it ends, with the identifier locked; it has recorded no failure once it
had seen the lock, and only for its identifier; undisturbed, it drives the count just to the
lock.
-/

namespace AuthExample

open Calls Runs

namespace Diagnostics

/-! ## The store and the handler -/

/-- A call of the `BruteForceStore`. -/
inductive StoreCall where
  | recordFailure (identifier : String) (windowSecs : ℕ)
  | isLocked (identifier : String) (maxAttempts : ℕ)
  | remainingLockoutSecs (identifier : String)

/-- What a call resolves with. -/
abbrev StoreCall.Reply : StoreCall → Type
  | recordFailure .. => ℤ
  | isLocked .. => Bool
  | remainingLockoutSecs .. => ℕ

variable {E σ : Type}

/-- `record_failure`. -/
def recordFailure (identifier : String) (windowSecs : ℕ) : Fallible E StoreCall StoreCall.Reply ℤ :=
  perform (StoreCall.recordFailure identifier windowSecs)

/-- `is_locked`. -/
def isLocked (identifier : String) (maxAttempts : ℕ) : Fallible E StoreCall StoreCall.Reply Bool :=
  perform (StoreCall.isLocked identifier maxAttempts)

/-- `remaining_lockout_secs`. -/
def remainingLockoutSecs (identifier : String) : Fallible E StoreCall StoreCall.Reply ℕ :=
  perform (StoreCall.remainingLockoutSecs identifier)

/-- The brute-force configuration of the engine. -/
structure BruteForceConfig where
  maxAttempts : ℕ
  windowSecs : ℕ

/-- The resulting lockout state after driving the store. -/
structure ForceLockoutResponse where
  locked : Bool
  attempts : ℤ
  remainingLockoutSecs : ℕ
  deriving DecidableEq

/-- Records failures until the identifier locks. -/
def forceLockout (bruteForce : BruteForceConfig) (identifier : String) :
    Fallible E StoreCall StoreCall.Reply ForceLockoutResponse := do
  let mut attempts : ℤ := 0
  for _ in List.range bruteForce.maxAttempts do
    attempts ← recordFailure identifier bruteForce.windowSecs
    if ← isLocked identifier bruteForce.maxAttempts then break
  let locked ← isLocked identifier bruteForce.maxAttempts
  let remaining ← remainingLockoutSecs identifier
  return { locked, attempts, remainingLockoutSecs := remaining }

/-- A failure that another request records. -/
structure Failure where
  identifier : String
  windowSecs : ℕ

/-- A store, by how it serves a call. -/
abbrev BruteForceStore (E σ : Type) :=
  (c : StoreCall) → σ → σ × Except E c.Reply

/-- The store that the handler calls and other requests record failures with. -/
def lockoutSystem (store : BruteForceStore E σ) :
    System StoreCall (fun c => Except E c.Reply) σ Failure where
  serve := store
  act failure s := some (store (.recordFailure failure.identifier failure.windowSecs) s).1

/-- The store keeps a counter for each identifier : a failure increments it and replies with
the count, an identifier is locked from the given count on, and no call fails. -/
structure Counts (store : BruteForceStore E σ) (count : σ → String → ℕ) : Prop where
  recordFailure : ∀ identifier windowSecs s,
    (store (.recordFailure identifier windowSecs) s).2 = .ok (count s identifier + 1 : ℤ) ∧
      ∀ i, count (store (.recordFailure identifier windowSecs) s).1 i =
        count s i + if i = identifier then 1 else 0
  isLocked : ∀ identifier maxAttempts s,
    (store (.isLocked identifier maxAttempts) s).2 =
        .ok (decide (maxAttempts ≤ count s identifier)) ∧
      count (store (.isLocked identifier maxAttempts) s).1 = count s
  remainingLockoutSecs : ∀ identifier s,
    (∃ secs, (store (.remainingLockoutSecs identifier) s).2 = .ok secs) ∧
      count (store (.remainingLockoutSecs identifier) s).1 = count s

/-! ## What a trace counts -/

/-- Something that has happened to the store. -/
abbrev StoreEvent (E : Type) := Event StoreCall (fun c => Except E c.Reply) Failure

/-- The store, and what has happened to it. -/
abbrev StoreWorld (E σ : Type) := World StoreCall (fun c => Except E c.Reply) σ Failure

/-- A failure of the handler's own. -/
def ownFailure : StoreEvent E → Bool
  | .called (.recordFailure ..) _ => true
  | _ => false

/-- A failure of the identifier that another request has recorded. -/
def otherFailure (identifier : String) : StoreEvent E → Bool
  | .acted failure => failure.identifier = identifier
  | _ => false

/-- The handler has seen the identifier locked. -/
def sawLock : StoreEvent E → Bool
  | .called (.isLocked ..) (.ok locked) => locked
  | _ => false

/-- The failures the handler has recorded. -/
def ownFailures (w : StoreWorld E σ) : ℕ := w.trace.countP ownFailure

/-- The failures of an identifier that others have recorded. -/
def otherFailures (identifier : String) (w : StoreWorld E σ) : ℕ :=
  w.trace.countP (otherFailure identifier)

section

variable {store : BruteForceStore E σ} {count : σ → String → ℕ} {maxAttempts : ℕ}
  {identifier : String} {count₀ : String → ℕ}

/-- What holds as long as the handler runs : each count is what it was, with the failures of
the others and, for the identifier, the handler's own; these are at most as many as allowed,
and none is recorded once the lock was seen. -/
structure Accounted (count : σ → String → ℕ) (maxAttempts : ℕ) (identifier : String)
    (count₀ : String → ℕ) (w : StoreWorld E σ) : Prop where
  counts : ∀ i, count w.store i =
    count₀ i + otherFailures i w + if i = identifier then ownFailures w else 0
  own_le : ownFailures w ≤ maxAttempts
  none_after : w.trace.Pairwise fun a b => sawLock a = true → ownFailure b = false

/-- The lock was not seen. -/
def Unseen (w : StoreWorld E σ) : Prop := ∀ e ∈ w.trace, sawLock e = false

theorem ownFailures_append {w w' : StoreWorld E σ} {e : StoreEvent E}
    (htrace : w'.trace = w.trace ++ [e]) :
    ownFailures w' = ownFailures w + if ownFailure e then 1 else 0 := by
  simp [ownFailures, htrace, List.countP_append, List.countP_singleton]

theorem otherFailures_append {w w' : StoreWorld E σ} {e : StoreEvent E}
    (htrace : w'.trace = w.trace ++ [e]) (i : String) :
    otherFailures i w' = otherFailures i w + if otherFailure i e then 1 else 0 := by
  simp [otherFailures, htrace, List.countP_append, List.countP_singleton]

/-- One event more : a failure of the handler's own comes before it has seen the lock, and is
within the attempts. -/
theorem Accounted.append {w w' : StoreWorld E σ} {e : StoreEvent E}
    (h : Accounted count maxAttempts identifier count₀ w) (htrace : w'.trace = w.trace ++ [e])
    (hcount : ∀ i, count w'.store i = count w.store i + (if otherFailure i e then 1 else 0) +
      if i = identifier ∧ ownFailure e = true then 1 else 0)
    (hown : ownFailure e = true → ownFailures w < maxAttempts ∧ Unseen w) :
    Accounted count maxAttempts identifier count₀ w' := by
  have hfailures := ownFailures_append htrace
  refine ⟨fun i => ?_, ?_, ?_⟩
  · rw [hcount, h.counts, hfailures, otherFailures_append htrace]
    split_ifs <;> simp_all <;> omega
  · rw [hfailures]
    split_ifs with he
    · exact (hown he).1
    · exact h.own_le
  · rw [htrace, List.pairwise_append]
    refine ⟨h.none_after, List.pairwise_singleton _ _, fun a ha b hb hsaw => ?_⟩
    obtain rfl := List.mem_singleton.1 hb
    by_contra hne
    rw [(hown (Bool.not_eq_false _ ▸ hne)).2 a ha] at hsaw
    cases hsaw

theorem Unseen.append {w w' : StoreWorld E σ} {e : StoreEvent E} (h : Unseen w)
    (htrace : w'.trace = w.trace ++ [e]) (he : sawLock e = false) : Unseen w' := by
  intro a ha
  rw [htrace] at ha
  rcases List.mem_append.1 ha with ha | ha
  · exact h a ha
  · rwa [List.mem_singleton.1 ha]

/-! ## The assertions -/

/-- The last count is that of the handler's own failures, where no other was recorded. -/
def Exact (identifier : String) (count₀ : String → ℕ) (attempts : ℤ) (w : StoreWorld E σ) : Prop :=
  otherFailures identifier w = 0 → attempts = (count₀ identifier + ownFailures w : ℕ)

/-- Before a pass, with `n` left : the last check has not found the count at the lock. -/
structure Looping (count : σ → String → ℕ) (maxAttempts : ℕ) (identifier : String)
    (count₀ : String → ℕ) (n : ℕ) (w : StoreWorld E σ) : Prop where
  accounted : Accounted count maxAttempts identifier count₀ w
  left : ownFailures w + n = maxAttempts
  unseen : Unseen w
  below : 0 < ownFailures w → count₀ identifier + ownFailures w < maxAttempts

/-- After a failure, with `n` passes left after this one : it is the first, or the count was
not at the lock before it. -/
structure Recorded (count : σ → String → ℕ) (maxAttempts : ℕ) (identifier : String)
    (count₀ : String → ℕ) (n : ℕ) (attempts : ℤ) (w : StoreWorld E σ) : Prop where
  accounted : Accounted count maxAttempts identifier count₀ w
  left : ownFailures w + n = maxAttempts
  unseen : Unseen w
  pos : 0 < ownFailures w
  just : count₀ identifier + ownFailures w ≤ max (count₀ identifier + 1) maxAttempts
  exact : Exact identifier count₀ attempts w

/-- The handler has left the loop : the count is at the lock. -/
structure AtLock (count : σ → String → ℕ) (maxAttempts : ℕ) (identifier : String)
    (count₀ : String → ℕ) (attempts : ℤ) (w : StoreWorld E σ) : Prop where
  accounted : Accounted count maxAttempts identifier count₀ w
  locked : maxAttempts ≤ count w.store identifier
  pos : 0 < ownFailures w
  just : count₀ identifier + ownFailures w ≤ max (count₀ identifier + 1) maxAttempts
  exact : Exact identifier count₀ attempts w

/-- What the failure of another leaves of the counts and the trace. -/
theorem acted_cases (hB : Counts store count) {w w' : StoreWorld E σ} {failure : Failure}
    (hact : (lockoutSystem store).acted failure w = some w') :
    w'.trace = w.trace ++ [.acted failure] ∧
      ∀ i, count w'.store i = count w.store i + if i = failure.identifier then 1 else 0 := by
  obtain rfl := Option.some.inj hact
  exact ⟨rfl, (hB.recordFailure failure.identifier failure.windowSecs w.store).2⟩

theorem stable_accounted (hB : Counts store count) :
    Stable (lockoutSystem store) (Accounted count maxAttempts identifier count₀) := by
  intro w failure w' h hact
  obtain ⟨htrace, hcount⟩ := acted_cases hB hact
  refine h.append htrace (fun i => ?_) nofun
  rw [hcount]
  simp [otherFailure, ownFailure, eq_comm]

theorem Exact.append {attempts : ℤ} {w w' : StoreWorld E σ} {e : StoreEvent E}
    (h : Exact identifier count₀ attempts w) (htrace : w'.trace = w.trace ++ [e])
    (he : ownFailure e = false) : Exact identifier count₀ attempts w' := by
  intro hnone
  rw [otherFailures_append htrace] at hnone
  rw [ownFailures_append htrace, he, h (Nat.eq_zero_of_add_eq_zero_right hnone)]
  rfl

theorem stable_exact (hB : Counts store count) (attempts : ℤ) :
    Stable (lockoutSystem store) (Exact identifier count₀ attempts) := by
  intro w failure w' h hact
  exact h.append (acted_cases hB hact).1 rfl

theorem stable_looping (hB : Counts store count) (n : ℕ) :
    Stable (lockoutSystem store) (Looping count maxAttempts identifier count₀ n) := by
  intro w failure w' h hact
  obtain ⟨htrace, -⟩ := acted_cases hB hact
  have hown : ownFailures w' = ownFailures w := ownFailures_append htrace
  exact ⟨stable_accounted hB w failure w' h.accounted hact, hown ▸ h.left,
    h.unseen.append htrace rfl, hown ▸ h.below⟩

theorem stable_recorded (hB : Counts store count) (n : ℕ) (attempts : ℤ) :
    Stable (lockoutSystem store) (Recorded count maxAttempts identifier count₀ n attempts) := by
  intro w failure w' h hact
  obtain ⟨htrace, -⟩ := acted_cases hB hact
  have hown : ownFailures w' = ownFailures w := ownFailures_append htrace
  exact ⟨stable_accounted hB w failure w' h.accounted hact, hown ▸ h.left,
    h.unseen.append htrace rfl, hown ▸ h.pos, hown ▸ h.just,
    stable_exact hB attempts w failure w' h.exact hact⟩

theorem stable_atLock (hB : Counts store count) (attempts : ℤ) :
    Stable (lockoutSystem store) (AtLock count maxAttempts identifier count₀ attempts) := by
  intro w failure w' h hact
  obtain ⟨htrace, hcount⟩ := acted_cases hB hact
  have hown : ownFailures w' = ownFailures w := ownFailures_append htrace
  refine ⟨stable_accounted hB w failure w' h.accounted hact, ?_, hown ▸ h.pos, hown ▸ h.just,
    stable_exact hB attempts w failure w' h.exact hact⟩
  rw [hcount]
  exact h.locked.trans (Nat.le_add_right _ _)

/-! ## The calls of the handler -/

theorem ownFailures_served (c : StoreCall) (w : StoreWorld E σ) :
    ownFailures ((lockoutSystem store).served c w) =
      ownFailures w + if ownFailure (.called c (store c w.store).2 : StoreEvent E) then 1 else 0 :=
  ownFailures_append rfl

/-- The count of the identifier, where it is accounted for. -/
theorem Accounted.count_identifier {w : StoreWorld E σ}
    (h : Accounted count maxAttempts identifier count₀ w) :
    count w.store identifier =
      count₀ identifier + otherFailures identifier w + ownFailures w := by
  rw [h.counts, if_pos rfl]

/-- A failure is recorded with a pass left. -/
theorem Looping.record (hB : Counts store count) {n : ℕ} {w : StoreWorld E σ}
    (h : Looping count maxAttempts identifier count₀ (n + 1) w) (windowSecs : ℕ) :
    ∃ attempts, (store (.recordFailure identifier windowSecs) w.store).2 = .ok attempts ∧
      Recorded count maxAttempts identifier count₀ n attempts
        ((lockoutSystem store).served (.recordFailure identifier windowSecs) w) := by
  obtain ⟨hreply, hcount⟩ := hB.recordFailure identifier windowSecs w.store
  have hleft := h.left
  have hbelow := h.below
  have hown : ownFailures ((lockoutSystem store).served (.recordFailure identifier windowSecs) w) =
    ownFailures w + 1 := ownFailures_served _ w
  refine ⟨_, hreply, ⟨h.accounted.append rfl (fun i => ?_) fun _ => ⟨by omega, h.unseen⟩,
    by omega, h.unseen.append rfl rfl, by omega, ?_, fun hnone => ?_⟩⟩
  · rw [System.served]
    simpa [lockoutSystem, otherFailure, ownFailure] using hcount i
  · rw [hown]
    rcases Nat.eq_zero_or_pos (ownFailures w) with hzero | hpos
    · exact le_max_of_le_left (by omega)
    · exact le_max_of_le_right (by have := hbelow hpos; omega)
  · have hothers : otherFailures identifier w = 0 := by
      rwa [otherFailures_append (w := w) rfl] at hnone
    rw [h.accounted.count_identifier, hown, hothers]
    push_cast
    omega

/-- A read of the store leaves the counts accounted for. -/
theorem Accounted.read {c : StoreCall} {w : StoreWorld E σ}
    (h : Accounted count maxAttempts identifier count₀ w)
    (hcount : count (store c w.store).1 = count w.store)
    (hc : ∀ reply : Except E c.Reply, ownFailure (.called c reply : StoreEvent E) = false) :
    Accounted count maxAttempts identifier count₀ ((lockoutSystem store).served c w) := by
  refine h.append rfl (fun i => ?_) fun hown => ?_
  · have hsame : count ((lockoutSystem store).served c w).store i = count w.store i :=
      congrFun hcount i
    simp [hsame, otherFailure, hc]
  · rw [hc] at hown
    cases hown

/-- The identifier is checked after a failure. -/
theorem Recorded.check (hB : Counts store count) {n : ℕ} {attempts : ℤ} {w : StoreWorld E σ}
    (h : Recorded count maxAttempts identifier count₀ n attempts w) :
    (store (.isLocked identifier maxAttempts) w.store).2 = .ok true ∧
        AtLock count maxAttempts identifier count₀ attempts
          ((lockoutSystem store).served (.isLocked identifier maxAttempts) w) ∨
      (store (.isLocked identifier maxAttempts) w.store).2 = .ok false ∧
        Looping count maxAttempts identifier count₀ n
          ((lockoutSystem store).served (.isLocked identifier maxAttempts) w) := by
  obtain ⟨hreply, hcount⟩ := hB.isLocked identifier maxAttempts w.store
  have hread := h.accounted.read hcount fun _ => rfl
  have hown : ownFailures ((lockoutSystem store).served (.isLocked identifier maxAttempts) w) =
    ownFailures w := ownFailures_served _ w
  by_cases hlock : maxAttempts ≤ count w.store identifier
  · rw [decide_eq_true hlock] at hreply
    refine Or.inl ⟨hreply, hread, hlock.trans_eq (congrFun hcount _).symm, hown ▸ h.pos,
      hown ▸ h.just, h.exact.append rfl rfl⟩
  · rw [decide_eq_false hlock] at hreply
    have hbelow := h.accounted.count_identifier
    refine Or.inr ⟨hreply, hread, hown ▸ h.left, h.unseen.append rfl ?_, fun _ => ?_⟩
    · show sawLock (.called (.isLocked identifier maxAttempts) (store _ w.store).2) = false
      rw [hreply]
      rfl
    · rw [hown]
      omega

/-- A read of the store leaves the count at the lock. -/
theorem AtLock.read {c : StoreCall} {attempts : ℤ} {w : StoreWorld E σ}
    (h : AtLock count maxAttempts identifier count₀ attempts w)
    (hcount : count (store c w.store).1 = count w.store)
    (hc : ∀ reply : Except E c.Reply, ownFailure (.called c reply : StoreEvent E) = false) :
    AtLock count maxAttempts identifier count₀ attempts ((lockoutSystem store).served c w) := by
  have hown : ownFailures ((lockoutSystem store).served c w) = ownFailures w := by
    rw [ownFailures_served, hc]
    rfl
  exact ⟨h.accounted.read hcount hc, h.locked.trans_eq (congrFun hcount _).symm, hown ▸ h.pos,
    hown ▸ h.just, h.exact.append rfl (hc _)⟩

end

/-! ## The handler -/

section

variable {store : BruteForceStore E σ} {count : σ → String → ℕ} {bruteForce : BruteForceConfig}
  {identifier : String} {count₀ : String → ℕ}

/-- What the handler reports, once it has ended. -/
def Reports (count : σ → String → ℕ) (maxAttempts : ℕ) (identifier : String)
    (count₀ : String → ℕ) (response : ForceLockoutResponse) (w : StoreWorld E σ) : Prop :=
  response.locked = true ∧
    AtLock count maxAttempts identifier count₀ response.attempts w

/-- The handler makes two calls in each pass and two after the loop. -/
theorem within_forceLockout (bruteForce : BruteForceConfig) (identifier : String) :
    (forceLockout bruteForce identifier : Fallible E _ _ _).run.Within
      (2 * bruteForce.maxAttempts + 2) := by
  rw [Nat.mul_comm, ← List.length_range (n := bruteForce.maxAttempts)]
  refine within_bind (within_forIn (n := 2) (fun _ _ => ?_) _ _) fun attempts => ?_
  · refine within_bind (n := 1) (m := 1) (within_perform _) fun attempts => ?_
    refine within_bind (n := 1) (m := 0) (within_perform _) fun locked => ?_
    cases locked <;> trivial
  · refine within_bind (n := 1) (m := 1) (within_perform _) fun locked => ?_
    exact within_bind (n := 1) (m := 0) (within_perform _) fun remaining => trivial

/-- From the lock on the handler reports it. -/
theorem wpOk_report (hB : Counts store count) {attempts : ℤ} {w : StoreWorld E σ}
    (h : AtLock count bruteForce.maxAttempts identifier count₀ attempts w) :
    wpOk (lockoutSystem store) (Accounted count bruteForce.maxAttempts identifier count₀)
      (Reports count bruteForce.maxAttempts identifier count₀)
      (do
        let locked ← isLocked identifier bruteForce.maxAttempts
        let remaining ← remainingLockoutSecs identifier
        return { locked, attempts, remainingLockoutSecs := remaining }) w := by
  refine wpOk_perform (stable_atLock hB attempts) (fun w hw => ⟨hw.accounted, true, ?_, ?_⟩) h
  · rw [← decide_eq_true hw.locked]
    exact (hB.isLocked identifier bruteForce.maxAttempts w.store).1
  have hread := hw.read (hB.isLocked identifier bruteForce.maxAttempts w.store).2 fun _ => rfl
  refine wpOk_perform (stable_atLock hB attempts) (fun w hw => ⟨hw.accounted, ?_⟩) hread
  obtain ⟨⟨secs, hsecs⟩, hcount⟩ := hB.remainingLockoutSecs identifier w.store
  refine ⟨secs, hsecs, wpOk_pure (stable_atLock hB attempts) (fun w hw => ?_)
    (hw.read hcount fun _ => rfl)⟩
  exact ⟨hw.accounted, rfl, hw⟩

/-- From any store the handler ends without an error and reports the lock. -/
theorem wpOk_forceLockout (hB : Counts store count) (hmax : 0 < bruteForce.maxAttempts)
    {w : StoreWorld E σ} (h : Looping count bruteForce.maxAttempts identifier count₀
      bruteForce.maxAttempts w) :
    wpOk (lockoutSystem store) (Accounted count bruteForce.maxAttempts identifier count₀)
      (Reports count bruteForce.maxAttempts identifier count₀)
      (forceLockout bruteForce identifier) w := by
  refine wpOk_bind (wpOk_forIn
    (L := fun n _ => Looping count bruteForce.maxAttempts identifier count₀ n) ?_ ?_ ?_)
  · intro n _ _ w hw
    refine wpOk_perform (stable_looping hB (n + 1)) (fun w hw => ⟨hw.accounted, ?_⟩) hw
    obtain ⟨attempts, hreply, hrecorded⟩ := hw.record hB bruteForce.windowSecs
    refine ⟨attempts, hreply, ?_⟩
    refine wpOk_perform (stable_recorded hB n attempts) (fun w hw => ⟨hw.accounted, ?_⟩) hrecorded
    rcases hw.check hB with ⟨hreply, hlock⟩ | ⟨hreply, hloop⟩
    · refine ⟨true, hreply, wpOk_pure (stable_atLock hB attempts) (fun w hw => ⟨hw.accounted, ?_⟩)
        hlock⟩
      exact wpOk_pure (stable_atLock hB attempts) (fun w hw => ⟨hw.accounted, wpOk_report hB hw⟩) hw
    · exact ⟨false, hreply, wpOk_pure (stable_looping hB n) (fun w hw => ⟨hw.accounted, hw⟩) hloop⟩
  · intro attempts w hw
    -- the last check has found the count below the lock, which all attempts together reach
    have hleft := hw.left
    have hbelow := hw.below
    omega
  · rwa [List.length_range]

/-- The handler, called over a store. -/
def called (bruteForce : BruteForceConfig) (identifier : String) (s : σ) :
    Config StoreCall (fun c => Except E c.Reply) σ Failure (Except E ForceLockoutResponse) :=
  ⟨(forceLockout bruteForce identifier).run, ⟨s, []⟩⟩

/-- Whatever the count and whatever others record meanwhile, the handler ends, within two calls
for each attempt and two more, and reports the identifier locked, which it is. It has recorded
no more failures than the attempts, none once it had seen the lock, and none of another
identifier. Where no other has recorded one, it has driven the count to the lock and no
further, and reports it. -/
theorem forceLockout_locks (hB : Counts store count) (hmax : 1 ≤ bruteForce.maxAttempts) {s : σ}
    {as : List (Act Failure)} {c : Config StoreCall (fun c => Except E c.Reply) σ Failure
      (Except E ForceLockoutResponse)}
    (h : run (lockoutSystem store).step (called bruteForce identifier s) as = some c) :
    ownSteps as ≤ 2 * bruteForce.maxAttempts + 2 ∧
      ((∃ result, c.program = .ret result) ∨
        ∃ c', (lockoutSystem store).step c .own = some c') ∧
      Accounted count bruteForce.maxAttempts identifier (count s) c.world ∧
      ∀ result, c.program = .ret result → ∃ response, result = .ok response ∧
        response.locked = true ∧
        bruteForce.maxAttempts ≤ count c.world.store identifier ∧
        (otherFailures identifier c.world = 0 →
          count c.world.store identifier = max (count s identifier + 1) bruteForce.maxAttempts ∧
          response.attempts = (count c.world.store identifier : ℤ)) := by
  have hstart : Looping count bruteForce.maxAttempts identifier (count s) bruteForce.maxAttempts
      (called (E := E) bruteForce identifier s).world := by
    refine ⟨⟨fun i => ?_, Nat.zero_le _, List.Pairwise.nil⟩, Nat.zero_add _,
      by simp [Unseen, called], fun hpos => absurd hpos (lt_irrefl 0)⟩
    simp [called, otherFailures, ownFailures]
  obtain ⟨hacc, hret⟩ := wpOk_run (wpOk_forceLockout hB hmax hstart) h
  refine ⟨(within_run (within_forceLockout bruteForce identifier) h).1, System.ended_or_step _ c,
    hacc, fun result hresult => ?_⟩
  obtain ⟨response, rfl, hlocked, hat⟩ := hret result hresult
  refine ⟨response, rfl, hlocked, hat.locked, fun hnone => ?_⟩
  have hcount := hacc.count_identifier
  have hpos := hat.pos
  have hlock := hat.locked
  have hjust := hat.just
  refine ⟨?_, ?_⟩
  · rw [hnone] at hcount
    exact le_antisymm (by omega) (max_le (by omega) hlock)
  · rw [hat.exact hnone, hcount, hnone, Nat.add_zero]

/-- A store that keeps its counts in a function. -/
def countingStore : BruteForceStore Unit (String → ℕ)
  | .recordFailure identifier _, s =>
    (fun i => s i + if i = identifier then 1 else 0, .ok (s identifier + 1))
  | .isLocked identifier maxAttempts, s => (s, .ok (decide (maxAttempts ≤ s identifier)))
  | .remainingLockoutSecs _, s => (s, .ok 900)

theorem counts_countingStore : Counts countingStore id where
  recordFailure _ _ _ := ⟨rfl, fun _ => rfl⟩
  isLocked _ _ _ := ⟨rfl, rfl⟩
  remainingLockoutSecs _ _ := ⟨⟨900, rfl⟩, rfl⟩

/-- Another request records a failure between the first of the handler and its check. -/
theorem forceLockout_disturbed :
    ∃ c, run (lockoutSystem countingStore).step (called ⟨3, 900⟩ "ada" fun _ => 1)
        [.own, .other ⟨"ada", 900⟩, .own, .own, .own] = some c ∧
      c.program = .ret (.ok ⟨true, 2, 900⟩) ∧
      Accounted id 3 "ada" (fun _ => 1) c.world := by
  have hrun : run (lockoutSystem countingStore).step (called ⟨3, 900⟩ "ada" fun _ => 1)
    [.own, .other ⟨"ada", 900⟩, .own, .own, .own] = some _ := rfl
  exact ⟨_, hrun, rfl, (forceLockout_locks counts_countingStore (by decide) hrun).2.2.1⟩

end

end Diagnostics

end AuthExample
