import AuthExample.Runs
import Mathlib.Data.List.Nodup

/-!
# The expiry pill

`ExpiryPill` counts down to a deadline. Each commit stores the latest callback in a ref; a
change of the `expiresAt` object clears the interval of the one before and starts its own,
unless the deadline has passed already; the interval clears itself at the deadline.

A `Record` is read off the renders and ticks alone, whatever the component makes of them : the
periods between two changes of `expiresAt`, and the moments at which the clock is read for a
deadline, which are the run of its effect and the ticks of its interval. `expires_once` : the
calls of `onExpired` are, for each period, that of its first moment that is due, with the callback
rendered last, and an interval goes on ticking until there is one.
-/

namespace AuthExample

open Runs

/-- A `Date` object : its identity and its time in milliseconds, none for an invalid date. -/
structure Date where
  id : ℕ
  time : Option ℤ
  deriving DecidableEq

namespace ExpiryPill

/-- The whole seconds left at a reading of the clock, `NaN` for an invalid date. -/
def remaining (expiresAt : Date) (now : ℤ) : Option ℤ :=
  expiresAt.time.map fun time => max 0 ((time - now) / 1000)

/-- `remaining <= 0`, which `NaN` is not. -/
def isZero (remaining : Option ℤ) : Bool := remaining.any fun seconds => seconds ≤ 0

/-- The props of a render, with callbacks of any kind. -/
structure Props (C : Type*) where
  expiresAt : Date
  onExpired : Option C

/-- A live interval, and the deadline its handler closes over. -/
structure Interval where
  id : ℕ
  expiresAt : Date

end ExpiryPill

/-- The component : what it was last rendered with, its state and its ref, the interval its
cleanup clears, and the live intervals. -/
structure ExpiryPill (C : Type*) where
  mounted : Bool
  props : ExpiryPill.Props C
  secondsLeft : Option ℤ
  onExpiredRef : Option C
  cleanup : Option ℕ
  live : List ExpiryPill.Interval
  nextId : ℕ

namespace ExpiryPill

variable {C : Type*}

/-! ## The component -/

/-- `clearInterval`. -/
def clearInterval (s : ExpiryPill C) (id : ℕ) : ExpiryPill C :=
  { s with live := s.live.filter fun interval => interval.id != id }

/-- The effect of `expiresAt`, and the callback it calls : `onExpiredRef.current?.()`. -/
def runEffect (s : ExpiryPill C) (now : ℤ) : ExpiryPill C × Option C :=
  let expiresAt := s.props.expiresAt
  let initial := remaining expiresAt now
  let s := { s with secondsLeft := initial }
  if isZero initial then ({ s with cleanup := none }, s.onExpiredRef)
  else
    ({ s with
      live := s.live ++ [⟨s.nextId, expiresAt⟩]
      cleanup := some s.nextId
      nextId := s.nextId + 1 }, none)

/-- The cleanup of that effect. -/
def runCleanup (s : ExpiryPill C) : ExpiryPill C :=
  match s.cleanup with
  | some id => s.clearInterval id
  | none => s

/-- A render is committed and its effects run : that of the ref, and that of `expiresAt` where
the object is another. -/
def commit (s : ExpiryPill C) (props : Props C) (now : ℤ) : ExpiryPill C × Option C :=
  if props.expiresAt = s.props.expiresAt then
    ({ s with props, onExpiredRef := props.onExpired }, none)
  else runEffect { s.runCleanup with props, onExpiredRef := props.onExpired } now

/-- The handler of an interval, and the callback it calls. -/
def tick (s : ExpiryPill C) (interval : Interval) (now : ℤ) : ExpiryPill C × Option C :=
  let left := remaining interval.expiresAt now
  let s := { s with secondsLeft := left }
  if isZero left then (s.clearInterval interval.id, s.onExpiredRef) else (s, none)

/-! ## Runs -/

/-- A render with the clock that its effect would read, a tick of a live interval, however late,
or the unmount. -/
inductive Act (C : Type*) where
  | render (props : Props C) (now : ℤ)
  | tick (id : ℕ) (now : ℤ)
  | unmount

/-- A reading of the clock in the effect or in a tick : the period it is in, and what the latest
render was given. -/
structure Moment (C : Type*) where
  period : ℕ
  props : Props C
  now : ℤ

/-- What was rendered and when the clock was read : a period is counted for each change of
`expiresAt`. -/
structure Record (C : Type*) where
  period : ℕ
  props : Props C
  moments : List (Moment C)

/-- The first render, and the run of its effect. -/
def Record.start (props : Props C) (now : ℤ) : Record C := ⟨0, props, [⟨0, props, now⟩]⟩

/-- A change of `expiresAt` starts a period with a run of the effect; every tick is a moment. -/
def Record.act (r : Record C) : Act C → Record C
  | .render props now =>
    if props.expiresAt = r.props.expiresAt then { r with props }
    else
      { period := r.period + 1, props, moments := r.moments ++ [⟨r.period + 1, props, now⟩] }
  | .tick _ now => { r with moments := r.moments ++ [⟨r.period, r.props, now⟩] }
  | .unmount => r

/-- A call of `onExpired` : the period it was made in, the deadline it was made for and the
callback. -/
structure Call (C : Type*) where
  period : ℕ
  expiresAt : Date
  now : ℤ
  callback : C

/-- The call of a callback, if there is one. -/
def called (period : ℕ) (expiresAt : Date) (now : ℤ) (callback : Option C) : List (Call C) :=
  (callback.map fun callback => ⟨period, expiresAt, now, callback⟩).toList

/-- A run : the component, the record of what happened to it, and the calls it made. -/
structure Trace (C : Type*) where
  pill : ExpiryPill C
  record : Record C
  calls : List (Call C)

/-- The first render is committed and its effects run. -/
def mount (props : Props C) (renderedAt now : ℤ) : Trace C :=
  let (pill, callback) := runEffect
    { mounted := true, props, secondsLeft := remaining props.expiresAt renderedAt
      onExpiredRef := props.onExpired, cleanup := none, live := [], nextId := 0 } now
  { pill, record := .start props now, calls := called 0 props.expiresAt now callback }

/-- A tick calls for the deadline that its interval closes over. -/
def step (t : Trace C) : Act C → Option (Trace C)
  | .render props now =>
    if t.pill.mounted then
      let (pill, callback) := t.pill.commit props now
      let record := t.record.act (.render props now)
      some { pill, record, calls := t.calls ++ called record.period props.expiresAt now callback }
    else none
  | .tick id now => (t.pill.live.find? fun interval => interval.id == id).map fun interval =>
    let (pill, callback) := t.pill.tick interval now
    let record := t.record.act (.tick id now)
    { pill, record, calls := t.calls ++ called record.period interval.expiresAt now callback }
  | .unmount =>
    if t.pill.mounted then some { t with pill := { t.pill.runCleanup with mounted := false } }
    else none

theorem render_eq_some {t t' : Trace C} {props : Props C} {now : ℤ}
    (h : step t (.render props now) = some t') : t.pill.mounted = true ∧
      t' = ⟨(t.pill.commit props now).1, t.record.act (.render props now),
        t.calls ++ called (t.record.act (.render props now)).period props.expiresAt now
          (t.pill.commit props now).2⟩ :=
  enabled_iff.1 h

/-! ## Moments -/

/-- The deadline has no second left. -/
def Moment.due (m : Moment C) : Bool := isZero (remaining m.props.expiresAt m.now)

/-- The call of the callback rendered last, if there is one. -/
def Moment.call (m : Moment C) : Option (Call C) :=
  m.props.onExpired.map fun callback => ⟨m.period, m.props.expiresAt, m.now, callback⟩

/-- The first moment of a period that is due. -/
def firstDue (moments : List (Moment C)) (period : ℕ) : Option (Moment C) :=
  (moments.filter fun m => m.period == period).find? Moment.due

theorem firstDue_append (moments : List (Moment C)) (m : Moment C) (period : ℕ) :
    firstDue (moments ++ [m]) period = (firstDue moments period).or
      (if m.period = period ∧ m.due = true then some m else none) := by
  rw [firstDue, List.filter_append, List.find?_append, firstDue]
  congr 1
  by_cases hperiod : m.period = period
  · by_cases hdue : m.due = true
    · simp [hperiod, hdue]
    · simp [hperiod, hdue]
  · simp [hperiod]

theorem firstDue_eq_none {moments : List (Moment C)} {period : ℕ} :
    firstDue moments period = none ↔ ∀ m ∈ moments, m.period = period → m.due = false := by
  simp [firstDue, List.find?_eq_none]

/-- The calls are those of the first due moment of each period. -/
def CallsDue (moments : List (Moment C)) (calls : List (Call C)) : Prop :=
  ∀ p, (calls.filter fun c => c.period == p) = ((firstDue moments p).bind Moment.call).toList

/-- The call of a moment is in its period. -/
theorem filter_call (m : Moment C) (p : ℕ) :
    (m.call.toList.filter fun c => c.period == p) = if m.period = p then m.call.toList else [] := by
  unfold Moment.call
  cases m.props.onExpired with
  | none => simp
  | some callback => by_cases hp : m.period = p <;> simp [hp]

variable {moments : List (Moment C)} {calls : List (Call C)}

/-- One more moment of a period without a due one, which calls where it is due. -/
theorem CallsDue.moment (h : CallsDue moments calls) {m : Moment C}
    (hnone : firstDue moments m.period = none) :
    CallsDue (moments ++ [m]) (calls ++ if m.due then m.call.toList else []) := by
  intro p
  rw [firstDue_append, List.filter_append, h p]
  cases hdue : m.due with
  | false => simp
  | true =>
    rw [if_pos rfl, filter_call]
    by_cases hp : m.period = p
    · obtain rfl := hp
      rw [hnone, if_pos rfl, if_pos ⟨rfl, rfl⟩]
      rfl
    · rw [if_neg hp, if_neg fun hc => hp hc.1, List.append_nil, Option.or_none]

/-- A callback is called for a moment where it is due. -/
theorem called_eq (m : Moment C) :
    called m.period m.props.expiresAt m.now (if m.due then m.props.onExpired else none) =
      if m.due then m.call.toList else [] := by
  cases m.due <;> rfl

/-- A call is that of a due moment of its period. -/
theorem CallsDue.exists_moment (h : CallsDue moments calls) {c : Call C} (hc : c ∈ calls) :
    ∃ m, firstDue moments c.period = some m ∧ m.call = some c := by
  have hmem : c ∈ calls.filter fun c' => c'.period == c.period :=
    List.mem_filter.2 ⟨hc, beq_self_eq_true _⟩
  rw [h c.period, Option.mem_toList] at hmem
  exact Option.bind_eq_some_iff.1 hmem

/-- No period has two calls. -/
theorem CallsDue.nodup (h : CallsDue moments calls) : (calls.map (·.period)).Nodup := by
  refine List.nodup_iff_count_le_one.2 fun p => ?_
  rw [List.count, List.countP_map, List.countP_eq_length_filter]
  have hlength : (calls.filter fun c => c.period == p).length ≤ 1 := by
    rw [h p]
    exact Option.length_toList_le
  exact hlength

/-- A call comes less than a second before its deadline. -/
theorem CallsDue.not_early (h : CallsDue moments calls) {c : Call C} (hc : c ∈ calls) :
    ∃ time, c.expiresAt.time = some time ∧ time < c.now + 1000 := by
  obtain ⟨m, hm, hcall⟩ := h.exists_moment hc
  have hdue : m.due = true := List.find?_some hm
  obtain ⟨callback, -, rfl⟩ := Option.map_eq_some_iff.1 hcall
  obtain ⟨seconds, hseconds, hzero⟩ := (Option.any_eq_true _ _).1 hdue
  obtain ⟨time, htime, rfl⟩ := Option.map_eq_some_iff.1 hseconds
  have hmax : max 0 ((time - m.now) / 1000) ≤ 0 := of_decide_eq_true hzero
  have hfloor : (time - m.now) / 1000 ≤ 0 := Int.le_trans (Int.le_max_right _ _) hmax
  have hnow : time < m.now + 1000 := by omega
  exact ⟨time, htime, hnow⟩

/-! ## What the component does at a moment -/

/-- A reading of the clock calls what the ref holds where it is due, and leaves the props and the
ref alone. -/
structure Observes (s : ExpiryPill C) (due : Bool) (t : ExpiryPill C × Option C) : Prop where
  called : t.2 = if due then s.onExpiredRef else none
  mounted : t.1.mounted = s.mounted
  props : t.1.props = s.props
  ref : t.1.onExpiredRef = s.onExpiredRef

/-- The run of the effect, which leaves an interval unless it is due. -/
theorem runEffect_spec {s : ExpiryPill C} (hlive : s.live = []) (now : ℤ) {due : Bool}
    (hdue : isZero (remaining s.props.expiresAt now) = due) :
    Observes s due (s.runEffect now) ∧
      (due = true ∧ (s.runEffect now).1.live = [] ∨ due = false ∧
        ∃ id, (s.runEffect now).1.live = [⟨id, s.props.expiresAt⟩] ∧
          (s.runEffect now).1.cleanup = some id) := by
  cases due with
  | true =>
    simp only [runEffect, hdue, if_true]
    exact ⟨⟨rfl, rfl, rfl, rfl⟩, Or.inl ⟨trivial, hlive⟩⟩
  | false =>
    simp only [runEffect, hdue, Bool.false_eq_true, if_false]
    refine ⟨⟨rfl, rfl, rfl, rfl⟩, Or.inr ⟨trivial, s.nextId, ?_, rfl⟩⟩
    rw [hlive, List.nil_append]

/-- A tick of the only interval, which is cleared where it is due. -/
theorem tick_spec {s : ExpiryPill C} {id : ℕ} (hlive : s.live = [⟨id, s.props.expiresAt⟩])
    (now : ℤ) {due : Bool} (hdue : isZero (remaining s.props.expiresAt now) = due) :
    Observes s due (s.tick ⟨id, s.props.expiresAt⟩ now) ∧
      (due = true ∧ (s.tick ⟨id, s.props.expiresAt⟩ now).1.live = [] ∨ due = false ∧
        (s.tick ⟨id, s.props.expiresAt⟩ now).1.live = s.live ∧
          (s.tick ⟨id, s.props.expiresAt⟩ now).1.cleanup = s.cleanup) := by
  cases due with
  | true =>
    simp only [tick, hdue, if_true, clearInterval]
    refine ⟨⟨rfl, rfl, rfl, rfl⟩, Or.inl ⟨trivial, ?_⟩⟩
    rw [hlive]
    simp
  | false =>
    simp only [tick, hdue, Bool.false_eq_true, if_false]
    exact ⟨⟨rfl, rfl, rfl, rfl⟩, Or.inr ⟨trivial, trivial, trivial⟩⟩

/-! ## The invariant -/

/-- At most one interval is live : that of the deadline rendered last, which the cleanup clears.
It is live while the component is mounted and no moment of the period was due. -/
def Ticking (t : Trace C) : Prop :=
  t.pill.live = [] ∧
      (t.pill.mounted = true → firstDue t.record.moments t.record.period ≠ none) ∨
    t.pill.mounted = true ∧ firstDue t.record.moments t.record.period = none ∧
      ∃ id, t.pill.live = [⟨id, t.pill.props.expiresAt⟩] ∧ t.pill.cleanup = some id

/-- The component has the props of the record and their callback in its ref, its interval is live
as long as it should be, and the calls are due. -/
structure Inv (t : Trace C) : Prop where
  props : t.pill.props = t.record.props
  ref : t.pill.onExpiredRef = t.pill.props.onExpired
  ticking : Ticking t
  past : ∀ m ∈ t.record.moments, m.period ≤ t.record.period
  calls : CallsDue t.record.moments t.calls

/-- The component reads the clock : the next moment of a period without a due one. -/
theorem Inv.of_observes {s : ExpiryPill C} {m : Moment C} {u : ExpiryPill C × Option C}
    (hprops : s.props = m.props) (href : s.onExpiredRef = s.props.onExpired)
    (hobs : Observes s m.due u) (hnone : firstDue moments m.period = none)
    (hlive : m.due = true ∧ u.1.live = [] ∨ m.due = false ∧ u.1.mounted = true ∧
      ∃ id, u.1.live = [⟨id, m.props.expiresAt⟩] ∧ u.1.cleanup = some id)
    (hpast : ∀ m' ∈ moments, m'.period ≤ m.period) (hcalls : CallsDue moments calls) :
    Inv ⟨u.1, ⟨m.period, m.props, moments ++ [m]⟩,
      calls ++ called m.period m.props.expiresAt m.now u.2⟩ where
  props := hobs.props.trans hprops
  ref := by rw [hobs.ref, hobs.props, href]
  ticking := by
    have hfirst : firstDue (moments ++ [m]) m.period = if m.due then some m else none := by
      rw [firstDue_append, hnone]
      simp
    rcases hlive with ⟨hdue, hnil⟩ | ⟨hdue, hmounted, id, hid, hcleanup⟩
    · refine Or.inl ⟨hnil, fun _ => ?_⟩
      show firstDue (moments ++ [m]) m.period ≠ none
      rw [hfirst, if_pos hdue]
      exact Option.some_ne_none m
    · refine Or.inr ⟨hmounted, ?_, id, ?_, hcleanup⟩
      · show firstDue (moments ++ [m]) m.period = none
        rw [hfirst, hdue]
        rfl
      · rw [hobs.props, hprops, hid]
  past m' hm' := by
    rcases List.mem_append.1 hm' with hm' | hm'
    · exact hpast m' hm'
    · exact (congrArg Moment.period (List.mem_singleton.1 hm')).le
  calls := by
    have hcalled : u.2 = if m.due then m.props.onExpired else none := by
      rw [hobs.called, href, hprops]
    rw [hcalled, called_eq]
    exact hcalls.moment hnone

/-- The run of the effect in a new period. -/
theorem Inv.runEffect {s : ExpiryPill C} (href : s.onExpiredRef = s.props.onExpired)
    (hmounted : s.mounted = true) (hlive : s.live = []) {period : ℕ}
    (hpast : ∀ m ∈ moments, m.period < period) (hcalls : CallsDue moments calls) (now : ℤ) :
    Inv ⟨(s.runEffect now).1, ⟨period, s.props, moments ++ [⟨period, s.props, now⟩]⟩,
      calls ++ called period s.props.expiresAt now (s.runEffect now).2⟩ := by
  set m : Moment C := ⟨period, s.props, now⟩ with hm
  have hdue : isZero (remaining s.props.expiresAt now) = m.due := rfl
  obtain ⟨hobs, hinterval⟩ := runEffect_spec hlive now hdue
  refine Inv.of_observes (m := m) rfl href hobs ?_ ?_ (fun m' hm' => (hpast m' hm').le) hcalls
  · exact firstDue_eq_none.2 fun m' hm' heq => absurd heq (hpast m' hm').ne
  · exact hinterval.imp_right fun hkept =>
      ⟨hkept.1, hobs.mounted.trans hmounted, hkept.2⟩

/-- The cleanup leaves no interval. -/
theorem runCleanup_live {t : Trace C} (h : Inv t) :
    t.pill.runCleanup = { t.pill with live := [] } := by
  rcases h.ticking with ⟨hnil, -⟩ | ⟨-, -, id, hid, hcleanup⟩
  · unfold runCleanup clearInterval
    split
    · rw [hnil, List.filter_nil]
    · rw [← hnil]
  · simp [runCleanup, clearInterval, hid, hcleanup]

/-- The interval that ticks is that of the deadline rendered last. -/
theorem Inv.tick_eq_some {t t' : Trace C} {id : ℕ} {now : ℤ} (h : Inv t)
    (hstep : ExpiryPill.step t (.tick id now) = some t') :
    t.pill.mounted = true ∧ firstDue t.record.moments t.record.period = none ∧
      t.pill.live = [⟨id, t.pill.props.expiresAt⟩] ∧ t.pill.cleanup = some id ∧
      t' = ⟨(t.pill.tick ⟨id, t.pill.props.expiresAt⟩ now).1, t.record.act (.tick id now),
        t.calls ++ called t.record.period t.pill.props.expiresAt now
          (t.pill.tick ⟨id, t.pill.props.expiresAt⟩ now).2⟩ := by
  obtain ⟨interval, hfind, rfl⟩ := Option.map_eq_some_iff.1 hstep
  have hmem := List.mem_of_find?_eq_some hfind
  have hticks : (interval.id == id) = true :=
    List.find?_some (p := fun i : Interval => i.id == id) hfind
  rcases h.ticking with ⟨hnil, -⟩ | ⟨hmounted, hnone, id', hid, hcleanup⟩
  · rw [hnil] at hmem
    cases hmem
  · rw [hid, List.mem_singleton] at hmem
    subst hmem
    obtain rfl : id' = id := beq_iff_eq.1 hticks
    exact ⟨hmounted, hnone, hid, hcleanup, rfl⟩

/-- A render with another deadline is the run of an effect. -/
theorem Inv.render_eq {t : Trace C} (h : Inv t) {props : Props C}
    (hne : props.expiresAt ≠ t.pill.props.expiresAt) (now : ℤ) :
    t.pill.commit props now =
        ExpiryPill.runEffect
          { t.pill with live := [], props, onExpiredRef := props.onExpired } now ∧
      t.record.act (.render props now) = ⟨t.record.period + 1, props,
        t.record.moments ++ [⟨t.record.period + 1, props, now⟩]⟩ := by
  constructor
  · rw [commit, if_neg hne, runCleanup_live h]
  · rw [h.props] at hne
    rw [Record.act, if_neg hne]

/-- Every action keeps the invariant. -/
theorem Inv.step {t t' : Trace C} {a : Act C} (h : Inv t) (hstep : step t a = some t') :
    Inv t' := by
  cases a with
  | render props now =>
    obtain ⟨hmounted, rfl⟩ := render_eq_some hstep
    by_cases hsame : props.expiresAt = t.pill.props.expiresAt
    · have hrecord : t.record.act (.render props now) = { t.record with props } := by
        rw [Record.act, if_pos (h.props ▸ hsame)]
      rw [commit, if_pos hsame, hrecord]
      refine ⟨rfl, rfl, h.ticking.imp_right ?_, h.past, ?_⟩
      · rw [hsame]
        exact id
      · exact (List.append_nil t.calls).symm ▸ h.calls
    · obtain ⟨hcommit, hrecord⟩ := h.render_eq hsame now
      rw [hcommit, hrecord]
      refine Inv.runEffect rfl ?_ rfl (fun m hm => ?_) h.calls now
      · exact hmounted
      · exact Nat.lt_succ_of_le (h.past m hm)
  | tick id now =>
    obtain ⟨hmounted, hnone, hid, hcleanup, rfl⟩ := h.tick_eq_some hstep
    set m : Moment C := ⟨t.record.period, t.record.props, now⟩ with hm
    have hdue : isZero (remaining t.pill.props.expiresAt now) = m.due := by rw [h.props, hm]; rfl
    obtain ⟨hobs, hinterval⟩ := tick_spec hid now hdue
    have hdeadline : t.pill.props.expiresAt = m.props.expiresAt := by rw [h.props]
    rw [hdeadline] at hobs hinterval ⊢
    refine Inv.of_observes (m := m) h.props h.ref hobs hnone (hinterval.imp_right ?_) h.past
      h.calls
    rintro ⟨hnot, hlive, hkept⟩
    refine ⟨hnot, hobs.mounted.trans hmounted, id, ?_, hkept.trans hcleanup⟩
    rw [hlive, hid, hdeadline]
  | unmount =>
    obtain ⟨hmounted, rfl⟩ := enabled_iff.1 hstep
    rw [runCleanup_live h]
    exact ⟨h.props, h.ref, Or.inl ⟨rfl, nofun⟩, h.past, h.calls⟩

theorem inv_mount (props : Props C) (renderedAt now : ℤ) : Inv (mount props renderedAt now) := by
  have hempty : CallsDue ([] : List (Moment C)) [] := fun p => rfl
  have hpast : ∀ m ∈ ([] : List (Moment C)), m.period < 0 := fun m hm =>
    absurd hm List.not_mem_nil
  exact Inv.runEffect rfl rfl rfl hpast hempty now

/-- What holds after any run. The record is that of its actions. -/
theorem inv_run {props : Props C} {renderedAt now : ℤ} {acts : List (Act C)} {t : Trace C}
    (hrun : run step (mount props renderedAt now) acts = some t) :
    Inv t ∧ t.record = acts.foldl Record.act (.start props now) := by
  refine run_induction (P := fun acts t => Inv t ∧
    t.record = acts.foldl Record.act (.start props now)) ⟨inv_mount props renderedAt now, rfl⟩
    ?_ hrun
  rintro acts t a t' - ⟨hi, hrecord⟩ hstep
  refine ⟨hi.step hstep, ?_⟩
  rw [List.foldl_append, List.foldl_cons, List.foldl_nil, ← hrecord]
  cases a with
  | render props now =>
    obtain ⟨-, rfl⟩ := render_eq_some hstep
    rfl
  | tick id now =>
    obtain ⟨-, -, -, -, rfl⟩ := hi.tick_eq_some hstep
    rfl
  | unmount =>
    obtain ⟨-, rfl⟩ := enabled_iff.1 hstep
    rfl

/-! ## One call for each deadline -/

/-- What a step calls is the callback rendered last, for the deadline rendered last. -/
def CallsCurrent (t t' : Trace C) : Prop :=
  ∃ calls, t'.calls = t.calls ++ calls ∧ ∀ c ∈ calls, c.period = t'.record.period ∧
    c.expiresAt = t'.record.props.expiresAt ∧ t'.record.props.onExpired = some c.callback

/-- What is called at a moment is in the ref. -/
theorem mem_called {s : ExpiryPill C} {due : Bool} {u : ExpiryPill C × Option C} {props : Props C}
    (hobs : Observes s due u) (href : s.onExpiredRef = props.onExpired) {period : ℕ} {now : ℤ}
    {c : Call C} (hc : c ∈ called period props.expiresAt now u.2) :
    c.period = period ∧ c.expiresAt = props.expiresAt ∧ props.onExpired = some c.callback := by
  obtain ⟨callback, hcallback, rfl⟩ := Option.map_eq_some_iff.1 (Option.mem_toList.1 hc)
  rw [hobs.called, href, Option.ite_none_right_eq_some] at hcallback
  exact ⟨rfl, rfl, hcallback.2⟩

theorem Inv.callsCurrent {t t' : Trace C} {a : Act C} (h : Inv t)
    (hstep : ExpiryPill.step t a = some t') : CallsCurrent t t' := by
  cases a with
  | render props now =>
    obtain ⟨-, rfl⟩ := render_eq_some hstep
    by_cases hsame : props.expiresAt = t.pill.props.expiresAt
    · rw [commit, if_pos hsame]
      exact ⟨[], rfl, nofun⟩
    · obtain ⟨hcommit, hrecord⟩ := h.render_eq hsame now
      rw [hcommit, hrecord]
      obtain ⟨hobs, -⟩ := runEffect_spec (s := { t.pill with
        live := [], props, onExpiredRef := props.onExpired }) rfl now rfl
      exact ⟨_, rfl, fun c hc => mem_called hobs rfl hc⟩
  | tick id now =>
    obtain ⟨-, -, hid, -, rfl⟩ := h.tick_eq_some hstep
    obtain ⟨hobs, -⟩ := tick_spec hid now rfl
    refine ⟨_, rfl, fun c hc => ?_⟩
    have hcurrent := mem_called hobs h.ref hc
    rwa [h.props] at hcurrent
  | unmount =>
    obtain ⟨-, rfl⟩ := enabled_iff.1 hstep
    exact ⟨[], (List.append_nil _).symm, nofun⟩

/-- Until a moment is due, an interval is there to tick. -/
theorem Inv.ticks {t : Trace C} (h : Inv t) (hmounted : t.pill.mounted = true)
    (hnone : firstDue t.record.moments t.record.period = none) :
    ∃ id, ∀ now, ∃ t', ExpiryPill.step t (.tick id now) = some t' := by
  rcases h.ticking with ⟨-, hdue⟩ | ⟨-, -, id, hid, -⟩
  · exact absurd hnone (hdue hmounted)
  · refine ⟨id, fun now => ?_⟩
    rw [ExpiryPill.step, hid, List.find?_cons, beq_self_eq_true]
    exact ⟨_, rfl⟩

/-- Nothing happens after the unmount. -/
theorem Inv.step_eq_none {t : Trace C} (h : Inv t) (hmounted : t.pill.mounted = false)
    (a : Act C) : ExpiryPill.step t a = none := by
  cases a with
  | render props now => rw [ExpiryPill.step, hmounted]; rfl
  | tick id now =>
    rcases h.ticking with ⟨hlive, -⟩ | ⟨htrue, -⟩
    · rw [ExpiryPill.step, hlive]
      rfl
    · exact nomatch hmounted.symm.trans htrue
  | unmount => rw [ExpiryPill.step, hmounted]; rfl

/-- In every run, with its effect runs and ticks as the moments of its actions, `onExpired` is
called once for each period that has a due moment, at the first, with the callback rendered last;
never early, never for another deadline than the one rendered last, and never after the unmount.
As long as no moment of the period is due an interval can tick. -/
theorem expires_once {props : Props C} {renderedAt now : ℤ} {acts : List (Act C)} {t : Trace C}
    (hrun : run step (mount props renderedAt now) acts = some t) :
    t.record = acts.foldl Record.act (.start props now) ∧
      CallsDue t.record.moments t.calls ∧ (t.calls.map (·.period)).Nodup ∧
      (∀ c ∈ t.calls, ∃ time, c.expiresAt.time = some time ∧ time < c.now + 1000) ∧
      (∀ a t', step t a = some t' → CallsCurrent t t') ∧
      (t.pill.mounted = true → firstDue t.record.moments t.record.period = none →
        ∃ id, ∀ now, ∃ t', step t (.tick id now) = some t') ∧
      (t.pill.mounted = false → ∀ a, step t a = none) := by
  obtain ⟨hinv, hrecord⟩ := inv_run hrun
  exact ⟨hrecord, hinv.calls, hinv.calls.nodup, fun c hc => hinv.calls.not_early hc,
    fun a t' hstep => hinv.callsCurrent hstep, hinv.ticks,
    fun hmounted => hinv.step_eq_none hmounted⟩

/-- Deadlines of a second and a half, and of three seconds. -/
def soon : Date := ⟨0, some 1500⟩

def later : Date := ⟨1, some 3000⟩

/-- A render that replaces the callback, a tick in the last second, and another deadline, which a
late tick finds over. -/
def twoDeadlines : List (Act ℕ) :=
  [.render ⟨soon, some 2⟩ 10, .tick 0 1000, .render ⟨later, some 3⟩ 1700, .tick 1 1800,
    .tick 1 5000]

theorem calls_soon : ∃ t : Trace ℕ,
    run step (mount ⟨soon, some 1⟩ 0 0) twoDeadlines = some t ∧
      t.record.moments.map (·.now) = [0, 1000, 1700, 1800, 5000] ∧
      t.calls = [⟨0, soon, 1000, 2⟩, ⟨1, later, 5000, 3⟩] ∧ (t.calls.map (·.period)).Nodup :=
  have hrun : run step (mount ⟨soon, some 1⟩ 0 0) twoDeadlines = some (_ : Trace ℕ) := rfl
  ⟨_, hrun, rfl, rfl, (expires_once hrun).2.2.1⟩

end ExpiryPill

end AuthExample
