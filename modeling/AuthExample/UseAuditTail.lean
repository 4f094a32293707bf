import AuthExample.FollowMode

/-!
# The live tail hook

`useAuditTail` opens an `EventSource` in an effect while it is enabled. A frame that parses
queues an update of the rows, and one of the pending count where the ref says that the tail is
paused; `setFollowing` writes the ref and queues updates of the state. A render applies what
is queued.

`tail_counted` : over any run of frames, calls of `setFollowing`, toggles and renders, the
rows are those of the frames that parse, none is pending while the tail follows, and while it
is paused as many are pending as have parsed since the pause. `settled_eq_react` : over the
rows of the audit page, the updates come to those of its `AuditTail`.
-/

namespace AuthExample

open Runs

/-! ## State cells -/

/-- A state of a component : the value it was last rendered with, and the updates queued
since. -/
structure Cell (α : Type*) where
  rendered : α
  queue : List (α → α)

namespace Cell

variable {α : Type*}

/-- `useState(initial)`. -/
def init (initial : α) : Cell α := ⟨initial, []⟩

/-- A functional update is queued. -/
def update (c : Cell α) (f : α → α) : Cell α := { c with queue := c.queue ++ [f] }

/-- The value once all that is queued is applied, first to last. -/
def settled (c : Cell α) : α := c.queue.foldl (fun value f => f value) c.rendered

/-- A render applies what is queued. -/
def render (c : Cell α) : Cell α := ⟨c.settled, []⟩

@[simp] theorem settled_update (c : Cell α) (f : α → α) :
    (c.update f).settled = f c.settled := by
  rw [settled, update, List.foldl_append]
  rfl

end Cell

/-! ## The hook -/

/-- What the hook returns. -/
structure TailView (Row : Type*) where
  rows : List Row
  following : Bool
  pendingCount : ℕ

/-- `useAuditTail` : its states and its ref, the `enabled` it was last rendered with and that
its effect last ran with, the `EventSource` that is not closed, and how many were opened. -/
structure UseAuditTail (Row : Type*) where
  rows : Cell (List Row)
  following : Cell Bool
  pendingCount : Cell ℕ
  followingRef : Bool
  enabled : Bool
  deps : Option Bool
  source : Option ℕ
  opened : ℕ

namespace UseAuditTail

variable {Row : Type*}

/-- The first render. -/
def mount (enabled : Bool) : UseAuditTail Row where
  rows := Cell.init []
  following := Cell.init true
  pendingCount := Cell.init 0
  followingRef := true
  enabled := enabled
  deps := none
  source := none
  opened := 0

/-- `setFollowing`. -/
def setFollowing (next : Bool) (s : UseAuditTail Row) : UseAuditTail Row :=
  { s with
    followingRef := next
    following := s.following.update fun _ => next
    pendingCount := if next then s.pendingCount.update fun _ => 0 else s.pendingCount }

/-- `handler`, with `JSON.parse` : a frame that does not parse is ignored. -/
def handler (parse : String → Option Row) (data : String) (s : UseAuditTail Row) :
    UseAuditTail Row :=
  match parse data with
  | some row =>
    { s with
      rows := s.rows.update fun prev => prev ++ [row]
      pendingCount :=
        if !s.followingRef then s.pendingCount.update fun n => n + 1 else s.pendingCount }
  | none => s

/-- The effect of `enabled` and its cleanup : another value closes the source, and opens one
where it is `true`. -/
def runEffect (s : UseAuditTail Row) : UseAuditTail Row :=
  if s.deps = some s.enabled then s
  else
    { s with
      deps := some s.enabled
      source := if s.enabled then some s.opened else none
      opened := if s.enabled then s.opened + 1 else s.opened }

/-- A render is committed. -/
def render (enabled : Bool) (s : UseAuditTail Row) : UseAuditTail Row :=
  { s with
    rows := s.rows.render
    following := s.following.render
    pendingCount := s.pendingCount.render
    enabled := enabled }

/-- What the last render returned. -/
def returned (s : UseAuditTail Row) : TailView Row :=
  ⟨s.rows.rendered, s.following.rendered, s.pendingCount.rendered⟩

/-- What is returned once all that is queued is applied. -/
def settled (s : UseAuditTail Row) : TailView Row :=
  ⟨s.rows.settled, s.following.settled, s.pendingCount.settled⟩

/-- What happens : a source receives a frame, `setFollowing` is called, a render with an
`enabled`, or the effect runs. -/
inductive Act where
  | frame (source : ℕ) (data : String)
  | setFollowing (next : Bool)
  | render (enabled : Bool)
  | effect

/-- A source that is closed receives nothing, and the effect of a render runs before the next
render. -/
def step (parse : String → Option Row) (s : UseAuditTail Row) : Act → Option (UseAuditTail Row)
  | .frame source data => if s.source = some source then some (s.handler parse data) else none
  | .setFollowing next => some (s.setFollowing next)
  | .render enabled => if s.deps = some s.enabled then some (s.render enabled) else none
  | .effect => some s.runEffect

/-! ## The updates applied at once -/

/-- What an action does to what the hook returns. -/
def advance (parse : String → Option Row) (v : TailView Row) : Act → TailView Row
  | .frame _ data =>
    match parse data with
    | some row =>
      { v with
        rows := v.rows ++ [row]
        pendingCount := if v.following then v.pendingCount else v.pendingCount + 1 }
    | none => v
  | .setFollowing next =>
    { v with following := next, pendingCount := if next then 0 else v.pendingCount }
  | _ => v

/-- The ref has the follow mode of the state, once what is queued is applied. -/
def Synced (s : UseAuditTail Row) : Prop := s.followingRef = s.following.settled

variable {parse : String → Option Row}

/-- A step keeps the ref in step with the state. -/
theorem Synced.step {s s' : UseAuditTail Row} {a : Act} (h : Synced s)
    (hstep : s.step parse a = some s') : Synced s' := by
  cases a with
  | frame source data =>
    obtain ⟨-, rfl⟩ := enabled_iff.1 hstep
    unfold handler
    cases parse data with
    | some row => exact h
    | none => exact h
  | setFollowing next =>
    obtain rfl := Option.some.inj hstep
    exact (Cell.settled_update s.following fun _ => next).symm
  | render enabled =>
    obtain ⟨-, rfl⟩ := enabled_iff.1 hstep
    exact h
  | effect =>
    obtain rfl := Option.some.inj hstep
    unfold runEffect
    split <;> exact h

/-- A step moves what the hook returns once settled as the action does at once. -/
theorem settled_step {s s' : UseAuditTail Row} {a : Act} (h : Synced s)
    (hstep : s.step parse a = some s') : s'.settled = advance parse s.settled a := by
  cases a with
  | frame source data =>
    obtain ⟨-, rfl⟩ := enabled_iff.1 hstep
    rw [advance, handler]
    cases parse data with
    | none => rfl
    | some row =>
      have href : s.followingRef = s.following.settled := h
      cases hf : s.following.settled <;> simp [settled, href, hf]
  | setFollowing next =>
    obtain rfl := Option.some.inj hstep
    cases next <;> simp [settled, setFollowing, advance]
  | render enabled =>
    obtain ⟨-, rfl⟩ := enabled_iff.1 hstep
    rfl
  | effect =>
    obtain rfl := Option.some.inj hstep
    unfold runEffect
    split <;> rfl

/-- After a run the updates come to those of its actions, one after the other. -/
theorem settled_eq_foldl {enabled : Bool} {as : List Act} {s : UseAuditTail Row}
    (h : run (step parse) (mount enabled) as = some s) :
    s.settled = as.foldl (advance parse) ⟨[], true, 0⟩ := by
  have hmount : Synced (mount enabled : UseAuditTail Row) ∧
      (mount enabled : UseAuditTail Row).settled = [].foldl (advance parse) ⟨[], true, 0⟩ :=
    ⟨rfl, rfl⟩
  refine (run_induction (P := fun as s => Synced s ∧
    s.settled = as.foldl (advance parse) ⟨[], true, 0⟩) hmount ?_ h).2
  rintro as s a s' - ⟨hsync, hs⟩ hstep
  refine ⟨hsync.step hstep, ?_⟩
  rw [settled_step hsync hstep, hs, List.foldl_append]
  rfl

/-! ## What the calls come to -/

/-- The row of a frame that parses. -/
def Act.row? (parse : String → Option Row) : Act → Option Row
  | .frame _ data => parse data
  | _ => none

/-- The argument of a call of `setFollowing`. -/
def Act.following? : Act → Option Bool
  | .setFollowing next => some next
  | _ => none

/-- The rows of the frames that parse, in arrival order. -/
def rowsOf (parse : String → Option Row) (as : List Act) : List Row :=
  as.filterMap (Act.row? parse)

/-- Whether the last call of `setFollowing` pinned the tail; it is pinned before the first. -/
def follows (as : List Act) : Bool := (as.filterMap Act.following?).getLast?.getD true

theorem rowsOf_append (as bs : List Act) :
    rowsOf parse (as ++ bs) = rowsOf parse as ++ rowsOf parse bs := List.filterMap_append

theorem rowsOf_singleton (a : Act) : rowsOf parse [a] = (a.row? parse).toList := by
  rw [rowsOf]
  cases ha : a.row? parse <;> simp [ha]

theorem follows_append_singleton (as : List Act) (a : Act) :
    follows (as ++ [a]) = a.following?.getD (follows as) := by
  rw [follows, List.filterMap_append]
  cases ha : a.following? <;> simp [ha, follows]

/-- What the hook returns for the actions of a run : the rows of the frames that parse, and
none pending, or those since the tail was last paused. -/
structure Counted (parse : String → Option Row) (as : List Act) (v : TailView Row) : Prop where
  rows : v.rows = rowsOf parse as
  following : v.following = follows as
  followed : v.following = true → v.pendingCount = 0
  paused : v.following = false → ∃ pre post, as = pre ++ .setFollowing false :: post ∧
    follows pre = true ∧ (∀ a ∈ post, a ≠ .setFollowing true) ∧
    v.pendingCount = (rowsOf parse post).length

/-- One action more that does not call `setFollowing` : its row, if any, is counted while the
tail is paused. -/
theorem Counted.receive {as : List Act} {a : Act} {v : TailView Row} (h : Counted parse as v)
    (ha : a.following? = none) :
    Counted parse (as ++ [a])
      { v with
        rows := v.rows ++ (a.row? parse).toList
        pendingCount :=
          if v.following then v.pendingCount
          else v.pendingCount + (a.row? parse).toList.length } where
  rows := by rw [rowsOf_append, rowsOf_singleton, h.rows]
  following := by rw [follows_append_singleton, ha, h.following, Option.getD_none]
  followed hf := (if_pos hf).trans (h.followed hf)
  paused hp := by
    have hp : v.following = false := hp
    obtain ⟨pre, post, rfl, hpre, hpost, hcount⟩ := h.paused hp
    refine ⟨pre, post ++ [a], by simp, hpre, fun b hb => ?_, ?_⟩
    · rcases List.mem_append.1 hb with hb | hb
      · exact hpost b hb
      · rintro rfl
        rw [← List.mem_singleton.1 hb] at ha
        cases ha
    · rw [rowsOf_append, rowsOf_singleton, List.length_append, ← hcount, hp]
      rfl

/-- A call of `setFollowing` : the count is cleared by pinning, and kept where the tail is
paused already. -/
theorem Counted.setFollowing {as : List Act} {v : TailView Row} (h : Counted parse as v)
    (next : Bool) :
    Counted parse (as ++ [.setFollowing next])
      { v with following := next, pendingCount := if next then 0 else v.pendingCount } where
  rows := by rw [rowsOf_append, rowsOf_singleton, h.rows]; simp [Act.row?]
  following := (follows_append_singleton as (.setFollowing next)).symm
  followed hf := if_pos hf
  paused hp := by
    obtain rfl : next = false := hp
    cases hv : v.following with
    | true => exact ⟨as, [], rfl, h.following.symm.trans hv, by simp, h.followed hv⟩
    | false =>
      obtain ⟨pre, post, rfl, hpre, hpost, hcount⟩ := h.paused hv
      refine ⟨pre, post ++ [.setFollowing false], by simp, hpre, fun b hb => ?_, ?_⟩
      · rcases List.mem_append.1 hb with hb | hb
        · exact hpost b hb
        · rw [List.mem_singleton.1 hb]
          nofun
      · rw [rowsOf_append, rowsOf_singleton]
        simpa [Act.row?] using hcount

/-- One action more. -/
theorem Counted.advance {as : List Act} {v : TailView Row} (h : Counted parse as v) (a : Act) :
    Counted parse (as ++ [a]) (advance parse v a) := by
  cases a with
  | setFollowing next => exact h.setFollowing next
  | frame source data =>
    have hnext := h.receive (a := .frame source data) rfl
    rw [UseAuditTail.advance]
    cases hparse : parse data <;> simpa [Act.row?, hparse] using hnext
  | render enabled =>
    have hnext := h.receive (a := .render enabled) rfl
    simpa [Act.row?, UseAuditTail.advance] using hnext
  | effect =>
    have hnext := h.receive (a := .effect) rfl
    simpa [Act.row?, UseAuditTail.advance] using hnext

theorem counted_foldl (as : List Act) :
    Counted parse as (as.foldl (UseAuditTail.advance parse) ⟨[], true, 0⟩) := by
  induction as using List.reverseRecOn with
  | nil => exact ⟨rfl, rfl, fun _ => rfl, nofun⟩
  | append_singleton as a ih =>
    rw [List.foldl_append]
    exact ih.advance a

/-- The live tail after any run. Once what is queued is applied, and so in the next render,
the rows are those of the frames that parse, none is pending while the tail follows, and while
it is paused those are pending that have parsed since. -/
theorem tail_counted {enabled : Bool} {as : List Act} {s : UseAuditTail Row}
    (h : run (step parse) (mount enabled) as = some s) :
    Counted parse as s.settled ∧
      ∀ enabled' s', s.step parse (.render enabled') = some s' → Counted parse as s'.returned := by
  have hs : Counted parse as s.settled := settled_eq_foldl h ▸ counted_foldl as
  refine ⟨hs, fun enabled' s' hstep => ?_⟩
  obtain ⟨-, rfl⟩ := enabled_iff.1 hstep
  exact hs

/-- A pause with a frame before it and two after it, one of which does not parse, and a second
pause. -/
def pausedTwice : List Act :=
  [.effect, .frame 0 "a", .setFollowing false, .frame 0 "", .frame 0 "b", .setFollowing false,
    .render false, .effect, .render true, .effect, .frame 1 "c"]

theorem tail_counted_pausedTwice :
    ∃ s : UseAuditTail String,
      run (step fun data => if data = "" then none else some data) (mount true) pausedTwice =
          some s ∧
        s.settled = ⟨["a", "b", "c"], false, 2⟩ ∧
        Counted (fun data => if data = "" then none else some data) pausedTwice s.settled := by
  have hrun : run (step fun data => if data = "" then none else some data)
    (mount true : UseAuditTail String) pausedTwice = some _ := rfl
  exact ⟨_, hrun, rfl, (tail_counted hrun).1⟩

/-! ## The tail of the audit page -/

/-- What the audit page renders of its tail. -/
def viewOf (t : AuditTail) : TailView AuditRow := ⟨t.rows, t.following, t.pendingCount⟩

/-- What `AuditTail` does at an action. -/
def react (parse : String → Option AuditRow) (t : AuditTail) : Act → AuditTail
  | .frame _ data => (parse data).elim t t.handler
  | .setFollowing next => t.setFollowing next
  | _ => t

theorem advance_viewOf {parse : String → Option AuditRow} {t : AuditTail}
    (h : t.followingRef = t.following) (a : Act) :
    (react parse t a).followingRef = (react parse t a).following ∧
      advance parse (viewOf t) a = viewOf (react parse t a) := by
  cases a with
  | frame source data =>
    rw [react, advance]
    cases parse data with
    | none => exact ⟨h, rfl⟩
    | some row =>
      refine ⟨h, ?_⟩
      cases hf : t.following <;> simp [viewOf, AuditTail.handler, h, hf]
  | setFollowing next => exact ⟨rfl, rfl⟩
  | render enabled => exact ⟨h, rfl⟩
  | effect => exact ⟨h, rfl⟩

/-- Over the rows of the audit page the hook settles as the page's tail does, a call at a
time. -/
theorem settled_eq_react {parse : String → Option AuditRow} {enabled : Bool} {as : List Act}
    {s : UseAuditTail AuditRow} (h : run (step parse) (mount enabled) as = some s) :
    s.settled = viewOf (as.foldl (react parse) ⟨[], true, 0, true⟩) := by
  rw [settled_eq_foldl h]
  suffices hfold : ∀ t : AuditTail, t.followingRef = t.following →
      as.foldl (advance parse) (viewOf t) = viewOf (as.foldl (react parse) t) from
    hfold ⟨[], true, 0, true⟩ rfl
  clear h
  induction as with
  | nil => exact fun t _ => rfl
  | cons a as ih =>
    intro t ht
    obtain ⟨hsync, hnext⟩ := advance_viewOf ht a
    rw [List.foldl_cons, hnext]
    exact ih _ hsync

end UseAuditTail

end AuthExample
