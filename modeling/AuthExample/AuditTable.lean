import AuthExample.AuditLog
import AuthExample.Runs
import Mathlib.Data.Rat.Floor

/-!
# The windowed audit table

`AuditTable` renders the rows around a scroll offset that it mirrors in its state : the
offset of the container last seen by the scroll handler, or the bottom while the parent
follows. A passive effect scrolls the container to the bottom when the follow mode or the
bottom changes, and the handler tells the parent to follow where it finds the container
within one row of the bottom.

The table runs here with its container. `inStep_of_tracks` : where the offset is not left
stale by a mount, by the parent or by the slack of one row, the rows rendered are those
under the viewport once the effect has run and the scroll events are delivered.
`always_inStep_iff` : that it is not left stale is also needed.
-/

namespace AuthExample

open Runs

/-- `ROW_H`. -/
def rowH : ℚ := 44

/-- `VIEWPORT`. -/
def viewport : ℚ := 440

/-- `OVERSCAN`. -/
def overscan : ℕ := 4

/-- The table : its props, the facets, the mirrored offset, the offset of its container
(there is none while no row is shown), the scroll events to be delivered, and whether the
follow effect is to run. -/
structure AuditTable where
  rows : List AuditRow
  actor : Option String
  event : Option String
  following : Bool
  scrollTop : ℚ
  container : Option ℚ
  scrollEvents : ℕ
  effectPending : Bool

namespace AuditTable

/-! ## Rendering -/

/-- `filtered` : the rows that match the facets. -/
def filtered (t : AuditTable) : List AuditRow :=
  t.rows.filter fun row =>
    (t.actor.isNone || t.actor == some row.actor) && (t.event.isNone || t.event == some row.event)

/-- `maxTop` : the offset of the bottom. -/
def maxTop (t : AuditTable) : ℚ := max 0 (t.filtered.length * rowH - viewport)

/-- `effectiveTop` : the offset the window is computed from. -/
def effectiveTop (t : AuditTable) : ℚ := if t.following then t.maxTop else t.scrollTop

/-- `start` : the first row rendered. -/
def start (t : AuditTable) : ℕ := (⌊t.effectiveTop / rowH⌋ - overscan).toNat

/-- `windowCount`. -/
def windowCount : ℕ := ⌈viewport / rowH⌉.toNat + overscan * 2

/-- `end` : the first row not rendered any more. -/
def stop (t : AuditTable) : ℕ := min t.filtered.length (t.start + windowCount)

/-- `windowRows` : the rows rendered, the first at the offset of row `start`. -/
def windowRows (t : AuditTable) : List AuditRow := (t.filtered.take t.stop).drop t.start

/-! ## Steps -/

/-- The follow effect, if it is to run. -/
def runEffect (t : AuditTable) : AuditTable :=
  if t.effectPending then
    match t.following, t.container with
    | true, some top =>
      { t with
        container := some t.maxTop
        scrollEvents := if top = t.maxTop then t.scrollEvents else t.scrollEvents + 1
        scrollTop := t.maxTop
        effectPending := false }
    | _, _ => { t with effectPending := false }
  else t

/-- New props and facets. -/
def withProps (rows : List AuditRow) (actor event : Option String) (following : Bool)
    (t : AuditTable) : AuditTable :=
  { t with rows, actor, event, following }

/-- A render with new props and facets is committed : the container is made at offset 0 with
the first row and goes with the last, its offset is clamped to its content, and the effect
is to run if the follow mode or the bottom is new. -/
def commit (rows : List AuditRow) (actor event : Option String) (following : Bool)
    (t : AuditTable) : AuditTable :=
  let t' := t.withProps rows actor event following
  let effectPending := t.effectPending || following != t.following || t'.maxTop != t.maxTop
  if t'.filtered.isEmpty then { t' with container := none, scrollEvents := 0, effectPending }
  else
    match t.container with
    | none => { t' with container := some 0, scrollEvents := 0, effectPending }
    | some top =>
      { t' with
        container := some (min top t'.maxTop)
        scrollEvents := if t'.maxTop < top then t.scrollEvents + 1 else t.scrollEvents
        effectPending }

/-- What `handleScroll` tells the parent, which follows : the container is within one row of
the bottom. -/
def nearBottom (top : ℚ) (t : AuditTable) : Bool := decide (t.maxTop - rowH ≤ top)

/-- `setScrollTop` of `handleScroll`, on the next scroll event. -/
def handleScroll (top : ℚ) (t : AuditTable) : AuditTable :=
  { t with scrollTop := top, scrollEvents := t.scrollEvents - 1 }

/-- The parent follows, or stops. -/
def setFollowing (following : Bool) (t : AuditTable) : AuditTable :=
  { t with following, effectPending := t.effectPending || following != t.following }

/-- The table just mounted. -/
def mount (rows : List AuditRow) (actor event : Option String) (following : Bool) : AuditTable :=
  let t : AuditTable :=
    { rows, actor, event, following, scrollTop := 0, container := none, scrollEvents := 0,
      effectPending := true }
  { t with container := if t.filtered.isEmpty then none else some 0 }

/-- What happens : the parent renders with new rows, facets or follow mode, the effect runs,
the user scrolls, or a scroll event is delivered. -/
inductive Act where
  | render (rows : List AuditRow) (actor event : Option String) (following : Bool)
  | effect
  | userScroll (top : ℚ)
  | deliver

/-- A render runs the effect of the one before first, also the render a scroll event leads
to. -/
def step (t : AuditTable) : Act → Option AuditTable
  | .render rows actor event following => some (t.runEffect.commit rows actor event following)
  | .effect => if t.effectPending then some t.runEffect else none
  | .userScroll top =>
    match t.container with
    | some old =>
      if 0 ≤ top ∧ top ≤ t.maxTop ∧ top ≠ old then
        some { t with container := some top, scrollEvents := t.scrollEvents + 1 }
      else none
    | none => none
  | .deliver =>
    match t.container with
    | some top =>
      if 0 < t.scrollEvents then
        some ((t.handleScroll top).runEffect.setFollowing (t.nearBottom top))
      else none
    | none => none

/-! ## The offset in step -/

/-- The container has an offset its content allows, and there is one while there are rows. -/
structure Fits (t : AuditTable) : Prop where
  noRow : t.container = none → t.filtered = []
  inRange : ∀ top, t.container = some top → t.filtered ≠ [] ∧ 0 ≤ top ∧ top ≤ t.maxTop

/-- Where the offset is out of step, the effect or the handler is still to run. -/
def Tracked (t : AuditTable) : Prop :=
  ∀ top, t.container = some top →
    if t.following then t.effectPending = true ∨ top = t.maxTop ∨ 0 < t.scrollEvents
    else t.scrollTop = top ∨ 0 < t.scrollEvents

/-- A step that leaves no offset stale : a container that is mounted while the parent does
not follow meets the offset 0; where the parent stops following a container that keeps its
offset, the state has that offset or comes to have it; and the last scroll event does not
find a container that is followed within one row of the bottom but not at it. -/
def Tracks (t : AuditTable) : Act → Prop
  | .render rows actor event following =>
    following = false → (t.withProps rows actor event following).filtered ≠ [] →
      match t.container with
      | none => t.scrollTop = 0
      | some top =>
        t.following = true → t.effectPending = true ∨ t.scrollTop = top ∨ 0 < t.scrollEvents ∨
          (t.withProps rows actor event following).maxTop < top
  | .deliver =>
    ∀ top, t.container = some top → t.following = true → t.effectPending = false →
      t.scrollEvents = 1 → top = t.maxTop ∨ top < t.maxTop - rowH
  | _ => True

/-- The effect scrolls the container of a table that follows, and else does nothing. -/
theorem runEffect_cases (t : AuditTable) :
    (∃ top, t.effectPending = true ∧ t.following = true ∧ t.container = some top ∧
      t.runEffect = { t with
        container := some t.maxTop
        scrollEvents := if top = t.maxTop then t.scrollEvents else t.scrollEvents + 1
        scrollTop := t.maxTop
        effectPending := false }) ∨
    ((t.effectPending = true → t.following = true → t.container = none) ∧
      t.runEffect = { t with effectPending := false }) := by
  unfold runEffect
  cases he : t.effectPending with
  | false => exact Or.inr ⟨nofun, by simp [← he]⟩
  | true =>
    rw [if_pos rfl]
    split
    · next top hf hc => exact Or.inl ⟨top, rfl, hf, hc, rfl⟩
    · next hno =>
      refine Or.inr ⟨fun _ hf => ?_, rfl⟩
      cases hc : t.container with
      | none => rfl
      | some top => exact (hno top hf hc).elim

@[simp] theorem runEffect_following (t : AuditTable) : t.runEffect.following = t.following := by
  rcases t.runEffect_cases with ⟨_, -, -, -, h⟩ | ⟨-, h⟩ <;> rw [h]

theorem userScroll_eq_some {t t' : AuditTable} {top : ℚ}
    (h : t.step (.userScroll top) = some t') :
    ∃ old, t.container = some old ∧ (0 ≤ top ∧ top ≤ t.maxTop ∧ top ≠ old) ∧
      t' = { t with container := some top, scrollEvents := t.scrollEvents + 1 } := by
  simp only [step] at h
  split at h
  · next old hold =>
    split_ifs at h with hif
    exact ⟨old, hold, hif, (Option.some.inj h).symm⟩
  · cases h

theorem deliver_eq_some {t t' : AuditTable} (h : t.step .deliver = some t') :
    ∃ top, t.container = some top ∧ 0 < t.scrollEvents ∧
      t' = (t.handleScroll top).runEffect.setFollowing (t.nearBottom top) := by
  simp only [step] at h
  split at h
  · next top htop =>
    split_ifs at h with hif
    exact ⟨top, htop, hif, (Option.some.inj h).symm⟩
  · cases h

theorem maxTop_nonneg (t : AuditTable) : 0 ≤ t.maxTop := le_max_left _ _

theorem maxTop_of_empty {t : AuditTable} (h : t.filtered = []) : t.maxTop = 0 := by
  rw [maxTop, h, List.length_nil, Nat.cast_zero, zero_mul, zero_sub]
  exact max_eq_left (by simp [viewport])

section

variable (rows : List AuditRow) (actor event : Option String) (following : Bool)
  {t : AuditTable}

/-- A commit takes the props; the offset stays where it was, and whether the effect is to run
does not depend on the container. -/
theorem commit_eq : ∃ container scrollEvents, t.commit rows actor event following =
    { t.withProps rows actor event following with
      container
      scrollEvents
      effectPending := t.effectPending || following != t.following ||
        (t.withProps rows actor event following).maxTop != t.maxTop } := by
  simp only [commit]
  split_ifs
  · exact ⟨_, _, rfl⟩
  · split <;> exact ⟨_, _, rfl⟩

@[simp] theorem commit_following :
    (t.commit rows actor event following).following = following := by
  obtain ⟨_, _, h⟩ := commit_eq rows actor event following (t := t)
  rw [h]
  rfl

@[simp] theorem commit_scrollTop :
    (t.commit rows actor event following).scrollTop = t.scrollTop := by
  obtain ⟨_, _, h⟩ := commit_eq rows actor event following (t := t)
  rw [h]
  rfl

@[simp] theorem commit_filtered :
    (t.commit rows actor event following).filtered =
      (t.withProps rows actor event following).filtered := by
  obtain ⟨_, _, h⟩ := commit_eq rows actor event following (t := t)
  rw [h]
  rfl

@[simp] theorem commit_maxTop :
    (t.commit rows actor event following).maxTop =
      (t.withProps rows actor event following).maxTop := by
  simp only [maxTop, commit_filtered]

@[simp] theorem commit_effectPending :
    (t.commit rows actor event following).effectPending =
      (t.effectPending || following != t.following ||
        (t.withProps rows actor event following).maxTop != t.maxTop) := by
  obtain ⟨_, _, h⟩ := commit_eq rows actor event following (t := t)
  rw [h]

variable {rows actor event following}

/-- No row is left : the container goes. -/
theorem commit_of_empty (h : (t.withProps rows actor event following).filtered = []) :
    (t.commit rows actor event following).container = none := by
  simp only [commit, h, List.isEmpty_nil, if_pos]

/-- The first row : the container is made. -/
theorem commit_of_mount (h : (t.withProps rows actor event following).filtered ≠ [])
    (hc : t.container = none) :
    (t.commit rows actor event following).container = some 0 ∧
      (t.commit rows actor event following).scrollEvents = 0 := by
  simp only [commit, hc, List.isEmpty_iff, if_neg h, and_self]

/-- The container stays, its offset clamped. -/
theorem commit_of_stay (h : (t.withProps rows actor event following).filtered ≠ []) {top : ℚ}
    (hc : t.container = some top) :
    (t.commit rows actor event following).container =
        some (min top (t.withProps rows actor event following).maxTop) ∧
      (t.commit rows actor event following).scrollEvents =
        if (t.withProps rows actor event following).maxTop < top then t.scrollEvents + 1
        else t.scrollEvents := by
  simp only [commit, hc, List.isEmpty_iff, if_neg h, and_self]

end

variable {t t' : AuditTable}

theorem Fits.runEffect (h : Fits t) : Fits t.runEffect := by
  rcases t.runEffect_cases with ⟨top, -, -, hc, he⟩ | ⟨-, he⟩ <;> rw [he]
  · refine ⟨nofun, fun top' ht => ?_⟩
    obtain rfl := Option.some.inj ht
    exact ⟨(h.inRange top hc).1, t.maxTop_nonneg, le_rfl⟩
  · exact ⟨h.noRow, h.inRange⟩

theorem Fits.commit (h : Fits t) (rows : List AuditRow) (actor event : Option String)
    (following : Bool) : Fits (t.commit rows actor event following) := by
  by_cases hf : (t.withProps rows actor event following).filtered = []
  · refine ⟨fun _ => by rw [commit_filtered, hf], fun top ht => ?_⟩
    rw [commit_of_empty hf] at ht
    cases ht
  · cases hc : t.container with
    | none =>
      refine ⟨fun hn => ?_, fun top ht => ?_⟩
      · rw [(commit_of_mount hf hc).1] at hn
        cases hn
      · rw [(commit_of_mount hf hc).1] at ht
        obtain rfl := Option.some.inj ht
        exact ⟨by rwa [commit_filtered], le_rfl, maxTop_nonneg _⟩
    | some top =>
      refine ⟨fun hn => ?_, fun top' ht => ?_⟩
      · rw [(commit_of_stay hf hc).1] at hn
        cases hn
      · rw [(commit_of_stay hf hc).1] at ht
        obtain rfl := Option.some.inj ht
        rw [commit_filtered, commit_maxTop]
        exact ⟨hf, le_min (h.inRange top hc).2.1 (maxTop_nonneg _), min_le_right _ _⟩

theorem Fits.step (h : Fits t) {a : Act} (hstep : t.step a = some t') : Fits t' := by
  cases a with
  | render rows actor event following =>
    obtain rfl := Option.some.inj hstep
    exact h.runEffect.commit rows actor event following
  | effect =>
    obtain ⟨-, rfl⟩ := enabled_iff.1 hstep
    exact h.runEffect
  | userScroll top =>
    obtain ⟨old, hold, ⟨h0, hmax, -⟩, rfl⟩ := userScroll_eq_some hstep
    refine ⟨nofun, fun top' ht => ?_⟩
    obtain rfl := Option.some.inj ht
    exact ⟨(h.inRange old hold).1, h0, hmax⟩
  | deliver =>
    obtain ⟨top, htop, -, rfl⟩ := deliver_eq_some hstep
    have hs : Fits (t.handleScroll top) := ⟨h.noRow, h.inRange⟩
    exact ⟨hs.runEffect.noRow, hs.runEffect.inRange⟩

theorem Tracked.runEffect (h : Tracked t) : Tracked t.runEffect := by
  rcases t.runEffect_cases with ⟨top, -, hf, -, he⟩ | ⟨hno, he⟩
  · intro top' ht
    rw [he] at ht ⊢
    obtain rfl := Option.some.inj ht
    rw [if_pos hf]
    exact Or.inr (Or.inl rfl)
  · intro top ht
    rw [he] at ht ⊢
    have htop := h top ht
    by_cases hf : t.following = true
    · rw [if_pos hf] at htop
      rw [if_pos hf]
      refine htop.elim (fun hp => ?_) Or.inr
      rw [hno hp hf] at ht
      cases ht
    · rw [if_neg hf] at htop
      rw [if_neg hf]
      exact htop

/-- After a commit that follows the effect is to run, as the follow mode or the bottom is new,
or the container is at the bottom, or it is where it was. -/
theorem commit_following_cases (hf : Fits t) (rows : List AuditRow) (actor event : Option String)
    {top : ℚ} (ht : (t.commit rows actor event true).container = some top) :
    (t.commit rows actor event true).effectPending = true ∨
      top = (t.commit rows actor event true).maxTop ∨
      t.following = true ∧ t.effectPending = false ∧ t.container = some top ∧
        (t.commit rows actor event true).maxTop = t.maxTop ∧
        (t.commit rows actor event true).scrollEvents = t.scrollEvents := by
  rw [commit_effectPending, commit_maxTop]
  by_cases hmax : (t.withProps rows actor event true).maxTop = t.maxTop
  · cases hp : t.effectPending with
    | true => exact Or.inl rfl
    | false =>
      cases hfollow : t.following with
      | false => exact Or.inl rfl
      | true =>
        right
        by_cases hempty : (t.withProps rows actor event true).filtered = []
        · rw [commit_of_empty hempty] at ht
          cases ht
        · cases hc : t.container with
          | none =>
            rw [(commit_of_mount hempty hc).1] at ht
            obtain rfl := Option.some.inj ht
            rw [hmax, maxTop_of_empty (hf.noRow hc)]
            exact Or.inl rfl
          | some top' =>
            obtain ⟨hcont, hevents⟩ := commit_of_stay hempty hc
            have hle := (hf.inRange top' hc).2.2
            rw [hcont, hmax, min_eq_left hle] at ht
            obtain rfl := Option.some.inj ht
            rw [hmax, if_neg hle.not_gt] at hevents
            exact Or.inr ⟨rfl, rfl, rfl, hmax, hevents⟩
  · left
    simp [hmax]

/-- A commit that follows is tracked. -/
theorem tracked_commit_following (hf : Fits t) (h : Tracked t) (rows : List AuditRow)
    (actor event : Option String) : Tracked (t.commit rows actor event true) := by
  intro top ht
  rw [commit_following, if_pos rfl]
  rcases commit_following_cases hf rows actor event ht with
    hp | htop | ⟨hfollow, hp, hc, hmax, hevents⟩
  · exact Or.inl hp
  · exact Or.inr (Or.inl htop)
  · have htop := h top hc
    rw [if_pos hfollow, hp] at htop
    rw [hmax, hevents]
    exact Or.inr (htop.resolve_left Bool.false_ne_true)

/-- A commit that does not follow is tracked where the offset it finds is not stale. -/
theorem tracked_commit_iff (h : Tracked t) (rows : List AuditRow) (actor event : Option String) :
    Tracked (t.commit rows actor event false) ↔
      ((t.withProps rows actor event false).filtered ≠ [] →
        match t.container with
        | none => t.scrollTop = 0
        | some top => t.following = true → t.scrollTop = top ∨ 0 < t.scrollEvents ∨
            (t.withProps rows actor event false).maxTop < top) := by
  have hiff : Tracked (t.commit rows actor event false) ↔
      ∀ top, (t.commit rows actor event false).container = some top →
        t.scrollTop = top ∨ 0 < (t.commit rows actor event false).scrollEvents := by
    simp only [Tracked, commit_following, commit_scrollTop, Bool.false_eq_true, if_false]
  rw [hiff]
  by_cases hempty : (t.withProps rows actor event false).filtered = []
  · simp [commit_of_empty hempty, hempty]
  · cases hc : t.container with
    | none =>
      obtain ⟨hcont, hevents⟩ := commit_of_mount hempty hc
      simp [hcont, hevents, hempty]
    | some top =>
      obtain ⟨hcont, hevents⟩ := commit_of_stay hempty hc
      have htop := h top hc
      simp only [hcont, hevents, Option.some.injEq, forall_eq', hempty, ne_eq, not_false_eq_true,
        forall_const]
      by_cases hlt : (t.withProps rows actor event false).maxTop < top
      · simp [hlt]
      · rw [if_neg hlt, min_eq_left (not_lt.1 hlt)]
        cases hfollow : t.following with
        | true => simp [hlt]
        | false =>
          rw [hfollow, if_neg Bool.false_ne_true] at htop
          simp [htop]

/-- A render is tracked exactly when it leaves no offset stale. -/
theorem tracked_render_iff (hf : Fits t) (h : Tracked t) (rows : List AuditRow)
    (actor event : Option String) (following : Bool) :
    Tracked (t.runEffect.commit rows actor event following) ↔
      t.Tracks (.render rows actor event following) := by
  cases following with
  | true =>
    exact iff_of_true (tracked_commit_following hf.runEffect h.runEffect rows actor event) nofun
  | false =>
    rw [tracked_commit_iff h.runEffect]
    rcases t.runEffect_cases with ⟨top, hp, -, hc, he⟩ | ⟨hno, he⟩
    · refine iff_of_true (fun _ => ?_) fun _ _ => ?_
      · rw [he]
        exact fun _ => Or.inl rfl
      · rw [hc]
        exact fun _ => Or.inl hp
    · simp only [Tracks, he, forall_const]
      refine imp_congr Iff.rfl ?_
      cases hc : t.container with
      | none => rfl
      | some top =>
        refine imp_congr_right fun hfollow => ?_
        have hp : t.effectPending ≠ true := fun hp => by
          rw [hno hp hfollow] at hc
          cases hc
        exact (or_iff_right hp).symm

/-- Where the table has the offset of the container, it comes to follow tracked, unless it
follows already, is not at the bottom and has no event to be delivered. -/
theorem tracked_setFollowing_iff {top : ℚ} (hp : t.effectPending = false)
    (hc : t.container = some top) (hs : t.scrollTop = top) (following : Bool) :
    Tracked (t.setFollowing following) ↔
      (following = true → t.following = true → top = t.maxTop ∨ 0 < t.scrollEvents) := by
  have hiff : Tracked (t.setFollowing following) ↔
      if following then (t.effectPending || following != t.following) = true ∨ top = t.maxTop ∨
          0 < t.scrollEvents
      else t.scrollTop = top ∨ 0 < t.scrollEvents := by
    refine ⟨fun h => h top hc, fun h top' ht => ?_⟩
    obtain rfl := Option.some.inj (hc.symm.trans ht)
    exact h
  rw [hiff, hp]
  cases following with
  | false => exact iff_of_true (Or.inl hs) nofun
  | true => cases t.following <;> simp

/-- A scroll event leaves the offset tracked exactly when it is not the last and finds the
container within one row of the bottom it is to follow. -/
theorem tracked_deliver_iff {top : ℚ} (hc : t.container = some top) (hevents : 0 < t.scrollEvents) :
    Tracked ((t.handleScroll top).runEffect.setFollowing (t.nearBottom top)) ↔
      t.Tracks .deliver := by
  rcases (t.handleScroll top).runEffect_cases with ⟨_, hp, -, -, he⟩ | ⟨hno, he⟩ <;> rw [he]
  · have hpending : t.effectPending = true := hp
    rw [tracked_setFollowing_iff rfl rfl rfl]
    refine iff_of_true (fun _ _ => Or.inl rfl) fun _ _ _ hsettled _ => ?_
    rw [hpending] at hsettled
    cases hsettled
  · have hsettled : t.following = true → t.effectPending = false := fun hf => by
      refine Bool.eq_false_iff.2 fun hp => ?_
      have hnone : t.container = none := hno hp hf
      rw [hc] at hnone
      cases hnone
    have hiff := tracked_setFollowing_iff
      (t := { t.handleScroll top with effectPending := false }) rfl hc rfl (t.nearBottom top)
    rw [hiff]
    simp only [nearBottom, decide_eq_true_iff, Tracks, hc, Option.some.injEq, forall_eq']
    constructor
    · intro h hf _ hone
      by_cases hle : t.maxTop - rowH ≤ top
      · refine Or.inl ((h hle hf).resolve_right fun hpos => ?_)
        have hleft : 0 < t.scrollEvents - 1 := hpos
        omega
      · exact Or.inr (not_le.1 hle)
    · intro h hle hf
      by_cases hone : t.scrollEvents = 1
      · exact Or.inl ((h hf (hsettled hf) hone).resolve_right hle.not_gt)
      · have hleft : 0 < t.scrollEvents - 1 := by omega
        exact Or.inr hleft

/-- A step keeps the offset tracked exactly when it leaves none stale. -/
theorem tracked_step_iff (hf : Fits t) (h : Tracked t) {a : Act} (hstep : t.step a = some t') :
    Tracked t' ↔ t.Tracks a := by
  cases a with
  | render rows actor event following =>
    obtain rfl := Option.some.inj hstep
    exact tracked_render_iff hf h rows actor event following
  | effect =>
    obtain ⟨-, rfl⟩ := enabled_iff.1 hstep
    exact iff_of_true h.runEffect trivial
  | userScroll top =>
    obtain ⟨old, -, -, rfl⟩ := userScroll_eq_some hstep
    refine iff_of_true (fun top' _ => ?_) trivial
    split_ifs
    · exact Or.inr (Or.inr (Nat.succ_pos _))
    · exact Or.inr (Nat.succ_pos _)
  | deliver =>
    obtain ⟨top, htop, hevents, rfl⟩ := deliver_eq_some hstep
    exact tracked_deliver_iff htop hevents

theorem mount_container (rows : List AuditRow) (actor event : Option String) (following : Bool) :
    (mount rows actor event following).container =
      if (mount rows actor event following).filtered.isEmpty then none else some 0 :=
  rfl

theorem fits_mount (rows : List AuditRow) (actor event : Option String) (following : Bool) :
    Fits (mount rows actor event following) := by
  refine ⟨fun hc => ?_, fun top hc => ?_⟩ <;> rw [mount_container] at hc <;> split_ifs at hc with h
  · exact List.isEmpty_iff.1 h
  · obtain rfl := Option.some.inj hc
    exact ⟨fun hnil => h (List.isEmpty_iff.2 hnil), le_rfl, maxTop_nonneg _⟩

theorem tracked_mount (rows : List AuditRow) (actor event : Option String) (following : Bool) :
    Tracked (mount rows actor event following) := by
  intro top hc
  rw [mount_container] at hc
  split_ifs at hc
  obtain rfl := Option.some.inj hc
  cases following with
  | true => exact Or.inl rfl
  | false => exact Or.inl rfl

/-- A run keeps the offset tracked exactly when none of its steps leaves it stale. -/
theorem always_tracked_iff (rows : List AuditRow) (actor event : Option String)
    (following : Bool) (as : List Act) :
    Always step (fun t => Fits t ∧ Tracked t) (mount rows actor event following) as ↔
      Along step Tracks (mount rows actor event following) as := by
  refine always_iff_along (K := fun _ => True) (fun _ _ _ _ _ _ => trivial)
    (fun t a t' _ h hstep => ?_) trivial
    ⟨fits_mount rows actor event following, tracked_mount rows actor event following⟩
  rw [tracked_step_iff h.1 h.2 hstep]
  exact and_iff_right (h.1.step hstep)

/-! ## The rows under the viewport -/

/-- Once the effect has run and the scroll events are delivered, the window is computed from
the offset of the container, and every row under the viewport is rendered at its place. -/
def InStep (t : AuditTable) : Prop :=
  t.effectPending = false → t.scrollEvents = 0 → t.filtered ≠ [] →
    ∃ top, t.container = some top ∧ t.effectiveTop = top ∧
      ∀ (i : ℕ) row, t.filtered[i]? = some row → i * rowH < top + viewport →
        top < (i + 1) * rowH → t.start ≤ i ∧ t.windowRows[i - t.start]? = some row

theorem rowH_pos : 0 < rowH := by norm_num [rowH]

/-- The viewport shows ten rows. -/
theorem viewport_eq : viewport = 10 * rowH := by norm_num [viewport, rowH]

theorem windowCount_eq : windowCount = 18 := by
  have hceil : ⌈viewport / rowH⌉ = 10 := by norm_num [viewport, rowH]
  simp [windowCount, hceil, overscan]

/-- The window starts at or above every row that ends below its offset. -/
theorem start_le (t : AuditTable) {i : ℕ} (h : t.effectiveTop < (i + 1) * rowH) : t.start ≤ i := by
  have hlt : t.effectiveTop / rowH < ((i : ℤ) + 1 : ℤ) := by
    push_cast
    rwa [div_lt_iff₀ rowH_pos]
  have hfloor : ⌊t.effectiveTop / rowH⌋ ≤ i := Int.lt_add_one_iff.1 (Int.floor_lt.2 hlt)
  unfold start
  omega

/-- The window ends below every row that starts above the end of the viewport. -/
theorem lt_stop (t : AuditTable) {i : ℕ} (hi : i < t.filtered.length)
    (h : i * rowH < t.effectiveTop + viewport) : i < t.stop := by
  have hfloor : (i : ℤ) - 10 ≤ ⌊t.effectiveTop / rowH⌋ := by
    refine Int.le_floor.2 ?_
    push_cast
    rw [le_div_iff₀ rowH_pos]
    rw [viewport_eq] at h
    linarith
  unfold stop start
  rw [windowCount_eq]
  simp only [overscan]
  omega

/-- The rows under a viewport at the offset of the window are rendered at their place. -/
theorem windowRows_covers (t : AuditTable) {i : ℕ} {row : AuditRow}
    (hrow : t.filtered[i]? = some row) (hbelow : i * rowH < t.effectiveTop + viewport)
    (habove : t.effectiveTop < (i + 1) * rowH) :
    t.start ≤ i ∧ t.windowRows[i - t.start]? = some row := by
  have hstart : t.start ≤ i := t.start_le habove
  have hstop : i < t.stop := t.lt_stop (List.getElem?_eq_some_iff.1 hrow).1 hbelow
  refine ⟨hstart, ?_⟩
  rw [windowRows, List.getElem?_drop, Nat.add_sub_cancel' hstart, List.getElem?_take,
    if_pos hstop, hrow]

/-- A table whose offset is tracked is in step. -/
theorem inStep_of_tracked (hf : Fits t) (h : Tracked t) : InStep t := by
  intro hp hevents hne
  cases hc : t.container with
  | none => exact absurd (hf.noRow hc) hne
  | some top =>
    have htop : t.effectiveTop = top := by
      have htop := h top hc
      unfold effectiveTop
      by_cases hfollow : t.following = true
      · rw [if_pos hfollow, hp, hevents] at htop
        rw [if_pos hfollow]
        exact (htop.resolve_left Bool.false_ne_true).resolve_right (lt_irrefl 0) |>.symm
      · rw [if_neg hfollow, hevents] at htop
        rw [if_neg hfollow]
        exact htop.resolve_right (lt_irrefl 0)
    refine ⟨top, rfl, htop, fun i row hrow hbelow habove => ?_⟩
    rw [← htop] at hbelow habove
    exact t.windowRows_covers hrow hbelow habove

/-- A table whose offset is not tracked is not in step once its effect has run. -/
theorem not_inStep_of_not_tracked (hf : Fits t) (h : ¬ Tracked t) : ¬ InStep t.runEffect := by
  intro hin
  refine h fun top hc => ?_
  by_contra hstale
  rcases t.runEffect_cases with ⟨_, hp, hfollow, -, -⟩ | ⟨-, he⟩
  · exact hstale (by rw [if_pos hfollow]; exact Or.inl hp)
  · have hevents : t.scrollEvents = 0 := by
      by_contra hpos
      refine hstale ?_
      split_ifs
      · exact Or.inr (Or.inr (Nat.pos_of_ne_zero hpos))
      · exact Or.inr (Nat.pos_of_ne_zero hpos)
    rw [he] at hin
    obtain ⟨top', hc', htop, -⟩ := hin rfl hevents (hf.inRange top hc).1
    obtain rfl := Option.some.inj (hc.symm.trans hc')
    refine hstale ?_
    by_cases hfollow : t.following = true
    · rw [if_pos hfollow]
      have heff : t.effectiveTop = t.maxTop := if_pos hfollow
      exact Or.inr (Or.inl (htop.symm.trans heff))
    · rw [if_neg hfollow]
      have heff : t.effectiveTop = t.scrollTop := if_neg hfollow
      exact Or.inl (heff.symm.trans htop)

/-- A run keeps the table in step, whenever the effect runs, exactly when none of its steps
leaves the offset stale. -/
theorem always_inStep_iff (rows : List AuditRow) (actor event : Option String)
    (following : Bool) (as : List Act) :
    Always step (fun t => InStep t.runEffect) (mount rows actor event following) as ↔
      Along step Tracks (mount rows actor event following) as := by
  rw [← always_tracked_iff]
  constructor
  · intro h
    refine always_iff.2 fun pre t hpre hrun => ?_
    have hf : Fits t := run_induction (P := fun _ t => Fits t)
      (fits_mount rows actor event following) (fun _ _ _ _ _ hf hstep => hf.step hstep) hrun
    refine ⟨hf, ?_⟩
    by_contra htracked
    exact not_inStep_of_not_tracked hf htracked (always_iff.1 h pre t hpre hrun)
  · intro h
    exact h.mono fun t ht => inStep_of_tracked ht.1.runEffect ht.2.runEffect

/-- In every run none of whose steps leaves the offset stale, the table is in step. -/
theorem inStep_of_tracks {rows : List AuditRow} {actor event : Option String} {following : Bool}
    {as : List Act} (h : Along step Tracks (mount rows actor event following) as) :
    Always step InStep (mount rows actor event following) as :=
  ((always_tracked_iff rows actor event following as).2 h).mono fun _ ht =>
    inStep_of_tracked ht.1 ht.2

/-- `count` rows of one actor, from the id `first` on. -/
def loginRows (first count : ℕ) : List AuditRow :=
  (List.range' first count).map fun id =>
    { id, event := "after_login", actor := "user@example.test", tenantId := some "acme",
      ip := some "203.0.113.4", createdAt := "2026-01-01T00:00:00Z", details := .obj [] }

@[simp] theorem length_loginRows (first count : ℕ) : (loginRows first count).length = count := by
  simp [loginRows]

theorem loginRows_ne_nil (first count : ℕ) : loginRows first (count + 1) ≠ [] :=
  List.ne_nil_of_length_eq_add_one (length_loginRows first (count + 1))

/-- A hundred rows of one actor. -/
def hundredRows : List AuditRow := loginRows 1 100

theorem hundredRows_ne_nil : hundredRows ≠ [] := loginRows_ne_nil 1 99

section

variable (following : Bool) (scrollTop : ℚ) (container : Option ℚ) (scrollEvents : ℕ)
  (effectPending : Bool)

theorem filtered_noFacet (rows : List AuditRow) :
    filtered ⟨rows, none, none, following, scrollTop, container, scrollEvents,
      effectPending⟩ = rows :=
  List.filter_eq_self.2 fun _ _ => rfl

theorem maxTop_noFacet (rows : List AuditRow) :
    maxTop ⟨rows, none, none, following, scrollTop, container, scrollEvents,
      effectPending⟩ = max 0 (rows.length * rowH - viewport) := by
  rw [maxTop, filtered_noFacet]

theorem maxTop_hundredRows :
    maxTop ⟨hundredRows, none, none, following, scrollTop, container, scrollEvents,
      effectPending⟩ = 3960 := by
  rw [maxTop_noFacet, hundredRows, length_loginRows]
  norm_num [rowH, viewport]

theorem filtered_nobody :
    filtered ⟨hundredRows, some "nobody", none, following, scrollTop, container, scrollEvents,
      effectPending⟩ = [] := by
  refine List.filter_eq_nil_iff.2 fun row hrow => ?_
  obtain ⟨id, -, rfl⟩ := List.mem_map.1 hrow
  simp

theorem maxTop_nobody :
    maxTop ⟨hundredRows, some "nobody", none, following, scrollTop, container, scrollEvents,
      effectPending⟩ = 0 :=
  maxTop_of_empty (filtered_nobody ..)

end

theorem step_pin : step (mount hundredRows none none true) .effect =
    some ⟨hundredRows, none, none, true, 3960, some 3960, 1, false⟩ := by
  simp only [mount, step, runEffect, filtered_noFacet, maxTop_hundredRows,
    List.isEmpty_iff, if_neg hundredRows_ne_nil]
  norm_num

theorem step_pinned : step ⟨hundredRows, none, none, true, 3960, some 3960, 1, false⟩ .deliver =
    some ⟨hundredRows, none, none, true, 3960, some 3960, 0, false⟩ := by
  simp [step, handleScroll, runEffect, setFollowing, nearBottom, maxTop_hundredRows, rowH]

theorem step_scrollUp :
    step ⟨hundredRows, none, none, true, 3960, some 3960, 0, false⟩ (.userScroll 2000) =
      some ⟨hundredRows, none, none, true, 3960, some 2000, 1, false⟩ := by
  simp only [step, maxTop_hundredRows]
  norm_num

theorem step_scrolledUp :
    step ⟨hundredRows, none, none, true, 3960, some 2000, 1, false⟩ .deliver =
      some ⟨hundredRows, none, none, false, 2000, some 2000, 0, true⟩ := by
  simp only [step, handleScroll, runEffect, setFollowing, nearBottom, maxTop_hundredRows, rowH]
  norm_num

/-- The user scrolls up. -/
def scrollUp : List Act := [.effect, .deliver, .userScroll 2000, .deliver]

theorem run_scrollUp : run step (mount hundredRows none none true) scrollUp =
    some ⟨hundredRows, none, none, false, 2000, some 2000, 0, true⟩ := by
  simp only [scrollUp, run_cons, step_pin, step_pinned, step_scrollUp, step_scrolledUp,
    Option.bind_some, run_nil]

/-- Forty rows of the same actor. -/
def fortyRows : List AuditRow := loginRows 1 40

theorem maxTop_fortyRows (following : Bool) (scrollTop : ℚ) (container : Option ℚ)
    (scrollEvents : ℕ) (effectPending : Bool) :
    maxTop ⟨fortyRows, none, none, following, scrollTop, container, scrollEvents,
      effectPending⟩ = 1320 := by
  rw [maxTop_noFacet, fortyRows, length_loginRows]
  norm_num [rowH, viewport]

/-- The container is clamped to fewer rows. -/
theorem step_shrink :
    step ⟨hundredRows, none, none, false, 2000, some 2000, 0, true⟩
      (.render fortyRows none none false) =
      some ⟨fortyRows, none, none, false, 2000, some 1320, 1, true⟩ := by
  have hne : fortyRows ≠ [] := loginRows_ne_nil 1 39
  simp only [step, runEffect, commit, withProps, filtered_noFacet, maxTop_fortyRows,
    List.isEmpty_iff, if_neg hne]
  norm_num [maxTop_hundredRows]

theorem step_clamped :
    step ⟨fortyRows, none, none, false, 2000, some 1320, 1, true⟩ .deliver =
      some ⟨fortyRows, none, none, true, 1320, some 1320, 0, true⟩ := by
  simp only [step, handleScroll, runEffect, setFollowing, nearBottom, maxTop_fortyRows, rowH]
  norm_num

theorem step_unmount :
    step ⟨fortyRows, none, none, true, 1320, some 1320, 0, true⟩
      (.render hundredRows (some "nobody") none true) =
      some ⟨hundredRows, some "nobody", none, true, 1320, none, 0, true⟩ := by
  simp [step, runEffect, commit, withProps, filtered_nobody, maxTop_nobody, maxTop_fortyRows]

theorem step_remount :
    step ⟨hundredRows, some "nobody", none, true, 1320, none, 0, true⟩
      (.render hundredRows none none true) =
      some ⟨hundredRows, none, none, true, 1320, some 0, 0, true⟩ := by
  simp [step, runEffect, commit, withProps, filtered_noFacet, hundredRows_ne_nil,
    maxTop_nobody, maxTop_hundredRows]

theorem step_repin :
    step ⟨hundredRows, none, none, true, 1320, some 0, 0, true⟩ .effect =
      some ⟨hundredRows, none, none, true, 3960, some 3960, 1, false⟩ := by
  simp [step, runEffect, maxTop_hundredRows]

/-- The user scrolls up, the rows become fewer, and then an actor without rows is looked for
and back while the table follows. -/
def fewerAndBack : List Act :=
  scrollUp ++
    [.render fortyRows none none false, .deliver, .render hundredRows (some "nobody") none true,
      .render hundredRows none none true, .effect, .deliver]

theorem inStep_of_tracks_fewerAndBack :
    Always step InStep (mount hundredRows none none true) fewerAndBack := by
  have hpinned : Tracks ⟨hundredRows, none, none, true, 3960, some 3960, 1, false⟩ .deliver := by
    intro top htop _ _ _
    rw [maxTop_hundredRows]
    exact Or.inl (Option.some.inj htop).symm
  have hscrolled : Tracks ⟨hundredRows, none, none, true, 3960, some 2000, 1, false⟩ .deliver := by
    intro top htop _ _ _
    obtain rfl := Option.some.inj htop
    rw [maxTop_hundredRows]
    exact Or.inr (by norm_num [rowH])
  refine inStep_of_tracks ?_
  refine .cons step_pin trivial <| .cons step_pinned hpinned <| .cons step_scrollUp trivial <|
    .cons step_scrolledUp hscrolled <| .cons step_shrink ?_ <| .cons step_clamped ?_ <|
    .cons step_unmount nofun <| .cons step_remount nofun <| .cons step_repin trivial <|
    .cons step_pinned hpinned trivial
  -- neither the parent's render nor the event finds a table that is followed
  · exact fun _ _ hfollow => nomatch hfollow
  · exact fun _ _ hfollow => nomatch hfollow

/-- The user scrolls up, then looks for an actor without rows and back. -/
def facetAndBack : List Act :=
  scrollUp ++
    [.render hundredRows (some "nobody") none false, .render hundredRows none none false, .effect]

/-- The container is back at its top, and the offset still where the user had scrolled to. -/
theorem run_facetAndBack :
    run step (mount hundredRows none none true) facetAndBack =
      some ⟨hundredRows, none, none, false, 2000, some 0, 0, false⟩ := by
  have hnobody : step ⟨hundredRows, none, none, false, 2000, some 2000, 0, true⟩
      (.render hundredRows (some "nobody") none false) =
      some ⟨hundredRows, some "nobody", none, false, 2000, none, 0, true⟩ := by
    simp [step, runEffect, commit, withProps, filtered_nobody, maxTop_nobody, maxTop_hundredRows]
  have hback : step ⟨hundredRows, some "nobody", none, false, 2000, none, 0, true⟩
      (.render hundredRows none none false) =
      some ⟨hundredRows, none, none, false, 2000, some 0, 0, true⟩ := by
    simp [step, runEffect, commit, withProps, filtered_noFacet, hundredRows_ne_nil,
      maxTop_nobody, maxTop_hundredRows]
  have hsettled : step ⟨hundredRows, none, none, false, 2000, some 0, 0, true⟩ .effect =
      some ⟨hundredRows, none, none, false, 2000, some 0, 0, false⟩ := by
    simp [step, runEffect]
  simp only [facetAndBack, run_append, run_scrollUp, run_cons, hnobody, hback, hsettled,
    Option.bind_some, run_nil]

/-- The offset of the window is not the offset of the container that came back. -/
theorem not_inStep_facetAndBack :
    ¬ Always step InStep (mount hundredRows none none true) facetAndBack := by
  intro h
  have hin := always_iff.1 h facetAndBack _ (List.prefix_refl _) run_facetAndBack
  obtain ⟨top, hc, htop, -⟩ := hin rfl rfl (by rw [filtered_noFacet]; exact hundredRows_ne_nil)
  obtain rfl := Option.some.inj hc
  have heff : (2000 : ℚ) = 0 := htop
  norm_num at heff

/-! ## The window at every offset -/

/-- The slot of a row in the content. -/
def slot (i : ℕ) : Set ℚ := Set.Ico (i * rowH) ((i + 1) * rowH)

/-- The part of the content under the viewport. -/
def visible (t : AuditTable) : Set ℚ := Set.Ico t.effectiveTop (t.effectiveTop + viewport)

/-- A row is under the viewport where its slot meets it. -/
theorem bounds_of_meets {t : AuditTable} {i : ℕ} (h : (slot i ∩ t.visible).Nonempty) :
    i * rowH < t.effectiveTop + viewport ∧ t.effectiveTop < (i + 1) * rowH := by
  obtain ⟨y, ⟨hfirst, hlast⟩, habove, hbelow⟩ := h
  exact ⟨hfirst.trans_lt hbelow, habove.trans_lt hlast⟩

theorem maxTop_le (t : AuditTable) : t.maxTop ≤ t.filtered.length * rowH := by
  have hrows : 0 ≤ t.filtered.length * rowH := mul_nonneg (Nat.cast_nonneg _) rowH_pos.le
  have hview : 0 ≤ viewport := by norm_num [viewport]
  exact max_le hrows (by linarith)

/-- The window starts at or above its end. -/
theorem start_le_stop {t : AuditTable} (h : t.effectiveTop ≤ t.maxTop) : t.start ≤ t.stop := by
  have hdiv : t.effectiveTop / rowH ≤ (t.filtered.length : ℤ) := by
    rw [div_le_iff₀ rowH_pos]
    exact_mod_cast h.trans t.maxTop_le
  have hfloor : ⌊t.effectiveTop / rowH⌋ ≤ t.filtered.length := by
    exact_mod_cast (Int.floor_le _).trans hdiv
  unfold stop start
  omega

/-- The window has no more than its count of rows. -/
theorem stop_le (t : AuditTable) : t.stop ≤ t.start + 18 := by
  have hstop : t.stop ≤ t.start + windowCount := min_le_right _ _
  rwa [windowCount_eq] at hstop

/-- At the bottom the last row is in the window. -/
theorem last_mem_window {t : AuditTable} (hne : t.filtered ≠ []) (h : t.effectiveTop = t.maxTop) :
    t.start ≤ t.filtered.length - 1 ∧ t.filtered.length - 1 < t.stop := by
  have hpos : 0 < t.filtered.length := List.length_pos_iff.2 hne
  have hlast : ((t.filtered.length - 1 : ℕ) : ℚ) + 1 = t.filtered.length := by
    exact_mod_cast Nat.sub_add_cancel hpos
  have hview : rowH < viewport := by norm_num [rowH, viewport]
  have hbottom : t.filtered.length * rowH - viewport ≤ t.maxTop := le_max_right _ _
  have hrow : (t.filtered.length : ℚ) * rowH = (t.filtered.length - 1 : ℕ) * rowH + rowH := by
    rw [← hlast]
    ring
  have hrowH := rowH_pos
  refine ⟨t.start_le ?_, t.lt_stop (Nat.sub_lt hpos Nat.one_pos) ?_⟩
  · rw [h, hlast]
    have hn : 0 < (t.filtered.length : ℚ) * rowH := mul_pos (by exact_mod_cast hpos) rowH_pos
    exact max_lt hn (by linarith)
  · rw [h]
    linarith

/-- At every offset the content allows, the window lies in the rows, has at most eighteen of
them, and shows each row under the viewport in its slot; at the bottom it has the last row. -/
theorem window_covers {t : AuditTable} (hne : t.filtered ≠ [])
    (hrange : 0 ≤ t.effectiveTop ∧ t.effectiveTop ≤ t.maxTop) :
    (0 ≤ t.start ∧ t.start ≤ t.stop ∧ t.stop ≤ t.filtered.length ∧ t.stop - t.start ≤ 18) ∧
      (∀ i < t.filtered.length, (slot i ∩ t.visible).Nonempty → (t.start ≤ i ∧ i < t.stop) ∧
        t.windowRows[i - t.start]? = t.filtered[i]? ∧
        t.start * rowH + (i - t.start : ℕ) * rowH = i * rowH) ∧
      (t.effectiveTop = t.maxTop →
        t.start ≤ t.filtered.length - 1 ∧ t.filtered.length - 1 < t.stop) := by
  have hsize := t.stop_le
  refine ⟨⟨Nat.zero_le _, start_le_stop hrange.2, min_le_left _ _, by omega⟩,
    fun i hi hmeets => ?_, last_mem_window hne⟩
  obtain ⟨hbelow, habove⟩ := bounds_of_meets hmeets
  have hrow : t.filtered[i]? = some t.filtered[i] := List.getElem?_eq_getElem hi
  obtain ⟨hstart, hwindow⟩ := t.windowRows_covers hrow hbelow habove
  refine ⟨⟨hstart, t.lt_stop hi hbelow⟩, hwindow.trans hrow.symm, ?_⟩
  rw [Nat.cast_sub hstart]
  ring

/-- The hundred rows at an offset that is not that of a row. -/
def betweenRows : AuditTable := ⟨hundredRows, none, none, false, 2025, some 2025, 0, false⟩

/-- Only the first pixel of row 56 is under the viewport. -/
theorem window_betweenRows : betweenRows.start ≤ 56 ∧ 56 < betweenRows.stop := by
  have hrows : betweenRows.filtered = hundredRows := filtered_noFacet ..
  have htop : betweenRows.effectiveTop = 2025 := rfl
  have hmax : betweenRows.maxTop = 3960 := maxTop_hundredRows ..
  have hne : betweenRows.filtered ≠ [] := hrows ▸ hundredRows_ne_nil
  have hrange : 0 ≤ betweenRows.effectiveTop ∧ betweenRows.effectiveTop ≤ betweenRows.maxTop := by
    rw [htop, hmax]
    norm_num
  have hrow : 56 < betweenRows.filtered.length := by
    rw [hrows, hundredRows, length_loginRows]
    norm_num
  have hmeets : (slot 56 ∩ betweenRows.visible).Nonempty := by
    refine ⟨2464, ⟨?_, ?_⟩, ?_, ?_⟩ <;> norm_num [htop, rowH, viewport]
  exact ((window_covers hne hrange).2.1 56 hrow hmeets).1

end AuditTable

end AuthExample
