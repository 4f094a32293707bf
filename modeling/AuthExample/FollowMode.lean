import AuthExample.AuditTable

/-!
# Follow mode

`useAuditTail` keeps the rows of the live tail, whether the table follows them, and how many
came while it did not. The audit page renders the table over the rows and passes its
`setFollowing` as `onFollowChange`.

The page runs here without a user : rows arrive in batches, the follow effect scrolls, and
the scroll event it raises is delivered later. `always_follows_iff` : the page keeps
following exactly as long as no event is delivered with the rows reaching more than one row
below the viewport.
-/

namespace AuthExample

open Runs

/-- `useAuditTail` : the rows received, whether they are followed, how many came while they
were not, and the reference its handler reads. -/
structure AuditTail where
  rows : List AuditRow
  following : Bool
  pendingCount : ℕ
  followingRef : Bool

namespace AuditTail

/-- `setFollowing` : pinning clears the pending count. -/
def setFollowing (next : Bool) (s : AuditTail) : AuditTail :=
  { s with
    followingRef := next
    following := next
    pendingCount := if next then 0 else s.pendingCount }

/-- `handler` : a row arrives. -/
def handler (s : AuditTail) (row : AuditRow) : AuditTail :=
  { s with
    rows := s.rows ++ [row]
    pendingCount := if s.followingRef then s.pendingCount else s.pendingCount + 1 }

/-- The handler leaves the follow mode alone, and counts only where it does not follow. -/
theorem foldl_handler (s : AuditTail) (rows : List AuditRow) :
    rows.foldl handler s =
      { s with
        rows := s.rows ++ rows
        pendingCount :=
          if s.followingRef then s.pendingCount else s.pendingCount + rows.length } := by
  induction rows generalizing s with
  | nil => simp
  | cons row rows ih =>
    rw [List.foldl_cons, ih]
    cases hr : s.followingRef <;> simp [handler, hr, Nat.add_assoc, Nat.add_comm 1]

end AuditTail

/-- The audit page : the rows it loaded, the tail, and the table rendered over both. -/
structure FollowMode where
  pageRows : List AuditRow
  tail : AuditTail
  table : AuditTable

namespace FollowMode

/-- The page just opened, with the rows it loaded. -/
def «open» (pageRows : List AuditRow) (actor event : Option String) : FollowMode where
  pageRows := pageRows
  tail := { rows := [], following := true, pendingCount := 0, followingRef := true }
  table := AuditTable.mount pageRows actor event true

/-- What happens without the user : rows arrive and are committed in one render, the effect
runs, or a scroll event is delivered. -/
inductive Act where
  | arrive (rows : List AuditRow)
  | effect
  | deliver

/-- One step, in any order : a batch may be committed, and an event delivered, before the
effect has run. What the event tells the table's parent is told to the tail. -/
def step (s : FollowMode) : Act → Option FollowMode
  | .arrive rows =>
    if rows = [] then none
    else
      let tail := rows.foldl AuditTail.handler s.tail
      -- where the render flushes the effect first, that is an `effect` before it
      some { s with
        tail
        table := s.table.commit (s.pageRows ++ tail.rows) s.table.actor s.table.event
          tail.following }
  | .effect => (s.table.step .effect).map fun table => { s with table }
  | .deliver =>
    (s.table.step .deliver).map fun table =>
      { s with tail := s.tail.setFollowing table.following, table }

/-- The reference and the table have the follow mode of the tail, and the container fits its
rows. -/
structure Synced (s : FollowMode) : Prop where
  followingRef : s.tail.followingRef = s.tail.following
  table : s.table.following = s.tail.following
  fits : s.table.Fits

/-- The page follows, and no row is pending. -/
def Follows (s : FollowMode) : Prop := s.tail.following = true ∧ s.tail.pendingCount = 0

/-- A scroll event finds the rows to end at most one row below the viewport. -/
def EndsNear (s : FollowMode) : Act → Prop
  | .deliver => ∀ top, s.table.container = some top →
      s.table.filtered.length * rowH ≤ top + viewport + rowH
  | _ => True

variable {s s' : FollowMode}

theorem arrive_eq_some {rows : List AuditRow} (h : s.step (.arrive rows) = some s') :
    rows ≠ [] ∧ s' = { s with
      tail := rows.foldl AuditTail.handler s.tail
      table := s.table.commit (s.pageRows ++ (rows.foldl AuditTail.handler s.tail).rows)
        s.table.actor s.table.event (rows.foldl AuditTail.handler s.tail).following } := by
  simp only [step] at h
  split_ifs at h with hnil
  exact ⟨hnil, (Option.some.inj h).symm⟩

theorem effect_eq_some (h : s.step .effect = some s') :
    s.table.effectPending = true ∧ s' = { s with table := s.table.runEffect } := by
  obtain ⟨table, htable, rfl⟩ := Option.map_eq_some_iff.1 h
  obtain ⟨hp, rfl⟩ := enabled_iff.1 htable
  exact ⟨hp, rfl⟩

theorem deliver_eq_some (h : s.step .deliver = some s') :
    ∃ top, s.table.container = some top ∧ 0 < s.table.scrollEvents ∧
      s' = { s with
        tail := s.tail.setFollowing (s.table.nearBottom top)
        table := (s.table.handleScroll top).runEffect.setFollowing (s.table.nearBottom top) } := by
  obtain ⟨table, htable, rfl⟩ := Option.map_eq_some_iff.1 h
  obtain ⟨top, htop, hev, rfl⟩ := AuditTable.deliver_eq_some htable
  exact ⟨top, htop, hev, rfl⟩

theorem Synced.step {a : Act} (h : Synced s) (hstep : s.step a = some s') : Synced s' := by
  cases a with
  | arrive rows =>
    obtain ⟨-, rfl⟩ := arrive_eq_some hstep
    refine ⟨?_, AuditTable.commit_following .., h.fits.commit ..⟩
    rw [AuditTail.foldl_handler]
    exact h.followingRef
  | effect =>
    obtain ⟨-, rfl⟩ := effect_eq_some hstep
    exact ⟨h.followingRef, s.table.runEffect_following.trans h.table, h.fits.runEffect⟩
  | deliver =>
    obtain ⟨top, -, -, rfl⟩ := deliver_eq_some hstep
    have hfits : (s.table.handleScroll top).Fits := ⟨h.fits.noRow, h.fits.inRange⟩
    exact ⟨rfl, rfl, hfits.runEffect.noRow, hfits.runEffect.inRange⟩

/-- The container is near the bottom where the rows end at most one row below the viewport. -/
theorem nearBottom_iff {t : AuditTable} {top : ℚ} (h : 0 ≤ top) :
    t.nearBottom top = true ↔ t.filtered.length * rowH ≤ top + viewport + rowH := by
  have hrow : (0 : ℚ) ≤ top + rowH := add_nonneg h AuditTable.rowH_pos.le
  rw [AuditTable.nearBottom, decide_eq_true_iff, sub_le_iff_le_add, AuditTable.maxTop, max_le_iff,
    and_iff_right hrow, sub_le_iff_le_add, add_right_comm]

/-- A step keeps following exactly when it delivers no event that finds the rows to end
further below. -/
theorem follows_step_iff {a : Act} (hs : Synced s) (h : Follows s) (hstep : s.step a = some s') :
    Follows s' ↔ s.EndsNear a := by
  obtain ⟨hfollow, hpending⟩ := h
  cases a with
  | arrive rows =>
    obtain ⟨-, rfl⟩ := arrive_eq_some hstep
    refine iff_of_true ?_ trivial
    rw [Follows, AuditTail.foldl_handler]
    exact ⟨hfollow, (if_pos (hs.followingRef.trans hfollow)).trans hpending⟩
  | effect =>
    obtain ⟨-, rfl⟩ := effect_eq_some hstep
    exact iff_of_true ⟨hfollow, hpending⟩ trivial
  | deliver =>
    obtain ⟨top, htop, -, rfl⟩ := deliver_eq_some hstep
    have hnear := nearBottom_iff (t := s.table) (hs.fits.inRange top htop).2.1
    constructor
    · rintro ⟨hf, -⟩ top' htop'
      obtain rfl := Option.some.inj (htop.symm.trans htop')
      exact hnear.1 hf
    · intro hend
      have hf := hnear.2 (hend top htop)
      exact ⟨hf, if_pos hf⟩

/-- A run keeps following exactly when no event is delivered that finds the rows to end more
than one row below the viewport. -/
theorem always_follows_iff (hs : Synced s) (h : Follows s) (as : List Act) :
    Always step Follows s as ↔ Along step EndsNear s as :=
  always_iff_along (K := Synced) (fun _ _ _ hk _ hstep => hk.step hstep)
    (fun _ _ _ hk hi hstep => follows_step_iff hk hi hstep) hs h

theorem synced_open (pageRows : List AuditRow) (actor event : Option String) :
    Synced («open» pageRows actor event) :=
  ⟨rfl, rfl, AuditTable.fits_mount pageRows actor event true⟩

/-! ## Events after the effect -/

/-- Once the effect has run, a container that is followed is at the bottom. -/
def Pinned (s : FollowMode) : Prop :=
  s.table.following = true → s.table.effectPending = false →
    ∀ top, s.table.container = some top → top = s.table.maxTop

/-- The effect leaves a container that is followed at the bottom. -/
theorem runEffect_pinned {t : AuditTable} (hf : t.following = true)
    (h : t.effectPending = false → ∀ top, t.container = some top → top = t.maxTop) :
    ∀ top, t.runEffect.container = some top → top = t.runEffect.maxTop := by
  intro top hc
  rcases t.runEffect_cases with ⟨_, -, -, -, he⟩ | ⟨hno, he⟩ <;> rw [he] at hc ⊢
  · exact (Option.some.inj hc).symm
  · cases hp : t.effectPending with
    | true =>
      rw [hno hp hf] at hc
      cases hc
    | false => exact h hp top hc

theorem Pinned.step {a : Act} (hs : Synced s) (h : Pinned s) (hstep : s.step a = some s') :
    Pinned s' := by
  intro hfollow hsettled
  cases a with
  | arrive rows =>
    intro top hc
    obtain ⟨-, rfl⟩ := arrive_eq_some hstep
    have hfollow : (rows.foldl AuditTail.handler s.tail).following = true :=
      (AuditTable.commit_following ..).symm.trans hfollow
    rw [hfollow] at hsettled hc ⊢
    rcases AuditTable.commit_following_cases hs.fits _ _ _ hc with
      hp | htop | ⟨hf, hp, hc, hmax, -⟩
    · rw [hsettled] at hp
      cases hp
    · exact htop
    · rw [hmax]
      exact h hf hp top hc
  | effect =>
    obtain ⟨-, rfl⟩ := effect_eq_some hstep
    have hf : s.table.following = true := s.table.runEffect_following.symm.trans hfollow
    exact runEffect_pinned hf (h hf)
  | deliver =>
    obtain ⟨top, -, -, rfl⟩ := deliver_eq_some hstep
    have hsame := bne_eq_false_iff_eq.1 (Bool.or_eq_false_iff.1 hsettled).2
    have hf : (s.table.handleScroll top).following = true :=
      (AuditTable.runEffect_following _).symm.trans (hsame.symm.trans hfollow)
    exact runEffect_pinned (t := s.table.handleScroll top) hf (h hf)

/-- An event that is delivered once the effect has run finds a container that is followed at
the bottom. -/
theorem endsNear_of_pinned (hs : Synced s) (h : Follows s) (hpin : Pinned s) {a : Act}
    (hsettled : a = .deliver → s.table.effectPending = false) : s.EndsNear a := by
  cases a with
  | deliver =>
    intro top hc
    refine (nearBottom_iff (hs.fits.inRange top hc).2.1).1 (decide_eq_true ?_)
    rw [hpin (hs.table.trans h.1) (hsettled rfl) top hc]
    exact sub_le_self _ AuditTable.rowH_pos.le
  | _ => trivial

/-- Where each event is delivered once the effect of the last commit has run, the page keeps
following. -/
theorem follows_of_settled (pageRows : List AuditRow) (actor event : Option String)
    {as : List Act}
    (h : Along step (fun s a => a = .deliver → s.table.effectPending = false)
      («open» pageRows actor event) as) :
    Always step Follows («open» pageRows actor event) as := by
  have hs := synced_open pageRows actor event
  refine (always_follows_iff hs ⟨rfl, rfl⟩ as).2
    (h.mono_of_invariant (I := fun s => Synced s ∧ Follows s ∧ Pinned s) ?_
      ⟨hs, ⟨rfl, rfl⟩, nofun⟩)
  rintro s a s' ⟨hs, hf, hp⟩ hsettled hstep
  have hend := endsNear_of_pinned hs hf hp hsettled
  exact ⟨hend, hs.step hstep, (follows_step_iff hs hf hstep).2 hend, hp.step hs hstep⟩

/-! ## Two batches -/

/-- Twelve rows. -/
def firstBatch : List AuditRow := AuditTable.loginRows 1 12

/-- Two rows more. -/
def secondBatch : List AuditRow := AuditTable.loginRows 13 2

/-- The second batch is committed before the event is delivered that the effect raised for the
first. -/
def twoBatches : List Act := [.arrive firstBatch, .effect, .arrive secondBatch, .deliver]

theorem run_twoBatches : run step («open» [] none none) twoBatches =
    some ⟨[], ⟨firstBatch ++ secondBatch, false, 0, false⟩,
      ⟨firstBatch ++ secondBatch, none, none, false, 176, some 176, 1, true⟩⟩ := by
  have hfirst : max 0 ((firstBatch.length : ℚ) * rowH - viewport) = 88 := by
    norm_num [firstBatch, rowH, viewport]
  have hboth : max 0 (((firstBatch ++ secondBatch).length : ℚ) * rowH - viewport) = 176 := by
    norm_num [firstBatch, secondBatch, rowH, viewport]
  have hne : firstBatch ≠ [] := AuditTable.loginRows_ne_nil 1 11
  have hne' : secondBatch ≠ [] := AuditTable.loginRows_ne_nil 13 1
  have hmounted : step («open» [] none none) (.arrive firstBatch) = some
      ⟨[], ⟨firstBatch, true, 0, true⟩, ⟨firstBatch, none, none, true, 0, some 0, 0, true⟩⟩ := by
    simp [step, «open», AuditTail.foldl_handler, AuditTable.mount, AuditTable.commit,
      AuditTable.withProps, AuditTable.filtered_noFacet, hne]
  have hpinned : step
      ⟨[], ⟨firstBatch, true, 0, true⟩, ⟨firstBatch, none, none, true, 0, some 0, 0, true⟩⟩
      .effect = some
      ⟨[], ⟨firstBatch, true, 0, true⟩, ⟨firstBatch, none, none, true, 88, some 88, 1, false⟩⟩ := by
    simp [step, AuditTable.step, AuditTable.runEffect, AuditTable.maxTop_noFacet, hfirst]
  have hgrown : step
      ⟨[], ⟨firstBatch, true, 0, true⟩, ⟨firstBatch, none, none, true, 88, some 88, 1, false⟩⟩
      (.arrive secondBatch) = some
      ⟨[], ⟨firstBatch ++ secondBatch, true, 0, true⟩,
        ⟨firstBatch ++ secondBatch, none, none, true, 88, some 88, 1, true⟩⟩ := by
    simp only [step, if_neg hne', AuditTail.foldl_handler, AuditTable.commit,
      AuditTable.withProps, AuditTable.filtered_noFacet, AuditTable.maxTop_noFacet,
      List.nil_append, hfirst, hboth]
    norm_num [hne]
  have hlost : step
      ⟨[], ⟨firstBatch ++ secondBatch, true, 0, true⟩,
        ⟨firstBatch ++ secondBatch, none, none, true, 88, some 88, 1, true⟩⟩ .deliver = some
      ⟨[], ⟨firstBatch ++ secondBatch, false, 0, false⟩,
        ⟨firstBatch ++ secondBatch, none, none, false, 176, some 176, 1, true⟩⟩ := by
    simp only [step, AuditTable.step, AuditTable.nearBottom, AuditTable.maxTop_noFacet, hboth,
      AuditTail.setFollowing, AuditTable.handleScroll, AuditTable.runEffect,
      AuditTable.setFollowing]
    norm_num [rowH]
  simp only [twoBatches, run_cons, hmounted, hpinned, hgrown, hlost, Option.bind_some, run_nil]

/-- The page stops following, and no user has scrolled. -/
theorem not_follows_twoBatches : ¬ Always step Follows («open» [] none none) twoBatches := by
  intro h
  have hfollow := (always_iff.1 h twoBatches _ (List.prefix_refl _) run_twoBatches).1
  cases hfollow

theorem always_follows_iff_twoBatches :
    Always step Follows («open» [] none none) twoBatches ↔
      Along step EndsNear («open» [] none none) twoBatches :=
  always_follows_iff (synced_open [] none none) ⟨rfl, rfl⟩ twoBatches

end FollowMode

end AuthExample
