import AuthExample.Runs

/-!
# The accepted invitations

`AcceptedInvitations` lists the invitations again whenever its `refreshKey` changes. Its effect
has no cleanup : each request writes the state once it settles, whatever was requested since.

`always_latest_iff` : the list shows the latest refresh throughout a run exactly when no
earlier request settles while the last one is in flight, and one that settles last of all
settles as the last one did.
-/

namespace AuthExample

open Runs

/-- An invitation that was accepted. -/
structure AcceptedInvitation where
  email : String
  acceptedAt : String
  deriving DecidableEq

namespace AcceptedInvitations

/-- The load lifecycle. -/
inductive LoadState where
  | loading
  | error
  | ready (rows : List AcceptedInvitation)
  deriving DecidableEq

/-- How `listAcceptedInvitations` settles. -/
inductive Outcome where
  | resolved (rows : List AcceptedInvitation)
  | rejected
  deriving DecidableEq

/-- What an outcome sets the state to. -/
def Outcome.state : Outcome → LoadState
  | resolved rows => .ready rows
  | rejected => .error

end AcceptedInvitations

open AcceptedInvitations in
/-- The component : the key it was last rendered with, its state, and the requests it has
started, each with its outcome once it has settled. -/
structure AcceptedInvitations (K : Type*) where
  refreshKey : K
  state : LoadState
  requests : List (Option Outcome)

namespace AcceptedInvitations

variable {K : Type*}

/-- The effect of `refreshKey`. -/
def runEffect (s : AcceptedInvitations K) : AcceptedInvitations K :=
  { s with state := .loading, requests := s.requests ++ [none] }

/-- The first render and its effect. -/
def mount (refreshKey : K) : AcceptedInvitations K := runEffect ⟨refreshKey, .loading, []⟩

/-- A render with a key, or a request settles. -/
inductive Act (K : Type*) where
  | render (refreshKey : K)
  | settle (request : ℕ) (outcome : Outcome)

/-- A request settles once. Another key runs the effect. -/
def step [DecidableEq K] (s : AcceptedInvitations K) : Act K → Option (AcceptedInvitations K)
  | .render refreshKey =>
    if refreshKey = s.refreshKey then some s else some { s with refreshKey }.runEffect
  | .settle request outcome =>
    if s.requests[request]? = some none then
      some { s with
        state := outcome.state
        requests := s.requests.set request (some outcome) }
    else none

/-- The list shows the latest refresh : no outcome while the last request is in flight, and
the outcome of that one once all have settled. -/
def Latest (s : AcceptedInvitations K) : Prop :=
  (s.requests.getLast? = some none → s.state = .loading) ∧
    ∀ outcome, s.requests.getLast? = some (some outcome) → none ∉ s.requests →
      s.state = outcome.state

/-- The request that settles is the last one; or the last one has settled, and another is
still in flight or this one settles alike. -/
def SettlesInTurn (s : AcceptedInvitations K) : Act K → Prop
  | .render _ => True
  | .settle request outcome => request + 1 = s.requests.length ∨
      ∃ last, s.requests.getLast? = some (some last) ∧
        ((∃ other, other ≠ request ∧ s.requests[other]? = some none) ∨
          outcome.state = last.state)

theorem getLast?_set {α : Type*} (l : List α) (i : ℕ) (a : α) (hi : i < l.length) :
    (l.set i a).getLast? = if i + 1 = l.length then some a else l.getLast? := by
  rw [List.getLast?_eq_getElem?, List.getLast?_eq_getElem?, List.length_set, List.getElem?_set]
  split_ifs <;> first | rfl | omega

/-- A request other than `i` is in flight. -/
theorem none_mem_set {l : List (Option Outcome)} {i : ℕ} {outcome : Outcome} :
    none ∈ l.set i (some outcome) ↔ ∃ j, j ≠ i ∧ l[j]? = some none := by
  simp only [List.mem_iff_getElem?, List.getElem?_set]
  refine exists_congr fun j => ?_
  by_cases hij : i = j
  · simp [hij]
  · simp [hij, Ne.symm hij]

theorem Outcome.state_ne_loading (outcome : Outcome) : outcome.state ≠ .loading := by
  cases outcome <;> nofun

/-- The list shows the outcome of the last request once that one settles. -/
theorem latest_of_settles_last {s : AcceptedInvitations K} {request : ℕ} (outcome : Outcome)
    (hown : request + 1 = s.requests.length) :
    Latest { s with
      state := outcome.state
      requests := s.requests.set request (some outcome) } := by
  have hlast := getLast?_set s.requests request (some outcome) (by omega)
  rw [if_pos hown] at hlast
  refine ⟨fun hnone => ?_, fun last hsome _ => ?_⟩
  · rw [hlast] at hnone
    cases hnone
  · rw [hlast] at hsome
    cases hsome
    rfl

/-- An earlier one that settles is shown over the last, which has to have settled : others are
still in flight, or the two outcomes are shown alike. -/
theorem latest_of_settles_earlier_iff {s : AcceptedInvitations K} {request : ℕ}
    {outcome : Outcome} (hlt : request < s.requests.length)
    (hown : request + 1 ≠ s.requests.length) :
    Latest { s with
        state := outcome.state
        requests := s.requests.set request (some outcome) } ↔
      ∃ last, s.requests.getLast? = some (some last) ∧
        ((∃ other, other ≠ request ∧ s.requests[other]? = some none) ∨
          outcome.state = last.state) := by
  have hlast := getLast?_set s.requests request (some outcome) hlt
  rw [if_neg hown] at hlast
  simp only [Latest, hlast]
  constructor
  · rintro ⟨hloading, hsettled⟩
    cases hl : s.requests.getLast? with
    | none =>
      rw [List.getLast?_eq_none_iff.1 hl] at hlt
      cases hlt
    | some settled =>
      cases settled with
      | none => exact absurd (hloading hl) outcome.state_ne_loading
      | some last =>
        refine ⟨last, rfl, ?_⟩
        by_cases hother : ∃ j, j ≠ request ∧ s.requests[j]? = some none
        · exact Or.inl hother
        · exact Or.inr (hsettled last hl (mt none_mem_set.1 hother))
  · rintro ⟨last, hl, hturn⟩
    rw [hl]
    refine ⟨nofun, fun _ hsome hnone => ?_⟩
    cases hsome
    exact hturn.resolve_left fun hother => hnone (none_mem_set.2 hother)

variable [DecidableEq K]

/-- A step leaves the list at the latest refresh exactly when it settles in turn. -/
theorem latest_step_iff {s s' : AcceptedInvitations K} {a : Act K} (h : Latest s)
    (hstep : s.step a = some s') : Latest s' ↔ s.SettlesInTurn a := by
  cases a with
  | render refreshKey =>
    refine iff_of_true ?_ trivial
    simp only [step] at hstep
    split_ifs at hstep
    · exact Option.some.inj hstep ▸ h
    · obtain rfl := Option.some.inj hstep
      exact ⟨fun _ => rfl, fun outcome hlast => by simp [runEffect] at hlast⟩
  | settle request outcome =>
    obtain ⟨hflight, rfl⟩ := enabled_iff.1 hstep
    by_cases hown : request + 1 = s.requests.length
    · exact iff_of_true (latest_of_settles_last outcome hown) (Or.inl hown)
    · have hlt : request < s.requests.length := (List.getElem?_eq_some_iff.1 hflight).1
      rw [SettlesInTurn, or_iff_right hown]
      exact latest_of_settles_earlier_iff hlt hown

/-- A run keeps the list at the latest refresh exactly when its requests settle in turn. -/
theorem always_latest_iff (refreshKey : K) (as : List (Act K)) :
    Always step Latest (mount refreshKey) as ↔ Along step SettlesInTurn (mount refreshKey) as :=
  always_iff_along (K := fun _ => True) (fun _ _ _ _ _ _ => trivial)
    (fun _ _ _ _ hi hstep => latest_step_iff hi hstep) trivial
    ⟨fun _ => rfl, fun outcome hlast => by cases hlast⟩

/-- Two refreshes, the first of which settles last. -/
def staleRefresh : List (Act ℕ) :=
  [.render 1, .settle 1 (.resolved [⟨"ada@example.com", "2026-01-01T00:00:00Z"⟩]),
    .settle 0 (.resolved [])]

/-- All requests have settled, and the list shows the outcome of the first. -/
theorem not_latest_staleRefresh :
    ∃ s, run step (mount 0) staleRefresh = some s ∧ s.state = .ready [] ∧ ¬ Latest s := by
  refine ⟨_, rfl, rfl, fun h => ?_⟩
  have hstate := h.2 _ rfl (by decide)
  cases hstate

end AcceptedInvitations

end AuthExample
