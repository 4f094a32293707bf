import Mathlib.Data.List.ReduceOption

/-!
# Single-read slots

A slot holds one value at most. A `put` replaces what it holds; a `take` returns it and leaves
the slot empty.

`taken_sublist` : over any history, what the takes have returned and what the slot still holds
are, in order, among the values put, so that no value put once is taken twice.
`getLast?_puts` : what the slot holds is the value put last.
-/

namespace Handoff

variable {α : Type*}

/-- What happens to a slot. -/
inductive Event (α : Type*)
  | put (a : α)
  | take

/-- What the slot holds after a history. -/
def held : Option α → List (Event α) → Option α
  | slot, [] => slot
  | _, .put a :: es => held (some a) es
  | _, .take :: es => held none es

/-- What each take of a history has returned. -/
def taken : Option α → List (Event α) → List (Option α)
  | _, [] => []
  | _, .put a :: es => taken (some a) es
  | slot, .take :: es => slot :: taken none es

/-- The values put. -/
def puts : List (Event α) → List α
  | [] => []
  | .put a :: es => a :: puts es
  | .take :: es => puts es

theorem held_append (slot : Option α) (es fs : List (Event α)) :
    held slot (es ++ fs) = held (held slot es) fs := by
  induction es generalizing slot with
  | nil => rfl
  | cons e es ih => cases e <;> exact ih _

theorem taken_append (slot : Option α) (es fs : List (Event α)) :
    taken slot (es ++ fs) = taken slot es ++ taken (held slot es) fs := by
  induction es generalizing slot with
  | nil => rfl
  | cons e es ih =>
    cases e with
    | put a => exact ih _
    | take => exact congrArg (slot :: ·) (ih none)

/-- Every value put is taken at most once, and in the order of the puts. -/
theorem taken_sublist (slot : Option α) (es : List (Event α)) :
    ((taken slot es).reduceOption ++ (held slot es).toList).Sublist (slot.toList ++ puts es) := by
  induction es generalizing slot with
  | nil => simp [taken, held, puts]
  | cons e es ih =>
    cases e with
    | put a => exact (ih (some a)).trans (List.sublist_append_right _ _)
    | take =>
      cases slot with
      | none => exact ih none
      | some a => exact (ih none).cons_cons a

/-- The slot holds the value put last, or none. -/
theorem getLast?_puts {es : List (Event α)} {a : α} (h : held none es = some a) :
    (puts es).getLast? = some a := by
  have hlast : ∀ (slot : Option α) (es : List (Event α)), held slot es = some a →
      (slot.toList ++ puts es).getLast? = some a := by
    intro slot es
    induction es generalizing slot with
    | nil =>
      rintro rfl
      rfl
    | cons e es ih =>
      intro hheld
      cases e with
      | put b =>
        have hrest := ih (some b) hheld
        rw [puts, List.getLast?_append_of_ne_nil _ (List.cons_ne_nil b _)]
        exact hrest
      | take =>
        have hrest : (puts es).getLast? = some a := ih none hheld
        rw [puts, List.getLast?_append, hrest]
        rfl
  exact hlast none es h

end Handoff
