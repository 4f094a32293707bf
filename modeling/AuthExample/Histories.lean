import Mathlib.Data.List.Forall2

/-!
# Histories of a table

A register holds what the last entry of a history that writes it has written (`lastWrite`). In a
table every entry changes rows in place and may add others after them : `foldl_table` says which
rows there are then and from where each comes, and `column_survivor` that a column of a row is a
register.
-/

namespace Histories

variable {γ ρ κ β : Type*}

/-! ## Registers -/

/-- The value of the last of the calls that write one, `x` where none does. -/
def lastWrite (write : γ → Option β) (calls : List γ) (x : β) : β :=
  (calls.reverse.findSome? write).getD x

@[simp] theorem lastWrite_nil (write : γ → Option β) (x : β) : lastWrite write [] x = x := rfl

theorem lastWrite_append (write : γ → Option β) (cs ds : List γ) (x : β) :
    lastWrite write (cs ++ ds) x = lastWrite write ds (lastWrite write cs x) := by
  unfold lastWrite
  rw [List.reverse_append, List.findSome?_append, Option.getD_or]

theorem lastWrite_cons (write : γ → Option β) (c : γ) (cs : List γ) (x : β) :
    lastWrite write (c :: cs) x = lastWrite write cs ((write c).getD x) := by
  rw [← List.singleton_append, lastWrite_append]
  simp [lastWrite]

/-! ## Tables -/

section

variable (change : γ → ρ → ρ) (added : γ → List ρ)

/-- What a row becomes. -/
def survivor (r : ρ) (calls : List γ) : ρ := calls.foldl (fun r c => change c r) r

/-- The rows that are added, with the calls that come after. -/
def additions : List γ → List (ρ × List γ)
  | [] => []
  | c :: calls => (added c).map (·, calls) ++ additions calls

/-- The rows there were, with all calls, and those that are added. -/
def origins (rows : List ρ) (calls : List γ) : List (ρ × List γ) :=
  rows.map (·, calls) ++ additions added calls

/-- The rows at the end are what those at their origins become, in this order. -/
theorem foldl_table (rows : List ρ) (calls : List γ) :
    calls.foldl (fun rows c => rows.map (change c) ++ added c) rows =
      (origins added rows calls).map fun origin => survivor change origin.1 origin.2 := by
  induction calls generalizing rows with
  | nil => simp [origins, additions, survivor, Function.comp_def]
  | cons c calls ih =>
    rw [List.foldl_cons, ih]
    simp only [origins, additions, List.map_append, List.map_map, List.append_assoc]
    rfl

end

/-- What no entry changes is as it was. -/
theorem ident_survivor {change : γ → ρ → ρ} {ident : ρ → κ}
    (hident : ∀ c r, ident (change c r) = ident r) (r : ρ) (calls : List γ) :
    ident (survivor change r calls) = ident r := by
  induction calls generalizing r with
  | nil => rfl
  | cons c calls ih => exact (ih (change c r)).trans (hident c r)

/-- A column is a register of its row. -/
theorem column_survivor {change : γ → ρ → ρ} {ident : ρ → κ} (column : ρ → β)
    (write : κ → γ → Option β) (hident : ∀ c r, ident (change c r) = ident r)
    (hcolumn : ∀ c r, column (change c r) = (write (ident r) c).getD (column r)) (r : ρ)
    (calls : List γ) :
    column (survivor change r calls) = lastWrite (write (ident r)) calls (column r) := by
  induction calls generalizing r with
  | nil => rfl
  | cons c calls ih =>
    rw [lastWrite_cons, ← hcolumn, ← hident c r]
    exact ih (change c r)

end Histories
