import AuthExample.Runs
import Mathlib.Data.List.Perm.Basic
import Mathlib.Order.Lattice

/-!
# A log and its reader

A `Feed` is a log that grows at its end, and one reader of it. It says what tailing a
table is for : the reader is given every entry once, in the order of the log.

`isPrefix_of_lower` is how a tail shows that what it delivered is such an initial part.
-/

/-- A log, and how many of its entries the reader has been given. -/
structure Feed (α : Type*) where
  entries : List α
  read : ℕ
  read_le : read ≤ entries.length

namespace Feed

variable {α : Type*}

/-- A log nobody has read. -/
def ofEntries (entries : List α) : Feed α := ⟨entries, 0, Nat.zero_le _⟩

/-- What the reader has been given. -/
def delivered (f : Feed α) : List α := f.entries.take f.read

/-- An entry is appended, or the next one is read. -/
inductive Act (α : Type*) where
  | append (a : α)
  | read

def step (f : Feed α) : Act α → Option (Feed α)
  | .append a =>
    some
      { entries := f.entries ++ [a]
        read := f.read
        read_le := f.read_le.trans (by simp) }
  | .read =>
    if h : f.read < f.entries.length then some { f with read := f.read + 1, read_le := h }
    else none

/-- An initial part of the log that is as long as what was read is what was delivered. -/
theorem delivered_eq {f : Feed α} {l : List α} (h : l <+: f.entries) (hr : f.read = l.length) :
    f.delivered = l := by
  rw [delivered, hr]
  exact (List.prefix_iff_eq_take.1 h).symm

section Sorted

variable {κ : Type*} [LinearOrder κ] {key : α → κ}

/-- Of two lists sorted by key, one is an initial part of the other where it holds all of
its members below any of its own. -/
theorem isPrefix_of_lower {l m : List α} (hl : l.Pairwise fun a b => key a < key b)
    (hm : m.Pairwise fun a b => key a < key b) (hsub : ∀ a ∈ l, a ∈ m)
    (hlower : ∀ a ∈ l, ∀ b ∈ m, key b ≤ key a → b ∈ l) : l <+: m := by
  classical
  refine ⟨m.filter fun b => b ∉ l, ?_⟩
  have hnodup : ∀ {xs : List α}, (xs.Pairwise fun a b => key a < key b) → xs.Nodup := fun h =>
    h.imp fun hlt heq => absurd (congrArg key heq) hlt.ne
  have hrest : (l ++ m.filter fun b => b ∉ l).Pairwise fun a b => key a < key b := by
    refine List.pairwise_append.2 ⟨hl, hm.sublist List.filter_sublist, fun a ha b hb => ?_⟩
    obtain ⟨hb, hbl⟩ := List.mem_filter.1 hb
    exact lt_of_not_ge fun hle => of_decide_eq_true hbl (hlower a ha b hb hle)
  refine List.Perm.eq_of_pairwise (fun a b _ _ hab hba => absurd hab hba.asymm) hrest hm ?_
  refine (List.perm_ext_iff_of_nodup (hnodup hrest) (hnodup hm)).2 fun a => ?_
  simp only [List.mem_append, List.mem_filter, decide_eq_true_eq]
  have := hsub a
  tauto

end Sorted

end Feed
