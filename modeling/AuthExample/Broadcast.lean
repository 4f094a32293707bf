import Mathlib.Data.List.Infix
import Mathlib.Data.List.Perm.Basic

/-!
# A broadcast receiver

One receiver of a broadcast channel. It yields the published values in order; where the
oldest unread ones were overwritten it yields one `lagged` signal in their place, and
`closed` once every sender is dropped and nothing is left to yield. `Accounts` says of every
value published what has become of it.
-/

namespace Broadcast

/-- Why a receive yields no value : values were overwritten, or the channel is closed. -/
inductive RecvError where
  | lagged (skipped : ℕ)
  | closed

/-- A receiver : the values it has not yielded, how many were overwritten since its last
receive, and whether a sender is left. -/
structure Receiver (α : Type*) where
  unread : List α
  skipped : ℕ
  isOpen : Bool

namespace Receiver

variable {α : Type*}

/-- A receiver just subscribed. -/
def subscribe : Receiver α where
  unread := []
  skipped := 0
  isOpen := true

/-- A value is sent. -/
def publish (a : α) (r : Receiver α) : Option (Receiver α) :=
  if r.isOpen then some { r with unread := r.unread ++ [a] } else none

/-- The oldest `k` unread values are overwritten. -/
def overwrite (k : ℕ) (r : Receiver α) : Option (Receiver α) :=
  if 0 < k ∧ k ≤ r.unread.length then
    some { r with unread := r.unread.drop k, skipped := r.skipped + k }
  else none

/-- The last sender is dropped. -/
def close (r : Receiver α) : Receiver α := { r with isOpen := false }

/-- Receive; `none` while there is nothing to yield. -/
def recv (r : Receiver α) : Option (Except RecvError α × Receiver α) :=
  if 0 < r.skipped then some (.error (.lagged r.skipped), { r with skipped := 0 })
  else
    match r.unread with
    | a :: rest => some (.ok a, { r with unread := rest })
    | [] => if r.isOpen then none else some (.error .closed, r)

theorem publish_eq_some {a : α} {r r' : Receiver α} (h : r.publish a = some r') :
    r' = { r with unread := r.unread ++ [a] } := by
  unfold publish at h
  split_ifs at h
  exact (Option.some.inj h).symm

theorem overwrite_eq_some {k : ℕ} {r r' : Receiver α} (h : r.overwrite k = some r') :
    r' = { r with unread := r.unread.drop k, skipped := r.skipped + k } := by
  unfold overwrite at h
  split_ifs at h
  exact (Option.some.inj h).symm

/-- A receive yields the oldest unread value and leaves the others, or no value and leaves
them all. -/
theorem recv_cases {r r' : Receiver α} {out : Except RecvError α} (h : r.recv = some (out, r')) :
    (∃ a, out = .ok a ∧ r.unread = a :: r'.unread) ∨
      ((∃ n, out = .error (.lagged n)) ∨ out = .error .closed) ∧ r'.unread = r.unread := by
  unfold recv at h
  by_cases hs : 0 < r.skipped
  · rw [if_pos hs] at h
    obtain ⟨rfl, rfl⟩ := Prod.mk.inj (Option.some.inj h)
    exact Or.inr ⟨Or.inl ⟨_, rfl⟩, rfl⟩
  · rw [if_neg hs] at h
    split at h
    · next a rest hu =>
      obtain ⟨rfl, rfl⟩ := Prod.mk.inj (Option.some.inj h)
      exact Or.inl ⟨a, rfl, hu⟩
    · split_ifs at h
      obtain ⟨rfl, rfl⟩ := Prod.mk.inj (Option.some.inj h)
      exact Or.inr ⟨Or.inr rfl, rfl⟩

/-- What was unread is yielded or still unread. -/
theorem recv_unread {r r' : Receiver α} {out : Except RecvError α} (h : r.recv = some (out, r')) :
    r.unread = out.toOption.toList ++ r'.unread := by
  rcases recv_cases h with ⟨a, rfl, hu⟩ | ⟨⟨n, rfl⟩ | rfl, hu⟩
  · exact hu
  · exact hu.symm
  · exact hu.symm

end Receiver

/-! ## What becomes of the values -/

/-- Of the values published those yielded and those overwritten have left the buffer, each once
and in the order of the publications, and the unread ones came after them. -/
def Accounts {α : Type*} (published yielded overwritten unread : List α) : Prop :=
  ∃ gone, published = gone ++ unread ∧ yielded.Sublist gone ∧ overwritten.Sublist gone ∧
    (yielded ++ overwritten).Perm gone

namespace Accounts

variable {α : Type*} {published yielded overwritten unread : List α}

theorem nil : Accounts ([] : List α) [] [] [] := ⟨[], rfl, .slnil, .slnil, .nil⟩

theorem publish (h : Accounts published yielded overwritten unread) (a : α) :
    Accounts (published ++ [a]) yielded overwritten (unread ++ [a]) := by
  obtain ⟨gone, rfl, hyielded, hoverwritten, hperm⟩ := h
  exact ⟨gone, List.append_assoc .., hyielded, hoverwritten, hperm⟩

/-- The oldest unread values are yielded. -/
theorem yield {now : List α} (h : Accounts published yielded overwritten (now ++ unread)) :
    Accounts published (yielded ++ now) overwritten unread := by
  obtain ⟨gone, rfl, hyielded, hoverwritten, hperm⟩ := h
  refine ⟨gone ++ now, (List.append_assoc ..).symm, hyielded.append (.refl _),
    hoverwritten.trans (List.sublist_append_left _ _), ?_⟩
  have hlast : (yielded ++ now ++ overwritten).Perm (yielded ++ overwritten ++ now) := by
    rw [List.append_assoc, List.append_assoc]
    exact List.perm_append_comm.append_left yielded
  exact hlast.trans (hperm.append_right now)

/-- The oldest unread values are overwritten. -/
theorem overwrite (h : Accounts published yielded overwritten unread) (k : ℕ) :
    Accounts published yielded (overwritten ++ unread.take k) (unread.drop k) := by
  obtain ⟨gone, rfl, hyielded, hoverwritten, hperm⟩ := h
  refine ⟨gone ++ unread.take k, ?_, hyielded.trans (List.sublist_append_left _ _),
    hoverwritten.append (.refl _), ?_⟩
  · rw [List.append_assoc, List.take_append_drop]
  · rw [← List.append_assoc]
    exact hperm.append_right _

/-- What was yielded, and then what is unread, was published in that order. -/
theorem sublist (h : Accounts published yielded overwritten unread) :
    (yielded ++ unread).Sublist published := by
  obtain ⟨gone, rfl, hyielded, -, -⟩ := h
  exact hyielded.append (.refl unread)

end Accounts

end Broadcast
