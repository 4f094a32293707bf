import Mathlib.Data.List.Nodup

/-!
# Stores of single-use tickets

A store mints a ticket for somebody and later redeems it. How it does so is not known : it draws
on an environment (chance, time, its own failures) and keeps a state of its own.

A `Store` is the two calls; `Store.Reached` goes over every history of them and keeps the log of
what was issued; `Store.Documented` is what a user of the store relies on. `Documented.claims_eq` :
a ticket is redeemed for the one it was issued to. `Memory.documented` : a store that keeps every
ticket it has minted meets it.
-/

namespace Tickets

/-- A ticket store with states `S`, where the environment of a call is of `E` and tickets are
issued to a `C`. A call may fail. -/
structure Store (S E C : Type*) where
  start : S
  issue : E → C → S → Option String × S
  redeem : E → String → S → Option C × S

namespace Store

variable {S E C : Type*}

/-- What a call to issue adds to the log. -/
def issued (store : Store S E C) (e : E) (c : C) (s : S) : List (String × C) :=
  (store.issue e c s).1.toList.map fun ticket => (ticket, c)

/-- The states after any calls, each with the tickets issued by then. -/
inductive Reached (store : Store S E C) : S → List (String × C) → Prop
  | start : Reached store store.start []
  | issue {s log} (e : E) (c : C) (h : Reached store s log) :
    Reached store (store.issue e c s).2 (log ++ store.issued e c s)
  | redeem {s log} (e : E) (ticket : String) (h : Reached store s log) :
    Reached store (store.redeem e ticket s).2 log

/-- What is relied on, whatever calls there were : no ticket is minted twice, and one that is
redeemed is redeemed for one it was issued to. -/
structure Documented (store : Store S E C) : Prop where
  fresh : ∀ s log e c ticket, store.Reached s log → (store.issue e c s).1 = some ticket →
    ticket ∉ log.map Prod.fst
  bound : ∀ s log e ticket c, store.Reached s log → (store.redeem e ticket s).1 = some c →
    (ticket, c) ∈ log

variable {store : Store S E C}

theorem Documented.nodup (h : store.Documented) {s : S} {log : List (String × C)}
    (hs : store.Reached s log) : (log.map Prod.fst).Nodup := by
  induction hs with
  | start => exact List.nodup_nil
  | redeem e ticket hs ih => exact ih
  | @issue s log e c hs ih =>
    cases ht : (store.issue e c s).1 with
    | none => simpa [issued, ht] using ih
    | some ticket =>
      have hfresh := h.fresh s log e c ticket hs ht
      simp only [issued, ht, Option.toList_some, List.map_singleton, List.map_append]
      exact List.nodup_append.2 ⟨ih, List.nodup_singleton _, fun a ha b hb hab =>
        hfresh (List.mem_singleton.1 hb ▸ hab ▸ ha)⟩

/-- A ticket is redeemed for the one it was issued to. -/
theorem Documented.claims_eq (h : store.Documented) {s : S} {log : List (String × C)}
    (hs : store.Reached s log) {e : E} {ticket : String} {c c' : C}
    (hredeem : (store.redeem e ticket s).1 = some c) (hc' : (ticket, c') ∈ log) : c = c' := by
  have hc := h.bound s log e ticket c hs hredeem
  exact (Prod.mk.inj (List.inj_on_of_nodup_map (h.nodup hs) hc hc' rfl)).2

end Store

/-! ## A store in memory -/

/-- The tickets minted, and those not redeemed. -/
structure Memory (C : Type*) where
  minted : List (String × C)
  live : List (String × C)

namespace Memory

variable {C : Type*}

/-- The store that mints the ticket the environment draws, unless it has minted it before. -/
def store (C : Type*) : Store (Memory C) String C where
  start := ⟨[], []⟩
  issue drawn c m :=
    if drawn ∈ m.minted.map Prod.fst then (none, m)
    else (some drawn, ⟨m.minted ++ [(drawn, c)], (drawn, c) :: m.live⟩)
  redeem _ ticket m :=
    (m.live.lookup ticket, { m with live := m.live.filter fun p => p.1 ≠ ticket })

theorem reached {m : Memory C} {log : List (String × C)} (h : (store C).Reached m log) :
    m.minted = log ∧ m.live ⊆ log := by
  induction h with
  | start => exact ⟨rfl, List.Subset.refl _⟩
  | @issue m log drawn c h ih =>
    obtain ⟨rfl, hlive⟩ := ih
    by_cases hd : drawn ∈ m.minted.map Prod.fst
    · simpa [store, Store.issued, hd] using hlive
    · simp only [store, Store.issued, hd, if_false, Option.toList_some, List.map_singleton]
      refine ⟨trivial, List.cons_subset.2 ⟨by simp, ?_⟩⟩
      exact List.Subset.trans hlive (List.subset_append_left _ _)
  | @redeem m log e ticket h ih =>
    exact ⟨ih.1, fun p hp => ih.2 (List.mem_of_mem_filter hp)⟩

/-- The documentation is met. -/
theorem documented : (store C).Documented where
  fresh m log drawn c ticket h hissue := by
    obtain ⟨rfl, -⟩ := reached h
    simp only [store] at hissue
    split_ifs at hissue with hd
    obtain rfl := Option.some.inj hissue
    exact hd
  bound m log e ticket c h hredeem := by
    obtain ⟨before, after, hlive, -⟩ := List.lookup_eq_some_iff.1 hredeem
    refine (reached h).2 ?_
    rw [hlive]
    exact List.mem_append_right _ List.mem_cons_self

end Memory

end Tickets
