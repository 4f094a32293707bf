import Mathlib.Data.List.Pairwise
import Mathlib.Data.List.Sort

/-!
# Conditions and ordered selections

SQL's three-valued conditions, `none` being unknown, and `SELECT … WHERE … ORDER BY …
LIMIT …` over a table given as a list of rows. `WHERE` keeps the rows whose condition
is true, so a comparison with `NULL` keeps nothing.
-/

namespace Sql

/-- A condition : true, false, or unknown. -/
abbrev Cond := Option Bool

/-- A comparison, unknown when a side is `NULL`. -/
def compare {α : Type*} (r : α → α → Bool) : Option α → Option α → Cond
  | some a, some b => some (r a b)
  | _, _ => none

/-- `a = b`. -/
def eq {α : Type*} [DecidableEq α] (a b : Option α) : Cond :=
  compare (fun a b => decide (a = b)) a b

/-- `a < b`. -/
def lt {α : Type*} [LT α] [DecidableLT α] (a b : Option α) : Cond :=
  compare (fun a b => decide (a < b)) a b

/-- `a IS NULL`. -/
def isNull {α : Type*} (a : Option α) : Cond := some a.isNone

/-- `OR` : true as soon as one side is. -/
def or : Cond → Cond → Cond
  | some true, _ => some true
  | _, some true => some true
  | some false, some false => some false
  | _, _ => none

/-- `AND` : false as soon as one side is. -/
def and : Cond → Cond → Cond
  | some false, _ => some false
  | _, some false => some false
  | some true, some true => some true
  | _, _ => none

/-- `WHERE` keeps a row whose condition is true. -/
def holds (c : Cond) : Bool := c == some true

@[simp] theorem holds_or (c d : Cond) : holds (or c d) = (holds c || holds d) := by
  rcases c with _ | _ | _ <;> rcases d with _ | _ | _ <;> rfl

@[simp] theorem holds_and (c d : Cond) : holds (and c d) = (holds c && holds d) := by
  rcases c with _ | _ | _ <;> rcases d with _ | _ | _ <;> rfl

@[simp] theorem holds_isNull {α : Type*} (a : Option α) : holds (isNull a) = a.isNone := by
  cases a <;> rfl

/-- Equality holds of two equal values, and never of `NULL`. -/
theorem holds_eq {α : Type*} [DecidableEq α] {a b : Option α} :
    holds (eq a b) = true ↔ ∃ x, a = some x ∧ b = some x := by
  cases a <;> cases b <;> simp [holds, eq, compare, eq_comm]

@[simp] theorem holds_eq_some {α : Type*} [DecidableEq α] (a b : α) :
    holds (eq (some a) (some b)) = decide (a = b) := by
  by_cases h : a = b <;> simp [holds, eq, compare, h]

theorem holds_lt {α : Type*} [LT α] [DecidableLT α] {a b : Option α} :
    holds (lt a b) = true ↔ ∃ x y, a = some x ∧ b = some y ∧ x < y := by
  cases a <;> cases b <;> simp [holds, lt, compare]

/-! ## Ordered selections -/

variable {α κ : Type*}

/-- `ORDER BY key` along `le` : `(· ≤ ·)` is `ASC`, `(· ≥ ·)` is `DESC`. -/
def orderBy (le : κ → κ → Prop) [DecidableRel le] (key : α → κ) (rows : List α) : List α :=
  rows.insertionSort fun a b => le (key a) (key b)

/-- `SELECT … FROM table WHERE cond ORDER BY key LIMIT limit`. -/
def select (cond : α → Cond) (le : κ → κ → Prop) [DecidableRel le] (key : α → κ)
    (limit : ℕ) (table : List α) : List α :=
  (orderBy le key (table.filter fun r => holds (cond r))).take limit

@[simp] theorem mem_orderBy {le : κ → κ → Prop} [DecidableRel le] {key : α → κ} {rows : List α}
    {r : α} : r ∈ orderBy le key rows ↔ r ∈ rows :=
  List.mem_insertionSort _

theorem perm_orderBy (le : κ → κ → Prop) [DecidableRel le] (key : α → κ) (rows : List α) :
    (orderBy le key rows).Perm rows :=
  List.perm_insertionSort _ _

/-- A selected row is a row of the table whose condition is true. -/
theorem mem_of_mem_select {cond : α → Cond} {le : κ → κ → Prop} [DecidableRel le] {key : α → κ}
    {limit : ℕ} {table : List α} {r : α} (h : r ∈ select cond le key limit table) :
    r ∈ table ∧ holds (cond r) = true := by
  have hr := List.mem_of_mem_take h
  rw [mem_orderBy] at hr
  exact List.mem_filter.1 hr

/-- Rows with distinct keys come out strictly ordered. -/
theorem pairwise_orderBy {le : κ → κ → Prop} [DecidableRel le] [Std.Total le] [IsTrans κ le]
    {key : α → κ} {rows : List α} (hd : (rows.map key).Nodup) :
    (orderBy le key rows).Pairwise fun a b => le (key a) (key b) ∧ key a ≠ key b := by
  have : Std.Total fun a b : α => le (key a) (key b) := ⟨fun a b => total_of le (key a) (key b)⟩
  have : IsTrans α fun a b => le (key a) (key b) := ⟨fun _ _ _ hab hbc => trans_of le hab hbc⟩
  have hne : (orderBy le key rows).Pairwise fun a b => key a ≠ key b :=
    List.pairwise_map.1 (((perm_orderBy le key rows).map key).nodup_iff.2 hd)
  exact (List.pairwise_insertionSort _ rows).and hne

/-- Rows with distinct keys are ordered in one way only, so filtering them before or
after ordering is the same. -/
theorem orderBy_filter {le : κ → κ → Prop} [DecidableRel le] [Std.Total le] [IsTrans κ le]
    [Std.Antisymm le] {key : α → κ} {rows : List α} (hd : (rows.map key).Nodup) (p : α → Bool) :
    orderBy le key (rows.filter p) = (orderBy le key rows).filter p := by
  have hdf : ((rows.filter p).map key).Nodup := hd.sublist (List.filter_sublist.map key)
  refine List.Perm.eq_of_pairwise (fun a b _ _ hab hba => ?_) (pairwise_orderBy hdf)
    ((pairwise_orderBy hd).filter p) ?_
  · exact absurd (antisymm hab.1 hba.1) hab.2
  · exact (perm_orderBy ..).trans ((perm_orderBy le key rows).filter p).symm

variable [LinearOrder κ]

theorem pairwise_orderBy_asc {key : α → κ} {rows : List α} (hd : (rows.map key).Nodup) :
    (orderBy (· ≤ ·) key rows).Pairwise fun a b => key a < key b :=
  (pairwise_orderBy hd).imp fun h => lt_of_le_of_ne h.1 h.2

theorem pairwise_orderBy_desc {key : α → κ} {rows : List α} (hd : (rows.map key).Nodup) :
    (orderBy (· ≥ ·) key rows).Pairwise fun a b => key b < key a :=
  (pairwise_orderBy hd).imp fun h => lt_of_le_of_ne h.1 h.2.symm

/-- An ascending selection leaves out no row below one it has. -/
theorem mem_select_of_le {cond : α → Cond} {key : α → κ} {limit : ℕ} {table : List α}
    (hd : (table.map key).Nodup) {r r' : α} (hr : r ∈ table) (hc : holds (cond r) = true)
    (hr' : r' ∈ select cond (· ≤ ·) key limit table) (hle : key r ≤ key r') :
    r ∈ select cond (· ≤ ·) key limit table := by
  unfold select at hr' ⊢
  set l := orderBy (· ≤ ·) key (table.filter fun r => holds (cond r)) with hl
  have hsorted : (l.take limit ++ l.drop limit).Pairwise fun a b => key a < key b := by
    rw [List.take_append_drop]
    exact pairwise_orderBy_asc (hd.sublist (List.filter_sublist.map _))
  have hmem : r ∈ l.take limit ++ l.drop limit := by
    rw [List.take_append_drop, hl, mem_orderBy]
    exact List.mem_filter.2 ⟨hr, hc⟩
  refine (List.mem_append.1 hmem).resolve_right fun hdrop => ?_
  exact absurd hle ((List.pairwise_append.1 hsorted).2.2 r' hr' r hdrop).not_ge

/-! ## Unique indexes -/

/-- A unique index : its name, and the key of a row. A row outside a partial index, or with
a `NULL` in its key, has none. -/
structure UniqueIndex (α κ : Type*) where
  name : String
  key : α → Option κ

section Unique

variable {α κ : Type*}

/-- Two rows have the same key. -/
def SameKey (key : α → Option κ) (a b : α) : Prop := ∃ k, key a = some k ∧ key b = some k

/-- No two rows have one key of one index. -/
def UniqueKeys (indexes : List (UniqueIndex α κ)) (rows : List α) : Prop :=
  ∀ ix ∈ indexes, (rows.filterMap ix.key).Nodup

/-- Keys are distinct where no two rows have the same. -/
theorem nodup_filterMap_iff {key : α → Option κ} {rows : List α} :
    (rows.filterMap key).Nodup ↔ rows.Pairwise fun a b => ¬ SameKey key a b := by
  rw [List.Nodup, List.pairwise_filterMap]
  refine List.Pairwise.iff fun a b => ⟨?_, ?_⟩
  · rintro h ⟨k, ha, hb⟩
    exact h k ha k hb rfl
  · rintro h k ha k' hb rfl
    exact h ⟨k, ha, hb⟩

/-- Rows with one key of one index are one row. -/
theorem UniqueKeys.eq_of_sameKey {indexes : List (UniqueIndex α κ)} {ix : UniqueIndex α κ}
    {rows : List α} (h : UniqueKeys indexes rows) (hix : ix ∈ indexes) {a b : α} (ha : a ∈ rows)
    (hb : b ∈ rows) (hk : SameKey ix.key a b) : a = b := by
  by_contra hab
  have hsymm : Std.Symm fun a b => ¬ SameKey ix.key a b :=
    ⟨fun a b hab ⟨k, hb, ha⟩ => hab ⟨k, ha, hb⟩⟩
  exact (nodup_filterMap_iff.1 (h ix hix)).forall ha hb hab hk

/-- Unique rows are unique without one of them. -/
theorem UniqueKeys.of_middle {indexes : List (UniqueIndex α κ)} {pre post : List α} {r : α}
    (h : UniqueKeys indexes (pre ++ r :: post)) : UniqueKeys indexes (pre ++ post) := fun ix hix =>
  (h ix hix).sublist (((List.sublist_cons_self r post).append_left pre).filterMap ix.key)

variable [DecidableEq κ]

/-- The first index in which a new row version has the key of one of the other rows. -/
def violated (indexes : List (UniqueIndex α κ)) (others : List α) (r : α) :
    Option (UniqueIndex α κ) :=
  indexes.find? fun ix => (ix.key r).any fun k => k ∈ others.filterMap ix.key

/-- `INSERT` of one row. -/
def insert (indexes : List (UniqueIndex α κ)) (r : α) (table : List α) :
    Except (UniqueIndex α κ) (List α) :=
  match violated indexes table r with
  | some ix => .error ix
  | none => .ok (table ++ [r])

/-- `UPDATE … SET … WHERE` past the rows `done` : each new row version is checked against
the other rows as they are then. -/
def update (indexes : List (UniqueIndex α κ)) (cond : α → Cond) (set : α → α) :
    List α → List α → Except (UniqueIndex α κ) (List α)
  | done, [] => .ok done
  | done, r :: rest =>
    if holds (cond r) then
      match violated indexes (done ++ rest) (set r) with
      | some ix => .error ix
      | none => update indexes cond set (done ++ [set r]) rest
    else update indexes cond set (done ++ [r]) rest

/-- `INSERT … ON CONFLICT … DO NOTHING` of one row, with the key of the index that the clause
names. -/
def insertOrNothing (indexes : List (UniqueIndex α κ)) (arbiter : α → Option κ) (r : α)
    (table : List α) : Except (UniqueIndex α κ) (List α) :=
  if (arbiter r).any fun k => k ∈ table.filterMap arbiter then .ok table
  else insert indexes r table

variable {indexes : List (UniqueIndex α κ)} {cond : α → Cond} {set : α → α}

theorem violated_eq_none {others : List α} {r : α} :
    violated indexes others r = none ↔
      ∀ ix ∈ indexes, ∀ r' ∈ others, ¬ SameKey ix.key r r' := by
  simp only [violated, List.find?_eq_none, Option.any_eq_true, decide_eq_true_eq,
    List.mem_filterMap, SameKey]
  grind

theorem insert_eq_ok {r : α} {table table' : List α} :
    insert indexes r table = .ok table' ↔
      violated indexes table r = none ∧ table' = table ++ [r] := by
  unfold insert
  cases violated indexes table r <;> simp [eq_comm]

/-- A row that violates no index joins rows that are unique. -/
theorem UniqueKeys.middle {pre post : List α} {r : α} (h : UniqueKeys indexes (pre ++ post))
    (hv : violated indexes (pre ++ post) r = none) : UniqueKeys indexes (pre ++ r :: post) := by
  intro ix hix
  have hpp := h ix hix
  cases hk : ix.key r with
  | none => simpa [hk] using hpp
  | some k =>
    have hmem : k ∉ (pre ++ post).filterMap ix.key := fun hmem =>
      have ⟨r', hr', hk'⟩ := List.mem_filterMap.1 hmem
      violated_eq_none.1 hv ix hix r' hr' ⟨k, hk, hk'⟩
    rw [List.filterMap_append] at hpp hmem
    rw [List.filterMap_append, List.filterMap_cons_some hk]
    exact List.nodup_middle.2 (List.nodup_cons.2 ⟨hmem, hpp⟩)

/-- An update of no row. -/
theorem update_none {done table : List α} (h : ∀ a ∈ table, holds (cond a) = false) :
    update indexes cond set done table = .ok (done ++ table) := by
  induction table generalizing done with
  | nil => simp [update]
  | cons r rest ih =>
    have hr : holds (cond r) = false := h r List.mem_cons_self
    rw [update, hr, if_neg Bool.false_ne_true,
      ih fun a ha => h a (List.mem_cons_of_mem r ha), List.append_assoc]
    rfl

/-- An update of the row `r` alone fails where its new version violates an index. -/
theorem update_one_isError {pre post done : List α} {r : α}
    (hpre : ∀ a ∈ pre, holds (cond a) = false) (hr : holds (cond r) = true)
    (hpost : ∀ a ∈ post, holds (cond a) = false) :
    (∃ ix, update indexes cond set done (pre ++ r :: post) = .error ix) ↔
      violated indexes (done ++ pre ++ post) (set r) ≠ none := by
  induction pre generalizing done with
  | nil =>
    rw [List.nil_append, update, if_pos hr, List.append_nil]
    cases violated indexes (done ++ post) (set r) with
    | some ix => exact ⟨fun _ => Option.some_ne_none ix, fun _ => ⟨ix, rfl⟩⟩
    | none => simp [update_none hpost]
  | cons a pre ih =>
    have ha : holds (cond a) = false := hpre a List.mem_cons_self
    rw [List.cons_append, update, ha, if_neg Bool.false_ne_true,
      ih fun a ha => hpre a (List.mem_cons_of_mem _ ha)]
    simp only [List.append_assoc, List.singleton_append]

/-- An update that succeeds sets the rows it selects and leaves the others. -/
theorem eq_of_update_eq_ok {done table table' : List α}
    (h : update indexes cond set done table = .ok table') :
    table' = done ++ table.map fun r => if holds (cond r) then set r else r := by
  induction table generalizing done with
  | nil =>
    cases h
    simp
  | cons r rest ih =>
    rw [update] at h
    split_ifs at h with hr
    · split at h
      · cases h
      · rw [ih h, List.map_cons, if_pos hr, List.append_assoc]
        rfl
    · rw [ih h, List.map_cons, if_neg hr, List.append_assoc]
      rfl

/-- Rows stay unique through an update that succeeds. -/
theorem UniqueKeys.of_update {done table table' : List α} (hu : UniqueKeys indexes (done ++ table))
    (h : update indexes cond set done table = .ok table') : UniqueKeys indexes table' := by
  induction table generalizing done with
  | nil =>
    cases h
    rwa [List.append_nil] at hu
  | cons r rest ih =>
    rw [update] at h
    split_ifs at h
    · split at h
      · cases h
      · next hv =>
        refine ih ?_ h
        rw [List.append_assoc]
        exact hu.of_middle.middle hv
    · exact ih (by rwa [List.append_assoc]) h

theorem UniqueKeys.of_insert {r : α} {table table' : List α} (hu : UniqueKeys indexes table)
    (h : insert indexes r table = .ok table') : UniqueKeys indexes table' := by
  obtain ⟨hv, rfl⟩ := insert_eq_ok.1 h
  exact UniqueKeys.middle (by rwa [List.append_nil]) (by rwa [List.append_nil])

omit [DecidableEq κ] in
/-- One of unique rows has no key of another. -/
theorem UniqueKeys.not_sameKey {ix : UniqueIndex α κ} {pre post : List α} {r r' : α}
    (h : UniqueKeys indexes (pre ++ r :: post)) (hix : ix ∈ indexes) (hr' : r' ∈ pre ++ post) :
    ¬ SameKey ix.key r r' := by
  obtain ⟨-, hpost, hpre⟩ := List.pairwise_append.1 (nodup_filterMap_iff.1 (h ix hix))
  rcases List.mem_append.1 hr' with hmem | hmem
  · exact fun ⟨k, hk, hk'⟩ => hpre r' hmem r List.mem_cons_self ⟨k, hk', hk⟩
  · exact (List.pairwise_cons.1 hpost).1 r' hmem

/-- An update that leaves every key as it was succeeds. -/
theorem update_eq_ok {done table : List α} (hu : UniqueKeys indexes (done ++ table))
    (hset : ∀ ix ∈ indexes, ∀ r, ix.key (set r) = ix.key r) :
    update indexes cond set done table =
      .ok (done ++ table.map fun r => if holds (cond r) then set r else r) := by
  induction table generalizing done with
  | nil => rw [update, List.map_nil, List.append_nil]
  | cons r rest ih =>
    rw [update, List.map_cons]
    split_ifs with hr
    · have hv : violated indexes (done ++ rest) (set r) = none :=
        violated_eq_none.2 fun ix hix r' hr' ⟨k, hk, hk'⟩ =>
          hu.not_sameKey hix hr' ⟨k, hset ix hix r ▸ hk, hk'⟩
      have hkeys : UniqueKeys indexes ((done ++ [set r]) ++ rest) := by
        intro ix hix
        have hnodup := hu ix hix
        simpa only [List.filterMap_append, List.filterMap_cons, List.filterMap_nil, hset ix hix r,
          List.append_assoc, List.singleton_append] using hnodup
      rw [hv]
      exact (ih hkeys).trans (by rw [List.append_assoc]; rfl)
    · have hkeys : UniqueKeys indexes ((done ++ [r]) ++ rest) := by
        rwa [List.append_assoc]
      exact (ih hkeys).trans (by rw [List.append_assoc]; rfl)

theorem insertOrNothing_eq_ok {arbiter : α → Option κ} {r : α} {table table' : List α} :
    insertOrNothing indexes arbiter r table = .ok table' ↔
      (∃ r' ∈ table, SameKey arbiter r r') ∧ table' = table ∨
        (¬ ∃ r' ∈ table, SameKey arbiter r r') ∧ insert indexes r table = .ok table' := by
  have hconflict : ((arbiter r).any fun k => k ∈ table.filterMap arbiter) = true ↔
      ∃ r' ∈ table, SameKey arbiter r r' := by
    simp only [Option.any_eq_true, decide_eq_true_eq, List.mem_filterMap, SameKey]
    grind
  unfold insertOrNothing
  by_cases h : ∃ r' ∈ table, SameKey arbiter r r'
  · rw [if_pos (hconflict.2 h)]
    simp [h, eq_comm]
  · rw [if_neg (mt hconflict.1 h)]
    simp [h]

/-- What is refused has the key of a row in an index that the clause does not name. -/
theorem insertOrNothing_eq_error {arbiter : α → Option κ} {r : α} {table : List α}
    {ix : UniqueIndex α κ} (h : insertOrNothing indexes arbiter r table = .error ix) :
    ix ∈ indexes ∧ (∃ r' ∈ table, SameKey ix.key r r') ∧ ¬ ∃ r' ∈ table, SameKey arbiter r r' := by
  have hnone : ¬ ∃ r' ∈ table, SameKey arbiter r r' := by
    intro hold
    cases h.symm.trans (insertOrNothing_eq_ok.2 (Or.inl ⟨hold, rfl⟩))
  unfold insertOrNothing insert at h
  split_ifs at h
  cases hv : violated indexes table r with
  | none =>
    rw [hv] at h
    cases h
  | some ix' =>
    rw [hv] at h
    obtain rfl := Except.error.inj h
    have hkey := List.find?_some hv
    simp only [Option.any_eq_true, decide_eq_true_eq, List.mem_filterMap] at hkey
    obtain ⟨k, hk, r', hr', hk'⟩ := hkey
    exact ⟨List.mem_of_find?_eq_some hv, ⟨r', hr', k, hk, hk'⟩, hnone⟩

/-- A row has the key of the new one already, or the new one is after the rows there are. -/
theorem insertOrNothing_cases {arbiter : α → Option κ} {r : α} {table table' : List α}
    (h : insertOrNothing indexes arbiter r table = .ok table') :
    (∃ r' ∈ table, SameKey arbiter r r') ∧ table' = table ∨ table' = table ++ [r] := by
  rcases insertOrNothing_eq_ok.1 h with hold | ⟨-, hinsert⟩
  · exact Or.inl hold
  · exact Or.inr (insert_eq_ok.1 hinsert).2

theorem UniqueKeys.of_insertOrNothing {arbiter : α → Option κ} {r : α} {table table' : List α}
    (hu : UniqueKeys indexes table) (h : insertOrNothing indexes arbiter r table = .ok table') :
    UniqueKeys indexes table' := by
  rcases insertOrNothing_eq_ok.1 h with ⟨-, rfl⟩ | ⟨-, h⟩
  · exact hu
  · exact hu.of_insert h

end Unique

/-- Rows are ordered as their images under a map that keeps the key. -/
theorem map_orderBy {α β κ : Type*} {le : κ → κ → Prop} [DecidableRel le] {key : α → κ}
    {key' : β → κ} (f : α → β) (hkey : ∀ r, key' (f r) = key r) (rows : List α) :
    (orderBy le key rows).map f = orderBy le key' (rows.map f) :=
  List.map_insertionSort _ _ _ _ fun a _ b _ => by rw [hkey, hkey]

end Sql
