import Mathlib.Data.List.Infix
import Mathlib.Order.Lattice

/-!
# Keyset pages

A list in strictly descending key order is read in pages. A page takes the first
`limit` rows below the cursor; while rows remain past it, it carries the key of its
last row as the next cursor. `walk` follows the cursors to the end.

The list may grow between two pages, by larger keys only : every later list has the
first one as a suffix. A walk then ends after at most one page for each row and its
pages are the first list, cut (`exists_walk`), since rows with larger keys are never
below a cursor (`below_suffix`) and the rows below a page's last row are the rows it
leaves out (`below_getLast`).
-/

namespace Keyset

variable {α κ : Type*}

/-- A keyset page. -/
structure Page (α κ : Type*) where
  data : List α
  nextCursor : Option κ
  hasMore : Bool

/-- Follow the next cursors from the page request `i` on; `none` when `fuel` requests
do not reach the last page or a request fails. -/
def walk (fetch : ℕ → Option κ → Option (Page α κ)) :
    ℕ → ℕ → Option κ → Option (List (Page α κ))
  | 0, _, _ => none
  | fuel + 1, i, cursor =>
    (fetch i cursor).bind fun p =>
      if p.hasMore then (walk fetch fuel (i + 1) p.nextCursor).map fun ps => p :: ps
      else some [p]

/-- Every page of a walk is the answer to its own request. -/
theorem walk_getElem {fetch : ℕ → Option κ → Option (Page α κ)} :
    ∀ {fuel i cursor pages}, walk fetch fuel i cursor = some pages →
      ∀ j (hj : j < pages.length), ∃ c, fetch (i + j) c = some pages[j]
  | 0, _, _, _, h, _, _ => by simp [walk] at h
  | fuel + 1, i, cursor, pages, h, j, hj => by
    obtain ⟨p, hp, h⟩ := Option.bind_eq_some_iff.1 h
    split_ifs at h
    · obtain ⟨ps, hps, rfl⟩ := Option.map_eq_some_iff.1 h
      cases j with
      | zero => exact ⟨cursor, hp⟩
      | succ j =>
        obtain ⟨c, hc⟩ := walk_getElem hps j (by simpa using hj)
        refine ⟨c, ?_⟩
        rw [show i + (j + 1) = i + 1 + j by omega]
        exact hc
    · obtain rfl := Option.some.inj h
      obtain rfl : j = 0 := by simpa using hj
      exact ⟨cursor, hp⟩

/-- More fuel does not change a finished walk. -/
theorem walk_mono {fetch : ℕ → Option κ → Option (Page α κ)} :
    ∀ {fuel fuel' i cursor pages}, fuel ≤ fuel' → walk fetch fuel i cursor = some pages →
      walk fetch fuel' i cursor = some pages
  | 0, _, _, _, _, _, h => by simp [walk] at h
  | fuel + 1, 0, _, _, _, hle, _ => by omega
  | fuel + 1, fuel' + 1, i, cursor, pages, hle, h => by
    obtain ⟨p, hp, h⟩ := Option.bind_eq_some_iff.1 h
    rw [walk, hp, Option.bind_some]
    split_ifs at h ⊢
    · obtain ⟨ps, hps, rfl⟩ := Option.map_eq_some_iff.1 h
      rw [walk_mono (by omega) hps, Option.map_some]
    · exact h

/-- Walks of two fetches that agree at every cursor they pass. -/
theorem walk_congr {fetch fetch' : ℕ → Option κ → Option (Page α κ)} {P : Option κ → Prop}
    (hfetch : ∀ i c, P c → fetch i c = fetch' i c)
    (hnext : ∀ i c p, P c → fetch i c = some p → P p.nextCursor) :
    ∀ {fuel i cursor}, P cursor → walk fetch fuel i cursor = walk fetch' fuel i cursor
  | 0, _, _, _ => rfl
  | fuel + 1, i, cursor, hc => by
    rw [walk, walk, ← hfetch i cursor hc]
    cases hp : fetch i cursor with
    | none => rfl
    | some p =>
      rw [Option.bind_some, Option.bind_some, walk_congr hfetch hnext (hnext i cursor p hc hp)]

variable [LinearOrder κ] {key : α → κ}

/-- Strictly descending keys. -/
def Descending (key : α → κ) (xs : List α) : Prop := xs.Pairwise fun a b => key b < key a

/-- The rows below the cursor; all rows when there is none. -/
def below (key : α → κ) (cursor : Option κ) (xs : List α) : List α :=
  xs.filter fun r => cursor.all fun c => decide (key r < c)

/-- The page of at most `limit` rows below the cursor. -/
def page (key : α → κ) (limit : ℕ) (cursor : Option κ) (xs : List α) : Page α κ where
  data := (below key cursor xs).take limit
  nextCursor :=
    if limit < (below key cursor xs).length
    then ((below key cursor xs).take limit).getLast?.map key else none
  hasMore := decide (limit < (below key cursor xs).length)

@[simp] theorem below_none (xs : List α) : below key none xs = xs := by
  simp [below]

theorem mem_below_some {c : κ} {xs : List α} {r : α} :
    r ∈ below key (some c) xs ↔ r ∈ xs ∧ key r < c := by
  simp [below]

theorem below_sublist (cursor : Option κ) (xs : List α) :
    (below key cursor xs).Sublist xs :=
  List.filter_sublist

theorem Descending.below {xs : List α} (h : Descending key xs) (cursor : Option κ) :
    Descending key (Keyset.below key cursor xs) :=
  List.Pairwise.sublist (below_sublist cursor xs) h

theorem Descending.page {xs : List α} (h : Descending key xs) (limit : ℕ) (cursor : Option κ) :
    Descending key (Keyset.page key limit cursor xs).data :=
  List.Pairwise.sublist (List.take_sublist _ _) (h.below cursor)

/-- A descending list is ascending only when it has at most one row. -/
theorem Descending.ascending_iff {xs : List α} (h : Descending key xs) :
    (xs.Pairwise fun a b => key a < key b) ↔ xs.length ≤ 1 := by
  match xs, h with
  | [], _ => simp
  | [x], _ => simp
  | x :: y :: ys, h =>
    have hxy : key y < key x := (List.pairwise_cons.1 h).1 y List.mem_cons_self
    refine iff_of_false (fun hasc => ?_) (by simp)
    exact absurd ((List.pairwise_cons.1 hasc).1 y List.mem_cons_self) hxy.asymm

/-- In a descending list, the rows below a row are the rows after it. -/
theorem below_key {l₁ l₂ : List α} {y : α} (h : Descending key (l₁ ++ y :: l₂)) :
    below key (some (key y)) (l₁ ++ y :: l₂) = l₂ := by
  obtain ⟨-, hy, h₁⟩ := List.pairwise_append.1 h
  obtain ⟨h₂, -⟩ := List.pairwise_cons.1 hy
  have hout : l₁.filter (fun r => decide (key r < key y)) = [] :=
    List.filter_eq_nil_iff.2 fun r hr => by simpa using (h₁ r hr y List.mem_cons_self).le
  have hin : l₂.filter (fun r => decide (key r < key y)) = l₂ :=
    List.filter_eq_self.2 fun r hr => by simpa using h₂ r hr
  simp [below, hout, hin]

/-- Rows with larger keys in front are not below a key of the list. -/
theorem below_suffix {xs ys : List α} {y : α} (hs : ys <:+ xs) (hd : Descending key xs)
    (hy : y ∈ ys) : below key (some (key y)) xs = below key (some (key y)) ys := by
  obtain ⟨new, rfl⟩ := hs
  obtain ⟨-, -, h⟩ := List.pairwise_append.1 hd
  have hout : new.filter (fun r => decide (key r < key y)) = [] :=
    List.filter_eq_nil_iff.2 fun r hr => by simpa using (h r hr y hy).le
  simp [below, hout]

/-- The rows below the last row of a page are the rows the page leaves out. -/
theorem below_getLast {xs : List α} (hd : Descending key xs) {cursor : Option κ} {k : ℕ}
    {y : α} (hy : ((below key cursor xs).take k).getLast? = some y) :
    below key (some (key y)) xs = (below key cursor xs).drop k := by
  obtain ⟨l₁, hl₁⟩ := List.getLast?_eq_some_iff.1 hy
  have hsplit : below key cursor xs = l₁ ++ y :: (below key cursor xs).drop k := by
    conv_lhs => rw [← List.take_append_drop k (below key cursor xs), hl₁]
    simp
  have hmem : y ∈ below key cursor xs := by
    rw [hsplit]
    simp
  -- a row below `y` is below the cursor, since `y` is
  have hsub : below key (some (key y)) xs =
      below key (some (key y)) (below key cursor xs) := by
    rw [below, below, below, List.filter_filter]
    refine List.filter_congr fun r _ => ?_
    have hyc := (List.mem_filter.1 hmem).2
    cases cursor with
    | none => simp
    | some c =>
      have hyc' : key y < c := by simpa using hyc
      by_cases hr : key r < key y
      · simp [hr, hr.trans hyc']
      · simp [hr]
  rw [hsub]
  conv_lhs => rw [hsplit]
  exact below_key (hsplit ▸ hd.below cursor)

theorem getLast?_take_isSome {l : List α} {k : ℕ} (hk : 1 ≤ k) (hl : k < l.length) :
    ∃ y, (l.take k).getLast? = some y := by
  refine Option.isSome_iff_exists.1 ?_
  rw [List.getLast?_isSome, ← List.length_pos_iff, List.length_take]
  omega

/-- A page carries a next cursor exactly when more rows remain. -/
theorem nextCursor_isSome {xs : List α} {cursor : Option κ} {k : ℕ} (hk : 1 ≤ k) :
    (page key k cursor xs).nextCursor.isSome = (page key k cursor xs).hasMore := by
  unfold page
  by_cases h : k < (below key cursor xs).length
  · obtain ⟨y, hy⟩ := getLast?_take_isSome hk h
    simp [h, hy]
  · simp [h]

/-- More rows remain exactly when some row is below the page's last row. -/
theorem hasMore_iff {xs : List α} (hd : Descending key xs) {cursor : Option κ} {k : ℕ}
    (hk : 1 ≤ k) : (page key k cursor xs).hasMore = true ↔
      ∃ y, (page key k cursor xs).data.getLast? = some y ∧ ∃ r ∈ xs, key r < key y := by
  simp only [page, decide_eq_true_eq]
  refine ⟨fun h => ?_, ?_⟩
  · obtain ⟨y, hy⟩ := getLast?_take_isSome hk h
    obtain ⟨r, hr⟩ : ∃ r, r ∈ (below key cursor xs).drop k :=
      List.exists_mem_of_length_pos (by rw [List.length_drop]; omega)
    rw [← below_getLast hd hy, mem_below_some] at hr
    exact ⟨y, hy, r, hr⟩
  · rintro ⟨y, hy, r, hr, hlt⟩
    have hmem : r ∈ (below key cursor xs).drop k := by
      rw [← below_getLast hd hy]
      exact mem_below_some.2 ⟨hr, hlt⟩
    have := List.length_pos_of_mem hmem
    simp only [List.length_drop] at this
    omega

variable {xs : ℕ → List α} {limit : ℕ → ℕ} {fetch : ℕ → Option κ → Option (Page α κ)}

/-- From a cursor below which nothing was added, a walk cuts the rows below it. -/
theorem exists_walk_from (hlimit : ∀ i, 1 ≤ limit i) (hd : ∀ i, Descending key (xs i))
    (hs : ∀ i, xs 0 <:+ xs i) (hfetch : ∀ i c, fetch i c = some (page key (limit i) c (xs i))) :
    ∀ {fuel i cursor}, below key cursor (xs i) = below key cursor (xs 0) →
      (below key cursor (xs 0)).length < fuel →
      ∃ pages, walk fetch fuel i cursor = some pages ∧
        pages.flatMap Page.data = below key cursor (xs 0)
  | fuel + 1, i, cursor, hfit, hfuel => by
    simp only [walk, hfetch, Option.bind_some]
    set p := page key (limit i) cursor (xs i) with hp
    have hdata : p.data = (below key cursor (xs 0)).take (limit i) := by
      rw [hp, page, hfit]
    by_cases hmore : limit i < (below key cursor (xs 0)).length
    · have hm : p.hasMore = true := by simpa [hp, page, hfit] using hmore
      obtain ⟨y, hy⟩ := getLast?_take_isSome (hlimit i) hmore
      have hnext : p.nextCursor = some (key y) := by simp [hp, page, hfit, hmore, hy]
      have hrest := below_getLast (hd 0) hy
      have hy0 : y ∈ xs 0 :=
        (below_sublist cursor _).subset (List.mem_of_mem_take (List.mem_of_getLast? hy))
      have hlen : (below key (some (key y)) (xs 0)).length < fuel := by
        rw [hrest, List.length_drop]
        have := hlimit i
        omega
      obtain ⟨ps, hps, hflat⟩ := exists_walk_from hlimit hd hs hfetch (i := i + 1)
        (below_suffix (hs (i + 1)) (hd (i + 1)) hy0) hlen
      refine ⟨p :: ps, by simp [hm, hnext, hps], ?_⟩
      rw [List.flatMap_cons, hflat, hdata, hrest, List.take_append_drop]
    · have hm : p.hasMore = false := by simpa [hp, page, hfit] using hmore
      refine ⟨[p], by simp [hm], ?_⟩
      rw [List.flatMap_singleton, hdata, List.take_of_length_le (by omega)]

/-- A walk from the newest row ends, and its pages cut the list it started on. -/
theorem exists_walk (hlimit : ∀ i, 1 ≤ limit i) (hd : ∀ i, Descending key (xs i))
    (hs : ∀ i, xs 0 <:+ xs i) (hfetch : ∀ i c, fetch i c = some (page key (limit i) c (xs i)))
    {fuel : ℕ} (hfuel : (xs 0).length < fuel) :
    ∃ pages, walk fetch fuel 0 none = some pages ∧ pages.flatMap Page.data = xs 0 := by
  have hall : below key none (xs 0) = xs 0 := below_none _
  rw [← hall] at hfuel
  obtain ⟨pages, hwalk, hflat⟩ := exists_walk_from hlimit hd hs hfetch (i := 0) rfl hfuel
  exact ⟨pages, hwalk, hflat.trans hall⟩

end Keyset
