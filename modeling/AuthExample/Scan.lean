import Mathlib.Data.List.DropRight
import Mathlib.Data.List.Infix

/-!
# Scanning a list

Parsers that split a text chain scans : up to the first element of a kind, after the last
one, and at the first occurrence of a separator. Each is characterised by the parts it leaves,
so that a chain of scans reads as a decomposition of the text.
-/

namespace Scan

variable {α : Type*}

/-- Equal up to the case of the ASCII letters. -/
def eqIgnoreAsciiCase (a b : List Char) : Bool := a.map Char.toLower == b.map Char.toLower

@[simp]
theorem eqIgnoreAsciiCase_iff {a b : List Char} :
    eqIgnoreAsciiCase a b = true ↔ a.map Char.toLower = b.map Char.toLower :=
  beq_iff_eq

/-- A check of every element. -/
theorem forall_mem_of_all {p : α → Prop} [DecidablePred p] {l : List α}
    (h : (l.all fun x => decide (p x)) = true) : ∀ x ∈ l, p x :=
  fun x hx => of_decide_eq_true (List.all_eq_true.1 h x hx)

/-- Up to the first element that fails `p`. -/
theorem takeWhile_eq_iff {p : α → Bool} {l a : List α} :
    l.takeWhile p = a ↔
      ∃ b, l = a ++ b ∧ (∀ x ∈ a, p x = true) ∧ ∀ x ∈ b.head?, p x = false := by
  constructor
  · rintro rfl
    refine ⟨l.dropWhile p, List.takeWhile_append_dropWhile.symm,
      fun x hx => List.mem_takeWhile_imp hx, fun x hx => ?_⟩
    have hnot := List.head?_dropWhile_not p l
    rw [Option.mem_def.1 hx] at hnot
    simpa using hnot
  · rintro ⟨b, rfl, ha, hb⟩
    rw [List.takeWhile_append_of_pos ha]
    cases b with
    | nil => exact List.append_nil a
    | cons x b => rw [List.takeWhile_cons_of_neg (by simp [hb x rfl]), List.append_nil]

/-- After the last element that fails `p`. -/
theorem rtakeWhile_eq_iff {p : α → Bool} {l a : List α} :
    l.rtakeWhile p = a ↔
      ∃ b, l = b ++ a ∧ (∀ x ∈ a, p x = true) ∧ ∀ x ∈ b.getLast?, p x = false := by
  rw [List.rtakeWhile, List.reverse_eq_iff, takeWhile_eq_iff]
  constructor
  · rintro ⟨b, hl, ha, hb⟩
    refine ⟨b.reverse, ?_, fun x hx => ha x (List.mem_reverse.2 hx), ?_⟩
    · rw [← List.reverse_reverse l, hl, List.reverse_append, List.reverse_reverse]
    · rwa [List.getLast?_reverse]
  · rintro ⟨b, rfl, ha, hb⟩
    refine ⟨b.reverse, List.reverse_append, fun x hx => ha x (List.mem_reverse.1 hx), ?_⟩
    rwa [List.head?_reverse]

/-- Without the last elements that meet `p`. -/
theorem rdropWhile_eq_iff {p : α → Bool} {l a : List α} :
    l.rdropWhile p = a ↔
      ∃ b, l = a ++ b ∧ (∀ x ∈ b, p x = true) ∧ ∀ x ∈ a.getLast?, p x = false := by
  constructor
  · rintro rfl
    obtain ⟨b, hl, hb, hlast⟩ := rtakeWhile_eq_iff.1 (rfl : l.rtakeWhile p = _)
    have hsplit : b ++ l.rtakeWhile p = l.rdropWhile p ++ l.rtakeWhile p := by
      rw [← hl, List.rdropWhile_append_rtakeWhile]
    rw [← List.append_cancel_right hsplit]
    exact ⟨l.rtakeWhile p, hl, hb, hlast⟩
  · rintro ⟨b, rfl, hb, hlast⟩
    have hdrop := List.rdropWhile_append_rtakeWhile (p := p) (l := a ++ b)
    rw [rtakeWhile_eq_iff.2 ⟨a, rfl, hb, hlast⟩] at hdrop
    exact List.append_cancel_right hdrop

/-- Without the elements at either end that meet `p`. -/
def trim (p : α → Bool) (l : List α) : List α := (l.dropWhile p).rdropWhile p

/-- Between the runs at either end. -/
theorem trim_eq_iff {p : α → Bool} {l a : List α} :
    trim p l = a ↔ ∃ b c, l = b ++ a ++ c ∧ (∀ x ∈ b, p x = true) ∧ (∀ x ∈ c, p x = true) ∧
      (∀ x ∈ a.head?, p x = false) ∧ ∀ x ∈ a.getLast?, p x = false := by
  rw [trim, rdropWhile_eq_iff]
  constructor
  · rintro ⟨c, hl, hc, hlast⟩
    obtain ⟨d, hsplit, hb, hd⟩ := takeWhile_eq_iff.1 (rfl : l.takeWhile p = _)
    have hdrop : d = l.dropWhile p := by
      have happend := List.takeWhile_append_dropWhile (p := p) (l := l)
      exact (List.append_cancel_left (happend.trans hsplit)).symm
    refine ⟨l.takeWhile p, c, ?_, hb, hc, fun x hx => ?_, hlast⟩
    · rw [List.append_assoc, ← hl, List.takeWhile_append_dropWhile]
    · cases a with
      | nil => cases hx
      | cons y a => exact hd x (by rw [hdrop, hl]; exact hx)
  · rintro ⟨b, c, rfl, hb, hc, hhead, hlast⟩
    rw [List.append_assoc, List.dropWhile_append_of_pos hb]
    cases a with
    | nil =>
      refine ⟨[], ?_, nofun, hlast⟩
      rw [List.nil_append, List.dropWhile_eq_nil_iff.2 hc, List.append_nil]
    | cons y a =>
      refine ⟨c, ?_, hc, hlast⟩
      rw [List.cons_append, List.dropWhile_cons_of_neg (by simp [hhead y rfl])]

/-- What is cut before and after does not change what is left. -/
theorem trim_append {p : α → Bool} {b c : List α} (hb : ∀ x ∈ b, p x = true)
    (hc : ∀ x ∈ c, p x = true) (l : List α) : trim p (b ++ l ++ c) = trim p l := by
  obtain ⟨b', c', hl, hb', hc', hhead, hlast⟩ := trim_eq_iff.1 (rfl : trim p l = _)
  refine trim_eq_iff.2 ⟨b ++ b', c' ++ c, ?_, fun x hx => ?_, fun x hx => ?_, hhead, hlast⟩
  · conv_lhs => rw [hl]
    simp only [List.append_assoc]
  · exact (List.mem_append.1 hx).elim (hb x) (hb' x)
  · exact (List.mem_append.1 hx).elim (hc' x) (hc x)

/-- The first element that meets `p`. -/
theorem findIdx?_append_cons {p : α → Bool} {a b : List α} {x : α} (ha : ∀ y ∈ a, p y = false)
    (hx : p x = true) : (a ++ x :: b).findIdx? p = some a.length := by
  rw [List.findIdx?_append, List.findIdx?_eq_none_iff.2 ha, List.findIdx?_cons, if_pos hx]
  simp

/-- What is between separators, or one of them. -/
theorem mem_intercalate {sep x : α} {ls : List (List α)} (h : x ∈ [sep].intercalate ls) :
    x = sep ∨ ∃ l ∈ ls, x ∈ l := by
  induction ls with
  | nil => cases h
  | cons l ls ih =>
    cases ls with
    | nil => exact Or.inr ⟨l, List.mem_singleton_self l, by rwa [List.intercalate_singleton] at h⟩
    | cons l' ls =>
      rw [List.intercalate_cons_cons, List.mem_append, List.mem_append] at h
      rcases h with (h | h) | h
      · exact Or.inr ⟨l, List.mem_cons_self, h⟩
      · exact Or.inl (List.mem_singleton.1 h)
      · exact (ih h).imp_right fun ⟨m, hm, hx⟩ => ⟨m, List.mem_cons_of_mem l hm, hx⟩

variable [DecidableEq α]

/-- The parts before and after the first occurrence of the separator. -/
def splitOnce (sep : List α) : List α → Option (List α × List α)
  | [] => if sep = [] then some ([], []) else none
  | x :: l =>
    if sep.isPrefixOf (x :: l) then some ([], (x :: l).drop sep.length)
    else (splitOnce sep l).map fun parts => (x :: parts.1, parts.2)

/-- The parts are those around a separator. -/
theorem eq_of_splitOnce {sep l before rest : List α} (h : splitOnce sep l = some (before, rest)) :
    l = before ++ (sep ++ rest) := by
  induction l generalizing before with
  | nil =>
    rw [splitOnce] at h
    split_ifs at h with hsep
    obtain ⟨rfl, rfl⟩ := Prod.mk.inj (Option.some.inj h)
    rw [hsep]
    rfl
  | cons x l ih =>
    rw [splitOnce] at h
    split_ifs at h with hsep
    · obtain ⟨rfl, rfl⟩ := Prod.mk.inj (Option.some.inj h)
      obtain ⟨rest, hrest⟩ := List.isPrefixOf_iff_prefix.1 hsep
      rw [← hrest, List.drop_left, List.nil_append]
    · obtain ⟨parts, hparts, heq⟩ := Option.map_eq_some_iff.1 h
      obtain ⟨rfl, rfl⟩ := Prod.mk.inj heq
      rw [List.cons_append, ← ih hparts]

/-- A text whose separator is the first to start so. -/
theorem splitOnce_append {x : α} {sep before : List α} (rest : List α) (h : x ∉ before) :
    splitOnce (x :: sep) (before ++ (x :: sep ++ rest)) = some (before, rest) := by
  induction before with
  | nil => simp [splitOnce, List.isPrefixOf_iff_prefix]
  | cons y before ih =>
    obtain ⟨hy, hbefore⟩ := not_or.1 (mt List.mem_cons.2 h)
    rw [List.cons_append, splitOnce, if_neg (by simp [List.isPrefixOf, hy]), ih hbefore]
    rfl

/-- A separator that is found stands in the text. -/
theorem splitOnce_eq_none_iff {sep l : List α} : splitOnce sep l = none ↔ ¬sep <:+: l := by
  induction l with
  | nil => simp [splitOnce]
  | cons x l ih =>
    rw [splitOnce, List.infix_cons_iff, not_or, ← ih]
    by_cases hsep : sep <+: x :: l
    · rw [if_pos (List.isPrefixOf_iff_prefix.2 hsep)]
      exact iff_of_false nofun fun h => h.1 hsep
    · rw [if_neg (mt List.isPrefixOf_iff_prefix.1 hsep), Option.map_eq_none_iff]
      exact ⟨fun h => ⟨hsep, h⟩, And.right⟩

/-- What follows the text follows the part after the separator. -/
theorem splitOnce_append_right {sep l before rest : List α}
    (h : splitOnce sep l = some (before, rest)) (m : List α) :
    splitOnce sep (l ++ m) = some (before, rest ++ m) := by
  induction l generalizing before with
  | nil =>
    rw [splitOnce] at h
    split_ifs at h with hsep
    obtain ⟨rfl, rfl⟩ := Prod.mk.inj (Option.some.inj h)
    subst hsep
    cases m with
    | nil => rfl
    | cons y m => simp [splitOnce]
  | cons x l ih =>
    rw [splitOnce] at h
    rw [List.cons_append, splitOnce]
    by_cases hsep : sep <+: x :: l
    · rw [if_pos (List.isPrefixOf_iff_prefix.2 hsep)] at h
      obtain ⟨rfl, rfl⟩ := Prod.mk.inj (Option.some.inj h)
      have hlong : sep <+: x :: (l ++ m) := hsep.trans (List.prefix_append _ m)
      rw [if_pos (List.isPrefixOf_iff_prefix.2 hlong), ← List.cons_append,
        List.drop_append_of_le_length hsep.length_le]
    · rw [if_neg (mt List.isPrefixOf_iff_prefix.1 hsep)] at h
      obtain ⟨parts, hparts, heq⟩ := Option.map_eq_some_iff.1 h
      obtain ⟨rfl, rfl⟩ := Prod.mk.inj heq
      have hfits : sep.length ≤ (x :: l).length := by
        have hwithin : sep <:+: l := by
          by_contra hno
          rw [splitOnce_eq_none_iff.2 hno] at hparts
          cases hparts
        exact hwithin.length_le.trans (Nat.le_succ _)
      have hlong : ¬sep <+: x :: (l ++ m) := fun hlong =>
        hsep (List.prefix_of_prefix_length_le hlong (List.prefix_append _ m) hfits)
      rw [if_neg (mt List.isPrefixOf_iff_prefix.1 hlong), ih hparts]
      rfl

/-- A text in which no separator starts before the one that is shown. -/
theorem splitOnce_append_of_not_infix {sep before : List α} (rest : List α)
    (h : ¬sep <:+: before ++ sep.dropLast) :
    splitOnce sep (before ++ (sep ++ rest)) = some (before, rest) := by
  induction before with
  | nil =>
    cases sep with
    | nil => cases rest <;> rfl
    | cons y sep => simp [splitOnce, List.isPrefixOf_iff_prefix]
  | cons x before ih =>
    rw [List.cons_append, List.infix_cons_iff, not_or] at h
    have hfits : sep.length ≤ (x :: (before ++ sep.dropLast)).length := by
      rw [List.length_cons, List.length_append, List.length_dropLast]
      omega
    have hlast : x :: (before ++ sep.dropLast) <+: x :: (before ++ (sep ++ rest)) :=
      List.prefix_cons_inj x |>.2 <| (List.prefix_append_right_inj before).2 <|
        (List.dropLast_prefix sep).trans (List.prefix_append sep rest)
    have hno : ¬sep <+: x :: (before ++ (sep ++ rest)) := fun hyes =>
      h.1 (List.prefix_of_prefix_length_le hyes hlast hfits)
    rw [List.cons_append, splitOnce, if_neg (mt List.isPrefixOf_iff_prefix.1 hno), ih h.2]
    rfl

/-- The parts between the occurrences of the separator. `skip` counts the elements left of the
one that was just found. -/
def splitAll (sep : List α) : ℕ → List α → List (List α)
  | _, [] => [[]]
  | skip + 1, _ :: l => splitAll sep skip l
  | 0, x :: l =>
    if sep.isPrefixOf (x :: l) then [] :: splitAll sep (sep.length - 1) l
    else (splitAll sep 0 l).modifyHead (x :: ·)

theorem splitAll_skip (sep a l : List α) : splitAll sep a.length (a ++ l) = splitAll sep 0 l := by
  induction a with
  | nil => rfl
  | cons x a ih => exact ih

theorem splitAll_of_notMem {x : α} {sep l : List α} (h : x ∉ l) :
    splitAll (x :: sep) 0 l = [l] := by
  induction l with
  | nil => rfl
  | cons y l ih =>
    obtain ⟨hy, hl⟩ := not_or.1 (mt List.mem_cons.2 h)
    rw [splitAll, if_neg (by simp [List.isPrefixOf, hy]), ih hl]
    rfl

theorem splitAll_append {x : α} {sep before : List α} (rest : List α) (h : x ∉ before) :
    splitAll (x :: sep) 0 (before ++ (x :: sep ++ rest)) =
      before :: splitAll (x :: sep) 0 rest := by
  induction before with
  | nil =>
    have hsep : (x :: sep).isPrefixOf (x :: (sep ++ rest)) = true :=
      List.isPrefixOf_iff_prefix.2 (List.prefix_append (x :: sep) rest)
    rw [List.nil_append, List.cons_append, splitAll, if_pos hsep, List.length_cons,
      Nat.add_sub_cancel, splitAll_skip]
  | cons y before ih =>
    obtain ⟨hy, hbefore⟩ := not_or.1 (mt List.mem_cons.2 h)
    rw [List.cons_append, splitAll, if_neg (by simp [List.isPrefixOf, hy]), ih hbefore]
    rfl

/-- Parts that were joined, none of which has the first element of the separator. -/
theorem splitAll_intercalate {x : α} {sep : List α} {ls : List (List α)} (hne : ls ≠ [])
    (h : ∀ l ∈ ls, x ∉ l) : splitAll (x :: sep) 0 ((x :: sep).intercalate ls) = ls := by
  induction ls with
  | nil => exact absurd rfl hne
  | cons l ls ih =>
    have hl : x ∉ l := h l List.mem_cons_self
    cases ls with
    | nil => rw [List.intercalate_singleton, splitAll_of_notMem hl]
    | cons l' ls =>
      rw [List.intercalate_cons_cons, List.append_assoc, splitAll_append _ hl,
        ih (List.cons_ne_nil _ _) fun m hm => h m (List.mem_cons_of_mem l hm)]

end Scan
