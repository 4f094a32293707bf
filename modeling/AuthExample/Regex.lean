import Mathlib.Data.List.Basic
import Mathlib.Data.Nat.Notation

/-!
# Regular expressions

The regular expressions of JavaScript, as far as they are used here : character sets,
sequence, alternation, bounded repetition, the anchors `^` and `$` of a pattern without
the `m` flag, and negative lookahead. `ends` lists where a match from a position can
end, in the order the backtracking search tries them; `test` looks for a match from any
position. The membership lemmas read a pattern as what it says about the text.
-/

/-- A regular expression. -/
inductive Regex where
  | empty
  | set (p : Char → Bool)
  | seq (r t : Regex)
  | alt (r t : Regex)
  | bos
  | eos
  | notAhead (r : Regex)

namespace Regex

/-- A position in a text : what stands before it, last first, and what follows. -/
structure Cursor where
  before : List Char
  after : List Char

/-- Where a match of the pattern that starts at the position can end. -/
def ends : Regex → Cursor → List Cursor
  | empty, c => [c]
  | set p, ⟨before, x :: after⟩ => if p x then [⟨x :: before, after⟩] else []
  | set _, ⟨_, []⟩ => []
  | seq r t, c => (r.ends c).flatMap t.ends
  | alt r t, c => r.ends c ++ t.ends c
  | bos, c => if c.before.isEmpty then [c] else []
  | eos, c => if c.after.isEmpty then [c] else []
  | notAhead r, c => if (r.ends c).isEmpty then [c] else []

/-- Look for a match from the position on. -/
def search (r : Regex) (before : List Char) : List Char → Bool
  | [] => !(r.ends ⟨before, []⟩).isEmpty
  | x :: after => !(r.ends ⟨before, x :: after⟩).isEmpty || search r (x :: before) after

/-- `r.test(s)`. -/
def test (r : Regex) (s : String) : Bool := search r [] s.toList

/-- The characters `xs`, one after the other. -/
def chars : List Char → Regex
  | [] => empty
  | x :: xs => seq (set fun y => y == x) (chars xs)

/-- A text, as it stands. -/
def lit (s : String) : Regex := chars s.toList

/-- A text of small letters, as the `i` flag matches it : the case of `A` to `Z` is ignored. -/
def litNoCase (s : String) : Regex :=
  s.toList.foldr (fun x r => seq (set fun y => y.toLower == x) r) empty

/-- `r{0,n}`. -/
def upTo (r : Regex) : ℕ → Regex
  | 0 => empty
  | n + 1 => alt (seq r (upTo r n)) empty

@[simp] theorem mem_ends_empty {c d : Cursor} : d ∈ empty.ends c ↔ d = c := by
  simp [ends]

@[simp] theorem mem_ends_set {p : Char → Bool} {c d : Cursor} :
    d ∈ (set p).ends c ↔ ∃ x, c.after = x :: d.after ∧ p x = true ∧ d.before = x :: c.before := by
  obtain ⟨before, after⟩ := c
  obtain ⟨before', after'⟩ := d
  cases after with
  | nil => simp [ends]
  | cons y after =>
    simp only [ends, List.cons.injEq]
    split_ifs with hy
    · simp only [List.mem_singleton, Cursor.mk.injEq]
      constructor
      · rintro ⟨rfl, rfl⟩
        exact ⟨y, ⟨rfl, rfl⟩, hy, rfl⟩
      · rintro ⟨x, ⟨rfl, rfl⟩, -, rfl⟩
        exact ⟨rfl, rfl⟩
    · simp only [List.not_mem_nil, false_iff]
      rintro ⟨x, ⟨rfl, -⟩, hx, -⟩
      exact hy hx

@[simp] theorem mem_ends_seq {r t : Regex} {c e : Cursor} :
    e ∈ (r.seq t).ends c ↔ ∃ d ∈ r.ends c, e ∈ t.ends d := by
  simp [ends]

@[simp] theorem mem_ends_alt {r t : Regex} {c d : Cursor} :
    d ∈ (r.alt t).ends c ↔ d ∈ r.ends c ∨ d ∈ t.ends c := by
  simp [ends]

@[simp] theorem mem_ends_eos {c d : Cursor} : d ∈ eos.ends c ↔ c.after = [] ∧ d = c := by
  by_cases h : c.after = [] <;> simp [ends, h]

@[simp] theorem mem_ends_notAhead {r : Regex} {c d : Cursor} :
    d ∈ (notAhead r).ends c ↔ (∀ e, e ∉ r.ends c) ∧ d = c := by
  rw [← List.eq_nil_iff_forall_not_mem]
  by_cases h : r.ends c = [] <;> simp [ends, h]

theorem mem_ends_chars {xs : List Char} {c d : Cursor} :
    d ∈ (chars xs).ends c ↔ c.after = xs ++ d.after ∧ d.before = xs.reverse ++ c.before := by
  induction xs generalizing c with
  | nil =>
    obtain ⟨before, after⟩ := c
    obtain ⟨before', after'⟩ := d
    simp only [chars, mem_ends_empty, Cursor.mk.injEq, List.nil_append, List.reverse_nil]
    exact ⟨fun ⟨hb, ha⟩ => ⟨ha.symm, hb⟩, fun ⟨ha, hb⟩ => ⟨hb, ha.symm⟩⟩
  | cons x xs ih =>
    simp only [chars, mem_ends_seq, mem_ends_set, beq_iff_eq, ih, List.reverse_cons,
      List.append_assoc, List.cons_append, List.nil_append]
    constructor
    · rintro ⟨e, ⟨y, hc, rfl, he⟩, hea, hd⟩
      rw [he] at hd
      exact ⟨hea ▸ hc, hd⟩
    · rintro ⟨hc, hd⟩
      exact ⟨⟨x :: c.before, xs ++ d.after⟩, ⟨x, hc, rfl, rfl⟩, rfl, hd⟩

/-- A text matches itself. -/
@[simp] theorem mem_ends_lit {s : String} {c d : Cursor} : d ∈ (lit s).ends c ↔
    c.after = s.toList ++ d.after ∧ d.before = s.toList.reverse ++ c.before :=
  mem_ends_chars

/-- The pattern matches the text from the position on. -/
def Here (r : Regex) (before after : List Char) : Prop := ∃ d, d ∈ r.ends ⟨before, after⟩

@[simp] theorem here_alt {r t : Regex} {before after : List Char} :
    (r.alt t).Here before after ↔ r.Here before after ∨ t.Here before after := by
  simp [Here, exists_or]

@[simp] theorem here_eos {before after : List Char} : eos.Here before after ↔ after = [] := by
  simp [Here]

@[simp] theorem here_notAhead {r : Regex} {before after : List Char} :
    (notAhead r).Here before after ↔ ¬ r.Here before after := by
  simp [Here]

@[simp] theorem here_lit {s : String} {before after : List Char} :
    (lit s).Here before after ↔ ∃ rest, after = s.toList ++ rest := by
  simp only [Here, mem_ends_lit]
  constructor
  · rintro ⟨d, h, -⟩
    exact ⟨d.after, h⟩
  · rintro ⟨rest, h⟩
    exact ⟨⟨s.toList.reverse ++ before, rest⟩, h, rfl⟩

@[simp] theorem here_seq_lit {s : String} {r : Regex} {before after : List Char} :
    ((lit s).seq r).Here before after ↔
      ∃ rest, after = s.toList ++ rest ∧ r.Here (s.toList.reverse ++ before) rest := by
  simp only [Here, mem_ends_seq, mem_ends_lit]
  constructor
  · rintro ⟨e, ⟨before', rest⟩, ⟨h, rfl⟩, he⟩
    exact ⟨rest, h, e, he⟩
  · rintro ⟨rest, h, e, he⟩
    exact ⟨e, ⟨s.toList.reverse ++ before, rest⟩, ⟨h, rfl⟩, he⟩

/-- Past the start, a pattern that starts with `^` has no match. -/
theorem search_bos_cons {r : Regex} (x : Char) (before : List Char) :
    ∀ after, (bos.seq r).search (x :: before) after = false
  | [] => by simp [search, ends]
  | y :: after => by simp [search, ends, search_bos_cons y (x :: before) after]

/-- A pattern that starts with `^` is tried at the start only. -/
theorem test_bos {r : Regex} {s : String} :
    (bos.seq r).test s = true ↔ r.Here [] s.toList := by
  have htest : (bos.seq r).test s = !(r.ends ⟨[], s.toList⟩).isEmpty := by
    unfold test
    cases s.toList with
    | nil => simp [search, ends]
    | cons x after => simp [search, ends, search_bos_cons]
  rw [htest, Bool.not_eq_true', List.isEmpty_eq_false_iff_exists_mem]
  rfl

/-! ## The match that is found -/

/-- The end of the match the search finds from the position, the first it can end at. -/
def first (r : Regex) (c : Cursor) : Option Cursor := (r.ends c).head?

/-- `r?`. -/
def opt (r : Regex) : Regex := alt r empty

/-- `[p]+`, in a text of at most `n` characters. -/
def plus (p : Char → Bool) (n : ℕ) : Regex := seq (set p) (upTo (set p) n)

/-- `(?:s₁|s₂|…)`, of texts. -/
def anyOf : List String → Regex
  | [] => set fun _ => false
  | s :: ss => alt (lit s) (anyOf ss)

theorem first_seq (r t : Regex) (c : Cursor) :
    (r.seq t).first c = (r.ends c).findSome? t.first := by
  rw [first, ends, List.head?_flatMap]
  rfl

theorem first_empty_seq (t : Regex) (c : Cursor) : (empty.seq t).first c = t.first c := by
  rw [first_seq, ends, List.findSome?_singleton]

theorem first_seq_assoc (r t u : Regex) (c : Cursor) :
    ((r.seq t).seq u).first c = (r.seq (t.seq u)).first c := by
  rw [first, first, ends, ends, ends, List.flatMap_assoc]
  rfl

/-- An alternative is tried with what follows. -/
theorem first_alt_seq (r t u : Regex) (c : Cursor) :
    ((r.alt t).seq u).first c = ((r.seq u).first c).or ((t.seq u).first c) := by
  rw [first_seq, ends, List.findSome?_append, first_seq, first_seq]

theorem first_opt_seq (r u : Regex) (c : Cursor) :
    ((opt r).seq u).first c = ((r.seq u).first c).or (u.first c) := by
  rw [opt, first_alt_seq, first_empty_seq]

/-- A repetition goes on where it can, with what follows after it. -/
theorem first_upTo_succ_seq (r u : Regex) (n : ℕ) (c : Cursor) :
    ((upTo r (n + 1)).seq u).first c = ((r.seq ((upTo r n).seq u)).first c).or (u.first c) := by
  rw [upTo, first_alt_seq, first_seq_assoc, first_empty_seq]

theorem first_anyOf_seq (ss : List String) (u : Regex) (c : Cursor) :
    ((anyOf ss).seq u).first c = ss.findSome? fun s => ((lit s).seq u).first c := by
  induction ss with
  | nil =>
    obtain ⟨before, after⟩ := c
    rw [first_seq]
    cases after <;> rfl
  | cons s ss ih =>
    rw [anyOf, first_alt_seq, ih, List.findSome?_cons]
    cases ((lit s).seq u).first c <;> rfl

/-- A text is matched where it stands, and only there. -/
theorem ends_chars (xs : List Char) (before after : List Char) :
    (chars xs).ends ⟨before, after⟩ =
      if xs <+: after then [⟨xs.reverse ++ before, after.drop xs.length⟩] else [] := by
  induction xs generalizing before after with
  | nil => rfl
  | cons x xs ih =>
    cases after with
    | nil => rfl
    | cons y after =>
      rw [chars, ends, ends]
      by_cases hxy : y = x
      · subst hxy
        simp [ih, List.cons_prefix_cons]
      · simp [hxy, List.cons_prefix_cons, Ne.symm hxy]

theorem first_lit_seq (s : String) (t : Regex) (before after : List Char) :
    ((lit s).seq t).first ⟨before, after⟩ =
      if s.toList <+: after then
        t.first ⟨s.toList.reverse ++ before, after.drop s.toList.length⟩
      else none := by
  rw [first_seq, lit, ends_chars]
  split_ifs <;> simp

/-- The position after the longest run of characters that meet `p`. -/
def skip (p : Char → Bool) (c : Cursor) : Cursor :=
  ⟨(c.after.takeWhile p).reverse ++ c.before, c.after.dropWhile p⟩

theorem skip_cons {p : Char → Bool} {before after : List Char} {x : Char} (hx : p x = true) :
    skip p ⟨before, x :: after⟩ = skip p ⟨x :: before, after⟩ := by
  simp [skip, hx]

theorem skip_of_head {p : Char → Bool} {c : Cursor} (h : ∀ x ∈ c.after.head?, p x = false) :
    skip p c = c := by
  obtain ⟨before, after⟩ := c
  cases after with
  | nil => rfl
  | cons x after => simp [skip, h x rfl]

theorem skip_append {p : Char → Bool} {w z : List Char} (hw : ∀ c ∈ w, p c = true)
    (hz : ∀ c ∈ z.head?, p c = false) (before : List Char) :
    skip p ⟨before, w ++ z⟩ = ⟨w.reverse ++ before, z⟩ := by
  induction w generalizing before with
  | nil => exact skip_of_head hz
  | cons c w ih =>
    rw [List.cons_append, skip_cons (hw c List.mem_cons_self),
      ih fun d hd => hw d (List.mem_cons_of_mem c hd)]
    simp

theorem ends_set_cons (p : Char → Bool) (before after : List Char) (x : Char) :
    (set p).ends ⟨before, x :: after⟩ = if p x then [⟨x :: before, after⟩] else [] := rfl

/-- A run is matched at its longest first, and else so that it goes on. -/
theorem ends_upTo_set (p : Char → Bool) {n : ℕ} {c : Cursor} (hn : c.after.length ≤ n) :
    ∃ shorter, (upTo (set p) n).ends c = skip p c :: shorter ∧
      ∀ d ∈ shorter, d.after.head?.any p = true := by
  induction n generalizing c with
  | zero =>
    refine ⟨[], ?_, nofun⟩
    rw [skip_of_head (by simp [List.eq_nil_of_length_eq_zero (Nat.le_zero.1 hn)])]
    rfl
  | succ n ih =>
    obtain ⟨before, after⟩ := c
    cases after with
    | nil => exact ⟨[], rfl, nofun⟩
    | cons x after =>
      have hstep : (upTo (set p) (n + 1)).ends ⟨before, x :: after⟩ =
          (if p x then [⟨x :: before, after⟩] else []).flatMap (upTo (set p) n).ends ++
            [⟨before, x :: after⟩] := rfl
      rw [hstep]
      by_cases hx : p x = true
      · obtain ⟨shorter, hends, hgo⟩ := ih (c := ⟨x :: before, after⟩) (Nat.le_of_succ_le_succ hn)
        refine ⟨shorter ++ [⟨before, x :: after⟩], ?_, fun d hd => ?_⟩
        · rw [if_pos hx, List.flatMap_singleton, hends, skip_cons hx, List.cons_append]
        · rcases List.mem_append.1 hd with hd | hd
          · exact hgo d hd
          · rw [List.mem_singleton.1 hd]
            exact hx
      · refine ⟨[], ?_, nofun⟩
        rw [if_neg hx, skip_of_head (by simpa using hx)]
        rfl

/-- `[p]+` takes the longest run. -/
theorem first_plus {p : Char → Bool} {n : ℕ} {before after : List Char} (hn : after.length ≤ n) :
    (plus p n).first ⟨before, after⟩ =
      if after.head?.any p then some (skip p ⟨before, after⟩) else none := by
  rw [plus, first_seq]
  cases after with
  | nil => simp [ends]
  | cons x after =>
    rw [ends_set_cons]
    by_cases hx : p x = true
    · obtain ⟨shorter, hends, -⟩ := ends_upTo_set p (c := ⟨x :: before, after⟩)
        (Nat.le_of_succ_le hn)
      simp [hx, first, hends, skip_cons]
    · simp [hx]

/-- What follows `[p]+` is tried after the longest run. Where it fails before a character of
the run, it is tried there only. -/
theorem first_plus_seq {p : Char → Bool} {n : ℕ} {t : Regex} {before after : List Char}
    (ht : ∀ c : Cursor, c.after.head?.any p = true → t.first c = none)
    (hn : after.length ≤ n) : ((plus p n).seq t).first ⟨before, after⟩ =
      if after.head?.any p then t.first (skip p ⟨before, after⟩) else none := by
  rw [plus, first_seq_assoc, first_seq]
  cases after with
  | nil => simp [ends]
  | cons x after =>
    rw [ends_set_cons]
    by_cases hx : p x = true
    · obtain ⟨shorter, hends, hgo⟩ := ends_upTo_set p (c := ⟨x :: before, after⟩)
        (Nat.le_of_succ_le hn)
      have hnone : shorter.findSome? t.first = none :=
        List.findSome?_eq_none_iff.2 fun d hd => ht d (hgo d hd)
      rw [if_pos hx, List.findSome?_singleton, first_seq, hends, List.findSome?_cons, hnone,
        List.head?_cons, Option.any_some, if_pos hx, skip_cons hx]
      cases t.first (skip p ⟨x :: before, after⟩) <;> rfl
    · simp [hx]

end Regex
