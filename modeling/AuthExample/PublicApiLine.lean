import AuthExample.PublicApi

/-!
# A line of the public API

`Item.parseLine_text` : what is recorded of an item is the first word that the keyword pattern
leaves before the path, or the last part that the path pattern reads.

`Item.parseLine_eq_name_iff` : an item is recorded under its name exactly when the keyword
pattern reads the words before the path and no segment before the last stops the path pattern,
but for two coincidences of names.
-/

namespace AuthExample

namespace PublicApi

open Regex Scan

/-! ## The keyword pattern -/

section Keyword

variable {n : ℕ} {b : List Char} {w z : List Char}

/-- A keyword followed by a space stands where the identifier characters a text starts with are
the keyword. -/
theorem keyword_iff {kw : String} (hkw : kw ∈ reserved) (hw : ∀ c ∈ w, isName c = true)
    (hz : ∀ c ∈ z.head?, isName c = false) :
    (kw.toList <+: w ++ z ∧ ((w ++ z).drop kw.toList.length).head?.any isSpace = true) ↔
      kw.toList = w ∧ z.head?.any isSpace = true := by
  constructor
  · rintro ⟨⟨y, hy⟩, hspace⟩
    rw [← hy, List.drop_left] at hspace
    have hends : ∀ d ∈ y.head?, isName d = false := by
      intro d hd
      rw [Option.mem_def.1 hd, Option.any_some] at hspace
      by_contra hname
      rw [isSpace_eq_false (Bool.not_eq_false _ ▸ hname)] at hspace
      cases hspace
    have hleft := takeWhile_eq_iff.2 ⟨y, rfl, isName_of_mem_reserved hkw, hends⟩
    have hright := takeWhile_eq_iff.2 ⟨z, rfl, hw, hz⟩
    obtain rfl : kw.toList = w := hleft.symm.trans (by rw [hy, hright])
    exact ⟨rfl, List.append_cancel_left hy ▸ hspace⟩
  · rintro ⟨rfl, hspace⟩
    exact ⟨List.prefix_append _ _, by rwa [List.drop_left]⟩

/-- The text starts with an identifier that is not reserved. -/
def StartsPath (tail : List Char) : Prop :=
  ∃ name z, tail = name ++ z ∧ name ≠ [] ∧ (∀ c ∈ name, isName c = true) ∧
    (∀ c ∈ z.head?, isName c = false) ∧ ∀ kw ∈ reserved, name ≠ kw.toList

/-- Words of word characters. -/
def LegalWords (words : List (List Char)) : Prop :=
  ∀ w ∈ words, w ≠ [] ∧ ∀ c ∈ w, isWord c = true

variable {words : List (List Char)} {path : List Char}

theorem LegalWords.tail (h : LegalWords words) : LegalWords words.tail :=
  fun w hw => h w (List.mem_of_mem_tail hw)

theorem spaced_nil (path : List Char) : Item.spaced [] path = path := rfl

theorem spaced_cons (w : List Char) (words : List (List Char)) (path : List Char) :
    Item.spaced (w :: words) path = w ++ ' ' :: Item.spaced words path := by
  simp [Item.spaced]

/-- Words and a path start with a character of an identifier. -/
theorem isName_head_spaced (hwords : LegalWords words) (hpath : StartsPath path) :
    ∃ c x, Item.spaced words path = c :: x ∧ isName c = true := by
  cases words with
  | nil =>
    obtain ⟨name, z, rfl, hne, hname, -⟩ := hpath
    obtain ⟨c, x, rfl⟩ := List.exists_cons_of_ne_nil hne
    exact ⟨c, x ++ z, rfl, hname c List.mem_cons_self⟩
  | cons w words =>
    obtain ⟨hne, hw⟩ := hwords w List.mem_cons_self
    obtain ⟨c, x, rfl⟩ := List.exists_cons_of_ne_nil hne
    exact ⟨c, _, spaced_cons (c :: x) words path, isName_of_isWord (hw c List.mem_cons_self)⟩

theorem length_spaced_tail_le : (Item.spaced words.tail path).length ≤
    (Item.spaced words path).length := by
  cases words with
  | nil => exact le_refl _
  | cons w words =>
    rw [spaced_cons, List.length_append, List.length_cons]
    exact (Nat.le_succ _).trans (Nat.le_add_left _ _)

/-- A keyword and what follows it, tried on words and a path : it is the first word, or there
is no match. -/
theorem first_keyword_spaced {kw : String} (hkw : kw ∈ reserved) {u : Regex}
    {F : Cursor → Option Cursor}
    (hu : ∀ b after, after.length ≤ n → u.first ⟨b, after⟩ =
      if after.head?.any isSpace = true then F (skip isSpace ⟨b, after⟩) else none)
    (hwords : LegalWords words) (hpath : StartsPath path)
    (hn : (Item.spaced words path).length ≤ n) :
    ((lit kw).seq u).first ⟨b, Item.spaced words path⟩ =
      if words.head? = some kw.toList then
        F ⟨' ' :: (kw.toList.reverse ++ b), Item.spaced words.tail path⟩
      else none := by
  have hdrop : ((Item.spaced words path).drop kw.toList.length).length ≤ n := by
    rw [List.length_drop]
    exact (Nat.sub_le _ _).trans hn
  rw [first_lit_seq, hu _ _ hdrop, ← ite_and]
  cases words with
  | nil =>
    obtain ⟨name, z, rfl, -, hname, hz, hreserved⟩ := hpath
    rw [spaced_nil, if_neg, List.head?_nil, if_neg nofun]
    exact fun h => hreserved kw hkw ((keyword_iff hkw hname hz).1 h).1.symm
  | cons w words =>
    have hw : ∀ c ∈ w, isName c = true := fun c hc =>
      isName_of_isWord ((hwords w List.mem_cons_self).2 c hc)
    obtain ⟨c, x, hspaced, hc⟩ := isName_head_spaced hwords.tail hpath
    rw [List.tail_cons] at hspaced
    by_cases hsame : kw.toList = w
    · subst hsame
      have hskip : skip isSpace ⟨kw.toList.reverse ++ b, ' ' :: c :: x⟩ =
          ⟨' ' :: (kw.toList.reverse ++ b), c :: x⟩ := by
        rw [skip_cons (by decide), skip_of_head]
        rintro d ⟨⟩
        exact isSpace_eq_false hc
      rw [spaced_cons, if_pos, List.head?_cons, if_pos rfl, List.tail_cons, List.drop_left, hspaced,
        hskip]
      exact (keyword_iff hkw hw (by rintro d ⟨⟩; decide)).2 ⟨rfl, rfl⟩
    · rw [spaced_cons, if_neg, List.head?_cons, if_neg fun h => hsame (Option.some.inj h).symm]
      exact fun h => hsame ((keyword_iff hkw hw (by rintro d ⟨⟩; decide)).1 h).1

/-- No keyword starts with a space. -/
theorem first_keyword_of_space {kw : String} (hkw : kw ∈ reserved) (u : Regex) {c : Cursor}
    (hc : c.after.head?.any isSpace = true) : ((lit kw).seq u).first c = none := by
  have hne : ∀ kw ∈ reserved, kw.toList ≠ [] := by decide
  obtain ⟨before, after⟩ := c
  rw [first_lit_seq, if_neg]
  rintro ⟨y, rfl⟩
  obtain ⟨d, z, hd⟩ := List.exists_cons_of_ne_nil (hne kw hkw)
  have hname := isName_of_mem_reserved hkw d (hd ▸ List.mem_cons_self)
  rw [hd, List.cons_append, List.head?_cons, Option.any_some, isSpace_eq_false hname] at hc
  cases hc

theorem first_anyOf_of_space {kws : List String} (hkws : ∀ kw ∈ kws, kw ∈ reserved) (u : Regex)
    {c : Cursor} (hc : c.after.head?.any isSpace = true) :
    ((anyOf kws).seq u).first c = none := by
  rw [first_anyOf_seq, List.findSome?_eq_none_iff]
  exact fun kw hkw => first_keyword_of_space (hkws kw hkw) _ hc

theorem first_opt_of_space {kw : String} (hkw : kw ∈ reserved) {u r : Regex} {c : Cursor}
    (hr : r.first c = none) (hc : c.after.head?.any isSpace = true) :
    ((opt ((lit kw).seq u)).seq r).first c = none := by
  rw [first_opt_seq, first_seq_assoc, first_keyword_of_space hkw _ hc, hr]
  rfl

/-- What the alternatives of a list of keywords leave. -/
theorem after_anyOf {kws : List String} (hkws : ∀ kw ∈ kws, kw ∈ reserved)
    (hwords : LegalWords words) (hpath : StartsPath path)
    (hn : (Item.spaced words path).length ≤ n) (b : List Char) :
    (((anyOf kws).seq (plus isSpace n)).first ⟨b, Item.spaced words path⟩).map Cursor.after =
      if ∃ kw ∈ kws, words.head? = some kw.toList then some (Item.spaced words.tail path)
      else none := by
  rw [first_anyOf_seq]
  induction kws with
  | nil => rfl
  | cons kw kws ih =>
    rw [List.findSome?_cons, first_keyword_spaced (F := some) (hkws kw List.mem_cons_self)
      (fun _ _ => first_plus) hwords hpath hn]
    by_cases hhead : words.head? = some kw.toList
    · rw [if_pos hhead, if_pos ⟨kw, List.mem_cons_self, hhead⟩]
      rfl
    · have hrest : (∃ kw' ∈ kw :: kws, words.head? = some kw'.toList) ↔
          ∃ kw' ∈ kws, words.head? = some kw'.toList := by
        simp [hhead]
      rw [if_neg hhead, if_congr hrest rfl rfl]
      exact ih fun kw hkw => hkws kw (List.mem_cons_of_mem _ hkw)

/-- What a keyword that may be missing, and then `r`, leave. -/
theorem after_opt {kw : String} (hkw : kw ∈ reserved) {r : Regex}
    {f : List (List Char) → Option (List (List Char))}
    (hr : ∀ words, LegalWords words → (Item.spaced words path).length ≤ n → ∀ b,
      (r.first ⟨b, Item.spaced words path⟩).map Cursor.after =
        (f words).map (Item.spaced · path))
    (hspace : ∀ c : Cursor, c.after.head?.any isSpace = true → r.first c = none)
    (hnone : ∀ words, words.head? = some kw.toList → f words = none)
    (hwords : LegalWords words) (hpath : StartsPath path)
    (hn : (Item.spaced words path).length ≤ n) (b : List Char) :
    (((opt ((lit kw).seq (plus isSpace n))).seq r).first ⟨b, Item.spaced words path⟩).map
        Cursor.after = (f (dropWord kw words)).map (Item.spaced · path) := by
  rw [first_opt_seq, first_seq_assoc, first_keyword_spaced (F := r.first) hkw
    (fun _ _ => first_plus_seq hspace) hwords hpath hn, Option.map_or, hr words hwords hn, dropWord]
  by_cases hhead : words.head? = some kw.toList
  · rw [if_pos hhead, if_pos hhead, hnone words hhead,
      hr words.tail hwords.tail (length_spaced_tail_le.trans hn), Option.map_none, Option.or_none]
  · rw [if_neg hhead, if_neg hhead, Option.map_none, Option.none_or]

theorem mem_reserved : ∀ kw ∈ itemKeywords, kw ∈ reserved := by decide

theorem not_hasKeyword {word : String} (hword : ∀ kw ∈ itemKeywords, word.toList ≠ kw.toList)
    (hhead : words.head? = some word.toList) : ¬HasKeyword words := by
  rintro ⟨kw, hkw, heq⟩
  exact hword kw hkw (Option.some.inj (hhead.symm.trans heq))

/-- What the keyword pattern leaves, once it has matched `pub`. -/
theorem after_keyword (hwords : LegalWords words) (hpath : StartsPath path)
    (hn : (Item.spaced words path).length ≤ n) (b : List Char) :
    (((opt ((lit "unsafe").seq (plus isSpace n))).seq <|
      (opt ((lit "async").seq (plus isSpace n))).seq <|
      (anyOf itemKeywords).seq (plus isSpace n)).first ⟨b, Item.spaced words path⟩).map
        Cursor.after =
      if HasKeyword (dropWord "async" (dropWord "unsafe" words)) then
        some (Item.spaced (dropWord "async" (dropWord "unsafe" words)).tail path)
      else none := by
  have hf : ∀ words : List (List Char), (if HasKeyword words then some words.tail else none).map
      (Item.spaced · path) =
        if HasKeyword words then some (Item.spaced words.tail path) else none := by
    intro words
    split_ifs <;> rfl
  rw [after_opt (f := fun words => if HasKeyword (dropWord "async" words) then
    some (dropWord "async" words).tail else none) (by decide) ?_
    (fun c hc => first_opt_of_space (by decide) (first_anyOf_of_space mem_reserved _ hc) hc) ?_
    hwords hpath hn b]
  · exact hf _
  · intro words hwords hn b
    rw [after_opt (f := fun words => if HasKeyword words then some words.tail else none)
      (by decide) ?_ (fun c hc => first_anyOf_of_space mem_reserved _ hc) ?_ hwords hpath hn b]
    · intro words hwords hn b
      rw [after_anyOf mem_reserved hwords hpath hn, hf]
      rfl
    · exact fun words hhead => if_neg (not_hasKeyword (by decide) hhead)
  · intro words hhead
    have hsame : dropWord "async" words = words := by
      rw [dropWord, hhead]
      exact if_neg (by decide)
    rw [hsame]
    exact if_neg (not_hasKeyword (by decide) hhead)

theorem length_spaced_dropWord_le (kw : String) : (Item.spaced (dropWord kw words) path).length ≤
    (Item.spaced words path).length := by
  rw [dropWord]
  split_ifs
  · exact length_spaced_tail_le
  · exact le_refl _

/-- What the keyword pattern leaves of a line. -/
theorem after_keywordRe (hwords : LegalWords words) (hpath : StartsPath path)
    (hn : ("pub ".toList ++ Item.spaced words path).length ≤ n) :
    ((keywordRe n).first ⟨[], "pub ".toList ++ Item.spaced words path⟩).map Cursor.after =
      if HasKeyword (dropWord "async" (dropWord "unsafe" words)) then
        some (Item.spaced (dropWord "async" (dropWord "unsafe" words)).tail path)
      else none := by
  have htext : "pub ".toList ++ Item.spaced words path =
      "pub".toList ++ ' ' :: Item.spaced words path := rfl
  rw [htext, List.length_append, List.length_cons] at hn
  obtain ⟨c, x, hhead, hc⟩ := isName_head_spaced hwords hpath
  rw [htext, keywordRe, first_lit_seq, if_pos (List.prefix_append _ _), List.drop_left,
    first_plus_seq (fun c hc => first_opt_of_space (by decide) (first_opt_of_space (by decide)
      (first_anyOf_of_space mem_reserved _ hc) hc) hc) (by rw [List.length_cons]; omega),
    if_pos (show Option.any isSpace (' ' :: _).head? = true from rfl), skip_cons (by decide),
    skip_of_head,
    after_keyword hwords hpath (by omega)]
  rw [hhead]
  rintro d ⟨⟩
  exact isSpace_eq_false hc

/-- The line without `pub` and without the words the keyword pattern reads. -/
theorem withoutPub_eq (hwords : LegalWords words) (hpath : StartsPath path) {trimmed : List Char}
    (htrimmed : trimmed = "pub ".toList ++ Item.spaced words path) :
    (if replaceKeyword trimmed = trimmed then trimmed.drop "pub ".toList.length
      else replaceKeyword trimmed) = Item.spaced (unread words) path := by
  have hfirst := after_keywordRe (n := trimmed.length) hwords hpath (htrimmed ▸ le_refl _)
  rw [← htrimmed] at hfirst
  rw [replaceKeyword, unread]
  by_cases hkw : HasKeyword (dropWord "async" (dropWord "unsafe" words))
  · rw [if_pos hkw] at hfirst
    obtain ⟨c, hc, hafter⟩ := Option.map_eq_some_iff.1 hfirst
    have hlt : c.after.length < trimmed.length := by
      rw [hafter, htrimmed, List.length_append]
      refine lt_of_le_of_lt (length_spaced_tail_le.trans ((length_spaced_dropWord_le _).trans
        (length_spaced_dropWord_le _))) (Nat.lt_add_of_pos_left (by decide))
    rw [hc, Option.elim_some, if_neg fun h => hlt.ne (congrArg List.length h), if_pos hkw, hafter]
  · rw [if_neg hkw] at hfirst
    rw [Option.map_eq_none_iff.1 hfirst, Option.elim_none, if_pos rfl, if_neg hkw, htrimmed,
      List.drop_left]

end Keyword

/-! ## The path pattern -/

section Path

variable {n k : ℕ} {b w z : List Char}

/-- The path pattern, with `k` segments at most before the last it reads. -/
def pathUpTo (n k : ℕ) : Regex :=
  (upTo ((plus isWord n).seq (lit "::")) k).seq (plus isWord n)

theorem exists_head_append (hw : ∀ c ∈ w, isWord c = true) (hz : ∀ c ∈ z.head?, isWord c = false) :
    (w ++ z).head?.any isWord = true ↔ w ≠ [] := by
  cases w with
  | nil =>
    refine iff_of_false ?_ fun h => h rfl
    cases z with
    | nil => nofun
    | cons c z => simp [hz c rfl]
  | cons c w => exact iff_of_true (hw c List.mem_cons_self) (List.cons_ne_nil c w)

/-- The last segment that is read. -/
theorem first_lastSegment (hw : ∀ c ∈ w, isWord c = true) (hz : ∀ c ∈ z.head?, isWord c = false)
    (hn : (w ++ z).length ≤ n) :
    (plus isWord n).first ⟨b, w ++ z⟩ = if w = [] then none else some ⟨w.reverse ++ b, z⟩ := by
  rw [first_plus hn, if_congr (exists_head_append hw hz) rfl rfl, skip_append hw hz, ite_not]

/-- A segment is read, and the rest of the path where `::` follows and a word after it. -/
theorem first_pathUpTo_succ (hw : ∀ c ∈ w, isWord c = true)
    (hz : ∀ c ∈ z.head?, isWord c = false) (hn : (w ++ z).length ≤ n) :
    (pathUpTo n (k + 1)).first ⟨b, w ++ z⟩ =
      if w = [] then none
      else (if "::".toList <+: z then
        (pathUpTo n k).first ⟨"::".toList.reverse ++ (w.reverse ++ b), z.drop 2⟩
          else none).or (some ⟨w.reverse ++ b, z⟩) := by
  have hlit : ∀ c : Cursor, c.after.head?.any isWord = true →
      ((lit "::").seq (pathUpTo n k)).first c = none := by
    rintro ⟨before, after⟩ hword
    rw [first_lit_seq, if_neg]
    rintro ⟨y, rfl⟩
    exact Bool.false_ne_true hword
  rw [pathUpTo, first_upTo_succ_seq, first_lastSegment hw hz hn, first_seq_assoc, ← pathUpTo,
    first_plus_seq hlit hn, if_congr (exists_head_append hw hz) rfl rfl, skip_append hw hz,
    first_lit_seq, ite_not]
  split_ifs <;> rfl

theorem pathText_singleton (s : Segment) (rest : List Char) :
    Item.pathText [s] rest = s.name ++ (s.generics ++ rest) := by
  simp [Item.pathText]

theorem pathText_cons_cons (s s' : Segment) (segments : List Segment) (rest : List Char) :
    Item.pathText (s :: s' :: segments) rest =
      s.name ++ (s.generics ++ ("::".toList ++ Item.pathText (s' :: segments) rest)) := by
  simp [Item.pathText, List.intercalate_cons_cons]

/-- What follows an identifier in a path does not go on with it. -/
theorem Segment.head_generics (s : Segment) {y : List Char}
    (hy : ∀ c ∈ y.head?, isName c = false) : ∀ c ∈ (s.generics ++ y).head?, isName c = false := by
  rcases s.genericsLegal with hnil | ⟨args, hargs⟩
  · rwa [hnil]
  · rw [hargs]
    rintro c ⟨⟩
    decide

/-- Where a segment is not plain the pattern reads its start, and no `::` follows that. -/
theorem Segment.stops (s : Segment) (hplain : ¬s.Plain) (y : List Char) :
    ∃ z, s.name ++ (s.generics ++ y) = s.start ++ z ∧ (∀ c ∈ z.head?, isWord c = false) ∧
      ¬"::".toList <+: z := by
  obtain ⟨more, hname, hstart, hhead⟩ := takeWhile_eq_iff.1 (rfl : s.name.takeWhile isWord = _)
  cases more with
  | nil =>
    rw [List.append_nil] at hname
    rcases s.genericsLegal with hnil | ⟨args, hargs⟩
    · exact absurd ⟨hname ▸ hstart, hnil⟩ hplain
    · refine ⟨s.generics ++ y, congrArg (· ++ _) hname, ?_, ?_⟩
      · rw [hargs]
        rintro c ⟨⟩
        decide
      · rw [hargs]
        simp
  | cons c more =>
    have hc : isName c = true := s.nameLegal c (hname ▸ by simp)
    refine ⟨c :: (more ++ (s.generics ++ y)), ?_, fun d hd => hhead d hd, ?_⟩
    · conv_lhs => rw [hname]
      simp [Segment.start]
    · rintro ⟨x, hx⟩
      obtain ⟨rfl, -⟩ := List.cons.inj hx
      cases hc

/-- Where the first segment is not plain the pattern reads its start, if it has one. -/
theorem first_pathText_of_not_plain {s : Segment} (hplain : ¬s.Plain) (segments : List Segment)
    (rest : List Char) (hn : (Item.pathText (s :: segments) rest).length ≤ n) (b : List Char) :
    (pathUpTo n (k + 1)).first ⟨b, Item.pathText (s :: segments) rest⟩ =
        none ∧ s.start = [] ∨
      ((pathUpTo n (k + 1)).first ⟨b, Item.pathText (s :: segments) rest⟩).map Cursor.before =
        some (s.start.reverse ++ b) ∧ s.start ≠ [] := by
  have hstart : ∀ c ∈ s.start, isWord c = true := fun c hc => List.mem_takeWhile_imp hc
  obtain ⟨y, hy⟩ : ∃ y, Item.pathText (s :: segments) rest = s.name ++ (s.generics ++ y) := by
    cases segments with
    | nil => exact ⟨_, pathText_singleton s rest⟩
    | cons s' segments => exact ⟨_, pathText_cons_cons s s' segments rest⟩
  obtain ⟨z, hz, hhead, hno⟩ := s.stops hplain y
  rw [hy, hz] at hn ⊢
  rw [first_pathUpTo_succ hstart hhead hn, if_neg hno]
  by_cases hempty : s.start = []
  · exact Or.inl ⟨if_pos hempty, hempty⟩
  · rw [if_neg hempty]
    exact Or.inr ⟨rfl, hempty⟩

/-- The path pattern reads the parts of a path. -/
theorem first_pathText {segments : List Segment} (hne : segments ≠ []) {rest : List Char}
    (hrest : (∀ c ∈ rest.head?, isName c = false) ∧ ¬"::".toList <+: rest)
    (hn : (Item.pathText segments rest).length ≤ n) (hk : segments.length ≤ k) (b : List Char) :
    ((pathUpTo n k).first ⟨b, Item.pathText segments rest⟩).map Cursor.before =
      if readParts segments = [] then none
      else some (("::".toList.intercalate (readParts segments)).reverse ++ b) := by
  induction segments generalizing k b with
  | nil => exact absurd rfl hne
  | cons s segments ih =>
    obtain ⟨k, rfl⟩ := Nat.exists_eq_add_one.2 ((Nat.succ_pos _).trans_le hk)
    rw [readParts]
    by_cases hplain : s.Plain
    · rw [if_pos hplain, if_neg (List.cons_ne_nil _ _)]
      cases segments with
      | nil =>
        rw [pathText_singleton, hplain.2, List.nil_append] at hn ⊢
        rw [first_pathUpTo_succ hplain.1 (fun c hc => isWord_eq_false (hrest.1 c hc)) hn,
          if_neg s.name_ne, if_neg hrest.2]
        simp [readParts]
      | cons s' segments =>
        rw [pathText_cons_cons, hplain.2, List.nil_append] at hn ⊢
        have htail : (Item.pathText (s' :: segments) rest).length ≤ n := by
          simp only [List.length_append] at hn
          omega
        rw [first_pathUpTo_succ hplain.1 (by rintro c ⟨⟩; decide) hn, if_neg s.name_ne,
          if_pos (List.prefix_append _ _), Option.map_or]
        have hdrop : ("::".toList ++ Item.pathText (s' :: segments) rest).drop 2 =
          Item.pathText (s' :: segments) rest := rfl
        rw [hdrop, ih (List.cons_ne_nil _ _) htail (Nat.le_of_succ_le_succ hk)]
        cases readParts (s' :: segments) with
        | nil => simp
        | cons part parts => simp [List.intercalate_cons_cons]
    · rw [if_neg hplain]
      rcases first_pathText_of_not_plain hplain segments rest hn b with ⟨h, hempty⟩ | ⟨h, hempty⟩
      · rw [h, if_pos hempty, if_pos rfl]
        rfl
      · rw [h, if_neg hempty, if_neg (List.cons_ne_nil _ _)]
        simp

theorem length_le_pathText (segments : List Segment) (rest : List Char) :
    segments.length ≤ (Item.pathText segments rest).length := by
  induction segments with
  | nil => exact Nat.zero_le _
  | cons s segments ih =>
    have hpos := List.length_pos_iff.2 s.name_ne
    cases segments with
    | nil =>
      rw [pathText_singleton, List.length_append, List.length_singleton]
      omega
    | cons s' segments =>
      rw [pathText_cons_cons]
      simp only [List.length_append, List.length_cons] at ih ⊢
      omega

/-- The parts are words. -/
theorem word_of_mem_readParts {segments : List Segment} {part : List Char}
    (h : part ∈ readParts segments) : part ≠ [] ∧ ∀ c ∈ part, isWord c = true := by
  induction segments with
  | nil => cases h
  | cons s segments ih =>
    rw [readParts] at h
    split_ifs at h with hplain hempty
    · rcases List.mem_cons.1 h with rfl | h
      · exact ⟨s.name_ne, hplain.1⟩
      · exact ih h
    · cases h
    · rw [List.mem_singleton.1 h]
      exact ⟨hempty, fun c hc => List.mem_takeWhile_imp hc⟩

/-- The name is the last of the parts that the pattern reads. -/
theorem shortName_of_first {withoutPub : List Char} {parts : List (List Char)} (hne : parts ≠ [])
    (hparts : ∀ part ∈ parts, part ≠ [] ∧ ∀ c ∈ part, isWord c = true)
    (h : ((pathRe withoutPub.length).first ⟨[], withoutPub⟩).map Cursor.before =
      some (("::".toList.intercalate parts).reverse ++ [])) :
    shortName withoutPub = parts.getLast? := by
  obtain ⟨c, hc, hbefore⟩ := Option.map_eq_some_iff.1 h
  have hsplit : splitAll "::".toList 0 ("::".toList.intercalate parts) = parts :=
    splitAll_intercalate hne fun part hpart hcolon =>
      absurd ((hparts part hpart).2 ':' hcolon) (by decide)
  obtain ⟨name, hname⟩ : ∃ name, parts.getLast? = some name :=
    ⟨_, List.getLast?_eq_some_getLast hne⟩
  have hfull : name.isEmpty = false := by
    rw [List.isEmpty_eq_false_iff]
    exact (hparts name (List.mem_of_getLast? hname)).1
  have hlast : shortName withoutPub = (splitAll "::".toList 0 c.before.reverse).getLast?.bind
      fun name => if name.isEmpty then none else some name := by
    rw [shortName, hc]
    rfl
  rw [hlast, hbefore, List.append_nil, List.reverse_reverse, hsplit, hname, Option.bind_some, hfull]
  rfl

/-- A word that is left is the name. -/
theorem shortName_word (hne : w ≠ []) (hw : ∀ c ∈ w, isWord c = true) (y : List Char) :
    shortName (w ++ ' ' :: y) = some w := by
  have hpos : (w ++ ' ' :: y).length = (w.length + y.length) + 1 := by
    rw [List.length_append, List.length_cons]
    rfl
  refine shortName_of_first (List.cons_ne_nil w []) (by simpa using ⟨hne, hw⟩) ?_
  have hfirst := first_pathUpTo_succ (k := w.length + y.length) (b := []) hw
    (z := ' ' :: y) (by rintro c ⟨⟩; decide) (le_refl _)
  rw [← hpos] at hfirst
  rw [pathRe, ← pathUpTo, hfirst, if_neg hne, if_neg (by simp)]
  simp

/-- The name of a path. -/
theorem shortName_pathText {segments : List Segment} (hne : segments ≠ []) {rest : List Char}
    (hrest : (∀ c ∈ rest.head?, isName c = false) ∧ ¬"::".toList <+: rest) :
    shortName (Item.pathText segments rest) = (readParts segments).getLast? := by
  have hfirst := first_pathText hne hrest (le_refl _) (length_le_pathText segments rest) []
  by_cases hparts : readParts segments = []
  · rw [if_pos hparts] at hfirst
    have hnone : (pathRe (Item.pathText segments rest).length).first
        ⟨[], Item.pathText segments rest⟩ = none := Option.map_eq_none_iff.1 hfirst
    rw [shortName, hnone, hparts]
    rfl
  · rw [if_neg hparts] at hfirst
    exact shortName_of_first hparts (fun part => word_of_mem_readParts) hfirst

end Path

/-! ## A line -/

namespace Item

variable (i : Item)

theorem segments_ne : i.segments ≠ [] := List.append_ne_nil_of_right_ne_nil _ (List.cons_ne_nil _ _)

/-- The last character before the rest is no space. -/
theorem exists_pathText_eq (segments : List Segment) (last : Segment) :
    ∃ x c, pathText (segments ++ [last]) [] = x ++ [c] ∧ isSpace c = false := by
  obtain ⟨y, hy⟩ : ∃ y, pathText (segments ++ [last]) [] = y ++ (last.name ++ last.generics) := by
    induction segments with
    | nil => exact ⟨[], by simp [pathText]⟩
    | cons s segments ih =>
      obtain ⟨y, hy⟩ := ih
      obtain ⟨s', more, hmore⟩ := List.exists_cons_of_ne_nil
        (List.append_ne_nil_of_right_ne_nil segments (List.cons_ne_nil last []))
      rw [List.cons_append, hmore, pathText_cons_cons, ← hmore, hy]
      exact ⟨s.name ++ (s.generics ++ ("::".toList ++ y)), by simp⟩
  rw [hy]
  rcases last.genericsLegal with hnil | ⟨args, hargs⟩
  · obtain ⟨x, c, hname⟩ := (List.eq_nil_or_concat last.name).resolve_left last.name_ne
    rw [List.concat_eq_append] at hname
    refine ⟨y ++ x, c, by rw [hnil, hname]; simp, isSpace_eq_false (last.nameLegal c ?_)⟩
    rw [hname]
    simp
  · exact ⟨y ++ (last.name ++ '<' :: args), '>', by rw [hargs]; simp, by decide⟩

/-- Trimming cuts the spaces at the end of the rest. -/
theorem trim_text : trim isSpace i.text = i.decorator ++ ("pub ".toList ++
    spaced i.words (pathText i.segments (i.rest.rdropWhile isSpace))) := by
  obtain ⟨cut, hrest, hcut, hlast⟩ := rdropWhile_eq_iff.1 (rfl : i.rest.rdropWhile isSpace = _)
  obtain ⟨x, c, hpath, hc⟩ := exists_pathText_eq i.init i.last
  have hsplit : ∀ y, pathText i.segments y = x ++ [c] ++ y := by
    intro y
    rw [← hpath]
    simp [pathText, segments]
  refine trim_eq_iff.2 ⟨[], cut, ?_, nofun, hcut, ?_, ?_⟩
  · conv_lhs => rw [text, hsplit, hrest]
    rw [hsplit]
    simp [spaced]
  · cases hd : i.decorator with
    | nil =>
      rintro d ⟨⟩
      decide
    | cons d more =>
      rintro e ⟨⟩
      rw [i.decoratorLegal d (by rw [hd]; rfl)]
      decide
  · rw [hsplit, spaced]
    simp only [← List.append_assoc]
    rcases List.eq_nil_or_concat (i.rest.rdropWhile isSpace) with hnil | ⟨y, d, hy⟩
    · rw [hnil, List.append_nil, List.getLast?_concat]
      rintro e ⟨⟩
      exact hc
    · rw [List.concat_eq_append] at hy
      rw [hy] at hlast ⊢
      rw [List.getLast?_concat] at hlast
      rw [← List.append_assoc, List.getLast?_concat]
      exact hlast

/-- What is left of the rest still ends the path. -/
theorem rest_ends : (∀ c ∈ (i.rest.rdropWhile isSpace).head?, isName c = false) ∧
    ¬"::".toList <+: i.rest.rdropWhile isSpace := by
  have hprefix : i.rest.rdropWhile isSpace <+: i.rest :=
    List.rdropWhile_prefix (p := isSpace) i.rest
  refine ⟨fun c hc => i.restEnds.1 c ?_, fun h => i.restEnds.2 (h.trans hprefix)⟩
  obtain ⟨y, hy⟩ := hprefix
  rw [← hy, List.head?_append, hc]
  rfl

theorem startsPath {segments : List Segment} (hne : segments ≠ []) {rest : List Char}
    (hrest : ∀ c ∈ rest.head?, isName c = false) : StartsPath (pathText segments rest) := by
  obtain ⟨s, more, rfl⟩ := List.exists_cons_of_ne_nil hne
  cases more with
  | nil => exact ⟨s.name, _, pathText_singleton s rest, s.name_ne, s.nameLegal,
      s.head_generics hrest, s.notReserved⟩
  | cons s' more => exact ⟨s.name, _, pathText_cons_cons s s' more rest, s.name_ne, s.nameLegal,
      s.head_generics (by rintro c ⟨⟩; decide), s.notReserved⟩

theorem legalWords_unread {words : List (List Char)} (h : LegalWords words) :
    LegalWords (unread words) := by
  have hdrop : ∀ (kw : String) (words : List (List Char)), LegalWords words →
      LegalWords (dropWord kw words) := by
    intro kw words h
    rw [dropWord]
    split_ifs
    · exact h.tail
    · exact h
  rw [unread]
  split_ifs
  · exact (hdrop _ _ (hdrop _ _ h)).tail
  · exact h

/-- What the script records for the line of an item : the first word that the keyword pattern
leaves, else the last part that the path pattern reads. -/
theorem parseLine_text : parseLine i.text =
    if i.decorator = [] then
      (unread i.words).head?.or (readParts i.segments).getLast?
    else none := by
  rw [parseLine, trim_text]
  by_cases hd : i.decorator = []
  · have hpath := startsPath i.segments_ne i.rest_ends.1
    rw [if_pos hd, hd, List.nil_append,
      if_pos (List.isPrefixOf_iff_prefix.2 (List.prefix_append _ _))]
    refine (congrArg shortName (withoutPub_eq i.wordsLegal hpath rfl)).trans ?_
    cases hleft : unread i.words with
    | nil => rw [spaced_nil, shortName_pathText i.segments_ne i.rest_ends]; rfl
    | cons w words =>
      have hw := legalWords_unread i.wordsLegal w (hleft ▸ List.mem_cons_self)
      rw [spaced_cons, shortName_word hw.1 hw.2]
      rfl
  · rw [if_neg hd, if_neg]
    obtain ⟨c, more, hcons⟩ := List.exists_cons_of_ne_nil hd
    have hhash : c = '#' := i.decoratorLegal c (by rw [hcons]; rfl)
    rw [hcons, hhash]
    simp [List.isPrefixOf]

/-! ## Items recorded under their names -/

/-- The path pattern gets to the name : the last identifier is a word, and where a segment
before it stops the pattern, what is read there is the same, the start of that segment or,
where it has none, the identifier before it. -/
def PathRead : Prop :=
  (∀ c ∈ i.name, isWord c = true) ∧
    ∀ pre s post, i.init = pre ++ s :: post → (∀ t ∈ pre, t.Plain) → ¬s.Plain →
      (if s.start = [] then pre.getLast?.map Segment.name else some s.start) = some i.name

/-- The item is recorded under its name : its line starts with `pub`, and the keyword pattern
reads all the words and the path pattern gets to the name, or the first word left is the
name. -/
def Named : Prop :=
  i.decorator = [] ∧
    (unread i.words = [] ∧ i.PathRead ∨ (unread i.words).head? = some i.name)

end Item

theorem readParts_append {pre : List Segment} (hpre : ∀ t ∈ pre, t.Plain)
    (segments : List Segment) :
    readParts (pre ++ segments) = pre.map Segment.name ++ readParts segments := by
  induction pre with
  | nil => rfl
  | cons s pre ih =>
    rw [List.cons_append, readParts, if_pos (hpre s List.mem_cons_self),
      ih fun t ht => hpre t (List.mem_cons_of_mem s ht)]
    rfl

/-- All segments are plain, or there is a first one that is not. -/
theorem plain_or_exists_first (segments : List Segment) : (∀ s ∈ segments, s.Plain) ∨
    ∃ pre s post, segments = pre ++ s :: post ∧ (∀ t ∈ pre, t.Plain) ∧ ¬s.Plain := by
  induction segments with
  | nil => exact Or.inl nofun
  | cons s segments ih =>
    by_cases hs : s.Plain
    · rcases ih with hall | ⟨pre, s', post, rfl, hpre, hs'⟩
      · exact Or.inl (List.forall_mem_cons.2 ⟨hs, hall⟩)
      · exact Or.inr ⟨s :: pre, s', post, rfl, List.forall_mem_cons.2 ⟨hs, hpre⟩, hs'⟩
    · exact Or.inr ⟨[], s, segments, rfl, nofun, hs⟩

/-- What is read up to the first segment that is not plain. -/
theorem getLast?_readParts_first {pre : List Segment} {s : Segment} (hpre : ∀ t ∈ pre, t.Plain)
    (hs : ¬s.Plain) (post : List Segment) : (readParts (pre ++ s :: post)).getLast? =
      if s.start = [] then pre.getLast?.map Segment.name else some s.start := by
  rw [readParts_append hpre, readParts, if_neg hs]
  split_ifs with hempty
  · rw [List.append_nil, List.getLast?_map]
  · rw [List.getLast?_concat]

/-- The last part that is read is the name exactly when the pattern gets to it. -/
theorem Item.getLast?_readParts_iff (i : Item) :
    (readParts i.segments).getLast? = some i.name ↔ i.PathRead := by
  have hfirst : ∀ pre s post, i.init = pre ++ s :: post → (∀ t ∈ pre, t.Plain) → ¬s.Plain →
      (readParts i.segments).getLast? =
        if s.start = [] then pre.getLast?.map Segment.name else some s.start := by
    intro pre s post hinit hpre hs
    rw [segments, hinit, List.append_assoc, List.cons_append, getLast?_readParts_first hpre hs]
  constructor
  · intro h
    refine ⟨(word_of_mem_readParts (List.mem_of_getLast? h)).2, fun pre s post hinit hpre hs => ?_⟩
    rw [← hfirst pre s post hinit hpre hs, h]
  · rintro ⟨hword, hread⟩
    rcases plain_or_exists_first i.init with hall | ⟨pre, s, post, hinit, hpre, hs⟩
    · have hstart : i.last.start = i.last.name := List.takeWhile_eq_self_iff.2 hword
      have hlast : readParts [i.last] = [i.name] := by
        rw [readParts, hstart, if_neg i.last.name_ne]
        split_ifs <;> rfl
      rw [segments, readParts_append hall, hlast, List.getLast?_concat]
    · rw [hfirst pre s post hinit hpre hs]
      exact hread pre s post hinit hpre hs

/-- The script records an item under its name exactly where it is `Named`. -/
theorem Item.parseLine_eq_name_iff (i : Item) : parseLine i.text = some i.name ↔ i.Named := by
  rw [parseLine_text, Named, ← getLast?_readParts_iff]
  by_cases hd : i.decorator = []
  · rw [if_pos hd, and_iff_right hd]
    cases unread i.words with
    | nil => simp
    | cons w words => simp
  · rw [if_neg hd]
    exact iff_of_false nofun fun h => hd h.1

theorem dropWord_eq_iff {kw : String} {words rest : List (List Char)} :
    dropWord kw words = rest ↔
      words = kw.toList :: rest ∨ words = rest ∧ words.head? ≠ some kw.toList := by
  rw [dropWord]
  cases words with
  | nil => simp
  | cons w words =>
    by_cases hw : w = kw.toList
    · simp [hw]
    · simp [hw]

/-- The words that the keyword pattern reads to the end : none, or an item keyword after
`unsafe`, `async`, both in this order, or neither. -/
theorem unread_eq_nil_iff {words : List (List Char)} :
    unread words = [] ↔ words = [] ∨ ∃ kw ∈ itemKeywords,
      words ∈ [[kw.toList], ["unsafe".toList, kw.toList], ["async".toList, kw.toList],
        ["unsafe".toList, "async".toList, kw.toList]] := by
  constructor
  · intro h
    rw [unread] at h
    split_ifs at h with hrest
    · obtain ⟨kw, hkw, hhead⟩ := hrest
      have hone := List.eq_cons_of_mem_head? hhead
      rw [h] at hone
      refine Or.inr ⟨kw, hkw, ?_⟩
      rcases dropWord_eq_iff.1 hone with hasync | ⟨hasync, -⟩ <;>
        rcases dropWord_eq_iff.1 hasync with hall | ⟨hall, -⟩ <;>
        simp [hall]
    · exact Or.inl h
  · have hread : ∀ kw ∈ itemKeywords,
        ∀ words ∈ [[kw.toList], ["unsafe".toList, kw.toList], ["async".toList, kw.toList],
          ["unsafe".toList, "async".toList, kw.toList]], unread words = [] := by decide
    rintro (rfl | ⟨kw, hkw, hwords⟩)
    · rfl
    · exact hread kw hkw words hwords

end PublicApi

end AuthExample
