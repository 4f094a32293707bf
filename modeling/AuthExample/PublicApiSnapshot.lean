import AuthExample.PublicApiLine

/-!
# The snapshots of the public API

A snapshot is its lines, of which some are items. `namesItems_iff` : its items are recorded
under their own names, so that those neither allow-listed nor in the sources are reported,
exactly when each is `Named`.
-/

namespace AuthExample

namespace PublicApi

open Scan

/-! ## A snapshot -/

/-- A line of a snapshot : an item, or a line that does not start with `pub`. -/
inductive Line where
  | item (i : Item)
  | other (text : List Char) (oneLine : '\n' ∉ text)
      (notPub : ¬"pub ".toList <+: trim isSpace text)

def Line.text : Line → List Char
  | item i => i.text
  | other text _ _ => text

/-- The `pub` items. -/
def items (lines : List Line) : List Item := lines.filterMap fun
  | .item i => some i
  | .other .. => none

/-- The contents of the snapshot. -/
def snapshotText (lines : List Line) : List Char := ['\n'].intercalate (lines.map Line.text)

/-- The name stands in the sources as a word. -/
def OccursIn (name corpus : List Char) : Prop :=
  ∃ pre post, corpus = pre ++ (name ++ post) ∧ (∀ c ∈ pre.getLast?, isWord c = false) ∧
    ∀ c ∈ post.head?, isWord c = false

/-- The script names every item of a snapshot : each line is recorded under the name of its
item, the names of the snapshot are those of its items, and an item whose name is neither
allow-listed nor in the sources is reported, whatever the other snapshots. -/
structure NamesItems (lines : List Line) : Prop where
  line : ∀ i ∈ items lines, parseLine i.text = some i.name
  snapshot : ∀ name, name ∈ parseSnapshot (snapshotText lines) ↔ ∃ i ∈ items lines, i.name = name
  reported : ∀ i ∈ items lines, ∀ reportMode allow corpus before crate after,
    i.name ∉ allow → ¬OccursIn i.name corpus →
      let report := check reportMode allow corpus
        (before ++ (crate, some (snapshotText lines)) :: after)
      (∃ names, (crate, names) ∈ report.missingByCrate ∧ i.name ∈ names) ∧
        report.exitCode = if reportMode then 0 else 1

theorem mem_items {lines : List Line} {i : Item} : i ∈ items lines ↔ .item i ∈ lines := by
  rw [items, List.mem_filterMap]
  constructor
  · rintro ⟨l, hl, hi⟩
    cases l with
    | item j =>
      cases hi
      exact hl
    | other => cases hi
  · exact fun h => ⟨.item i, h, rfl⟩

theorem Item.newline_notMem (i : Item) : '\n' ∉ i.text := by
  have hline := i.oneLine
  rw [List.mem_append, not_or] at hline
  have hseparator : '\n' ∉ "::".toList := by decide
  have hpub : '\n' ∉ "pub ".toList := by decide
  have hpath : ∀ segments : List Segment,
      '\n' ∉ "::".toList.intercalate (segments.map fun s => s.name ++ s.generics) := by
    intro segments
    have hsegment : ∀ s : Segment, '\n' ∉ s.name ++ s.generics := fun s hmem =>
      (List.mem_append.1 hmem).elim (fun h => absurd (s.nameLegal _ h) (by decide)) s.oneLine
    induction segments with
    | nil => exact List.not_mem_nil
    | cons s segments ih =>
      cases segments with
      | nil => simpa using hsegment s
      | cons s' segments =>
        rw [List.map_cons, List.map_cons, List.intercalate_cons_cons]
        simp only [List.mem_append, not_or] at hsegment ⊢
        exact ⟨⟨hsegment s, hseparator⟩, ih⟩
  simp only [text, spaced, pathText, List.mem_append, List.mem_flatMap, List.mem_singleton, not_or]
  refine ⟨⟨hline.1, hpub⟩, ?_, hpath _, hline.2⟩
  rintro ⟨w, hw, hmem | hmem⟩
  · exact absurd ((i.wordsLegal w hw).2 _ hmem) (by decide)
  · exact absurd hmem (by decide)

theorem Line.newline_notMem (l : Line) : '\n' ∉ l.text := by
  cases l with
  | item i => exact i.newline_notMem
  | other _ oneLine _ => exact oneLine

theorem mem_foldl_add {names acc : List (List Char)} {name : List Char} :
    name ∈ names.foldl add acc ↔ name ∈ acc ∨ name ∈ names := by
  induction names generalizing acc with
  | nil => simp
  | cons first names ih =>
    rw [List.foldl_cons, ih, add, List.mem_cons]
    split_ifs with h
    · constructor
      · exact Or.imp_right Or.inr
      · rintro (hacc | rfl | hnames)
        · exact Or.inl hacc
        · exact Or.inl h
        · exact Or.inr hnames
    · rw [List.mem_append, List.mem_singleton, or_assoc]

/-- The names of a snapshot are those that its lines add. -/
theorem mem_parseSnapshot {lines : List Line} {name : List Char} :
    name ∈ parseSnapshot (snapshotText lines) ↔
      ∃ i ∈ items lines, parseLine i.text = some name := by
  have hlines : name ∈ parseSnapshot (snapshotText lines) ↔
      ∃ l ∈ lines, parseLine l.text = some name := by
    rw [parseSnapshot, mem_foldl_add, or_iff_right List.not_mem_nil, List.mem_filterMap]
    cases lines with
    | nil =>
      refine iff_of_false ?_ nofun
      rintro ⟨line, hline, hname⟩
      rw [List.mem_singleton.1 hline] at hname
      cases hname
    | cons l lines =>
      rw [snapshotText,
        List.splitOn_intercalate '\n' ?_ (List.map_eq_nil_iff.not.2 (List.cons_ne_nil _ _))]
      · simp
      · intro line hline
        obtain ⟨l', -, rfl⟩ := List.mem_map.1 hline
        exact l'.newline_notMem
  rw [hlines]
  constructor
  · rintro ⟨l, hl, hname⟩
    cases l with
    | item i => exact ⟨i, mem_items.2 hl, hname⟩
    | other text _ notPub =>
      rw [Line.text, parseLine, if_neg (mt List.isPrefixOf_iff_prefix.1 notPub)] at hname
      cases hname
  · rintro ⟨i, hi, hname⟩
    exact ⟨.item i, mem_items.1 hi, hname⟩

/-- At a position, a name of word characters is found where the text goes on with it, between
two characters that are not. -/
theorem testHere_iff {name : List Char} (hne : name ≠ []) (hname : ∀ c ∈ name, isWord c = true)
    (before : Option Char) (c : Char) (corpus : List Char) :
    (name.isPrefixOf (c :: corpus) && isBoundary before (some c) &&
        isBoundary (name.getLast?.or before) ((c :: corpus).drop name.length).head?) = true ↔
      ∃ post, c :: corpus = name ++ post ∧ before.any isWord = false ∧
        post.head?.any isWord = false := by
  obtain ⟨d, hd⟩ : ∃ d, name.getLast? = some d := ⟨_, List.getLast?_eq_some_getLast hne⟩
  have hword : isWord d = true := hname d (List.mem_of_getLast? hd)
  have hboundary : ∀ post, c :: corpus = name ++ post →
      (isBoundary before (some c) = true ∧
        isBoundary (name.getLast?.or before) ((c :: corpus).drop name.length).head? = true ↔
      before.any isWord = false ∧ post.head?.any isWord = false) := by
    intro post h
    have hc : isWord c = true := by
      obtain ⟨x, more, hcons⟩ := List.exists_cons_of_ne_nil hne
      rw [hcons] at h
      exact hname c (by rw [hcons, (List.cons.inj h).1]; exact List.mem_cons_self)
    rw [h, List.drop_left, hd]
    simp [isBoundary, hc, hword]
  rw [Bool.and_eq_true, Bool.and_eq_true, and_assoc, List.isPrefixOf_iff_prefix]
  constructor
  · rintro ⟨⟨post, hpost⟩, h⟩
    exact ⟨post, hpost.symm, (hboundary post hpost.symm).1 h⟩
  · rintro ⟨post, hpost, h⟩
    exact ⟨⟨post, hpost.symm⟩, (hboundary post hpost).2 h⟩

/-- The search from a position on, after `before`. -/
theorem testWord_from_iff {name : List Char} (hne : name ≠ [])
    (hname : ∀ c ∈ name, isWord c = true) (before : Option Char) (corpus : List Char) :
    testWord name before corpus = true ↔ ∃ pre post, corpus = pre ++ (name ++ post) ∧
      (pre.getLast?.or before).any isWord = false ∧ post.head?.any isWord = false := by
  induction corpus generalizing before with
  | nil =>
    refine iff_of_false (by simp [testWord, hne]) ?_
    rintro ⟨pre, post, h, -⟩
    simp [hne] at h
  | cons c corpus ih =>
    have hlast : ∀ pre, (c :: pre).getLast?.or before = pre.getLast?.or (some c) := by
      intro pre
      rw [List.getLast?_cons]
      cases pre.getLast? <;> rfl
    rw [testWord, Bool.or_eq_true, testHere_iff hne hname, ih]
    constructor
    · rintro (⟨post, h, hbefore, hpost⟩ | ⟨pre, post, rfl, hpre, hpost⟩)
      · exact ⟨[], post, h, hbefore, hpost⟩
      · exact ⟨c :: pre, post, rfl, hlast pre ▸ hpre, hpost⟩
    · rintro ⟨pre, post, h, hpre, hpost⟩
      cases pre with
      | nil => exact Or.inl ⟨post, h, hpre, hpost⟩
      | cons x pre =>
        obtain ⟨rfl, hcorpus⟩ := List.cons.inj h
        exact Or.inr ⟨pre, post, hcorpus, hlast pre ▸ hpre, hpost⟩

/-- The search finds a name of word characters where it stands as a word. -/
theorem testWord_iff {name : List Char} (hne : name ≠ []) (hname : ∀ c ∈ name, isWord c = true)
    {corpus : List Char} : testWord name none corpus = true ↔ OccursIn name corpus := by
  have hany : ∀ c : Option Char, c.any isWord = false ↔ ∀ x ∈ c, isWord x = false := by
    rintro (_ | c) <;> simp
  rw [testWord_from_iff hne hname, OccursIn]
  simp only [hany, Option.or_none]

/-- A recorded name is a word. -/
theorem word_of_parseLine {i : Item} (h : parseLine i.text = some i.name) :
    i.name ≠ [] ∧ ∀ c ∈ i.name, isWord c = true := by
  rw [i.parseLine_text] at h
  split_ifs at h with hd
  cases hleft : unread i.words with
  | nil =>
    rw [hleft] at h
    exact word_of_mem_readParts (List.mem_of_getLast? h)
  | cons w words =>
    rw [hleft] at h
    obtain rfl := Option.some.inj h
    exact Item.legalWords_unread i.wordsLegal _ (hleft ▸ List.mem_cons_self)

/-- A name that is recorded, and neither allow-listed nor found, is reported with its crate. -/
theorem reported_of_mem {name snapshot corpus : List Char} {allow : List (List Char)}
    (hname : name ∈ parseSnapshot snapshot) (hallow : name ∉ allow)
    (hcorpus : testWord name none corpus = false) (reportMode : Bool)
    (before : List (String × Option (List Char))) (crate : String)
    (after : List (String × Option (List Char))) :
    let report := check reportMode allow corpus (before ++ (crate, some snapshot) :: after)
    (∃ names, (crate, names) ∈ report.missingByCrate ∧ name ∈ names) ∧
      report.exitCode = if reportMode then 0 else 1 := by
  have hmissing : name ∈ missing allow corpus (parseSnapshot snapshot) :=
    List.mem_filter.2 ⟨hname, by simp [hallow, hcorpus]⟩
  have hmem : (crate, missing allow corpus (parseSnapshot snapshot)) ∈ (check reportMode allow
      corpus (before ++ (crate, some snapshot) :: after)).missingByCrate := by
    refine List.mem_filterMap.2 ⟨(crate, some snapshot), by simp, ?_⟩
    simp [List.ne_nil_of_mem hmissing]
  refine ⟨⟨_, hmem, hmissing⟩, ?_⟩
  have hreport : (check reportMode allow corpus
      (before ++ (crate, some snapshot) :: after)).missingByCrate.isEmpty = false :=
    List.isEmpty_eq_false_iff.2 (List.ne_nil_of_mem hmem)
  show (if (check reportMode allow corpus (before ++
    (crate, some snapshot) :: after)).missingByCrate.isEmpty || reportMode then 0 else 1) = _
  rw [hreport, Bool.false_or]

/-- The script names every item of a snapshot exactly where each is `Named`. -/
theorem namesItems_iff (lines : List Line) :
    NamesItems lines ↔ ∀ i ∈ items lines, i.Named := by
  refine ⟨fun h i hi => i.parseLine_eq_name_iff.1 (h.line i hi), fun h => ?_⟩
  have hline : ∀ i ∈ items lines, parseLine i.text = some i.name := fun i hi =>
    i.parseLine_eq_name_iff.2 (h i hi)
  have hsnapshot : ∀ name, name ∈ parseSnapshot (snapshotText lines) ↔
      ∃ i ∈ items lines, i.name = name := by
    intro name
    rw [mem_parseSnapshot]
    refine exists_congr fun i => and_congr_right fun hi => ?_
    rw [hline i hi, Option.some_inj]
  refine ⟨hline, hsnapshot, ?_⟩
  intro i hi reportMode allow corpus before crate after hallow hcorpus
  obtain ⟨hne, hword⟩ := word_of_parseLine (hline i hi)
  refine reported_of_mem ((hsnapshot i.name).2 ⟨i, hi, rfl⟩) hallow ?_ reportMode before crate after
  rw [← Bool.not_eq_true, testWord_iff hne hword]
  exact hcorpus

/-! ## Two lines of a snapshot -/

/-- A segment without generic arguments. -/
def Segment.ofName (name : String) (h : name.toList ≠ [] ∧ name.toList.all isName = true ∧
    ∀ kw ∈ reserved, name.toList ≠ kw.toList) : Segment where
  name := name.toList
  generics := []
  name_ne := h.1
  nameLegal := List.all_eq_true.1 h.2.1
  notReserved := h.2.2
  genericsLegal := Or.inl rfl
  oneLine := List.not_mem_nil

theorem legalWords_of_all {words : List (List Char)}
    (h : (words.all fun w => !w.isEmpty && w.all isWord) = true) : LegalWords words := by
  intro w hw
  have hword := List.all_eq_true.1 h w hw
  rw [Bool.and_eq_true, Bool.not_eq_true', List.isEmpty_eq_false_iff, List.all_eq_true] at hword
  exact hword

/-- `RequireRole<R>`. -/
def requireRole : Segment :=
  { Segment.ofName "RequireRole" (by decide) with
    generics := "<R>".toList
    genericsLegal := Or.inr ⟨['R'], rfl⟩
    oneLine := by decide }

/-- A constructor that is `const`. -/
def newRateLimit : Item where
  decorator := []
  words := ["const".toList, "fn".toList]
  init := [Segment.ofName "bymax_auth_axum" (by decide), Segment.ofName "RateLimit" (by decide)]
  last := Segment.ofName "new" (by decide)
  rest := "(u32, u64) -> Self".toList
  decoratorLegal := nofun
  wordsLegal := legalWords_of_all (by decide)
  restEnds := ⟨by rintro c ⟨⟩; decide, by decide⟩
  oneLine := by decide

/-- A method of a generic type. -/
def fromRequestParts : Item where
  decorator := []
  words := ["async".toList, "fn".toList]
  init := [Segment.ofName "bymax_auth_axum" (by decide), requireRole]
  last := Segment.ofName "from_request_parts" (by decide)
  rest := "(&mut http::request::Parts, &S) -> core::result::Result<Self, Self::Rejection>".toList
  decoratorLegal := nofun
  wordsLegal := legalWords_of_all (by decide)
  restEnds := ⟨by rintro c ⟨⟩; decide, by decide⟩
  oneLine := by decide

/-- The first is recorded as `fn` and the second as `RequireRole`. -/
theorem not_namesItems_snapshot :
    newRateLimit.text =
        "pub const fn bymax_auth_axum::RateLimit::new(u32, u64) -> Self".toList ∧
      parseLine newRateLimit.text = some "fn".toList ∧
      parseLine fromRequestParts.text = some "RequireRole".toList ∧
      ¬NamesItems [.item newRateLimit, .item fromRequestParts] := by
  have hfn : parseLine newRateLimit.text = some "fn".toList := by
    rw [newRateLimit.parseLine_text]
    decide
  have hgeneric : parseLine fromRequestParts.text = some "RequireRole".toList := by
    rw [fromRequestParts.parseLine_text]
    decide
  refine ⟨rfl, hfn, hgeneric, fun h => ?_⟩
  have hname := h.line newRateLimit List.mem_cons_self
  rw [hfn] at hname
  exact absurd hname (by decide)

end PublicApi

end AuthExample
