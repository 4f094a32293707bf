import AuthExample.Regex
import AuthExample.Scan

/-!
# The check of the public API

`check-public-api-usage.mjs` reads the snapshots of `cargo public-api`, takes a name off each
line that starts with `pub`, and reports the names that are neither allow-listed nor found as
a word of the sources. It strips a keyword off a line by one pattern and reads the path by
another.

`readParts` and `unread` say of an item, word by word, what the two patterns read of its line.
-/

namespace AuthExample

namespace PublicApi

open Regex Scan

/-! ## The script -/

/-- What `\s` matches and `trim` cuts. -/
def isSpace (c : Char) : Bool :=
  9 ≤ c.toNat && c.toNat ≤ 13 || 0x2000 ≤ c.toNat && c.toNat ≤ 0x200A ||
    [0x20, 0xA0, 0x1680, 0x2028, 0x2029, 0x202F, 0x205F, 0x3000, 0xFEFF].contains c.toNat

/-- `[A-Za-z0-9_]`. -/
def isWord (c : Char) : Bool := c.isAlphanum || c == '_'

/-- The item keywords that the script strips. -/
def itemKeywords : List String :=
  ["fn", "struct", "enum", "trait", "type", "const", "static", "macro", "mod", "impl", "use"]

/-- `/^pub\s+(?:unsafe\s+)?(?:async\s+)?(?:fn|struct|…|use)\s+/`, in a text of at most `n`
characters. Both patterns start with `^` and are tried at the start only. -/
def keywordRe (n : ℕ) : Regex :=
  (lit "pub").seq <| (plus isSpace n).seq <|
    (opt ((lit "unsafe").seq (plus isSpace n))).seq <|
    (opt ((lit "async").seq (plus isSpace n))).seq <|
    (anyOf itemKeywords).seq (plus isSpace n)

/-- `/^((?:[A-Za-z0-9_]+::)*[A-Za-z0-9_]+)/`, in a text of at most `n` characters. -/
def pathRe (n : ℕ) : Regex := (upTo ((plus isWord n).seq (lit "::")) n).seq (plus isWord n)

/-- The line without its keyword, or as it is where the pattern does not match. -/
def replaceKeyword (trimmed : List Char) : List Char :=
  ((keywordRe trimmed.length).first ⟨[], trimmed⟩).elim trimmed Cursor.after

/-- The last part of the path a line starts with, once `pub` and a keyword are stripped. -/
def shortName (withoutPub : List Char) : Option (List Char) := do
  let pathMatch ← (pathRe withoutPub.length).first ⟨[], withoutPub⟩
  let parts := splitAll "::".toList 0 pathMatch.before.reverse
  let name ← parts.getLast?
  if name.isEmpty then none else some name

/-- What a line of a snapshot adds to the names. -/
def parseLine (line : List Char) : Option (List Char) :=
  let trimmed := trim isSpace line
  if "pub ".toList.isPrefixOf trimmed then
    let withoutPub := replaceKeyword trimmed
    shortName (if withoutPub = trimmed then trimmed.drop "pub ".toList.length else withoutPub)
  else none

/-- `names.add(name)`, of a set in the order of its insertions. -/
def add (names : List (List Char)) (name : List Char) : List (List Char) :=
  if name ∈ names then names else names ++ [name]

def parseSnapshot (snapshot : List Char) : List (List Char) :=
  ((snapshot.splitOn '\n').filterMap parseLine).foldl add []

/-- `\b`, between two characters. -/
def isBoundary (before after : Option Char) : Bool := before.any isWord != after.any isWord

/-- Whether `\bname\b`, of word characters, is found from a position on, after `before`. -/
def testWord (name : List Char) (before : Option Char) : List Char → Bool
  | [] => name.isEmpty && isBoundary before none
  | c :: corpus =>
    name.isPrefixOf (c :: corpus) && isBoundary before (some c) &&
        isBoundary (name.getLast?.or before) ((c :: corpus).drop name.length).head? ||
      testWord name (some c) corpus

/-- The names of a snapshot that are neither allow-listed nor found. -/
def missing (allow : List (List Char)) (corpus : List Char) (names : List (List Char)) :
    List (List Char) :=
  names.filter fun name => !allow.contains name && !testWord name none corpus

/-- What the script reports : the missing names of each crate that has some, and its exit
code. -/
structure Report where
  missingByCrate : List (String × List (List Char))
  exitCode : ℕ

/-- The main loop, over the crates and their snapshots, where there is one. -/
def check (reportMode : Bool) (allow : List (List Char)) (corpus : List Char)
    (snapshots : List (String × Option (List Char))) : Report :=
  let missingByCrate := snapshots.filterMap fun (crate, snapshot) => do
    let names := missing allow corpus (parseSnapshot (← snapshot))
    if names.isEmpty then none else some (crate, names)
  { missingByCrate, exitCode := if missingByCrate.isEmpty || reportMode then 0 else 1 }

/-! ## The lines of a snapshot -/

/-- What an identifier may be made of : word characters, the `#` of a raw one, and anything
outside ASCII that is no space. -/
def isName (c : Char) : Bool := isWord c || c == '#' || (128 ≤ c.toNat && !isSpace c)

/-- The words of the keyword pattern after `pub`, which no identifier is. -/
def reserved : List String := "unsafe" :: "async" :: itemKeywords

/-- A segment of a path : an identifier, and a generic argument list or none. -/
structure Segment where
  name : List Char
  generics : List Char
  name_ne : name ≠ []
  nameLegal : ∀ c ∈ name, isName c = true
  notReserved : ∀ kw ∈ reserved, name ≠ kw.toList
  genericsLegal : generics = [] ∨ ∃ args, generics = '<' :: (args ++ ['>'])
  oneLine : '\n' ∉ generics

/-- A `pub` item : its decorator if any, the words before its path, which are its qualifiers and
its item keyword, the path, and the rest. -/
structure Item where
  decorator : List Char
  words : List (List Char)
  init : List Segment
  last : Segment
  rest : List Char
  decoratorLegal : ∀ c ∈ decorator.head?, c = '#'
  wordsLegal : ∀ w ∈ words, w ≠ [] ∧ ∀ c ∈ w, isWord c = true
  restEnds : (∀ c ∈ rest.head?, isName c = false) ∧ ¬"::".toList <+: rest
  oneLine : '\n' ∉ decorator ++ rest

namespace Item

/-- The words, each with a space after it, and what follows them. -/
def spaced (words : List (List Char)) (tail : List Char) : List Char :=
  words.flatMap (· ++ [' ']) ++ tail

/-- The path and the rest of the item. -/
def pathText (segments : List Segment) (rest : List Char) : List Char :=
  "::".toList.intercalate (segments.map fun s => s.name ++ s.generics) ++ rest

/-- The segments of the path. -/
def segments (i : Item) : List Segment := i.init ++ [i.last]

/-- The line of the item. -/
def text (i : Item) : List Char :=
  i.decorator ++ "pub ".toList ++ spaced i.words (pathText i.segments i.rest)

/-- The identifier of the last segment. -/
def name (i : Item) : List Char := i.last.name

end Item

/-! ## What the patterns read -/

/-- The word characters the identifier starts with. -/
def Segment.start (s : Segment) : List Char := s.name.takeWhile isWord

/-- A segment that the path pattern passes : word characters only, and no generic arguments. -/
def Segment.Plain (s : Segment) : Prop := (∀ c ∈ s.name, isWord c = true) ∧ s.generics = []

instance (s : Segment) : Decidable s.Plain :=
  decidable_of_iff (s.name.all isWord = true ∧ s.generics = []) (by rw [List.all_eq_true]; rfl)

/-- The segments the path pattern reads : up to the first that is not plain, of which it reads
the start, if any. -/
def readParts : List Segment → List (List Char)
  | [] => []
  | s :: segments =>
    if s.Plain then s.name :: readParts segments else if s.start = [] then [] else [s.start]

/-- The words without `kw`, where it is the first. -/
def dropWord (kw : String) (words : List (List Char)) : List (List Char) :=
  if words.head? = some kw.toList then words.tail else words

/-- The first word is an item keyword that the script strips. -/
def HasKeyword (words : List (List Char)) : Prop :=
  ∃ kw ∈ itemKeywords, words.head? = some kw.toList

instance (words : List (List Char)) : Decidable (HasKeyword words) :=
  inferInstanceAs (Decidable (∃ kw ∈ itemKeywords, words.head? = some kw.toList))

/-- The words before a path that are left of it : those after the first item keyword, which
only `unsafe`, then `async`, may precede, or all of them where there is none. -/
def unread (words : List (List Char)) : List (List Char) :=
  let rest := dropWord "async" (dropWord "unsafe" words)
  if HasKeyword rest then rest.tail else words

/-! ## Characters -/

theorem isSpace_of_isWord {c : Char} (h : isWord c = true) : isSpace c = false := by
  have h : (decide ('A'.val ≤ c.val ∧ c.val ≤ 'Z'.val) ||
      decide ('a'.val ≤ c.val) && decide (c.val ≤ 'z'.val) ||
      decide ('0'.val ≤ c.val) && decide (c.val ≤ '9'.val) || c == '_') = true := h
  simp only [Bool.or_eq_true, Bool.and_eq_true, decide_eq_true_eq, beq_iff_eq,
    UInt32.le_iff_toNat_le] at h
  have hval : c.toNat = c.val.toNat := rfl
  rcases h with h | rfl
  · rw [← hval] at h
    have hrange : 48 ≤ c.toNat ∧ c.toNat ≤ 122 := by
      simp at h
      omega
    simp [isSpace]
    omega
  · decide

/-- No space is part of an identifier. -/
theorem isSpace_eq_false {c : Char} (h : isName c = true) : isSpace c = false := by
  rw [isName, Bool.or_eq_true, Bool.or_eq_true, Bool.and_eq_true, Bool.not_eq_true'] at h
  rcases h with (h | h) | h
  · exact isSpace_of_isWord h
  · rw [beq_iff_eq.1 h]
    decide
  · exact h.2

theorem isName_of_isWord {c : Char} (h : isWord c = true) : isName c = true := by
  simp [isName, h]

theorem isWord_eq_false {c : Char} (h : isName c = false) : isWord c = false := by
  by_contra hword
  rw [isName_of_isWord (Bool.not_eq_false _ ▸ hword)] at h
  cases h

theorem isName_of_mem_reserved {kw : String} (h : kw ∈ reserved) :
    ∀ c ∈ kw.toList, isName c = true := by
  have hall : ∀ kw ∈ reserved, (kw.toList.all fun c => decide (isName c = true)) = true := by decide
  exact forall_mem_of_all (hall kw h)

end PublicApi

end AuthExample
