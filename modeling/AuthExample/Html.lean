import Mathlib.Data.List.Basic

/-!
# HTML text with escaped values

How HTML text is read, as far as a template with escaped values needs it : tags, whose quoted
values may hold any character, and characters, some of them written as references. What a
browser makes of the tags is left out.

An `Escaper` writes every character so that it is read back as that character. `tokens_render` :
a text put together of literal parts, each of which ends outside of a tag, and of escaped values
is read as the tags and characters of its literal parts and the characters of its values.
`HasTags.tags_render` : so no value adds a tag, closes one or takes one away.
-/

namespace Html

/-- What is read : a tag, by what stands between its brackets, or a character. -/
inductive Token where
  | tag (text : List Char)
  | char (c : Char)
  deriving DecidableEq

/-- Where a reader is, and what it has read since, last first : outside of a tag, in a tag and
perhaps in a quoted value, or in a reference. -/
inductive Mode where
  | data
  | tag (quote : Option Char) (read : List Char)
  | ref (read : List Char)
  deriving DecidableEq

/-- The characters with names. -/
def names : List (String × Char) :=
  [("amp", '&'), ("lt", '<'), ("gt", '>'), ("quot", '"'), ("apos", '\'')]

/-- The character a reference is of, by its number or its name. -/
def reference : List Char → Option Char
  | '#' :: digits =>
    if digits ≠ [] ∧ digits.all Char.isDigit then
      some (Char.ofNat (digits.foldl (fun n d => 10 * n + (d.toNat - '0'.toNat)) 0))
    else none
  | name => names.lookup (String.ofList name)

/-- A character outside of tags and references. -/
def readData (c : Char) : Mode × List Token :=
  if c = '<' then (.tag none [], [])
  else if c = '&' then (.ref [], [])
  else (.data, [.char c])

/-- One character. -/
def next : Mode → Char → Mode × List Token
  | .data, c => readData c
  | .tag none read, c =>
    if c = '>' then (.data, [.tag read.reverse])
    else (.tag (if c = '"' ∨ c = '\'' then some c else none) (c :: read), [])
  | .tag (some quote) read, c => (.tag (if c = quote then none else some quote) (c :: read), [])
  | .ref read, c =>
    if c = ';' then
      (.data, match reference read.reverse with
        | some d => [.char d]
        | none => ('&' :: read.reverse ++ [';']).map .char)
    else if c.isAlphanum ∨ c = '#' then (.ref (c :: read), [])
    else
      let (mode, tokens) := readData c
      (mode, ('&' :: read.reverse).map .char ++ tokens)

/-- The tokens of a text read from a mode, and the mode after it. -/
def run : Mode → List Char → Mode × List Token
  | mode, [] => (mode, [])
  | mode, c :: cs => ((run (next mode c).1 cs).1, (next mode c).2 ++ (run (next mode c).1 cs).2)

/-- What is left at the end : a tag that is not closed is dropped. -/
def flush : Mode → List Token
  | .data | .tag .. => []
  | .ref read => ('&' :: read.reverse).map .char

/-- The tokens of a text. -/
def tokens (text : List Char) : List Token := (run .data text).2 ++ flush (run .data text).1

/-- The tags among them. -/
def tags (ts : List Token) : List (List Char) :=
  ts.filterMap fun
    | .tag text => some text
    | .char _ => none

theorem tags_chars (cs : List Char) : tags (cs.map .char) = [] := by
  simp [tags]

theorem run_append (mode : Mode) (cs ds : List Char) : run mode (cs ++ ds) =
    ((run (run mode cs).1 ds).1, (run mode cs).2 ++ (run (run mode cs).1 ds).2) := by
  induction cs generalizing mode with
  | nil => rfl
  | cons c cs ih =>
    rw [List.cons_append, run, run, ih]
    simp only [List.append_assoc]

/-! ## Escaping -/

/-- A way to write characters outside of tags : each is read as itself. -/
structure Escaper where
  escape : Char → List Char
  reads : ∀ c, run .data (escape c) = (.data, [.char c])

/-- A value is read as its characters. -/
theorem Escaper.run_escape (e : Escaper) (cs : List Char) :
    run .data (cs.flatMap e.escape) = (.data, cs.map .char) := by
  induction cs with
  | nil => rfl
  | cons c cs ih =>
    rw [List.flatMap_cons, run_append, e.reads, ih]
    rfl

/-- Numbers in the place of the characters with a meaning. -/
def numeric (c : Char) : List Char :=
  if c ∈ ['&', '<', '>', '"', '\''] then '&' :: '#' :: Nat.toDigits 10 c.toNat ++ [';'] else [c]

theorem run_numeric (c : Char) : run .data (numeric c) = (.data, [.char c]) := by
  unfold numeric
  split_ifs with hc
  · simp only [List.mem_cons, List.not_mem_nil, or_false] at hc
    rcases hc with rfl | rfl | rfl | rfl | rfl <;> decide
  · simp only [List.mem_cons, not_or] at hc
    simp [run, next, readData, hc]

/-- The escaper that writes numbers. -/
def numericEscaper : Escaper := ⟨numeric, run_numeric⟩

/-! ## Templates -/

/-- A part of a template : its own text, or a value. -/
inductive Part where
  | raw (text : String)
  | value (text : String)

namespace Part

def text (e : Escaper) : Part → List Char
  | raw text => text.toList
  | value text => text.toList.flatMap e.escape

/-- What a part is to be read as. -/
def tokens : Part → List Token
  | raw text => (run .data text.toList).2
  | value text => text.toList.map .char

/-- The text of a part ends outside of tags and references. -/
def Closed : Part → Prop
  | raw text => (run .data text.toList).1 = .data
  | value _ => True

instance : DecidablePred Closed
  | raw text => inferInstanceAs (Decidable ((run .data text.toList).1 = .data))
  | value _ => isTrue trivial

theorem Closed.run_eq {p : Part} (h : p.Closed) (e : Escaper) :
    run .data (p.text e) = (.data, p.tokens) := by
  cases p with
  | raw text => exact Prod.ext h rfl
  | value text => exact e.run_escape text.toList

end Part

/-- The parts in a row. -/
def render (e : Escaper) (parts : List Part) : String := String.ofList (parts.flatMap (Part.text e))

/-- The literal parts end outside of tags and references, and have these tags. -/
structure HasTags (parts : List Part) (ts : List String) : Prop where
  closed : ∀ p ∈ parts, p.Closed
  tags : parts.flatMap (fun p => tags p.tokens) = ts.map String.toList

section

variable {e : Escaper} {parts rest : List Part} {ts us : List String}

theorem HasTags.nil : HasTags [] [] := ⟨fun _ h => (List.not_mem_nil h).elim, rfl⟩

/-- A literal part. -/
theorem HasTags.raw {text : String} (ts : List String)
    (htext : (run .data text.toList).1 = .data ∧
      Html.tags (run .data text.toList).2 = ts.map String.toList) (h : HasTags rest us) :
    HasTags (.raw text :: rest) (ts ++ us) := by
  refine ⟨List.forall_mem_cons.2 ⟨htext.1, h.closed⟩, ?_⟩
  rw [List.flatMap_cons, h.tags, List.map_append]
  exact congrArg (· ++ us.map String.toList) htext.2

/-- A value has no tags. -/
theorem HasTags.value {text : String} (h : HasTags rest us) :
    HasTags (.value text :: rest) us := by
  refine ⟨List.forall_mem_cons.2 ⟨trivial, h.closed⟩, ?_⟩
  rw [List.flatMap_cons, h.tags, Part.tokens, tags_chars, List.nil_append]

theorem HasTags.append (h : HasTags parts ts) (h' : HasTags rest us) :
    HasTags (parts ++ rest) (ts ++ us) := by
  refine ⟨fun p hp => (List.mem_append.1 hp).elim (h.closed p) (h'.closed p), ?_⟩
  rw [List.flatMap_append, h.tags, h'.tags, List.map_append]

/-- The literal parts are read as they are, and the values as their characters. -/
theorem tokens_render (h : ∀ p ∈ parts, p.Closed) :
    tokens (render e parts).toList = parts.flatMap Part.tokens := by
  have hrun : run .data (parts.flatMap (Part.text e)) = (.data, parts.flatMap Part.tokens) := by
    induction parts with
    | nil => rfl
    | cons p parts ih =>
      obtain ⟨hp, hparts⟩ := List.forall_mem_cons.1 h
      rw [List.flatMap_cons, run_append, hp.run_eq, ih hparts]
      rfl
  rw [tokens, render, String.toList_ofList, hrun]
  exact List.append_nil _

/-- The tags are those of the literal parts, whatever the values. -/
theorem HasTags.tags_render (h : HasTags parts ts) :
    Html.tags (tokens (render e parts).toList) = ts.map String.toList := by
  rw [tokens_render h.closed, ← h.tags, Html.tags, List.filterMap_flatMap]
  rfl

end

end Html
