import AuthExample.Decimal
import AuthExample.Json
import Mathlib.Data.List.TakeWhile
import Mathlib.Data.Nat.Notation

/-!
# JSON texts

A JSON value as text, written without spaces, and the reader of such texts. Strings are
escaped and unescaped in full; the numbers of a text are doubles where they are read, so an
integer survives within `±(2^53 - 1)`.

`parse_text` : a value of strings, such integers, arrays and objects with distinct keys reads
back as itself.
-/

namespace Json

/-- The greatest integer up to which every integer is a double. -/
def maxSafe : ℕ := 9007199254740991

/-- How numbers are written and what a reader makes of them. Only the integers that are
doubles are known to survive. -/
structure Numbers where
  print : ℚ → List Char
  round : ℚ → ℚ
  print_safe : ∀ n : Int, n.natAbs ≤ maxSafe → print n = (toString n).toList
  round_safe : ∀ n : Int, n.natAbs ≤ maxSafe → round n = n

/-- Numbers of which every one is an integer. -/
def Numbers.integers : Numbers where
  print n := (toString n.num).toList
  round := id
  print_safe _ _ := rfl
  round_safe _ _ := rfl

/-! ## Writing -/

section

variable (N : Numbers)

mutual

/-- The text of a value. -/
def text : Json → List Char
  | null => "null".toList
  | bool b => (toString b).toList
  | num n => N.print n
  | str s => (quote s).toList
  | arr items => '[' :: ([','].intercalate (textItems items) ++ [']'])
  | obj fields => '\x7b' :: ([','].intercalate (textFields fields) ++ ['\x7d'])

/-- The texts of the items of an array. -/
def textItems : List Json → List (List Char)
  | [] => []
  | v :: items => text v :: textItems items

/-- The texts of the members of an object. -/
def textFields : List (String × Json) → List (List Char)
  | [] => []
  | (key, v) :: fields => ((quote key).toList ++ ':' :: text v) :: textFields fields

end

theorem textItems_eq (items : List Json) : textItems N items = items.map (text N) := by
  induction items with
  | nil => rfl
  | cons v items ih => rw [textItems, ih, List.map_cons]

theorem textFields_eq (fields : List (String × Json)) :
    textFields N fields = fields.map fun f => (quote f.1).toList ++ ':' :: text N f.2 := by
  induction fields with
  | nil => rfl
  | cons f fields ih => rw [textFields, ih, List.map_cons]

end

/-! ## Reading -/

/-- White space between the tokens. -/
def isSpace (c : Char) : Bool := c == ' ' || c == '\t' || c == '\n' || c == '\r'

def skip (l : List Char) : List Char := l.dropWhile isSpace

/-- The value of four hexadecimal digits. -/
def hexValue (digits : List Char) : Option ℕ :=
  digits.foldlM (fun n c =>
    if c.isDigit then some (16 * n + (c.toNat - '0'.toNat))
    else if 'a' ≤ c ∧ c ≤ 'f' then some (16 * n + (c.toNat - 'a'.toNat + 10))
    else if 'A' ≤ c ∧ c ≤ 'F' then some (16 * n + (c.toNat - 'A'.toNat + 10))
    else none) 0

/-- The character of a one-letter escape. -/
def unescape (c : Char) : Option Char :=
  if c = '"' ∨ c = '\\' ∨ c = '/' then some c
  else if c = 'b' then some '\x08'
  else if c = 'f' then some '\x0c'
  else if c = 'n' then some '\n'
  else if c = 'r' then some '\r'
  else if c = 't' then some '\t'
  else none

/-- The character of a `\u` escape, which is no half of a surrogate pair. -/
def unit (n : ℕ) : Option Char := if h : n.isValidChar then some (Char.ofNatAux n h) else none

/-- The character of a surrogate pair. -/
def pair (high low : ℕ) : Option Char :=
  if 0xD800 ≤ high ∧ high < 0xDC00 ∧ 0xDC00 ≤ low ∧ low < 0xE000 then
    unit (0x10000 + (high - 0xD800) * 0x400 + (low - 0xDC00))
  else none

/-- A string up to its closing quote. Half a surrogate pair, which no `String` holds, is
refused. -/
def stringBody : List Char → Option (List Char × List Char)
  | [] => none
  | '"' :: l => some ([], l)
  | '\\' :: 'u' :: a :: b :: c :: d :: l =>
    match (hexValue [a, b, c, d]).bind unit, l with
    | some x, l => (stringBody l).map fun (s, l) => (x :: s, l)
    | none, '\\' :: 'u' :: e :: f :: g :: h :: l => do
      let x ← pair (← hexValue [a, b, c, d]) (← hexValue [e, f, g, h])
      (stringBody l).map fun (s, l) => (x :: s, l)
    | none, _ => none
  | '\\' :: c :: l => do
    let x ← unescape c
    (stringBody l).map fun (s, l) => (x :: s, l)
  | c :: l => if c.toNat < 0x20 then none else (stringBody l).map fun (s, l) => (c :: s, l)

/-- The text `word`, which stands for `v`. -/
def literal (word : String) (v : Json) (l : List Char) : Option (Json × List Char) :=
  if word.toList <+: l then some (v, l.drop word.toList.length) else none

/-- The digits a text starts with, and the rest. -/
def digits (l : List Char) : List Char × List Char :=
  (l.takeWhile Char.isDigit, l.dropWhile Char.isDigit)

/-- The fraction of a number, if it has one. -/
def fraction : List Char → Option (List Char × List Char)
  | '.' :: l => if (digits l).1 = [] then none else some (digits l)
  | l => some ([], l)

/-- The exponent of a number, if it has one. -/
def exponent : List Char → Option (Int × List Char)
  | 'e' :: l | 'E' :: l =>
    let (neg, l) := match l with
      | '-' :: l => (true, l)
      | '+' :: l => (false, l)
      | l => (false, l)
    let (ds, l) := digits l
    if ds = [] then none
    else
      let n : Int := Nat.ofDigitChars 10 ds 0
      some (if neg then -n else n, l)
  | l => some (0, l)

/-- `m * 10 ^ e`. -/
def scale (m : ℚ) (e : Int) : ℚ := if 0 ≤ e then m * 10 ^ e.toNat else m / 10 ^ (-e).toNat

/-- A number without a sign. -/
def magnitude (l : List Char) : Option (ℚ × List Char) := do
  let (int, l) := digits l
  if int = [] ∨ int.head? = some '0' ∧ int ≠ ['0'] then none
  else
    let (frac, l) ← fraction l
    let (exp, l) ← exponent l
    return (scale (Nat.ofDigitChars 10 (int ++ frac) 0 : ℕ) (exp - frac.length), l)

/-- A number. -/
def number : List Char → Option (ℚ × List Char)
  | '-' :: l => (magnitude l).map fun (n, l) => (-n, l)
  | l => magnitude l

/-- The elements up to `close`, separated by commas. -/
def sequence {α : Type*} (element : List Char → Option (α × List Char)) (close : Char) :
    ℕ → List Char → Option (List α × List Char)
  | 0, _ => none
  | fuel + 1, l => do
    let (a, l) ← element l
    match skip l with
    | [] => none
    | c :: l =>
      if c = close then some ([a], l)
      else if c = ',' then (sequence element close fuel l).map fun (as, l) => (a :: as, l)
      else none

/-- A list of elements between brackets, which may be empty. -/
def bracketed {α : Type*} (element : List Char → Option (α × List Char)) (close : Char)
    (l : List Char) : Option (List α × List Char) :=
  if (skip l).head? = some close then some ([], (skip l).tail)
  else sequence element close (l.length + 1) l

/-- A member of an object. -/
def field (value : List Char → Option (Json × List Char)) (l : List Char) :
    Option ((String × Json) × List Char) :=
  match skip l with
  | '"' :: l => do
    let (key, l) ← stringBody l
    match skip l with
    | ':' :: l => (value l).map fun (v, l) => ((String.ofList key, v), l)
    | _ => none
  | _ => none

/-- A member is set : the last value of a key counts. -/
def setField (fields : List (String × Json)) (f : String × Json) : List (String × Json) :=
  if f.1 ∈ fields.map Prod.fst then fields.map fun g => if g.1 = f.1 then f else g
  else fields ++ [f]

/-- A value, its arrays and objects nested less than `fuel` deep. -/
def value (N : Numbers) : ℕ → List Char → Option (Json × List Char)
  | 0, _ => none
  | fuel + 1, l =>
    match skip l with
    | [] => none
    | c :: l =>
      if c = '"' then (stringBody l).map fun (s, l) => (str (String.ofList s), l)
      else if c = '[' then
        (bracketed (value N fuel) ']' l).map fun (items, l) => (arr items, l)
      else if c = '\x7b' then
        (bracketed (field (value N fuel)) '\x7d' l).map fun (fields, l) =>
          (obj (fields.foldl setField []), l)
      else if c = 't' then literal "true" (bool true) (c :: l)
      else if c = 'f' then literal "false" (bool false) (c :: l)
      else if c = 'n' then literal "null" null (c :: l)
      else (number (c :: l)).map fun (n, l) => (num (N.round n), l)

/-- `JSON.parse`, `none` where it throws. -/
def parse (N : Numbers) (s : String) : Option Json :=
  match value N (s.toList.length + 1) s.toList with
  | some (v, rest) => if skip rest = [] then some v else none
  | none => none

/-! ## Strings read back -/

theorem stringBody_unescape {e x : Char} (l : List Char) (hu : e ≠ 'u')
    (h : unescape e = some x) :
    stringBody ('\\' :: e :: l) = (stringBody l).map fun p => (x :: p.1, p.2) := by
  rw [stringBody.eq_def]
  split
  · next heq => cases heq
  · next heq => simp at heq
  · next heq => exact absurd (List.cons.inj (List.cons.inj heq).2).1 hu
  · next heq =>
    obtain ⟨rfl, rfl⟩ := List.cons.inj (List.cons.inj heq).2
    rw [h]
    rfl
  · next _ _ hno heq =>
    obtain ⟨hc, hl⟩ := List.cons.inj heq
    exact (hno e l hc.symm hl.symm).elim

theorem stringBody_unit {a b c d x : Char} (l : List Char)
    (h : (hexValue [a, b, c, d]).bind unit = some x) :
    stringBody ('\\' :: 'u' :: a :: b :: c :: d :: l) =
      (stringBody l).map fun p => (x :: p.1, p.2) := by
  rw [stringBody.eq_def]
  simp only [h]

/-- The four digits of a control character. -/
theorem hex_control {n : ℕ} (hn : n < 0x20) :
    ∃ a b c d, (hex 4 n).toList = [a, b, c, d] ∧
      (hexValue [a, b, c, d]).bind unit = some (Char.ofNat n) := by
  have hall : ∀ n < 0x20, (hex 4 n).toList.length = 4 ∧
      (hexValue (hex 4 n).toList).bind unit = some (Char.ofNat n) := by decide
  obtain ⟨hlen, hval⟩ := hall n hn
  match hd : (hex 4 n).toList, hlen with
  | [a, b, c, d], _ => exact ⟨a, b, c, d, rfl, hd ▸ hval⟩

theorem stringBody_plain {c : Char} (l : List Char) (hq : c ≠ '"') (hb : c ≠ '\\')
    (hc : ¬ c.toNat < 0x20) :
    stringBody (c :: l) = (stringBody l).map fun p => (c :: p.1, p.2) := by
  rw [stringBody.eq_def]
  split
  · next heq => cases heq
  · next heq => exact absurd (List.cons.inj heq).1 hq
  · next heq => exact absurd (List.cons.inj heq).1 hb
  · next heq => exact absurd (List.cons.inj heq).1 hb
  · next heq =>
    obtain ⟨rfl, rfl⟩ := List.cons.inj heq
    rw [if_neg hc]

/-- An escaped character reads back. -/
theorem stringBody_escape (c : Char) (l : List Char) :
    stringBody ((escape c).toList ++ l) = (stringBody l).map fun p => (c :: p.1, p.2) := by
  have hof : ∀ {n}, c.toNat = n → c = Char.ofNat n := fun h => by rw [← h, Char.ofNat_toNat]
  unfold escape
  split_ifs with h1 h2 h3 h4 h5 h6 h7 h8
  · rw [hof h1]
    exact stringBody_unescape l (by decide) rfl
  · rw [hof h2]
    exact stringBody_unescape l (by decide) rfl
  · rw [hof h3]
    exact stringBody_unescape l (by decide) rfl
  · rw [hof h4]
    exact stringBody_unescape l (by decide) rfl
  · rw [hof h5]
    exact stringBody_unescape l (by decide) rfl
  · rw [hof h6]
    exact stringBody_unescape l (by decide) rfl
  · rw [hof h7]
    exact stringBody_unescape l (by decide) rfl
  · obtain ⟨x, y, z, w, hd, hval⟩ := hex_control h8
    rw [Char.ofNat_toNat] at hval
    rw [String.toList_append, hd]
    exact stringBody_unit l hval
  · rw [String.toList_singleton, List.singleton_append]
    refine stringBody_plain l ?_ ?_ h8
    · rintro rfl
      exact h1 rfl
    · rintro rfl
      exact h2 rfl

theorem toList_quote (s : String) :
    (quote s).toList = '"' :: (s.toList.flatMap (fun c => (escape c).toList) ++ ['"']) := by
  simp only [quote, String.toList_append, String.toList_join, List.flatMap_map]
  rfl

/-- A quoted string reads back, up to its closing quote. -/
theorem stringBody_quote (cs rest : List Char) :
    stringBody (cs.flatMap (fun c => (escape c).toList) ++ '"' :: rest) = some (cs, rest) := by
  induction cs with
  | nil => rw [List.flatMap_nil, List.nil_append, stringBody]
  | cons c cs ih =>
    rw [List.flatMap_cons, List.append_assoc, stringBody_escape, ih]
    rfl

/-! ## Integers read back -/

/-- What can follow a number. -/
def EndsNumber (rest : List Char) : Prop :=
  ∀ c ∈ rest.head?, c.isDigit = false ∧ c ≠ '.' ∧ c ≠ 'e' ∧ c ≠ 'E'

theorem digits_append {ds rest : List Char} (hds : ∀ c ∈ ds, c.isDigit = true)
    (hrest : EndsNumber rest) : digits (ds ++ rest) = (ds, rest) := by
  have hstop : rest.takeWhile Char.isDigit = [] ∧ rest.dropWhile Char.isDigit = rest := by
    cases rest with
    | nil => exact ⟨rfl, rfl⟩
    | cons c rest => simp [(hrest c rfl).1]
  rw [digits, List.takeWhile_append_of_pos hds, List.dropWhile_append_of_pos hds, hstop.1,
    hstop.2, List.append_nil]

theorem fraction_of_endsNumber {rest : List Char} (h : EndsNumber rest) :
    fraction rest = some ([], rest) := by
  unfold fraction
  split
  · exact absurd rfl (h '.' rfl).2.1
  · rfl

theorem exponent_of_endsNumber {rest : List Char} (h : EndsNumber rest) :
    exponent rest = some (0, rest) := by
  unfold exponent
  split
  · exact absurd rfl (h 'e' rfl).2.2.1
  · exact absurd rfl (h 'E' rfl).2.2.2
  · rfl

/-- No number but zero starts with a zero. -/
theorem toDigits_head (m : ℕ) (h : (Nat.toDigits 10 m).head? = some '0') :
    Nat.toDigits 10 m = ['0'] := by
  induction m using Nat.strong_induction_on with
  | _ m ih =>
    rcases lt_or_ge m 10 with hlt | hge
    · rw [Nat.toDigits_of_lt_base hlt] at h ⊢
      simpa using h
    · have hcut := Nat.toDigits_of_base_le (by decide : 1 < 10) hge
      have hpos : 0 < m / 10 := Nat.div_pos hge (by decide)
      obtain ⟨c, cs, hcs⟩ :=
        List.exists_cons_of_ne_nil (Nat.toDigits_ne_nil (n := m / 10) (b := 10))
      have hhead : (Nat.toDigits 10 (m / 10)).head? = some '0' := by
        rw [hcut, hcs] at h
        rw [hcs]
        exact h
      have hone := congrArg (Nat.ofDigitChars 10 · 0)
        (ih (m / 10) (Nat.div_lt_self (by omega) (by decide)) hhead)
      simp only [Nat.ofDigitChars_ten_toDigits] at hone
      exact absurd hone hpos.ne'

theorem magnitude_toDigits (m : ℕ) {rest : List Char} (h : EndsNumber rest) :
    magnitude (Nat.toDigits 10 m ++ rest) = some ((m : ℚ), rest) := by
  have hds : ∀ c ∈ Nat.toDigits 10 m, c.isDigit = true := fun c hc =>
    Nat.isDigit_of_mem_toDigits (by decide) (by decide) hc
  have hguard : ¬ (Nat.toDigits 10 m = [] ∨
      (Nat.toDigits 10 m).head? = some '0' ∧ Nat.toDigits 10 m ≠ ['0']) := by
    rintro (hnil | ⟨hhead, hne⟩)
    · exact Nat.toDigits_ne_nil hnil
    · exact hne (toDigits_head m hhead)
  simp only [magnitude, digits_append hds h, if_neg hguard, fraction_of_endsNumber h,
    exponent_of_endsNumber h, Option.bind_eq_bind, Option.bind_some, List.append_nil,
    Nat.ofDigitChars_ten_toDigits, scale]
  simp

/-- A written integer reads back. -/
theorem number_toString (n : Int) {rest : List Char} (h : EndsNumber rest) :
    number ((toString n).toList ++ rest) = some ((n : ℚ), rest) := by
  cases n with
  | ofNat m =>
    have htext : (toString (Int.ofNat m)).toList = Nat.toDigits 10 m := Nat.toList_repr
    rw [htext, number.eq_def]
    split
    · next heq =>
      have hminus : '-' ∈ Nat.toDigits 10 m := by
        obtain ⟨c, cs, hc⟩ := List.exists_cons_of_ne_nil (Nat.toDigits_ne_nil (n := m) (b := 10))
        rw [hc] at heq ⊢
        rw [(List.cons.inj heq).1]
        exact List.mem_cons_self
      exact absurd (Nat.isDigit_of_mem_toDigits (by decide) (by decide) hminus) (by decide)
    · exact magnitude_toDigits m h
  | negSucc m =>
    have htext : (toString (Int.negSucc m)).toList = '-' :: Nat.toDigits 10 (m + 1) := by
      show ("-" ++ Nat.repr (m + 1)).toList = _
      simp [Nat.toList_repr]
    rw [htext, List.cons_append, number, magnitude_toDigits (m + 1) h]
    rfl

/-! ## Lists read back -/

section

variable {α : Type*} {element : List Char → Option (α × List Char)} {close : Char}

theorem skip_cons {c : Char} (h : isSpace c = false) (l : List Char) : skip (c :: l) = c :: l := by
  rw [skip, List.dropWhile_cons_of_neg (by simp [h])]

/-- Elements that read back one by one do so as a list. -/
theorem sequence_intercalate (hclose : isSpace close = false) (hcomma : close ≠ ',')
    {parts : List (α × List Char)} (hne : parts ≠ []) {fuel : ℕ} (hfuel : parts.length ≤ fuel)
    (helement : ∀ p ∈ parts, ∀ c rest, c = ',' ∨ c = close →
      element (p.2 ++ c :: rest) = some (p.1, c :: rest)) (rest : List Char) :
    sequence element close fuel ([','].intercalate (parts.map Prod.snd) ++ close :: rest) =
      some (parts.map Prod.fst, rest) := by
  induction parts generalizing fuel with
  | nil => exact absurd rfl hne
  | cons p parts ih =>
    obtain ⟨hp, hparts⟩ := List.forall_mem_cons.1 helement
    cases fuel with
    | zero => simp at hfuel
    | succ fuel =>
    cases parts with
    | nil =>
      simp only [List.map_cons, List.map_nil, List.intercalate_singleton, sequence,
        hp close rest (Or.inr rfl), Option.bind_eq_bind, Option.bind_some, skip_cons hclose,
        if_true]
    | cons p' parts =>
      have hsep : isSpace ',' = false := by decide
      rw [List.map_cons, List.map_cons, List.intercalate_cons_cons, ← List.map_cons]
      simp only [List.append_assoc, List.cons_append, List.nil_append, sequence,
        hp ',' _ (Or.inl rfl), Option.bind_eq_bind, Option.bind_some, skip_cons hsep,
        if_neg hcomma.symm, if_true]
      rw [ih (List.cons_ne_nil _ _) (by simpa using hfuel) hparts]
      rfl

theorem length_le_intercalate (ls : List (List Char)) :
    ls.length ≤ ([','].intercalate ls).length + 1 := by
  induction ls with
  | nil => exact Nat.zero_le _
  | cons l ls ih =>
    cases ls with
    | nil => simp
    | cons l' ls =>
      rw [List.intercalate_cons_cons]
      simp only [List.length_cons, List.length_append, List.length_nil] at ih ⊢
      omega

/-- The text starts with a token that does not close the list. -/
def StartsElement (close : Char) (l : List Char) : Prop :=
  ∃ c rest, l = c :: rest ∧ isSpace c = false ∧ c ≠ close

theorem bracketed_intercalate (hclose : isSpace close = false) (hcomma : close ≠ ',')
    {parts : List (α × List Char)} (hstart : ∀ p ∈ parts, StartsElement close p.2)
    (helement : ∀ p ∈ parts, ∀ c rest, c = ',' ∨ c = close →
      element (p.2 ++ c :: rest) = some (p.1, c :: rest)) (rest : List Char) :
    bracketed element close ([','].intercalate (parts.map Prod.snd) ++ close :: rest) =
      some (parts.map Prod.fst, rest) := by
  cases parts with
  | nil =>
    rw [List.map_nil, List.intercalate_nil, List.nil_append, bracketed, skip_cons hclose]
    exact if_pos rfl
  | cons p parts =>
    obtain ⟨c, t, ht, hspace, hne⟩ := hstart p List.mem_cons_self
    obtain ⟨t', ht'⟩ : ∃ t', [','].intercalate ((p :: parts).map Prod.snd) ++ close :: rest =
        c :: t' := by
      cases parts with
      | nil => exact ⟨t ++ close :: rest, by simp [ht]⟩
      | cons p' parts => exact ⟨_, by rw [List.map_cons, List.map_cons,
          List.intercalate_cons_cons, ht]; rfl⟩
    have hfuel := length_le_intercalate ((p :: parts).map Prod.snd)
    rw [bracketed, if_neg, sequence_intercalate hclose hcomma (List.cons_ne_nil _ _) ?_ helement]
    · rw [List.length_append]
      simp only [List.length_map] at hfuel
      omega
    · rw [ht', skip_cons hspace]
      simpa using hne

end

/-! ## Values read back -/

/-- The numbers of the value are integers that are doubles, and the keys of each of its
objects are distinct. -/
inductive Portable : Json → Prop
  | null : Portable null
  | bool (b : Bool) : Portable (bool b)
  | num (n : Int) (h : n.natAbs ≤ maxSafe) : Portable (num n)
  | str (s : String) : Portable (str s)
  | arr (items : List Json) (h : ∀ v ∈ items, Portable v) : Portable (arr items)
  | obj (fields : List (String × Json)) (hkeys : (fields.map Prod.fst).Nodup)
    (h : ∀ f ∈ fields, Portable f.2) : Portable (obj fields)

/-- Members with distinct keys are set as they are. -/
theorem foldl_setField {fields acc : List (String × Json)}
    (h : ((acc ++ fields).map Prod.fst).Nodup) : fields.foldl setField acc = acc ++ fields := by
  induction fields generalizing acc with
  | nil => rw [List.foldl_nil, List.append_nil]
  | cons f fields ih =>
    have hnot : f.1 ∉ acc.map Prod.fst := by
      rw [List.map_append, List.map_cons] at h
      exact fun hmem => (List.nodup_append.1 h).2.2 _ hmem _ List.mem_cons_self rfl
    rw [List.foldl_cons, setField, if_neg hnot, ih (by simpa using h), List.append_assoc]
    rfl

/-- An integer starts with a digit or a minus. -/
theorem toString_cons (n : Int) :
    ∃ c rest, (toString n).toList = c :: rest ∧ (c = '-' ∨ c.isDigit = true) := by
  cases n with
  | ofNat m =>
    have htext : (toString (Int.ofNat m)).toList = Nat.toDigits 10 m := Nat.toList_repr
    obtain ⟨c, rest, h⟩ :=
      List.exists_cons_of_ne_nil (Nat.toDigits_ne_nil (n := m) (b := 10))
    refine ⟨c, rest, htext.trans h, Or.inr ?_⟩
    exact Nat.isDigit_of_mem_toDigits (by decide) (by decide) (h ▸ List.mem_cons_self)
  | negSucc m =>
    refine ⟨'-', Nat.toDigits 10 (m + 1), ?_, Or.inl rfl⟩
    show ("-" ++ Nat.repr (m + 1)).toList = _
    simp [Nat.toList_repr]

/-- No digit is another token. -/
theorem ne_of_isDigit {c d : Char} (hc : c = '-' ∨ c.isDigit = true) (hd : d.isDigit = false)
    (hminus : d ≠ '-') : c ≠ d := by
  rintro rfl
  rcases hc with rfl | hc
  · exact hminus rfl
  · rw [hd] at hc
    cases hc

theorem isSpace_of_isDigit {c : Char} (hc : c = '-' ∨ c.isDigit = true) : isSpace c = false := by
  have h : ∀ d : Char, d.isDigit = false → d ≠ '-' → (c == d) = false := fun d hd hminus =>
    beq_eq_false_iff_ne.2 (ne_of_isDigit hc hd hminus)
  rw [isSpace, h ' ' rfl (by decide), h '\t' rfl (by decide), h '\n' rfl (by decide),
    h '\r' rfl (by decide)]
  rfl

variable (N : Numbers)

/-- A value starts with no white space, and with nothing that closes a list. -/
theorem startsElement_text {v : Json} (h : v.Portable) {close : Char}
    (hclose : close = ']' ∨ close = '\x7d') : StartsElement close (text N v) := by
  have hne : ∀ {c : Char}, c ≠ ']' → c ≠ '\x7d' → c ≠ close := by
    rintro c h1 h2 rfl
    exact hclose.elim h1 h2
  cases h with
  | null => exact ⟨'n', _, rfl, rfl, hne (by decide) (by decide)⟩
  | bool b =>
    cases b
    · exact ⟨'f', _, rfl, rfl, hne (by decide) (by decide)⟩
    · exact ⟨'t', _, rfl, rfl, hne (by decide) (by decide)⟩
  | num n hn =>
    obtain ⟨c, rest, htext, hc⟩ := toString_cons n
    refine ⟨c, rest, ?_, isSpace_of_isDigit hc, hne ?_ ?_⟩
    · rw [text, N.print_safe n hn, htext]
    · exact ne_of_isDigit hc rfl (by decide)
    · exact ne_of_isDigit hc rfl (by decide)
  | str s => exact ⟨'"', _, by rw [text, toList_quote], rfl, hne (by decide) (by decide)⟩
  | arr items => exact ⟨'[', _, by rw [text], rfl, hne (by decide) (by decide)⟩
  | obj fields => exact ⟨'\x7b', _, by rw [text], rfl, hne (by decide) (by decide)⟩

theorem endsNumber_cons {c : Char} (rest : List Char)
    (hc : c = ',' ∨ c = ']' ∨ c = '\x7d') : EndsNumber (c :: rest) := by
  intro d hd
  obtain rfl := Option.some.inj hd
  rcases hc with rfl | rfl | rfl <;> decide

/-- The text of an element is shorter than that of its list. -/
theorem length_le_intercalate_of_mem {l : List Char} {ls : List (List Char)} (h : l ∈ ls) :
    l.length ≤ ([','].intercalate ls).length := by
  induction ls with
  | nil => cases h
  | cons l' ls ih =>
    cases ls with
    | nil =>
      rw [List.mem_singleton.1 h, List.intercalate_singleton]
    | cons l'' ls =>
      rw [List.intercalate_cons_cons]
      simp only [List.length_append]
      rcases List.mem_cons.1 h with rfl | h
      · omega
      · have := ih h
        omega

theorem literal_append (word : String) (v : Json) (rest : List Char) :
    literal word v (word.toList ++ rest) = some (v, rest) := by
  rw [literal, if_pos (List.prefix_append _ _), List.drop_left]

theorem value_num {c : Char} (hc : c = '-' ∨ c.isDigit = true) (fuel : ℕ) (l : List Char) :
    value N (fuel + 1) (c :: l) = (number (c :: l)).map fun p => (num (N.round p.1), p.2) := by
  have hne : ∀ d : Char, d.isDigit = false → d ≠ '-' → ¬ c = d := fun d => ne_of_isDigit hc
  rw [value, skip_cons (isSpace_of_isDigit hc)]
  simp only [hne '"' rfl (by decide), hne '[' rfl (by decide), hne '\x7b' rfl (by decide),
    hne 't' rfl (by decide), hne 'f' rfl (by decide), hne 'n' rfl (by decide), if_false]

theorem value_str (fuel : ℕ) (l : List Char) :
    value N (fuel + 1) ('"' :: l) =
      (stringBody l).map fun p => (str (String.ofList p.1), p.2) := by
  rw [value, skip_cons rfl]
  rfl

theorem value_arr (fuel : ℕ) (l : List Char) :
    value N (fuel + 1) ('[' :: l) =
      (bracketed (value N fuel) ']' l).map fun p => (arr p.1, p.2) := by
  rw [value, skip_cons rfl]
  rfl

theorem value_obj (fuel : ℕ) (l : List Char) :
    value N (fuel + 1) ('\x7b' :: l) =
      (bracketed (field (value N fuel)) '\x7d' l).map fun p =>
        (obj (p.1.foldl setField []), p.2) := by
  rw [value, skip_cons rfl]
  rfl

/-- A written member reads back where its value does. -/
theorem field_text {read : List Char → Option (Json × List Char)} {key : String} {v : Json}
    {l rest : List Char} (h : read (l ++ rest) = some (v, rest)) :
    field read ((quote key).toList ++ ':' :: l ++ rest) = some ((key, v), rest) := by
  rw [toList_quote]
  simp only [List.cons_append, List.append_assoc, List.nil_append]
  rw [field, skip_cons rfl]
  simp only [stringBody_quote, Option.bind_eq_bind, Option.bind_some]
  rw [skip_cons rfl]
  simp only [h, Option.map_some, String.ofList_toList]

/-- A value is not read without fuel. -/
theorem exists_fuel {v : Json} (h : v.Portable) {fuel : ℕ} (hfuel : (text N v).length ≤ fuel) :
    ∃ k, fuel = k + 1 := by
  obtain ⟨c, l, hl, -⟩ := startsElement_text N h (Or.inl rfl)
  rw [hl, List.length_cons] at hfuel
  exact ⟨fuel - 1, by omega⟩

/-- A written value reads back, up to what follows it. -/
theorem value_text {v : Json} (h : v.Portable) {fuel : ℕ} {rest : List Char}
    (hfuel : (text N v).length ≤ fuel) (hrest : EndsNumber rest) :
    value N fuel (text N v ++ rest) = some (v, rest) := by
  obtain ⟨fuel, rfl⟩ := exists_fuel N h hfuel
  induction h generalizing fuel rest with
  | null => exact literal_append "null" null rest
  | bool b =>
    cases b
    · exact literal_append "false" (bool false) rest
    · exact literal_append "true" (bool true) rest
  | num n hn =>
    obtain ⟨c, l, htext, hc⟩ := toString_cons n
    have hnumber := number_toString n hrest
    rw [text, N.print_safe n hn, htext]
    rw [htext] at hnumber
    rw [List.cons_append, value_num N hc, ← List.cons_append, hnumber, Option.map_some,
      N.round_safe n hn]
  | str s =>
    rw [text, toList_quote, List.cons_append, value_str, List.append_assoc, List.singleton_append,
      stringBody_quote, Option.map_some, String.ofList_toList]
  | arr items hitems ih =>
    have hlist : bracketed (value N fuel) ']'
        ([','].intercalate ((items.map fun v => (v, text N v)).map Prod.snd) ++ ']' :: rest) =
          some ((items.map fun v => (v, text N v)).map Prod.fst, rest) := by
      refine bracketed_intercalate rfl (by decide) (fun p hp => ?_) (fun p hp c rest' hc => ?_) rest
      · obtain ⟨v, hv, rfl⟩ := List.mem_map.1 hp
        exact startsElement_text N (hitems v hv) (Or.inl rfl)
      · obtain ⟨v, hv, rfl⟩ := List.mem_map.1 hp
        have hlen : (text N v).length ≤ fuel := by
          have := length_le_intercalate_of_mem (List.mem_map_of_mem (f := text N) hv)
          rw [text, textItems_eq, List.length_cons, List.length_append] at hfuel
          omega
        obtain ⟨k, rfl⟩ := exists_fuel N (hitems v hv) hlen
        exact ih v hv (endsNumber_cons rest' (hc.imp_right Or.inl)) k hlen
    rw [text, textItems_eq, List.cons_append, value_arr, List.append_assoc, List.singleton_append]
    simp only [List.map_map, Function.comp_def, List.map_id'] at hlist
    rw [hlist]
    rfl
  | obj fields hkeys hfields ih =>
    have hlist : bracketed (field (value N fuel)) '\x7d'
        ([','].intercalate ((fields.map fun f =>
          (f, (quote f.1).toList ++ ':' :: text N f.2)).map Prod.snd) ++ '\x7d' :: rest) =
          some ((fields.map fun f =>
            (f, (quote f.1).toList ++ ':' :: text N f.2)).map Prod.fst, rest) := by
      refine bracketed_intercalate rfl (by decide) (fun p hp => ?_) (fun p hp c rest' hc => ?_) rest
      · obtain ⟨f, -, rfl⟩ := List.mem_map.1 hp
        exact ⟨'"', _, by rw [toList_quote]; rfl, rfl, by decide⟩
      · obtain ⟨f, hf, rfl⟩ := List.mem_map.1 hp
        have hlen : (text N f.2).length ≤ fuel := by
          have := length_le_intercalate_of_mem
            (List.mem_map_of_mem (f := fun f => (quote f.1).toList ++ ':' :: text N f.2) hf)
          rw [text, textFields_eq, List.length_cons, List.length_append] at hfuel
          simp only [List.length_append, List.length_cons] at this
          omega
        obtain ⟨k, rfl⟩ := exists_fuel N (hfields f hf) hlen
        exact field_text (ih f hf (endsNumber_cons rest' (hc.imp_right Or.inr)) k hlen)
    rw [text, textFields_eq, List.cons_append, value_obj, List.append_assoc, List.singleton_append]
    simp only [List.map_map, Function.comp_def, List.map_id'] at hlist
    rw [hlist, Option.map_some, foldl_setField (by simpa using hkeys)]
    rfl

/-- A written value reads back. -/
theorem parse_text {v : Json} (h : v.Portable) : parse N (String.ofList (text N v)) = some v := by
  have hvalue : value N ((text N v).length + 1) (text N v ++ []) = some (v, []) :=
    value_text N h (Nat.le_succ _) nofun
  rw [List.append_nil] at hvalue
  rw [parse, String.toList_ofList, hvalue]
  rfl

end Json
