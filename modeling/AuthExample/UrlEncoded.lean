import AuthExample.Scan
import Mathlib.Data.Nat.Notation

/-!
# Percent-encoded text

A text is percent-encoded byte by byte of its UTF-8 form : the characters of `keep` stand for
themselves, every other byte is `%` and two digits. A query is names and values encoded so
and joined by `=` and `&`, with `+` for a space.

`decode_encode` and `parse_serialize` : what was encoded is read back, whatever the text.
-/

namespace UrlEncoded

/-! ## Bytes and text -/

/-- The UTF-8 bytes of a text. -/
def bytes (l : List Char) : List UInt8 := l.flatMap String.utf8EncodeChar

/-- The text of UTF-8 bytes. Of other bytes it is what `lossy` makes of them. -/
def text (lossy : List UInt8 → String) (bs : List UInt8) : String :=
  (String.fromUTF8? bs.toByteArray).getD (lossy bs)

theorem text_bytes (lossy : List UInt8 → String) (s : String) :
    text lossy (bytes s.toList) = s := by
  have hbytes : (bytes s.toList).toByteArray = s.toByteArray := String.utf8Encode_toList
  have hvalid : s.toByteArray.IsValidUTF8 := s.isValidUTF8
  rw [text, hbytes, String.fromUTF8?, dif_pos hvalid]
  rfl

/-- An ASCII character is its own byte. -/
theorem utf8EncodeChar_of_lt {c : Char} (h : c.toNat < 128) :
    String.utf8EncodeChar c = [UInt8.ofNat c.toNat] := by
  have hval : c.val.toNat ≤ 0x7F := Nat.le_of_lt_succ h
  rw [String.utf8EncodeChar, if_pos hval]
  rfl

/-! ## Percent-encoding -/

/-- An upper-case hexadecimal digit. -/
def hexDigit (n : ℕ) : Char := (Nat.digitChar n).toUpper

/-- The value of a hexadecimal digit of either case. -/
def hexValue (c : Char) : Option ℕ :=
  if '0' ≤ c ∧ c ≤ '9' then some (c.toNat - '0'.toNat)
  else if 'A' ≤ c ∧ c ≤ 'F' then some (c.toNat - 'A'.toNat + 10)
  else if 'a' ≤ c ∧ c ≤ 'f' then some (c.toNat - 'a'.toNat + 10)
  else none

theorem hexValue_hexDigit {n : ℕ} (h : n < 16) : hexValue (hexDigit n) = some n := by
  have hall : ∀ n < 16, hexValue (hexDigit n) = some n := by decide
  exact hall n h

/-- A byte, kept where its character is one of `keep`. -/
def encodeByte (keep : List Char) (b : UInt8) : List Char :=
  if Char.ofNat b.toNat ∈ keep then [Char.ofNat b.toNat]
  else ['%', hexDigit (b.toNat / 16), hexDigit (b.toNat % 16)]

/-- A text, percent-encoded. -/
def encode (keep : List Char) (s : String) : List Char :=
  (bytes s.toList).flatMap (encodeByte keep)

/-- The bytes of a percent-encoded text. A `%` without two digits stands for itself. -/
def decode : List Char → List UInt8
  | '%' :: x :: y :: rest =>
    match hexValue x, hexValue y with
    | some m, some n => UInt8.ofNat (16 * m + n) :: decode rest
    | _, _ => String.utf8EncodeChar '%' ++ decode (x :: y :: rest)
  | c :: rest => String.utf8EncodeChar c ++ decode rest
  | [] => []

theorem decode_cons {c : Char} (hc : c ≠ '%') (rest : List Char) :
    decode (c :: rest) = String.utf8EncodeChar c ++ decode rest := by
  rw [decode.eq_def]
  split
  · next heq => exact absurd (List.cons.inj heq).1 hc
  · next heq =>
    obtain ⟨rfl, rfl⟩ := List.cons.inj heq
    rfl
  · next heq => cases heq

theorem decode_percent {m n : ℕ} (hm : m < 16) (hn : n < 16) (rest : List Char) :
    decode ('%' :: hexDigit m :: hexDigit n :: rest) = UInt8.ofNat (16 * m + n) :: decode rest := by
  rw [decode, hexValue_hexDigit hm, hexValue_hexDigit hn]

/-- The characters that structure a query. -/
def reserved : List Char := ['%', '+', '&', '=', '?', '#']

/-- What may be kept : ASCII, and nothing that structures a query. -/
def Plain (keep : List Char) : Prop := ∀ c ∈ keep, c.toNat < 128 ∧ c ∉ reserved

instance (keep : List Char) : Decidable (Plain keep) :=
  inferInstanceAs (Decidable (∀ c ∈ keep, c.toNat < 128 ∧ c ∉ reserved))

theorem toNat_ofNat_byte (b : UInt8) : (Char.ofNat b.toNat).toNat = b.toNat := by
  have hb : b.toNat < 256 := b.toNat_lt
  have hvalid : b.toNat.isValidChar := Or.inl (by omega)
  rw [Char.ofNat, dif_pos hvalid]
  rfl

section

variable {keep : List Char} (hkeep : Plain keep)
include hkeep

theorem decode_encodeByte (b : UInt8) (rest : List Char) :
    decode (encodeByte keep b ++ rest) = b :: decode rest := by
  unfold encodeByte
  split_ifs with hb
  · obtain ⟨hlt, hres⟩ := hkeep _ hb
    have hne : Char.ofNat b.toNat ≠ '%' := fun h => hres (h ▸ List.mem_cons_self)
    rw [List.singleton_append, decode_cons hne, utf8EncodeChar_of_lt hlt, toNat_ofNat_byte]
    simp
  · have hb : b.toNat < 256 := b.toNat_lt
    show decode ('%' :: _ :: _ :: rest) = _
    rw [decode_percent (by omega) (by omega), Nat.div_add_mod]
    simp

/-- The bytes that were encoded. -/
theorem decode_flatMap_encodeByte (bs : List UInt8) (rest : List Char) :
    decode (bs.flatMap (encodeByte keep) ++ rest) = bs ++ decode rest := by
  induction bs with
  | nil => rfl
  | cons b bs ih =>
    rw [List.flatMap_cons, List.append_assoc, decode_encodeByte hkeep, ih, List.cons_append]

/-- An encoded text reads back. -/
theorem decode_encode (s : String) : decode (encode keep s) = bytes s.toList := by
  have h := decode_flatMap_encodeByte hkeep (bytes s.toList) []
  rwa [List.append_nil, decode, List.append_nil] at h

theorem notMem_encodeByte {c : Char} (hc : c ∈ ['+', '&', '=', '?', '#']) (b : UInt8) :
    c ∉ encodeByte keep b := by
  have hdigits : ∀ n < 16, (reserved.all fun c => c ≠ hexDigit n) = true := by decide
  have hdigit : ∀ {n}, n < 16 → c ≠ hexDigit n := fun {n} hn =>
    of_decide_eq_true (List.all_eq_true.1 (hdigits n hn) c (List.mem_cons_of_mem _ hc))
  have hb : b.toNat < 256 := b.toNat_lt
  unfold encodeByte
  split_ifs with hk
  · intro hmem
    rw [List.mem_singleton] at hmem
    exact (hkeep _ hk).2 (hmem ▸ List.mem_cons_of_mem _ hc)
  · have hpercent : c ≠ '%' := by
      rintro rfl
      revert hc
      decide
    simp only [List.mem_cons, List.not_mem_nil, or_false, not_or]
    exact ⟨hpercent, hdigit (by omega), hdigit (by omega)⟩

/-- What structures a query is not in an encoded text. -/
theorem notMem_encode {c : Char} (hc : c ∈ ['+', '&', '=', '?', '#']) (s : String) :
    c ∉ encode keep s := by
  intro hmem
  obtain ⟨b, -, hb⟩ := List.mem_flatMap.1 hmem
  exact notMem_encodeByte hkeep hc b hb

end

/-! ## Queries -/

/-- The characters `encodeURIComponent` leaves as they are. -/
def componentKeep : List Char :=
  "ABCDEFGHIJKLMNOPQRSTUVWXYZabcdefghijklmnopqrstuvwxyz0123456789-_.!~*'()".toList

/-- `encodeURIComponent`. -/
def encodeComponent (s : String) : List Char := encode componentKeep s

/-- The characters a serialized form leaves as they are. -/
def formKeep : List Char :=
  "ABCDEFGHIJKLMNOPQRSTUVWXYZabcdefghijklmnopqrstuvwxyz0123456789*-._".toList

/-- A name or value of a serialized form : a space is `+`. -/
def encodeForm (s : String) : List Char :=
  (bytes s.toList).flatMap fun b => if b = 0x20 then ['+'] else encodeByte formKeep b

/-- A name or value read back. -/
def decodeForm (lossy : List UInt8 → String) (l : List Char) : String :=
  text lossy (decode (l.map fun c => if c = '+' then ' ' else c))

/-- The pairs of a query, in order. Empty parts are skipped, and a part without `=` is a name
with an empty value. -/
def parse (lossy : List UInt8 → String) (query : List Char) : List (String × String) :=
  ((Scan.splitAll ['&'] 0 query).filter (· ≠ [])).map fun part =>
    let (name, value) := (Scan.splitOnce ['='] part).getD (part, [])
    (decodeForm lossy name, decodeForm lossy value)

/-- A serialized form. -/
def serialize (pairs : List (String × String)) : List Char :=
  ['&'].intercalate (pairs.map fun p => encodeForm p.1 ++ '=' :: encodeForm p.2)

theorem plain_componentKeep : Plain componentKeep := Scan.forall_mem_of_all (by decide)

theorem plain_formKeep : Plain formKeep := Scan.forall_mem_of_all (by decide)

/-- The text stands for `s` in a query. -/
structure Encodes (l : List Char) (s : String) : Prop where
  read : ∀ lossy, decodeForm lossy l = s
  noJoin : '&' ∉ l
  noEquals : '=' ∉ l

theorem map_space_of_notMem {l : List Char} (h : '+' ∉ l) :
    (l.map fun c => if c = '+' then ' ' else c) = l := by
  refine (List.map_congr_left fun c hc => ?_).trans (List.map_id l)
  have hne : c ≠ '+' := fun heq => h (heq ▸ hc)
  exact if_neg hne

/-- An encoded component stands for its text. -/
theorem encodes_encode {keep : List Char} (hkeep : Plain keep) (s : String) :
    Encodes (encode keep s) s where
  read lossy := by
    rw [decodeForm, map_space_of_notMem (notMem_encode hkeep (by decide) s), decode_encode hkeep,
      text_bytes]
  noJoin := notMem_encode hkeep (by decide) s
  noEquals := notMem_encode hkeep (by decide) s

theorem encodes_encodeForm (s : String) : Encodes (encodeForm s) s := by
  have hnot : ∀ {c : Char}, c ∈ ['&', '='] → c ∉ encodeForm s := by
    intro c hc hmem
    obtain ⟨b, -, hb⟩ := List.mem_flatMap.1 hmem
    split_ifs at hb
    · rw [List.mem_singleton] at hb
      revert hc
      rw [hb]
      decide
    · exact notMem_encodeByte plain_formKeep (by grind) b hb
  refine ⟨fun lossy => ?_, hnot (by decide), hnot (by decide)⟩
  have hdecode : ∀ bs : List UInt8, decode ((bs.flatMap fun b =>
      if b = 0x20 then ['+'] else encodeByte formKeep b).map
        fun c => if c = '+' then ' ' else c) = bs := by
    intro bs
    induction bs with
    | nil => rfl
    | cons b bs ih =>
      rw [List.flatMap_cons, List.map_append]
      split_ifs with hb
      · rw [List.map_singleton, if_pos rfl, List.singleton_append,
          decode_cons (by decide), ih, hb]
        rfl
      · rw [map_space_of_notMem (notMem_encodeByte plain_formKeep (by decide) b),
          decode_encodeByte plain_formKeep, ih]
  rw [decodeForm, encodeForm, hdecode, text_bytes]

/-- A name and a value read as their pair. -/
theorem parse_part {q : List Char × List Char} {p : String × String}
    (h : Encodes q.1 p.1 ∧ Encodes q.2 p.2) (lossy : List UInt8 → String) :
    '&' ∉ q.1 ++ '=' :: q.2 ∧ Scan.splitOnce ['='] (q.1 ++ '=' :: q.2) = some q ∧
      (decodeForm lossy q.1, decodeForm lossy q.2) = p := by
  obtain ⟨hname, hvalue⟩ := h
  refine ⟨?_, Scan.splitOnce_append q.2 hname.noEquals, ?_⟩
  · simp [hname.noJoin, hvalue.noJoin]
  · rw [hname.read, hvalue.read]

/-- Names and values joined to a query are its pairs, however each is encoded. -/
theorem parse_joined (lossy : List UInt8 → String) {parts : List (List Char × List Char)}
    {pairs : List (String × String)}
    (h : List.Forall₂ (fun q p => Encodes q.1 p.1 ∧ Encodes q.2 p.2) parts pairs) :
    parse lossy (['&'].intercalate (parts.map fun q => q.1 ++ '=' :: q.2)) = pairs := by
  rcases eq_or_ne parts [] with rfl | hne
  · cases h
    rfl
  have hparts : ∀ l ∈ parts.map fun q => q.1 ++ '=' :: q.2, '&' ∉ l ∧ l ≠ [] := by
    clear hne
    induction h with
    | nil => simp
    | cons hqp _ ih =>
      exact List.forall_mem_cons.2 ⟨⟨(parse_part hqp lossy).1, by simp⟩, ih⟩
  rw [parse, Scan.splitAll_intercalate (by simpa using hne) fun l hl => (hparts l hl).1,
    List.filter_eq_self.2 fun l hl => decide_eq_true (hparts l hl).2, List.map_map]
  clear hne hparts
  induction h with
  | nil => rfl
  | cons hqp _ ih =>
    obtain ⟨-, hsplit, hread⟩ := parse_part hqp lossy
    rw [List.map_cons, ih]
    simp only [Function.comp, hsplit, Option.getD_some, hread]

/-- A serialized form reads back, whatever its names and values. -/
theorem parse_serialize (lossy : List UInt8 → String) (pairs : List (String × String)) :
    parse lossy (serialize pairs) = pairs := by
  have h : List.Forall₂ (fun q p => Encodes q.1 p.1 ∧ Encodes q.2 p.2)
      (pairs.map fun p => (encodeForm p.1, encodeForm p.2)) pairs := by
    induction pairs with
    | nil => exact .nil
    | cons p pairs ih => exact .cons ⟨encodes_encodeForm p.1, encodes_encodeForm p.2⟩ ih
  have hparse := parse_joined lossy h
  rwa [List.map_map] at hparse

/-! ## Names that occur once -/

/-- Set a name : its first pair takes the value and the others go, or a pair is added. -/
def setParam (params : List (String × String)) (p : String × String) : List (String × String) :=
  match params with
  | [] => [p]
  | r :: rest => if r.1 = p.1 then p :: rest.filter (·.1 ≠ p.1) else r :: setParam rest p

theorem setParam_of_notMem {params : List (String × String)} {p : String × String}
    (h : p.1 ∉ params.map Prod.fst) : setParam params p = params ++ [p] := by
  induction params with
  | nil => rfl
  | cons r rest ih =>
    obtain ⟨hr, hrest⟩ := not_or.1 (mt List.mem_cons.2 h)
    rw [setParam, if_neg fun heq => hr heq.symm, ih hrest]
    rfl

/-- Pairs with distinct names are set as they are. -/
theorem foldl_setParam {pairs acc : List (String × String)}
    (h : ((acc ++ pairs).map Prod.fst).Nodup) : pairs.foldl setParam acc = acc ++ pairs := by
  induction pairs generalizing acc with
  | nil => rw [List.foldl_nil, List.append_nil]
  | cons p pairs ih =>
    have hnot : p.1 ∉ acc.map Prod.fst := by
      rw [List.map_append, List.map_cons] at h
      exact fun hmem => (List.nodup_append.1 h).2.2 _ hmem _ List.mem_cons_self rfl
    rw [List.foldl_cons, setParam_of_notMem hnot, ih (by simpa using h), List.append_assoc]
    rfl

/-- The value of a name that occurs at most once : outer `none` is an occurrence too many. -/
def lookupOnce (name : String) (pairs : List (String × String)) : Option (Option String) :=
  match pairs.filter fun p => p.1 = name with
  | [] => some none
  | [p] => some (some p.2)
  | _ => none

/-- Where the names are distinct, a lookup finds the value there is, in any order. -/
theorem lookupOnce_eq_lookup {pairs pairs' : List (String × String)} (hperm : pairs'.Perm pairs)
    (hnodup : (pairs.map Prod.fst).Nodup) (name : String) :
    lookupOnce name pairs' = some (pairs.lookup name) := by
  have hfilter := hperm.filter fun p => p.1 = name
  suffices hpairs : (pairs.filter fun p => p.1 = name) =
      ((pairs.lookup name).map fun v => (name, v)).toList by
    rw [hpairs] at hfilter
    cases hl : pairs.lookup name with
    | none =>
      rw [hl] at hfilter
      rw [lookupOnce, List.Perm.eq_nil hfilter]
    | some v =>
      rw [hl] at hfilter
      rw [lookupOnce, List.perm_singleton.1 hfilter]
  clear hperm hfilter
  induction pairs with
  | nil => rfl
  | cons p pairs ih =>
    obtain ⟨hp, hrest⟩ := List.nodup_cons.1 hnodup
    by_cases hname : p.1 = name
    · subst hname
      have hnone : pairs.filter (fun q => q.1 = p.1) = [] :=
        List.filter_eq_nil_iff.2 fun q hq heq =>
          hp (of_decide_eq_true heq ▸ List.mem_map_of_mem hq)
      rw [List.filter_cons_of_pos (by simp), hnone, List.lookup_cons_self]
      rfl
    · rw [List.filter_cons_of_neg (by simpa using hname), ih hrest, List.lookup_cons,
        beq_eq_false_iff_ne.2 (Ne.symm hname)]

end UrlEncoded
