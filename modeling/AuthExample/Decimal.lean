import Mathlib.Data.Nat.Notation

/-!
# Signed 64-bit decimals

Printing an integer and reading a signed 64-bit one back. `parseI64` takes an optional
sign and at least one ASCII digit, and fails outside the 64-bit range. A printed
integer in range reads back as itself (`parseI64_toString`).
-/

namespace Decimal

/-- The least signed 64-bit integer. -/
def i64Min : Int := -9223372036854775808

/-- The greatest signed 64-bit integer. -/
def i64Max : Int := 9223372036854775807

/-- The value of a nonempty list of ASCII digits. -/
def parseDigits (cs : List Char) : Option Nat :=
  if !cs.isEmpty && cs.all Char.isDigit then some (Nat.ofDigitChars 10 cs 0) else none

/-- An optional sign, then digits. -/
def parseSigned : List Char → Option Int
  | '-' :: cs => (parseDigits cs).map fun n => -Int.ofNat n
  | '+' :: cs => (parseDigits cs).map Int.ofNat
  | cs => (parseDigits cs).map Int.ofNat

/-- Read a signed 64-bit integer; out of range is a failure. -/
def parseI64 (s : String) : Option Int :=
  (parseSigned s.toList).filter fun n => decide (i64Min ≤ n ∧ n ≤ i64Max)

theorem parseDigits_toDigits (n : Nat) : parseDigits (Nat.toDigits 10 n) = some n := by
  have hne : (Nat.toDigits 10 n).isEmpty = false := by simp [Nat.toDigits_ne_nil]
  have hall : (Nat.toDigits 10 n).all Char.isDigit = true :=
    List.all_eq_true.2 fun c hc => Nat.isDigit_of_mem_toDigits (by decide) (by decide) hc
  simp [parseDigits, hne, hall, Nat.ofDigitChars_ten_toDigits]

theorem parseSigned_toDigits (n : Nat) : parseSigned (Nat.toDigits 10 n) = some (n : Int) := by
  have hhead : ∀ c cs, Nat.toDigits 10 n = c :: cs → c.isDigit = true := fun c cs h =>
    Nat.isDigit_of_mem_toDigits (by decide) (by decide) (h ▸ List.mem_cons_self)
  have hp := parseDigits_toDigits n
  unfold parseSigned
  split
  · next cs h => exact absurd (hhead _ _ h) (by decide)
  · next cs h => exact absurd (hhead _ _ h) (by decide)
  · rw [hp]
    rfl

theorem parseSigned_toString (n : Int) : parseSigned (toString n).toList = some n := by
  cases n with
  | ofNat m =>
    have h : (toString (Int.ofNat m)).toList = Nat.toDigits 10 m := Nat.toList_repr
    rw [h, parseSigned_toDigits]
    rfl
  | negSucc m =>
    have h : (toString (Int.negSucc m)).toList = '-' :: Nat.toDigits 10 (m + 1) := by
      show ("-" ++ Nat.repr (m + 1)).toList = _
      simp [Nat.toList_repr]
    rw [h, parseSigned, parseDigits_toDigits]
    rfl

/-- A printed integer in range reads back as itself. -/
theorem parseI64_toString {n : Int} (hmin : i64Min ≤ n) (hmax : n ≤ i64Max) :
    parseI64 (toString n) = some n := by
  rw [parseI64, parseSigned_toString]
  simp [hmin, hmax]

end Decimal
