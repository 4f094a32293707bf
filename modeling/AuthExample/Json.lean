import Mathlib.Data.Rat.Defs

/-!
# JSON values

A parsed JSON value. An object is its list of members, in order and with distinct
keys; a number is its exact value. `get?` reads an own member and `member` is
JavaScript's property read, which throws on `null` and yields `undefined` on every
other value without that member.
-/

/-- A parsed JSON value. -/
inductive Json where
  | null
  | bool (b : Bool)
  | num (n : ℚ)
  | str (s : String)
  | arr (items : List Json)
  | obj (fields : List (String × Json))

namespace Json

/-- The value is no array and no object. -/
def IsScalar : Json → Prop
  | arr _ | obj _ => False
  | _ => True

/-- Induction over the values in a value. -/
@[elab_as_elim]
theorem induct {motive : Json → Prop} (scalar : ∀ v, v.IsScalar → motive v)
    (arr : ∀ items, (∀ v ∈ items, motive v) → motive (arr items))
    (obj : ∀ fields, (∀ f ∈ fields, motive f.2) → motive (obj fields)) (v : Json) : motive v :=
  @Json.rec motive (fun items => ∀ v ∈ items, motive v) (fun fields => ∀ f ∈ fields, motive f.2)
    (fun f => motive f.2) (scalar _ trivial) (fun _ => scalar _ trivial)
    (fun _ => scalar _ trivial) (fun _ => scalar _ trivial) (fun _ => arr _) (fun _ => obj _)
    (fun _ h => absurd h List.not_mem_nil) (fun _ _ hv hvs => List.forall_mem_cons.2 ⟨hv, hvs⟩)
    (fun _ h => absurd h List.not_mem_nil) (fun _ _ hf hfs => List.forall_mem_cons.2 ⟨hf, hfs⟩)
    (fun _ _ h => h) v

/-- The member `key` of an object. -/
def get? : Json → String → Option Json
  | obj fields, key => fields.lookup key
  | _, _ => none

/-- The property read `v.key` of JavaScript. Outer `none` is the `TypeError` it throws
on `null`, inner `none` is `undefined`. -/
def member : Json → String → Option (Option Json)
  | null, _ => none
  | v, key => some (v.get? key)

/-- The value is a string (`typeof v === 'string'`). -/
def str? : Json → Option String
  | str s => some s
  | _ => none

/-- The value is a number (`typeof v === 'number'`). -/
def num? : Json → Option ℚ
  | num n => some n
  | _ => none

/-- The value is an integer. -/
def int? : Json → Option Int
  | num n => if n.den = 1 then some n.num else none
  | _ => none

/-- The value of an optional member : absent and `null` are both `none`. -/
def optStr? : Json → Option (Option String)
  | null => some none
  | str s => some (some s)
  | _ => none

/-- A string, or `null`. -/
def ofOptStr : Option String → Json
  | none => null
  | some s => str s

/-- An integer. -/
def ofInt (n : Int) : Json := num n

theorem member_of_ne_null {v : Json} (h : v ≠ null) (key : String) :
    v.member key = some (v.get? key) := by
  cases v with
  | null => exact absurd rfl h
  | _ => rfl

/-- A member that is there is the one read. -/
theorem eq_of_member {v value : Json} {key : String} {read : Option Json}
    (h : v.get? key = some value) (hread : v.member key = some read) : read = some value := by
  have hnull : v ≠ null := fun hv => by
    rw [hv] at h
    cases h
  rw [member_of_ne_null hnull, h] at hread
  exact (Option.some.inj hread).symm

theorem str?_eq_some {v : Json} {s : String} : v.str? = some s ↔ v = str s := by
  cases v <;> simp [str?]

@[simp] theorem int?_ofInt (n : Int) : (ofInt n).int? = some n := by
  simp [ofInt, int?]

@[simp] theorem optStr?_ofOptStr (o : Option String) : (ofOptStr o).optStr? = some o := by
  cases o <;> rfl

/-! ## Text -/

/-- The hexadecimal digits of `n`, at least `width` of them. -/
def hex (width n : ℕ) : String :=
  String.ofList ((Nat.toDigits 16 n).leftpad width '0')

/-- A character of a JSON string : quotes, backslashes and control characters are
escaped. -/
def escape (c : Char) : String :=
  if c.toNat = 0x22 then "\\\x22"
  else if c.toNat = 0x5C then "\\\\"
  else if c.toNat = 0x08 then "\\b"
  else if c.toNat = 0x0C then "\\f"
  else if c.toNat = 0x0A then "\\n"
  else if c.toNat = 0x0D then "\\r"
  else if c.toNat = 0x09 then "\\t"
  else if c.toNat < 0x20 then "\\u" ++ hex 4 c.toNat
  else String.singleton c

/-- The JSON text of a string. -/
def quote (s : String) : String :=
  "\x22" ++ String.join (s.toList.map escape) ++ "\x22"

end Json
