import AuthExample.Json
import Mathlib.Data.List.Forall2

/-!
# Redaction by key

A deep copy of a JSON value with a marker in place of every value under a secret key, as
a JavaScript loop writes it (`out[key] = …`), and a search for a secret key at any depth.
Assigning to `__proto__` sets the prototype of the copy and makes no member, so the copy
lacks that key.

`Alike secret R` relates two values of one shape that differ only under secret keys, where
`R` holds. A value and its copy are alike exactly where no `__proto__` is copied
(`alike_redact_iff`), and values alike have one copy (`redact_eq_of_alike`).
-/

namespace Redact

open Json

/-! ## Copying -/

/-- The key whose assignment sets the prototype. -/
def proto : String := "__proto__"

/-- `out[key] = v`. -/
def assign (out : List (String × Json)) (key : String) (v : Json) : List (String × Json) :=
  if key = proto then out
  else if key ∈ out.map Prod.fst then out.map fun f => if f.1 = key then (key, v) else f
  else out ++ [(key, v)]

variable (secret : String → Bool) (marker : Json)

mutual

/-- The copy of a value. -/
def redact : Json → Json
  | .arr items => .arr (redactItems items)
  | .obj fields => .obj (redactFields [] fields)
  | v => v

/-- The copies of the items of an array. -/
def redactItems : List Json → List Json
  | [] => []
  | v :: items => redact v :: redactItems items

/-- The loop over the members, with what is copied so far. -/
def redactFields (out : List (String × Json)) : List (String × Json) → List (String × Json)
  | [] => out
  | (key, v) :: fields =>
    redactFields (assign out key (if secret key then marker else redact v)) fields

end

mutual

/-- A secret key occurs at some depth. -/
def contains : Json → Bool
  | .arr items => containsItem items
  | .obj fields => containsField fields
  | _ => false

/-- It occurs in an item. -/
def containsItem : List Json → Bool
  | [] => false
  | v :: items => contains v || containsItem items

/-- It is a key, or occurs in a value. -/
def containsField : List (String × Json) → Bool
  | [] => false
  | (key, v) :: fields => secret key || contains v || containsField fields

end

mutual

/-- One shape, with `R` between the values under secret keys. -/
def Alike (R : Json → Json → Prop) : Json → Json → Prop
  | .arr items, w => ∃ items', w = .arr items' ∧ AlikeItems R items items'
  | .obj fields, w => ∃ fields', w = .obj fields' ∧ AlikeFields R fields fields'
  | v, w => w = v

/-- Item by item. -/
def AlikeItems (R : Json → Json → Prop) : List Json → List Json → Prop
  | [], ws => ws = []
  | v :: items, ws => ∃ w items', ws = w :: items' ∧ Alike R v w ∧ AlikeItems R items items'

/-- Member by member. -/
def AlikeFields (R : Json → Json → Prop) : List (String × Json) → List (String × Json) → Prop
  | [], ws => ws = []
  | (key, v) :: fields, ws => ∃ w fields', ws = (key, w) :: fields' ∧
      (if secret key then R v w else Alike R v w) ∧ AlikeFields R fields fields'

end

/-- One member and its like. -/
def AlikeField (R : Json → Json → Prop) (f g : String × Json) : Prop :=
  g.1 = f.1 ∧ if secret f.1 then R f.2 g.2 else Alike secret R f.2 g.2

/-- The copy of one member. -/
def redactField (f : String × Json) : String × Json :=
  (f.1, if secret f.1 then marker else redact secret marker f.2)

variable {secret : String → Bool} {marker : Json}

/-! ## What the recursions say of arrays and objects -/

theorem redact_of_isScalar {v : Json} (h : v.IsScalar) : redact secret marker v = v := by
  cases v with
  | arr items | obj fields => exact h.elim
  | _ => rfl

theorem redact_arr (items : List Json) :
    redact secret marker (.arr items) = .arr (items.map (redact secret marker)) := by
  have h : redactItems secret marker items = items.map (redact secret marker) := by
    induction items with
    | nil => rfl
    | cons v items ih => rw [redactItems, ih, List.map_cons]
  rw [redact, h]

/-- The loop appends the copies of members that are new, less `__proto__`. -/
theorem redactFields_eq {out fields : List (String × Json)} (hd : (fields.map Prod.fst).Nodup)
    (hout : ∀ f ∈ fields, f.1 ∉ out.map Prod.fst) :
    redactFields secret marker out fields =
      out ++ (fields.filter fun f => f.1 ≠ proto).map (redactField secret marker) := by
  induction fields generalizing out with
  | nil => simp [redactFields]
  | cons f fields ih =>
    obtain ⟨key, v⟩ := f
    obtain ⟨hkey, hd⟩ := List.nodup_cons.1 hd
    obtain ⟨hnew, hout⟩ := List.forall_mem_cons.1 hout
    rw [redactFields, assign]
    by_cases hp : key = proto
    · rw [if_pos hp, ih hd hout, List.filter_cons_of_neg (by simp [hp])]
    · rw [if_neg hp, if_neg hnew, ih hd _, List.filter_cons_of_pos (by simp [hp]), List.map_cons,
        List.append_assoc]
      · rfl
      · intro f hf hmem
        rw [List.map_append, List.mem_append] at hmem
        refine hmem.elim (hout f hf) fun hmem => hkey ?_
        have hk : f.1 = key := by simpa using hmem
        exact List.mem_map.2 ⟨f, hf, hk⟩

theorem redact_obj {fields : List (String × Json)} (hd : (fields.map Prod.fst).Nodup) :
    redact secret marker (.obj fields) =
      .obj ((fields.filter fun f => f.1 ≠ proto).map (redactField secret marker)) := by
  rw [redact, redactFields_eq hd (by simp), List.nil_append]

theorem contains_of_isScalar {v : Json} (h : v.IsScalar) : contains secret v = false := by
  cases v with
  | arr items | obj fields => exact h.elim
  | _ => rfl

theorem contains_arr (items : List Json) :
    contains secret (.arr items) = items.any (contains secret) := by
  rw [contains]
  induction items with
  | nil => rfl
  | cons v items ih => rw [containsItem, ih, List.any_cons]

theorem contains_obj (fields : List (String × Json)) :
    contains secret (.obj fields) = fields.any fun f => secret f.1 || contains secret f.2 := by
  rw [contains]
  induction fields with
  | nil => rfl
  | cons f fields ih => rw [containsField, ih, List.any_cons]

variable {R : Json → Json → Prop}

theorem alike_of_isScalar {v w : Json} (h : v.IsScalar) : Alike secret R v w ↔ w = v := by
  cases v with
  | arr items | obj fields => exact h.elim
  | _ => rfl

theorem alike_arr {items : List Json} {w : Json} :
    Alike secret R (.arr items) w ↔
      ∃ items', w = .arr items' ∧ List.Forall₂ (Alike secret R) items items' := by
  have h (items' : List Json) :
      AlikeItems secret R items items' ↔ List.Forall₂ (Alike secret R) items items' := by
    induction items generalizing items' with
    | nil => simp [AlikeItems]
    | cons v items ih =>
      simp only [AlikeItems, List.forall₂_cons_left_iff, ih]
      grind
  simp only [Alike, h]

theorem alike_obj {fields : List (String × Json)} {w : Json} :
    Alike secret R (.obj fields) w ↔
      ∃ fields', w = .obj fields' ∧ List.Forall₂ (AlikeField secret R) fields fields' := by
  have h (fields' : List (String × Json)) :
      AlikeFields secret R fields fields' ↔
        List.Forall₂ (AlikeField secret R) fields fields' := by
    induction fields generalizing fields' with
    | nil => simp [AlikeFields]
    | cons f fields ih =>
      obtain ⟨key, v⟩ := f
      simp only [AlikeFields, List.forall₂_cons_left_iff, ih, AlikeField]
      constructor
      · rintro ⟨w, rest, rfl, hw, hrest⟩
        exact ⟨(key, w), rest, ⟨rfl, hw⟩, hrest, rfl⟩
      · rintro ⟨⟨_, w⟩, rest, ⟨rfl, hw⟩, hrest, rfl⟩
        exact ⟨w, rest, rfl, hw, hrest⟩
  simp only [Alike, h]

/-! ## Secret keys -/

/-- A key with a property occurs at some depth. -/
inductive HasKey (p : String → Bool) : Json → Prop
  | item {items : List Json} {v : Json} (hv : v ∈ items) (h : HasKey p v) : HasKey p (.arr items)
  | key {fields : List (String × Json)} {f : String × Json} (hf : f ∈ fields) (h : p f.1 = true) :
    HasKey p (.obj fields)
  | value {fields : List (String × Json)} {f : String × Json} (hf : f ∈ fields)
    (h : HasKey p f.2) : HasKey p (.obj fields)

theorem not_hasKey_of_isScalar {p : String → Bool} {v : Json} (h : v.IsScalar) :
    ¬ HasKey p v := by
  rintro (_ | _ | _) <;> exact h

theorem hasKey_arr {p : String → Bool} {items : List Json} :
    HasKey p (.arr items) ↔ ∃ v ∈ items, HasKey p v :=
  ⟨fun | .item hv h => ⟨_, hv, h⟩, fun ⟨_, hv, h⟩ => .item hv h⟩

theorem hasKey_obj {p : String → Bool} {fields : List (String × Json)} :
    HasKey p (.obj fields) ↔ ∃ f ∈ fields, p f.1 = true ∨ HasKey p f.2 :=
  ⟨fun
    | .key hf h => ⟨_, hf, .inl h⟩
    | .value hf h => ⟨_, hf, .inr h⟩,
  fun ⟨_, hf, h⟩ => h.elim (.key hf) (.value hf)⟩

/-- The search finds a secret key wherever there is one. -/
theorem contains_iff (v : Json) : contains secret v = true ↔ HasKey secret v := by
  induction v using Json.induct with
  | scalar v hv => simp [contains_of_isScalar hv, not_hasKey_of_isScalar hv]
  | arr items ih =>
    rw [contains_arr, List.any_eq_true, hasKey_arr]
    exact exists_congr fun v => and_congr_right fun hv => ih v hv
  | obj fields ih =>
    simp only [contains_obj, List.any_eq_true, Bool.or_eq_true, hasKey_obj]
    exact exists_congr fun f => and_congr_right fun hf => or_congr_right (ih f hf)

/-- Lists related item by item have an item with a property together. -/
theorem exists_mem_iff {α : Type*} {S : α → α → Prop} {P : α → Prop} {l l' : List α}
    (h : List.Forall₂ S l l') (hP : ∀ a ∈ l, ∀ b, S a b → (P b ↔ P a)) :
    (∃ b ∈ l', P b) ↔ ∃ a ∈ l, P a := by
  induction h with
  | nil => rfl
  | @cons a b l l' hab h ih =>
    obtain ⟨ha, hl⟩ := List.forall_mem_cons.1 hP
    rw [List.exists_mem_cons_iff, List.exists_mem_cons_iff, ha b hab, ih hl]

/-- A relation that is equality on the items of a list is equality on the list. -/
theorem forall₂_iff_eq {α : Type*} {S : α → α → Prop} {l l' : List α}
    (h : ∀ a ∈ l, ∀ b, S a b ↔ b = a) : List.Forall₂ S l l' ↔ l' = l := by
  induction l generalizing l' with
  | nil => exact List.forall₂_nil_left_iff
  | cons a l ih =>
    obtain ⟨ha, hl⟩ := List.forall_mem_cons.1 h
    simp only [List.forall₂_cons_left_iff, ha, ih hl]
    constructor
    · rintro ⟨_, _, rfl, rfl, rfl⟩
      rfl
    · rintro rfl
      exact ⟨a, l, rfl, rfl, rfl⟩

/-- Values alike have secret keys in the same places. -/
theorem Alike.hasKey_iff {v w : Json} (h : Alike secret R v w) :
    HasKey secret w ↔ HasKey secret v := by
  induction v using Json.induct generalizing w with
  | scalar v hv => rw [(alike_of_isScalar hv).1 h]
  | arr items ih =>
    obtain ⟨items', rfl, hitems⟩ := alike_arr.1 h
    rw [hasKey_arr, hasKey_arr]
    exact exists_mem_iff hitems fun v hv w hvw => ih v hv hvw
  | obj fields ih =>
    obtain ⟨fields', rfl, hfields⟩ := alike_obj.1 h
    rw [hasKey_obj, hasKey_obj]
    refine exists_mem_iff hfields fun f hf g hfg => ?_
    obtain ⟨hk, hfg⟩ := hfg
    rw [hk]
    by_cases hs : secret f.1 = true
    · simp [hs]
    · rw [if_neg hs] at hfg
      rw [ih f hf hfg]

/-- A value without a secret key is alike to itself alone. -/
theorem alike_of_not_hasKey {v w : Json} (h : ¬ HasKey secret v) :
    Alike secret R v w ↔ w = v := by
  induction v using Json.induct generalizing w with
  | scalar v hv => exact alike_of_isScalar hv
  | arr items ih =>
    have hiff (items' : List Json) : List.Forall₂ (Alike secret R) items items' ↔ items' = items :=
      forall₂_iff_eq fun v hv w => ih v hv fun hk => h (.item hv hk)
    simp only [alike_arr, hiff, exists_eq_right]
  | obj fields ih =>
    have hiff (fields' : List (String × Json)) :
        List.Forall₂ (AlikeField secret R) fields fields' ↔ fields' = fields := by
      refine forall₂_iff_eq fun f hf g => ?_
      have hs : secret f.1 ≠ true := fun hs => h (.key hf hs)
      rw [AlikeField, if_neg hs, ih f hf fun hk => h (.value hf hk), Prod.ext_iff]
    simp only [alike_obj, hiff, exists_eq_right]

/-! ## The copy -/

/-- Distinct keys, in every object of the value. -/
inductive Distinct : Json → Prop
  | scalar {v : Json} (h : v.IsScalar) : Distinct v
  | arr {items : List Json} (h : ∀ v ∈ items, Distinct v) : Distinct (.arr items)
  | obj {fields : List (String × Json)} (hd : (fields.map Prod.fst).Nodup)
    (h : ∀ f ∈ fields, Distinct f.2) : Distinct (.obj fields)

/-- `__proto__` is a key of the value, not under a secret key. -/
inductive HasProto (secret : String → Bool) : Json → Prop
  | item {items : List Json} {v : Json} (hv : v ∈ items) (h : HasProto secret v) :
    HasProto secret (.arr items)
  | key {fields : List (String × Json)} {f : String × Json} (hf : f ∈ fields) (h : f.1 = proto) :
    HasProto secret (.obj fields)
  | value {fields : List (String × Json)} {f : String × Json} (hf : f ∈ fields)
    (hs : secret f.1 = false) (h : HasProto secret f.2) : HasProto secret (.obj fields)

theorem not_hasProto_of_isScalar {v : Json} (h : v.IsScalar) : ¬ HasProto secret v := by
  rintro (_ | _ | _) <;> exact h

theorem hasProto_arr {items : List Json} :
    HasProto secret (.arr items) ↔ ∃ v ∈ items, HasProto secret v :=
  ⟨fun | .item hv h => ⟨_, hv, h⟩, fun ⟨_, hv, h⟩ => .item hv h⟩

theorem hasProto_obj {fields : List (String × Json)} :
    HasProto secret (.obj fields) ↔
      ∃ f ∈ fields, f.1 = proto ∨ secret f.1 = false ∧ HasProto secret f.2 :=
  ⟨fun
    | .key hf h => ⟨_, hf, .inl h⟩
    | .value hf hs h => ⟨_, hf, .inr ⟨hs, h⟩⟩,
  fun ⟨_, hf, h⟩ => h.elim (.key hf) fun ⟨hs, h⟩ => .value hf hs h⟩

/-- Values alike have one copy. -/
theorem redact_eq_of_alike {v w : Json} (h : Alike secret R v w) :
    redact secret marker w = redact secret marker v := by
  induction v using Json.induct generalizing w with
  | scalar v hv => rw [(alike_of_isScalar hv).1 h]
  | arr items ih =>
    obtain ⟨items', rfl, hitems⟩ := alike_arr.1 h
    rw [redact_arr, redact_arr]
    clear h
    refine congrArg Json.arr ?_
    induction hitems with
    | nil => rfl
    | cons hvw _ ihs =>
      obtain ⟨ihv, ihrest⟩ := List.forall_mem_cons.1 ih
      rw [List.map_cons, List.map_cons, ihv hvw, ihs ihrest]
  | obj fields ih =>
    obtain ⟨fields', rfl, hfields⟩ := alike_obj.1 h
    have hout (out : List (String × Json)) :
        redactFields secret marker out fields' = redactFields secret marker out fields := by
      clear h
      induction hfields generalizing out with
      | nil => rfl
      | @cons f g fields fields' hfg _ ihs =>
        obtain ⟨ihf, ihrest⟩ := List.forall_mem_cons.1 ih
        obtain ⟨key, v⟩ := f
        obtain ⟨key', w⟩ := g
        obtain ⟨hk, hvw⟩ := hfg
        obtain rfl : key' = key := hk
        rw [redactFields, redactFields, ihs ihrest]
        by_cases hs : secret key' = true
        · rw [if_pos hs, if_pos hs]
        · rw [if_neg hs] at hvw
          rw [if_neg hs, if_neg hs, ihf hvw]
    rw [redact, redact, hout]

/-- Two values agree outside what is under secret keys. -/
abbrev Agree (secret : String → Bool) : Json → Json → Prop := Alike secret fun _ _ => True

theorem Agree.refl (v : Json) : Agree secret v v := by
  induction v using Json.induct with
  | scalar v hv => exact (alike_of_isScalar hv).2 rfl
  | arr items ih => exact alike_arr.2 ⟨items, rfl, List.forall₂_same.2 ih⟩
  | obj fields ih =>
    refine alike_obj.2 ⟨fields, rfl, List.forall₂_same.2 fun f hf => ⟨rfl, ?_⟩⟩
    split_ifs
    · trivial
    · exact ih f hf

/-- Values alike are one value, or neither is a scalar. -/
theorem Alike.eq_or {v w : Json} (h : Alike secret R v w) :
    w = v ∨ ¬ v.IsScalar ∧ ¬ w.IsScalar := by
  cases v with
  | arr items =>
    obtain ⟨items', rfl, -⟩ := alike_arr.1 h
    exact Or.inr ⟨id, id⟩
  | obj fields =>
    obtain ⟨fields', rfl, -⟩ := alike_obj.1 h
    exact Or.inr ⟨id, id⟩
  | _ => exact Or.inl h

/-- Values alike have members alike, under a key that is not secret. -/
theorem Alike.get? {v w : Json} (h : Alike secret R v w) {key : String}
    (hs : secret key = false) : Option.Rel (Alike secret R) (v.get? key) (w.get? key) := by
  cases v with
  | obj fields =>
    obtain ⟨fields', rfl, hfields⟩ := alike_obj.1 h
    clear h
    simp only [Json.get?]
    induction hfields with
    | nil => exact .none
    | @cons f g fields fields' hfg _ ih =>
      obtain ⟨k, v⟩ := f
      obtain ⟨k', w⟩ := g
      obtain ⟨hk, hvw⟩ := hfg
      obtain rfl : k' = k := hk
      rw [List.lookup_cons, List.lookup_cons]
      by_cases hkey : key = k'
      · subst hkey
        rw [if_neg (by simp [hs])] at hvw
        simpa using Option.Rel.some hvw
      · simpa [beq_false_of_ne hkey] using ih
  | arr items =>
    obtain ⟨items', rfl, -⟩ := alike_arr.1 h
    exact .none
  | _ =>
    obtain rfl := h
    exact .none

/-- The copies of members are like them where no member is `__proto__`. -/
theorem forall₂_redactField_iff {fields : List (String × Json)} :
    List.Forall₂ (AlikeField secret R) fields
        ((fields.filter fun f => f.1 ≠ proto).map (redactField secret marker)) ↔
      ∀ f ∈ fields, f.1 ≠ proto ∧ AlikeField secret R f (redactField secret marker f) := by
  constructor
  · intro h
    have hlen := h.length_eq
    rw [List.length_map] at hlen
    have hall := List.length_filter_eq_length_iff.1 hlen.symm
    rw [List.filter_eq_self.2 hall, List.forall₂_map_right_iff, List.forall₂_same] at h
    exact fun f hf => ⟨by simpa using hall f hf, h f hf⟩
  · intro h
    rw [List.filter_eq_self.2 fun f hf => by simpa using (h f hf).1, List.forall₂_map_right_iff,
      List.forall₂_same]
    exact fun f hf => (h f hf).2

/-- The copy of a value is the value with the marker under its secret keys, unless a
`__proto__` was to be copied. -/
theorem alike_redact_iff {v : Json} (hd : Distinct v) :
    Alike secret (fun _ w => w = marker) v (redact secret marker v) ↔ ¬ HasProto secret v := by
  induction v using Json.induct with
  | scalar v hv =>
    rw [redact_of_isScalar hv, alike_of_isScalar hv]
    exact iff_of_true rfl (not_hasProto_of_isScalar hv)
  | arr items ih =>
    cases hd with
    | scalar h => exact h.elim
    | arr hd =>
      rw [redact_arr, alike_arr, hasProto_arr]
      simp only [Json.arr.injEq, exists_eq_left', List.forall₂_map_right_iff, List.forall₂_same]
      push Not
      exact forall₂_congr fun v hv => ih v hv (hd v hv)
  | obj fields ih =>
    cases hd with
    | scalar h => exact h.elim
    | obj hk hd =>
      rw [redact_obj hk, alike_obj, hasProto_obj]
      simp only [Json.obj.injEq, exists_eq_left', forall₂_redactField_iff]
      push Not
      refine forall₂_congr fun f hf => and_congr_right fun _ => ?_
      simp only [AlikeField, redactField, true_and]
      cases hs : secret f.1 with
      | true => simp
      | false => simpa using ih f hf (hd f hf)

/-- Copying a copy changes nothing. -/
theorem redact_redact {v : Json} (hd : Distinct v) :
    redact secret marker (redact secret marker v) = redact secret marker v := by
  induction v using Json.induct with
  | scalar v hv => rw [redact_of_isScalar hv, redact_of_isScalar hv]
  | arr items ih =>
    cases hd with
    | scalar h => exact h.elim
    | arr hd =>
      rw [redact_arr, redact_arr, List.map_map]
      exact congrArg Json.arr (List.map_congr_left fun v hv => ih v hv (hd v hv))
  | obj fields ih =>
    cases hd with
    | scalar h => exact h.elim
    | obj hk hd =>
      have hk' : (((fields.filter fun f => f.1 ≠ proto).map
          (redactField secret marker)).map Prod.fst).Nodup := by
        rw [List.map_map]
        exact hk.sublist (List.filter_sublist.map _)
      rw [redact_obj hk, redact_obj hk', List.filter_eq_self.2, List.map_map]
      · refine congrArg Json.obj (List.map_congr_left fun f hf => ?_)
        have hf := List.mem_of_mem_filter hf
        by_cases hs : secret f.1 = true <;>
          simp [redactField, hs, ih f hf (hd f hf)]
      · intro f hf
        obtain ⟨g, hg, rfl⟩ := List.mem_map.1 hf
        exact (List.mem_filter.1 hg).2

/-! ## Changing what is secret -/

/-- A value other than `v`. -/
def other : Json → Json
  | .null => .bool true
  | _ => .null

theorem other_ne (v : Json) : other v ≠ v := by
  cases v <;> simp [other]

mutual

/-- Every value under a secret key is changed. -/
def perturb (secret : String → Bool) : Json → Json
  | .arr items => .arr (perturbItems secret items)
  | .obj fields => .obj (perturbFields secret fields)
  | v => v

/-- In the items of an array. -/
def perturbItems (secret : String → Bool) : List Json → List Json
  | [] => []
  | v :: items => perturb secret v :: perturbItems secret items

/-- In the members of an object. -/
def perturbFields (secret : String → Bool) : List (String × Json) → List (String × Json)
  | [] => []
  | (key, v) :: fields =>
    (key, if secret key then other v else perturb secret v) :: perturbFields secret fields

end

/-- In one member. -/
def perturbField (secret : String → Bool) (f : String × Json) : String × Json :=
  (f.1, if secret f.1 then other f.2 else perturb secret f.2)

theorem perturb_of_isScalar {v : Json} (h : v.IsScalar) : perturb secret v = v := by
  cases v with
  | arr items | obj fields => exact h.elim
  | _ => rfl

theorem perturb_arr (items : List Json) :
    perturb secret (.arr items) = .arr (items.map (perturb secret)) := by
  have h : perturbItems secret items = items.map (perturb secret) := by
    induction items with
    | nil => rfl
    | cons v items ih => rw [perturbItems, ih, List.map_cons]
  rw [perturb, h]

theorem perturb_obj (fields : List (String × Json)) :
    perturb secret (.obj fields) = .obj (fields.map (perturbField secret)) := by
  have h : perturbFields secret fields = fields.map (perturbField secret) := by
    induction fields with
    | nil => rfl
    | cons f fields ih => rw [perturbFields, ih, List.map_cons, perturbField]
  rw [perturb, h]

/-- Nothing else is changed. -/
theorem agree_perturb (v : Json) : Agree secret v (perturb secret v) := by
  induction v using Json.induct with
  | scalar v hv =>
    rw [perturb_of_isScalar hv]
    exact .refl v
  | arr items ih =>
    rw [perturb_arr]
    exact alike_arr.2 ⟨_, rfl, List.forall₂_map_right_iff.2 (List.forall₂_same.2 ih)⟩
  | obj fields ih =>
    rw [perturb_obj]
    refine alike_obj.2 ⟨_, rfl,
      List.forall₂_map_right_iff.2 (List.forall₂_same.2 fun f hf => ⟨rfl, ?_⟩)⟩
    by_cases hs : secret f.1 = true
    · rw [if_pos hs]
      trivial
    · rw [if_neg hs, perturbField, if_neg hs]
      exact ih f hf

/-- Something is changed where there is a secret key. -/
theorem perturb_ne {v : Json} (h : HasKey secret v) : perturb secret v ≠ v := by
  induction v using Json.induct with
  | scalar v hv => exact absurd h (not_hasKey_of_isScalar hv)
  | arr items ih =>
    obtain ⟨v, hv, hk⟩ := hasKey_arr.1 h
    rw [perturb_arr]
    intro heq
    have hfix := List.map_inj_left.1 ((Json.arr.inj heq).trans (List.map_id' items).symm) v hv
    exact ih v hv hk hfix
  | obj fields ih =>
    obtain ⟨f, hf, hk⟩ := hasKey_obj.1 h
    rw [perturb_obj]
    intro heq
    have hfix := List.map_inj_left.1 ((Json.obj.inj heq).trans (List.map_id' fields).symm) f hf
    have hval : (if secret f.1 then other f.2 else perturb secret f.2) = f.2 :=
      congrArg Prod.snd hfix
    by_cases hs : secret f.1 = true
    · rw [if_pos hs] at hval
      exact other_ne f.2 hval
    · rw [if_neg hs] at hval
      exact ih f hf (hk.resolve_left hs) hval

/-- A member that is not secret is changed inside. -/
theorem get?_perturb (v : Json) {key : String} (hs : secret key = false) :
    (perturb secret v).get? key = (v.get? key).map (perturb secret) := by
  cases v with
  | obj fields =>
    rw [perturb_obj]
    simp only [Json.get?]
    induction fields with
    | nil => rfl
    | cons f fields ih =>
      obtain ⟨k, v⟩ := f
      rw [List.map_cons, perturbField, List.lookup_cons, List.lookup_cons, ih]
      by_cases hk : key = k
      · subst hk
        simp [hs]
      · simp [beq_false_of_ne hk]
  | arr items =>
    rw [perturb_arr]
    rfl
  | _ => rfl

end Redact
