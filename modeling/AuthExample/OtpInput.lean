import AuthExample.Runs
import Mathlib.Data.String.Basic

/-!
# The segmented code input

`OtpInput` keeps one string for each cell. A change keeps the last digit of what its cell was
given and moves the focus on, Backspace clears its cell or the one before, a paste on the first
cell distributes the digits of the text over the cells.

`OtpInput.run_spec`, `OtpInput.step_spec` : after any events every cell is empty or one digit,
and `onComplete` is called with the cells' code at each change or paste that leaves them all
filled. `OtpInput.paste_eq_typeDigits` : a paste does what typing its digits does.
-/

namespace AuthExample

open Runs

/-- The component : its cells, the cell in focus, and the calls of `onComplete`. -/
structure OtpInput where
  values : List String
  focused : Option ℕ
  completed : List String

namespace OtpInput

/-- The keys `handleKeyDown` tells apart. -/
inductive Key where
  | backspace | arrowLeft | arrowRight
  | other (name : String)

/-! ## The handlers -/

/-- `text.replace(/\D/g, '')`. -/
def digitsOf (text : String) : List Char := text.toList.filter Char.isDigit

/-- Move the focus to a cell, if there is one at the index. -/
def focus (s : OtpInput) (index : ℕ) : OtpInput :=
  if index < s.values.length then { s with focused := some index } else s

/-- Call `onComplete` where the next cells are all filled. -/
def notifyIfComplete (s : OtpInput) (next : List String) : OtpInput :=
  if next.all fun v => 0 < v.length then
    { s with completed := s.completed ++ [String.join next] }
  else s

/-- The cells with one of them replaced. -/
def setCell (values : List String) (index : ℕ) (text : String) : List String :=
  values.mapIdx fun i v => if i = index then text else v

def handleChange (length : ℕ) (s : OtpInput) (index : ℕ) (rawValue : String) : OtpInput :=
  let digit := String.ofList (digitsOf rawValue).getLast?.toList
  let next := setCell s.values index digit
  let s := { s with values := next }
  let s := if 0 < digit.length ∧ index < length - 1 then s.focus (index + 1) else s
  s.notifyIfComplete next

/-- `value` is what the cell shows. -/
def handleKeyDown (length : ℕ) (s : OtpInput) (index : ℕ) (value : String) : Key → OtpInput
  | .backspace =>
    if value = "" ∧ 0 < index then
      { s with values := setCell s.values (index - 1) "" }.focus (index - 1)
    else { s with values := setCell s.values index "" }
  | .arrowLeft => if 0 < index then s.focus (index - 1) else s
  | .arrowRight => if index < length - 1 then s.focus (index + 1) else s
  | .other _ => s

def handlePaste (length : ℕ) (s : OtpInput) (text : String) : OtpInput :=
  let chars := (digitsOf text).take length
  let next := (List.range length).map fun i => ((chars[i]?).map String.singleton).getD ""
  let s := { s with values := next }
  (s.focus (min chars.length (length - 1))).notifyIfComplete next

/-! ## Runs -/

/-- An event on a cell. Only the first cell takes a paste. -/
inductive Event where
  | change (index : ℕ) (rawValue : String)
  | keyDown (index : ℕ) (key : Key)
  | paste (text : String)

/-- The cells are rendered between events, so that a cell shows its value. -/
def step (length : ℕ) (s : OtpInput) : Event → Option OtpInput
  | .change index rawValue =>
    if index < s.values.length then some (handleChange length s index rawValue) else none
  | .keyDown index key => s.values[index]?.map fun value => handleKeyDown length s index value key
  | .paste text => if 0 < s.values.length then some (handlePaste length s text) else none

/-- The component as it is mounted. -/
def mount (length : ℕ) (focused : Option ℕ) : OtpInput :=
  { values := List.replicate length "", focused, completed := [] }

/-- Type digits, each into the cell in focus. -/
def typeDigits (length : ℕ) : OtpInput → List Char → Option OtpInput
  | s, [] => some s
  | s, d :: ds => do
    let index ← s.focused
    typeDigits length (← step length s (.change index (String.singleton d))) ds

/-! ## What every event keeps -/

/-- Empty, or one digit. -/
def IsCell (v : String) : Prop := v = "" ∨ ∃ d : Char, d.isDigit = true ∧ v = String.singleton d

/-- There are as many cells as `length` says. -/
structure Cells (length : ℕ) (values : List String) : Prop where
  count : values.length = length
  cell : ∀ v ∈ values, IsCell v

/-- The event can fill a cell. -/
def Event.Edits : Event → Prop
  | .change _ _ | .paste _ => True
  | .keyDown _ _ => False

theorem digitsOf_isDigit {text : String} {d : Char} (h : d ∈ digitsOf text) :
    d.isDigit = true :=
  (List.mem_filter.1 h).2

theorem isCell_lastDigit (text : String) :
    IsCell (String.ofList (digitsOf text).getLast?.toList) := by
  cases hlast : (digitsOf text).getLast? with
  | none => exact Or.inl rfl
  | some d => exact Or.inr ⟨d, digitsOf_isDigit (List.mem_of_getLast? hlast), rfl⟩

theorem Cells.setCell {length : ℕ} {values : List String} (h : Cells length values) {text : String}
    (htext : IsCell text) (index : ℕ) : Cells length (setCell values index text) := by
  refine ⟨List.length_mapIdx.trans h.count, fun v hv => ?_⟩
  obtain ⟨i, hi, rfl⟩ := List.mem_mapIdx.1 hv
  split_ifs
  · exact htext
  · exact h.cell _ (List.getElem_mem hi)

/-- Distributed digits are cells. -/
theorem cells_paste (length : ℕ) (text : String) : Cells length ((List.range length).map fun i =>
    ((((digitsOf text).take length)[i]?).map String.singleton).getD "") := by
  refine ⟨by rw [List.length_map, List.length_range], fun v hv => ?_⟩
  obtain ⟨i, -, rfl⟩ := List.mem_map.1 hv
  cases hd : ((digitsOf text).take length)[i]? with
  | none => exact Or.inl rfl
  | some d =>
    have hmem : d ∈ digitsOf text := List.mem_of_mem_take (List.mem_of_getElem? hd)
    exact Or.inr ⟨d, digitsOf_isDigit hmem, rfl⟩

/-- What an event calls : an edit that leaves every cell filled calls `onComplete` with their
code, and nothing else calls it. -/
structure Reports (e : Event) (s s' : OtpInput) : Prop where
  full : e.Edits → (∀ v ∈ s'.values, v ≠ "") →
    s'.completed = s.completed ++ [String.join s'.values]
  otherwise : ¬(e.Edits ∧ ∀ v ∈ s'.values, v ≠ "") → s'.completed = s.completed

@[simp]
theorem focus_values (s : OtpInput) (index : ℕ) : (s.focus index).values = s.values := by
  unfold focus
  split_ifs <;> rfl

@[simp]
theorem focus_completed (s : OtpInput) (index : ℕ) : (s.focus index).completed = s.completed := by
  unfold focus
  split_ifs <;> rfl

@[simp]
theorem notifyIfComplete_values (s : OtpInput) (next : List String) :
    (s.notifyIfComplete next).values = s.values := by
  unfold notifyIfComplete
  split_ifs <;> rfl

theorem all_filled {values : List String} :
    (values.all fun v => 0 < v.length) = true ↔ ∀ v ∈ values, v ≠ "" := by
  simp [Nat.pos_iff_ne_zero]

/-- Notifying with the cells as they are calls `onComplete` where they are all filled. -/
theorem notifyIfComplete_completed {s : OtpInput} :
    ((∀ v ∈ s.values, v ≠ "") →
      (s.notifyIfComplete s.values).completed = s.completed ++ [String.join s.values]) ∧
    (¬(∀ v ∈ s.values, v ≠ "") → (s.notifyIfComplete s.values).completed = s.completed) := by
  unfold notifyIfComplete
  refine ⟨fun h => ?_, fun h => ?_⟩
  · rw [if_pos (all_filled.2 h)]
  · rw [if_neg (mt all_filled.1 h)]

/-- What an edit does : it sets the cells, moves the focus, and notifies with the new cells. -/
theorem reports_of_edits {e : Event} (he : e.Edits) {s t : OtpInput}
    (ht : t.completed = s.completed) : Reports e s (t.notifyIfComplete t.values) := by
  obtain ⟨hfull, hother⟩ := notifyIfComplete_completed (s := t)
  refine ⟨fun _ h => ?_, fun h => ?_⟩
  · rw [notifyIfComplete_values] at h ⊢
    rw [hfull h, ht]
  · rw [notifyIfComplete_values] at h
    rw [hother fun hall => h ⟨he, hall⟩, ht]

/-- A change sets its cell, and notifies with the cells as they are then. -/
theorem handleChange_eq (length : ℕ) (s : OtpInput) (index : ℕ) (rawValue : String) :
    ∃ t : OtpInput, handleChange length s index rawValue = t.notifyIfComplete t.values ∧
      t.completed = s.completed ∧
      t.values = setCell s.values index (String.ofList (digitsOf rawValue).getLast?.toList) := by
  unfold handleChange
  simp only
  split_ifs
  · exact ⟨_, by rw [focus_values], by rw [focus_completed], by rw [focus_values]⟩
  · exact ⟨_, rfl, rfl, rfl⟩

/-- A paste sets every cell, and notifies with the cells as they are then. -/
theorem handlePaste_eq (length : ℕ) (s : OtpInput) (text : String) :
    ∃ t : OtpInput, handlePaste length s text = t.notifyIfComplete t.values ∧
      t.completed = s.completed ∧ Cells length t.values := by
  unfold handlePaste
  exact ⟨_, by rw [focus_values], by rw [focus_completed], by
    rw [focus_values]
    exact cells_paste length text⟩

/-- A key reports nothing, and clears no more than cells. -/
theorem handleKeyDown_spec {length : ℕ} {s : OtpInput} (h : Cells length s.values) (index : ℕ)
    (value : String) (key : Key) :
    Cells length (handleKeyDown length s index value key).values ∧
      (handleKeyDown length s index value key).completed = s.completed := by
  have hclear (i : ℕ) : Cells length (setCell s.values i "") := h.setCell (Or.inl rfl) i
  cases key with
  | backspace =>
    rw [handleKeyDown]
    split_ifs
    · exact ⟨(focus_values _ _).symm ▸ hclear _, focus_completed _ _⟩
    · exact ⟨hclear _, rfl⟩
  | arrowLeft =>
    rw [handleKeyDown]
    split_ifs
    · exact ⟨(focus_values _ _).symm ▸ h, focus_completed _ _⟩
    · exact ⟨h, rfl⟩
  | arrowRight =>
    rw [handleKeyDown]
    split_ifs
    · exact ⟨(focus_values _ _).symm ▸ h, focus_completed _ _⟩
    · exact ⟨h, rfl⟩
  | other name => exact ⟨h, rfl⟩

/-- One event keeps the cells, and reports what it should. -/
theorem step_spec {length : ℕ} {s s' : OtpInput} {e : Event} (h : Cells length s.values)
    (hstep : step length s e = some s') : Cells length s'.values ∧ Reports e s s' := by
  cases e with
  | change index rawValue =>
    obtain ⟨-, rfl⟩ := enabled_iff.1 hstep
    have hedits : (Event.change index rawValue).Edits := trivial
    obtain ⟨t, ht, hcompleted, hvalues⟩ := handleChange_eq length s index rawValue
    rw [ht, notifyIfComplete_values]
    refine ⟨?_, reports_of_edits hedits hcompleted⟩
    rw [hvalues]
    exact h.setCell (isCell_lastDigit rawValue) index
  | keyDown index key =>
    obtain ⟨value, -, rfl⟩ := Option.map_eq_some_iff.1 hstep
    obtain ⟨hcells, hcompleted⟩ := handleKeyDown_spec h index value key
    exact ⟨hcells, fun he => absurd he id, fun _ => hcompleted⟩
  | paste text =>
    obtain ⟨-, rfl⟩ := enabled_iff.1 hstep
    have hedits : (Event.paste text).Edits := trivial
    obtain ⟨t, ht, hcompleted, hcells⟩ := handlePaste_eq length s text
    rw [ht, notifyIfComplete_values]
    exact ⟨hcells, reports_of_edits hedits hcompleted⟩

/-- As many digits as there are cells. -/
def IsCode (length : ℕ) (code : String) : Prop :=
  code.toList.length = length ∧ ∀ d ∈ code.toList, d.isDigit = true

/-- Filled cells hold a digit each. -/
theorem Cells.isCode {length : ℕ} {values : List String} (h : Cells length values)
    (hfilled : ∀ v ∈ values, v ≠ "") : IsCode length (String.join values) := by
  obtain ⟨rfl, hcell⟩ := h
  rw [IsCode, String.toList_join]
  induction values with
  | nil => exact ⟨rfl, nofun⟩
  | cons v values ih =>
    obtain ⟨d, hd, rfl⟩ := (hcell v List.mem_cons_self).resolve_left (hfilled v List.mem_cons_self)
    obtain ⟨hlength, hdigits⟩ := ih (fun w hw => hfilled w (List.mem_cons_of_mem _ hw))
      fun w hw => hcell w (List.mem_cons_of_mem _ hw)
    simp only [List.flatMap_cons, String.toList_singleton, List.singleton_append]
    refine ⟨congrArg (· + 1) hlength, fun c hc => ?_⟩
    rcases List.mem_cons.1 hc with rfl | hc
    · exact hd
    · exact hdigits c hc

/-! ## Typing and pasting -/

/-- The component after some digits, from empty cells and earlier calls. -/
def typed (length : ℕ) (completed : List String) (digits : List Char) : OtpInput where
  values := digits.map String.singleton ++ List.replicate (length - digits.length) ""
  focused := some (min digits.length (length - 1))
  completed := completed ++ if digits.length = length then [String.ofList digits] else []

theorem setCell_eq_set (values : List String) (index : ℕ) (text : String) :
    setCell values index text = values.set index text := by
  refine List.ext_getElem (by simp [setCell]) fun i _ _ => ?_
  simp [setCell, List.getElem_set, eq_comm]

theorem join_singletons (digits : List Char) :
    String.join (digits.map String.singleton) = String.ofList digits := by
  rw [← String.toList_inj, String.toList_join, String.toList_ofList]
  induction digits with
  | nil => rfl
  | cons d digits ih =>
    rw [List.map_cons, List.flatMap_cons, String.toList_singleton, ih, List.singleton_append]

/-- The typed cells are filled where there is a digit for each. -/
theorem typed_filled {digits : List Char} {k : ℕ} :
    (∀ v ∈ digits.map String.singleton ++ List.replicate k "", v ≠ "") ↔ k = 0 := by
  constructor
  · intro h
    by_contra hk
    exact h "" (List.mem_append_right _ (List.mem_replicate.2 ⟨hk, rfl⟩)) rfl
  · rintro rfl v hv
    rw [List.replicate_zero, List.append_nil] at hv
    obtain ⟨d, -, rfl⟩ := List.mem_map.1 hv
    exact String.singleton_ne_empty

/-- Notifying adds the call of the typed digits where they fill the cells. -/
theorem notifyIfComplete_typed {length : ℕ} {s : OtpInput} {digits : List Char}
    {next completed : List String} (hlength : digits.length ≤ length)
    (hnext : next = digits.map String.singleton ++ List.replicate (length - digits.length) "")
    (hvalues : s.values = next) (hfocused : s.focused = some (min digits.length (length - 1)))
    (hcompleted : s.completed = completed) :
    s.notifyIfComplete next = typed length completed digits := by
  obtain ⟨values, focused, calls⟩ := s
  obtain rfl := hvalues
  obtain rfl := hnext
  obtain rfl := hfocused
  obtain rfl := hcompleted
  rw [notifyIfComplete, typed]
  by_cases hfull : digits.length = length
  · have hk : length - digits.length = 0 := by omega
    rw [if_pos (all_filled.2 (typed_filled.2 hk)), if_pos hfull, hk, List.replicate_zero,
      List.append_nil, join_singletons]
  · have hk : length - digits.length ≠ 0 := by omega
    rw [if_neg (mt all_filled.1 (mt typed_filled.1 hk)), if_neg hfull, List.append_nil]

/-- The next digit goes into the first empty cell. -/
theorem setCell_typed {length : ℕ} {digits : List Char} (hlength : digits.length < length)
    (d : Char) :
    setCell (digits.map String.singleton ++ List.replicate (length - digits.length) "")
        digits.length (String.singleton d) =
      (digits ++ [d]).map String.singleton ++
        List.replicate (length - (digits ++ [d]).length) "" := by
  have hk : length - digits.length = length - (digits ++ [d]).length + 1 := by
    rw [List.length_append, List.length_singleton]
    omega
  rw [setCell_eq_set, hk, List.replicate_succ, List.set_append_right _ _ (by simp)]
  simp

theorem focus_of_lt {s : OtpInput} {index : ℕ} (h : index < s.values.length) :
    s.focus index = { s with focused := some index } := if_pos h

theorem length_typed {length : ℕ} {completed : List String} {digits : List Char}
    (hlength : digits.length ≤ length) :
    (typed length completed digits).values.length = length := by
  rw [typed, List.length_append, List.length_map, List.length_replicate]
  omega

/-- Typing the next digit. -/
theorem step_typed {length : ℕ} {completed : List String} {digits : List Char} {d : Char}
    (hd : d.isDigit = true) (hlength : digits.length < length) :
    step length (typed length completed digits) (.change digits.length (String.singleton d)) =
      some (typed length completed (digits ++ [d])) := by
  have hcells : (typed length completed digits).values.length = length := length_typed hlength.le
  have hcompleted : (typed length completed digits).completed = completed := by
    rw [typed, if_neg hlength.ne, List.append_nil]
  have hdigit : String.ofList (digitsOf (String.singleton d)).getLast?.toList =
      String.singleton d := by
    rw [digitsOf, String.toList_singleton, List.filter_cons_of_pos hd]
    rfl
  have hnext := setCell_typed hlength d
  have hcount : (digits ++ [d]).length = digits.length + 1 := List.length_append
  have hdone : (digits ++ [d]).length ≤ length := by omega
  have hnonempty : 0 < (String.singleton d).length := by
    rw [String.length_singleton]
    exact Nat.one_pos
  rw [step, if_pos (hcells.symm ▸ hlength), handleChange, hdigit]
  refine congrArg some ?_
  by_cases hlast : digits.length < length - 1
  · have hmounted : digits.length + 1 < (setCell (typed length completed digits).values
        digits.length (String.singleton d)).length := by
      rw [setCell, List.length_mapIdx, hcells]
      omega
    rw [if_pos ⟨hnonempty, hlast⟩, focus_of_lt hmounted]
    refine notifyIfComplete_typed hdone hnext rfl (congrArg some ?_) hcompleted
    omega
  · rw [if_neg fun h => hlast h.2]
    refine notifyIfComplete_typed hdone hnext rfl (congrArg some ?_) hcompleted
    omega

/-- Typing the rest of the digits. -/
theorem typeDigits_typed {length : ℕ} {completed : List String} {rest digits : List Char}
    (hrest : ∀ d ∈ rest, d.isDigit = true) (hlength : digits.length + rest.length ≤ length) :
    typeDigits length (typed length completed digits) rest =
      some (typed length completed (digits ++ rest)) := by
  induction rest generalizing digits with
  | nil => rw [List.append_nil]; rfl
  | cons d rest ih =>
    rw [List.length_cons] at hlength
    have hroom : digits.length < length := by omega
    have hfocused : (typed length completed digits).focused = some digits.length := by
      have hmin : min digits.length (length - 1) = digits.length := by omega
      rw [typed, hmin]
    have hlength' : (digits ++ [d]).length + rest.length ≤ length := by
      rw [List.length_append, List.length_singleton]
      omega
    rw [typeDigits, hfocused]
    simp only [Option.bind_eq_bind, Option.bind_some, step_typed (hrest d List.mem_cons_self) hroom]
    rw [ih (fun c hc => hrest c (List.mem_cons_of_mem _ hc)) hlength', List.append_assoc,
      List.singleton_append]

/-- The distributed cells are the typed ones. -/
theorem paste_cells {length : ℕ} {chars : List Char} (h : chars.length ≤ length) :
    ((List.range length).map fun i => ((chars[i]?).map String.singleton).getD "") =
      chars.map String.singleton ++ List.replicate (length - chars.length) "" := by
  refine List.ext_getElem (by simp; omega) fun i hi _ => ?_
  rw [List.getElem_map, List.getElem_range, List.getElem_append]
  by_cases hchar : i < chars.length
  · simp [hchar]
  · simp [hchar]

/-- A paste into empty cells. -/
theorem step_paste {length : ℕ} (hpos : 0 < length) (completed : List String) (text : String) :
    step length (typed length completed []) (.paste text) =
      some (typed length completed ((digitsOf text).take length)) := by
  have hlength : ((digitsOf text).take length).length ≤ length := List.length_take_le _ _
  have hcells : (typed length completed []).values.length = length := length_typed (Nat.zero_le _)
  have hcompleted : (typed length completed []).completed = completed := by
    rw [typed, List.length_nil, if_neg hpos.ne, List.append_nil]
  have hnext := paste_cells hlength
  rw [step, if_pos (hcells.symm ▸ hpos), handlePaste]
  have hmounted : min ((digitsOf text).take length).length (length - 1) <
      ((List.range length).map fun i =>
        ((((digitsOf text).take length)[i]?).map String.singleton).getD "").length := by
    rw [List.length_map, List.length_range]
    omega
  rw [focus_of_lt hmounted]
  exact congrArg some (notifyIfComplete_typed hlength hnext rfl rfl hcompleted)

/-! ## The component -/

/-- After any events the cells are cells, and every call had a full code. -/
theorem run_spec {length : ℕ} {focused : Option ℕ} {events : List Event} {s : OtpInput}
    (hrun : run (step length) (mount length focused) events = some s) :
    Cells length s.values ∧ ∀ code ∈ s.completed, IsCode length code := by
  refine run_induction (P := fun _ s => Cells length s.values ∧ ∀ code ∈ s.completed,
    IsCode length code) ?_ ?_ hrun
  · exact ⟨⟨List.length_replicate, fun v hv => Or.inl (List.eq_of_mem_replicate hv)⟩, nofun⟩
  · rintro events s e s' - ⟨hcells, hcodes⟩ hstep
    obtain ⟨hcells', hreports⟩ := step_spec hcells hstep
    refine ⟨hcells', fun code hcode => ?_⟩
    by_cases hcall : e.Edits ∧ ∀ v ∈ s'.values, v ≠ ""
    · rw [hreports.full hcall.1 hcall.2] at hcode
      rcases List.mem_append.1 hcode with hcode | hcode
      · exact hcodes code hcode
      · rw [List.mem_singleton.1 hcode]
        exact hcells'.isCode hcall.2
    · rw [hreports.otherwise hcall] at hcode
      exact hcodes code hcode

/-- Empty cells, the first in focus. -/
theorem typed_nil {length : ℕ} (hpos : 0 < length) (completed : List String) :
    typed length completed [] = { mount length (some 0) with completed } := by
  rw [typed, List.length_nil, if_neg hpos.ne, List.append_nil, Nat.zero_min]
  rfl

/-- A paste into empty cells does what typing its digits does : it fills the first cells with
them. -/
theorem paste_eq_typeDigits {length : ℕ} (hpos : 0 < length) (completed : List String)
    (text : String) :
    step length { mount length (some 0) with completed } (.paste text) =
        some (typed length completed ((digitsOf text).take length)) ∧
      typeDigits length { mount length (some 0) with completed }
          ((digitsOf text).take length) =
        some (typed length completed ((digitsOf text).take length)) := by
  rw [← typed_nil hpos]
  refine ⟨step_paste hpos completed text, ?_⟩
  have hdigits : ∀ d ∈ (digitsOf text).take length, d.isDigit = true := fun d hd =>
    digitsOf_isDigit (List.mem_of_mem_take hd)
  have hroom : ([] : List Char).length + ((digitsOf text).take length).length ≤ length := by
    rw [List.length_nil, Nat.zero_add]
    exact List.length_take_le _ _
  exact typeDigits_typed hdigits hroom

/-- After any events the cells are cells and every call had a full code, the next event reports
what it should, and pasting and typing both put the digits into the first cells. -/
theorem cells_reports_paste {length : ℕ} (hpos : 0 < length) :
    (∀ focused events s, run (step length) (mount length focused) events = some s →
      Cells length s.values ∧ (∀ code ∈ s.completed, IsCode length code) ∧
        ∀ e s', step length s e = some s' → Reports e s s') ∧
      ∀ completed text,
        step length { mount length (some 0) with completed } (.paste text) =
            some (typed length completed ((digitsOf text).take length)) ∧
          typeDigits length { mount length (some 0) with completed }
              ((digitsOf text).take length) =
            some (typed length completed ((digitsOf text).take length)) := by
  refine ⟨fun focused events s hrun => ?_, paste_eq_typeDigits hpos⟩
  obtain ⟨hcells, hcodes⟩ := run_spec hrun
  exact ⟨hcells, hcodes, fun e s' hstep => (step_spec hcells hstep).2⟩

/-- The text has more digits than there are cells. -/
theorem paste_overlong :
    step 2 { mount 2 (some 0) with completed := [] } (.paste "1-2-3") =
        some ⟨["1", "2"], some 1, ["12"]⟩ ∧
      typeDigits 2 { mount 2 (some 0) with completed := [] } ['1', '2'] =
        some ⟨["1", "2"], some 1, ["12"]⟩ := by
  have hdigits : (digitsOf "1-2-3").take 2 = ['1', '2'] := by decide
  have hpaste := (cells_reports_paste Nat.two_pos).2 [] "1-2-3"
  rw [hdigits] at hpaste
  exact hpaste

end OtpInput

end AuthExample
