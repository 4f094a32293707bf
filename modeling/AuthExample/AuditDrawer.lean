import AuthExample.Redact
import AuthExample.Regex

/-!
# The drawer of an audit row

`RowDetail` shows the details of a row as JSON, redacted where a key looks like that of a
secret. The detector and the redactor are two recursions over the details.

`drawer_contract_iff` : they agree, and what is shown is the details with a marker under the secret
keys, exactly where the redactor meets no key `__proto__`.
-/

namespace AuthExample

open Redact

namespace AuditDrawer

/-- `\w`. -/
def isWord (c : Char) : Bool := c.isAlphanum || c == '_'

/-- `SECRET_KEY_RE`. The word boundaries around `code`, a word itself, are the start or a
character of no word before it, and no character of a word after it. -/
def secretKeyRe : Regex :=
  .alt (.litNoCase "token") <| .alt (.litNoCase "secret") <| .alt (.litNoCase "password") <|
    .alt (.litNoCase "otp") <| .alt (.litNoCase "recovery") <| .alt (.litNoCase "ticket") <|
      .seq (.alt .bos (.set fun c => !isWord c))
        (.seq (.litNoCase "code") (.notAhead (.set isWord)))

/-- `SECRET_KEY_RE.test(key)`. -/
def secretKey (key : String) : Bool := secretKeyRe.test key

example : secretKey "recoveryCode" = true ∧ secretKey "otp_code" = true ∧
    secretKey "error.Code" = true ∧ secretKey "codes" = false ∧ secretKey "__proto__" = false := by
  decide

/-- What is shown for a secret. -/
def redacted : Json := .str "<redacted>"

/-- `valueContainsSecret`. -/
def valueContainsSecret : Json → Bool := contains secretKey

/-- `containsSecret`. -/
def containsSecret (details : Json) : Bool := valueContainsSecret details

/-- `redactValue`. -/
def redactValue : Json → Json := redact secretKey redacted

/-- `redactDetails`. -/
def redactDetails (details : Json) : Json := redactValue details

/-- Details as `JSON.parse` makes them : the keys of an object are distinct. -/
structure Details where
  value : Json
  distinct : Distinct value

/-- The value `RowDetail` serialises. -/
def rowDetail (d : Details) : Json :=
  if containsSecret d.value then redactDetails d.value else d.value

/-- What the drawer promises of the details. -/
structure Contract (d : Details) : Prop where
  /-- The details are shown, with the marker under every secret key and nothing else
  changed. -/
  shown : Alike secretKey (fun _ w => w = redacted) d.value (rowDetail d)
  /-- The detector finds a secret key at any depth. -/
  detects : containsSecret d.value = true ↔ HasKey secretKey d.value
  /-- There is nothing to redact where it finds none. -/
  clean : containsSecret d.value = false → redactDetails d.value = d.value
  /-- To redact again changes nothing. -/
  idempotent : redactDetails (redactDetails d.value) = redactDetails d.value
  /-- The detector says the same of the redacted details. -/
  agrees : containsSecret (redactDetails d.value) = containsSecret d.value

/-- Without a secret key, the details are redacted to themselves exactly where no `__proto__`
is copied. -/
theorem redactDetails_eq_iff {d : Details} (h : containsSecret d.value = false) :
    redactDetails d.value = d.value ↔ ¬ HasProto secretKey d.value := by
  have hno : ¬ HasKey secretKey d.value := fun hk => by
    have hc : containsSecret d.value = true := (contains_iff d.value).2 hk
    rw [h] at hc
    cases hc
  have halike : Alike secretKey (fun _ w => w = redacted) d.value (redactDetails d.value) ↔
      ¬ HasProto secretKey d.value := alike_redact_iff d.distinct
  rw [← halike, alike_of_not_hasKey hno]

/-- The drawer keeps its promise exactly where the redactor meets no key `__proto__`. -/
theorem drawer_contract_iff (d : Details) : Contract d ↔ ¬ HasProto secretKey d.value := by
  constructor
  · intro h
    cases hc : containsSecret d.value with
    | true =>
      have hshown := h.shown
      rw [rowDetail, if_pos hc] at hshown
      exact (alike_redact_iff d.distinct).1 hshown
    | false => exact (redactDetails_eq_iff hc).1 (h.clean hc)
  · intro h
    have hredacted : Alike secretKey (fun _ w => w = redacted) d.value
        (redactDetails d.value) := (alike_redact_iff d.distinct).2 h
    have hclean : containsSecret d.value = false → redactDetails d.value = d.value :=
      fun hc => (redactDetails_eq_iff hc).2 h
    refine ⟨?_, contains_iff d.value, hclean, redact_redact d.distinct, ?_⟩
    · cases hc : containsSecret d.value with
      | true =>
        rw [rowDetail, if_pos hc]
        exact hredacted
      | false =>
        have hshown : rowDetail d = redactDetails d.value := by
          rw [rowDetail, hc, hclean hc]
          rfl
        rw [hshown]
        exact hredacted
    · refine Bool.eq_iff_iff.2 ?_
      exact (contains_iff _).trans (hredacted.hasKey_iff.trans (contains_iff d.value).symm)

/-- A row whose details have a token under `__proto__`. -/
def protoDetails : Details where
  value := .obj [("flow", .str "reset"), ("__proto__", .obj [("token", .str "abc")])]
  distinct := by
    refine .obj (by simp) fun f hf => ?_
    rcases List.mem_cons.1 hf with rfl | hf
    · exact .scalar trivial
    · obtain rfl := List.mem_singleton.1 hf
      refine .obj (by simp) fun g hg => ?_
      obtain rfl := List.mem_singleton.1 hg
      exact .scalar trivial

/-- The detector no longer finds in the redacted details what it has found. -/
theorem not_contract_protoDetails : ¬ Contract protoDetails := by
  intro h
  have hbefore : containsSecret protoDetails.value = true := by decide
  have hafter : containsSecret (redactDetails protoDetails.value) = false := by decide
  have hagrees := h.agrees
  rw [hbefore, hafter] at hagrees
  cases hagrees

end AuditDrawer

end AuthExample
