import EditionMarket.Raw

/-!
# Issues with settings

An issue says what is wrong with raw settings and where. A check gives what was made of them, with the
defaults where they are wrong, and the list of issues; what was made of them counts only if there is no
issue.
-/

namespace EditionMarket

/-- What can be wrong with a raw setting. -/
inductive IssueKind
  | notInteger
  | notIntegerText
  | notWhole
  | notFinite
  | tooLarge
  | notPositive
  | negative
  | notText
  | garbledText
  | notLevel
  /-- A section is not an object; the section goes by this name. -/
  | notSection (name : String)
  /-- No setting has this name. -/
  | unknown
  /-- The name is no text. -/
  | notName
deriving DecidableEq

namespace IssueKind

/-- The code of a kind. -/
def code : IssueKind → String
  | notInteger => "int_type"
  | notIntegerText => "int_parsing"
  | notWhole => "int_from_float"
  | notFinite => "finite_number"
  | tooLarge => "int_parsing_size"
  | notPositive => "greater_than"
  | negative => "greater_than_equal"
  | notText => "string_type"
  | garbledText => "string_unicode"
  | notLevel => "literal_error"
  | notSection _ => "model_type"
  | unknown => "extra_forbidden"
  | notName => "invalid_key"

/-- The message of a kind. -/
def message : IssueKind → String
  | notInteger => "Input should be a valid integer"
  | notIntegerText => "Input should be a valid integer, unable to parse string as an integer"
  | notWhole => "Input should be a valid integer, got a number with a fractional part"
  | notFinite => "Input should be a finite number"
  | tooLarge => "Unable to parse input string as an integer, exceeded maximum size"
  | notPositive => "Input should be greater than 0"
  | negative => "Input should be greater than or equal to 0"
  | notText => "Input should be a valid string"
  | garbledText =>
    "Input should be a valid string, unable to parse raw data as a unicode string"
  | notLevel => "Input should be 'DEBUG', 'INFO', 'WARNING' or 'ERROR'"
  | notSection name => s!"Input should be a valid dictionary or instance of {name}"
  | unknown => "Extra inputs are not permitted"
  | notName => "Keys should be strings"

end IssueKind

/-- What is wrong, and the names on the way to it. -/
structure Issue where
  path : List Label
  kind : IssueKind
deriving DecidableEq

/-- The issue as fields. -/
def Issue.fields (issue : Issue) : Fields :=
  [("loc", .list (issue.path.map Label.toValue)), ("type", .string issue.kind.code),
    ("msg", .string issue.kind.message)]

/-- What was made of a raw setting, and what is wrong with it. -/
structure Checked (α : Type) where
  value : α
  issues : List Issue := []

namespace Checked

variable {α : Type}

/-- A setting with one thing wrong. -/
def wrong (instead : α) (kind : IssueKind) : Checked α := ⟨instead, [⟨[], kind⟩]⟩

/-- The issues of a setting inside a section. -/
def issuesUnder (key : String) (checked : Checked α) : List Issue :=
  checked.issues.map fun issue => { issue with path := .text key :: issue.path }

/-- What was made of raw settings, if nothing is wrong with them. -/
def toExcept (checked : Checked α) : Except (List Issue) α :=
  match checked.issues with
  | [] => .ok checked.value
  | issues => .error issues

/-- The checks succeed exactly if nothing is wrong. -/
theorem toExcept_eq_ok_iff {checked : Checked α} {value : α} :
    checked.toExcept = .ok value ↔ checked.issues = [] ∧ checked.value = value := by
  unfold toExcept
  split <;> simp_all

end Checked

end EditionMarket
