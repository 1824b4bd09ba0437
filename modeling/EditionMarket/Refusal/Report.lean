import EditionMarket.Refusal.Code
import EditionMarket.Value

/-!
# Reports

A report tells a caller that a call was refused, in a form that can be stored and compared: a message
for people, a code and a category for programs, and details where there are any.
-/

namespace EditionMarket

/-- What a caller is told about a refused call. -/
structure Report where
  success : Bool := false
  message : String := ""
  code : String := ""
  category : String := ""
  retriable : Bool := false
  details : Fields := []
deriving DecidableEq

namespace Report

/-- The report for a code. An empty message is replaced by the code, read as words. -/
def ofCode (code : Code) (message : String) (details : Fields) : Report :=
  { message := if message = "" then code.words else message
    code := code.text
    category := code.category.text
    details := details }

/-- The report as fields; details appear only where there are any. -/
def fields (report : Report) : Fields :=
  [("success", .bool report.success), ("error", .string report.message),
    ("code", .string report.code), ("category", .string report.category),
    ("retriable", .bool report.retriable)]
    ++ if report.details.isEmpty then [] else [("details", .object report.details)]

/-- The report as a value. -/
def toValue (report : Report) : Value := .object report.fields

end Report

end EditionMarket
