import WebForm.Field
import WebForm.Text.Percent

/-!
# Query strings

A query string is a list of fields between ampersands. Fields are taken as they are written, or with
percent encoding undone.
-/
namespace WebForm.Query

/-- The fields of a query string; empty ones are no fields. -/
def fields (s : String) : List ValueField :=
  (((Text.splitOn '&' s.toList).filter (· ≠ [])).map String.ofList).map .parse

def decodedText (s : String) : String := String.ofList (Text.formDecode s.toList)

def decoded (f : ValueField) : ValueField :=
  .ofText (decodedText f.name.source.text) (decodedText f.value)

def decodedFields (s : String) : List ValueField := (fields s).map decoded

end WebForm.Query
