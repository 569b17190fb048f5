import WebForm.Check
import WebForm.Form.Basic

/-!
# Record types

A record type declares its members. Record types are declared together in a schema, in which they
refer to each other by number; what is wrong with a declaration comes up when it is used.
-/
namespace WebForm

/-- A member that is parsed from the fields with one of its names. Errors use the first name. -/
structure Member where
  attr : String
  name : String
  otherNames : List String
  form : Form
  checks : List Check
  fallback : Slot Value

def Member.names (m : Member) : List String := m.name :: m.otherNames

inductive RecordPart where
  | member (m : Member)
  /-- An attribute that no field can set. -/
  | constant (attr : String) (value : Slot Value)

def RecordPart.attr : RecordPart → String
  | member m => m.attr
  | constant a _ => a

/-- What a constructor has against the attributes of a record. It takes them as they are unless it
has something against them. -/
abbrev Objections := List (String × Slot Value) → FormErrors

structure Schema where
  records : List (Except Fault (List RecordPart))
  objections : RecordType → Objections := fun _ _ => []

namespace Schema

def empty : Schema := { records := [] }

def declaration (s : Schema) (t : RecordType) : Except Fault (List RecordPart) :=
  (s.records[t.index]?).getD (.error (.undeclared t.name))

end Schema

end WebForm
