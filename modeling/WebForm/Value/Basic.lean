import WebForm.Error.Context
import WebForm.Number.Double

/-!
# Values

What forms produce, and the constants that declarations mention.
-/
namespace WebForm

/-- An uploaded file. It is kept in memory or in a temporary file, and is read from its position
on. -/
structure StoredFile where
  fieldName : String
  fileName : Option String
  content : Text.Octets
  inMemory : Bool
  position : Nat
  deriving DecidableEq, Repr

def StoredFile.rewind (f : StoredFile) : StoredFile := { f with position := 0 }

/-- A record type as its instances know it. Instances of a frozen type can be keys. -/
structure RecordType where
  index : Nat
  name : String
  frozen : Bool
  deriving DecidableEq, Repr

/-- What an attribute of a record holds. The declared value of an attribute is shared by all records
that hold it. -/
inductive Slot (α : Type) where
  | unset
  | own (a : α)
  | shared (a : α)
  deriving Repr

def Slot.get? {α : Type} : Slot α → Option α
  | unset => none
  | own a | shared a => some a

inductive Value where
  | none
  | bool (b : Bool)
  | int (i : Int)
  | float (d : Double)
  | text (s : String)
  | octets (bs : Text.Octets)
  | list (items : List Value)
  | tuple (items : List Value)
  | dict (items : List (Value × Value))
  | record (type : RecordType) (fields : List (String × Slot Value))
  | choice (type member : String) (value : Value)
  | address (a : Address)
  | date (d : Date)
  | time (t : Time)
  | dateTime (t : DateTime)
  | file (f : StoredFile)
  | errors (es : List (Error Value))
  | contextual (value : Value) (context : Context Value)
  /-- Something with just these attributes. -/
  | object (attributes : List (String × Value))

instance : Inhabited Value := ⟨.none⟩

abbrev FormError := Error Value
abbrev FormErrors := Errors Value
abbrev FormContext := Context Value

namespace Value

def typeName : Value → String
  | .none => "NoneType"
  | .bool _ => "bool"
  | .int _ => "int"
  | .float _ => "float"
  | .text _ => "str"
  | .octets _ => "bytes"
  | .list _ => "list"
  | .tuple _ => "tuple"
  | .dict _ => "dict"
  | .record t _ => t.name
  | .choice t _ _ => t
  | .address a => match a.version with
    | .four => "IPv4Address"
    | .six => "IPv6Address"
  | .date _ => "datetime.date"
  | .time _ => "datetime.time"
  | .dateTime _ => "datetime.datetime"
  | .file _ => "File"
  | .errors _ => "Errors"
  | .contextual _ _ => "Contextual"
  | .object _ => "types.SimpleNamespace"

/-- An attribute that belongs to a value's content. -/
def attribute? (name : String) : Value → Option Value
  | .record _ fields => (fields.find? (·.1 = name)).bind (·.2.get?)
  | .object attributes => (attributes.find? (·.1 = name)).map (·.2)
  | .file f =>
    if name = "size" then some (.int f.content.length)
    else if name = "file_name" then
      some (match f.fileName with
        | some n => .octets (Text.encodeString n)
        | Option.none => .none)
    else if name = "field_name" then some (.octets (Text.encodeString f.fieldName))
    else if name = "content_type" then some .none
    else Option.none
  | .choice _ member v =>
    if name = "name" then some (.text member)
    else if name = "value" then some v
    else Option.none
  | _ => Option.none

end Value

end WebForm
