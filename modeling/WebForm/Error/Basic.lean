import WebForm.Error.Cause
import WebForm.Name.Place

/-!
# Errors

An error says what went wrong, with which part of a form, at which place and with which submitted
text. Place and text are filled in at most once, by the innermost parser that knows them. Bounds are
values of a type `α`, which the values of a form are later put in for.
-/
namespace WebForm

inductive Entity where
  | form
  | field
  | valueField
  | dataField
  | name
  | value
  | key
  | indices
  | index (position : Int)
  deriving DecidableEq, Repr

namespace Entity

def display : Entity → String
  | form => "form"
  | field => "field"
  | valueField => "value field"
  | dataField => "data field"
  | name => "name"
  | value => "value"
  | key => "key"
  | indices => "indices"
  | index i => s!"index {i}"

def quoted : Entity → String
  | index i => s!"Entity.index({i})"
  | e => "Entity." ++ (e.display.map Char.toUpper).replace " " "_"

def position? : Entity → Option Int
  | index i => some i
  | _ => none

def ofText? (s : String) : Option Entity :=
  [form, field, valueField, dataField, name, value, key, indices].find? (·.display = s)

end Entity

inductive Reading where
  | utf8
  | int
  | bool
  | float
  | address
  | file
  | multipart
  deriving DecidableEq, Repr

def Reading.label : Reading → String
  | utf8 => "Utf8"
  | int => "Int"
  | bool => "Bool"
  | float => "Float"
  | address => "Addr"
  | file => "Io"
  | multipart => "Multipart"

def Reading.message : Reading → String
  | utf8 => "invalid UTF-8"
  | int => "invalid integer"
  | bool => "invalid boolean"
  | float => "invalid float"
  | address => "invalid address"
  | file => "i/o error"
  | multipart => "invalid multipart"

inductive Kind (α : Type) where
  | invalidLength (min max : Option α)
  | invalidChoice (choices : List String)
  | outOfRange (start stop : Option α)
  | validation (message : String)
  | duplicate
  | missing
  | unexpected
  | unknown
  | custom (cause : Cause)
  | unreadable (reading : Reading) (cause : Cause)
  deriving Repr

namespace Kind

variable {α : Type}

/-- The part of a form that an error of this kind is about unless said otherwise. -/
def defaultEntity : Kind α → Entity
  | duplicate | missing | unexpected | unknown => .field
  | unreadable .file _ | unreadable .multipart _ => .form
  | _ => .value

def label : Kind α → String
  | invalidLength _ _ => "InvalidLength"
  | invalidChoice _ => "InvalidChoice"
  | outOfRange _ _ => "OutOfRange"
  | validation _ => "Validation"
  | duplicate => "Duplicate"
  | missing => "Missing"
  | unexpected => "Unexpected"
  | unknown => "Unknown"
  | custom _ => "Custom"
  | unreadable r _ => r.label

def isUnexpected : Kind α → Bool
  | unexpected => true
  | _ => false

end Kind

/-- The status of a response, by increasing severity. -/
inductive Status where
  | ok
  | badRequest
  | tooLarge
  | unprocessable
  | internal
  deriving DecidableEq, Repr

namespace Status

def code : Status → Nat
  | ok => 200
  | badRequest => 400
  | tooLarge => 413
  | unprocessable => 422
  | internal => 500

def label : Status → String
  | ok => "OK"
  | badRequest => "BAD_REQUEST"
  | tooLarge => "REQUEST_ENTITY_TOO_LARGE"
  | unprocessable => "UNPROCESSABLE_ENTITY"
  | internal => "INTERNAL_SERVER_ERROR"

def quoted (s : Status) : String := s!"<HTTPStatus.{s.label}: {s.code}>"

def max (s t : Status) : Status := if s.code ≤ t.code then t else s

end Status

structure Error (α : Type) where
  kind : Kind α
  entity : Entity
  name : Option Path
  value : Option String
  deriving Repr

namespace Error

variable {α : Type}

def ofKind (k : Kind α) : Error α := ⟨k, k.defaultEntity, none, none⟩

/-- Names the error, unless it has a name. -/
def named (e : Error α) (p : Path) : Error α :=
  match e.name with
  | some _ => e
  | none => { e with name := some p }

/-- Notes the submitted text, unless one is noted. -/
def valued (e : Error α) (v : String) : Error α :=
  match e.value with
  | some _ => e
  | none => { e with value := some v }

/-- Lengths that are only too large have a status of their own. -/
def status (e : Error α) : Status :=
  match e.kind with
  | .invalidLength none _ => .tooLarge
  | .unknown => .internal
  | _ => if e.entity = .form then .badRequest else .unprocessable

def isFor (e : Error α) (p : Path) : Bool :=
  match e.name with
  | none => false
  | some n => n.isEmpty == p.isEmpty && n.keys.isPrefixOf p.keys

def isForExactly (e : Error α) (p : Place) : Bool :=
  match e.name with
  | none => false
  | some n => p.keys? == some n.keys

end Error

/-- The errors of a form, in the order in which they came up. -/
abbrev Errors (α : Type) := List (Error α)

namespace Errors

variable {α : Type}

def ofKind (k : Kind α) : Errors α := [Error.ofKind k]
def named (es : Errors α) (p : Path) : Errors α := List.map (Error.named · p) es
def valued (es : Errors α) (v : String) : Errors α := List.map (Error.valued · v) es

/-- The most severe status; no errors at all are an internal one. -/
def status : Errors α → Status
  | [] => .internal
  | e :: es => es.foldl (fun s e => s.max e.status) e.status

end Errors

end WebForm
