import WebForm.Form.Display

/-!
# Type expressions

The types that members of records are annotated with. A form is found for some of them; all of them
have a text, in which they appear in messages. Unions are sets of types: repeated types count once,
and the order counts only in the text.
-/
namespace WebForm

inductive PlainType where
  | text
  | octets
  | integer
  | float
  | boolean
  | date
  | time
  | dateTime
  | addressFour
  | addressSix
  | file
  | object
  | any
  | list
  | dict
  | tuple
  | complex
  | errors
  | decimal
  | nothing
  deriving DecidableEq, Repr

inductive GenericType where
  | list
  | typingList
  | sequence
  | mutableSequence
  | dict
  | typingDict
  | mapping
  | mutableMapping
  | tuple
  | anyTuple
  | set
  | frozenSet
  | contextual
  deriving DecidableEq, Repr

inductive Remark where
  | form (f : Form)
  | text (s : String)
  /-- A list of texts, which cannot be a key. -/
  | list (items : List String)

inductive TypeExpr where
  | plain (t : PlainType)
  | enumeration (e : Enumeration)
  | record (t : RecordType)
  | generic (g : GenericType) (args : List TypeExpr)
  /-- One of the types; `piped` if it is written with bars. -/
  | union (piped : Bool) (args : List TypeExpr)
  | annotated (type : TypeExpr) (remarks : List Remark)
  | form (f : Form)
  /-- The value `None` in place of a type. -/
  | none
  /-- The name of a record type in place of the type. -/
  | name (s : String)
  /-- The name of a record type that is known to be one. -/
  | reference (s : String)

namespace PlainType

def display : PlainType → String
  | text => "str"
  | octets => "bytes"
  | integer => "int"
  | float => "float"
  | boolean => "bool"
  | date => "datetime.date"
  | time => "datetime.time"
  | dateTime => "datetime.datetime"
  | addressFour => "ipaddress.IPv4Address"
  | addressSix => "ipaddress.IPv6Address"
  | file => "python_multipart.multipart.File"
  | object => "object"
  | any => "typing.Any"
  | list => "list"
  | dict => "dict"
  | tuple => "tuple"
  | complex => "complex"
  | errors => "pushform.error.Errors"
  | decimal => "decimal.Decimal"
  | nothing => "NoneType"

end PlainType

namespace GenericType

def display : GenericType → String
  | list => "list"
  | typingList => "typing.List"
  | sequence => "collections.abc.Sequence"
  | mutableSequence => "collections.abc.MutableSequence"
  | dict => "dict"
  | typingDict => "typing.Dict"
  | mapping => "collections.abc.Mapping"
  | mutableMapping => "collections.abc.MutableMapping"
  | tuple => "tuple"
  | anyTuple => "tuple"
  | set => "set"
  | frozenSet => "frozenset"
  | contextual => "pushform.context.Contextual"

/-- Such a type takes no values and names as arguments, but the types they stand for. -/
def convertsArguments : GenericType → Bool
  | typingList | typingDict | contextual => true
  | _ => false

end GenericType

def schemaModule : String := "schema"

def Remark.quoted : Remark → String
  | form f => f.quoted
  | text s => Text.quoted s
  | list items => bracketed (items.map Text.quoted)

namespace TypeExpr

mutual
/-- The text of a type as an argument of another one. -/
def display (piped : Bool) : TypeExpr → String
  | plain .nothing => if piped then "None" else "NoneType"
  | plain t => t.display
  | enumeration e => schemaModule ++ "." ++ e.name
  | record t => schemaModule ++ "." ++ t.name
  | generic .tuple [] => "tuple[()]"
  | generic .anyTuple args =>
    "tuple[" ++ Text.commaSeparated (displayAll false args ++ ["..."]) ++ "]"
  | generic g args => g.display ++ "[" ++ Text.commaSeparated (displayAll false args) ++ "]"
  | union true args => " | ".intercalate (displayAll true args)
  | union false [t, plain .nothing] => "typing.Optional[" ++ t.display false ++ "]"
  | union false [plain .nothing, t] => "typing.Optional[" ++ t.display false ++ "]"
  | union false args => "typing.Union[" ++ Text.commaSeparated (displayAll false args) ++ "]"
  | annotated t rs =>
    "typing.Annotated[" ++ Text.commaSeparated (t.display false :: rs.map Remark.quoted) ++ "]"
  | form f => f.quoted
  | none => "None"
  | name s => Text.quoted s
  | reference s => "ForwardRef(" ++ Text.quoted s ++ ")"

def displayAll (piped : Bool) : List TypeExpr → List String
  | [] => []
  | t :: ts => t.display piped :: displayAll piped ts
end

/-- The text of a type on its own. -/
def quoted : TypeExpr → String
  | plain .any => PlainType.display .any
  | plain t => "<class '" ++ t.display ++ "'>"
  | enumeration e => "<enum '" ++ e.name ++ "'>"
  | record t => "<class '" ++ schemaModule ++ "." ++ t.name ++ "'>"
  | t => t.display false

/-- The type that a value or name stands for. -/
def asType : TypeExpr → TypeExpr
  | none => plain .nothing
  | name s => reference s
  | t => t

def ofGeneric (g : GenericType) (args : List TypeExpr) : TypeExpr :=
  generic g (if g.convertsArguments then args.map asType else args)

/-- Remarks on a type with remarks join them. -/
def ofRemarks (t : TypeExpr) (rs : List Remark) : TypeExpr :=
  match t.asType with
  | annotated t rs' => annotated t (rs' ++ rs)
  | t => annotated t rs

def ofForm (f : Form) : TypeExpr := annotated (plain .object) [.form f]

end TypeExpr

def Remark.isHashable : Remark → Bool
  | list _ => false
  | _ => true

/-- No two forms are the same. -/
def Remark.same : Remark → Remark → Bool
  | text s, text t => s == t
  | list ss, list ts => ss == ts
  | _, _ => false

def sameRemarks : List Remark → List Remark → Bool
  | [], [] => true
  | r :: rs, s :: ss => r.same s && sameRemarks rs ss
  | _, _ => false

namespace TypeExpr

mutual
/-- A type can be looked up unless a remark in it cannot. -/
def isHashable : TypeExpr → Bool
  | annotated t rs => t.isHashable && rs.all Remark.isHashable
  | generic _ args => areHashable args
  | union _ args => areHashable args
  | _ => true

def areHashable : List TypeExpr → Bool
  | [] => true
  | t :: ts => t.isHashable && areHashable ts
end

mutual
def same : TypeExpr → TypeExpr → Bool
  | plain t, plain u => t == u
  | enumeration e, enumeration f => e.index == f.index
  | record t, record u => t == u
  | generic g ts, generic h us => g == h && sameAll ts us
  | union _ ts, union _ us => within ts us && covers ts us
  | annotated t rs, annotated u ss => t.same u && sameRemarks rs ss
  | none, none => true
  | name s, name t => s == t
  | reference s, reference t => s == t
  | _, _ => false

def sameAll : List TypeExpr → List TypeExpr → Bool
  | [], [] => true
  | t :: ts, u :: us => t.same u && sameAll ts us
  | _, _ => false

def within : List TypeExpr → List TypeExpr → Bool
  | [], _ => true
  | t :: ts, us => us.any (fun u => t.same u) && within ts us

def covers (ts : List TypeExpr) : List TypeExpr → Bool
  | [] => true
  | u :: us => occurs ts u && covers ts us

def occurs : List TypeExpr → TypeExpr → Bool
  | [], _ => false
  | t :: ts, u => t.same u || occurs ts u
end

/-- The types that a member of a union stands for. -/
def alternatives : TypeExpr → List TypeExpr
  | union _ args => args
  | t => [t]

def distinct (ts : List TypeExpr) : List TypeExpr :=
  ts.foldl (fun kept t => if kept.any (same t) then kept else kept ++ [t]) []

/-- A union of unions is one union, and a union of one type is that type. -/
def merged (piped : Bool) (ts : List TypeExpr) : TypeExpr :=
  match distinct ((ts.map asType).flatMap alternatives) with
  | [t] => t
  | ts => union piped ts

/-- A union that is written without bars looks its types up. -/
def ofUnion (ts : List TypeExpr) : Except Fault TypeExpr :=
  if ts.isEmpty then .error .noAlternatives
  else if areHashable ts then .ok (merged false ts)
  else .error (.unhashable "list")

/-- Types that bars keep as they are. -/
def canBePiped : TypeExpr → Bool
  | plain _ | enumeration _ | record _ | none | union true _ => true
  | generic g _ => !g.convertsArguments
  | _ => false

/-- Types that turn what they are put together with into a union of the other kind. -/
def absorbsBars : TypeExpr → Bool
  | union false _ | annotated _ _ | reference _ => true
  | generic g _ => g.convertsArguments
  | _ => false

def kindName : TypeExpr → String
  | plain .any => "_AnyMeta"
  | plain _ | record _ => "type"
  | enumeration _ => "EnumType"
  | none => "NoneType"
  | union true _ => "types.UnionType"
  | union false _ => "_UnionGenericAlias"
  | generic g _ => if g.convertsArguments then "_GenericAlias" else "types.GenericAlias"
  | annotated _ _ => "_AnnotatedAlias"
  | form f => f.label
  | name _ => "str"
  | reference _ => "ForwardRef"

def isNone : TypeExpr → Bool
  | none => true
  | _ => false

def bar (t u : TypeExpr) : Except Fault TypeExpr :=
  if t.absorbsBars || u.absorbsBars then ofUnion [t, u]
  else if t.canBePiped && u.canBePiped && !(t.isNone && u.isNone) then .ok (merged true [t, u])
  else .error (.notAlternatives t.kindName u.kindName)

def ofPipe : List TypeExpr → Except Fault TypeExpr
  | [] => .ok none
  | t :: ts => ts.foldlM bar t

/-- The item or the errors that keep it from being one. -/
def ofResult (t : TypeExpr) : Except Fault TypeExpr := ofUnion [t, plain .errors]

def ofOptional (t : TypeExpr) : Except Fault TypeExpr := ofUnion [t, none]

end TypeExpr

end WebForm
