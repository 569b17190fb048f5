import WebForm.Number.Numeral
import WebForm.Text.Quoted
import WebForm.Text.Utf8

/-!
# Faults

A fault is no error of a form: it comes from a declaration that does not fit its values, from a type
that has no form, or from a call at the wrong time. It ends the work at once.
-/
namespace WebForm

inductive Fault where
  | noForm (type : String)
  | noUnionForm (type : String)
  | notRecord (type : String)
  | undeclared (name : String)
  | unhashable (type : String)
  /-- Values of these types have no order. -/
  | unordered (operator left right : String)
  | dateOrder (left right : String)
  | offsetOrder (type : String)
  | versionOrder (left right : String)
  | unsized (type : String)
  | uncontaining (type : String)
  | textItem (type : String)
  | octetItem (type : String)
  | octetRange
  | lacksAttribute (type name : String)
  | zeroOctet
  | undecodable (problem : Text.Utf8Problem)
  /-- A body of octets ended before it began. -/
  | noBody
  | notPath (type : String)
  /-- Types of these kinds cannot be put together with a bar. -/
  | notAlternatives (left right : String)
  /-- A choice between no types at all. -/
  | noAlternatives
  | tooFewBits
  /-- A constant is no whole number that can be read. -/
  | constant (fault : IntegerFault)
  | notIdentifier (name : String)
  | keyword (name : String)
  | repeatedAttribute (name : String)
  | unusualSpelling (name : String)
  /-- All records would share a value of a type that can change. -/
  | mutableDefault (type name : String)
  | twoDefaults
  /-- A member of an enumeration has a name that is reserved or that no member can have. -/
  | reservedMember (name : String)
  | invalidMembers (names : List String)
  /-- An enumeration has two members of one name, the first one with this value. -/
  | repeatedMember (name shown : String)
  /-- The form leaves the operation to others. -/
  | unimplemented
  | finalized
  /-- Neither field nor error. -/
  | unpushable (shown : String)
  /-- The computation would never end. -/
  | endless
  deriving DecidableEq, Repr

namespace Fault

def message : Fault → String
  | noForm t => "No form for type " ++ t
  | noUnionForm t => "No form for union " ++ t
  | notRecord t => t ++ " is not a dataclass"
  | undeclared n => "name " ++ Text.quoted n ++ " is not defined"
  | unhashable t => "unhashable type: '" ++ t ++ "'"
  | unordered op l r =>
    "'" ++ op ++ "' not supported between instances of '" ++ l ++ "' and '" ++ r ++ "'"
  | dateOrder l r => "can't compare " ++ l ++ " to " ++ r
  | offsetOrder t => "can't compare offset-naive and offset-aware " ++ t
  | versionOrder l r => l ++ " and " ++ r ++ " are not of the same version"
  | unsized t => "object of type '" ++ t ++ "' has no len()"
  | uncontaining t => "argument of type '" ++ t ++ "' is not iterable"
  | textItem t => "'in <string>' requires string as left operand, not " ++ t
  | octetItem t => "a bytes-like object is required, not '" ++ t ++ "'"
  | octetRange => "byte must be in range(0, 256)"
  | lacksAttribute t n => "'" ++ t ++ "' object has no attribute '" ++ n ++ "'"
  | zeroOctet => "embedded null byte"
  | undecodable p => p.message
  | noBody => ""
  | notPath t => "expected str, bytes or os.PathLike object, not " ++ t
  | notAlternatives l r => "unsupported operand type(s) for |: '" ++ l ++ "' and '" ++ r ++ "'"
  | noAlternatives => "Cannot take a Union of no types."
  | tooFewBits => "negative shift count"
  | constant f => f.message
  | notIdentifier n => "Field names must be valid identifiers: " ++ Text.quoted n
  | keyword n => "Field names must not be keywords: " ++ Text.quoted n
  | repeatedAttribute n => "Field name duplicated: " ++ Text.quoted n
  | unusualSpelling n =>
    "__create_fn__() got an unexpected keyword argument '_type_" ++ n ++ "'"
  | mutableDefault t n =>
    "mutable default <class '" ++ t ++ "'> for field " ++ n ++
      " is not allowed: use default_factory"
  | twoDefaults => "cannot specify both default and default_factory"
  | reservedMember n =>
    "_sunder_ names, such as " ++ Text.quoted n ++ ", are reserved for future Enum use"
  | invalidMembers ns =>
    "invalid enum member name(s) " ++ ",".intercalate (ns.map Text.quoted)
  | repeatedMember n shown => Text.quoted n ++ " already defined as " ++ shown
  | unimplemented => ""
  | finalized => "Form parser has already been finalized"
  | unpushable s => "Cannot push " ++ s ++ " into a form"
  | endless => "maximum recursion depth exceeded while calling a Python object"

end Fault

end WebForm
