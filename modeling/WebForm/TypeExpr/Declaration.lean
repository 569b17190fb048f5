import WebForm.Form.Schema
import WebForm.Text.Identifier
import WebForm.Text.Normal
import WebForm.TypeExpr.Basic

/-!
# Declarations

How record types are declared. Some declarations make no type: those with names that no attribute
can have, and those with declared values that records could change for each other.
-/
namespace WebForm

structure MemberDeclaration where
  attr : String
  type : TypeExpr
  names : List String
  checks : List Check
  form : Option Form
  standard : Option Value
  /-- An empty value that is made for each record. -/
  factory : Option Value
  isParsed : Bool

structure RecordDeclaration where
  type : RecordType
  members : List MemberDeclaration

def keywords : List String :=
  ["False", "None", "True", "and", "as", "assert", "async", "await", "break", "class", "continue",
    "def", "del", "elif", "else", "except", "finally", "for", "from", "global", "if", "import",
    "in", "is", "lambda", "nonlocal", "not", "or", "pass", "raise", "return", "try", "while",
    "with", "yield"]

def Value.isMutable : Value → Bool
  | .list _ | .dict _ | .object _ => true
  | _ => false

namespace MemberDeclaration

def fallback (d : MemberDeclaration) : Slot Value :=
  match d.standard, d.factory with
  | some v, _ => .shared v
  | none, some v => .own v
  | none, none => .unset

def fault? (d : MemberDeclaration) : Option Fault :=
  if d.standard.isSome && d.factory.isSome then some .twoDefaults else none

def nameFault? (d : MemberDeclaration) (taken : List String) : Option Fault :=
  if !Text.isIdentifier d.attr.toList then some (.notIdentifier d.attr)
  else if d.attr ∈ keywords then some (.keyword d.attr)
  else if d.attr ∈ taken then some (.repeatedAttribute d.attr)
  else none

def defaultFault? (d : MemberDeclaration) : Option Fault :=
  (d.standard.filter Value.isMutable).map fun v => .mutableDefault v.typeName d.attr

/-- Names of attributes are in normal spelling. -/
def spellingFault? (d : MemberDeclaration) : Option Fault :=
  if Text.isNormal d.attr.toList then none else some (.unusualSpelling d.attr)

end MemberDeclaration

namespace RecordDeclaration

def nameFault? (taken : List String) : List MemberDeclaration → Option Fault
  | [] => none
  | d :: ds => (d.nameFault? taken).or (nameFault? (d.attr :: taken) ds)

def fault? (d : RecordDeclaration) : Option Fault :=
  (((d.members.findSome? MemberDeclaration.fault?).or (nameFault? [] d.members)).or
    (d.members.findSome? MemberDeclaration.defaultFault?)).or
    (d.members.findSome? MemberDeclaration.spellingFault?)

end RecordDeclaration

end WebForm
