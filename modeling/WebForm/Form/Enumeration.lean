import WebForm.Text.Case
import WebForm.Value.Compare
import WebForm.Value.Display

/-!
# Enumerations

A text chooses a member by value or by name; case does not count. A later member with the same value
as an earlier one is only another name and cannot be chosen. Names with underscores around them are
no names of members.
-/
namespace WebForm

/-- An enumeration is known by its number, whatever its name and members are. -/
structure Enumeration where
  index : Nat
  name : String
  members : List (String × Value)

namespace Enumeration

def isSunder (name : List Char) : Bool :=
  match name, name.reverse with
  | '_' :: c :: _ :: _, '_' :: d :: _ => c ≠ '_' && d ≠ '_'
  | _, _ => false

def isDunder (name : List Char) : Bool :=
  match name, name.reverse with
  | '_' :: '_' :: c :: _ :: _ :: _, '_' :: '_' :: d :: _ => c ≠ '_' && d ≠ '_'
  | _, _ => false

/-- The name of the enumeration between one underscore and two, something after them, and not two
underscores at the end. -/
def isPrivate (enumeration : String) (name : List Char) : Bool :=
  let front := '_' :: (enumeration.toList ++ ['_', '_'])
  front.isPrefixOf name && front.length < name.length && name.reverse.take 2 ≠ ['_', '_']

def settings : List String :=
  ["_order_", "_generate_next_value_", "_numeric_repr_", "_missing_", "_ignore_", "_iter_member_",
    "_iter_member_by_value_", "_iter_member_by_def_"]

def declared (enumeration : String) :
    List (String × Value) → List (String × Value) → Except Fault (List (String × Value))
  | taken, [] => .ok taken
  | taken, (name, v) :: entries =>
    let cs := name.toList
    if isPrivate enumeration cs then declared enumeration taken entries
    else if isSunder cs then
      if name ∈ settings then declared enumeration taken entries
      else .error (.reservedMember name)
    else if isDunder cs then declared enumeration taken entries
    else
      match taken.find? (·.1 = name) with
      | some m => .error (.repeatedMember name m.2.quoted)
      | none => declared enumeration (taken ++ [(name, v)]) entries

def distinct : List (String × Value) → List (String × Value) → List (String × Value)
  | taken, [] => taken
  | taken, m :: ms =>
    if taken.any (·.2.sameKey m.2) then distinct taken ms else distinct (taken ++ [m]) ms

def isInvalid (name : String) : Bool := name ∈ ["mro", ""]

def ofEntries (index : Nat) (name : String) (entries : List (String × Value)) :
    Except Fault Enumeration := do
  let members ← declared name [] entries
  match (members.map (·.1)).filter isInvalid with
  | [] => .ok ⟨index, name, distinct [] members⟩
  | names => .error (.invalidMembers names)

def choices (e : Enumeration) : List String := e.members.map (·.2.plain)

def toValue (e : Enumeration) (m : String × Value) : Value := .choice e.name m.1 m.2

def choose? (e : Enumeration) (s : String) : Option Value :=
  let wanted := Text.lowerString s
  let byValue := e.members.find? fun m => Text.lowerString m.2.plain = wanted
  let byName := e.members.find? fun m => Text.lowerString m.1 = wanted
  (byValue.or byName).map e.toValue

end Enumeration

end WebForm
