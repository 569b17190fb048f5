import WebForm.Address
import WebForm.Calendar.Iso
import WebForm.Error.System
import WebForm.Number.Numeral
import WebForm.Text.Utf8

/-!
# Causes

What lies behind an error when a text or octets could not be read. A cause has a label and details,
by which causes compare, and a message.
-/
namespace WebForm

inductive Cause where
  | integer (fault : IntegerFault)
  | decimal
  | truth
  | address (fault : AddressFault)
  | encoding (problem : Text.Utf8Problem)
  | calendar (fault : CalendarFault)
  /-- A file could not be opened. -/
  | storage
  /-- A body is malformed. -/
  | body
  /-- A cause that comes from outside. -/
  | reported (label : String) (details : List Detail)
  deriving DecidableEq, Repr

namespace Cause

def systemError? : Cause → Option SystemError
  | .reported "OSError" ds => SystemError.ofDetails? ds
  | _ => none

def code? (c : Cause) : Option Detail :=
  (c.systemError?.map SystemError.codeKey).filter (· ≠ .absent)

def label (c : Cause) : String :=
  match c with
  | .address (.neither _) => "ValueError"
  | .address _ => "AddressValueError"
  | .encoding _ => "UnicodeDecodeError"
  | .storage => "FileError"
  | .body => "FormParserError"
  | .reported l _ => (c.systemError?.map SystemError.label).getD l
  | _ => "ValueError"

def details (c : Cause) : List Detail :=
  match c with
  | .integer f => [.text f.message]
  | .decimal => [.text "invalid float literal"]
  | .truth => [.text "provided string was not `true` or `false`"]
  | .address f => [.text f.message]
  | .encoding p =>
    [.text "utf-8", .octets p.octets, .number p.start, .number p.stop, .text p.fault.message]
  | .calendar f => [.text f.message]
  | .storage => []
  | .body => []
  | .reported _ ds => if c.systemError?.any (·.file.isSome) then ds.take 2 else ds

def message (c : Cause) : String :=
  match c, c.systemError? with
  | .encoding p, _ => p.message
  | _, some e => e.message
  | .reported "KeyError" [d], _ => d.quoted
  | c, none =>
    match c.details with
    | [] => ""
    | [d] => d.plain
    | ds => quotedTuple (ds.map Detail.quoted)

def quoted (c : Cause) : String :=
  c.label ++ "(" ++ Text.commaSeparated (c.details.map Detail.quoted) ++ ")"

/-- Causes compare by label and details. -/
def same (c d : Cause) : Bool := c.label == d.label && Detail.sameAll c.details d.details

end Cause

end WebForm
