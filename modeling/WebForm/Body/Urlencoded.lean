import WebForm.Body.Reader

/-!
# Urlencoded bodies

Fields between ampersands. A field is delivered with the ampersand after it or the end of the body.
-/
namespace WebForm.Body

structure FieldLimits where
  count : Option Nat
  size : Option Nat

namespace Urlencoded

structure State where
  /-- The octets of the field that is not complete yet. -/
  field : Text.Octets
  count : Nat

def exceeds (limit : Option Nat) (n : Nat) : Bool := limit.any (· < n)

/-- The size of a field is that of its name and value, without the equals sign between them. -/
def fieldSize (field : Text.Octets) : Nat :=
  if field.contains 0x3D then field.length - 1 else field.length

def item (field : Text.Octets) : Item :=
  match Text.cutAt 0x3D field with
  | (name, value) => .value name (value.getD [])

def extend (limits : FieldLimits) (s : State) (piece : Text.Octets) : Delivery State :=
  if piece.isEmpty then .silent s
  else
    let s : State := ⟨s.field ++ piece, if s.field.isEmpty then s.count + 1 else s.count⟩
    if exceeds limits.count s.count || exceeds limits.size (fieldSize s.field) then .malformed
    else .silent s

def complete (s : State) : Delivery State :=
  if s.field.isEmpty then .silent s else ⟨[item s.field], .ok ⟨[], s.count⟩⟩

def writePieces (limits : FieldLimits) (s : State) : List Text.Octets → Delivery State
  | [] => .silent s
  | [p] => extend limits s p
  | p :: ps =>
    (extend limits s p).andThen fun s => (complete s).andThen fun s => writePieces limits s ps

end Urlencoded

def Reader.urlencoded (limits : FieldLimits) : Reader where
  State := Urlencoded.State
  start := ⟨[], 0⟩
  write s bs := Urlencoded.writePieces limits s (Text.splitOn 0x26 bs)
  finish s := (Urlencoded.complete s).andThen fun _ => .silent ()
  submission := encodedSubmission

end WebForm.Body
