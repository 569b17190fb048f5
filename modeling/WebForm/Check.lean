import WebForm.MediaType
import WebForm.Outcome
import WebForm.Text.Blank
import WebForm.Text.Case
import WebForm.Value.Compare
import WebForm.Value.Display

/-!
# Checks

What a value must satisfy beyond being of its form. A check that does not fit its value is a fault.
Besides the checks of the library there are those of its users, which accept a value or raise errors.
-/
namespace WebForm

inductive Check where
  | equals (expected : Value)
  | differs (invalid : Value)
  | length (least greatest : Option Value)
  | contains (item : Value)
  | containsNamed (item : Value)
  | omits (item : Value)
  | omitsNamed (item : Value)
  | inRange (start stop : Option Value)
  | oneOf (items : List Value)
  | mediaType (expected : String)
  /-- An inner check whose errors are replaced by one message. -/
  | message (text : String) (inner : Check)
  /-- A check of the user's own, which may look at all there is of a value. -/
  | custom (verdict : Value → Except FormErrors Unit)

/-- Files are measured in octets, and nothing has length zero. -/
def Value.measure : Value → Except Fault Value
  | .none => .ok (.int 0)
  | v =>
    match v.attribute? "size" with
    | some (.int n) => .ok (.int n)
    | some (.bool b) => .ok (.bool b)
    | _ =>
      match v.length? with
      | some n => .ok (.int n)
      | Option.none => .error (.unsized v.typeName)

def outside (start stop : Option Value) (v : Value) : Except Fault Bool := do
  let below ← start.elim (.ok false) v.less
  if below then .ok true else stop.elim (.ok false) v.greater

def mediaTypeOf (contentType : List Char) : String :=
  String.ofList (Text.lower (Text.strip (Text.cutAt ';' contentType).1))

/-- The media type of a file: what was sent with it, or else what its name says. -/
def Value.mediaType? (v : Value) : Except Fault (Option String) :=
  match given "content_type" with
  | some (.text s) => .ok (some (mediaTypeOf s.toList))
  | some (.octets bs) => .ok (some (mediaTypeOf (Text.latin1 bs)))
  | some w => .error (.lacksAttribute w.typeName "split")
  | Option.none =>
    match given "file_name" with
    | some (.text s) => .ok (MediaType.ofFileName s)
    | some (.octets bs) => .ok (MediaType.ofFileName (String.ofList (Text.decodeLossy bs)))
    | some w => .error (.notPath w.typeName)
    | Option.none => .ok Option.none
where
  given (name : String) : Option Value := (v.attribute? name).filter (!·.isVoid)

namespace Check

def demand (holds : Bool) (k : Kind Value) : Outcome Unit :=
  if holds then .ok () else .error (.errors (.ofKind k))

def run : Check → Value → Outcome Unit
  | equals expected, v =>
    demand (v.same expected) (.validation "value does not match expected value")
  | differs invalid, v =>
    demand (!v.same invalid) (.validation "value is equal to an invalid value")
  | length least greatest, v => do
    let n ← Outcome.ofFault v.measure
    let out ← Outcome.ofFault (outside least greatest n)
    demand (!out) (.invalidLength least greatest)
  | contains item, v => do
    let found ← Outcome.ofFault (v.contains item)
    demand found (.validation "value does not contain expected item")
  | containsNamed item, v => do
    let found ← Outcome.ofFault (v.contains item)
    demand found (.validation ("value must contain " ++ item.quoted))
  | omits item, v => do
    let found ← Outcome.ofFault (v.contains item)
    demand (!found) (.validation "value contains a disallowed item")
  | omitsNamed item, v => do
    let found ← Outcome.ofFault (v.contains item)
    demand (!found) (.validation ("value cannot contain " ++ item.quoted))
  | inRange start stop, v => do
    let out ← Outcome.ofFault (outside start stop v)
    demand (!out) (.outOfRange start stop)
  | oneOf items, v => demand (items.any v.same) (.invalidChoice (items.map Value.plain))
  | mediaType expected, v => do
    let wanted := Text.lowerString expected
    match ← Outcome.ofFault v.mediaType? with
    | some actual =>
      demand (actual == wanted)
        (.validation ("invalid file type: " ++ actual ++ ", must be " ++ wanted))
    | none => demand false (.validation ("file type must be " ++ wanted))
  | message text inner, v =>
    match inner.run v with
    | .error (.errors _) => .error (.errors (.ofKind (.validation text)))
    | r => r
  | custom verdict, v => .ofErrors (verdict v)

end Check

end WebForm
