import WebForm.Form.Basic

/-!
# Leaves

How a single field becomes a value.
-/
namespace WebForm

/-- What a leaf makes of a field, and of a missing field in lenient mode. -/
structure LeafRules where
  ofValue : ValueField → Outcome Value
  ofData : DataField → Outcome Value
  fallback : Option Value

namespace LeafRules

def refuseValue (f : ValueField) : Outcome Value := .error (.errors [f.unexpected])
def refuseData (f : DataField) : Outcome Value := .error (.errors [f.unexpected])

/-- Rules for texts. Sources are refused, and nothing stands for a missing field. -/
def ofText {ε : Type} (kind : ε → Kind Value) (read : String → Except ε Value) : LeafRules where
  ofValue f := (read f.value).mapError fun e => .errors (.ofKind (kind e))
  ofData := refuseData
  fallback := none

end LeafRules

/-- Reads one octet more than the limit, to see whether there are too many. -/
def DataField.readLimited (f : DataField) (limit : Option Int) : Outcome Text.Octets :=
  match limit with
  | none => .ok (f.data.read (-1)).1
  | some n =>
    let bs := (f.data.read (n + 1)).1
    if n < bs.length then .error (.errors (.ofKind (.invalidLength none (some (.int n)))))
    else .ok bs

def readTruth (s : String) : Except Cause Value :=
  let word := Text.lowerString s
  if word ∈ ["off", "no", "false"] then .ok (.bool false)
  else if word ∈ ["", "on", "yes", "true"] then .ok (.bool true)
  else .error .truth

/-- Decimal numbers are written without blanks around them and without underscores in them. -/
def readDecimal (s : String) : Except Cause Value :=
  let cs := s.toList
  if Text.strip cs ≠ cs || cs.contains '_' then .error .decimal
  else
    match readDouble cs with
    | some d => .ok (.float d)
    | none => .error .decimal

def readWhole (range : IntegerRange) (s : String) : Except IntegerFault Int :=
  readInteger s.toList >>= range.check

namespace Leaf

def rules : Leaf → LeafRules
  | .text limit =>
    { ofValue f := .ok (.text f.value)
      ofData f := f.readLimited limit >>= fun bs =>
        match Text.decode bs with
        | .ok cs => .ok (.text (String.ofList cs))
        | .error p => .error (.errors (.ofKind (.unreadable .utf8 (.encoding p))))
      fallback := none }
  | .octets limit =>
    { ofValue f := .ok (.octets (Text.encodeString f.value))
      ofData f := (f.readLimited limit).map .octets
      fallback := none }
  | .integer signed bits =>
    .ofText (.unreadable .int ∘ Cause.integer) fun s =>
      (readWhole (.ofBits signed bits) s).map Value.int
  | .float => .ofText (.unreadable .float) readDecimal
  | .boolean =>
    { LeafRules.ofText (.unreadable .bool) readTruth with fallback := some (.bool false) }
  | .address version =>
    .ofText (.unreadable .address ∘ Cause.address) fun s =>
      (Address.ofText version s).map Value.address
  | .date => .ofText (.custom ∘ Cause.calendar) fun s => (Date.ofIso s).map Value.date
  | .time => .ofText (.custom ∘ Cause.calendar) fun s => (Time.ofIso s).map Value.time
  | .dateTime => .ofText (.custom ∘ Cause.calendar) fun s => (DateTime.ofIso s).map Value.dateTime
  | .choice e =>
    .ofText (fun _ : Unit => .invalidChoice e.choices) fun s =>
      match e.choose? s with
      | some v => .ok v
      | none => .error ()
  | .upload r =>
    { ofValue f := (r.ofValue f).map .file
      ofData f := (r.ofData f).map .file
      fallback := none }
  | .nothing => ⟨LeafRules.refuseValue, LeafRules.refuseData, none⟩

end Leaf

end WebForm
