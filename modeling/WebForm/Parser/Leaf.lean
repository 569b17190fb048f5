import WebForm.Form.Leaf
import WebForm.Parser.Basic

/-!
# Parsing a leaf

A leaf takes the first field that it does not ignore. Lenient leaves ignore the fields that they
refuse as unexpected, and those that come after the first.
-/
namespace WebForm

structure LeafState where
  mode : Mode
  fieldName : Option View
  fieldValue : Option String
  taken : Option (Except FormErrors Value)
  pushes : Nat

namespace LeafState

def init (mode : Mode) : LeafState := ⟨mode, none, none, none, 0⟩

def refused (es : FormErrors) : Bool := es.getLast?.any (·.kind.isUnexpected)

def record (s : LeafState) (r : Outcome Value) : Step LeafState :=
  match r with
  | .ok v => .done { s with taken := some (.ok v) }
  | .error (.errors es) =>
    .done (if !s.mode.isStrict && refused es then s else { s with taken := some (.error es) })
  | .error (.fault f) => .failed s f

def push (rules : LeafRules) (s : LeafState) (f : Field) : Step LeafState :=
  let s := { s with pushes := s.pushes + 1 }
  match s.taken with
  | some _ => .done s
  | none =>
    match f with
    | .value f =>
      { s with fieldName := some f.name, fieldValue := some f.value }.record (rules.ofValue f)
    | .data f => { s with fieldName := some f.name }.record (rules.ofData f)

/-- Errors are about the last field that was looked at. -/
def fail (s : LeafState) (es : FormErrors) : FormErrors :=
  let es :=
    match s.fieldName with
    | some n => if n.asName.isEmpty then es else es.named (.ofView n)
    | none => es
  match s.fieldValue with
  | some v => es.valued v
  | none => es

def finalize (rules : LeafRules) (s : LeafState) : Except FormErrors Value :=
  match s.taken with
  | some (.ok v) =>
    if s.mode.isStrict && 1 < s.pushes then .error (s.fail (.ofKind .duplicate)) else .ok v
  | some (.error es) => .error (s.fail es)
  | none =>
    match if s.mode.isStrict then none else rules.fallback with
    | some v => .ok v
    | none => .error (s.fail (.ofKind .missing))

end LeafState

@[reducible] def Parser.leaf (rules : LeafRules) : Parser where
  State := LeafState
  init mode := .ok (.init mode)
  push s f := s.push rules f
  report := dropError
  finalize s := Outcome.ofErrors (s.finalize rules)

end WebForm
