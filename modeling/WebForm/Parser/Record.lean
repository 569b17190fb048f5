import WebForm.Form.Schema
import WebForm.Parser.Basic

/-!
# Parsing a record

The current key leads to the first member with that name. Members that no field reaches take their
declared value, or else the one their form has without fields; all others must pass their checks.
The constructor has the last word. A member has been reached if there is a state of it, so fields for
a form whose states are nothing to the record leave no trace.
-/
namespace WebForm

/-- The states of the members that a field has reached. -/
def MemberStates (parserOf : Form → Parser) : List RecordPart → Type
  | [] => Unit
  | .member m :: ps => Option (parserOf m.form).State × MemberStates parserOf ps
  | .constant _ _ :: ps => MemberStates parserOf ps

namespace MemberStates

variable {parserOf : Form → Parser}

def init : (ps : List RecordPart) → MemberStates parserOf ps
  | [] => ()
  | .member _ :: ps => (none, init ps)
  | .constant _ _ :: ps => init ps

def pushInto (p : Parser) (mode : Mode) (s : Option p.State) (f : Field) (keeps : Bool := true) :
    Step (Option p.State) :=
  match s with
  | some s => (p.push s f).map fun s => if keeps then some s else none
  | none =>
    match p.init mode with
    | .ok s => (p.push s f).map fun s => if keeps then some s else none
    | .error f => .failed none f

def push (mode : Mode) (key : Key) (f : Field) :
    (ps : List RecordPart) → MemberStates parserOf ps → (keeps : Form → Bool := fun _ => true) →
      Option (Step (MemberStates parserOf ps))
  | [], _, _ => none
  | .member m :: ps, (s, rest), keeps =>
    if key ∈ m.names then
      some ((pushInto (parserOf m.form) mode s f (keeps m.form)).map fun s => (s, rest))
    else (push mode key f ps rest keeps).map fun r => r.map fun rest => (s, rest)
  | .constant _ _ :: ps, rest, keeps => push mode key f ps rest keeps

end MemberStates

/-- The attributes of a record so far, and what is wrong with the others. -/
structure Collected where
  fields : List (String × Slot Value)
  errors : FormErrors

namespace Collected

def put (c : Collected) (attr : String) (v : Slot Value) : Collected :=
  { c with fields := c.fields ++ [(attr, v)] }

def fail (c : Collected) (es : FormErrors) : Collected := { c with errors := c.errors ++ es }

/-- What is wrong with a record. The constructor is asked only if nothing else is. -/
def complaints (c : Collected) (objections : Objections) : FormErrors :=
  if c.errors.isEmpty then objections c.fields else c.errors

end Collected

def Member.check (m : Member) (v : Value) : Except Fault FormErrors :=
  m.checks.foldlM (fun es c => do
    match ← Outcome.caught (c.run v) with
    | .ok _ => .ok es
    | .error more => .ok (es ++ more)) []

/-- What a member holds that no field reached, if there is anything for it. -/
def Member.absent (m : Member) (p : Parser) (mode : Mode) : Except Fault (Option (Slot Value)) :=
  match m.fallback with
  | .unset => (p.absent mode).map fun v => v.map .own
  | a => .ok (some a)

def Member.finish (m : Member) (p : Parser) (mode : Mode) (path : Path) (s : Option p.State)
    (c : Collected) : Except Fault Collected :=
  match s with
  | none => do
    match ← m.absent p mode with
    | some a => .ok (c.put m.attr a)
    | none => .ok (c.fail [(Error.ofKind .missing).named path])
  | some s => do
    match ← Outcome.caught (p.finalize s) with
    | .error es => .ok (c.fail (es.named path))
    | .ok v =>
      let es ← m.check v
      .ok ((c.fail (es.named path)).put m.attr (.own v))

structure RecordState (parserOf : Form → Parser) (ps : List RecordPart) where
  mode : Mode
  parent : Option Name
  members : MemberStates parserOf ps
  errors : FormErrors

/-- A field at the top of a form that browsers' forms use for themselves. -/
def methodKey : Key := "_method"

namespace RecordState

variable {parserOf : Form → Parser} {ps : List RecordPart}

def init (mode : Mode) : RecordState parserOf ps := ⟨mode, none, .init ps, []⟩

def ignores (s : RecordState parserOf ps) (key : Key) : Bool :=
  !s.mode.isStrict || (key == methodKey && s.parent.isNone)

def push (s : RecordState parserOf ps) (f : Field) (keeps : Form → Bool := fun _ => true) :
    Step (RecordState parserOf ps) :=
  let s := { s with parent := f.name.parent? }
  match MemberStates.push s.mode f.name.keyText f.shift ps s.members keeps with
  | some r => r.map fun members => { s with members }
  | none =>
    if s.ignores f.name.keyText then .done s
    else .done { s with errors := s.errors ++ [f.unexpected] }

end RecordState

def finishParts (parserOf : Form → Parser) (mode : Mode)
    (parent : Option Name) :
    (ps : List RecordPart) → MemberStates parserOf ps → Collected → Except Fault Collected
  | [], _, c => .ok c
  | .member m :: ps, (s, rest), c => do
    let c ← m.finish (parserOf m.form) mode (.ofParts parent m.name) s c
    finishParts parserOf mode parent ps rest c
  | .constant attr a :: ps, rest, c => finishParts parserOf mode parent ps rest (c.put attr a)

def RecordState.finalize {parserOf : Form → Parser} {ps : List RecordPart} (type : RecordType)
    (objections : Objections) (s : RecordState parserOf ps) : Outcome Value := do
  let c ← Outcome.ofFault (finishParts parserOf s.mode s.parent ps s.members ⟨[], s.errors⟩)
  match c.complaints objections with
  | [] => .ok (.record type c.fields)
  | es => .error (.errors es)

/-- The parts of a record and the fault in its declaration. -/
@[reducible] def partsOf (d : Except Fault (List RecordPart)) : List RecordPart × Option Fault :=
  match d with
  | .ok ps => (ps, none)
  | .error f => ([], some f)

/-- A parser for a record type with the given declaration. A faulty declaration comes up when the
first field is pushed or the value is asked for. -/
@[reducible] def Parser.record (type : RecordType) (declaration : Except Fault (List RecordPart))
    (objections : Objections) (parserOf : Form → Parser) (keeps : Form → Bool := fun _ => true) :
    Parser where
  State := RecordState parserOf (partsOf declaration).1
  init mode := .ok (.init mode)
  push s f :=
    match (partsOf declaration).2 with
    | none => s.push f keeps
    | some fault => .failed { s with parent := f.name.parent? } fault
  report s e := { s with errors := s.errors ++ [e] }
  finalize s :=
    match (partsOf declaration).2 with
    | none => s.finalize type objections
    | some fault => .error (.fault fault)

end WebForm
