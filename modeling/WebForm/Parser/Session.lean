import WebForm.Form.Display
import WebForm.Parser.Form

/-!
# Sessions

A session is a parser at work. It takes fields and errors one at a time and is finalized once.
-/
namespace WebForm

structure Session (p : Parser) where
  state : p.State
  finalized : Bool

inductive Submission where
  | field (f : Field)
  | error (e : FormError)
  /-- Something that cannot be taken, and why. -/
  | fault (f : Fault)

namespace Session

variable {p : Parser}

def start (p : Parser) (mode : Mode) : Except Fault (Session p) :=
  (p.init mode).map fun s => ⟨s, false⟩

def pushField (s : Session p) (f : Field) : Step (Session p) :=
  (p.push s.state f).map fun t => { s with state := t }

def report (s : Session p) (e : FormError) : Session p := { s with state := p.report s.state e }

def push (s : Session p) : Submission → Step (Session p)
  | .field f => s.pushField f
  | .error e => .done (s.report e)
  | .fault f => .failed s f

def pushAll (s : Session p) (items : List Submission) : Step (Session p) :=
  items.foldl (fun r i => r.andThen (·.push i)) (.done s)

def finalize (s : Session p) : Session p × Outcome Value :=
  if s.finalized then (s, .error (.fault .finalized))
  else ({ s with finalized := true }, p.finalize s.state)

end Session

def quotedSession (form : Form) (mode : Mode) : String :=
  "FormParser(form=" ++ form.quoted ++ ", opts=" ++ mode.quoted ++ ")"

namespace Submission

def nameLength : Submission → Nat
  | field f => f.name.source.length
  | _ => 0

def longestName (items : List Submission) : Nat :=
  items.foldl (fun n i => max n i.nameLength) 0

end Submission

namespace Schema

/-- A parser that is deep enough for names of the given length. -/
def parserFor (s : Schema) (nameLength : Nat) (form : Form) : Parser :=
  s.parser (s.depth nameLength) form

def parseAll (s : Schema) (form : Form) (mode : Mode) (items : List Submission) :
    Outcome Value := do
  let start ← Outcome.ofFault
    (Session.start (s.parserFor (Submission.longestName items) form) mode)
  match start.pushAll items with
  | ⟨session, none⟩ => session.finalize.2
  | ⟨_, some f⟩ => .error (.fault f)

end Schema

end WebForm
