import WebForm.Parser.Basic

/-!
# Parsing with a second view on the outcome

These parsers feed another one and change what becomes of its outcome, or the mode it starts in.
-/
namespace WebForm.Parser

/-- Errors become the absence of a value. -/
@[reducible] def optional (item : Parser) : Parser where
  State := item.State
  init := item.init
  push := item.push
  report := dropError
  finalize s := do
    match ← Outcome.ofFault (Outcome.caught (item.finalize s)) with
    | .ok v => .ok v
    | .error _ => .ok .none

/-- Errors become a value. -/
@[reducible] def result (item : Parser) : Parser where
  State := item.State
  init := item.init
  push := item.push
  report := dropError
  finalize s := do
    match ← Outcome.ofFault (Outcome.caught (item.finalize s)) with
    | .ok v => .ok v
    | .error es => .ok (.errors es)

/-- The mode is fixed, whatever the mode around it. -/
@[reducible] def forced (mode : Mode) (item : Parser) : Parser where
  State := item.State
  init _ := item.init mode
  push := item.push
  report := item.report
  finalize := item.finalize

/-- The name and text, or the name alone, that a context keeps of a field. -/
def noted (c : FormContext) : Field → FormContext
  | .value f => c.recordValue f.name.source f.value
  | .data f => c.recordData f.name.source

/-- Errors go into a context, together with all that was submitted. -/
@[reducible] def contextual (item : Parser) : Parser where
  State := item.State × FormContext
  init mode := (item.init mode).map fun s => (s, .empty)
  push s f := (item.push s.1 f).map fun t => (t, noted s.2 f)
  report s e := (s.1, s.2.pushError e)
  finalize s := do
    match ← Outcome.ofFault (Outcome.caught (item.finalize s.1)) with
    | .ok v => .ok (.contextual v s.2)
    | .error es => .ok (.contextual .none (s.2.pushErrors es))

end WebForm.Parser
