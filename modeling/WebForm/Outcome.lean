import WebForm.Fault
import WebForm.Value.Basic

/-!
# Outcomes

Work on a form ends in a result, in errors of the form, or in a fault.
-/
namespace WebForm

inductive Failure where
  | errors (es : FormErrors)
  | fault (f : Fault)

abbrev Outcome := Except Failure

namespace Outcome

variable {α : Type}

def ofErrors (r : Except FormErrors α) : Outcome α := r.mapError .errors
def ofFault (r : Except Fault α) : Outcome α := r.mapError .fault

/-- Errors as a value; faults stay. -/
def caught : Outcome α → Except Fault (Except FormErrors α)
  | .ok a => .ok (.ok a)
  | .error (.errors es) => .ok (.error es)
  | .error (.fault f) => .error f

end Outcome

end WebForm
