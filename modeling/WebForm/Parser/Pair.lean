import WebForm.Parser.Basic

/-!
# Parsing a pair

The keys `0` and `1` lead to the two sides.
-/
namespace WebForm

structure PairState (α β : Type) where
  left : α
  right : β
  errors : FormErrors

namespace PairState

variable {left right : Parser}

def push (s : PairState left.State right.State) (f : Field) :
    Step (PairState left.State right.State) :=
  if f.name.key? = some "0" then (left.push s.left f.shift).map fun l => { s with left := l }
  else if f.name.key? = some "1" then
    (right.push s.right f.shift).map fun r => { s with right := r }
  else
    .done { s with
      errors := s.errors ++ [⟨.invalidChoice ["0", "1"], .index 0, some (.ofView f.name), none⟩] }

def finalize (s : PairState left.State right.State) : Outcome Value := do
  let l ← Outcome.ofFault (Outcome.caught (left.finalize s.left))
  let r ← Outcome.ofFault (Outcome.caught (right.finalize s.right))
  match s.errors, l, r with
  | [], .ok l, .ok r => .ok (.tuple [l, r])
  | es, l, r =>
    let failed (r : Except FormErrors Value) : FormErrors :=
      match r with
      | .ok _ => []
      | .error es => es
    .error (.errors (es ++ failed l ++ failed r))

end PairState

@[reducible] def Parser.pair (left right : Parser) : Parser where
  State := PairState left.State right.State
  init mode := do .ok ⟨← left.init mode, ← right.init mode, []⟩
  push := PairState.push
  report := dropError
  finalize := PairState.finalize

end WebForm
