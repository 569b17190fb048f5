import WebForm.Parser.Basic

/-!
# Parsing a list

Neighbouring fields with the same current key belong to one item. A field without a current key is
an item of its own. There is a current item if there is a state of it, so a list loses the items of
a parser whose states are nothing to it.
-/
namespace WebForm

structure ListState (σ : Type) where
  mode : Mode
  lastKey : Option Key
  current : Option σ
  items : List Value
  errors : FormErrors

namespace ListState

def init {σ : Type} (mode : Mode) : ListState σ := ⟨mode, none, none, [], []⟩

variable {item : Parser}

def flush (s : ListState item.State) : Step (ListState item.State) :=
  match s.current with
  | none => .done s
  | some c =>
    let s := { s with current := none }
    match item.finalize c with
    | .ok v => .done { s with items := s.items ++ [v] }
    | .error (.errors es) => .done { s with errors := s.errors ++ es }
    | .error (.fault f) => .failed s f

def joined (s : ListState item.State) (key : Option Key) : Option item.State :=
  if key.isSome && s.lastKey == key then s.current else none

def pushInto (keeps : Bool) (s : ListState item.State) (c : item.State) (f : Field) :
    Step (ListState item.State) :=
  (item.push c f.shift).map fun c =>
    { s with lastKey := f.name.key?, current := if keeps then some c else none }

def push (keeps : Bool) (s : ListState item.State) (f : Field) : Step (ListState item.State) :=
  match s.joined f.name.key? with
  | some c => s.pushInto keeps c f
  | none =>
    s.flush.andThen fun s =>
      match item.init s.mode with
      | .ok c => s.pushInto keeps c f
      | .error f => .failed s f

def finalize (s : ListState item.State) : Outcome Value :=
  match s.flush with
  | ⟨_, some f⟩ => .error (.fault f)
  | ⟨s, none⟩ => if s.errors.isEmpty then .ok (.list s.items) else .error (.errors s.errors)

end ListState

@[reducible] def Parser.list (item : Parser) (keeps : Bool := true) : Parser where
  State := ListState item.State
  init mode := .ok (.init mode)
  push := ListState.push keeps
  report := dropError
  finalize := ListState.finalize

end WebForm
