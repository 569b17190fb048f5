import WebForm.Parser.Basic
import WebForm.Text.Case
import WebForm.Value.Compare

/-!
# Parsing a dictionary

A key with one index names the entry directly: the index is the text of the entry's key. A key with
two indices says whether the field is for the key or for the value of an entry, and of which one.
Entries keep the order in which they came up.
-/
namespace WebForm

structure DictEntry (κ ν : Type) where
  index : String
  /-- The name of the field that made the entry. -/
  place : View
  key : κ
  value : ν

structure DictState (κ ν : Type) where
  mode : Mode
  entries : List (DictEntry κ ν)
  errors : FormErrors

inductive DictTarget where
  | entry (index : String)
  | entryKey (index : String)
  | entryValue (index : String)
  | nowhere (kind : Kind Value) (entity : Entity)

def DictTarget.ofKey (key : Option Key) : DictTarget :=
  match (key.map Key.indices).getD [] with
  | [index] => .entry index
  | [side, index] =>
    match (Text.lower side.toList).head? with
    | some 'k' => .entryKey index
    | some 'v' => .entryValue index
    | _ => .nowhere (.invalidChoice ["k", "v"]) (.index 0)
  | _ => .nowhere .missing .key

namespace DictState

def init {κ ν : Type} (mode : Mode) : DictState κ ν := ⟨mode, [], []⟩

variable {key value : Parser}

def change (index : String)
    (g : DictEntry key.State value.State → Step (DictEntry key.State value.State)) :
    List (DictEntry key.State value.State) → Step (List (DictEntry key.State value.State))
  | [] => .done []
  | e :: es =>
    if e.index = index then (g e).map (· :: es) else (change index g es).map (e :: ·)

def update (s : DictState key.State value.State) (index : String)
    (g : DictEntry key.State value.State → Step (DictEntry key.State value.State)) :
    Step (DictState key.State value.State) :=
  (change index g s.entries).map fun es => { s with entries := es }

def has (s : DictState key.State value.State) (index : String) : Bool :=
  s.entries.any (·.index = index)

def add (s : DictState key.State value.State) (index : String) (place : View) :
    Step (DictState key.State value.State) :=
  match key.init s.mode, value.init s.mode with
  | .ok k, .ok v => .done { s with entries := s.entries ++ [⟨index, place, k, v⟩] }
  | .error f, _ => .failed s f
  | _, .error f => .failed s f

def pushKey (f : Field) (e : DictEntry key.State value.State) :
    Step (DictEntry key.State value.State) :=
  (key.push e.key f).map fun k => { e with key := k }

def pushValue (f : Field) (e : DictEntry key.State value.State) :
    Step (DictEntry key.State value.State) :=
  (value.push e.value f).map fun v => { e with value := v }

def touch (s : DictState key.State value.State) (index : String) (place : View) :
    Step (DictState key.State value.State) :=
  if s.has index then .done s else s.add index place

/-- An entry that is named directly takes its index as the text of its key. -/
def touchNamed (s : DictState key.State value.State) (index : String) (place : View) :
    Step (DictState key.State value.State) :=
  if s.has index then .done s
  else (s.add index place).andThen (·.update index (pushKey (.value (.nameless index))))

def push (s : DictState key.State value.State) (f : Field) :
    Step (DictState key.State value.State) :=
  match DictTarget.ofKey f.name.key? with
  | .entry i => (s.touchNamed i f.name).andThen (·.update i (pushValue f.shift))
  | .entryKey i => (s.touch i f.name).andThen (·.update i (pushKey f.shift))
  | .entryValue i => (s.touch i f.name).andThen (·.update i (pushValue f.shift))
  | .nowhere k e => .done { s with errors := s.errors ++ [⟨k, e, some (.ofView f.name), none⟩] }

def collect (errors : FormErrors) (items : List (Value × Value)) :
    List (DictEntry key.State value.State) → Except Fault (FormErrors × List (Value × Value))
  | [] => .ok (errors, items)
  | e :: es => do
    let k ← Outcome.caught (key.finalize e.key)
    let v ← Outcome.caught (value.finalize e.value)
    match k, v with
    | .ok k, .ok v =>
      match k.keyFault? with
      | some f => .error f
      | none => collect errors (Value.insert k v items) es
    | _, _ =>
      let failed (r : Except FormErrors Value) : FormErrors :=
        match r with
        | .ok _ => []
        | .error es => es.named (.ofView e.place)
      collect (errors ++ failed k ++ failed v) items es

def finalize (s : DictState key.State value.State) : Outcome Value := do
  let (errors, items) ← Outcome.ofFault (collect s.errors [] s.entries)
  if errors.isEmpty then .ok (.dict items) else .error (.errors errors)

end DictState

@[reducible] def Parser.dict (key value : Parser) : Parser where
  State := DictState key.State value.State
  init mode := .ok (.init mode)
  push := DictState.push
  report := dropError
  finalize := DictState.finalize

end WebForm
