import WebForm.Form.Basic
import WebForm.Outcome

/-!
# Parsers

A parser never sees a whole form. It starts in a state, is fed the fields one at a time, and gives
the value at the end. Each parser brings the type of its own states, so that the state of a list is
made of a state of its item.
-/
namespace WebForm

/-- The state after a step, and the fault that cut the step short. -/
structure Step (σ : Type) where
  state : σ
  fault : Option Fault

namespace Step

variable {σ τ : Type}

def done (s : σ) : Step σ := ⟨s, none⟩
def failed (s : σ) (f : Fault) : Step σ := ⟨s, some f⟩
def map (g : σ → τ) (r : Step σ) : Step τ := ⟨g r.state, r.fault⟩

def andThen (r : Step σ) (next : σ → Step σ) : Step σ :=
  match r.fault with
  | none => next r.state
  | some _ => r

end Step

structure Parser where
  State : Type
  init : Mode → Except Fault State
  push : State → Field → Step State
  /-- Takes note of an error that came up outside of the parser. -/
  report : State → FormError → State
  finalize : State → Outcome Value

namespace Parser

def pushAll (p : Parser) (s : p.State) (fs : List Field) : Step p.State :=
  fs.foldl (fun r f => r.andThen (p.push · f)) (.done s)

def run (p : Parser) (mode : Mode) (fs : List Field) : Outcome Value := do
  let s ← Outcome.ofFault (p.init mode)
  match p.pushAll s fs with
  | ⟨s, none⟩ => p.finalize s
  | ⟨_, some f⟩ => .error (.fault f)

def absent (p : Parser) (mode : Mode) : Except Fault (Option Value) := do
  match ← Outcome.caught (p.run mode []) with
  | .ok v => .ok (some v)
  | .error _ => .ok none

def dropError {σ : Type} (s : σ) (_ : FormError) : σ := s

@[reducible] def failing (f : Fault) : Parser where
  State := Unit
  init _ := .error f
  push s _ := .failed s f
  report := dropError
  finalize _ := .error (.fault f)

end Parser

end WebForm
