import WebForm.Error.Basic

/-!
# Contexts

What was submitted under which name, and which errors came up there. Names count by their keys, and
the first spelling stays.
-/
namespace WebForm

structure Context (α : Type) where
  errors : List (Path × List (Error α))
  values : List (Name × List String)
  dataFields : List Name
  formErrors : List (Error α)
  status : Status
  deriving Repr

namespace Context

variable {α : Type}

def empty : Context α := ⟨[], [], [], [], .ok⟩

/-- Adds to the entry with the same keys, or makes a new entry at the end. -/
def addTo {β γ : Type} (keys : β → List Key) (place : β) (item : γ) :
    List (β × List γ) → List (β × List γ)
  | [] => [(place, [item])]
  | (p, items) :: rest =>
    if keys p = keys place then (p, items ++ [item]) :: rest
    else (p, items) :: addTo keys place item rest

def lookup {β γ : Type} (keys : β → List Key) (wanted : List Key) (table : List (β × List γ)) :
    List γ :=
  ((table.find? fun e => keys e.1 = wanted).map (·.2)).getD []

def pushError (c : Context α) (e : Error α) : Context α :=
  let c := { c with status := c.status.max e.status }
  match e.name with
  | none => { c with formErrors := c.formErrors ++ [e] }
  | some p => { c with errors := addTo Path.keys p e c.errors }

def pushErrors (c : Context α) (es : Errors α) : Context α := es.foldl pushError c

def recordValue (c : Context α) (n : Name) (v : String) : Context α :=
  { c with values := addTo Name.keys n v c.values }

def recordData (c : Context α) (n : Name) : Context α :=
  if c.dataFields.any (·.keys = n.keys) then c
  else { c with dataFields := c.dataFields ++ [n] }

def valuesOf (c : Context α) (n : Name) : List String := lookup Name.keys n.keys c.values

def valueOf (c : Context α) (n : Name) : Option String := (c.valuesOf n).head?

def errorsOf (c : Context α) (n : Name) : List (Error α) :=
  n.leading.flatMap fun m => lookup Path.keys (Path.ofName m).keys c.errors

def hasError (c : Context α) (n : Name) : Bool := !(c.errorsOf n).isEmpty

/-- The named errors by name, then those of the form as a whole. -/
def allErrors (c : Context α) : List (Error α) := c.errors.flatMap (·.2) ++ c.formErrors

end Context

end WebForm
