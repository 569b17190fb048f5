import Mathlib
import WebForm.Proofs.Spelling.Field
import WebForm.Proofs.Spelling.Value

/-!
# Leaves and spellings

A leaf makes the same of two fields in two spellings: the same value, unless a file notes the name
of its field, or errors with names that have the same keys.
-/
namespace WebForm

/-- Errors that differ in the spelling of their names alone. -/
def Error.Alike (e f : FormError) : Prop :=
  e.kind = f.kind ∧ e.entity = f.entity ∧ e.value = f.value ∧
    e.name.map Path.keys = f.name.map Path.keys

abbrev ErrorsAlike (es fs : FormErrors) : Prop := List.Forall₂ Error.Alike es fs

inductive Alike : Except FormErrors Value → Except FormErrors Value → Prop
  | value {v w} : v.Alike w → Alike (.ok v) (.ok w)
  | errors {es fs} : ErrorsAlike es fs → Alike (.error es) (.error fs)

/-- Two outcomes are alike if neither is a fault and they end alike. -/
def Outcome.Alike (o p : Outcome Value) : Prop :=
  ∃ r r', o = ofErrors r ∧ p = ofErrors r' ∧ WebForm.Alike r r'

theorem Error.Alike.refl (e : FormError) : e.Alike e := ⟨rfl, rfl, rfl, rfl⟩

theorem Error.alike_iff {e f : FormError} : e.Alike f ↔ e.unspelled = f.unspelled := by
  rcases e with ⟨k, n, p, v⟩
  rcases f with ⟨k', n', p', v'⟩
  have hname : p.map Path.keys = p'.map Path.keys ↔
      p.map Path.unspelled = p'.map Path.unspelled := by
    cases p <;> cases p' <;> simp [Path.keys_unspelled]
  simp only [Alike, Error.unspelled, Error.mk.injEq, hname]
  tauto

theorem Error.Alike.named {e f : FormError} (h : e.Alike f) {p q : Path} (hpq : p.keys = q.keys) :
    (e.named p).Alike (f.named q) := by
  rcases e with ⟨k, n, _ | p', v⟩ <;> rcases f with ⟨k', n', _ | q', v'⟩ <;>
    obtain ⟨rfl, rfl, rfl, hname⟩ := h
  · exact ⟨rfl, rfl, rfl, congrArg some hpq⟩
  · cases hname
  · cases hname
  · exact ⟨rfl, rfl, rfl, hname⟩

theorem Error.Alike.valued {e f : FormError} (h : e.Alike f) (text : String) :
    (e.valued text).Alike (f.valued text) := by
  rcases e with ⟨k, n, p, _ | v⟩ <;> rcases f with ⟨k', n', p', _ | v'⟩ <;>
    obtain ⟨rfl, rfl, hvalue, hname⟩ := h
  · exact ⟨rfl, rfl, rfl, hname⟩
  · cases hvalue
  · cases hvalue
  · exact ⟨rfl, rfl, hvalue, hname⟩

namespace ErrorsAlike

variable {es fs : FormErrors}

theorem refl (es : FormErrors) : ErrorsAlike es es := List.forall₂_same.2 fun e _ => .refl e

theorem named (h : ErrorsAlike es fs) {p q : Path} (hpq : p.keys = q.keys) :
    ErrorsAlike (es.named p) (fs.named q) := List.rel_map (fun _ _ h => h.named hpq) h

theorem valued (h : ErrorsAlike es fs) (text : String) :
    ErrorsAlike (es.valued text) (fs.valued text) := List.rel_map (fun _ _ h => h.valued text) h

theorem unspelled (h : ErrorsAlike es fs) : es.map Error.unspelled = fs.map Error.unspelled := by
  induction h with
  | nil => rfl
  | cons hef _ ih => rw [List.map_cons, List.map_cons, Error.alike_iff.1 hef, ih]

end ErrorsAlike

theorem Alike.refl (r : Except FormErrors Value) : Alike r r := by
  cases r with
  | ok v => exact .value rfl
  | error es => exact .errors (ErrorsAlike.refl es)

theorem Alike.failures {r r' : Except FormErrors Value} (h : Alike r r') :
    ErrorsAlike (failures r) (failures r') := by
  cases h with
  | value => exact .nil
  | errors h => exact h

theorem Field.Respelled.unexpected {f g : Field} (h : f.Respelled g) :
    f.unexpected.Alike g.unexpected := by
  cases h with
  | value h | data h => exact ⟨rfl, rfl, rfl, congrArg some h.source_keys⟩

section Read

variable {f g : Field}

end Read

section State

variable {s t s' : LeafState} {f g : Field} {fs gs : List Field} {mode : Mode}

structure LeafState.Alike (s t : LeafState) : Prop where
  mode : s.mode = t.mode
  name : Option.Rel View.Respelled s.fieldName t.fieldName
  value : s.fieldValue = t.fieldValue
  taken : Option.Rel WebForm.Alike s.taken t.taken
  pushes : s.pushes = t.pushes

end State

end WebForm
