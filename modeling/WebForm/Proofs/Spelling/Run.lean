import Mathlib
import WebForm.Proofs.Settling
import WebForm.Proofs.Spelling.Leaf

/-!
# Forms and spellings

The keys of the names alone decide what becomes of the fields. A run on fields in one spelling and
one in another end alike, which is proved of one kind of form after the other.
-/
namespace WebForm

variable {s : Schema} {mode : Mode} {fs gs : List Field}

section Wholes

structure EntryEnd.Alike (d d' : EntryEnd) : Prop where
  place : (Path.ofView d.place).keys = (Path.ofView d'.place).keys
  key : WebForm.Alike d.key d'.key
  value : WebForm.Alike d.value d'.value

namespace EntryEnd.Alike

variable {d d' : EntryEnd}

theorem errors (h : d.Alike d') : ErrorsAlike d.errors d'.errors :=
  List.rel_append (h.key.failures.named h.place) (h.value.failures.named h.place)

theorem item (h : d.Alike d') : d.item?.map (Prod.map Value.unspelled Value.unspelled) =
    d'.item?.map (Prod.map Value.unspelled Value.unspelled) := by
  rcases d with ⟨p, k, v⟩
  rcases d' with ⟨p', k', v'⟩
  obtain ⟨-, hk, hv⟩ := h
  cases hk with
  | errors => rfl
  | value hk =>
    cases hv with
    | errors => rfl
    | value hv => exact congrArg some (congrArg₂ Prod.mk hk hv)

end EntryEnd.Alike

structure Collected.Alike (c c' : Collected) : Prop where
  fields : unspelledFields c.fields = unspelledFields c'.fields
  errors : ErrorsAlike c.errors c'.errors

theorem Collected.Alike.refl (c : Collected) : c.Alike c := ⟨rfl, ErrorsAlike.refl _⟩

theorem Collected.Alike.plus {c c' d d' : Collected} (h : c.Alike c') (h' : d.Alike d') :
    (c.plus d).Alike (c'.plus d') where
  fields := by
    have hfields := h.fields
    have hfields' := h'.fields
    rw [unspelledFields_eq, unspelledFields_eq] at hfields hfields' ⊢
    rw [Collected.plus, Collected.plus, List.map_append, List.map_append, hfields, hfields']
  errors := List.rel_append h.errors h'.errors

end Wholes

section Parts

variable {p : Parser} {r : Except FormErrors Value}

end Parts

end WebForm
