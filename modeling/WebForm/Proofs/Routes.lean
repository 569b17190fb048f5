import Mathlib
import WebForm.Proofs.Shares

/-!
# The ways of fields

A form hands a field on to one of its parts, which hands it on to one of its own. What is asked of a
form in all its parts, and of a field wherever it comes, is kept by each step on the way.
-/
namespace WebForm

namespace Schema

variable {s : Schema}

inductive Has (s : Schema) : Form → Form → Prop
  | item {item} : Has s (.list item) item
  | key {key value} : Has s (.dict key value) key
  | value {key value} : Has s (.dict key value) value
  | left {left right} : Has s (.pair left right) left
  | right {left right} : Has s (.pair left right) right
  | member {t ps m} : s.declaration t = .ok ps → .member m ∈ ps → Has s (.record t) m.form
  | optional {item} : Has s (.optional item) item
  | result {item} : Has s (.result item) item
  | forced {mode item} : Has s (.forced mode item) item
  | contextual {item} : Has s (.contextual item) item

/-- The form and all its parts are such forms. -/
def BuiltOf (s : Schema) (ok : Form → Prop) (form : Form) : Prop :=
  ∀ part, Relation.ReflTransGen s.Has form part → ok part

theorem BuiltOf.self {ok : Form → Prop} {form : Form} (h : s.BuiltOf ok form) : ok form :=
  h form .refl

theorem BuiltOf.part {ok : Form → Prop} {form part : Form} (h : s.BuiltOf ok form)
    (hp : s.Has form part) : s.BuiltOf ok part := fun _ hq => h _ (.head hp hq)

/-- A form hands a field on to a part, which gets it as the second field. -/
inductive Sends (s : Schema) : Form × Field → Form × Field → Prop
  | item {item f} : Sends s (.list item, f) (item, f.shift)
  | key {key value f i} : f.isKeyOf i = true → Sends s (.dict key value, f) (key, f.shift)
  | value {key value f i} : f.isValueOf i = true → Sends s (.dict key value, f) (value, f.shift)
  | left {left right f} : f.isFor "0" = true → Sends s (.pair left right, f) (left, f.shift)
  | right {left right f} : f.isFor "1" = true → Sends s (.pair left right, f) (right, f.shift)
  | member {t ps j m f} : s.declaration t = .ok ps → f.owner ps = some j →
    ps[j]? = some (.member m) → Sends s (.record t, f) (m.form, f.shift)
  | optional {item f} : Sends s (.optional item, f) (item, f)
  | result {item f} : Sends s (.result item, f) (item, f)
  | forced {mode item f} : Sends s (.forced mode item, f) (item, f)
  | contextual {item f} : Sends s (.contextual item, f) (item, f)

/-- Such a field comes to such a form, wherever on its way. -/
def OnWay (s : Schema) (ok : Form → Field → Prop) (form : Form) (f : Field) : Prop :=
  ∀ part g, Relation.ReflTransGen s.Sends (form, f) (part, g) → ok part g

variable {ok : Form → Field → Prop} {form part : Form} {f g : Field}

theorem OnWay.self (h : s.OnWay ok form f) : ok form f := h form f .refl

theorem OnWay.step (h : s.OnWay ok form f) (hs : s.Sends (form, f) (part, g)) :
    s.OnWay ok part g := fun _ _ hr => h _ _ (.head hs hr)

theorem Sends.field {x y : Form × Field} (h : s.Sends x y) : y.2 = x.2 ∨ y.2 = x.2.shift := by
  cases h with
  | optional | result | forced | contextual => exact .inl rfl
  | _ => exact .inr rfl

theorem onWay_of_shift {kept : Field → Prop} (hshift : ∀ g, kept g → kept g.shift)
    (hok : ∀ part g, kept g → ok part g) (hf : kept f) : s.OnWay ok form f := by
  have hkept (x : Form × Field) (h : Relation.ReflTransGen s.Sends (form, f) x) : kept x.2 := by
    induction h with
    | refl => exact hf
    | tail _ hstep ih =>
      rcases hstep.field with hsame | hshifted
      · rwa [hsame]
      · rw [hshifted]
        exact hshift _ ih
  exact fun part g h => hok part g (hkept _ h)

theorem onWay_handed {fs : List Field} {q : Field → Bool} (h : ∀ f ∈ fs, s.OnWay ok form f)
    (hq : ∀ f, q f = true → s.Sends (form, f) (part, f.shift)) :
    ∀ g ∈ handed q fs, s.OnWay ok part g := by
  intro g hg
  obtain ⟨f, hf, hqf, rfl⟩ := mem_handed.1 hg
  exact (h f hf).step (hq f hqf)

theorem onWay_share {t : RecordType} {ps : List RecordPart} {j : Nat} {m : Member}
    {fs : List Field} (h : ∀ f ∈ fs, s.OnWay ok (.record t) f) (hd : s.declaration t = .ok ps)
    (hm : ps[j]? = some (.member m)) : ∀ g ∈ shareOf ps j fs, s.OnWay ok m.form g :=
  onWay_handed h fun _ hf => .member hd (of_decide_eq_true hf) hm

end Schema

end WebForm
