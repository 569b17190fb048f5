import Mathlib
import WebForm.Proofs.Routes
import WebForm.Proofs.Spelling.Field
import WebForm.Proofs.Utf8

/-!
# Texts in fields and in sources

A text can come as it is or as a source of its octets in UTF-8. Where a field goes depends on its
name alone, so nothing that sorts fields can tell the two apart, and leaves for texts and octets
read the same in both, provided that they have room for the octets.
-/
namespace WebForm

/-- The source gives just these octets to whoever asks for more or for all of them. -/
def Source.Gives (source : Source) (bs : Text.Octets) : Prop :=
  ∀ size : Int, size < 0 ∨ bs.length < size → (source.read size).1 = bs

theorem Source.ofOctets_gives (bs : Text.Octets) : (Source.ofOctets bs).Gives bs := by
  intro size hsize
  unfold Source.read Source.ofOctets
  by_cases hnegative : size < 0
  · rw [if_pos hnegative]
  · have hlength : bs.length < size := hsize.resolve_left hnegative
    have htake : bs.length ≤ size.toNat := by omega
    rw [if_neg hnegative, if_neg (by omega)]
    exact List.take_of_length_le htake

theorem Source.Gives.rest {source : Source} {bs : Text.Octets} (h : source.Gives bs) :
    source.rest = bs := by
  have hall := h (-1) (.inl (by decide))
  unfold Source.read at hall
  rwa [if_pos (by decide)] at hall

/-- The field has this text, as it is or as a source of its octets. -/
inductive Field.Carries (text : String) : Field → Prop
  | value {name} : Carries text (.value ⟨name, text⟩)
  | data {name source fileName contentType} : source.Gives (Text.encodeString text) →
    Carries text (.data ⟨name, source, fileName, contentType⟩)

/-- A text stays as it is or comes as a source of its octets. -/
inductive Field.Sourced : Field → Field → Prop
  | kept (f) : Sourced (.value f) (.value f)
  | sourced {f source fileName contentType} : source.Gives (Text.encodeString f.value) →
    Sourced (.value f) (.data ⟨f.name, source, fileName, contentType⟩)

/-- A leaf has room for all octets of a source. -/
def Form.HasRoom : Form → Field → Prop
  | .leaf (.text limit), .data f | .leaf (.octets limit), .data f =>
    ∀ n ∈ limit, f.data.rest.length ≤ n
  | _, _ => True

/-- A form that is a leaf for texts or octets or is made of other forms, whose errors it reports. -/
def Form.IsTextual : Form → Prop
  | .leaf (.text _) | .leaf (.octets _) | .list _ | .dict _ _ | .pair _ _ | .record _
  | .optional _ => True
  | _ => False

section Read

variable {l : Leaf} {f : Field} {text : String}

theorem readLimited_carried {f : DataField} {limit : Option Int} {bs : Text.Octets}
    (h : f.data.Gives bs) (hroom : ∀ n ∈ limit, f.data.rest.length ≤ n) :
    f.readLimited limit = .ok bs := by
  unfold DataField.readLimited
  cases limit with
  | none => rw [h (-1) (.inl (by decide))]
  | some n =>
    have hn := hroom n rfl
    rw [h.rest] at hn
    simp only [h (n + 1) (.inr (by omega))]
    rw [if_neg (by omega)]

def Leaf.carried (l : Leaf) (text : String) : Value :=
  match l with
  | .octets _ => .octets (Text.encodeString text)
  | _ => .text text

theorem read_carried (hl : (Form.leaf l).IsTextual) (hroom : (Form.leaf l).HasRoom f)
    (h : f.Carries text) : l.rules.read f = .ok (l.carried text) := by
  cases l with
  | text limit =>
    cases h with
    | value => rfl
    | data h =>
      change (DataField.readLimited _ limit >>= _) = _
      rw [readLimited_carried h hroom, bind_ok, Text.encodeString, Text.decode_encode]
      simp only [String.ofList_toList]
      rfl
  | octets limit =>
    cases h with
    | value => rfl
    | data h =>
      change (DataField.readLimited _ limit).map _ = _
      rw [readLimited_carried h hroom]
      rfl
  | _ => exact hl.elim

end Read

section Names

variable {fs gs : List Field} {R R' : Field → Field → Prop}

theorem entered_of_names (h : fs.map Field.name = gs.map Field.name) : entered fs = entered gs := by
  have hfold (is : List String) : fs.foldl enter is = gs.foldl enter is := by
    induction fs generalizing gs is with
    | nil =>
      obtain rfl := List.map_eq_nil_iff.1 h.symm
      rfl
    | cons f fs ih =>
      obtain ⟨g, gs, rfl, hname, h⟩ := List.map_eq_cons_iff.1 h.symm
      have htarget : f.target = g.target := by rw [Field.target, Field.target, hname]
      rw [List.foldl_cons, List.foldl_cons, enter, enter, htarget]
      exact ih h.symm _
  exact hfold []

theorem opener_of_names (h : fs.map Field.name = gs.map Field.name) (i : String) :
    (opener i fs).map Field.name = (opener i gs).map Field.name := by
  have hnames (hs : List Field) : (opener i hs).map Field.name =
      (hs.map Field.name).find? fun v => (DictTarget.ofKey v.key?).index? == some i := by
    rw [List.find?_map]
    rfl
  rw [hnames, hnames, h]

theorem parentOf_of_names (h : fs.map Field.name = gs.map Field.name) :
    parentOf fs = parentOf gs := by
  have hnames (hs : List Field) : parentOf hs = (hs.map Field.name).getLast?.bind View.parent? := by
    rw [List.getLast?_map, Option.bind_map]
    rfl
  rw [hnames, hnames, h]

theorem handed_rel {q : Field → Bool} (hq : ∀ f g, R f g → q f = q g)
    (hR : ∀ f g, R f g → q f = true → R' f.shift g.shift) (h : List.Forall₂ R fs gs) :
    List.Forall₂ R' (handed q fs) (handed q gs) := by
  induction h with
  | nil => exact .nil
  | @cons f g fs gs hfg _ ih =>
    rw [handed, handed, List.filter_cons, List.filter_cons, ← hq f g hfg]
    cases hqf : q f with
    | true => exact .cons (hR f g hfg hqf) ih
    | false => exact ih

theorem pieces_rel (hname : ∀ f g, R f g → f.name = g.name)
    (hR : ∀ f g, R f g → R' f.shift g.shift) (h : List.Forall₂ R fs gs) :
    List.Forall₂ (List.Forall₂ R') (pieces fs) (pieces gs) := by
  have hjoins (f g f' g' : Field) (hfg : R f g) (hfg' : R f' g') : f.joins f' = g.joins g' := by
    rw [Field.joins, Field.joins, hname f g hfg, hname f' g' hfg']
  have hsplit : List.Forall₂ (List.Forall₂ R) (fs.splitBy Field.joins)
      (gs.splitBy Field.joins) := by
    cases h with
    | nil => exact .nil
    | cons hfg h => exact splitBy_loop_rel hjoins h hfg .nil .nil
  exact List.rel_map (fun _ _ h => List.rel_map (fun f g h => hR f g h) h) hsplit

end Names

end WebForm
