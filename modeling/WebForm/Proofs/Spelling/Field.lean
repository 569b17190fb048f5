import Mathlib
import WebForm.Proofs.Names
import WebForm.Proofs.Run.Form

/-!
# Fields in two spellings

Two fields are the same but for the spelling of their names if their names have the same keys and
they stand on the same one. Nothing that sorts fields can tell them apart.
-/
namespace WebForm

/-- Views of two names with the same keys that stand on the same key. -/
def View.Respelled (v w : View) : Prop :=
  ∃ m n k, m.Begins ∧ n.Begins ∧ m.keys = n.keys ∧ v = (View.ofName m).shiftBy k ∧
    w = (View.ofName n).shiftBy k

namespace View.Respelled

variable {v w : View}

theorem symm (h : v.Respelled w) : w.Respelled v := by
  obtain ⟨m, n, k, hm, hn, hk, hv, hw⟩ := h
  exact ⟨n, m, k, hn, hm, hk.symm, hw, hv⟩

theorem shift (h : v.Respelled w) : v.shift.Respelled w.shift := by
  obtain ⟨m, n, k, hm, hn, hk, rfl, rfl⟩ := h
  exact ⟨m, n, k + 1, hm, hn, hk, (View.shiftBy_succ _ k).symm, (View.shiftBy_succ _ k).symm⟩

theorem keyText (h : v.Respelled w) : v.keyText = w.keyText := by
  obtain ⟨m, n, k, hm, hn, hk, rfl, rfl⟩ := h
  rw [View.keyText_shiftBy hm, View.keyText_shiftBy hn, hk]

theorem key (h : v.Respelled w) : v.key? = w.key? := by
  rw [View.key?, View.key?, h.keyText]

theorem source_keys (h : v.Respelled w) : v.source.keys = w.source.keys := by
  obtain ⟨m, n, k, hm, hn, hk, rfl, rfl⟩ := h
  rw [View.source_ofName, View.source_ofName, hk]

theorem asName_isEmpty (h : v.Respelled w) : v.asName.isEmpty = w.asName.isEmpty := by
  obtain ⟨m, n, k, hm, hn, hk, rfl, rfl⟩ := h
  rw [Bool.eq_iff_iff, View.asName_isEmpty hm, View.asName_isEmpty hn, hk]

theorem parent (h : v.Respelled w) :
    v.parent?.map Name.keys = w.parent?.map Name.keys := by
  obtain ⟨m, n, k, hm, hn, hk, rfl, rfl⟩ := h
  have hempty : ((View.ofName m).shiftBy k).before.isEmpty =
      ((View.ofName n).shiftBy k).before.isEmpty := by
    rw [Bool.eq_iff_iff, List.isEmpty_iff, List.isEmpty_iff, View.before_eq_nil hm,
      View.before_eq_nil hn, hk]
  rw [View.parent?, View.parent?, hempty]
  split_ifs
  · rfl
  · rw [Option.map_some, Option.map_some, View.keys_before hm, View.keys_before hn, hk]

end View.Respelled

/-- The fields are the same but for the spelling of their names. -/
inductive Field.Respelled : Field → Field → Prop
  | value {v w text} : v.Respelled w → Respelled (.value ⟨v, text⟩) (.value ⟨w, text⟩)
  | data {v w source fileName contentType} : v.Respelled w →
    Respelled (.data ⟨v, source, fileName, contentType⟩) (.data ⟨w, source, fileName, contentType⟩)

namespace Field.Respelled

variable {f g : Field}

theorem name (h : f.Respelled g) : f.name.Respelled g.name := by
  cases h with
  | value h => exact h
  | data h => exact h

theorem symm (h : f.Respelled g) : g.Respelled f := by
  cases h with
  | value h => exact .value h.symm
  | data h => exact .data h.symm

theorem shift (h : f.Respelled g) : f.shift.Respelled g.shift := by
  cases h with
  | value h => exact .value h.shift
  | data h => exact .data h.shift

theorem nameless (text : String) :
    Respelled (.value (.nameless text)) (.value (.nameless text)) :=
  .value ⟨.ofString "", .ofString "", 0, by decide, by decide, rfl, rfl, rfl⟩

theorem target (h : f.Respelled g) : f.target = g.target := by
  rw [Field.target, Field.target, h.name.key]

theorem joins {f' g' : Field} (h : f.Respelled g) (h' : f'.Respelled g') :
    f.joins f' = g.joins g' := by
  rw [Field.joins, Field.joins, h.name.key, h'.name.key]

end Field.Respelled

abbrev Respelled (fs gs : List Field) : Prop := List.Forall₂ Field.Respelled fs gs

variable {fs gs : List Field}

theorem Respelled.symm (h : Respelled fs gs) : Respelled gs fs :=
  h.flip.imp fun _ _ h => h.symm

theorem Respelled.filter {q : Field → Bool} (hq : ∀ f g, f.Respelled g → q f = q g)
    (h : Respelled fs gs) : Respelled (fs.filter q) (gs.filter q) :=
  List.rel_filter (fun f g hfg => Bool.eq_iff_iff.1 (hq f g hfg)) h

theorem Respelled.shift (h : Respelled fs gs) :
    Respelled (fs.map Field.shift) (gs.map Field.shift) :=
  List.rel_map (fun _ _ h => h.shift) h

theorem Respelled.handed {q : Field → Bool} (hq : ∀ f g, f.Respelled g → q f = q g)
    (h : Respelled fs gs) : Respelled (handed q fs) (handed q gs) := (h.filter hq).shift

theorem Respelled.isFor (k : Key) (f g : Field) (h : f.Respelled g) : f.isFor k = g.isFor k := by
  rw [Field.isFor, Field.isFor, h.name.key]

theorem Respelled.entered (h : Respelled fs gs) : entered fs = entered gs := by
  have hfold (is : List String) : fs.foldl enter is = gs.foldl enter is := by
    induction h generalizing is with
    | nil => rfl
    | @cons f g fs gs hfg _ ih =>
      rw [List.foldl_cons, List.foldl_cons, enter, enter, hfg.target]
      exact ih _
  exact hfold []

theorem Respelled.opener (i : String) (h : Respelled fs gs) :
    Option.Rel Field.Respelled (opener i fs) (opener i gs) := by
  induction h with
  | nil => exact .none
  | @cons f g fs gs hfg _ ih =>
    have hof : f.isOf i = g.isOf i := by rw [Field.isOf, Field.isOf, hfg.target]
    unfold WebForm.opener at ih ⊢
    rw [List.find?_cons, List.find?_cons, hof]
    cases g.isOf i with
    | true => exact .some hfg
    | false => exact ih

theorem Respelled.keyFields (i : String) (h : Respelled fs gs) :
    Respelled (keyFields i fs) (keyFields i gs) := by
  have hdirect : (WebForm.opener i fs).any (·.target.isDirect) =
      (WebForm.opener i gs).any (·.target.isDirect) := by
    generalize ho : WebForm.opener i fs = o, ho' : WebForm.opener i gs = o'
    have hrel := h.opener i
    rw [ho, ho'] at hrel
    cases hrel with
    | none => rfl
    | some hfg => simp only [Option.any_some, hfg.target]
  unfold WebForm.keyFields
  rw [hdirect]
  refine List.rel_append ?_
    (h.handed fun f g hfg => by rw [Field.isKeyOf, Field.isKeyOf, hfg.target])
  split_ifs
  · exact .cons (.nameless i) .nil
  · exact .nil

theorem Respelled.valueFields (i : String) (h : Respelled fs gs) :
    Respelled (valueFields i fs) (valueFields i gs) :=
  h.handed fun f g hfg => by rw [Field.isValueOf, Field.isValueOf, hfg.target]

theorem Respelled.shares (ps : List RecordPart) (h : Respelled fs gs) :
    List.Forall₂ (fun a b => a.1 = b.1 ∧ Respelled a.2 b.2) (shares ps fs) (shares ps gs) := by
  induction ps generalizing fs gs with
  | nil => exact .nil
  | cons part ps ih =>
    cases part with
    | constant a x => exact .cons ⟨rfl, .nil⟩ (ih h)
    | member m =>
      have hto (f g : Field) (hfg : f.Respelled g) : f.isTo m = g.isTo m := by
        rw [Field.isTo, Field.isTo, hfg.name.keyText]
      exact .cons ⟨rfl, h.handed hto⟩ (ih (h.filter fun f g hfg => by rw [hto f g hfg]))

theorem Respelled.parent (h : Respelled fs gs) :
    (parentOf fs).map Name.keys = (parentOf gs).map Name.keys := by
  induction h with
  | nil => rfl
  | @cons f g fs gs hfg hrest ih =>
    cases hrest with
    | nil => exact hfg.name.parent
    | cons _ _ => exact ih

theorem splitBy_loop_rel {α β : Type} {R : α → β → Prop} {r : α → α → Bool} {s : β → β → Bool}
    (hrs : ∀ a b a' b', R a b → R a' b' → r a a' = s b b') {as : List α} {bs : List β} {a : α}
    {b : β} {ag : List α} {bg : List β} {ags : List (List α)} {bgs : List (List β)}
    (h : List.Forall₂ R as bs) (hab : R a b) (hg : List.Forall₂ R ag bg)
    (hgs : List.Forall₂ (List.Forall₂ R) ags bgs) :
    List.Forall₂ (List.Forall₂ R) (List.splitBy.loop r as a ag ags)
      (List.splitBy.loop s bs b bg bgs) := by
  induction h generalizing a b ag bg ags bgs with
  | nil => exact List.rel_reverse (.cons (List.rel_reverse (.cons hab hg)) hgs)
  | @cons a' b' as bs hab' _ ih =>
    rw [List.splitBy.loop, List.splitBy.loop, hrs a b a' b' hab hab']
    cases s b b' with
    | true => exact ih hab' (.cons hab hg) hgs
    | false => exact ih hab' .nil (.cons (List.rel_reverse (.cons hab hg)) hgs)

theorem Respelled.pieces (h : Respelled fs gs) :
    List.Forall₂ Respelled (pieces fs) (pieces gs) := by
  have hsplit : List.Forall₂ Respelled (fs.splitBy Field.joins) (gs.splitBy Field.joins) := by
    cases h with
    | nil => exact .nil
    | cons hfg h => exact splitBy_loop_rel (fun _ _ _ _ h h' => h.joins h') h hfg .nil .nil
  exact List.rel_map (fun _ _ h => Respelled.shift h) hsplit

end WebForm
