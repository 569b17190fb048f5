import Mathlib
import WebForm.Proofs.Attribution
import WebForm.Proofs.Sources.Field

/-!
# Forms and sources

Whether a text comes as it is or as a source of its octets makes no difference to the value. Errors
come up at the same places for the same reasons. Only the texts that they show and what they call the
fields may differ.
-/
namespace WebForm

/-- Errors of the same kind at the same place. -/
def Error.Matches (e f : FormError) : Prop := e.name = f.name ∧ e.kind = f.kind

abbrev ErrorsMatch (es fs : FormErrors) : Prop := List.Forall₂ Error.Matches es fs

/-- One value, or errors that match. -/
inductive EndsMatch : Except FormErrors Value → Except FormErrors Value → Prop
  | value (v) : EndsMatch (.ok v) (.ok v)
  | errors {es fs} : ErrorsMatch es fs → EndsMatch (.error es) (.error fs)

/-- Both are faults, or neither is one and they end in one value or in errors that match. -/
def Outcome.Matches (o p : Outcome Value) : Prop :=
  (∃ r r', o = ofErrors r ∧ p = ofErrors r' ∧ EndsMatch r r') ∨
    ∃ f g, o = .error (.fault f) ∧ p = .error (.fault g)

theorem Outcome.Matches.ok {v : Value} {p : Outcome Value} (h : Outcome.Matches (.ok v) p) :
    p = .ok v := by
  rcases h with ⟨r, r', hr, rfl, hmatch⟩ | ⟨f, g, hf, -⟩
  · cases hmatch with
    | value w => exact hr.symm
    | errors _ => cases hr
  · cases hf

variable {mode : Mode} {fs gs : List Field}

section Wholes

variable {r r' : Except FormErrors Value} {es es' : FormErrors}

theorem Error.Matches.named {e f : FormError} (h : e.Matches f) (p : Path) :
    (e.named p).Matches (f.named p) := by
  rcases e with ⟨k, n, _ | q, v⟩ <;> rcases f with ⟨k', n', _ | q', v'⟩ <;> obtain ⟨hname, rfl⟩ := h
  · exact ⟨rfl, rfl⟩
  · cases hname
  · cases hname
  · exact ⟨hname, rfl⟩

namespace ErrorsMatch

theorem refl (es : FormErrors) : ErrorsMatch es es := List.forall₂_same.2 fun _ _ => ⟨rfl, rfl⟩

theorem named (h : ErrorsMatch es es') (p : Path) : ErrorsMatch (es.named p) (es'.named p) :=
  List.rel_map (fun _ _ h => h.named p) h

theorem valued_left (h : ErrorsMatch es es') (v : String) : ErrorsMatch (es.valued v) es' := by
  have hvalued (e f : FormError) (h : e.Matches f) : (e.valued v).Matches f := by
    rcases e with ⟨k, n, q, _ | w⟩
    · exact h
    · exact h
  exact List.forall₂_map_left_iff.2 (h.imp hvalued)

theorem symm (h : ErrorsMatch es es') : ErrorsMatch es' es :=
  h.flip.imp fun _ _ h => ⟨h.1.symm, h.2.symm⟩

theorem valued_right (h : ErrorsMatch es es') (v : String) : ErrorsMatch es (es'.valued v) :=
  symm (valued_left (symm h) v)

end ErrorsMatch

theorem EndsMatch.failures (h : EndsMatch r r') : ErrorsMatch (failures r) (failures r') := by
  cases h with
  | value v => exact .nil
  | errors h => exact h

theorem verdict_match (h : ErrorsMatch es es') (v : Value) :
    EndsMatch (verdict es v) (verdict es' v) := by
  cases h with
  | nil => exact .value v
  | cons he hes => exact .errors (.cons he hes)

theorem list_match {rs rs' : List (Except FormErrors Value)} (h : List.Forall₂ EndsMatch rs rs') :
    EndsMatch (verdict (errorsOf rs) (.list (valuesOf rs)))
      (verdict (errorsOf rs') (.list (valuesOf rs'))) := by
  have hvalues : valuesOf rs = valuesOf rs' := by
    induction h with
    | nil => rfl
    | cons hr _ ih =>
      cases hr with
      | value v => exact congrArg (v :: ·) ih
      | errors _ => exact ih
  rw [hvalues, errorsOf_eq, errorsOf_eq]
  exact verdict_match (List.rel_flatMap h fun _ _ h => h.failures) _

structure EntryEnd.Matches (d d' : EntryEnd) : Prop where
  place : d.place = d'.place
  key : EndsMatch d.key d'.key
  value : EndsMatch d.value d'.value

namespace EntryEnd.Matches

variable {d d' : EntryEnd}

theorem errors (h : d.Matches d') : ErrorsMatch d.errors d'.errors := by
  unfold EntryEnd.errors
  rw [h.place]
  exact List.rel_append (h.key.failures.named _) (h.value.failures.named _)

theorem item (h : d.Matches d') : d.item? = d'.item? := by
  rcases d with ⟨p, k, v⟩
  rcases d' with ⟨p', k', v'⟩
  obtain ⟨-, hk, hv⟩ := h
  cases hk with
  | errors _ => rfl
  | value k =>
    cases hv with
    | errors _ => rfl
    | value v => rfl

end EntryEnd.Matches

theorem dict_match {ds ds' : List EntryEnd} (hes : ErrorsMatch es es')
    (h : List.Forall₂ EntryEnd.Matches ds ds') :
    EndsMatch (verdict (es ++ ds.flatMap EntryEnd.errors)
        (.dict (setAll [] (ds.filterMap EntryEnd.item?))))
      (verdict (es' ++ ds'.flatMap EntryEnd.errors)
        (.dict (setAll [] (ds'.filterMap EntryEnd.item?)))) := by
  have hitems : ds.filterMap EntryEnd.item? = ds'.filterMap EntryEnd.item? := by
    clear hes
    induction h with
    | nil => rfl
    | cons hd _ ih => rw [List.filterMap_cons, List.filterMap_cons, hd.item, ih]
  rw [hitems]
  exact verdict_match (List.rel_append hes (List.rel_flatMap h fun _ _ h => h.errors)) _

theorem pair_match {l l' x x' : Except FormErrors Value} (es : FormErrors) (hl : EndsMatch l l')
    (hx : EndsMatch x x') : EndsMatch (joinSides es l x) (joinSides es l' x') := by
  cases es with
  | cons e es =>
    exact .errors (List.rel_append (List.rel_append (ErrorsMatch.refl _) hl.failures) hx.failures)
  | nil =>
    cases hl with
    | errors hl => exact .errors (List.rel_append hl hx.failures)
    | value v =>
      cases hx with
      | errors hx => exact .errors hx
      | value w => exact .value _

structure Collected.Matches (c c' : Collected) : Prop where
  fields : c.fields = c'.fields
  errors : ErrorsMatch c.errors c'.errors

theorem complaints_match (h : ErrorsMatch es es') (slots : List (String × Slot Value))
    (o : Objections) :
    ErrorsMatch (Collected.complaints ⟨slots, es⟩ o) (Collected.complaints ⟨slots, es'⟩ o) := by
  cases h with
  | nil => exact .refl _
  | cons he h => exact .cons he h

theorem record_match {t : RecordType} {o : Objections} {cs cs' : List Collected}
    (hes : ErrorsMatch es es') (h : List.Forall₂ Collected.Matches cs cs') :
    EndsMatch (recordVerdict t o (Collected.plus ⟨[], es⟩ (gathered cs)))
      (recordVerdict t o (Collected.plus ⟨[], es'⟩ (gathered cs'))) := by
  have hfields : (gathered cs).fields = (gathered cs').fields := by
    simp only [gathered]
    clear hes
    induction h with
    | nil => rfl
    | cons hc _ ih => rw [List.flatMap_cons, List.flatMap_cons, ih, hc.fields]
  have herrors := List.rel_append hes (List.rel_flatMap h fun _ _ h => h.errors)
  unfold recordVerdict
  rw [Collected.plus, Collected.plus, hfields]
  exact verdict_match (complaints_match herrors _ o) _

end Wholes

section Leaf

variable {rules : LeafRules} {f : Field} {v : Value}

theorem reach_leaf_read (h : rules.read f = .ok v) (fs : List Field) :
    ∃ text, (Parser.leaf rules).reach mode (f :: fs) =
      .ok ⟨mode, some f.name, text, some (.ok v), fs.length + 1⟩ := by
  obtain ⟨text, hfeed⟩ : ∃ text, (Parser.leaf rules).feed (.init mode) f =
      .ok ⟨mode, some f.name, text, some (.ok v), 1⟩ := by
    unfold Parser.feed LeafState.init
    cases f with
    | value f =>
      have h : rules.ofValue f = .ok v := h
      refine ⟨some f.value, ?_⟩
      simp only [LeafState.push, h, LeafState.record, Step.result_done]
      rfl
    | data f =>
      have h : rules.ofData f = .ok v := h
      refine ⟨none, ?_⟩
      simp only [LeafState.push, h, LeafState.record, Step.result_done]
      rfl
  refine ⟨text, ?_⟩
  change (f :: fs).foldlM (Parser.leaf rules).feed (.init mode) = _
  rw [List.foldlM_cons, hfeed, bind_ok, foldlM_leaf_taken rfl, Nat.add_comm]

theorem fail_match {s t : LeafState} (h : s.fieldName = t.fieldName) (es : FormErrors) :
    ErrorsMatch (s.fail es) (t.fail es) := by
  rcases s with ⟨m, n, x, r, k⟩
  rcases t with ⟨m', n', y, r', k'⟩
  obtain rfl : n = n' := h
  cases x with
  | none =>
    cases y with
    | none => exact .refl _
    | some w => exact (ErrorsMatch.refl _).valued_right w
  | some v =>
    cases y with
    | none => exact (ErrorsMatch.refl _).valued_left v
    | some w => exact ((ErrorsMatch.refl _).valued_left v).valued_right w

theorem finalize_leaf_match (rules : LeafRules) (n : View) (x y : Option String) (k : Nat) :
    EndsMatch (LeafState.finalize rules ⟨mode, some n, x, some (.ok v), k⟩)
      (LeafState.finalize rules ⟨mode, some n, y, some (.ok v), k⟩) := by
  unfold LeafState.finalize
  simp only
  split_ifs
  · exact .errors (@fail_match ⟨mode, some n, x, some (.ok v), k⟩ ⟨mode, some n, y, some (.ok v), k⟩
      rfl _)
  · exact .value v

end Leaf

section Form

variable {s : Schema} {form part : Form} {f g : Field} {r : Except FormErrors Value}

theorem hasRoom_value (form : Form) (f : ValueField) : s.OnWay Form.HasRoom form (.value f) := by
  refine @Schema.onWay_of_shift _ _ _ _ (fun g => ∃ f, g = .value f) ?_ ?_ ⟨f, rfl⟩
  · rintro _ ⟨f, rfl⟩
    exact ⟨f.shift, rfl⟩
  · rintro part _ ⟨f, rfl⟩
    unfold Form.HasRoom
    split <;> trivial

/-- Two fields with one name and one text, each with room for it wherever it comes. -/
structure Schema.Twins (s : Schema) (form : Form) (f g : Field) : Prop where
  name : f.name = g.name
  text : ∃ text, f.Carries text ∧ g.Carries text
  left : s.OnWay Form.HasRoom form f
  right : s.OnWay Form.HasRoom form g

namespace Schema.Twins

theorem symm (h : s.Twins form f g) : s.Twins form g f := by
  obtain ⟨text, hf, hg⟩ := h.text
  exact ⟨h.name.symm, ⟨text, hg, hf⟩, h.right, h.left⟩

theorem shift (h : s.Twins form f g) (hf : s.Sends (form, f) (part, f.shift))
    (hg : s.Sends (form, g) (part, g.shift)) : s.Twins part f.shift g.shift := by
  have hcarries {f : Field} {text : String} (hf : f.Carries text) : f.shift.Carries text := by
    cases hf with
    | value => exact .value
    | data hs => exact .data hs
  obtain ⟨text, htf, htg⟩ := h.text
  refine ⟨?_, ⟨text, hcarries htf, hcarries htg⟩, h.left.step hf, h.right.step hg⟩
  rw [Field.name_shift, Field.name_shift, h.name]

theorem target (h : s.Twins form f g) : f.target = g.target := by
  rw [Field.target, Field.target, h.name]

theorem names (h : List.Forall₂ (s.Twins form) fs gs) :
    fs.map Field.name = gs.map Field.name := by
  rw [← List.forall₂_eq_eq_eq, List.forall₂_map_left_iff, List.forall₂_map_right_iff]
  exact h.imp fun _ _ h => h.name

theorem nameless (form : Form) (text : String) :
    s.Twins form (.value (.nameless text)) (.value (.nameless text)) :=
  ⟨rfl, ⟨text, .value, .value⟩, hasRoom_value form _, hasRoom_value form _⟩

theorem of_sourced (h : f.Sourced g) (hroom : s.OnWay Form.HasRoom form g) :
    s.Twins form f g := by
  cases h with
  | kept f => exact ⟨rfl, ⟨f.value, .value, .value⟩, hroom, hroom⟩
  | @sourced f source fileName contentType hs =>
    exact ⟨rfl, ⟨f.value, .value, .data hs⟩, hasRoom_value form f, hroom⟩

theorem keyFields {key value : Form} (h : List.Forall₂ (s.Twins (.dict key value)) fs gs)
    (i : String) : List.Forall₂ (s.Twins key) (keyFields i fs) (keyFields i gs) := by
  have hdirect : (opener i fs).any (·.target.isDirect) = (opener i gs).any (·.target.isDirect) := by
    have hnames (o : Option Field) : o.any (·.target.isDirect) =
        (o.map Field.name).any fun v => (DictTarget.ofKey v.key?).isDirect := by
      cases o <;> rfl
    rw [hnames, hnames, opener_of_names (names h)]
  unfold WebForm.keyFields
  rw [hdirect]
  refine List.rel_append ?_ (handed_rel ?_ ?_ h)
  · split_ifs
    · exact .cons (nameless key i) .nil
    · exact .nil
  · intro f g hfg
    rw [Field.isKeyOf, Field.isKeyOf, hfg.target]
  · intro f g hfg hf
    have hg : g.isKeyOf i = true := by rwa [Field.isKeyOf, ← hfg.target]
    exact hfg.shift (.key hf) (.key hg)

theorem valueFields {key value : Form} (h : List.Forall₂ (s.Twins (.dict key value)) fs gs)
    (i : String) : List.Forall₂ (s.Twins value) (valueFields i fs) (valueFields i gs) := by
  refine handed_rel ?_ ?_ h
  · intro f g hfg
    rw [Field.isValueOf, Field.isValueOf, hfg.target]
  · intro f g hfg hf
    have hg : g.isValueOf i = true := by rwa [Field.isValueOf, ← hfg.target]
    exact hfg.shift (.value hf) (.value hg)

theorem side {k : Key} (h : List.Forall₂ (s.Twins form) fs gs)
    (hs : ∀ f, f.isFor k = true → s.Sends (form, f) (part, f.shift)) :
    List.Forall₂ (s.Twins part) (handed (Field.isFor k) fs) (handed (Field.isFor k) gs) := by
  refine handed_rel ?_ ?_ h
  · intro f g hfg
    rw [Field.isFor, Field.isFor, hfg.name]
  · intro f g hfg hf
    have hg : g.isFor k = true := by rwa [Field.isFor, ← hfg.name]
    exact hfg.shift (hs f hf) (hs g hg)

theorem share {t : RecordType} {ps : List RecordPart} {j : Nat} {m : Member}
    (h : List.Forall₂ (s.Twins (.record t)) fs gs) (hd : s.declaration t = .ok ps)
    (hm : ps[j]? = some (.member m)) :
    List.Forall₂ (s.Twins m.form) (shareOf ps j fs) (shareOf ps j gs) := by
  have howner {f g : Field} (hfg : s.Twins (.record t) f g) : f.owner ps = g.owner ps := by
    rw [Field.owner, Field.owner, hfg.name]
  refine handed_rel ?_ ?_ h
  · intro f g hfg
    rw [howner hfg]
  · intro f g hfg hf
    have hf : f.owner ps = some j := of_decide_eq_true hf
    have hg : g.owner ps = some j := (howner hfg).symm.trans hf
    exact hfg.shift (.member hd hf hm) (.member hd hg hm)

end Schema.Twins

theorem leaf_twins {l : Leaf} (hl : (Form.leaf l).IsTextual)
    (h : List.Forall₂ (s.Twins (.leaf l)) fs gs) (hr : (Parser.leaf l.rules).Yields mode fs r) :
    ∃ r', (Parser.leaf l.rules).Yields mode gs r' ∧ EndsMatch r r' := by
  cases h with
  | nil =>
    refine ⟨r, hr, ?_⟩
    cases r with
    | ok v => exact .value v
    | error es => exact .errors (.refl es)
  | @cons f g fs gs hfg h =>
    obtain ⟨text, hf, hg⟩ := hfg.text
    obtain ⟨x, hx⟩ := @reach_leaf_read mode _ _ _ (read_carried hl hfg.left.self hf) fs
    obtain ⟨y, hy⟩ := @reach_leaf_read mode _ _ _ (read_carried hl hfg.right.self hg) gs
    rw [Parser.yields_of_reach hx, Outcome.caught_ofErrors, Except.ok.injEq] at hr
    refine ⟨_, (Parser.yields_of_reach hy).2 Outcome.caught_ofErrors, ?_⟩
    rw [← hr, hfg.name, h.length_eq]
    exact finalize_leaf_match l.rules _ x y _

theorem strays_match {stray : Field → FormErrors} (hs : ∀ f g, f.name = g.name →
    ErrorsMatch (stray f) (stray g)) (h : List.Forall₂ (s.Twins form) fs gs) :
    ErrorsMatch (fs.flatMap stray) (gs.flatMap stray) :=
  List.rel_flatMap h fun f g hfg => hs f g hfg.name

theorem strayEntry_match (f g : Field) (h : f.name = g.name) :
    ErrorsMatch (strayEntry f) (strayEntry g) := by
  unfold strayEntry Field.target
  rw [h]
  exact .refl _

theorem straySide_of_name {f g : Field} (h : f.name = g.name) : straySide f = straySide g := by
  unfold straySide Field.isFor
  rw [h]

theorem strayMember_match (mode : Mode) (ps : List RecordPart) (f g : Field)
    (h : f.name = g.name) : ErrorsMatch (strayMember mode ps f) (strayMember mode ps g) := by
  have hunexpected : f.unexpected.Matches g.unexpected := by
    refine ⟨?_, ?_⟩
    · rw [unexpected_name, unexpected_name, h]
    · cases f <;> cases g <;> rfl
  unfold strayMember Field.isIgnored
  rw [h]
  split_ifs
  · exact .nil
  · exact .cons hunexpected .nil

theorem member_twins {p : Parser} {path : Path} {m : Member} {c : Collected}
    (hnil : fs = [] ↔ gs = [])
    (hrun : ∀ r, p.Yields mode fs r → ∃ r', p.Yields mode gs r' ∧ EndsMatch r r')
    (hc : MemberEnds p mode path m fs c) : ∃ c', MemberEnds p mode path m gs c' ∧ c.Matches c' := by
  cases hc with
  | absent ha =>
    obtain rfl := hnil.1 rfl
    exact ⟨_, .absent ha, rfl, .nil⟩
  | missing ha =>
    obtain rfl := hnil.1 rfl
    exact ⟨_, .missing ha, rfl, .refl _⟩
  | failed hfs hy =>
    obtain ⟨r', hr', hmatch⟩ := hrun _ hy
    cases hmatch with
    | errors hes => exact ⟨_, .failed (mt hnil.2 hfs) hr', rfl, hes.named path⟩
  | checked hfs hy hes =>
    obtain ⟨r', hr', hmatch⟩ := hrun _ hy
    cases hmatch with
    | value v => exact ⟨_, .checked (mt hnil.2 hfs) hr' hes, rfl, .refl _⟩

/-- Every form for texts ends alike on twins, by induction on the form. -/
theorem parser_twins (d : Nat) (form : Form) (hform : s.BuiltOf Form.IsTextual form)
    (h : List.Forall₂ (s.Twins form) fs gs) (hr : (s.parser d form).Yields mode fs r) :
    ∃ r', (s.parser d form).Yields mode gs r' ∧ EndsMatch r r' := by
  induction d, form using Form.depth_induction generalizing mode fs gs r with
  | leaf d l =>
    rw [Schema.parser_leaf] at hr ⊢
    exact leaf_twins hform.self h hr
  | list d item ih =>
    rw [Schema.parser_list] at hr ⊢
    obtain ⟨rs, hrs, rfl⟩ := yields_list.1 hr
    have hpieces := pieces_rel (fun f g hfg => hfg.name)
      (fun f g hfg => hfg.shift .item .item) h
    obtain ⟨rs', hrs', hmatch⟩ := forall₂_carry hpieces hrs fun fs' gs' x hp hy =>
      ih (hform.part .item) hp hy
    exact ⟨_, yields_list.2 ⟨rs', hrs', rfl⟩, list_match hmatch⟩
  | dict d key value ihk ihv =>
    rw [Schema.parser_dict] at hr ⊢
    obtain ⟨ds, hds, rfl⟩ := yields_dict.1 hr
    have hnames := Schema.Twins.names h
    have hentry (i j : String) (x : EntryEnd) (hij : i = j)
        (hx : EntryYields (s.parser d key) (s.parser d value) mode fs i x) :
        ∃ y, EntryYields (s.parser d key) (s.parser d value) mode gs j y ∧ x.Matches y := by
      subst hij
      obtain ⟨hplace, hk, hv, hf⟩ := hx
      obtain ⟨k', hk', hkk⟩ := ihk (hform.part .key) (Schema.Twins.keyFields h i) hk
      obtain ⟨v', hv', hvv⟩ := ihv (hform.part .value) (Schema.Twins.valueFields h i) hv
      have hmatch : x.Matches ⟨x.place, k', v'⟩ := ⟨rfl, hkk, hvv⟩
      refine ⟨_, ⟨?_, hk', hv', ?_⟩, hmatch⟩
      · rw [← opener_of_names hnames, hplace]
      · rwa [← hmatch.item]
    have hsame : List.Forall₂ Eq (entered fs) (entered gs) := by
      rw [entered_of_names hnames]
      exact List.forall₂_same.2 fun _ _ => rfl
    obtain ⟨ds', hds', hmatch⟩ := forall₂_carry hsame hds hentry
    exact ⟨_, yields_dict.2 ⟨ds', hds', rfl⟩, dict_match (strays_match strayEntry_match h) hmatch⟩
  | pair d left right ihl ihr =>
    rw [Schema.parser_pair] at hr ⊢
    obtain ⟨x, y, hx, hy, rfl⟩ := yields_pair.1 hr
    obtain ⟨x', hx', hxx⟩ := ihl (hform.part .left)
      (Schema.Twins.side h fun f hf => .left hf) hx
    obtain ⟨y', hy', hyy⟩ := ihr (hform.part .right)
      (Schema.Twins.side h fun f hf => .right hf) hy
    refine ⟨_, yields_pair.2 ⟨x', y', hx', hy', rfl⟩, ?_⟩
    have hstrays : fs.flatMap straySide = gs.flatMap straySide := by
      clear hr hx hy hx' hy'
      induction h with
      | nil => rfl
      | cons hfg _ ih => rw [List.flatMap_cons, List.flatMap_cons, ih, straySide_of_name hfg.name]
    rw [hstrays]
    exact pair_match _ hxx hyy
  | zero t => cases hr
  | succ d t ih =>
    rw [Schema.parser_succ] at hr ⊢
    obtain ⟨ps, hd, cs, hcs, rfl⟩ := yields_record.1 hr
    rw [parentOf_of_names (Schema.Twins.names h)] at hcs
    have hshares : List.Forall₂ (fun a b => ∀ c, PartEnds (s.parser d) mode (parentOf gs) a c →
        ∃ c', PartEnds (s.parser d) mode (parentOf gs) b c' ∧ c.Matches c')
        (shares ps fs) (shares ps gs) := by
      refine shares_forall₂ fun j part hpart c hc => ?_
      cases part with
      | constant a x => exact ⟨c, hc, rfl, .refl _⟩
      | member m =>
        have hshare := Schema.Twins.share h hd hpart
        have hnil : shareOf ps j fs = [] ↔ shareOf ps j gs = [] := by
          rw [← List.length_eq_zero_iff, hshare.length_eq, List.length_eq_zero_iff]
        refine member_twins hnil (fun r hr => ?_) hc
        exact ih m.form (hform.part (.member hd (List.mem_of_getElem? hpart))) hshare hr
    obtain ⟨cs', hcs', hmatch⟩ := forall₂_carry hshares hcs fun _ _ c hab hc => hab c hc
    exact ⟨_, yields_record.2 ⟨ps, hd, cs', hcs', rfl⟩,
      record_match (strays_match (strayMember_match mode ps) h) hmatch⟩
  | optional d item ih =>
    rw [Schema.parser_optional] at hr ⊢
    obtain ⟨x, hx, rfl⟩ := yields_optional.1 hr
    have hitem : List.Forall₂ (s.Twins item) fs gs := h.imp fun f g hfg =>
      ⟨hfg.name, hfg.text, hfg.left.step .optional, hfg.right.step .optional⟩
    obtain ⟨x', hx', hmatch⟩ := ih (hform.part .optional) hitem hx
    refine ⟨_, yields_optional.2 ⟨x', hx', rfl⟩, ?_⟩
    cases hmatch with
    | value v => exact .value v
    | errors _ => exact .value _
  | result d item _ => exact hform.self.elim
  | forced d m item _ => exact hform.self.elim
  | contextual d item _ => exact hform.self.elim
  | unimplemented d => exact hform.self.elim

/-- Texts that come as sources, where there is room for them, give the value that they give as they
are, or errors of the same kinds at the same places. -/
theorem parse_sourced (hform : s.BuiltOf Form.IsTextual form)
    (h : List.Forall₂ Field.Sourced fs gs) (hroom : ∀ g ∈ gs, s.OnWay Form.HasRoom form g) :
    Outcome.Matches (s.parse form mode fs) (s.parse form mode gs) := by
  have htwins : List.Forall₂ (s.Twins form) fs gs := by
    induction h with
    | nil => exact .nil
    | cons hfg _ ih =>
      rw [List.forall_mem_cons] at hroom
      exact .cons (.of_sourced hfg hroom.1) (ih hroom.2)
  have hends {fs gs : List Field} {r : Except FormErrors Value}
      (h : List.Forall₂ (s.Twins form) fs gs) (hr : Outcome.caught (s.parse form mode fs) = .ok r) :
      ∃ r', Outcome.caught (s.parse form mode gs) = .ok r' ∧ EndsMatch r r' := by
    obtain ⟨r', hr', hmatch⟩ := parser_twins _ form hform h hr
    exact ⟨r', Schema.parse_of_yields hr', hmatch⟩
  cases hfs : Outcome.caught (s.parse form mode fs) with
  | ok r =>
    obtain ⟨r', hr', hmatch⟩ := hends htwins hfs
    exact .inl ⟨r, r', Outcome.caught_eq_ok.1 hfs, Outcome.caught_eq_ok.1 hr', hmatch⟩
  | error e =>
    cases hgs : Outcome.caught (s.parse form mode gs) with
    | ok r =>
      obtain ⟨r', hr', -⟩ := hends (htwins.flip.imp fun _ _ h => h.symm) hgs
      rw [hfs] at hr'
      cases hr'
    | error e' =>
      exact .inr ⟨e, e', Outcome.caught_eq_error.1 hfs, Outcome.caught_eq_error.1 hgs⟩

end Form

def titled : Form := .pair (.leaf (.text none)) (.leaf (.octets (some 2)))

def title : ValueField := .ofText "0" "Rex"
def initials : ValueField := .ofText "1" "é"

def initialsSource : DataField :=
  ⟨initials.name, .ofOctets (Text.encodeString initials.value), some "initials.txt", none⟩

theorem titled_textual : Schema.empty.BuiltOf Form.IsTextual titled := by
  intro part h
  obtain rfl | ⟨_, ⟨⟩, h⟩ := Relation.ReflTransGen.cases_head h
  · trivial
  · obtain rfl | ⟨_, ⟨⟩, -⟩ := Relation.ReflTransGen.cases_head h
    trivial
  · obtain rfl | ⟨_, ⟨⟩, -⟩ := Relation.ReflTransGen.cases_head h
    trivial

theorem initials_room : Schema.empty.OnWay Form.HasRoom titled (.data initialsSource) := by
  intro part g h
  obtain ⟨⟨⟩⟩ | ⟨_, ⟨⟩ | ⟨⟩, h⟩ := Relation.ReflTransGen.cases_head h
  · trivial
  · obtain ⟨⟨⟩⟩ | ⟨_, ⟨⟩, -⟩ := Relation.ReflTransGen.cases_head h
    trivial
  · obtain ⟨⟨⟩⟩ | ⟨_, ⟨⟩, -⟩ := Relation.ReflTransGen.cases_head h
    have hlength : ((Text.encodeString initials.value).length : Int) = 2 := by cbv
    intro n hn
    rw [← Option.some.inj hn]
    exact hlength.le

/-- Initials come with a title as they are and as a source of two octets. -/
theorem initials_sourced :
    Schema.empty.parse titled .strict [.value title, .data initialsSource] =
      .ok (.tuple [.text "Rex", .octets (Text.encodeString "é")]) := by
  have hparse : Schema.empty.parse titled .strict [.value title, .value initials] =
      .ok (.tuple [.text "Rex", .octets (Text.encodeString "é")]) := by
    cbv
  have hsourced : List.Forall₂ Field.Sourced [.value title, .value initials]
      [.value title, .data initialsSource] :=
    .cons (.kept title) (.cons (.sourced (Source.ofOctets_gives _)) .nil)
  have hroom : ∀ g ∈ [Field.value title, .data initialsSource],
      Schema.empty.OnWay Form.HasRoom titled g := by
    intro g hg
    rcases List.mem_pair.1 hg with rfl | rfl
    · exact hasRoom_value titled title
    · exact initials_room
  have hmatches := @parse_sourced .strict _ _ .empty titled titled_textual hsourced hroom
  rw [hparse] at hmatches
  exact hmatches.ok

end WebForm
