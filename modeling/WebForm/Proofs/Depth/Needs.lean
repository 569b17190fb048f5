import Mathlib
import WebForm.Proofs.Depth.Adequacy

/-!
# What forms need without fields

A member that no field reached and that has no declared value gets what its form has without fields.
If that form needs a record, the same question comes up for its members. A form has an answer if and
only if no chain of such questions goes on for ever.
-/
namespace WebForm

/-- The records that are needed when no field reaches the form. -/
def Form.needed : Form → List RecordType
  | .leaf _ | .list _ | .dict _ _ | .unimplemented => []
  | .record t => [t]
  | .pair l r => l.needed ++ r.needed
  | .optional i | .result i | .forced _ i | .contextual i => i.needed

def Form.isImplemented : Form → Bool
  | .leaf _ | .record _ => true
  | .list i | .optional i | .result i | .forced _ i | .contextual i => i.isImplemented
  | .dict l r | .pair l r => l.isImplemented && r.isImplemented
  | .unimplemented => false

namespace Schema

/-- All of the form has parsers, and all records in it are declared. -/
def Accepts (s : Schema) (form : Form) : Prop :=
  form.isImplemented = true ∧ ∀ t ∈ form.records, t.index < s.records.length

/-- The declarations are sound, and the forms of all members are accepted. -/
def Accepted (s : Schema) : Prop :=
  ∀ d ∈ s.records, ∃ ps, d = .ok ps ∧ ∀ m, .member m ∈ ps → s.Accepts m.form

/-- A member of the second record has no declared value and needs the first record. -/
def Needs (s : Schema) (u t : RecordType) : Prop :=
  ∃ ps m, s.declaration t = .ok ps ∧ .member m ∈ ps ∧ m.fallback = .unset ∧ u ∈ m.form.needed

/-- No record needs itself, however indirectly. -/
def Grounded (s : Schema) : Prop := WellFounded s.Needs

open WebForm.Parser

section Parts

variable {item p : Parser} {mode : Mode} {f : Fault}

def Rests (p : Parser) (mode : Mode) : Prop := ∀ f, p.run mode [] ≠ .error (.fault f)

theorem run_pair_nil (left right : Parser) (mode : Mode) :
    (∃ g, (pair left right).run mode [] = .error (.fault g) ∧
        (left.run mode [] = .error (.fault g) ∨ right.run mode [] = .error (.fault g))) ∨
      Rests (pair left right) mode ∧ Rests left mode ∧ Rests right mode := by
  unfold Rests
  simp only [run_eq, reach_nil]
  cases hl : left.init mode with
  | error e => exact .inl ⟨e, rfl, .inl rfl⟩
  | ok a =>
    cases hr : right.init mode with
    | error e => exact .inl ⟨e, rfl, .inr rfl⟩
    | ok b =>
      simp only [Outcome.ofFault_ok, bind_ok, PairState.finalize]
      rcases left.finalize a with (es | g) | v <;> rcases right.finalize b with (es' | g') | w <;>
        simp [Outcome.caught, bind_ok, bind_error]

theorem run_caught_nil {g : Except FormErrors Value → Outcome Value} (hg : ∀ r, ∃ v, g r = .ok v)
    (hp : p.run mode [] = Outcome.ofFault (Outcome.caught (item.run mode [])) >>= g) :
    (∃ f, p.run mode [] = .error (.fault f) ∧ item.run mode [] = .error (.fault f)) ∨
      Rests p mode ∧ Rests item mode := by
  unfold Rests
  rw [hp]
  rcases item.run mode [] with (es | f) | v
  · obtain ⟨w, hw⟩ := hg (.error es)
    refine .inr ⟨fun f => ?_, nofun⟩
    change g (.error es) ≠ _
    rw [hw]
    exact nofun
  · exact .inl ⟨f, rfl, rfl⟩
  · obtain ⟨w, hw⟩ := hg (.ok v)
    refine .inr ⟨fun f => ?_, nofun⟩
    change g (.ok v) ≠ _
    rw [hw]
    exact nofun

theorem finishParts_nil {parserOf : Form → Parser} {parent : Option Name} (ps : List RecordPart)
    (c : Collected) :
    (∃ g m, finishParts parserOf mode parent ps (.init ps) c = .error g ∧ .member m ∈ ps ∧
        m.fallback = .unset ∧ (parserOf m.form).run mode [] = .error (.fault g)) ∨
      (∃ c', finishParts parserOf mode parent ps (.init ps) c = .ok c') ∧
        ∀ m, .member m ∈ ps → m.fallback = .unset → Rests (parserOf m.form) mode := by
  induction ps generalizing c with
  | nil => exact .inr ⟨⟨c, rfl⟩, fun m hm => absurd hm List.not_mem_nil⟩
  | cons part ps ih =>
    cases part with
    | constant a x =>
      rcases ih (c.put a x) with ⟨g, m, hg, hm, h⟩ | ⟨hc, hrest⟩
      · exact .inl ⟨g, m, hg, List.mem_cons_of_mem _ hm, h⟩
      · refine .inr ⟨hc, fun m hm => hrest m ?_⟩
        exact (List.mem_cons.1 hm).resolve_left nofun
    | member m =>
      have hfinish : (∃ g, m.finish (parserOf m.form) mode (.ofParts parent m.name) none c =
            .error g ∧ m.fallback = .unset ∧
            (parserOf m.form).run mode [] = .error (.fault g)) ∨
          (∃ c', m.finish (parserOf m.form) mode (.ofParts parent m.name) none c = .ok c') ∧
            (m.fallback = .unset → Rests (parserOf m.form) mode) := by
        unfold Member.finish Member.absent
        cases hf : m.fallback with
        | own w => exact .inr ⟨⟨_, rfl⟩, nofun⟩
        | shared w => exact .inr ⟨⟨_, rfl⟩, nofun⟩
        | unset =>
          unfold Parser.absent Rests
          rcases (parserOf m.form).run mode [] with (es | g) | v
          · exact .inr ⟨⟨_, rfl⟩, fun _ => nofun⟩
          · exact .inl ⟨g, rfl, rfl, rfl⟩
          · exact .inr ⟨⟨_, rfl⟩, fun _ => nofun⟩
      have hstep : finishParts parserOf mode parent (.member m :: ps) (.init (.member m :: ps)) c =
          m.finish (parserOf m.form) mode (.ofParts parent m.name) none c >>= fun c =>
            finishParts parserOf mode parent ps (.init ps) c := rfl
      rw [hstep]
      rcases hfinish with ⟨g, hg, hf, hrun⟩ | ⟨⟨c', hc'⟩, hrests⟩
      · exact .inl ⟨g, m, by rw [hg, bind_error], List.mem_cons_self, hf, hrun⟩
      · rw [hc', bind_ok]
        rcases ih c' with ⟨g, m', hg, hm', h⟩ | ⟨hc, hrest⟩
        · exact .inl ⟨g, m', hg, List.mem_cons_of_mem _ hm', h⟩
        · refine .inr ⟨hc, fun m' hm' hf => ?_⟩
          rcases List.mem_cons.1 hm' with h | hm'
          · obtain rfl := RecordPart.member.inj h
            exact hrests hf
          · exact hrest m' hm' hf

theorem run_record_nil_or {s : Schema} {t : RecordType} {ps : List RecordPart}
    (hd : s.declaration t = .ok ps) (d : Nat) (mode : Mode) :
    (∃ g m, (s.parser (d + 1) (.record t)).run mode [] = .error (.fault g) ∧ .member m ∈ ps ∧
        m.fallback = .unset ∧ (s.parser d m.form).run mode [] = .error (.fault g)) ∨
      Rests (s.parser (d + 1) (.record t)) mode ∧
        ∀ m, .member m ∈ ps → m.fallback = .unset → Rests (s.parser d m.form) mode := by
  have hrun : (s.parser (d + 1) (.record t)).run mode [] = RecordState.finalize t (s.objections t)
      (RecordState.init mode : RecordState (s.parser d) ps) := by
    rw [parser_succ, hd]
    exact run_of_reach (reach_nil _ _)
  rw [finalize_record] at hrun
  change _ = Outcome.ofFault (finishParts (s.parser d) mode none ps (.init ps) ⟨[], []⟩) >>= _ at hrun
  unfold Rests
  rcases finishParts_nil ps ⟨[], []⟩ with ⟨g, m, hg, hm, hf, hrest⟩ | ⟨⟨c, hc⟩, hrest⟩
  · rw [hg] at hrun
    exact .inl ⟨g, m, hrun, hm, hf, hrest⟩
  · rw [hc, Outcome.ofFault_ok, bind_ok] at hrun
    refine .inr ⟨fun f hf => ?_, hrest⟩
    rw [hrun] at hf
    exact Outcome.ofErrors_ne_fault hf

theorem nil_of_item {mode' : Mode} {S : Fault → Prop} {R : Prop}
    (h : (∃ f, p.run mode [] = .error (.fault f) ∧ item.run mode' [] = .error (.fault f)) ∨
      Rests p mode ∧ Rests item mode')
    (hitem : (∃ g, item.run mode' [] = .error (.fault g) ∧ S g) ∨ Rests item mode' ∧ R) :
    (∃ g, p.run mode [] = .error (.fault g) ∧ S g) ∨ Rests p mode ∧ R := by
  rcases h with ⟨f, hp, hf⟩ | ⟨hp, hrests⟩
  · rcases hitem with ⟨g, hg, hS⟩ | ⟨hn, -⟩
    · rw [hf] at hg
      obtain rfl := Outcome.fault_inj hg
      exact .inl ⟨f, hp, hS⟩
    · exact absurd hf (hn f)
  · rcases hitem with ⟨g, hg, -⟩ | ⟨-, hR⟩
    · exact absurd hg (hrests g)
    · exact .inr ⟨hp, hR⟩

end Parts

variable {s : Schema} {d : Nat} {form : Form} {mode : Mode} {f g : Fault} {t u : RecordType}

/-- The fault comes from a record that the form needs, or from a form without a parser. -/
def Stems (s : Schema) (d : Nat) (form : Form) (g : Fault) : Prop :=
  g = .unimplemented ∧ form.isImplemented = false ∨
    ∃ u ∈ form.needed, ∃ mode, (s.parser d (.record u)).run mode [] = .error (.fault g)

def NeededRest (s : Schema) (d : Nat) (form : Form) : Prop :=
  ∀ u ∈ form.needed, ∃ mode, Rests (s.parser d (.record u)) mode

theorem stems_mono {form' : Form} (hn : ∀ u ∈ form.needed, u ∈ form'.needed)
    (hi : form.isImplemented = false → form'.isImplemented = false) (h : s.Stems d form g) :
    s.Stems d form' g := by
  rcases h with ⟨hg, hform⟩ | ⟨u, hu, hrun⟩
  · exact .inl ⟨hg, hi hform⟩
  · exact .inr ⟨u, hn u hu, hrun⟩

/-- A form without fields ends in a fault of what it needs, or there are no faults. -/
theorem run_form_nil (d : Nat) (form : Form) (mode : Mode) :
    (∃ g, (s.parser d form).run mode [] = .error (.fault g) ∧ s.Stems d form g) ∨
      Rests (s.parser d form) mode ∧ s.NeededRest d form := by
  induction form generalizing mode with
  | leaf l =>
    refine .inr ⟨fun f hf => ?_, fun u hu => absurd hu List.not_mem_nil⟩
    rw [parser_leaf] at hf
    have hf : Outcome.ofErrors (LeafState.finalize l.rules _) = .error (.fault f) := hf
    exact Outcome.ofErrors_ne_fault hf
  | list item _ =>
    refine .inr ⟨fun f hf => ?_, fun u hu => absurd hu List.not_mem_nil⟩
    rw [parser_list, run_list] at hf
    cases hf
  | dict key value _ _ =>
    refine .inr ⟨fun f hf => ?_, fun u hu => absurd hu List.not_mem_nil⟩
    rw [parser_dict] at hf
    cases hf
  | pair left right ihl ihr =>
    rw [parser_pair]
    rcases run_pair_nil (s.parser d left) (s.parser d right) mode with
      ⟨g, hg, hl | hr⟩ | ⟨hp, hl, hr⟩
    · rcases ihl mode with ⟨g', hg', hstems⟩ | ⟨hrests, -⟩
      · obtain rfl := Outcome.fault_inj (hl.symm.trans hg')
        refine .inl ⟨g, hg, stems_mono (fun u hu => List.mem_append_left _ hu) ?_ hstems⟩
        exact fun hi => Bool.and_eq_false_iff.2 (.inl hi)
      · exact absurd hl (hrests g)
    · rcases ihr mode with ⟨g', hg', hstems⟩ | ⟨hrests, -⟩
      · obtain rfl := Outcome.fault_inj (hr.symm.trans hg')
        refine .inl ⟨g, hg, stems_mono (fun u hu => List.mem_append_right _ hu) ?_ hstems⟩
        exact fun hi => Bool.and_eq_false_iff.2 (.inr hi)
      · exact absurd hr (hrests g)
    · refine .inr ⟨hp, fun u hu => ?_⟩
      rcases List.mem_append.1 hu with hu | hu
      · rcases ihl mode with ⟨g, hg, -⟩ | ⟨-, hneeded⟩
        · exact absurd hg (hl g)
        · exact hneeded u hu
      · rcases ihr mode with ⟨g, hg, -⟩ | ⟨-, hneeded⟩
        · exact absurd hg (hr g)
        · exact hneeded u hu
  | record t =>
    have hself : t ∈ (Form.record t).needed := List.mem_singleton_self t
    by_cases hrests : Rests (s.parser d (.record t)) mode
    · refine .inr ⟨hrests, fun u hu => ?_⟩
      obtain rfl := List.mem_singleton.1 hu
      exact ⟨mode, hrests⟩
    · unfold Rests at hrests
      push Not at hrests
      obtain ⟨g, hg⟩ := hrests
      exact .inl ⟨g, hg, .inr ⟨t, hself, mode, hg⟩⟩
  | optional item ih =>
    rw [parser_optional]
    refine nil_of_item (run_caught_nil (fun r => ?_) run_optional) (ih mode)
    cases r <;> exact ⟨_, rfl⟩
  | result item ih =>
    rw [parser_result]
    refine nil_of_item (run_caught_nil (fun r => ?_) run_result) (ih mode)
    cases r <;> exact ⟨_, rfl⟩
  | forced m item ih =>
    rw [parser_forced]
    refine nil_of_item ?_ (ih m)
    unfold Rests
    rw [run_forced]
    rcases (s.parser d item).run m [] with (es | f) | v
    · exact .inr ⟨nofun, nofun⟩
    · exact .inl ⟨f, rfl, rfl⟩
    · exact .inr ⟨nofun, nofun⟩
  | contextual item ih =>
    rw [parser_contextual]
    refine nil_of_item (run_caught_nil (fun r => ?_) run_contextual) (ih mode)
    cases r <;> exact ⟨_, rfl⟩
  | unimplemented =>
    rw [parser_unimplemented]
    exact .inl ⟨.unimplemented, rfl, .inl ⟨rfl, rfl⟩⟩

theorem acc_of_rests (hrests : Rests (s.parser d (.record t)) mode) : Acc s.Needs t := by
  induction d generalizing t mode with
  | zero => exact absurd rfl (hrests .endless)
  | succ d ih =>
    refine Acc.intro t fun u hu => ?_
    obtain ⟨ps, m, hps, hm, hunset, hu⟩ := hu
    rcases run_record_nil_or hps d mode with ⟨g, -, hg, -⟩ | ⟨-, hmembers⟩
    · exact absurd hg (hrests g)
    · rcases run_form_nil d m.form mode with ⟨g, hg, -⟩ | ⟨-, hneeded⟩
      · exact absurd hg (hmembers m hm hunset g)
      · obtain ⟨mode', hu⟩ := hneeded u hu
        exact ih hu

theorem needed_subset (form : Form) : ∀ t ∈ form.needed, t ∈ form.records := by
  induction form with
  | leaf | list | dict | unimplemented => exact fun t ht => absurd ht List.not_mem_nil
  | record u => exact fun t ht => ht
  | pair left right ihl ihr =>
    intro t ht
    rcases List.mem_append.1 ht with ht | ht
    · exact List.mem_append_left _ (ihl t ht)
    · exact List.mem_append_right _ (ihr t ht)
  | optional item ih | result item ih | forced m item ih | contextual item ih => exact ih

theorem declared (h : s.Accepted) (ht : t.index < s.records.length) :
    ∃ ps, s.declaration t = .ok ps ∧ ∀ m, .member m ∈ ps → s.Accepts m.form := by
  obtain ⟨ps, hps, hm⟩ := h _ (List.getElem_mem ht)
  exact ⟨ps, declaration_eq_ok.2 (by rw [List.getElem?_eq_getElem ht, hps]), hm⟩

theorem accepts_member (h : s.Accepted) {ps : List RecordPart} {m : Member}
    (hps : s.declaration t = .ok ps) (hm : .member m ∈ ps) : s.Accepts m.form := by
  obtain ⟨qs, hqs, hforms⟩ :=
    declared h (List.getElem?_eq_some_iff.1 (declaration_eq_ok.1 hps)).1
  obtain rfl := Except.ok.inj (hps.symm.trans hqs)
  exact hforms m hm

theorem record_of_stems (hform : s.Accepts form) (h : s.Stems d form g) :
    ∃ u ∈ form.needed, u.index < s.records.length ∧
      ∃ mode, (s.parser d (.record u)).run mode [] = .error (.fault g) := by
  rcases h with ⟨-, hn⟩ | ⟨u, hu, hrun⟩
  · rw [hform.1] at hn
    cases hn
  · exact ⟨u, hu, hform.2 u (needed_subset form u hu), hrun⟩

theorem rests_of_acc (h : s.Accepted) (hacc : Acc s.Needs t) (ht : t.index < s.records.length)
    (mode : Mode) : Rests (s.parser s.floor (.record t)) mode := by
  induction hacc generalizing mode with
  | intro t _ ih =>
    intro f hf
    obtain ⟨ps, hps, hmembers⟩ := declared h ht
    -- at the floor one step more changes nothing, so the members may stay at the floor
    rw [← run_nil_settled s.settled (Nat.le_succ _)] at hf
    rcases run_record_nil_or hps s.floor mode with ⟨g, m, -, hm, hunset, hg⟩ | ⟨hrests, -⟩
    · rcases run_form_nil s.floor m.form mode with ⟨g', hg', hstems⟩ | ⟨hrests, -⟩
      · obtain ⟨u, hu, hlt, mode', hrun⟩ := record_of_stems (hmembers m hm) hstems
        exact ih u ⟨ps, m, hps, hm, hunset, hu⟩ hlt mode' g' hrun
      · exact hrests g hg
    · exact hrests f hf

/-- An accepted form ends without fields if and only if no endless chain of needs starts from it. -/
theorem rests_iff (h : s.Accepted) (hform : s.Accepts form) (hd : s.floor ≤ d) :
    Rests (s.parser d form) mode ↔ ∀ u ∈ form.needed, Acc s.Needs u := by
  unfold Rests
  rw [run_nil_settled s.settled hd form]
  constructor
  · intro hrests u hu
    rcases run_form_nil s.floor form mode with ⟨g, hg, -⟩ | ⟨-, hneeded⟩
    · exact absurd hg (hrests g)
    · obtain ⟨mode', hu⟩ := hneeded u hu
      exact acc_of_rests hu
  · intro hacc f hf
    rcases run_form_nil s.floor form mode with ⟨g, hg, hstems⟩ | ⟨hrests, -⟩
    · obtain ⟨u, hu, hlt, mode', hrun⟩ := record_of_stems hform hstems
      exact rests_of_acc h (hacc u hu) hlt mode' g hrun
    · exact hrests f hf

theorem absent_eq_ok_iff (h : s.Accepted) (hform : s.Accepts form) :
    (∃ r, s.absent form mode = .ok r) ↔ ∀ u ∈ form.needed, Acc s.Needs u := by
  rw [← rests_iff h hform (s.floor_le_depth 0)]
  unfold absent Parser.absent Rests
  rcases (s.parser (s.depth 0) form).run mode [] with (es | f) | v
  · refine ⟨fun _ f hf => ?_, fun _ => ⟨none, rfl⟩⟩
    cases hf
  · refine ⟨fun hr => ?_, fun hn => absurd rfl (hn f)⟩
    obtain ⟨r, hr⟩ := hr
    cases hr
  · refine ⟨fun _ f hf => ?_, fun _ => ⟨some v, rfl⟩⟩
    cases hf

theorem acc_of_undeclared (ht : ¬t.index < s.records.length) : Acc s.Needs t := by
  refine Acc.intro t fun u hu => ?_
  obtain ⟨ps, m, hps, -⟩ := hu
  exact absurd (List.getElem?_eq_some_iff.1 (declaration_eq_ok.1 hps)).1 ht

theorem declaration_ne_endless (h : s.Accepted) : s.declaration t ≠ .error .endless := by
  intro hn
  by_cases ht : t.index < s.records.length
  · obtain ⟨ps, hps, -⟩ := declared h ht
    rw [hps] at hn
    cases hn
  · rw [declaration, List.getElem?_eq_none (Nat.le_of_not_lt ht)] at hn
    cases hn

theorem run_nil_ne_endless (h : s.Accepted) (hg : s.Grounded) (form : Form) (mode : Mode) :
    (s.parser s.floor form).run mode [] ≠ .error (.fault .endless) := by
  intro hf
  rcases run_form_nil s.floor form mode with ⟨g, hrun, hstems⟩ | ⟨hrests, -⟩
  · obtain rfl := Outcome.fault_inj (hf.symm.trans hrun)
    rcases hstems with ⟨hn, -⟩ | ⟨u, -, mode', hu⟩
    · cases hn
    · by_cases hlt : u.index < s.records.length
      · exact rests_of_acc h (hg.apply u) hlt mode' _ hu
      · rw [floor, parser_succ, declaration, List.getElem?_eq_none (Nat.le_of_not_lt hlt)] at hu
        cases hu
  · exact hrests _ hf

end Schema

end WebForm
