import Mathlib
import WebForm.Proofs.Run.Form

/-!
# Where faults come from

A run that ends in a fault has it from a part that ends in it on its own fields, from a key that can
be none, or from a check that does not fit its value.
-/
namespace WebForm

theorem ofFault_bind_eq_fault {α β : Type} {x : Except Fault α} {g : α → Outcome β} {f : Fault} :
    (Outcome.ofFault x >>= g) = .error (.fault f) ↔
      x = .error f ∨ ∃ a, x = .ok a ∧ g a = .error (.fault f) := by
  cases x <;> simp [bind_ok, bind_error]

variable {mode : Mode} {fs as bs : List Field} {f : Field} {e : Fault}

namespace Parser

variable {p : Parser} {s : p.State}

def Raises (p : Parser) (mode : Mode) (fs : List Field) (e : Fault) : Prop :=
  p.run mode fs = .error (.fault e)

theorem raises_iff :
    p.Raises mode fs e ↔
      p.reach mode fs = .error e ∨
        ∃ s, p.reach mode fs = .ok s ∧ p.finalize s = .error (.fault e) := by
  rw [Raises, run_eq, ofFault_bind_eq_fault]

theorem raises_of_init (h : p.init mode = .error e) (fs : List Field) : p.Raises mode fs e := by
  refine raises_iff.2 (.inl ?_)
  rw [reach, h]
  rfl

theorem raises_of_reach (h : p.reach mode as = .error e) (bs : List Field) :
    p.Raises mode (as ++ bs) e := by
  refine raises_iff.2 (.inl ?_)
  rw [reach_append, h]
  rfl

theorem raises_of_feed (hs : p.reach mode as = .ok s) (hf : p.feed s f = .error e)
    (bs : List Field) : p.Raises mode (as ++ f :: bs) e := by
  rw [List.append_cons]
  refine raises_of_reach ?_ bs
  rw [reach_snoc, hs]
  exact hf

theorem raises_of_finalize (hs : p.reach mode fs = .ok s) (hf : p.finalize s = .error (.fault e)) :
    p.Raises mode fs e := raises_iff.2 (.inr ⟨s, hs, hf⟩)

/-- A fault comes up at the beginning, with a field, or at the end. -/
theorem Raises.cases (h : p.Raises mode fs e) :
    p.init mode = .error e ∨
      (∃ as f bs s, fs = as ++ f :: bs ∧ p.reach mode as = .ok s ∧ p.feed s f = .error e) ∨
      ∃ s, p.reach mode fs = .ok s ∧ p.finalize s = .error (.fault e) := by
  rcases raises_iff.1 h with h | h
  · clear * - h
    induction fs using List.reverseRecOn with
    | nil => exact .inl ((reach_nil p mode).symm.trans h)
    | append_singleton fs f ih =>
      rw [reach_snoc] at h
      rcases bind_eq_error.1 h with h | ⟨s, hs, h⟩
      · rcases ih h with hi | ⟨as, g, bs, s, rfl, hs, hg⟩ | ⟨s, hs, -⟩
        · exact .inl hi
        · exact .inr (.inl ⟨as, g, bs ++ [f], s, by simp, hs, hg⟩)
        · rw [h] at hs
          cases hs
      · exact .inr (.inl ⟨fs, f, [], s, rfl, hs, h⟩)
  · exact .inr (.inr h)

theorem failing_raises {e' : Fault} (h : (failing e').Raises mode fs e) : e = e' := by
  rw [Raises, run_eq] at h
  exact (Outcome.fault_inj h).symm

end Parser

open WebForm.Parser

theorem handed_insert {q : Field → Bool} (h : q f = true) :
    handed q (as ++ f :: bs) = handed q as ++ f.shift :: handed q bs := by
  simp [handed, h]

section Wrapped

variable {item : Parser}

theorem caught_raises {o : Outcome Value} {g : Except FormErrors Value → Outcome Value}
    (hg : ∀ r, ∃ v, g r = .ok v)
    (h : (Outcome.ofFault (Outcome.caught o) >>= g) = .error (.fault e)) :
    o = .error (.fault e) := by
  rcases ofFault_bind_eq_fault.1 h with h | ⟨r, -, h⟩
  · exact Outcome.caught_eq_error.1 h
  · obtain ⟨v, hv⟩ := hg r
    rw [hv] at h
    cases h

theorem optional_raises (h : (optional item).Raises mode fs e) : item.Raises mode fs e := by
  rw [Raises, run_optional] at h
  exact caught_raises (fun r => by cases r <;> exact ⟨_, rfl⟩) h

theorem result_raises (h : (result item).Raises mode fs e) : item.Raises mode fs e := by
  rw [Raises, run_result] at h
  exact caught_raises (fun r => by cases r <;> exact ⟨_, rfl⟩) h

theorem contextual_raises (h : (contextual item).Raises mode fs e) : item.Raises mode fs e := by
  rw [Raises, run_contextual] at h
  exact caught_raises (fun r => by cases r <;> exact ⟨_, rfl⟩) h

end Wrapped

theorem list_raises {item : Parser} (h : (list item).Raises mode fs e) :
    ∃ g ∈ pieces fs, item.Raises mode g e := by
  rw [Raises, run_list] at h
  rcases ofFault_bind_eq_fault.1 h with h | ⟨rs, -, h⟩
  · obtain ⟨g, hg, h⟩ := mapM_eq_error h
    exact ⟨g, hg, Outcome.caught_eq_error.1 h⟩
  · unfold assemble at h
    split_ifs at h
    cases h

theorem pair_raises {left right : Parser} (h : (pair left right).Raises mode fs e) :
    left.Raises mode (handed (Field.isFor "0") fs) e ∨
      right.Raises mode (handed (Field.isFor "1") fs) e := by
  rcases h.cases with hi | ⟨as, f, bs, s, rfl, hs, hf⟩ | ⟨s, hs, hf⟩
  · rcases bind_eq_error.1 hi with hi | ⟨a, -, hi⟩
    · exact .inl (raises_of_init hi _)
    · rcases bind_eq_error.1 hi with hi | ⟨b, -, hi⟩
      · exact .inr (raises_of_init hi _)
      · cases hi
  · obtain ⟨hl, hr, -⟩ := reach_pair.1 hs
    simp only [Parser.feed, PairState.push] at hf
    split_ifs at hf with h0 h1
    · refine .inl ?_
      rw [handed_insert (decide_eq_true h0)]
      exact raises_of_feed hl (Step.result_map_eq_error.1 hf) _
    · refine .inr ?_
      rw [handed_insert (decide_eq_true h1)]
      exact raises_of_feed hr (Step.result_map_eq_error.1 hf) _
    · cases hf
  · obtain ⟨hl, hr, -⟩ := reach_pair.1 hs
    have hf : s.finalize = .error (.fault e) := hf
    rw [finalize_pair] at hf
    rcases ofFault_bind_eq_fault.1 hf with hf | ⟨x, -, hf⟩
    · exact .inl (raises_of_finalize hl (Outcome.caught_eq_error.1 hf))
    · rcases ofFault_bind_eq_fault.1 hf with hf | ⟨y, -, hf⟩
      · exact .inr (raises_of_finalize hr (Outcome.caught_eq_error.1 hf))
      · exact absurd hf Outcome.ofErrors_ne_fault

section Dict

variable {key value : Parser} {i : String} {es : List (DictEntry key.State value.State)}
  {d : DictEntry key.State value.State}

theorem change_error {g : DictEntry key.State value.State → Step (DictEntry key.State value.State)}
    (h : (DictState.change i g es).result = .error e) :
    ∃ d ∈ es, d.index = i ∧ (g d).result = .error e := by
  induction es with
  | nil => cases h
  | cons d es ih =>
    rw [DictState.change] at h
    split_ifs at h with hi <;> rw [Step.result_map_eq_error] at h
    · exact ⟨d, List.mem_cons_self, hi, h⟩
    · obtain ⟨d', hd', h⟩ := ih h
      exact ⟨d', List.mem_cons_of_mem _ hd', h⟩

theorem serve_error (hi : f.target.index? = some i)
    (h : (DictState.serve f d : Step (DictEntry key.State value.State)).result = .error e) :
    (f.isKeyOf i = true ∧ key.feed d.key f.shift = .error e) ∨
      (f.isValueOf i = true ∧ value.feed d.value f.shift = .error e) := by
  unfold DictState.serve at h
  simp only [Field.isKeyOf, Field.isValueOf]
  rcases DictTarget.index_eq_some hi with hf | hf | hf <;>
    simp only [hf, DictState.pushKey, DictState.pushValue, Step.result_map_eq_error] at h <;>
    simp only [hf, DictTarget.toKey?, DictTarget.toValue?, beq_self_eq_true, true_and]
  · exact .inr h
  · exact .inl h
  · exact .inr h

theorem entry_raises {ks vs : List Field} (hi : f.target.index? = some i)
    (hk : key.reach mode ks = .ok d.key) (hv : value.reach mode vs = .ok d.value)
    (hks : keyFields i fs = ks ++ handed (Field.isKeyOf i) (f :: bs))
    (hvs : valueFields i fs = vs ++ handed (Field.isValueOf i) (f :: bs))
    (h : (DictState.serve f d : Step (DictEntry key.State value.State)).result = .error e) :
    key.Raises mode (keyFields i fs) e ∨ value.Raises mode (valueFields i fs) e := by
  rcases serve_error hi h with ⟨hf, h⟩ | ⟨hf, h⟩
  · rw [hks, ← List.nil_append (f :: bs), handed_insert hf]
    exact .inl (raises_of_feed hk h _)
  · rw [hvs, ← List.nil_append (f :: bs), handed_insert hf]
    exact .inr (raises_of_feed hv h _)

theorem fresh_error {direct : Bool} {place : View}
    (h : (DictState.fresh mode direct i place :
      Except Fault (DictEntry key.State value.State)) = .error e) :
    key.reach mode (if direct then [.value (.nameless i)] else []) = .error e ∨
      value.init mode = .error e := by
  rcases bind_eq_error.1 h with hk | ⟨k, hk, h⟩
  · refine .inl ?_
    cases direct
    · exact (reach_nil key mode).trans hk
    · rw [if_pos rfl, reach_single, hk]
      rfl
  · rcases bind_eq_error.1 h with h | ⟨v, -, h⟩
    · exact .inr h
    · cases direct
      · cases h
      · refine .inl ?_
        rw [if_pos rfl, reach_single, hk]
        exact Step.result_map_eq_error.1 h

theorem keyFields_later (hin : i ∈ entered as) (bs : List Field) :
    keyFields i (as ++ f :: bs) = keyFields i as ++ handed (Field.isKeyOf i) (f :: bs) := by
  obtain ⟨o, ho⟩ := opener_some hin
  have hopener : opener i (as ++ f :: bs) = some o := by
    rw [opener, List.find?_append, ← opener, ho, Option.some_or]
  rw [keyFields, keyFields, hopener, ho, handed_append, List.append_assoc]

theorem keyFields_opener (hi : f.target.index? = some i) (hin : i ∉ entered as)
    (bs : List Field) : keyFields i (as ++ f :: bs) =
      (if f.target.isDirect then [.value (.nameless i)] else []) ++
        handed (Field.isKeyOf i) (f :: bs) := by
  have hopener : opener i (as ++ f :: bs) = some f := by
    rw [opener, List.find?_append, ← opener, opener_none hin, Option.none_or]
    simp [Field.isOf, hi]
  rw [keyFields, hopener, handed_append, handed_key_nil hin]
  rfl

theorem feedEntries_raises (hes : List.Forall₂ (DictState.Keeps mode as) (entered as) es)
    (h : DictState.feedEntries mode f es = .error e) (bs : List Field) :
    ∃ i ∈ entered (as ++ f :: bs), key.Raises mode (keyFields i (as ++ f :: bs)) e ∨
      value.Raises mode (valueFields i (as ++ f :: bs)) e := by
  unfold DictState.feedEntries at h
  cases hi : f.target.index? with
  | none =>
    rw [hi] at h
    cases h
  | some i =>
    rw [hi] at h
    refine ⟨i, mem_entered.2 ⟨f, by simp, hi⟩, ?_⟩
    by_cases hin : i ∈ entered as
    · simp only [(DictState.any_index_iff hes).2 hin, if_true] at h
      obtain ⟨d, hd, hdi, hserve⟩ := change_error h
      obtain ⟨j, -, hj, -, hk, hv⟩ := forall₂_right hes d hd
      obtain rfl := hj.symm.trans hdi
      exact entry_raises hi hk hv (keyFields_later hin bs) (handed_append _ as _) hserve
    · simp only [mt (DictState.any_index_iff hes).1 hin] at h
      have hkeys := keyFields_opener hi hin bs
      have hvalues : valueFields i (as ++ f :: bs) = handed (Field.isValueOf i) (f :: bs) := by
        rw [valueFields, handed_append, handed_value_nil hin, List.nil_append]
      rcases bind_eq_error.1 h with h | ⟨d, hd, h⟩
      · rcases fresh_error h with h | h
        · rw [hkeys]
          exact .inl (raises_of_reach h _)
        · exact .inr (raises_of_init h _)
      · obtain ⟨hdi, -, hk, hv⟩ := DictState.fresh_eq_ok.1 hd
        have hnew : ∀ d ∈ es, d.index ≠ i := by
          simpa using mt (DictState.any_index_iff hes).1 hin
        rw [DictState.change_last hnew d hdi] at h
        rcases bind_eq_error.1 h with h | ⟨d', -, h⟩
        · exact entry_raises hi hk ((reach_nil value mode).trans hv) hkeys hvalues h
        · cases h

theorem collect_error {xs : FormErrors} {items : List (Value × Value)}
    (h : DictState.collect xs items es = .error e) :
    ∃ d ∈ es, key.finalize d.key = .error (.fault e) ∨ value.finalize d.value = .error (.fault e) ∨
      ∃ k v, key.finalize d.key = .ok k ∧ value.finalize d.value = .ok v ∧
        k.keyFault? = some e := by
  induction es generalizing xs items with
  | nil => cases h
  | cons d es ih =>
    rw [List.exists_mem_cons_iff]
    rw [DictState.collect] at h
    rcases bind_eq_error.1 h with h | ⟨k, hk, h⟩
    · exact .inl (.inl (Outcome.caught_eq_error.1 h))
    rcases bind_eq_error.1 h with h | ⟨v, hv, h⟩
    · exact .inl (.inr (.inl (Outcome.caught_eq_error.1 h)))
    rcases k with kes | k <;> rcases v with ves | v
    case ok.ok =>
      cases hf : k.keyFault? with
      | none =>
        simp only [hf] at h
        exact .inr (ih h)
      | some f =>
        simp only [hf] at h
        obtain rfl := Except.error.inj h
        have hk := Outcome.caught_eq_value.1 hk
        have hv := Outcome.caught_eq_value.1 hv
        exact .inl (.inr (.inr ⟨k, v, hk, hv, hf⟩))
    all_goals exact .inr (ih h)

theorem dict_raises (h : (dict key value).Raises mode fs e) :
    ∃ i ∈ entered fs, key.Raises mode (keyFields i fs) e ∨ value.Raises mode (valueFields i fs) e ∨
      ∃ k v, key.run mode (keyFields i fs) = .ok k ∧ value.run mode (valueFields i fs) = .ok v ∧
        k.keyFault? = some e := by
  rcases h.cases with hi | ⟨as, f, bs, s, rfl, hs, hf⟩ | ⟨s, hs, hf⟩
  · cases hi
  · obtain ⟨rfl, -, hes⟩ := reach_dict.1 hs
    rw [DictState.feed_dict] at hf
    rcases bind_eq_error.1 hf with hf | ⟨es, -, hf⟩
    · obtain ⟨i, hi, h⟩ := feedEntries_raises hes hf bs
      exact ⟨i, hi, h.imp_right .inl⟩
    · cases hf
  · obtain ⟨-, -, hes⟩ := reach_dict.1 hs
    have hf : s.finalize = .error (.fault e) := hf
    rcases ofFault_bind_eq_fault.1 hf with hf | ⟨⟨xs, items⟩, -, hf⟩
    · obtain ⟨d, hd, h⟩ := collect_error hf
      obtain ⟨i, hi, -, -, hk, hv⟩ := forall₂_right hes d hd
      refine ⟨i, hi, ?_⟩
      rcases h with h | h | ⟨k, v, hkf, hvf, h⟩
      · exact .inl (raises_of_finalize hk h)
      · exact .inr (.inl (raises_of_finalize hv h))
      · exact .inr (.inr ⟨k, v, run_eq_ok.2 ⟨_, hk, hkf⟩, run_eq_ok.2 ⟨_, hv, hvf⟩, h⟩)
    · dsimp only at hf
      split_ifs at hf
      cases hf

end Dict

section Record

variable {parserOf : Form → Parser} {ps : List RecordPart} {objections : Objections}
  {type : RecordType} {declaration : Except Fault (List RecordPart)}

def MemberRaises (p : Parser) (mode : Mode) (m : Member) (gs : List Field) (e : Fault) : Prop :=
  p.Raises mode gs e ∨ ∃ v, p.run mode gs = .ok v ∧ m.check v = .error e

theorem pushInto_raises {p : Parser} {s : Option p.State} (hs : MemberStands p mode as s)
    (h : (MemberStates.pushInto p mode s f).result = .error e) (bs : List Field) :
    p.Raises mode (as ++ f :: bs) e := by
  have hstart := MemberStates.stands_start hs
  cases s with
  | some a =>
    exact raises_of_feed hstart.symm (Step.result_map_eq_error.1 h) bs
  | none =>
    rw [MemberStates.pushInto] at h
    rw [Option.elim_none] at hstart
    cases hi : p.init mode with
    | error f =>
      rw [hi] at h hstart
      obtain rfl := Except.error.inj h
      exact raises_of_reach hstart.symm _
    | ok a =>
      rw [hi] at h hstart
      exact raises_of_feed hstart.symm (Step.result_map_eq_error.1 h) bs

theorem push_raises {st : MemberStates parserOf ps} {r : Step (MemberStates parserOf ps)}
    (hst : MemberStates.Stand mode ps as st)
    (hp : MemberStates.push mode f.name.keyText f.shift ps st = some r)
    (hr : r.result = .error e) (bs : List Field) :
    ∃ m gs, (.member m, gs) ∈ shares ps (as ++ f :: bs) ∧
      MemberRaises (parserOf m.form) mode m gs e := by
  induction ps generalizing as bs with
  | nil => cases hp
  | cons part ps ih =>
    cases part with
    | constant a x =>
      obtain ⟨m, gs, hm, h⟩ := ih hst hp hr bs
      exact ⟨m, gs, List.mem_cons_of_mem _ hm, h⟩
    | member m =>
      rcases st with ⟨s, rest⟩
      obtain ⟨hs, hrest⟩ := hst
      by_cases hm : f.name.keyText ∈ m.names
      · obtain rfl := Option.some.inj ((if_pos hm).symm.trans hp)
        refine ⟨m, _, List.mem_cons_self, .inl ?_⟩
        rw [handed_insert (decide_eq_true hm)]
        exact pushInto_raises hs (Step.result_map_eq_error.1 hr) _
      · obtain ⟨r', hr', rfl⟩ := Option.map_eq_some_iff.1 ((if_neg hm).symm.trans hp)
        have hleft : (as ++ f :: bs).filter (!Field.isTo m ·) =
            as.filter (!Field.isTo m ·) ++ f :: bs.filter (!Field.isTo m ·) := by
          simp [Field.isTo, hm]
        obtain ⟨m', gs, hm', h⟩ := ih hrest hr' (Step.result_map_eq_error.1 hr)
          (bs.filter (!Field.isTo m ·))
        refine ⟨m', gs, List.mem_cons_of_mem _ ?_, h⟩
        rw [hleft]
        exact hm'

theorem finish_raises {m : Member} {p : Parser} {path : Path} {s : Option p.State} {c : Collected}
    (hs : MemberStands p mode fs s) (h : m.finish p mode path s c = .error e) :
    MemberRaises p mode m fs e := by
  cases s with
  | none =>
    obtain rfl : fs = [] := hs
    rcases bind_eq_error.1 h with h | ⟨slot, -, h⟩
    · unfold Member.absent at h
      split at h
      · rcases bind_eq_error.1 (map_eq_error.1 h) with h | ⟨r, -, h⟩
        · exact .inl (Outcome.caught_eq_error.1 h)
        · cases r <;> cases h
      · cases h
    · cases slot <;> cases h
  | some a =>
    rcases bind_eq_error.1 h with h | ⟨r, hr, h⟩
    · exact .inl (raises_of_finalize hs.2 (Outcome.caught_eq_error.1 h))
    · cases r with
      | error es => cases h
      | ok v =>
        refine .inr ⟨v, run_eq_ok.2 ⟨a, hs.2, Outcome.caught_eq_value.1 hr⟩, ?_⟩
        rcases bind_eq_error.1 h with h | ⟨es, -, h⟩
        · exact h
        · cases h

theorem finishParts_raises {parent : Option Name} {st : MemberStates parserOf ps} {c : Collected}
    (hst : MemberStates.Stand mode ps fs st)
    (h : finishParts parserOf mode parent ps st c = .error e) :
    ∃ m gs, (.member m, gs) ∈ shares ps fs ∧ MemberRaises (parserOf m.form) mode m gs e := by
  induction ps generalizing fs c with
  | nil => cases h
  | cons part ps ih =>
    cases part with
    | constant a x =>
      obtain ⟨m, gs, hm, h⟩ := ih hst h
      exact ⟨m, gs, List.mem_cons_of_mem _ hm, h⟩
    | member m =>
      rcases st with ⟨s, rest⟩
      obtain ⟨hs, hrest⟩ := hst
      rcases bind_eq_error.1 h with h | ⟨c, -, h⟩
      · exact ⟨m, _, List.mem_cons_self, finish_raises hs h⟩
      · obtain ⟨m', gs, hm, h⟩ := ih hrest h
        exact ⟨m', gs, List.mem_cons_of_mem _ hm, h⟩

theorem record_raises (h : (record type declaration objections parserOf).Raises mode fs e) :
    declaration = .error e ∨ ∃ ps, declaration = .ok ps ∧
      ∃ m gs, (.member m, gs) ∈ shares ps fs ∧ MemberRaises (parserOf m.form) mode m gs e := by
  cases declaration with
  | error e' =>
    refine .inl (congrArg _ ?_)
    rcases h.cases with hi | ⟨as, f, bs, s, rfl, hs, hf⟩ | ⟨s, hs, hf⟩
    · cases hi
    · exact Except.error.inj hf
    · exact Outcome.fault_inj hf
  | ok ps =>
    refine .inr ⟨ps, rfl, ?_⟩
    rcases h.cases with hi | ⟨as, f, bs, s, rfl, hs, hf⟩ | ⟨s, hs, hf⟩
    · cases hi
    · obtain ⟨rfl, -, -, hst⟩ := reach_record.1 hs
      have hf : (s.push f).result = .error e := hf
      unfold RecordState.push at hf
      dsimp only at hf
      split at hf
      · next r hr => exact push_raises hst hr (Step.result_map_eq_error.1 hf) bs
      · split_ifs at hf <;> cases hf
    · obtain ⟨rfl, -, -, hst⟩ := reach_record.1 hs
      have hf : s.finalize type objections = .error (.fault e) := hf
      rw [finalize_record] at hf
      rcases ofFault_bind_eq_fault.1 hf with hf | ⟨c, -, hf⟩
      · exact finishParts_raises hst hf
      · exact absurd hf Outcome.ofErrors_ne_fault

end Record

end WebForm
