import Mathlib
import WebForm.Proofs.Batch.Dict

/-!
# What names an entry

An entry that no field for keys reaches is named by its index, but only if the field that makes the
entry names it directly: the index is the text of the key then. A later field that names the entry
directly is for its value alone, and the key is what its form makes of no fields.
-/
namespace WebForm

section Entry

variable {key value : Parser} {mode : Mode} {fs : List Field} {o : Field} {i : String}
  {s : DictState key.State value.State}

theorem opener_eq (i : String) (fs : List Field) :
    opener i fs = fs.find? fun f => f.index? == some i :=
  congrArg fs.find? (funext (isOf_eq i))

theorem keyFields_of_none (hkey : ∀ f ∈ fs, f.index? = some i → f.isForKey = false)
    (ho : opener i fs = some o) : keyFields i fs = o.namelessKey := by
  have hnone : handed (fun f => o.sharesEntry f && f.isForKey) fs = [] := by
    refine List.eq_nil_iff_forall_not_mem.2 fun g hg => ?_
    obtain ⟨f, hf, hshare, -⟩ := mem_handed.1 hg
    obtain ⟨hof, hfor⟩ := Bool.and_eq_true_iff.1 hshare
    rw [Field.sharesEntry_eq (index?_of_opener ho), beq_iff_eq] at hof
    rw [hkey f hf hof] at hfor
    cases hfor
  rw [keyFields_eq ho, entryKeyFields, hnone, List.append_nil]

theorem existsUnique_entry (hs : (Parser.dict key value).reach mode fs = .ok s)
    (ho : opener i fs = some o) :
    ∃ e, (∀ e', e' ∈ s.entries ∧ e'.index = i ↔ e' = e) ∧ DictState.Keeps mode fs i e := by
  have hentries := (reach_dict.1 hs).2.2
  have hi : i ∈ entered fs := by
    by_contra hi
    rw [opener_none hi] at ho
    cases ho
  obtain ⟨e, he, hkeeps⟩ := forall₂_left hentries i hi
  have hindices : s.entries.map DictEntry.index = entered fs := by
    rw [← List.forall₂_eq_eq_eq, List.forall₂_map_left_iff]
    exact hentries.flip.imp fun e i h => h.1
  refine ⟨e, fun e' => ⟨fun ⟨he', hi'⟩ => ?_, ?_⟩, hkeeps⟩
  · exact List.inj_on_of_nodup_map (hindices ▸ nodup_entered fs) he' he (hi'.trans hkeeps.1.symm)
  · rintro rfl
    exact ⟨he, hkeeps.1⟩

theorem namelessKey_of_index (hi : o.index? = some i) :
    o.namelessKey = if o.indices = [i] then [.value (.nameless i)] else [] := by
  rw [Field.index?] at hi
  rw [Field.namelessKey]
  rcases ho : o.indices with _ | ⟨a, _ | ⟨b, _ | ⟨c, l⟩⟩⟩ <;> rw [ho] at hi
  case cons.nil =>
    obtain rfl := Option.some.inj hi
    rw [if_pos rfl]
  case cons.cons.nil => rw [if_neg (by simp)]
  all_goals cases hi

end Entry

section Leaf

variable {rules : LeafRules} {l : Leaf} {mode : Mode} {f : ValueField} {i : String} {v : Value}
  {es : FormErrors}

theorem fail_valued {s : LeafState} {text : String} (hs : s.fieldValue = some text) :
    ∀ e ∈ s.fail es, e.value ≠ none := by
  intro e he
  rw [LeafState.fail, hs] at he
  obtain ⟨⟨k, n, p, w⟩, -, rfl⟩ := List.mem_map.1 he
  cases w <;> exact Option.some_ne_none _

theorem record_value {s t : LeafState} {r : Outcome Value} (h : (s.record r).result = .ok t) :
    t.fieldValue = s.fieldValue := by
  rcases r with (es | e) | v
  · simp only [LeafState.record, Step.result_done, Except.ok.injEq] at h
    subst h
    split_ifs <;> rfl
  · cases h
  · obtain rfl := Except.ok.inj h
    rfl

theorem run_value_valued (h : (Parser.leaf rules).run mode [.value f] = .error (.errors es)) :
    ∀ e ∈ es, e.value ≠ none := by
  obtain ⟨s, hs, hfinal⟩ := Parser.run_eq_errors.1 h
  have hvalue : s.fieldValue = some f.value := by
    rw [Parser.reach_single, bind_ok] at hs
    exact record_value hs
  have hfinal : s.finalize rules = .error es := Outcome.ofErrors_eq_errors.1 hfinal
  unfold LeafState.finalize at hfinal
  split at hfinal
  · split_ifs at hfinal
    exact Except.error.inj hfinal ▸ fail_valued hvalue
  · exact Except.error.inj hfinal ▸ fail_valued hvalue
  · split at hfinal
    · cases hfinal
    · exact Except.error.inj hfinal ▸ fail_valued hvalue

theorem run_nothing_missing (h : rules.fallback = none) :
    (Parser.leaf rules).run .lenient [] =
      .error (.errors [⟨.missing, .field, none, none⟩]) := by
  change Outcome.ofErrors (LeafState.finalize rules (.init .lenient)) = _
  simp only [LeafState.finalize, LeafState.init, h]
  rfl

theorem run_nothing_fallback (h : rules.fallback = some v) :
    (Parser.leaf rules).run .lenient [] = .ok v := by
  change Outcome.ofErrors (LeafState.finalize rules (.init .lenient)) = _
  simp only [LeafState.finalize, LeafState.init, h]
  rfl

theorem eq_boolean_of_fallback (h : l.rules.fallback = some v) : l = .boolean := by
  cases l <;> first | rfl | cases h

theorem run_boolean_eq_ok :
    (Parser.leaf Leaf.boolean.rules).run .lenient [.value f] = .ok v ↔
      Leaf.boolean.rules.ofValue f = .ok v := by
  have hsettle : [Field.value f].foldlM (Leaf.boolean.rules.settle .lenient) none =
      takenOf .lenient (Leaf.boolean.rules.ofValue f) := bind_pure _
  have hread : Leaf.boolean.rules.ofValue f =
      (readTruth f.value).mapError fun e => .errors (.ofKind (.unreadable .bool e)) := rfl
  rw [run_leaf_eq_ok, hsettle, hread]
  cases readTruth f.value with
  | error e =>
    have hnot : LeafState.refused (.ofKind (.unreadable .bool e)) = false := rfl
    simp [Except.mapError, takenOf, hnot]
  | ok w => simp [Except.mapError, takenOf, Mode.isStrict]

/-- A leaf makes the same of a text as of no field at all only if it reads the text as the very value
that stands for a missing field. -/
theorem run_value_eq_nothing_iff :
    (Parser.leaf l.rules).run .lenient [] = (Parser.leaf l.rules).run .lenient [.value f] ↔
      ∃ v, l.rules.fallback = some v ∧ l.rules.ofValue f = .ok v := by
  cases hl : l.rules.fallback with
  | none =>
    rw [run_nothing_missing hl]
    simp only [reduceCtorEq, false_and, exists_false, iff_false]
    intro h
    exact run_value_valued h.symm _ (List.mem_singleton_self _) rfl
  | some v =>
    obtain rfl := eq_boolean_of_fallback hl
    rw [run_nothing_fallback hl, eq_comm, run_boolean_eq_ok]
    simp

end Leaf

/-- An entry that a field names directly and that no field for keys reaches has for its key what the
form of the keys makes of its index, if the first of its fields names it directly. If the first field
is one for values, then the key is what the form makes of no fields, and this is the same only for
an index that reads as the value for no fields. -/
theorem direct_key_iff {l : Leaf} {value : Parser} {fs : List Field} {i : String}
    {s : DictState LeafState value.State} (hdirect : ∃ f ∈ fs, f.indices = [i])
    (hkey : ∀ f ∈ fs, f.index? = some i → f.isForKey = false)
    (hs : (Parser.dict (.leaf l.rules) value).reach .lenient fs = .ok s) :
    ∃ o, fs.find? (fun f => f.index? == some i) = some o ∧
      ∃ e, (∀ e', e' ∈ s.entries ∧ e'.index = i ↔ e' = e) ∧
        (Parser.leaf l.rules).finalize e.key =
          (Parser.leaf l.rules).run .lenient
            (if o.indices = [i] then [.value (.nameless i)] else []) ∧
        ((Parser.leaf l.rules).finalize e.key =
            (Parser.leaf l.rules).run .lenient [.value (.nameless i)] ↔
          o.indices = [i] ∨
            ∃ v, l.rules.fallback = some v ∧ l.rules.ofValue (.nameless i) = .ok v) := by
  obtain ⟨f, hf, hfi⟩ := hdirect
  have hindex : f.index? = some i := by rw [Field.index?, hfi]
  obtain ⟨o, ho⟩ := opener_some (mem_entered.2 ⟨f, hf, (index?_target f).trans hindex⟩)
  obtain ⟨e, hunique, -, -, hreach, -⟩ := existsUnique_entry hs ho
  have hrun : (Parser.leaf l.rules).finalize e.key =
      (Parser.leaf l.rules).run .lenient
        (if o.indices = [i] then [.value (.nameless i)] else []) := by
    rw [keyFields_of_none hkey ho, namelessKey_of_index (index?_of_opener ho)] at hreach
    exact (Parser.run_of_reach hreach).symm
  refine ⟨o, (opener_eq i fs).symm.trans ho, e, hunique, hrun, ?_⟩
  rw [hrun]
  by_cases hdirect : o.indices = [i]
  · simp [hdirect]
  · simp only [hdirect, if_false, false_or]
    exact run_value_eq_nothing_iff

def namedFirst : List Field := [.value (.ofText "[yes]" "1"), .value (.ofText "[v:yes]" "2")]

def namedLate : List Field := [.value (.ofText "[v:yes]" "1"), .value (.ofText "[yes]" "2")]

theorem yes_named :
    (∃ f ∈ namedFirst, f.indices = ["yes"]) ∧
      (∀ f ∈ namedFirst, f.index? = some "yes" → f.isForKey = false) ∧
      ∃ s, (Parser.dict (.leaf Leaf.boolean.rules) (.leaf (Leaf.text none).rules)).reach .lenient
          namedFirst = .ok s ∧
        ∃ e ∈ s.entries, e.index = "yes" ∧
          (Parser.leaf Leaf.boolean.rules).finalize e.key = .ok (.bool true) := by
  have hdirect : ∃ f ∈ namedFirst, f.indices = ["yes"] := ⟨_, List.mem_cons_self, by rfl⟩
  have hkey : ∀ f ∈ namedFirst, f.isForKey = false := by
    rintro f (_ | ⟨_, _ | ⟨_, ⟨⟩⟩⟩) <;> rfl
  obtain ⟨s, hs⟩ : ∃ s, (Parser.dict (.leaf Leaf.boolean.rules)
      (.leaf (Leaf.text none).rules)).reach .lenient namedFirst = .ok s := ⟨_, rfl⟩
  obtain ⟨o, ho, e, he, hrun, -⟩ := direct_key_iff hdirect (fun f hf _ => hkey f hf) hs
  have hfirst : o = .value (.ofText "[yes]" "1") := Option.some.inj (ho.symm.trans (by rfl))
  obtain ⟨hmem, hindex⟩ := (he e).2 rfl
  exact ⟨hdirect, fun f hf _ => hkey f hf, s, hs, e, hmem, hindex, by rw [hrun, hfirst]; rfl⟩

/-- Named late, the entry has the truth value for no fields, although its name reads as true. -/
theorem yes_unnamed :
    (∃ f ∈ namedLate, f.indices = ["yes"]) ∧ (∀ f ∈ namedLate, f.isForKey = false) ∧
      Schema.empty.parse .boolean .lenient [.value (.nameless "yes")] = .ok (.bool true) ∧
      Schema.empty.parse (.dict .boolean .text) .lenient namedLate =
        .ok (.dict [(.bool false, .text "1")]) := by
  refine ⟨⟨_, List.mem_cons_of_mem _ List.mem_cons_self, by rfl⟩, ?_, by cbv, by cbv⟩
  rintro f (_ | ⟨_, _ | ⟨_, ⟨⟩⟩⟩) <;> rfl

end WebForm
