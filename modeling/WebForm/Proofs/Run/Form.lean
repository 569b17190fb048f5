import Mathlib
import WebForm.Proofs.Run.Dict
import WebForm.Proofs.Run.Leaf
import WebForm.Proofs.Run.List
import WebForm.Proofs.Run.Pair
import WebForm.Proofs.Run.Record
import WebForm.Proofs.Run.Wrapped

/-!
# Runs of forms

The parser of a form is made of those of its parts, at every depth. So what holds of all parsers is
proved of one kind of parser after the other.
-/
namespace WebForm

variable {mode : Mode} {fs : List Field} {v : Value}

def Form.records : Form → List RecordType
  | .leaf _ | .unimplemented => []
  | .record t => [t]
  | .dict l r | .pair l r => l.records ++ r.records
  | .list i | .optional i | .result i | .forced _ i | .contextual i => i.records

/-- A member of the first type mentions the second. -/
def Schema.Refers (s : Schema) (t u : RecordType) : Prop :=
  ∃ ps m, s.declaration t = .ok ps ∧ .member m ∈ ps ∧ u ∈ m.form.records

namespace Schema

variable {s : Schema} {d : Nat}

theorem parser_leaf {l : Leaf} : s.parser d (.leaf l) = .leaf l.rules := by cases d <;> rfl

theorem parser_list {item : Form} : s.parser d (.list item) = .list (s.parser d item) := by
  cases d <;> rfl

theorem parser_dict {key value : Form} :
    s.parser d (.dict key value) = .dict (s.parser d key) (s.parser d value) := by
  cases d <;> rfl

theorem parser_pair {left right : Form} :
    s.parser d (.pair left right) = .pair (s.parser d left) (s.parser d right) := by
  cases d <;> rfl

theorem parser_succ {t : RecordType} :
    s.parser (d + 1) (.record t) = .record t (s.declaration t) (s.objections t) (s.parser d) := rfl

theorem parser_optional {item : Form} :
    s.parser d (.optional item) = .optional (s.parser d item) := by
  cases d <;> rfl

theorem parser_result {item : Form} : s.parser d (.result item) = .result (s.parser d item) := by
  cases d <;> rfl

theorem parser_forced {mode : Mode} {item : Form} :
    s.parser d (.forced mode item) = .forced mode (s.parser d item) := by
  cases d <;> rfl

theorem parser_contextual {item : Form} :
    s.parser d (.contextual item) = .contextual (s.parser d item) := by
  cases d <;> rfl

theorem parser_unimplemented : s.parser d .unimplemented = .failing .unimplemented := by
  cases d <;> rfl

end Schema

/-- An induction over forms that takes off one step of the depth at each record. -/
theorem Form.depth_induction {motive : Nat → Form → Prop}
    (leaf : ∀ d l, motive d (.leaf l))
    (list : ∀ d item, motive d item → motive d (.list item))
    (dict : ∀ d key value, motive d key → motive d value → motive d (.dict key value))
    (pair : ∀ d left right, motive d left → motive d right → motive d (.pair left right))
    (zero : ∀ t, motive 0 (.record t))
    (succ : ∀ d t, (∀ form, motive d form) → motive (d + 1) (.record t))
    (optional : ∀ d item, motive d item → motive d (.optional item))
    (result : ∀ d item, motive d item → motive d (.result item))
    (forced : ∀ d m item, motive d item → motive d (.forced m item))
    (contextual : ∀ d item, motive d item → motive d (.contextual item))
    (unimplemented : ∀ d, motive d .unimplemented) (d : Nat) (form : Form) : motive d form := by
  -- an induction over the forms inside of one over the depth
  have hform (d : Nat) (hrecord : ∀ t, motive d (.record t)) (form : Form) : motive d form := by
    induction form with
    | leaf l => exact leaf d l
    | list item ih => exact list d item ih
    | dict key value ihk ihv => exact dict d key value ihk ihv
    | pair left right ihl ihr => exact pair d left right ihl ihr
    | record t => exact hrecord t
    | optional item ih => exact optional d item ih
    | result item ih => exact result d item ih
    | forced m item ih => exact forced d m item ih
    | contextual item ih => exact contextual d item ih
    | unimplemented => exact unimplemented d
  induction d generalizing form with
  | zero => exact hform 0 zero form
  | succ d ih => exact hform (d + 1) (fun t => succ d t ih) form

section Explains

def LeafRules.Explains (rules : LeafRules) : Prop := ∀ f, rules.read f ≠ .error (.errors [])

theorem LeafRules.settle_explains {rules : LeafRules} (h : rules.Explains)
    {t : Option (Except FormErrors Value)}
    (ht : fs.foldlM (rules.settle mode) none = .ok t) : t ≠ some (.error []) := by
  induction fs using List.reverseRecOn generalizing t with
  | nil =>
    obtain rfl := Except.ok.inj ht
    exact nofun
  | append_singleton fs f ih =>
    rw [List.foldlM_append] at ht
    obtain ⟨u, hu, ht⟩ := bind_eq_ok.1 ht
    simp only [List.foldlM_cons, List.foldlM_nil, bind_pure] at ht
    cases u with
    | some r =>
      obtain rfl := Except.ok.inj ht
      exact ih hu
    | none =>
      have hf := h f
      rintro rfl
      rw [LeafRules.settle] at ht
      rcases hr : rules.read f with (es | e) | v <;> rw [hr] at ht
      · simp only [takenOf, Except.ok.injEq] at ht
        split_ifs at ht
        rw [hr, Except.error.inj (Option.some.inj ht)] at hf
        exact hf rfl
      · cases ht
      · cases ht

theorem LeafState.fail_eq_nil {s : LeafState} {es : FormErrors} : s.fail es = [] ↔ es = [] := by
  unfold LeafState.fail
  cases s.fieldName with
  | none => cases s.fieldValue <;> simp [Errors.valued]
  | some n =>
    by_cases hn : n.asName.isEmpty = true
    · cases s.fieldValue <;> simp [hn, Errors.valued]
    · cases s.fieldValue <;> simp [hn, Errors.named, Errors.valued]

theorem leaf_explains {rules : LeafRules} (h : rules.Explains) : (Parser.leaf rules).Explains := by
  intro mode fs hrun
  obtain ⟨s, hs, hf⟩ := Parser.run_eq_errors.1 hrun
  have htaken : fs.foldlM (rules.settle mode) none = .ok s.taken := by
    rw [← reach_leaf_taken, hs]
    rfl
  have ht := LeafRules.settle_explains h htaken
  have hf : LeafState.finalize rules s = .error [] := Outcome.ofErrors_eq_errors.1 hf
  unfold LeafState.finalize at hf
  split at hf
  · split_ifs at hf
    cases LeafState.fail_eq_nil.1 (Except.error.inj hf)
  · next es hes =>
    exact ht (by rw [hes, LeafState.fail_eq_nil.1 (Except.error.inj hf)])
  · split at hf
    · cases hf
    · cases LeafState.fail_eq_nil.1 (Except.error.inj hf)

theorem rules_explains (l : Leaf) : l.rules.Explains := by
  intro f h
  rcases rules_giveReason l f [] h with h | ⟨kind, h⟩ <;> cases h

theorem list_explains (item : Parser) : (Parser.list item).Explains := by
  intro mode fs h
  rw [run_list] at h
  cases hr : (pieces fs).mapM fun g => Outcome.caught (item.run mode g) with
  | error e => rw [hr] at h; cases h
  | ok rs =>
    have h : assemble rs = .error (.errors []) := by rw [hr] at h; exact h
    unfold assemble at h
    split_ifs at h with he
    exact he (by rw [Failure.errors.inj (Except.error.inj h)]; rfl)

theorem dict_explains (key value : Parser) : (Parser.dict key value).Explains := by
  intro mode fs h
  obtain ⟨s, -, hf⟩ := Parser.run_eq_errors.1 h
  have hf : DictState.finalize s = .error (.errors []) := hf
  unfold DictState.finalize at hf
  cases hc : DictState.collect s.errors [] s.entries with
  | error e => rw [hc] at hf; cases hf
  | ok r =>
    obtain ⟨xs, items⟩ := r
    rw [hc, Outcome.ofFault_ok, bind_ok] at hf
    simp only at hf
    split_ifs at hf with he
    exact he (by rw [Failure.errors.inj (Except.error.inj hf)]; rfl)

theorem record_explains {parserOf : Form → Parser} (t : RecordType)
    (d : Except Fault (List RecordPart)) (objections : Objections) :
    (Parser.record t d objections parserOf).Explains := by
  intro mode fs h
  obtain ⟨ps, -, cs, -, h⟩ := yields_record.1 (Parser.yields_errors.2 h)
  exact verdict_ne_nil _ _ h.symm

theorem pair_explains {left right : Parser} (hl : left.Explains) (hr : right.Explains) :
    (Parser.pair left right).Explains := by
  intro mode fs h
  obtain ⟨s, hs, hf⟩ := Parser.run_eq_errors.1 h
  obtain ⟨hls, hrs, -⟩ := reach_pair.1 hs
  have hl := hl mode (handed (Field.isFor "0") fs)
  have hr := hr mode (handed (Field.isFor "1") fs)
  rw [Parser.run_of_reach hls] at hl
  rw [Parser.run_of_reach hrs] at hr
  have hf : PairState.finalize s = .error (.errors []) := hf
  unfold PairState.finalize at hf
  rcases hlf : left.finalize s.left with (es | e) | a <;>
    rcases hrf : right.finalize s.right with (es' | e') | b <;>
    rcases he : s.errors with _ | ⟨x, xs⟩ <;>
    simp_all [Outcome.caught, bind_ok, bind_error]

/-- Every run that fails says why. -/
theorem parser_explains (s : Schema) (d : Nat) (form : Form) : (s.parser d form).Explains := by
  have hcaught {item : Parser} {mode : Mode} {fs : List Field}
      {g : Except FormErrors Value → Outcome Value} (hg : ∀ r, ∃ v, g r = .ok v) :
      (Outcome.ofFault (Outcome.caught (item.run mode fs)) >>= g) ≠ .error (.errors []) := by
    cases Outcome.caught (item.run mode fs) with
    | error e => exact nofun
    | ok r =>
      obtain ⟨v, hv⟩ := hg r
      rw [Outcome.ofFault_ok, bind_ok, hv]
      exact nofun
  induction d, form using Form.depth_induction with
  | leaf d l =>
    rw [Schema.parser_leaf]
    exact leaf_explains (rules_explains l)
  | list d item _ =>
    rw [Schema.parser_list]
    exact list_explains _
  | dict d key value _ _ =>
    rw [Schema.parser_dict]
    exact dict_explains _ _
  | pair d left right ihl ihr =>
    rw [Schema.parser_pair]
    exact pair_explains ihl ihr
  | zero t => exact fun mode fs => nofun
  | succ d t _ => exact record_explains t _ _
  | optional d item _ =>
    rw [Schema.parser_optional]
    intro mode fs
    rw [run_optional]
    exact hcaught fun r => by cases r <;> exact ⟨_, rfl⟩
  | result d item _ =>
    rw [Schema.parser_result]
    intro mode fs
    rw [run_result]
    exact hcaught fun r => by cases r <;> exact ⟨_, rfl⟩
  | forced d m item ih =>
    rw [Schema.parser_forced]
    intro mode fs
    rw [run_forced]
    exact ih m fs
  | contextual d item _ =>
    rw [Schema.parser_contextual]
    intro mode fs
    rw [run_contextual]
    exact hcaught fun r => by cases r <;> exact ⟨_, rfl⟩
  | unimplemented d =>
    rw [Schema.parser_unimplemented]
    exact fun mode fs => nofun

end Explains

end WebForm
