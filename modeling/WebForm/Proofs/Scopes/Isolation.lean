import Mathlib
import WebForm.Proofs.Run.Form
import WebForm.Proofs.Scopes.Lockstep

/-!
# Modes fixed inside of a form

The mode of a form only matters where no mode is fixed between the form and a leaf or a record.
Each leaf and each record can be given the mode of the innermost fixed one around it: the parser put
together of these is in step with that of the form, whatever its own mode.
-/
namespace WebForm

/-- Every leaf and every record lies below a form that fixes the mode. -/
def Form.isScoped : Form → Bool
  | .leaf _ | .record _ => false
  | .forced _ _ | .unimplemented => true
  | .list i | .optional i | .result i | .contextual i => i.isScoped
  | .dict l r | .pair l r => l.isScoped && r.isScoped

/-- The parser of a form in which each leaf has the innermost mode around it for its own, given the
parsers of the records in each mode. The form itself stands in the scope of the given mode. -/
def Form.scopedWith (recordParser : Mode → RecordType → Parser) : Mode → Form → Parser
  | scope, .leaf l => .forced scope (.leaf l.rules)
  | scope, .list item => .list (item.scopedWith recordParser scope)
  | scope, .dict key value =>
    .dict (key.scopedWith recordParser scope) (value.scopedWith recordParser scope)
  | scope, .pair left right =>
    .pair (left.scopedWith recordParser scope) (right.scopedWith recordParser scope)
  | scope, .record type => recordParser scope type
  | scope, .optional item => .optional (item.scopedWith recordParser scope)
  | scope, .result item => .result (item.scopedWith recordParser scope)
  | _, .forced mode item => item.scopedWith recordParser mode
  | scope, .contextual item => .contextual (item.scopedWith recordParser scope)
  | _, .unimplemented => .failing .unimplemented

namespace Schema

/-- A form's parser in which each leaf and each record has the innermost mode around it. What a
record hands on to its members is the scope that it stands in. -/
def scopedParser (s : Schema) : Nat → Mode → Form → Parser
  | 0 => Form.scopedWith fun _ _ => .failing .endless
  | depth + 1 =>
    Form.scopedWith fun scope t =>
      .forced scope (.record t (s.declaration t) (s.objections t) (s.scopedParser depth scope))

variable {s : Schema} {d : Nat} {form : Form} {scope mode : Mode} {fs : List Field}

/-- The outer scope reaches neither a leaf nor a record of a scoped form. -/
theorem scopedParser_congr (h : form.isScoped = true) (scope scope' : Mode) :
    s.scopedParser d scope form = s.scopedParser d scope' form := by
  have hwith (recordParser : Mode → RecordType → Parser) :
      form.scopedWith recordParser scope = form.scopedWith recordParser scope' := by
    induction form with
    | leaf l => cases h
    | record t => cases h
    | forced m item _ => rfl
    | unimplemented => rfl
    | list item ih | optional item ih | result item ih | contextual item ih =>
      simp only [Form.scopedWith, ih h]
    | dict left right ihl ihr | pair left right ihl ihr =>
      obtain ⟨hl, hr⟩ := Bool.and_eq_true_iff.1 h
      simp only [Form.scopedWith, ihl hl, ihr hr]
  cases d with
  | zero => exact hwith _
  | succ d => exact hwith _

/-- In the mode of the scope that it stands in, a form is in step with its scoped parser. -/
theorem inStep_scopedParser (s : Schema) (d : Nat) (scope : Mode) (form : Form) :
    Parser.InStep scope (s.parser d form) (s.scopedParser d scope form) := by
  induction d, form using Form.depth_induction generalizing scope with
  | leaf d l =>
    rw [parser_leaf]
    cases d <;> exact Parser.inStep_forced scope _
  | list d item ih =>
    rw [parser_list]
    cases d <;> exact Parser.inStep_list (ih scope)
  | dict d key value ihk ihv =>
    rw [parser_dict]
    cases d <;> exact Parser.inStep_dict (ihk scope) (ihv scope)
  | pair d left right ihl ihr =>
    rw [parser_pair]
    cases d <;> exact Parser.inStep_pair (ihl scope) (ihr scope)
  | zero t => exact Parser.inStep_failing scope _
  | succ d t ih => exact Parser.inStep_record (ih · scope) t _ _
  | optional d item ih =>
    rw [parser_optional]
    cases d <;> exact Parser.inStep_optional (ih scope)
  | result d item ih =>
    rw [parser_result]
    cases d <;> exact Parser.inStep_result (ih scope)
  | forced d m item ih =>
    rw [parser_forced]
    cases d <;> exact (ih m).of_forced scope
  | contextual d item ih =>
    rw [parser_contextual]
    cases d <;> exact Parser.inStep_contextual (ih scope)
  | unimplemented d =>
    rw [parser_unimplemented]
    cases d <;> exact Parser.inStep_failing scope _

theorem run_scopedParser (scope mode : Mode) (fs : List Field) :
    (s.parser d form).run scope fs = (s.scopedParser d scope form).run mode fs := by
  obtain ⟨rel, h⟩ := inStep_scopedParser s d scope form
  exact h.run mode fs

theorem absent_scopedParser (scope mode : Mode) :
    (s.parser d form).absent scope = (s.scopedParser d scope form).absent mode := by
  obtain ⟨rel, h⟩ := inStep_scopedParser s d scope form
  exact h.absent mode

end Schema

/-- If every leaf and every record of a form lies below a fixed mode, it makes the same of all
fields, and of none, in whatever mode. In it each leaf and each record follows the innermost fixed
mode around it. -/
theorem parse_isolated {s : Schema} {form : Form} (h : form.isScoped = true) (fs : List Field) :
    (∀ mode mode', s.parse form mode fs = s.parse form mode' fs) ∧
      (∀ mode mode', s.absent form mode = s.absent form mode') ∧
      ∀ outer scope mode,
        s.parse form outer fs =
            (s.scopedParser (s.depth (Schema.longestName fs)) scope form).run mode fs ∧
          s.absent form outer = (s.scopedParser (s.depth 0) scope form).absent mode := by
  have hscoped (outer scope mode : Mode) :
      s.parse form outer fs =
          (s.scopedParser (s.depth (Schema.longestName fs)) scope form).run mode fs ∧
        s.absent form outer = (s.scopedParser (s.depth 0) scope form).absent mode := by
    rw [Schema.scopedParser_congr h scope outer, Schema.scopedParser_congr h scope outer]
    exact ⟨Schema.run_scopedParser outer mode fs, Schema.absent_scopedParser outer mode⟩
  refine ⟨fun mode mode' => ?_, fun mode mode' => ?_, hscoped⟩
  · exact (hscoped mode mode mode).1.trans (hscoped mode' mode mode).1.symm
  · exact (hscoped mode mode mode).2.trans (hscoped mode' mode mode).2.symm

/-- A vote counts if it is cast once; what else is known of the voter is taken as it comes, but for
the one thing that must be said. -/
def voterType : RecordType := ⟨0, "Voter", false⟩

def voterSchema : Schema :=
  { records := [.ok [
    .member ⟨"age", "age", [], .integer, [], .unset⟩,
    .member ⟨"member", "member", [], .boolean, [], .unset⟩,
    .member ⟨"eligible", "eligible", [], .optional (.forced .strict .boolean), [], .unset⟩]] }

def voteForm : Form :=
  .pair (.optional (.forced .strict .integer)) (.forced .lenient (.record voterType))

theorem vote_isolated :
    voteForm.isScoped = true ∧
      ∀ mode, voterSchema.parse voteForm mode
          [.value (.ofText "[0]" "1"), .value (.ofText "[0]" "2"), .value (.ofText "[1].age" "30"),
            .value (.ofText "[1].age" "31"), .value (.ofText "[1].name" "Ada")] =
        .ok (.tuple [.none, .record voterType [("age", .own (.int 30)),
          ("member", .own (.bool false)), ("eligible", .own .none)]]) := by
  refine ⟨rfl, fun mode => ?_⟩
  rw [(parse_isolated rfl _).1 mode .strict]
  cbv

end WebForm
