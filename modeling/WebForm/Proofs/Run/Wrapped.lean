import Mathlib
import WebForm.Parser.Wrapped
import WebForm.Proofs.Run.Basic

/-!
# Runs of wrapped forms

A wrapped form runs as its item does; only the mode or what becomes of the outcome is another.
-/
namespace WebForm

variable {item : Parser} {mode : Mode} {fs : List Field} {v : Value}

theorem run_forced (m : Mode) : (Parser.forced m item).run mode fs = item.run m fs := by
  rw [Parser.run_eq, Parser.run_eq]
  rfl

theorem run_optional :
    (Parser.optional item).run mode fs =
      Outcome.ofFault (Outcome.caught (item.run mode fs)) >>= fun
        | .ok v => .ok v
        | .error _ => .ok .none := by
  rw [Parser.run_eq, Parser.caught_run]
  change Outcome.ofFault (item.reach mode fs) >>= _ = _
  cases item.reach mode fs <;> rfl

theorem run_result :
    (Parser.result item).run mode fs =
      Outcome.ofFault (Outcome.caught (item.run mode fs)) >>= fun
        | .ok v => .ok v
        | .error es => .ok (.errors es) := by
  rw [Parser.run_eq, Parser.caught_run]
  change Outcome.ofFault (item.reach mode fs) >>= _ = _
  cases item.reach mode fs <;> rfl

theorem reach_contextual :
    (Parser.contextual item).reach mode fs =
      (item.reach mode fs).map fun s => (s, fs.foldl Parser.noted .empty) := by
  induction fs using List.reverseRecOn with
  | nil => rw [Parser.reach_nil, Parser.reach_nil]; rfl
  | append_singleton fs f ih =>
    rw [Parser.reach_snoc, Parser.reach_snoc, ih, List.foldl_append]
    cases item.reach mode fs with
    | error e => rfl
    | ok s => exact Step.result_map _ _

theorem run_contextual :
    (Parser.contextual item).run mode fs =
      Outcome.ofFault (Outcome.caught (item.run mode fs)) >>= fun
        | .ok v => .ok (.contextual v (fs.foldl Parser.noted .empty))
        | .error es =>
          .ok (.contextual .none ((fs.foldl Parser.noted .empty).pushErrors es)) := by
  rw [Parser.run_eq, Parser.caught_run, reach_contextual]
  cases item.reach mode fs <;> rfl

section Yields

variable {x : Except FormErrors Value}

def orNone : Except FormErrors Value → Value
  | .ok v => v
  | .error _ => .none

def orErrors : Except FormErrors Value → Value
  | .ok v => v
  | .error es => .errors es

def inContext (c : FormContext) : Except FormErrors Value → Value
  | .ok v => .contextual v c
  | .error es => .contextual .none (c.pushErrors es)

theorem yields_forced (m : Mode) : (Parser.forced m item).Yields mode fs x ↔ item.Yields m fs x := by
  rw [Parser.Yields, run_forced]
  rfl

theorem caught_bind_iff {o : Outcome Value} {g : Except FormErrors Value → Outcome Value}
    {h : Except FormErrors Value → Value} (hg : ∀ r, g r = .ok (h r)) :
    Outcome.caught (Outcome.ofFault (Outcome.caught o) >>= g) = .ok x ↔
      ∃ r, Outcome.caught o = .ok r ∧ x = .ok (h r) := by
  rw [Outcome.caught_ofFault_bind, bind_eq_ok]
  simp only [hg]
  refine exists_congr fun r => and_congr_right fun _ => ⟨fun hx => ?_, fun hx => ?_⟩
  · exact (Except.ok.inj hx).symm
  · rw [hx]
    rfl

theorem yields_optional :
    (Parser.optional item).Yields mode fs x ↔
      ∃ r, item.Yields mode fs r ∧ x = .ok (orNone r) := by
  rw [Parser.Yields, run_optional]
  exact caught_bind_iff fun r => by cases r <;> rfl

theorem yields_result :
    (Parser.result item).Yields mode fs x ↔
      ∃ r, item.Yields mode fs r ∧ x = .ok (orErrors r) := by
  rw [Parser.Yields, run_result]
  exact caught_bind_iff fun r => by cases r <;> rfl

theorem yields_contextual :
    (Parser.contextual item).Yields mode fs x ↔
      ∃ r, item.Yields mode fs r ∧ x = .ok (inContext (fs.foldl Parser.noted .empty) r) := by
  rw [Parser.Yields, run_contextual]
  exact caught_bind_iff fun r => by cases r <;> rfl

end Yields

theorem caught_bind_eq_ok {o : Outcome Value} {g : Except FormErrors Value → Outcome Value} :
    (Outcome.ofFault (Outcome.caught o) >>= g) = .ok v ↔
      (∃ w, o = .ok w ∧ g (.ok w) = .ok v) ∨
        ∃ es, o = .error (.errors es) ∧ g (.error es) = .ok v := by
  rcases o with (es | f) | w <;> simp [Outcome.caught, bind_ok, bind_error]

theorem run_optional_eq_ok :
    (Parser.optional item).run mode fs = .ok v ↔
      item.run mode fs = .ok v ∨ ∃ es, item.run mode fs = .error (.errors es) ∧ .none = v := by
  rw [run_optional, caught_bind_eq_ok]
  simp

theorem run_result_eq_ok :
    (Parser.result item).run mode fs = .ok v ↔
      item.run mode fs = .ok v ∨
        ∃ es, item.run mode fs = .error (.errors es) ∧ .errors es = v := by
  rw [run_result, caught_bind_eq_ok]
  simp

theorem run_contextual_eq_ok :
    (Parser.contextual item).run mode fs = .ok v ↔
      (∃ w, item.run mode fs = .ok w ∧ .contextual w (fs.foldl Parser.noted .empty) = v) ∨
        ∃ es, item.run mode fs = .error (.errors es) ∧
          .contextual .none ((fs.foldl Parser.noted .empty).pushErrors es) = v := by
  rw [run_contextual, caught_bind_eq_ok]
  simp

end WebForm
