import Mathlib
import WebForm.Proofs.Settling
import WebForm.Proofs.Names

/-!
# Rejected values

What the first field of a leaf holds is reported if the leaf rejects it. The error has the text of the
field and its whole name, since no list, dictionary, pair or record on the way out names it again.
-/
namespace WebForm

variable {s : Schema} {J : Job} {l : Leaf} {mode : Mode} {n : Name} {k : Nat} {text : String}
  {gs : List Field} {xs : FormErrors} {x : FormError}

theorem leaf_rejects (hb : n.Begins) (hne : n.chars ≠ [])
    (hr : l.rules.ofValue ⟨(View.ofName n).shiftBy k, text⟩ = .error (.errors xs)) (hx : x ∈ xs)
    (hkind : x.kind.isUnexpected = false) :
    Job.Ends s ⟨.leaf l, mode, .value ⟨(View.ofName n).shiftBy k, text⟩ :: gs⟩
      (.error [⟨x.kind, x.kind.defaultEntity, some (.ofView ((View.ofName n).shiftBy k)),
        some text⟩]) := by
  have hempty : ((View.ofName n).shiftBy k).asName.isEmpty = false := by
    rw [Bool.eq_false_iff, ne_eq, View.asName_isEmpty hb, Name.keys_eq_nil hb]
    exact hne
  refine ⟨0, ?_⟩
  rw [Schema.parser_leaf]
  rcases rules_giveReason l (.value _) xs hr with rfl | ⟨kind, rfl⟩
  · obtain rfl := List.mem_singleton.1 hx
    cases hkind
  · obtain rfl := List.mem_singleton.1 hx
    exact run_leaf_rejected hr hkind hempty

def Job.Rejects (s : Schema) (J : Job) (kind : Kind Value) (n : Name) (text : String) : Prop :=
  ∃ es, J.run s = .error (.errors es) ∧ ∃ e ∈ es, e.kind = kind ∧ e.value = some text ∧
    ∃ p, e.name = some p ∧ p.keys = n.keys

/-- If the first field of a leaf inside of a form has no key left and is rejected, the form fails
with an error of that kind that has the text and the keys of the field, or ends in a fault. A fault
comes of going on for ever, or of what breaks the work, if all checks come to a verdict. -/
theorem run_rejected
    (hpart : Relation.TransGen s.Part J
      ⟨.leaf l, mode, .value ⟨(View.ofName n).shiftBy k, text⟩ :: gs⟩)
    (hb : n.Begins) (hne : n.chars ≠ []) (hk : n.keys.length ≤ k)
    (hr : l.rules.ofValue ⟨(View.ofName n).shiftBy k, text⟩ = .error (.errors xs)) (hx : x ∈ xs)
    (hkind : x.kind.isUnexpected = false) :
    (J.Rejects s x.kind n text ∨ ∃ f, J.run s = .error (.fault f)) ∧
      (s.Accepted → s.Accepts J.form → s.Vets →
        (J.Rejects s x.kind n text ↔
          J.run s ≠ .error (.fault .endless) ∧ ∀ f, ¬s.Breaks J f)) := by
  have hends (r : Except FormErrors Value) (hend : J.Ends s r) : J.Rejects s x.kind n text := by
    obtain ⟨y, hy, hup⟩ := parts_end hpart hend
    obtain rfl := hy.unique (leaf_rejects hb hne hr hx hkind)
    have he := hup _ (List.mem_singleton_self _) (Option.some_ne_none _)
    cases r with
    | ok v => cases he
    | error es =>
      refine ⟨es, Outcome.caught_eq_errors.1 (Job.ends_iff.1 hend), _, he, rfl, rfl, _, rfl, ?_⟩
      rw [Path.ofView, Path.keys, View.keys_asName hb, List.take_of_length_le (by omega)]
  constructor
  · cases hrun : Outcome.caught (J.run s) with
    | error f => exact .inr ⟨f, Outcome.caught_eq_error.1 hrun⟩
    | ok r => exact .inl (hends r (Job.ends_iff.2 hrun))
  · intro h hform hvets
    rw [← Schema.job_ends_iff h hform hvets]
    constructor
    · rintro ⟨es, hes, -⟩
      exact ⟨.error es, Job.ends_iff.2 (Outcome.caught_eq_errors.2 hes)⟩
    · rintro ⟨r, hend⟩
      exact hends r hend

def agesSubmitted : List Field := [.value (.ofText "[rex]" "old"), .value (.ofText "[fido]" "3")]

theorem rex_part {s : Schema} {key : Form} :
    Relation.TransGen s.Part ⟨.dict key .integer, .strict, agesSubmitted⟩
      ⟨.leaf (.integer true none), .strict,
        [.value ⟨(View.ofName (.ofString "[rex]")).shiftBy 1, "old"⟩]⟩ := by
  have hentered : entered agesSubmitted = ["rex", "fido"] := by cbv
  have hvalue : valueFields "rex" agesSubmitted =
      [.value ⟨(View.ofName (.ofString "[rex]")).shiftBy 1, "old"⟩] := by
    cbv
  rw [← hvalue]
  exact .single (.value (by rw [hentered]; exact List.mem_cons_self))

theorem rex_reject :
    (Leaf.integer true none).rules.ofValue ⟨(View.ofName (.ofString "[rex]")).shiftBy 1, "old"⟩ =
      .error (.errors (.ofKind (.unreadable .int (.integer .digit)))) := by
  cbv

/-- The age of Rex is reported if the names of the dogs are texts. Lists cannot be keys, so nothing
is reported if the names are lists. -/
theorem age_rejected :
    Job.Rejects .empty ⟨.dict .text .integer, .strict, agesSubmitted⟩
        (.unreadable .int (.integer .digit)) (.ofString "[rex]") "old" ∧
      ¬Job.Rejects .empty ⟨.dict (.list .text) .integer, .strict, agesSubmitted⟩
        (.unreadable .int (.integer .digit)) (.ofString "[rex]") "old" := by
  have hkeys : (Name.ofString "[rex]").keys = ["rex"] := by cbv
  have hrejected (key : Form) := run_rejected (@rex_part .empty key) (by decide) (by decide)
    (by rw [hkeys]; decide) rex_reject (List.mem_singleton_self _) rfl
  have htext : Schema.empty.Accepts (.dict .text .integer) := ⟨rfl, fun t ht => by cases ht⟩
  have hsturdy : Schema.empty.Sturdy (.dict .text .integer) := ⟨rfl, fun t ht => by cases ht⟩
  have hlist : Schema.empty.Accepts (.dict (.list .text) .integer) := ⟨rfl, fun t ht => by cases ht⟩
  constructor
  · have hrun : Job.run .empty ⟨.dict .text .integer, .strict, agesSubmitted⟩ =
        .error (.errors [⟨.unreadable .int (.integer .digit), .value,
          some (.name (.ofString "[rex]")), some "old"⟩]) := by
      cbv
    refine ((hrejected _).2 Schema.empty_accepted htext Schema.empty_vets).2
      ⟨?_, fun f => hsturdy.not_breaks⟩
    rw [hrun]
    intro h
    cases h
  · intro h
    have hentered : entered agesSubmitted = ["rex", "fido"] := by cbv
    have hkey : Schema.empty.parse (.list .text) .strict (keyFields "fido" agesSubmitted) =
        .ok (.list [.text "fido"]) := by
      cbv
    have hvalue : Schema.empty.parse .integer .strict (valueFields "fido" agesSubmitted) =
        .ok (.int 3) := by
      cbv
    refine (((hrejected _).2 Schema.empty_accepted hlist Schema.empty_vets).1 h).2 _
      (.key ?_ hkey hvalue rfl)
    rw [hentered]
    exact List.mem_cons_of_mem _ List.mem_cons_self

end WebForm
