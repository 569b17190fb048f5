import Mathlib
import WebForm.Proofs.Run.Leaf

/-!
# The field that decides a leaf

A lenient leaf passes over the fields that it refuses as unexpected. The first field that it does
not pass over decides: what is read of it is the outcome, and the fields after it are only counted.
An error without a name is given that of the field that was looked at last, and one without a text
the last text that was looked at. A source of octets has a name but no text, so after a text that
was passed over an error can end up with the name of one field and the text of another.
-/
namespace WebForm

def Field.text? : Field → Option String
  | .value f => some f.value
  | .data _ => none

def lastPlace (fs : List Field) : Option Path :=
  fs.getLast?.bind fun f => if f.name.asName.isEmpty then none else some (.ofView f.name)

def lastText (fs : List Field) : Option String := (fs.filterMap Field.text?).getLast?

/-- The error as it is reported of a leaf that looked at these fields. What the error says of its
name and text stays. -/
def Error.about (fs : List Field) (e : FormError) : FormError :=
  { e with name := e.name.or (lastPlace fs), value := e.value.or (lastText fs) }

namespace LeafRules

/-- Lenient leaves pass over what they refuse as unexpected. -/
def passesOver (rules : LeafRules) (mode : Mode) (f : Field) : Bool :=
  match rules.read f with
  | .error (.errors es) => !mode.isStrict && LeafState.refused es
  | _ => false

end LeafRules

section Reports

variable {fs : List Field} {f : Field}

theorem lastPlace_snoc (fs : List Field) (f : Field) :
    lastPlace (fs ++ [f]) = if f.name.asName.isEmpty then none else some (.ofView f.name) := by
  rw [lastPlace, List.getLast?_concat, Option.bind_some]

theorem lastText_snoc (fs : List Field) (f : Field) :
    lastText (fs ++ [f]) = f.text?.or (lastText fs) := by
  rw [lastText, List.filterMap_append, List.getLast?_append]
  cases f <;> rfl

theorem exists_of_lastText {text : String} (h : lastText fs = some text) :
    ∃ f : ValueField, .value f ∈ fs ∧ f.value = text := by
  obtain ⟨f, hf, htext⟩ := List.mem_filterMap.1 (List.mem_of_getLast? h)
  cases f with
  | value f => exact ⟨f, hf, Option.some.inj htext⟩
  | data f => cases htext

def LeafState.after (mode : Mode) (fs : List Field) (taken : Option (Except FormErrors Value))
    (pushes : Nat) : LeafState :=
  ⟨mode, fs.getLast?.map Field.name, lastText fs, taken, pushes⟩

theorem Error.named_eq_or (e : FormError) (p : Path) :
    e.named p = { e with name := e.name.or (some p) } := by
  rcases e with ⟨k, n, _ | q, x⟩ <;> rfl

theorem Error.valued_eq_or (e : FormError) (text : String) :
    e.valued text = { e with value := e.value.or (some text) } := by
  rcases e with ⟨k, n, p, _ | x⟩ <;> rfl

theorem LeafState.fail_after (mode : Mode) (fs : List Field)
    (taken : Option (Except FormErrors Value)) (pushes : Nat) (es : FormErrors) :
    (LeafState.after mode fs taken pushes).fail es = es.map (Error.about fs) := by
  unfold LeafState.fail LeafState.after Error.about lastPlace
  cases fs.getLast? with
  | none => cases lastText fs <;> simp [Errors.valued, Error.valued_eq_or]
  | some f =>
    cases hempty : f.name.asName.isEmpty <;> cases lastText fs <;>
      simp [hempty, Errors.named, Errors.valued, Error.named_eq_or, Error.valued_eq_or]

variable {rules : LeafRules}

theorem LeafState.finalize_value (mode : Mode) (fs : List Field) (v : Value) (n : Nat) :
    (LeafState.after mode fs (some (.ok v)) n).finalize rules =
      if mode.isStrict && 1 < n then .error [(Error.ofKind .duplicate).about fs] else .ok v := by
  have hfail := LeafState.fail_after mode fs (some (.ok v)) n (.ofKind .duplicate)
  have herror : [(Error.ofKind .duplicate).about fs] =
      (Errors.ofKind .duplicate).map (Error.about fs) := rfl
  rw [herror, ← hfail]
  rfl

theorem LeafState.finalize_errors (mode : Mode) (fs : List Field) (es : FormErrors) (n : Nat) :
    (LeafState.after mode fs (some (.error es)) n).finalize rules =
      .error (es.map (Error.about fs)) := by
  rw [← LeafState.fail_after mode fs (some (.error es)) n es]
  rfl

theorem LeafState.finalize_nothing (mode : Mode) (fs : List Field) (n : Nat) :
    (LeafState.after mode fs none n).finalize rules =
      match if mode.isStrict then none else rules.fallback with
      | some v => .ok v
      | none => .error [(Error.ofKind .missing).about fs] := by
  have hfail := LeafState.fail_after mode fs none n (.ofKind .missing)
  have herror : [(Error.ofKind .missing).about fs] =
      (Errors.ofKind .missing).map (Error.about fs) := rfl
  rw [herror, ← hfail]
  rfl

end Reports

section Deciding

variable {rules : LeafRules} {mode : Mode} {fs front rest : List Field} {f g p : Field}

theorem LeafRules.takenOf_passed (h : rules.passesOver mode f = true) :
    takenOf mode (rules.read f) = .ok none := by
  unfold LeafRules.passesOver at h
  split at h
  · next es hes => rw [hes, takenOf, if_pos h]
  · cases h

theorem LeafRules.takenOf_refused {es : FormErrors} (h : rules.passesOver mode f = false)
    (hread : rules.read f = .error (.errors es)) :
    takenOf mode (rules.read f) = .ok (some (.error es)) := by
  rw [LeafRules.passesOver, hread] at h
  rw [hread, takenOf, if_neg (by simpa using h)]

theorem LeafState.result_record {s : LeafState} (hs : s.taken = none) (r : Outcome Value) :
    (s.record r).result = (takenOf s.mode r).map fun taken => { s with taken := taken } := by
  rcases s with ⟨m, n, x, _, k⟩
  obtain rfl := hs
  rcases r with (es | e) | v
  · simp only [LeafState.record, takenOf, Except.map, Step.result_done]
    split_ifs <;> rfl
  · rfl
  · rfl

theorem feed_leaf_after (n : Nat) :
    (Parser.leaf rules).feed (.after mode fs none n) f =
      (takenOf mode (rules.read f)).map fun taken => .after mode (fs ++ [f]) taken (n + 1) := by
  have htext := lastText_snoc fs f
  cases f with
  | value f =>
    refine (LeafState.result_record rfl (rules.ofValue f)).trans ?_
    simp only [LeafState.after, htext, List.getLast?_concat]
    rfl
  | data f =>
    refine (LeafState.result_record rfl (rules.ofData f)).trans ?_
    simp only [LeafState.after, htext, List.getLast?_concat]
    rfl

theorem reach_leaf_passed (h : ∀ f ∈ fs, rules.passesOver mode f = true) :
    (Parser.leaf rules).reach mode fs = .ok (.after mode fs none fs.length) := by
  -- from the end, since the state shows the last of the fields
  induction fs using List.reverseRecOn with
  | nil => rfl
  | append_singleton fs f ih =>
    have hf := LeafRules.takenOf_passed (h f (by simp))
    rw [Parser.reach_snoc, ih fun g hg => h g (List.mem_append_left _ hg), bind_ok,
      feed_leaf_after, hf, List.length_append, List.length_singleton]
    rfl

theorem reach_leaf_decider (hfront : ∀ f ∈ front, rules.passesOver mode f = true) :
    (Parser.leaf rules).reach mode (front ++ [p]) =
      (takenOf mode (rules.read p)).map fun taken =>
        .after mode (front ++ [p]) taken (front.length + 1) := by
  rw [Parser.reach_snoc, reach_leaf_passed hfront, bind_ok, feed_leaf_after]

/-- After the field that decides, the fields are counted, whatever they are and whatever could be
read of them. -/
theorem foldlM_leaf_decided (hfront : ∀ f ∈ front, rules.passesOver mode f = true)
    (hp : rules.passesOver mode p = false) (others : LeafRules) (gs : List Field) :
    ((Parser.leaf rules).reach mode (front ++ [p]) >>= fun s =>
        gs.foldlM (Parser.leaf others).feed s) =
      (takenOf mode (rules.read p)).map fun taken =>
        .after mode (front ++ [p]) taken (front.length + 1 + gs.length) := by
  rw [reach_leaf_decider hfront]
  rcases hr : rules.read p with (es | e) | v
  · rw [← hr, LeafRules.takenOf_refused hp hr]
    exact foldlM_leaf_taken rfl gs
  · rfl
  · exact foldlM_leaf_taken rfl gs

theorem reach_leaf_decided (hfront : ∀ f ∈ front, rules.passesOver mode f = true)
    (hp : rules.passesOver mode p = false) (rest : List Field) :
    (Parser.leaf rules).reach mode (front ++ p :: rest) =
      (takenOf mode (rules.read p)).map fun taken =>
        .after mode (front ++ [p]) taken (front ++ p :: rest).length := by
  have hcount : front.length + 1 + rest.length = (front ++ p :: rest).length := by
    rw [List.length_append, List.length_cons]
    omega
  rw [List.append_cons, Parser.reach_append, ← List.append_cons, ← hcount]
  exact foldlM_leaf_decided hfront hp rules rest

theorem run_leaf_reached {taken : Option (Except FormErrors Value)}
    (h : (Parser.leaf rules).reach mode fs = .ok (.after mode front taken fs.length)) :
    (Parser.leaf rules).run mode fs =
      Outcome.ofErrors ((LeafState.after mode front taken fs.length).finalize rules) :=
  Parser.run_of_reach h

theorem run_leaf_failed (hfront : ∀ f ∈ front, rules.passesOver mode f = true)
    (hp : rules.passesOver mode p = false) {es : FormErrors}
    (hread : rules.read p = .error (.errors es)) :
    (Parser.leaf rules).run mode (front ++ p :: rest) =
      .error (.errors (es.map (Error.about (front ++ [p])))) := by
  have hreach := reach_leaf_decided hfront hp rest
  rw [LeafRules.takenOf_refused hp hread] at hreach
  rw [run_leaf_reached hreach, LeafState.finalize_errors]
  rfl

theorem run_leaf_taken (hfront : ∀ f ∈ front, rules.passesOver mode f = true)
    (hp : rules.passesOver mode p = false) {v : Value} (hread : rules.read p = .ok v) :
    (Parser.leaf rules).run mode (front ++ p :: rest) =
      if mode.isStrict && 1 < (front ++ p :: rest).length then
        .error (.errors [(Error.ofKind .duplicate).about (front ++ [p])])
      else .ok v := by
  have hreach := reach_leaf_decided hfront hp rest
  rw [hread] at hreach
  rw [run_leaf_reached hreach, LeafState.finalize_value]
  exact apply_ite _ _ _ _

theorem run_leaf_passed (h : ∀ f ∈ fs, rules.passesOver mode f = true) :
    (Parser.leaf rules).run mode fs =
      match if mode.isStrict then none else rules.fallback with
      | some v => .ok v
      | none => .error (.errors [(Error.ofKind .missing).about fs]) := by
  rw [run_leaf_reached (reach_leaf_passed h), LeafState.finalize_nothing]
  cases mode with
  | strict => rfl
  | lenient => cases rules.fallback <;> rfl

/-- The first field that a leaf does not pass over decides. If it fails, so does the leaf, with the
errors of that field; if it gives a value, so does the leaf, unless it is strict and there are more
fields than one. The fields after it could as well be any others and be read by any other rules, as
nothing is read of them. If all fields are passed over, what stands for a missing field is the
value, if there is something and the leaf is lenient. -/
theorem run_leaf_decided (rules : LeafRules) (mode : Mode) (fs : List Field) :
    (∀ front p rest, fs = front ++ p :: rest → (∀ f ∈ front, rules.passesOver mode f = true) →
      rules.passesOver mode p = false →
      (∀ es, rules.read p = .error (.errors es) →
        (Parser.leaf rules).run mode fs =
          .error (.errors (es.map (Error.about (front ++ [p]))))) ∧
      (∀ v, rules.read p = .ok v →
        (Parser.leaf rules).run mode fs =
          if mode.isStrict && 1 < fs.length then
            .error (.errors [(Error.ofKind .duplicate).about (front ++ [p])])
          else .ok v) ∧
      ∀ (others : LeafRules) (gs : List Field), gs.length = rest.length →
        ((Parser.leaf rules).reach mode (front ++ [p]) >>= fun s =>
            gs.foldlM (Parser.leaf others).feed s) =
          (Parser.leaf rules).reach mode fs) ∧
    ((∀ f ∈ fs, rules.passesOver mode f = true) →
      (Parser.leaf rules).run mode fs =
        match if mode.isStrict then none else rules.fallback with
        | some v => .ok v
        | none => .error (.errors [(Error.ofKind .missing).about fs])) := by
  refine ⟨?_, run_leaf_passed⟩
  rintro front p rest rfl hfront hp
  refine ⟨fun es => run_leaf_failed hfront hp, fun v => run_leaf_taken hfront hp,
    fun others gs hgs => ?_⟩
  have hcount : front.length + 1 + gs.length = (front ++ p :: rest).length := by
    rw [hgs, List.length_append, List.length_cons]
    omega
  rw [foldlM_leaf_decided hfront hp, reach_leaf_decided hfront hp, hcount]

end Deciding

def yesField : Field := .value (.ofText "trained" "yes")

def trainedFields : List Field :=
  [.data ⟨.ofName (.ofString "trained"), .ofOctets [], none, none⟩, yesField,
    .value (.ofText "trained" "perhaps")]

def brokenRules : LeafRules :=
  ⟨fun _ => .error (.fault .unimplemented), fun _ => .error (.fault .unimplemented), none⟩

/-- A lenient leaf passes over the source, takes the first of the texts and never looks at the
second. A strict one, given the texts alone, does not look at the second either, but complains that
it is there. -/
theorem trained_decided :
    (∀ f ∈ trainedFields.take 1, Leaf.boolean.rules.passesOver .lenient f = true) ∧
      (∀ mode, Leaf.boolean.rules.passesOver mode yesField = false) ∧
      Leaf.boolean.rules.read yesField = .ok (.bool true) ∧
      (Parser.leaf Leaf.boolean.rules).run .lenient trainedFields = .ok (.bool true) ∧
      ((Parser.leaf Leaf.boolean.rules).reach .lenient (trainedFields.take 2) >>= fun s =>
          (Parser.leaf brokenRules).feed s (.value (.ofText "" ""))) =
        (Parser.leaf Leaf.boolean.rules).reach .lenient trainedFields ∧
      (Parser.leaf Leaf.boolean.rules).run .strict (trainedFields.drop 1) =
        .error (.errors [⟨.duplicate, .field, some (.name (.ofString "trained")), some "yes"⟩]) ∧
      (Parser.leaf Leaf.boolean.rules).run .lenient (trainedFields.take 1) =
        .ok (.bool false) := by
  have hpassed : ∀ f ∈ trainedFields.take 1,
      Leaf.boolean.rules.passesOver .lenient f = true := by
    intro f hf
    obtain rfl := List.mem_singleton.1 hf
    rfl
  have hyes (mode : Mode) : Leaf.boolean.rules.passesOver mode yesField = false := by
    cases mode <;> rfl
  have hread : Leaf.boolean.rules.read yesField = .ok (.bool true) := rfl
  obtain ⟨hlenient, -⟩ := run_leaf_decided Leaf.boolean.rules .lenient trainedFields
  obtain ⟨-, hvalue, hunread⟩ :=
    hlenient (trainedFields.take 1) yesField (trainedFields.drop 2) rfl hpassed (hyes .lenient)
  obtain ⟨hstrict, -⟩ := run_leaf_decided Leaf.boolean.rules .strict (trainedFields.drop 1)
  obtain ⟨-, htwice, -⟩ := hstrict [] yesField (trainedFields.drop 2) rfl nofun (hyes .strict)
  obtain ⟨-, hnone⟩ := run_leaf_decided Leaf.boolean.rules .lenient (trainedFields.take 1)
  exact ⟨hpassed, hyes, hread, hvalue _ hread, hunread brokenRules [_] rfl, htwice _ hread,
    hnone hpassed⟩

end WebForm
