import Mathlib
import WebForm.Body.Parse
import WebForm.Proofs.Context.Transparent

/-!
# What a form makes of submissions

A session takes fields and errors in the order in which they come. Where none of them is a fault, it
ends as a run on the fields alone does, and a contextual form has the errors in its context besides.
-/
namespace WebForm

namespace Body

def fieldsOf (items : List Submission) : List Field :=
  items.filterMap fun
    | .field f => some f
    | _ => none

def Sound (items : List Submission) : Prop := ∀ f, .fault f ∉ items

section Parts

variable {items : List Submission}

theorem Sound.tail {i : Submission} (h : Sound (i :: items)) : Sound items :=
  fun f hf => h f (List.mem_cons_of_mem i hf)

theorem fieldsOf_append (items more : List Submission) :
    fieldsOf (items ++ more) = fieldsOf items ++ fieldsOf more := List.filterMap_append

theorem errorsOf_append (items more : List Submission) :
    errorsOf (items ++ more) = errorsOf items ++ errorsOf more := List.filterMap_append

theorem fieldsOf_errors (es : FormErrors) : fieldsOf (es.map .error) = [] := by
  simp [fieldsOf]

theorem errorsOf_errors (es : FormErrors) : errorsOf (es.map .error) = es := by
  simp [errorsOf, List.filterMap_map]

theorem errorsOf_fields (fs : List Field) : errorsOf (fs.map .field) = [] := by
  simp [errorsOf]

theorem filter_isError (h : Sound items) :
    items.filter (!isError ·) = (fieldsOf items).map .field := by
  induction items with
  | nil => rfl
  | cons i items ih =>
    have ih := ih h.tail
    cases i with
    | field f => exact congrArg (Submission.field f :: ·) ih
    | error e => exact ih
    | fault f => exact absurd List.mem_cons_self (h f)

theorem longestName_fieldsOf (items : List Submission) :
    Submission.longestName items = Schema.longestName (fieldsOf items) := by
  have hfold (n : Nat) : items.foldl (fun n i => max n i.nameLength) n =
      (fieldsOf items).foldl (fun n f => max n f.name.source.length) n := by
    induction items generalizing n with
    | nil => rfl
    | cons i items ih =>
      cases i with
      | field f => exact ih _
      | error e | fault f =>
        rw [List.foldl_cons, ih]
        exact congrArg (List.foldl _ · (fieldsOf items)) (Nat.max_zero n)
  exact hfold 0

end Parts

end Body

namespace Parser

variable {p : Parser} {mode : Mode}

def take (p : Parser) (s : p.State) : Submission → Except Fault p.State
  | .field f => p.feed s f
  | .error e => .ok (p.report s e)
  | .fault f => .error f

def takeAll (p : Parser) (mode : Mode) (items : List Submission) : Outcome Value :=
  Outcome.ofFault (p.init mode >>= fun s => items.foldlM p.take s) >>= p.finalize

theorem takeAll_fields (fs : List Field) : p.takeAll mode (fs.map .field) = p.run mode fs := by
  rw [run_eq, takeAll, reach]
  simp only [List.foldlM_map]
  rfl

end Parser

namespace Session

variable {p : Parser}

theorem result_push (s : Session p) (i : Submission) :
    (s.push i).result = (p.take s.state i).map fun t => { s with state := t } := by
  cases i with
  | field f => exact Step.result_map _ _
  | error e => rfl
  | fault f => rfl

theorem result_pushAll (s : Session p) (items : List Submission) :
    (s.pushAll items).result =
      (items.foldlM p.take s.state).map fun t => { s with state := t } := by
  have hfold (r : Step (Session p)) :
      (items.foldl (fun r i => r.andThen (·.push i)) r).result =
        r.result >>= fun s => (items.foldlM p.take s.state).map fun t => { s with state := t } := by
    induction items generalizing r with
    | nil =>
      rw [List.foldl_nil]
      cases r.result <;> rfl
    | cons i items ih =>
      rw [List.foldl_cons, ih, Step.result_andThen, bind_assoc]
      refine bind_congr fun s => ?_
      rw [result_push, List.foldlM_cons]
      cases p.take s.state i <;> rfl
  exact hfold (.done s)

theorem takeAll_eq (p : Parser) (mode : Mode) (items : List Submission) :
    (Outcome.ofFault (start p mode) >>= fun s =>
      Outcome.ofFault (s.pushAll items).result >>= fun t => t.finalize.2) =
        p.takeAll mode items := by
  unfold start Parser.takeAll
  cases p.init mode with
  | error f => rfl
  | ok t =>
    simp only [result_pushAll]
    change Outcome.ofFault ((items.foldlM p.take t).map _) >>= _ =
      Outcome.ofFault (items.foldlM p.take t) >>= _
    cases items.foldlM p.take t <;> rfl

end Session

namespace Body

variable {s : Schema} {form item : Form} {mode : Mode} {items : List Submission} {p : Parser}

theorem parseAll_eq :
    s.parseAll form mode items =
      (s.parser (s.depth (Schema.longestName (fieldsOf items))) form).takeAll mode items := by
  rw [← longestName_fieldsOf]
  refine Eq.trans ?_ (Session.takeAll_eq (s.parserFor _ form) mode items)
  unfold Schema.parseAll
  congr 1
  funext session
  rcases session.pushAll items with ⟨t, _ | f⟩ <;> rfl

theorem parseAll_fields (fs : List Field) :
    s.parseAll form mode (fs.map .field) = s.parse form mode fs := by
  rw [parseAll_eq, Parser.takeAll_fields, Schema.parse]
  simp [fieldsOf, List.filterMap_map]

theorem parseBody_fields (fs : List Field) :
    s.parseBody form mode (fs.map .field) = s.parse form mode fs := by
  rw [Schema.parseBody, errorsOf_fields, parseAll_fields]
  split_ifs <;> rfl

/-- A form without a context fails with the errors among the submissions, and then with those that
it has of its own. -/
theorem parseBody_of_errors (hform : form.isContextual = false) (hsound : Sound items)
    (hes : errorsOf items ≠ []) {own : Except FormErrors Value}
    (hown : Outcome.caught (s.parse form mode (fieldsOf items)) = .ok own) :
    s.parseBody form mode items = .error (.errors (errorsOf items ++ failures own)) := by
  rw [Schema.parseBody, hform, if_neg Bool.false_ne_true, filter_isError hsound, parseAll_fields,
    Outcome.caught_eq_ok.1 hown]
  cases own with
  | ok v =>
    rw [failures, List.append_nil]
    split
    · contradiction
    · rfl
  | error more =>
    split
    · contradiction
    · rfl

def recorded (c : FormContext) : Submission → FormContext
  | .field f => Parser.noted c f
  | .error e => c.pushError e
  | .fault _ => c

theorem recorded_reached (items : List Submission) :
    (items.foldl recorded .empty).Reached
      ⟨(fieldsOf items).filterMap Field.entry?, (fieldsOf items).filterMap Field.dataName?,
        errorsOf items⟩ := by
  induction items using List.reverseRecOn with
  | nil => exact .empty
  | append_singleton items i ih =>
    rw [List.foldl_concat, fieldsOf_append, errorsOf_append, List.filterMap_append,
      List.filterMap_append]
    rcases i with (f | f) | e | f
    · simpa [fieldsOf, errorsOf, recorded, Parser.noted, Field.entry?, Field.dataName?,
        List.filterMap_cons] using ih.value f.name.source f.value
    · simpa [fieldsOf, errorsOf, recorded, Parser.noted, Field.entry?, Field.dataName?,
        List.filterMap_cons] using ih.data f.name.source
    · simpa [fieldsOf, errorsOf, recorded] using ih.error e
    · simpa [fieldsOf, errorsOf, recorded] using ih

theorem foldlM_take_contextual (hsound : Sound items) (t : p.State) (c : FormContext) :
    items.foldlM (Parser.contextual p).take (t, c) =
      ((fieldsOf items).foldlM p.feed t).map fun u => (u, items.foldl recorded c) := by
  induction items generalizing t c with
  | nil => rfl
  | cons i items ih =>
    have ih := ih hsound.tail
    rw [List.foldlM_cons, List.foldl_cons]
    cases i with
    | field f =>
      have hfeed : (Parser.contextual p).take (t, c) (.field f) =
          (p.feed t f).map fun u => (u, Parser.noted c f) := Step.result_map _ _
      change _ = ((p.feed t f >>= fun u => (fieldsOf items).foldlM p.feed u).map _)
      rw [hfeed]
      cases p.feed t f with
      | error g => rfl
      | ok u => exact ih u _
    | error e => exact ih t _
    | fault f => exact absurd List.mem_cons_self (hsound f)

theorem takeAll_contextual (hsound : Sound items) :
    (Parser.contextual p).takeAll mode items =
      Outcome.ofFault (Outcome.caught (p.run mode (fieldsOf items))) >>= fun r =>
        .ok (inContext (items.foldl recorded .empty) r) := by
  have hinit : (Parser.contextual p).init mode = (p.init mode).map fun t => (t, .empty) := rfl
  rw [Parser.takeAll, Parser.caught_run, Parser.reach, hinit]
  cases p.init mode with
  | error f => rfl
  | ok t =>
    change Outcome.ofFault (items.foldlM (Parser.contextual p).take (t, .empty)) >>= _ =
      Outcome.ofFault ((fieldsOf items).foldlM p.feed t >>= _) >>= _
    rw [foldlM_take_contextual hsound]
    cases (fieldsOf items).foldlM p.feed t with
    | error f => rfl
    | ok u =>
      change Outcome.ofFault (Outcome.caught (p.finalize u)) >>= _ =
        Outcome.ofFault (Outcome.caught (p.finalize u)) >>= _
      rcases Outcome.caught (p.finalize u) with f | es | v <;> rfl

/-- A form with a context makes of the submissions what it makes of the fields among them, but for
their errors, each of which comes once into the context. -/
theorem parseBody_contextual (hsound : Sound items) {own : Except FormErrors Value}
    (hown : Outcome.caught (s.parse (.contextual item) mode (fieldsOf items)) = .ok own) :
    ∃ v c c', own = .ok (.contextual v c') ∧
      s.parseBody (.contextual item) mode items = .ok (.contextual v c) ∧
      c.allErrors.Perm (errorsOf items ++ c'.allErrors) := by
  rw [Schema.parse, Schema.parser_contextual] at hown
  obtain ⟨r, hr, rfl⟩ := yields_contextual.1 hown
  have hr : Outcome.caught _ = _ := hr
  refine ⟨orNone r, (items.foldl recorded .empty).pushErrors (failures r), _,
    congrArg _ (inContext_eq _ r), ?_, ?_⟩
  · rw [Schema.parseBody, Form.isContextual, if_pos rfl, parseAll_eq, Schema.parser_contextual,
      takeAll_contextual hsound, hr, ← inContext_eq]
    rfl
  · have hall := ((recorded_reached items).errors (failures r)).holds.all
    have hown := ((noted_reached (fieldsOf items)).errors (failures r)).holds.all
    exact hall.trans (hown.symm.append_left _)

end Body

end WebForm
