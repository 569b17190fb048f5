import Mathlib
import WebForm.Proofs.Context.Contents
import WebForm.Proofs.Run.Form

/-!
# Forms with a context

A form with a context ends as its item does, and never in errors: they are in the context, each of
them once and by name, next to all that was submitted.
-/
namespace WebForm

def Field.entry? : Field → Option (Name × String)
  | .value f => some (f.name.source, f.value)
  | .data _ => none

def Field.dataName? : Field → Option Name
  | .value _ => none
  | .data f => some f.name.source

namespace Status

theorem ok_max (s : Status) : ok.max s = s := by
  cases s <;> rfl

end Status

namespace Errors

variable {α : Type} {es : Errors α}

theorem worst_eq_status (hne : es ≠ []) : es.worst = es.status := by
  cases es with
  | nil => exact absurd rfl hne
  | cons e es => rw [worst, List.foldl_cons, Status.ok_max, status]

theorem perm_byName (es : Errors α) : es.byName.Perm es := by
  have hholds := (Context.Reached.empty.errors es).holds
  have hall : ((Context.empty : Context α).pushErrors es).allErrors = es.byName := hholds.allErrors
  rw [← hall]
  exact hholds.all

end Errors

variable {item : Parser} {mode : Mode} {fs : List Field} {r : Except FormErrors Value}

theorem noted_reached (fs : List Field) :
    (fs.foldl Parser.noted .empty).Reached
      ⟨fs.filterMap Field.entry?, fs.filterMap Field.dataName?, []⟩ := by
  induction fs using List.reverseRecOn with
  | nil => exact .empty
  | append_singleton fs f ih =>
    rw [List.foldl_concat, List.filterMap_append, List.filterMap_append]
    cases f with
    | value f =>
      have hdata : [Field.value f].filterMap Field.dataName? = [] := rfl
      rw [hdata, List.append_nil]
      exact ih.value f.name.source f.value
    | data f =>
      have hentry : [Field.data f].filterMap Field.entry? = [] := rfl
      rw [hentry, List.append_nil]
      exact ih.data f.name.source

theorem inContext_eq (c : FormContext) (r : Except FormErrors Value) :
    inContext c r = .contextual (orNone r) (c.pushErrors (failures r)) := by
  cases r <;> rfl

/-- A form with a context hands on the value of its item, and has its errors and all that was
submitted in the context. -/
theorem contextual_transparent (h : item.Yields mode fs r) (hr : r ≠ .error []) :
    ∃ c, (Parser.contextual item).run mode fs = .ok (.contextual (orNone r) c) ∧
      (∀ v, r = .ok v → c.allErrors = [] ∧ c.status = .ok) ∧
      (∀ es, r = .error es →
        c.allErrors = es.byName ∧ c.allErrors.Perm es ∧ c.status = es.status) ∧
      (∀ n, c.valuesOf n = ((fs.filterMap Field.entry?).filter (·.1.keys = n.keys)).map (·.2)) ∧
      c.dataFields.map Name.keys = ((fs.filterMap Field.dataName?).map Name.keys).eraseDups ∧
      ∀ n ∈ c.dataFields, (fs.filterMap Field.dataName?).find? (·.keys = n.keys) = some n := by
  have hrun : (Parser.contextual item).run mode fs =
      .ok (inContext (fs.foldl Parser.noted .empty) r) :=
    Parser.yields_value.1 (yields_contextual.2 ⟨r, h, rfl⟩)
  have hholds := ((noted_reached fs).errors (failures r)).holds
  have hall := hholds.allErrors
  have hstatus := hholds.status
  rw [inContext_eq] at hrun
  refine ⟨_, hrun, ?_, ?_, fun n => hholds.values n.keys, hholds.dataFields, hholds.spelling⟩
  · rintro v rfl
    exact ⟨hall, hstatus⟩
  · rintro es rfl
    have hne : es ≠ [] := fun hes => hr (by rw [hes])
    refine ⟨hall, ?_, hstatus.trans (Errors.worst_eq_status hne)⟩
    rw [hall]
    exact Errors.perm_byName es

def petFields : List Field :=
  let photo (name : String) : Field := .data ⟨.ofName (.ofString name), .ofOctets [], none, none⟩
  [.value (.ofText "[rex]" "old"), photo "photo.1", .value (.ofText "[fido]" "3"),
    .value (.ofText "rex" "4"), photo "[photo]1"]

def petErrors : FormErrors :=
  [⟨.unreadable .int (.integer .digit), .value, some (.name (.ofString "[rex]")), some "old"⟩,
    ⟨.missing, .field, some (.name (.ofString "[photo]1")), none⟩]

theorem pets_in_context :
    (Schema.empty.parser 0 (.dict .text .integer)).Yields .lenient petFields (.error petErrors) ∧
      ∃ c, (Parser.contextual (Schema.empty.parser 0 (.dict .text .integer))).run .lenient
          petFields = .ok (.contextual .none c) ∧
        c.allErrors = petErrors ∧ c.status = .unprocessable ∧
        c.valuesOf (.ofString "rex") = ["old", "4"] ∧
        c.dataFields = [.ofString "photo.1"] := by
  have hyields : (Schema.empty.parser 0 (.dict .text .integer)).Yields .lenient petFields
      (.error petErrors) := by
    unfold Parser.Yields
    cbv
  obtain ⟨c, hrun, -, herrors, hvalues, hdata, hspelling⟩ :=
    contextual_transparent hyields (by rintro ⟨⟩)
  obtain ⟨hall, -, hstatus⟩ := herrors petErrors rfl
  refine ⟨hyields, c, hrun, ?_, ?_, ?_, ?_⟩
  · rw [hall]
    cbv
  · rw [hstatus]
    cbv
  · rw [hvalues]
    cbv
  · have hkeys : c.dataFields.map Name.keys = [["photo", "1"]] := by
      rw [hdata]
      cbv
    obtain ⟨n, hn, hnkeys⟩ := List.map_eq_singleton_iff.1 hkeys
    have hfirst := hspelling n (by rw [hn]; exact List.mem_singleton_self n)
    rw [hnkeys] at hfirst
    have hphoto : (petFields.filterMap Field.dataName?).find? (·.keys = ["photo", "1"]) =
        some (.ofString "photo.1") := by
      cbv
    rw [hn, Option.some.inj (hphoto.symm.trans hfirst)]

end WebForm
