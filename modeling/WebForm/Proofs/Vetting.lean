import Mathlib
import WebForm.Proofs.Depth.Adequacy

/-!
# Which values are checked

Every value that comes from submitted fields passes all checks of its member before it gets into a
record. What a member holds that no field reached does not: it is the declared value or, if there
is none, the one that the form has without fields, and the checks are not asked.
-/
namespace WebForm

def Holds (s : Schema) (mode : Mode) : RecordPart × List Field → String × Slot Value → Prop
  | (.constant b x, _), slot => slot = (b, x)
  | (.member m, gs), (a, x) =>
    a = m.attr ∧
      (gs = [] ∧ m.fallback ≠ .unset ∧ x = m.fallback ∨
        gs = [] ∧ m.fallback = .unset ∧ (∃ w, x = .own w ∧ s.parse m.form mode [] = .ok w) ∨
        gs ≠ [] ∧ ∃ w, x = .own w ∧ ∀ c ∈ m.checks, c.Passes w)

variable {s : Schema} {mode : Mode} {fs : List Field} {v : Value}

theorem mem_insert {k w : Value} {items : List (Value × Value)} {kv : Value × Value}
    (h : kv ∈ Value.insert k w items) :
    (∃ e ∈ (k, w) :: items, e.1 = kv.1) ∧ ∃ e ∈ (k, w) :: items, e.2 = kv.2 := by
  induction items with
  | nil =>
    obtain rfl := List.mem_singleton.1 h
    exact ⟨⟨_, List.mem_cons_self, rfl⟩, _, List.mem_cons_self, rfl⟩
  | cons e items ih =>
    rcases e with ⟨k', w'⟩
    rw [Value.insert] at h
    split_ifs at h with hk
    · rcases List.mem_cons.1 h with rfl | h
      · exact ⟨⟨(k', w'), by simp, rfl⟩, (k, w), by simp, rfl⟩
      · have hkv : kv ∈ (k, w) :: (k', w') :: items := by simp [h]
        exact ⟨⟨kv, hkv, rfl⟩, kv, hkv, rfl⟩
    · rcases List.mem_cons.1 h with rfl | h
      · exact ⟨⟨(k', w'), by simp, rfl⟩, (k', w'), by simp, rfl⟩
      · obtain ⟨⟨e, he, hek⟩, e', he', hek'⟩ := ih h
        have hsub : ∀ e ∈ (k, w) :: items, e ∈ (k, w) :: (k', w') :: items := by
          intro e he
          rcases List.mem_cons.1 he with rfl | he <;> simp [*]
        exact ⟨⟨e, hsub e he, hek⟩, e', hsub e' he', hek'⟩

theorem mem_setAll {items kvs : List (Value × Value)} {kv : Value × Value}
    (h : kv ∈ setAll items kvs) :
    (∃ e ∈ items ++ kvs, e.1 = kv.1) ∧ ∃ e ∈ items ++ kvs, e.2 = kv.2 := by
  induction kvs generalizing items with
  | nil => exact ⟨⟨kv, by simpa [setAll] using h, rfl⟩, kv, by simpa [setAll] using h, rfl⟩
  | cons e kvs ih =>
    have hstep {π : Value × Value → Value}
        (hins : ∀ d ∈ Value.insert e.1 e.2 items, ∃ c ∈ e :: items, π c = π d)
        (hrest : ∃ d ∈ Value.insert e.1 e.2 items ++ kvs, π d = π kv) :
        ∃ d ∈ items ++ e :: kvs, π d = π kv := by
      obtain ⟨d, hd, hdk⟩ := hrest
      rcases List.mem_append.1 hd with hd | hd
      · obtain ⟨c, hc, hcd⟩ := hins d hd
        refine ⟨c, ?_, hcd.trans hdk⟩
        rcases List.mem_cons.1 hc with rfl | hc <;> simp [*]
      · exact ⟨d, by simp [hd], hdk⟩
    obtain ⟨hkey, hvalue⟩ := @ih (Value.insert e.1 e.2 items) h
    exact ⟨hstep (fun d hd => (mem_insert hd).1) hkey, hstep (fun d hd => (mem_insert hd).2) hvalue⟩

end WebForm
