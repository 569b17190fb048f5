import Mathlib
import WebForm.Proofs.Depth.Adequacy
import WebForm.Proofs.Names

/-!
# The value of a whole and those of its parts

The names of the fields do not get longer on the way to a part, so a parser that is deep enough for
a form is so for its parts. What a form makes of its fields can then be said without any depth: it
is made of what the forms of the parts make of theirs.
-/
namespace WebForm

variable {s : Schema} {d : Nat} {form : Form} {mode : Mode} {fs : List Field} {v : Value}

namespace Schema

theorem longestName_le {n : Nat} (h : ∀ f ∈ fs, f.name.source.length ≤ n) :
    longestName fs ≤ n := by
  have hfold (k : Nat) (hk : k ≤ n) :
      fs.foldl (fun n f => max n f.name.source.length) k ≤ n := by
    induction fs generalizing k with
    | nil => exact hk
    | cons f fs ih =>
      apply ih
      · exact fun g hg => h g (List.mem_cons_of_mem _ hg)
      · exact max_le hk (h f List.mem_cons_self)
  exact hfold 0 (Nat.zero_le n)

theorem longestName_shifted {gs : List Field} (h : ∀ g ∈ gs, ∃ f ∈ fs, f.shift = g) :
    longestName gs ≤ longestName fs := by
  apply longestName_le
  intro g hg
  obtain ⟨f, hf, rfl⟩ := h g hg
  rw [Field.name_shift, View.source_shift]
  exact length_le_longestName hf

theorem longestName_handed (q : Field → Bool) (fs : List Field) :
    longestName (handed q fs) ≤ longestName fs := by
  apply longestName_shifted
  intro g hg
  obtain ⟨f, hf, -, hs⟩ := mem_handed.1 hg
  exact ⟨f, hf, hs⟩

theorem longestName_keyFields (i : String) (fs : List Field) :
    longestName (keyFields i fs) ≤ longestName fs := by
  have hnil : longestName [.value (.nameless i)] = 0 := rfl
  apply longestName_le
  intro g hg
  rcases List.mem_append.1 hg with hg | hg
  · split_ifs at hg
    · obtain rfl := List.mem_singleton.1 hg
      exact Nat.zero_le _
    · cases hg
  · exact (length_le_longestName hg).trans (longestName_handed _ fs)

theorem depth_mono {m n : Nat} (h : m ≤ n) : s.depth m ≤ s.depth n := by
  unfold depth
  omega

/-- A parser that is deep enough for its fields makes the value that the schema's parser makes. -/
theorem run_iff_parse (h : s.depth (longestName fs) ≤ d) :
    (s.parser d form).run mode fs = .ok v ↔ s.parse form mode fs = .ok v := by
  constructor
  · exact parse_of_run
  · intro hv
    obtain ⟨st, hst, hf⟩ := Parser.run_eq_ok.1 hv
    have hlift := (follows_deeper h form).finalize (fun _ _ => trivial) hst
    rw [hf] at hlift
    exact lifts_eq_ok hlift

theorem parse_leaf {l : Leaf} : s.parse (.leaf l) mode fs = (Parser.leaf l.rules).run mode fs := by
  rw [parse, parser_leaf]

/-- What the form of a dictionary makes of its fields is made of what the forms of the keys and of
the values make of theirs. -/
theorem parse_dict_eq_ok {key value : Form} :
    s.parse (.dict key value) mode fs = .ok v ↔
      (∀ f ∈ fs, f.target.index? ≠ none) ∧
        ∃ kvs, List.Forall₂ (fun i kv => s.parse key mode (keyFields i fs) = .ok kv.1 ∧
          s.parse value mode (valueFields i fs) = .ok kv.2 ∧ kv.1.keyFault? = none)
          (entered fs) kvs ∧ .dict (setAll [] kvs) = v := by
  have hkey (i : String) : s.depth (longestName (keyFields i fs)) ≤ s.depth (longestName fs) :=
    depth_mono (longestName_keyFields i fs)
  have hvalue (i : String) : s.depth (longestName (valueFields i fs)) ≤ s.depth (longestName fs) :=
    depth_mono (longestName_handed _ fs)
  rw [parse, parser_dict, run_dict_eq_ok (parser_explains s _ key) (parser_explains s _ value)]
  simp only [run_iff_parse (hkey _), run_iff_parse (hvalue _)]

def Fills (s : Schema) (mode : Mode) (part : RecordPart) (gs : List Field) (slot : Slot Value) :
    Prop :=
  match part with
  | .constant _ x => slot = x
  | .member m =>
    (gs = [] ∧ m.fallback ≠ .unset ∧ slot = m.fallback) ∨
      ((gs = [] → m.fallback = .unset) ∧ ∃ w, s.parse m.form mode gs = .ok w ∧
        (gs ≠ [] → ∀ c ∈ m.checks, c.Passes w) ∧ slot = .own w)

theorem partRun_iff_fills {share : RecordPart × List Field} {slot : String × Slot Value}
    (h : s.depth (longestName share.2) ≤ d) :
    PartRun (s.parser d) mode share slot ↔
      slot.1 = share.1.attr ∧ s.Fills mode share.1 share.2 slot.2 := by
  rcases share with ⟨m | ⟨b, x⟩, gs⟩ <;> rcases slot with ⟨a, y⟩
  · by_cases hgs : gs = []
    · subst hgs
      simp only [PartRun, MemberRun, member_absent_eq_ok, Fills, RecordPart.attr, run_iff_parse h]
      simp only [ne_eq, not_true_eq_false, false_and, or_false, true_and, forall_const,
        IsEmpty.forall_iff]
      rw [or_comm]
    · simp only [PartRun, MemberRun, Fills, RecordPart.attr, run_iff_parse h]
      simp [hgs]
  · exact Iff.rfl

/-- What the form of a record makes of its fields is made of what its parts hold. -/
theorem parse_record_eq_ok {t : RecordType} :
    s.parse (.record t) mode fs = .ok v ↔
      ∃ ps, s.declaration t = .ok ps ∧
        (∀ f ∈ fs, isName ps f.name.keyText = true ∨ f.isIgnored mode = true) ∧
        ∃ slots, List.Forall₂ (fun share slot =>
          slot.1 = share.1.attr ∧ s.Fills mode share.1 share.2 slot.2) (shares ps fs) slots ∧
          s.objections t slots = [] ∧ .record t slots = v := by
  rw [← run_iff_parse (Nat.le_succ _), parser_succ,
    run_record_eq_ok fun form => parser_explains s _ form]
  have hshare (ps : List RecordPart) (slots : List (String × Slot Value)) :
      List.Forall₂ (PartRun (s.parser (s.depth (longestName fs))) mode) (shares ps fs) slots ↔
        List.Forall₂ (fun share slot =>
          slot.1 = share.1.attr ∧ s.Fills mode share.1 share.2 slot.2) (shares ps fs) slots := by
    have hpart (share : RecordPart × List Field) (hs : share ∈ shares ps fs)
        (slot : String × Slot Value) :=
      @partRun_iff_fills s _ mode share slot
        (depth_mono (longestName_shifted fun g hg => mem_of_share hs g hg))
    constructor
    · exact forall₂_imp_on fun share hs slot _ => (hpart share hs slot).1
    · exact forall₂_imp_on fun share hs slot _ => (hpart share hs slot).2
  simp only [hshare]

end Schema

end WebForm
