import Mathlib
import WebForm.Parser.Session
import WebForm.Proofs.Depth.Needs

/-!
# When work on a form ends

Whatever fields a form gets, in the end it asks for what stands for members without fields. So there
is always an end if and only if no record comes to need itself.
-/
namespace WebForm

namespace Schema

open WebForm.Parser

variable {s : Schema} {form : Form} {mode : Mode} {f : Fault} {t : RecordType}

/-- The fault is raised by a value that can be no key, or by a check of a member. -/
def Blames (s : Schema) (f : Fault) : Prop :=
  (∃ v : Value, v.keyFault? = some f) ∨
    ∃ t ps m c v, s.declaration t = .ok ps ∧ .member m ∈ ps ∧ c ∈ m.checks ∧
      c.run v = .error (.fault f)

section Finalize

variable {fs : List Field} {st : (s.parserFor (longestName fs) form).State}

theorem finalize_ne_endless (h : s.Accepted) (hg : s.Grounded)
    (hst : (s.parserFor (longestName fs) form).reach mode fs = .ok st) :
    (s.parserFor (longestName fs) form).finalize st ≠ .error (.fault .endless) := by
  have hfollows : Follows IsEndless False (s.Enough (s.depth (longestName fs)) form)
      (s.parserFor (longestName fs) form) (s.parserFor (longestName fs) form) :=
    follows_shallower (fun t ht => declaration_ne_endless h ht)
      (fun form mode hrun => run_nil_ne_endless h hg form mode hrun) (s.floor_le_depth _) le_rfl form
  have hlift := hfollows.finalize (fun f hf => enough_depth (length_le_longestName hf)) hst
  rcases lifts_cases hlift with ⟨f, -, -, hslack⟩ | ⟨hsound, -⟩
  · exact hslack.elim
  · exact fun hn => hsound .endless hn rfl

def IsUnblamed (s : Schema) (f : Fault) : Prop := f ≠ .endless ∧ ¬s.Blames f

theorem follows_unblamed (h : s.Accepted) (d : Nat) (form : Form) (hform : s.Accepts form) :
    Follows s.IsUnblamed False (fun _ => True) (s.parser d form) (s.parser d form) := by
  have hkey (v : Value) (f : Fault) (hf : v.keyFault? = some f) : ¬s.IsUnblamed f :=
    fun hu => hu.2 (.inl ⟨v, hf⟩)
  induction d, form using Form.depth_induction with
  | leaf d l =>
    rw [parser_leaf]
    exact follows_leaf l.rules
  | list d item ih =>
    rw [parser_list]
    exact follows_list (fun _ _ => trivial) (ih hform)
  | dict d key value ihk ihv =>
    rw [parser_dict]
    obtain ⟨himpl, hrecords⟩ := hform
    obtain ⟨hk, hv⟩ := Bool.and_eq_true_iff.1 himpl
    refine follows_dict hkey (fun _ _ _ _ => ⟨trivial, trivial, trivial⟩) (ihk ⟨hk, ?_⟩)
      (ihv ⟨hv, ?_⟩)
    · exact fun t ht => hrecords t (List.mem_append_left _ ht)
    · exact fun t ht => hrecords t (List.mem_append_right _ ht)
  | pair d left right ihl ihr =>
    rw [parser_pair]
    obtain ⟨himpl, hrecords⟩ := hform
    obtain ⟨hl, hr⟩ := Bool.and_eq_true_iff.1 himpl
    refine follows_pair (fun _ _ _ => trivial) (fun _ _ _ => trivial) (ihl ⟨hl, ?_⟩)
      (ihr ⟨hr, ?_⟩)
    · exact fun t ht => hrecords t (List.mem_append_left _ ht)
    · exact fun t ht => hrecords t (List.mem_append_right _ ht)
  | zero t => exact follows_failing (.inr ⟨fun hu => hu.1 rfl, fun _ => rfl⟩)
  | succ d t ih =>
    obtain ⟨ps, hps, hmembers⟩ := declared h (hform.2 t (List.mem_singleton_self t))
    rw [parser_succ]
    refine @follows_record _ _ _ (fun _ _ => True) _ _ _ _ _ ?_ ?_ (fun _ _ _ _ _ _ => trivial) ?_
    · intro f hf
      rw [hps] at hf
      cases hf
    · exact fun qs m hqs hm c hc v f hrun hu => hu.2 (.inr ⟨t, qs, m, c, v, hqs, hm, hc, hrun⟩)
    · exact fun qs m hqs hm => ih m.form (accepts_member h hqs hm)
  | optional d item ih =>
    rw [parser_optional]
    exact follows_optional (ih hform)
  | result d item ih =>
    rw [parser_result]
    exact follows_result (ih hform)
  | forced d m item ih =>
    rw [parser_forced]
    exact follows_forced m (ih hform)
  | contextual d item ih =>
    rw [parser_contextual]
    exact follows_contextual (ih hform)
  | unimplemented d => cases hform.1

theorem finalize_blames (h : s.Accepted) (hform : s.Accepts form) {d : Nat}
    {st : (s.parser d form).State} (hst : (s.parser d form).reach mode fs = .ok st)
    (hf : (s.parser d form).finalize st = .error (.fault f)) : f = .endless ∨ s.Blames f := by
  have hlift := (follows_unblamed h d form hform).finalize (fun _ _ => trivial) hst
  rcases lifts_cases hlift with ⟨g, -, -, hslack⟩ | ⟨hsound, -⟩
  · exact hslack.elim
  · by_cases he : f = .endless
    · exact .inl he
    · exact .inr (by_contra fun hn => hsound f hf ⟨he, hn⟩)

end Finalize

/-- Whatever the form and the fields, the work has an end. -/
structure Ends (s : Schema) : Prop where
  /-- It is known whether there is a value for a form without fields. -/
  absent : ∀ form mode, s.Accepts form → ∃ r, s.absent form mode = .ok r
  /-- Fields make a value or errors, but for the faults of keys and checks. -/
  finalize : ∀ form mode fs st, s.Accepts form →
    (s.parserFor (longestName fs) form).reach mode fs = .ok st →
    ∀ f, (s.parserFor (longestName fs) form).finalize st = .error (.fault f) →
      f ≠ .endless ∧ s.Blames f

theorem ends_iff_grounded (h : s.Accepted) : s.Ends ↔ s.Grounded := by
  constructor
  · intro hends
    refine ⟨fun t => ?_⟩
    by_cases ht : t.index < s.records.length
    · have hform : s.Accepts (.record t) := by
        refine ⟨rfl, fun u hu => ?_⟩
        obtain rfl := List.mem_singleton.1 hu
        exact ht
      have hacc := (absent_eq_ok_iff h hform).1 (hends.absent (.record t) .lenient hform)
      exact hacc t (List.mem_singleton_self t)
    · exact acc_of_undeclared ht
  · intro hg
    refine ⟨fun form mode hform => ?_, fun form mode fs st hform hst f hf => ?_⟩
    · exact (absent_eq_ok_iff h hform).2 fun u _ => hg.apply u
    · have hne : f ≠ .endless := by
        rintro rfl
        exact finalize_ne_endless h hg hst hf
      exact ⟨hne, (finalize_blames h hform hst hf).resolve_left hne⟩

end Schema

def nodeType : RecordType := ⟨0, "Node", false⟩

def nodeSchema (fallback : Slot Value) : Schema :=
  { records := [.ok [.member ⟨"next", "next", [], .optional (.record nodeType), [], fallback⟩]] }

theorem nodeSchema_accepted (a : Slot Value) : (nodeSchema a).Accepted := by
  intro d hd
  obtain rfl := List.mem_singleton.1 hd
  refine ⟨_, rfl, fun m hm => ?_⟩
  obtain rfl := RecordPart.member.inj (List.mem_singleton.1 hm)
  refine ⟨rfl, fun t ht => ?_⟩
  obtain rfl := List.mem_singleton.1 ht
  exact Nat.zero_lt_one

theorem nodeSchema_needs {a : Slot Value} {t u : RecordType} (h : (nodeSchema a).Needs u t) :
    a = .unset := by
  obtain ⟨ps, m, hps, hm, hunset, -⟩ := h
  rcases t with ⟨_ | i, n, b⟩
  · obtain rfl := Except.ok.inj hps
    obtain rfl := RecordPart.member.inj (List.mem_singleton.1 hm)
    exact hunset
  · cases hps

/-- Without a declared value nodes go on for ever, and with one they do not. -/
theorem nodes_end_if_declared :
    ¬(nodeSchema .unset).Ends ∧ (nodeSchema (.shared .none)).Ends := by
  refine ⟨fun h => ?_, (Schema.ends_iff_grounded (nodeSchema_accepted _)).2 ⟨fun t => ?_⟩⟩
  · have hg := (Schema.ends_iff_grounded (nodeSchema_accepted .unset)).1 h
    have hneeds : (nodeSchema .unset).Needs nodeType nodeType :=
      ⟨_, _, rfl, List.mem_singleton_self _, rfl, List.mem_singleton_self _⟩
    exact hg.asymmetric _ _ hneeds hneeds
  · exact Acc.intro t fun u hu => absurd (nodeSchema_needs hu) nofun

example : (nodeSchema .unset).parse (.record nodeType) .lenient [] = .error (.fault .endless) := by
  cbv

end WebForm
