import Mathlib
import WebForm.Proofs.Depth.Adequacy

/-!
# Parts

A form has its fields parsed by the forms of its items, entries, sides and members. The errors of
such a part come out of the whole, and those that have a name come out as they are. Optional forms,
results and forms with a context keep the errors of their items to themselves.
-/
namespace WebForm

/-- A form and the fields that reach it. -/
structure Job where
  form : Form
  mode : Mode
  fields : List Field

/-- The second job is a part of the first, and its errors are errors of the first. -/
inductive Schema.Part (s : Schema) : Job → Job → Prop
  | item {item mode fs g} : g ∈ pieces fs → Part s ⟨.list item, mode, fs⟩ ⟨item, mode, g⟩
  | key {key value mode fs i} : i ∈ entered fs →
    Part s ⟨.dict key value, mode, fs⟩ ⟨key, mode, keyFields i fs⟩
  | value {key value mode fs i} : i ∈ entered fs →
    Part s ⟨.dict key value, mode, fs⟩ ⟨value, mode, valueFields i fs⟩
  | left {left right mode fs} :
    Part s ⟨.pair left right, mode, fs⟩ ⟨left, mode, handed (Field.isFor "0") fs⟩
  | right {left right mode fs} :
    Part s ⟨.pair left right, mode, fs⟩ ⟨right, mode, handed (Field.isFor "1") fs⟩
  | member {t ps m mode fs gs} : s.declaration t = .ok ps → (.member m, gs) ∈ shares ps fs →
    gs ≠ [] → Part s ⟨.record t, mode, fs⟩ ⟨m.form, mode, gs⟩
  | forced {m item mode fs} : Part s ⟨.forced m item, mode, fs⟩ ⟨item, m, fs⟩

variable {s : Schema} {J K : Job} {r : Except FormErrors Value} {e : FormError}

namespace Job

def run (s : Schema) (J : Job) : Outcome Value := s.parse J.form J.mode J.fields

def Reports (s : Schema) (J : Job) (e : FormError) : Prop :=
  ∃ es, J.run s = .error (.errors es) ∧ e ∈ es

/-- A parser of some depth ends in a value or in errors on the job. -/
def Ends (s : Schema) (J : Job) (r : Except FormErrors Value) : Prop :=
  ∃ d, (s.parser d J.form).Yields J.mode J.fields r

theorem ends_iff : J.Ends s r ↔ Outcome.caught (J.run s) = .ok r :=
  ⟨fun ⟨_, h⟩ => Schema.parse_of_yields h, fun h => ⟨_, h⟩⟩

theorem Ends.unique {r' : Except FormErrors Value} (h : J.Ends s r) (h' : J.Ends s r') : r = r' :=
  Except.ok.inj ((ends_iff.1 h).symm.trans (ends_iff.1 h'))

theorem Ends.reports (h : J.Ends s r) (he : e ∈ failures r) : J.Reports s e := by
  cases r with
  | ok v => cases he
  | error es => exact ⟨es, Outcome.caught_eq_errors.1 (ends_iff.1 h), he⟩

end Job

theorem mem_named_of_name {es : FormErrors} {p : Path} (he : e ∈ es) (hn : e.name ≠ none) :
    e ∈ es.named p := List.mem_map.2 ⟨e, he, Error.named_of_name p hn⟩

/-- If a whole does not end in a fault, its parts do not either, and it reports what they name. -/
theorem Schema.Part.ends (h : s.Part J K) (hJ : J.Ends s r) :
    ∃ x, K.Ends s x ∧ ∀ e ∈ failures x, e.name ≠ none → e ∈ failures r := by
  obtain ⟨d, hJ⟩ := hJ
  cases h with
  | item hg =>
    rw [parser_list, yields_list] at hJ
    obtain ⟨rs, hrs, rfl⟩ := hJ
    obtain ⟨x, hx, hy⟩ := forall₂_left hrs _ hg
    refine ⟨x, ⟨d, hy⟩, ?_⟩
    intro e he _
    rw [failures_verdict, errorsOf_eq]
    exact List.mem_flatMap.2 ⟨x, hx, he⟩
  | key hi =>
    rw [parser_dict, yields_dict] at hJ
    obtain ⟨ds, hds, rfl⟩ := hJ
    obtain ⟨x, hx, -, hk, -⟩ := forall₂_left hds _ hi
    refine ⟨x.key, ⟨d, hk⟩, ?_⟩
    intro e he hn
    rw [failures_verdict]
    refine List.mem_append_right _ (List.mem_flatMap.2 ⟨x, hx, ?_⟩)
    exact List.mem_append_left _ (mem_named_of_name he hn)
  | value hi =>
    rw [parser_dict, yields_dict] at hJ
    obtain ⟨ds, hds, rfl⟩ := hJ
    obtain ⟨x, hx, -, -, hv, -⟩ := forall₂_left hds _ hi
    refine ⟨x.value, ⟨d, hv⟩, ?_⟩
    intro e he hn
    rw [failures_verdict]
    refine List.mem_append_right _ (List.mem_flatMap.2 ⟨x, hx, ?_⟩)
    exact List.mem_append_right _ (mem_named_of_name he hn)
  | left =>
    rw [parser_pair, yields_pair] at hJ
    obtain ⟨x, y, hx, -, rfl⟩ := hJ
    refine ⟨x, ⟨d, hx⟩, ?_⟩
    intro e he _
    rw [failures_joinSides]
    exact List.mem_append_left _ (List.mem_append_right _ he)
  | right =>
    rw [parser_pair, yields_pair] at hJ
    obtain ⟨x, y, -, hy, rfl⟩ := hJ
    refine ⟨y, ⟨d, hy⟩, ?_⟩
    intro e he _
    rw [failures_joinSides]
    exact List.mem_append_right _ he
  | @member t ps m mode fs gs hd hm hne =>
    cases d with
    | zero => cases hJ
    | succ d =>
      rw [parser_succ, yields_record] at hJ
      obtain ⟨qs, hqs, cs, hcs, rfl⟩ := hJ
      obtain rfl := Except.ok.inj (hd.symm.trans hqs)
      obtain ⟨c, hc, hends⟩ := forall₂_left hcs _ hm
      rw [failures_recordVerdict]
      have hmem (e : FormError) (he : e ∈ c.errors) : e ∈ Collected.complaints
          (Collected.plus ⟨[], fs.flatMap (strayMember mode ps)⟩ (gathered cs)) (s.objections t) := by
        have he : e ∈ fs.flatMap (strayMember mode ps) ++ (gathered cs).errors :=
          List.mem_append_right _ (List.mem_flatMap.2 ⟨c, hc, he⟩)
        rwa [Collected.complaints_of_mem he]
      cases hends with
      | absent => exact absurd rfl hne
      | missing => exact absurd rfl hne
      | failed _ hy =>
        exact ⟨_, ⟨d, hy⟩, fun e he hn => hmem e (mem_named_of_name he hn)⟩
      | checked _ hy _ => exact ⟨_, ⟨d, hy⟩, fun e he => (List.not_mem_nil he).elim⟩
  | forced =>
    rw [parser_forced, yields_forced] at hJ
    exact ⟨r, ⟨d, hJ⟩, fun e he _ => he⟩

/-- What a part of a part names is reported by the whole, however deep the part. -/
theorem parts_end (h : Relation.TransGen s.Part J K) (hJ : J.Ends s r) :
    ∃ x, K.Ends s x ∧ ∀ e ∈ failures x, e.name ≠ none → e ∈ failures r := by
  induction h with
  | single h => exact h.ends hJ
  | tail _ h ih =>
    obtain ⟨x, hx, hup⟩ := ih
    obtain ⟨y, hy, hup'⟩ := h.ends hx
    exact ⟨y, hy, fun e he hn => hup e (hup' e he hn) hn⟩

end WebForm
