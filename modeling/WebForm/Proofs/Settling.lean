import Mathlib
import WebForm.Parser.Session
import WebForm.Proofs.Breaking
import WebForm.Proofs.Depth.Needs
import WebForm.Proofs.Run.Faults

/-!
# When work on a form settles

Work on a form settles if it ends in a value, or in errors that say why there is none. Where records
do not come back to themselves and checks fit their values, only what breaks the work keeps it from
that.
-/
namespace WebForm

variable {s : Schema} {J K : Job} {form : Form} {mode : Mode} {fs : List Field} {f : Fault}
  {r : Except FormErrors Value} {d : Nat}

section Leaf

variable {l : Leaf} {g : Field}

theorem readLimited_no_fault {f : DataField} {limit : Option Int} {e : Fault} :
    f.readLimited limit ≠ .error (.fault e) := by
  unfold DataField.readLimited
  cases limit with
  | none => exact nofun
  | some n =>
    simp only
    split_ifs <;> exact nofun

theorem ofText_no_fault {ε : Type} {kind : ε → Kind Value} {read : String → Except ε Value} :
    (LeafRules.ofText kind read).read g ≠ .error (.fault f) := by
  cases g with
  | value g =>
    change (read g.value).mapError _ ≠ _
    cases read g.value <;> exact nofun
  | data g => exact nofun

theorem upload_of_fault (h : l.rules.read g = .error (.fault f)) : ∃ r, l = .upload r := by
  cases l with
  | upload r => exact ⟨r, rfl⟩
  | text limit =>
    cases g with
    | value g => cases h
    | data g =>
      change (g.readLimited limit >>= _) = _ at h
      cases hr : g.readLimited limit with
      | error e =>
        rw [hr, bind_error] at h
        exact absurd (hr.trans (congrArg _ (Except.error.inj h))) readLimited_no_fault
      | ok bs =>
        rw [hr, bind_ok] at h
        split at h <;> cases h
  | octets limit =>
    cases g with
    | value g => cases h
    | data g => exact absurd (map_eq_error.1 h) readLimited_no_fault
  | boolean =>
    rw [read_boolean] at h
    exact absurd h ofText_no_fault
  | nothing => cases g <;> cases h
  | integer signed bits | float | address version | date | time | dateTime | choice e =>
    rw [Leaf.rules] at h
    exact absurd h ofText_no_fault

theorem LeafRules.settle_taken {rules : LeafRules} (x : Except FormErrors Value) :
    fs.foldlM (rules.settle mode) (some x) = .ok (some x) := by
  induction fs with
  | nil => rfl
  | cons g fs ih => exact ih

theorem LeafRules.settle_ok {rules : LeafRules}
    (h : ∀ g ∈ fs, ∀ f, rules.read g ≠ .error (.fault f)) :
    ∃ t, fs.foldlM (rules.settle mode) none = .ok t := by
  induction fs with
  | nil => exact ⟨none, rfl⟩
  | cons g fs ih =>
    rw [List.foldlM_cons, LeafRules.settle]
    rcases hr : rules.read g with (es | f) | v
    · rw [takenOf, bind_ok]
      split_ifs
      · exact ih fun g hg => h g (List.mem_cons_of_mem _ hg)
      · exact ⟨_, LeafRules.settle_taken _⟩
    · exact absurd hr (h g List.mem_cons_self f)
    · exact ⟨_, LeafRules.settle_taken _⟩

/-- Of leaves only uploads raise faults, for what they cannot store. -/
theorem leaf_raises (h : (Parser.leaf l.rules).Raises mode fs f) :
    ∃ g, s.Breaks ⟨.leaf l, mode, fs⟩ g := by
  have hnot {t : Option (Except FormErrors Value)}
      (ht : fs.foldlM (l.rules.settle mode) none = .ok t) : False := by
    rw [← reach_leaf_taken] at ht
    obtain ⟨st, hst, -⟩ := map_eq_ok.1 ht
    rw [Parser.Raises, Parser.run_of_reach hst] at h
    exact Outcome.ofErrors_ne_fault h
  by_cases hl : ∃ r, l = .upload r
  · obtain ⟨r, rfl⟩ := hl
    cases fs with
    | nil => exact (hnot rfl).elim
    | cons g fs =>
      rw [List.foldlM_cons, LeafRules.settle] at hnot
      rcases hr : (Leaf.upload r).rules.read g with (es | f) | v <;> rw [hr] at hnot
      · obtain ⟨kind, rfl, hkind⟩ := upload_reason hr
        have hkept : LeafState.refused (.ofKind kind) = false := hkind
        rw [takenOf, hkept, Bool.and_false, if_neg Bool.false_ne_true, bind_ok] at hnot
        exact (hnot (LeafRules.settle_taken _)).elim
      · exact ⟨f, .upload hr⟩
      · exact (hnot (LeafRules.settle_taken _)).elim
  · obtain ⟨t, ht⟩ := LeafRules.settle_ok fun g _ f hf => hl (upload_of_fault hf)
    exact (hnot ht).elim

end Leaf

namespace Schema

/-- Every fault of work on the form at this depth is an excused one, or something breaks the work. -/
def Traces (s : Schema) (excused : Fault → Prop) (d : Nat) (form : Form) : Prop :=
  ∀ mode fs f, (s.parser d form).Raises mode fs f → excused f ∨ ∃ g, s.Breaks ⟨form, mode, fs⟩ g

/-- The checks of members come to a verdict on whatever their forms make. -/
def Vets (s : Schema) : Prop :=
  ∀ t ps m c mode gs v f, s.declaration t = .ok ps → .member m ∈ ps → c ∈ m.checks →
    s.parse m.form mode gs = .ok v → c.run v ≠ .error (.fault f)

/-- No record that the form leads to comes back to itself. -/
def LoopFree (s : Schema) (form : Form) : Prop :=
  ∀ t ∈ form.records, ∀ u, Relation.ReflTransGen s.Refers t u → ¬Relation.TransGen s.Refers u u

section Traces

variable {excused : Fault → Prop} {item key value left right : Form} {t : RecordType}
  {ps : List RecordPart}

theorem Breaks.carry (hJK : s.Within J K) (h : excused f ∨ ∃ g, s.Breaks K g) :
    excused f ∨ ∃ g, s.Breaks J g := h.imp_right fun ⟨g, hg⟩ => ⟨g, .within hJK hg⟩

theorem traces_dict (hk : s.Traces excused d key) (hv : s.Traces excused d value) :
    s.Traces excused d (.dict key value) := by
  intro mode fs f h
  rw [parser_dict] at h
  obtain ⟨i, hi, h | h | ⟨k, v, hkey, hvalue, hf⟩⟩ := dict_raises h
  · exact Breaks.carry (.part (.key hi)) (hk _ _ _ h)
  · exact Breaks.carry (.part (.value hi)) (hv _ _ _ h)
  · exact .inr ⟨f, .key hi (parse_of_run hkey) (parse_of_run hvalue) hf⟩

theorem traces_pair (hl : s.Traces excused d left) (hr : s.Traces excused d right) :
    s.Traces excused d (.pair left right) := by
  intro mode fs f h
  rw [parser_pair] at h
  rcases pair_raises h with h | h
  · exact Breaks.carry (.part .left) (hl _ _ _ h)
  · exact Breaks.carry (.part .right) (hr _ _ _ h)

theorem traces_record (hps : s.declaration t = .ok ps) (hvets : s.Vets)
    (h : ∀ m, .member m ∈ ps → s.Traces excused d m.form) :
    s.Traces excused (d + 1) (.record t) := by
  intro mode fs f hr
  rw [parser_succ, hps] at hr
  rcases record_raises hr with hnone | ⟨qs, hqs, m, gs, hm, hr⟩
  · cases hnone
  obtain rfl := Except.ok.inj hqs
  have hpart := share_mem hm
  rcases hr with hr | ⟨v, hv, hcheck⟩
  · refine (h m hpart _ _ _ hr).imp_right ?_
    rintro ⟨g, hg⟩
    exact ⟨g, .within (.part (.member hps hm hg.fields_ne_nil)) hg⟩
  · obtain ⟨c, hc, hrun⟩ := check_eq_error hcheck
    exact absurd hrun (hvets t ps m c mode gs v f hps hpart hc (parse_of_run hv))

/-- The faults of work on a form are those of work on the records in it. -/
theorem traces_form (himpl : form.isImplemented = true)
    (h : ∀ t ∈ form.records, s.Traces excused d (.record t)) : s.Traces excused d form := by
  induction form with
  | leaf l =>
    intro mode fs f hr
    rw [parser_leaf] at hr
    exact .inr (leaf_raises hr)
  | list item ih =>
    intro mode fs f hr
    rw [parser_list] at hr
    obtain ⟨g, hg, hr⟩ := list_raises hr
    exact Breaks.carry (.part (.item hg)) (ih himpl h _ _ _ hr)
  | dict key value ihk ihv =>
    obtain ⟨hk, hv⟩ := Bool.and_eq_true_iff.1 himpl
    exact traces_dict (ihk hk fun t ht => h t (List.mem_append_left _ ht))
      (ihv hv fun t ht => h t (List.mem_append_right _ ht))
  | pair left right ihl ihr =>
    obtain ⟨hl, hr⟩ := Bool.and_eq_true_iff.1 himpl
    exact traces_pair (ihl hl fun t ht => h t (List.mem_append_left _ ht))
      (ihr hr fun t ht => h t (List.mem_append_right _ ht))
  | record t => exact h t (List.mem_singleton_self t)
  | optional item ih =>
    intro mode fs f hr
    rw [parser_optional] at hr
    exact Breaks.carry (.caught .optional) (ih himpl h _ _ _ (optional_raises hr))
  | result item ih =>
    intro mode fs f hr
    rw [parser_result] at hr
    exact Breaks.carry (.caught .result) (ih himpl h _ _ _ (result_raises hr))
  | forced m item ih =>
    intro mode fs f hr
    rw [parser_forced, Parser.Raises, run_forced] at hr
    exact Breaks.carry (.part .forced) (ih himpl h _ _ _ hr)
  | contextual item ih =>
    intro mode fs f hr
    rw [parser_contextual] at hr
    exact Breaks.carry (.caught .contextual) (ih himpl h _ _ _ (contextual_raises hr))
  | unimplemented => cases himpl

/-- Work that nothing breaks has no fault but going on for ever. -/
theorem traces_endless (h : s.Accepted) (hvets : s.Vets) (d : Nat) (form : Form)
    (hform : s.Accepts form) : s.Traces (· = .endless) d form := by
  induction d generalizing form with
  | zero => exact traces_form hform.1 fun t _ mode fs f hr => .inl (Parser.failing_raises hr)
  | succ d ih =>
    refine traces_form hform.1 fun t ht => ?_
    obtain ⟨ps, hps, hforms⟩ := declared h (hform.2 t ht)
    exact traces_record hps hvets fun m hm => ih m.form (hforms m hm)

end Traces

/-- Nothing but going on for ever and what breaks a job keeps it from an end. -/
theorem job_ends_iff (h : s.Accepted) (hform : s.Accepts J.form) (hvets : s.Vets) :
    (∃ r, J.Ends s r) ↔ J.run s ≠ .error (.fault .endless) ∧ ∀ f, ¬s.Breaks J f := by
  constructor
  · rintro ⟨r, hr⟩
    refine ⟨fun hrun => ?_, fun f hf => hf.not_ends r hr⟩
    have hends := Outcome.caught_eq_ok.1 (Job.ends_iff.1 hr)
    rw [hrun] at hends
    exact Outcome.ofErrors_ne_fault hends.symm
  · rintro ⟨hendless, hb⟩
    cases hr : Outcome.caught (J.run s) with
    | ok r => exact ⟨r, Job.ends_iff.2 hr⟩
    | error f =>
      have hrun := Outcome.caught_eq_error.1 hr
      rcases traces_endless h hvets _ J.form hform _ _ _ hrun with rfl | ⟨g, hg⟩
      · exact absurd hrun hendless
      · exact absurd hg (hb g)

section Loops

variable {t : RecordType}

def mentioned (s : Schema) : List RecordType :=
  s.records.flatMap fun
    | .ok ps => ps.flatMap fun
      | .member m => m.form.records
      | .constant _ _ => []
    | .error _ => []

theorem mem_mentioned {u : RecordType} (h : s.Refers t u) : u ∈ s.mentioned := by
  obtain ⟨ps, m, hps, hm, hu⟩ := h
  have hd := List.mem_of_getElem? (declaration_eq_ok.1 hps)
  exact List.mem_flatMap.2 ⟨_, hd, List.mem_flatMap.2 ⟨_, hm, hu⟩⟩

theorem finite_refers (s : Schema) (t : RecordType) : {u | s.Refers t u}.Finite :=
  s.mentioned.finite_toSet.subset fun _ hu => mem_mentioned hu

theorem finite_reached (s : Schema) (t : RecordType) :
    {u | Relation.ReflTransGen s.Refers t u}.Finite := by
  refine (s.mentioned.finite_toSet.insert t).subset fun u hu => ?_
  rcases Relation.ReflTransGen.cases_tail hu with rfl | ⟨v, -, hv⟩
  · exact Set.mem_insert _ _
  · exact Set.mem_insert_of_mem _ (mem_mentioned hv)

/-- Where no record comes back to itself, the records lead to an end. -/
theorem acc_of_loopFree (h : s.LoopFree form) (ht : t ∈ form.records) :
    Acc (fun u t => s.Refers t u) t := by
  have := (finite_reached s t).to_subtype
  let below (u v : {u | Relation.ReflTransGen s.Refers t u}) : Prop :=
    Relation.TransGen s.Refers v.1 u.1
  have htrans : IsTrans _ below := ⟨fun u v w huv hvw => hvw.trans huv⟩
  have hirrefl : Std.Irrefl below := ⟨fun u => h t ht u.1 u.2⟩
  have hwf : WellFounded below := Finite.wellFounded_of_trans_of_irrefl below
  have hacc (u : {u | Relation.ReflTransGen s.Refers t u}) : Acc (fun u t => s.Refers t u) u.1 := by
    induction u using hwf.induction with
    | _ u ih => exact Acc.intro _ fun v hv => ih ⟨v, u.2.tail hv⟩ (.single hv)
  exact hacc ⟨t, .refl⟩

theorem traces_deep (h : s.Accepted) (hvets : s.Vets) (hacc : Acc (fun u t => s.Refers t u) t)
    (ht : t.index < s.records.length) :
    ∀ᶠ d in Filter.atTop, s.Traces (fun _ => False) d (.record t) := by
  induction hacc with
  | intro t _ ih =>
    obtain ⟨ps, hps, hforms⟩ := declared h ht
    have hrefers : ∀ᶠ d in Filter.atTop, ∀ u ∈ {u | s.Refers t u},
        s.Traces (fun _ => False) d (.record u) := by
      refine (Filter.eventually_all_finite (finite_refers s t)).2 fun u hu => ih u hu ?_
      obtain ⟨qs, m, hqs, hm, hum⟩ := hu
      exact (accepts_member h hqs hm).2 u hum
    obtain ⟨e, he⟩ := Filter.eventually_atTop.1 hrefers
    refine Filter.eventually_atTop.2 ⟨e + 1, fun d hd => ?_⟩
    obtain ⟨d, rfl⟩ : ∃ d', d = d' + 1 := ⟨d - 1, by omega⟩
    refine traces_record hps hvets fun m hm => ?_
    refine traces_form (hforms m hm).1 fun u hu => he d (by omega) u ?_
    exact ⟨ps, m, hps, hm, hu⟩

/-- Where no record comes back to itself, only what breaks the work raises faults at depths that are
great enough. -/
theorem traces_eventually (h : s.Accepted) (hform : s.Accepts form) (hvets : s.Vets)
    (hloop : s.LoopFree form) : ∀ᶠ d in Filter.atTop, s.Traces (fun _ => False) d form := by
  have hrecords : ∀ᶠ d in Filter.atTop, ∀ t ∈ {t | t ∈ form.records},
      s.Traces (fun _ => False) d (.record t) :=
    (Filter.eventually_all_finite form.records.finite_toSet).2 fun t ht =>
      traces_deep h hvets (acc_of_loopFree hloop ht) (hform.2 t ht)
  exact hrecords.mono fun d hd => traces_form hform.1 hd

theorem Traces.yields (h : s.Traces (fun _ => False) d form)
    (hb : ∀ f, ¬s.Breaks ⟨form, mode, fs⟩ f) : ∃ r, (s.parser d form).Yields mode fs r := by
  cases hr : Outcome.caught ((s.parser d form).run mode fs) with
  | ok r => exact ⟨r, hr⟩
  | error f =>
    rcases h mode fs f (Outcome.caught_eq_error.1 hr) with hf | ⟨g, hg⟩
    · exact hf.elim
    · exact absurd hg (hb g)

end Loops

/-- If no record comes back to itself and all checks come to a verdict, all fields can be pushed and
the first finalization gives a value or some errors, always a value if the form catches errors,
unless a key or an upload breaks the work. -/
theorem settles_iff (h : s.Accepted) (hform : s.Accepts form) (hvets : s.Vets)
    (hloop : s.LoopFree form) :
    (∃ st r, (s.parserFor (longestName fs) form).reach mode fs = .ok st ∧
      Outcome.caught ((s.parserFor (longestName fs) form).finalize st) = .ok r ∧
      r ≠ .error [] ∧ ∀ item, form.Catches item → ∃ v, r = .ok v) ↔
    ∀ f, ¬s.Breaks ⟨form, mode, fs⟩ f := by
  constructor
  · rintro ⟨st, r, hst, hr, -⟩ f hf
    exact hf.not_ends r ⟨_, Parser.yields_iff.2 ⟨st, hst, hr⟩⟩
  · intro hb
    obtain ⟨d, hd⟩ := (traces_eventually h hform hvets hloop).exists
    obtain ⟨r, hr⟩ := hd.yields hb
    have hyields : (s.parserFor (longestName fs) form).Yields mode fs r := parse_of_yields hr
    obtain ⟨st, hst, hfinal⟩ := Parser.yields_iff.1 hyields
    refine ⟨st, r, hst, hfinal, ?_, fun item hitem => ?_⟩
    · rintro rfl
      exact parser_explains s _ form mode fs (Parser.yields_errors.1 hyields)
    · obtain ⟨g, hg⟩ := hitem.yields s d mode fs
      obtain ⟨x, -, hx⟩ := (hg r).1 hr
      exact ⟨_, hx⟩

theorem empty_accepted : empty.Accepted := nofun

theorem empty_vets : empty.Vets := by
  intro t ps m c mode gs v f hps
  cases hps

end Schema

def houndType : RecordType := ⟨0, "Hound", false⟩

def houndSchema : Schema :=
  { records := [.ok [.member ⟨"age", "age", [], .integer, [.differs (.int 0)], .unset⟩]] }

def kennelForm (key : Form) : Form := .optional (.dict key (.record houndType))

def kennelFields : List Field := [.value (.ofText "[rex].age" "3")]

theorem houndSchema_member {t : RecordType} {ps : List RecordPart} {m : Member}
    (hps : houndSchema.declaration t = .ok ps) (hm : .member m ∈ ps) :
    m = ⟨"age", "age", [], .integer, [.differs (.int 0)], .unset⟩ := by
  rcases t with ⟨_ | i, n, b⟩
  · obtain rfl := Except.ok.inj hps
    exact RecordPart.member.inj (List.mem_singleton.1 hm)
  · cases hps

theorem houndSchema_accepted : houndSchema.Accepted := by
  intro d hd
  obtain rfl := List.mem_singleton.1 hd
  refine ⟨_, rfl, fun m hm => ?_⟩
  obtain rfl := RecordPart.member.inj (List.mem_singleton.1 hm)
  exact ⟨rfl, nofun⟩

theorem houndSchema_vets : houndSchema.Vets := by
  intro t ps m c mode gs v f hps hm hc _ hrun
  obtain rfl := houndSchema_member hps hm
  obtain rfl := List.mem_singleton.1 hc
  rw [Check.run, Check.demand] at hrun
  split_ifs at hrun
  cases hrun

theorem houndSchema_loopFree (form : Form) : houndSchema.LoopFree form := by
  intro t _ u _ hu
  obtain ⟨v, ⟨ps, m, hps, hm, hv⟩, -⟩ := Relation.TransGen.head'_iff.1 hu
  obtain rfl := houndSchema_member hps hm
  cases hv

theorem kennelForm_accepted {key : Form} (h : key.isImplemented = true) (hr : key.records = []) :
    houndSchema.Accepts (kennelForm key) := by
  refine ⟨by rw [kennelForm, Form.isImplemented, Form.isImplemented, h]; rfl, fun t ht => ?_⟩
  have ht : t ∈ key.records ++ [houndType] := ht
  rw [hr, List.nil_append] at ht
  obtain rfl := List.mem_singleton.1 ht
  exact Nat.zero_lt_one

theorem kennel_breaks :
    houndSchema.Breaks ⟨kennelForm (.list .text), .lenient, kennelFields⟩ (.unhashable "list") := by
  have hentered : entered kennelFields = ["rex"] := by cbv
  have hkey : houndSchema.parse (.list .text) .lenient (keyFields "rex" kennelFields) =
      .ok (.list [.text "rex"]) := by
    cbv
  have hvalue : houndSchema.parse (.record houndType) .lenient (valueFields "rex" kennelFields) =
      .ok (.record houndType [("age", .own (.int 3))]) := by
    cbv
  have hrex : "rex" ∈ entered kennelFields := by
    rw [hentered]
    exact List.mem_cons_self
  exact .within (.caught .optional) (.key hrex hkey hvalue rfl)

/-- An optional kennel settles if the hounds go by texts, and breaks if they go by lists. -/
theorem kennels_settle :
    houndSchema.Accepted ∧ houndSchema.Vets ∧ (∀ form, houndSchema.LoopFree form) ∧
      houndSchema.Accepts (kennelForm .text) ∧ houndSchema.Accepts (kennelForm (.list .text)) ∧
      (∃ st v, (houndSchema.parserFor (Schema.longestName kennelFields)
            (kennelForm .text)).reach .lenient kennelFields = .ok st ∧
          (houndSchema.parserFor (Schema.longestName kennelFields)
            (kennelForm .text)).finalize st = .ok v) ∧
      ¬∃ st v, (houndSchema.parserFor (Schema.longestName kennelFields)
            (kennelForm (.list .text))).reach .lenient kennelFields = .ok st ∧
          (houndSchema.parserFor (Schema.longestName kennelFields)
            (kennelForm (.list .text))).finalize st = .ok v := by
  have htext : houndSchema.Accepts (kennelForm .text) := kennelForm_accepted rfl rfl
  have hlist : houndSchema.Accepts (kennelForm (.list .text)) := kennelForm_accepted rfl rfl
  have hsturdy : houndSchema.Sturdy (kennelForm .text) := by
    refine ⟨rfl, fun t _ u _ ps m hps hm => ?_⟩
    obtain rfl := houndSchema_member hps hm
    rfl
  refine ⟨houndSchema_accepted, houndSchema_vets, houndSchema_loopFree, htext, hlist, ?_, ?_⟩
  · obtain ⟨st, r, hst, hr, -, hvalue⟩ := (Schema.settles_iff houndSchema_accepted htext
      houndSchema_vets (houndSchema_loopFree _)).2 fun f => hsturdy.not_breaks
    obtain ⟨v, rfl⟩ := hvalue _ .optional
    exact ⟨st, v, hst, Outcome.caught_eq_value.1 hr⟩
  · rintro ⟨st, v, hst, hv⟩
    have hends := (Schema.settles_iff houndSchema_accepted hlist houndSchema_vets
      (houndSchema_loopFree _)).1
      ⟨st, .ok v, hst, Outcome.caught_eq_value.2 hv, nofun, fun _ _ => ⟨v, rfl⟩⟩
    exact hends _ kennel_breaks

end WebForm
