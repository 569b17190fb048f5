import Mathlib
import WebForm.Proofs.Depth.Absent

/-!
# The depth of a schema is enough

Every step to a part takes a key off a name, until the name has none left. From there on a field
goes to the members without a name, and either ends up somewhere after as many records as there are
or goes on for ever. So a parser of the depth of its schema does all that a deeper one does.
-/
namespace WebForm

/-- The name of the field has no keys left. -/
def Field.IsStuck (f : Field) : Prop := f.name.span = [] ∧ (View.cut f.name.after).1 = []

namespace Field

variable {f : Field}

theorem name_shift (f : Field) : f.shift.name = f.name.shift := by
  cases f <;> rfl

theorem IsStuck.name_shift (h : f.IsStuck) : f.shift.name = f.name := by
  have hcut := View.cut_append f.name.after
  rw [h.2, List.nil_append] at hcut
  rw [Field.name_shift, View.shift, h.1, h.2, List.append_nil, hcut]
  rcases hn : f.name with ⟨b, sp, a⟩
  obtain rfl : sp = [] := by simpa [hn] using h.1
  rfl

theorem IsStuck.shift (h : f.IsStuck) : f.shift.IsStuck := by
  unfold IsStuck
  rw [h.name_shift]
  exact h

theorem IsStuck.keyText (h : f.IsStuck) : f.name.keyText = "" := by
  rw [View.keyText, h.1]
  rfl

theorem IsStuck.key (h : f.IsStuck) : f.name.key? = none := if_pos h.keyText

def room (f : Field) : Nat := f.name.after.length + 1

theorem room_shift (h : ¬f.shift.IsStuck) : f.shift.room < f.room := by
  have hlen := View.length_cut f.name.after
  have hspan : (View.cut f.name.after).1 ≠ [] := by
    intro hn
    have hcut := View.cut_append f.name.after
    rw [hn, List.nil_append] at hcut
    refine h ⟨by rw [Field.name_shift]; exact hn, ?_⟩
    rw [Field.name_shift, View.shift, hcut, hn]
  have hpos := List.length_pos_of_ne_nil hspan
  simp only [room, Field.name_shift, View.shift]
  omega

end Field

/-- The record that a field without keys comes to. -/
def Form.sink : Form → Option RecordType
  | .leaf _ | .dict _ _ | .pair _ _ | .unimplemented => none
  | .record t => some t
  | .list i | .optional i | .result i | .forced _ i | .contextual i => i.sink

namespace Schema

open WebForm.Parser

variable {s : Schema} {d e : Nat} {form : Form}

/-- A field without keys passes fewer records than this. -/
def Sinks (s : Schema) : Nat → Form → Prop
  | 0, form => form.sink = none
  | d + 1, form => ∀ t, form.sink = some t → ∃ ps, s.declaration t = .ok ps ∧
    ∀ m, memberNamed "" ps = some m → s.Sinks d m.form

theorem sinks_congr {form' : Form} (h : form.sink = form'.sink) :
    s.Sinks d form ↔ s.Sinks d form' := by
  cases d <;> rw [Sinks, Sinks, h]

theorem sinks_of_none (h : form.sink = none) : s.Sinks d form := by
  cases d with
  | zero => exact h
  | succ d =>
    intro t ht
    rw [h] at ht
    cases ht

theorem sinks_succ (h : s.Sinks d form) : s.Sinks (d + 1) form := by
  induction d generalizing form with
  | zero => exact sinks_of_none h
  | succ d ih =>
    intro t ht
    obtain ⟨ps, hps, hm⟩ := h t ht
    exact ⟨ps, hps, fun m hmem => ih (hm m hmem)⟩

theorem sinks_of_le (h : s.Sinks d form) (hde : d ≤ e) : s.Sinks e form := by
  induction e, hde using Nat.le_induction with
  | base => exact h
  | succ e _ ih => exact sinks_succ ih

noncomputable def sinking (s : Schema) (d : Nat) : Finset Nat :=
  @Finset.filter _ (fun i => s.Sinks d (.record ⟨i, "", false⟩)) (Classical.decPred _)
    (Finset.range s.records.length)

theorem sinks_record {t : RecordType} :
    s.Sinks d (.record t) ↔ s.Sinks d (.record ⟨t.index, "", false⟩) := by
  cases d with
  | zero => simp [Sinks, Form.sink]
  | succ d => simp [Sinks, Form.sink, declaration_eq_ok]

theorem mem_sinking {t : RecordType} : t.index ∈ s.sinking d ↔ s.Sinks d (.record t) := by
  rw [sinks_record]
  unfold sinking
  simp only [Finset.mem_filter, Finset.mem_range, and_iff_right_iff_imp]
  intro h
  cases d with
  | zero => cases h
  | succ d =>
    obtain ⟨ps, hps, -⟩ := h _ rfl
    exact (List.getElem?_eq_some_iff.1 (declaration_eq_ok.1 hps)).1

theorem sinks_bound (h : s.Sinks d form) : s.Sinks s.records.length form := by
  have hcard (d : Nat) : (s.sinking d).card ≤ s.records.length := by
    have hsub : s.sinking d ⊆ Finset.range s.records.length := by
      intro i hi
      unfold sinking at hi
      simp only [Finset.mem_filter] at hi
      exact hi.1
    simpa using Finset.card_le_card hsub
  have hmono (d : Nat) : s.sinking d ⊆ s.sinking (d + 1) := by
    intro i hi
    exact (mem_sinking (t := ⟨i, "", false⟩)).2 (sinks_succ (mem_sinking.1 hi))
  obtain ⟨n, hn, hstable⟩ := exists_stable hcard hmono
  -- from the step at which nothing is added, a longer way can be cut by one step at a time
  have hback (k : Nat) (form : Form) (hk : s.Sinks (n + k) form) : s.Sinks n form := by
    induction k generalizing form with
    | zero => exact hk
    | succ k ih =>
      cases ht : form.sink with
      | none => exact sinks_of_none ht
      | some t =>
        obtain ⟨ps, hps, hm⟩ := hk t ht
        have hsucc : s.Sinks (n + 1) (.record t) := by
          intro u hu
          obtain rfl : t = u := Option.some.inj hu
          exact ⟨ps, hps, fun m hmem => ih m.form (hm m hmem)⟩
        exact (sinks_congr ht).2 (mem_sinking.1 (hstable (mem_sinking.2 hsucc)))
  exact sinks_of_le (hback d form (sinks_of_le h (Nat.le_add_left d n))) hn

section Feed

variable {P : Prop} {f : Field}

/-- Only a parser for which this holds takes a field without keys. -/
def Reveals (p : Parser) (P : Prop) : Prop :=
  ∀ s t f, Field.IsStuck f → p.feed s f = .ok t → P

theorem member_of_push {parserOf : Form → Parser} {mode : Mode} {key : Key}
    {ps : List RecordPart} {st st' : MemberStates parserOf ps}
    (h : MemberStates.Pushes mode key f ps st st') :
    ∃ m, memberNamed key ps = some m ∧ ∃ a b, (parserOf m.form).feed a f = .ok b := by
  induction ps with
  | nil =>
    obtain ⟨r, hr, -⟩ := h
    cases hr
  | cons part ps ih =>
    cases part with
    | constant a x => exact ih h
    | member m =>
      rcases st with ⟨s, rest⟩
      rcases st' with ⟨s', rest'⟩
      by_cases hm : key ∈ m.names
      · obtain ⟨hs, -⟩ := (MemberStates.pushes_own hm).1 h
        obtain ⟨a, -, b, hb, -⟩ := MemberStates.pushInto_eq_ok.1 hs
        exact ⟨m, if_pos hm, a, b, hb⟩
      · obtain ⟨-, hrest⟩ := (MemberStates.pushes_other hm).1 h
        obtain ⟨m', hm', hfeed⟩ := ih hrest
        exact ⟨m', (if_neg hm).trans hm', hfeed⟩

theorem reveals_sinks (d : Nat) (form : Form) : Reveals (s.parser d form) (s.Sinks d form) := by
  induction d, form using Form.depth_induction with
  | leaf d l => exact fun _ _ _ _ _ => sinks_of_none rfl
  | list d item ih =>
    rw [parser_list]
    intro a b f hf h
    have hj : ListState.joined a f.name.key? = none := by
      simp [ListState.joined, hf.key]
    rw [ListState.feed_started hj] at h
    obtain ⟨t, -, h⟩ := bind_eq_ok.1 h
    obtain ⟨c, -, h⟩ := bind_eq_ok.1 h
    obtain ⟨c', hc, -⟩ := bind_eq_ok.1 h
    exact (@sinks_congr s d (.list item) item rfl).2 (ih _ _ _ hf.shift hc)
  | dict d key value _ _ => exact fun _ _ _ _ _ => sinks_of_none rfl
  | pair d left right _ _ => exact fun _ _ _ _ _ => sinks_of_none rfl
  | zero t =>
    intro a b f _ h
    cases h
  | succ d t ih =>
    rw [parser_succ]
    cases hd : s.declaration t with
    | error e =>
      intro a b f _ h
      cases h
    | ok ps =>
      intro a b f hf h u hu
      obtain rfl : t = u := Option.some.inj hu
      refine ⟨ps, hd, fun m hm => ?_⟩
      obtain ⟨-, -, -, hst⟩ := feed_record.1 h
      rw [hf.keyText, isName_eq, hm, Option.isSome_some, if_pos rfl] at hst
      obtain ⟨m', hm', c, c', hc⟩ := member_of_push hst
      obtain rfl := Option.some.inj (hm.symm.trans hm')
      exact ih m.form c c' f.shift hf.shift hc
  | optional d item ih =>
    rw [parser_optional]
    exact fun a b f hf h => (@sinks_congr s d (.optional item) item rfl).2 (ih a b f hf h)
  | result d item ih =>
    rw [parser_result]
    exact fun a b f hf h => (@sinks_congr s d (.result item) item rfl).2 (ih a b f hf h)
  | forced d m item ih =>
    rw [parser_forced]
    exact fun a b f hf h => (@sinks_congr s d (.forced m item) item rfl).2 (ih a b f hf h)
  | contextual d item ih =>
    rw [parser_contextual]
    intro a b f hf h
    obtain ⟨c, hc, -⟩ := Step.result_map_eq_ok.1 h
    exact (@sinks_congr s d (.contextual item) item rfl).2 (ih a.1 c f hf hc)
  | unimplemented d => exact fun _ _ _ _ _ => sinks_of_none rfl

end Feed

/-- Deep enough for the field, and for forms without fields wherever it ends up. -/
def Enough (s : Schema) (d : Nat) (form : Form) (f : Field) : Prop :=
  (f.IsStuck → ∀ k, s.Sinks k form → ∃ n, s.Sinks n form ∧ n + s.floor ≤ d) ∧
    (¬f.IsStuck → f.room + s.records.length + s.floor ≤ d)

variable {f : Field}

theorem enough_stuck (hf : f.IsStuck) (h : s.records.length + s.floor ≤ d) :
    s.Enough d form f :=
  ⟨fun _ _ hk => ⟨_, sinks_bound hk, h⟩, fun hn => absurd hf hn⟩

theorem enough_shift (hf : f.room + s.records.length + s.floor ≤ d + 1) :
    s.Enough d form f.shift := by
  have hroom : 0 < f.room := Nat.succ_pos _
  by_cases hs : f.shift.IsStuck
  · exact enough_stuck hs (by omega)
  · refine ⟨fun h => absurd h hs, fun _ => ?_⟩
    have hlt := f.room_shift hs
    omega

theorem enough_sink {form' : Form} (h : form.sink = form'.sink) (hf : s.Enough d form f) :
    s.Enough d form' f := by
  refine ⟨fun hs k hk => ?_, hf.2⟩
  obtain ⟨n, hn, hle⟩ := hf.1 hs k ((sinks_congr h).2 hk)
  exact ⟨n, (sinks_congr h).1 hn, hle⟩

theorem enough_part {part : Form} (hs : ¬f.IsStuck) (hf : s.Enough d form f) :
    s.Enough d part f.shift := enough_shift ((hf.2 hs).trans (Nat.le_succ d))

theorem not_stuck_of_key (h : f.name.key? ≠ none) : ¬f.IsStuck := fun hs => h hs.key

theorem handsDown_enough (s : Schema) (d : Nat) : HandsDown (s.Enough d) where
  list {item f} hf := by
    by_cases hs : f.IsStuck
    · refine ⟨fun _ k hk => ?_, fun hn => absurd hs.shift hn⟩
      obtain ⟨n, hn, hle⟩ := hf.1 hs k ((@sinks_congr s k (.list item) item rfl).2 hk)
      exact ⟨n, (@sinks_congr s n (.list item) item rfl).1 hn, hle⟩
    · exact enough_part hs hf
  entry {key value f i} hi hf := by
    have hs : ¬f.IsStuck := by
      intro hs
      rw [Field.target, hs.key] at hi
      cases hi
    refine ⟨enough_part hs hf, enough_part hs hf, enough_stuck ⟨rfl, rfl⟩ ?_⟩
    have hroom : 0 < f.room := Nat.succ_pos _
    have hle := hf.2 hs
    omega
  side hk hf := ⟨enough_part (not_stuck_of_key hk) hf, enough_part (not_stuck_of_key hk) hf⟩
  optional {item f} hf := @enough_sink s d (.optional item) f item rfl hf
  result {item f} hf := @enough_sink s d (.result item) f item rfl hf
  forced {m item f} hf := @enough_sink s d (.forced m item) f item rfl hf
  contextual {item f} hf := @enough_sink s d (.contextual item) f item rfl hf

theorem enough_member {t : RecordType} {ps : List RecordPart} {m : Member}
    (hd : s.declaration t = .ok ps) (hm : memberNamed f.name.keyText ps = some m)
    (hf : s.Enough (d + 1) (.record t) f) : s.Enough d m.form f.shift := by
  by_cases hs : f.IsStuck
  · refine ⟨fun _ k hk => ?_, fun hn => absurd hs.shift hn⟩
    rw [hs.keyText] at hm
    have hrecord : s.Sinks (k + 1) (.record t) := by
      intro u hu
      obtain rfl : t = u := Option.some.inj hu
      refine ⟨ps, hd, fun m' hm' => ?_⟩
      obtain rfl := Option.some.inj (hm.symm.trans hm')
      exact hk
    obtain ⟨n, hn, hle⟩ := hf.1 hs _ hrecord
    cases n with
    | zero => cases hn
    | succ n =>
      obtain ⟨qs, hqs, hmem⟩ := hn t rfl
      obtain rfl := Except.ok.inj (hd.symm.trans hqs)
      exact ⟨n, hmem m hm, by omega⟩
  · exact enough_shift (hf.2 hs)

/-- A parser that is deep enough for the fields does what a deeper one does. -/
theorem follows_shallower {slack : Prop} (hfault : ∀ t, s.declaration t = .error .endless → slack)
    (hend : ∀ form mode, (s.parser s.floor form).run mode [] = .error (.fault .endless) → slack)
    (hd : s.floor ≤ d) (hde : d ≤ e) (form : Form) :
    Follows IsEndless slack (s.Enough d form) (s.parser e form) (s.parser d form) := by
  induction d, hd using Nat.le_induction generalizing e form with
  | base =>
    refine follows_all (handsDown_enough s _) (fun t => ?_) form
    obtain ⟨e, rfl⟩ : ∃ k, e = k + 1 := ⟨e - 1, by unfold floor at hde; omega⟩
    have hstart : Follows IsEndless slack (fun _ => False) (s.parser (e + 1) (.record t))
        (s.parser s.floor (.record t)) := by
      refine follows_start (fun mode => lifts_ok trivial) fun mode => ?_
      rw [show (s.parser (e + 1) (.record t)).run mode [] = _ from run_nil_settled s.settled hde _]
      cases hrun : (s.parser s.floor (.record t)).run mode [] with
      | ok v => exact lifts_ok rfl
      | error f =>
        cases f with
        | errors es => exact .inr ⟨not_false, rfl⟩
        | fault f =>
          by_cases hf : f = .endless
          · exact .inl ⟨hf, hend _ mode (by rw [hrun, hf])⟩
          · exact .inr ⟨hf, rfl⟩
    refine hstart.of_feed fun f a b hf hfeed => ?_
    by_cases hs : f.IsStuck
    · obtain ⟨n, hn, hle⟩ := hf.1 hs _ (reveals_sinks _ _ a b f hs hfeed)
      cases n with
      | zero => cases hn
      | succ n => omega
    · have hroom : 0 < f.room := Nat.succ_pos _
      have hle := hf.2 hs
      omega
  | succ d hd ih =>
    obtain ⟨e, rfl⟩ : ∃ k, e = k + 1 := ⟨e - 1, by omega⟩
    refine follows_all (handsDown_enough s _) (fun t => ?_) form
    exact follows_deeper_record (hfault t) (fun ps m f hdecl hm hf => enough_member hdecl hm hf)
      fun form => ih (Nat.le_of_succ_le_succ hde) form

theorem floor_le_depth (s : Schema) (n : Nat) : s.floor ≤ s.depth n := by
  rw [depth, floor]
  omega

theorem enough_depth {n : Nat} (hf : f.name.source.length ≤ n) :
    s.Enough (s.depth n) form f := by
  have hroom : f.room ≤ f.name.source.length + 1 := by
    simp only [Field.room, View.source, Name.length, List.length_append]
    omega
  have hdepth : s.depth n = n + 3 * (s.records.length + 1) := rfl
  have hfloor : s.floor = 2 * s.records.length + 1 := rfl
  by_cases hs : f.IsStuck
  · exact enough_stuck hs (by omega)
  · exact ⟨fun h => absurd h hs, fun _ => by omega⟩

variable {mode : Mode} {fs : List Field}

theorem length_le_longestName (hf : f ∈ fs) : f.name.source.length ≤ longestName fs := by
  have hfold (n : Nat) : n ≤ fs.foldl (fun n f => max n f.name.source.length) n ∧
      ∀ f ∈ fs, f.name.source.length ≤ fs.foldl (fun n f => max n f.name.source.length) n := by
    clear hf
    induction fs generalizing n with
    | nil => simp
    | cons g fs ih =>
      obtain ⟨hn, hmem⟩ := ih (max n g.name.source.length)
      rw [List.foldl_cons]
      refine ⟨(le_max_left _ _).trans hn, fun f hf => ?_⟩
      rcases List.mem_cons.1 hf with rfl | hf
      · exact (le_max_right _ _).trans hn
      · exact hmem f hf
  exact (hfold 0).2 f hf

/-- A parser of any depth that takes all the fields and ends does what the schema's parser does. -/
theorem parse_of_reach {st : (s.parser e form).State}
    (hst : (s.parser e form).reach mode fs = .ok st)
    (hne : (s.parser e form).finalize st ≠ .error (.fault .endless)) :
    s.parse form mode fs = (s.parser e form).finalize st := by
  have hlift : Lifts (Failure.IsBad IsEndless) True Eq ((s.parser e form).finalize st)
      (s.parse form mode fs) := by
    rcases le_total e (s.depth (longestName fs)) with hle | hle
    · exact (follows_deeper hle form).finalize (fun _ _ => trivial) hst
    · have hfollows := @follows_shallower s _ _ True (fun _ _ => trivial) (fun _ _ _ => trivial)
        (s.floor_le_depth (longestName fs)) hle form
      exact hfollows.finalize (fun f hf => enough_depth (length_le_longestName hf)) hst
  rcases lifts_cases hlift with ⟨f, hf, hb, -⟩ | ⟨-, heq⟩
  · obtain rfl : f = .endless := hb
    exact absurd hf hne
  · exact heq

theorem parse_of_yields {r : Except FormErrors Value}
    (h : (s.parser e form).Yields mode fs r) : Outcome.caught (s.parse form mode fs) = .ok r := by
  obtain ⟨st, hst, hr⟩ := yields_iff.1 h
  rw [parse_of_reach hst ?_, hr]
  intro hf
  rw [hf] at hr
  cases hr

theorem parse_of_run {v : Value} (h : (s.parser e form).run mode fs = .ok v) :
    s.parse form mode fs = .ok v := by
  exact Outcome.caught_eq_value.1 (parse_of_yields (yields_value.2 h))

end Schema

end WebForm
