import Mathlib
import WebForm.Proofs.Depth.Follow
import WebForm.Proofs.Faults

/-!
# Forms without fields

What stands for a form that gets no fields is found in the records that it mentions, not in its
fields. A deeper parser finds at least as much, and once one step deeper finds nothing new, no
deeper parser does. There are only so many records, so this happens at a known depth.
-/
namespace WebForm

theorem exists_stable {α : Type} {K : Nat → Finset α} {n : Nat} (hcard : ∀ d, (K d).card ≤ n)
    (hmono : ∀ d, K d ⊆ K (d + 1)) : ∃ d ≤ n, K (d + 1) ⊆ K d := by
  by_contra hn
  have hgrow (d : Nat) (hd : d ≤ n) : (K d).card < (K (d + 1)).card :=
    Finset.card_lt_card ⟨hmono d, fun hsub => hn ⟨d, hd, hsub⟩⟩
  have hle (d : Nat) (hd : d ≤ n + 1) : d ≤ (K d).card := by
    induction d with
    | zero => exact Nat.zero_le _
    | succ d ih =>
      have h₁ := ih (Nat.le_of_succ_le hd)
      have h₂ := hgrow d (Nat.le_of_succ_le_succ hd)
      omega
  have h₁ := hle (n + 1) le_rfl
  have h₂ := hcard (n + 1)
  omega

namespace Schema

open WebForm.Parser

variable {s : Schema} {d e : Nat} {mode : Mode} {fs : List Field} {v : Value}

def IsEndless (f : Fault) : Prop := f = .endless

theorem follows_deeper_record {Q : Field → Prop} {Qm : Form → Field → Prop} {slack : Prop}
    {t : RecordType} (hd : s.declaration t = .error .endless → slack)
    (hQ : ∀ ps m f, s.declaration t = .ok ps → memberNamed f.name.keyText ps = some m →
      Q f → Qm m.form f.shift)
    (h : ∀ form, Follows IsEndless slack (Qm form) (s.parser d form) (s.parser e form)) :
    Follows IsEndless slack Q (s.parser (d + 1) (.record t)) (s.parser (e + 1) (.record t)) := by
  refine follows_record (fun f hf (hb : f = .endless) => hd (hb ▸ hf)) ?_ hQ fun _ m _ _ => h m.form
  intro ps m _ _ c _ v f hrun (hb : f = .endless)
  exact check_ne_endless c v (hb ▸ hrun)

theorem follows_all {Qf : Form → Field → Prop} {slack : Prop} (hQ : HandsDown Qf)
    (hr : ∀ t, Follows IsEndless slack (Qf (.record t)) (s.parser d (.record t))
      (s.parser e (.record t))) (form : Form) :
    Follows IsEndless slack (Qf form) (s.parser d form) (s.parser e form) :=
  follows_form (fun v f hf (hb : f = .endless) => keyFault_ne_endless v (hb ▸ hf)) nofun hQ hr form

theorem handsDown_all : HandsDown fun _ _ => True := by
  constructor <;> intros <;> simp

theorem handsDown_none : HandsDown fun _ _ => False := by
  constructor <;> intros <;> contradiction

/-- A deeper parser does what a parser does, unless that one does not end. -/
theorem follows_deeper (h : d ≤ e) (form : Form) :
    Follows IsEndless True (fun _ => True) (s.parser d form) (s.parser e form) := by
  induction d generalizing e form with
  | zero =>
    have hr (t : RecordType) : Follows IsEndless True (fun _ => True) (s.parser 0 (.record t))
        (s.parser e (.record t)) := follows_failing (.inl ⟨rfl, trivial⟩)
    exact follows_all handsDown_all hr form
  | succ d ih =>
    obtain ⟨e, rfl⟩ : ∃ k, e = k + 1 := ⟨e - 1, by omega⟩
    refine follows_all handsDown_all (fun t => ?_) form
    exact follows_deeper_record (fun _ => trivial) (fun _ _ _ _ _ _ => trivial) fun form =>
      ih (Nat.le_of_succ_le_succ h) form

def Settled (s : Schema) (d : Nat) : Prop :=
  ∀ form, Follows IsEndless True (fun _ => False) (s.parser (d + 1) form) (s.parser d form)

theorem settled_succ (h : s.Settled d) : s.Settled (d + 1) := by
  refine fun form => follows_all handsDown_none (fun t => ?_) form
  exact follows_deeper_record (fun _ => trivial) (fun _ _ _ _ _ hf => hf) h

theorem settled_of_le (h : s.Settled d) (hde : d ≤ e) : s.Settled e := by
  induction e, hde using Nat.le_induction with
  | base => exact h
  | succ e _ ih => exact settled_succ ih

theorem run_nil_deeper (h : d ≤ e) {form : Form}
    (hd : (s.parser d form).run mode [] ≠ .error (.fault .endless)) :
    (s.parser e form).run mode [] = (s.parser d form).run mode [] := by
  rcases lifts_cases ((follows_deeper h form).run_nil mode) with ⟨f, hf, hb, -⟩ | ⟨-, heq⟩
  · obtain rfl : f = .endless := hb
    exact absurd hf hd
  · exact heq

theorem run_nil_settled (h : s.Settled d) (hde : d ≤ e) (form : Form) :
    (s.parser e form).run mode [] = (s.parser d form).run mode [] := by
  by_cases hd : (s.parser d form).run mode [] = .error (.fault .endless)
  · induction e, hde using Nat.le_induction with
    | base => rfl
    | succ e hde ih =>
      rw [← ih]
      rcases lifts_cases ((settled_of_le h hde form).run_nil mode) with ⟨f, hf, hb, -⟩ | ⟨-, heq⟩
      · obtain rfl : f = .endless := hb
        rw [hf, ih, hd]
      · exact heq.symm
  · exact run_nil_deeper hde hd

/-- A record with these parts has no end without fields. -/
def PartsEndless (s : Schema) (d : Nat) (mode : Mode) (ps : List RecordPart) : Prop :=
  finishParts (s.parser d) mode none ps (.init ps) ⟨[], []⟩ = .error .endless

theorem run_record_nil {t : RecordType} {ps : List RecordPart} (hd : s.declaration t = .ok ps) :
    (s.parser (d + 1) (.record t)).run mode [] = .error (.fault .endless) ↔
      s.PartsEndless d mode ps := by
  rw [parser_succ, hd]
  have hrun : (Parser.record t (.ok ps) (s.objections t) (s.parser d)).run mode [] =
      RecordState.finalize t (s.objections t)
        (RecordState.init mode : RecordState (s.parser d) ps) :=
    run_of_reach (reach_nil _ _)
  rw [hrun, finalize_record, PartsEndless]
  change (Outcome.ofFault (finishParts (s.parser d) mode none ps (.init ps) ⟨[], []⟩) >>= _) = _ ↔ _
  cases finishParts (s.parser d) mode none ps (.init ps) ⟨[], []⟩ with
  | error f => simp [bind_error]
  | ok c =>
    rw [Outcome.ofFault_ok, bind_ok]
    simp [Outcome.ofErrors_ne_fault]

noncomputable def ending (s : Schema) (d : Nat) : Finset (Nat × Mode) :=
  @Finset.filter _ (fun r => ∀ ps, s.records[r.1]? = some (.ok ps) → ¬s.PartsEndless d r.2 ps)
    (Classical.decPred _) (Finset.range s.records.length ×ˢ {.lenient, .strict})

theorem mem_ending {i : Nat} :
    (i, mode) ∈ s.ending d ↔ i < s.records.length ∧
      ∀ ps, s.records[i]? = some (.ok ps) → ¬s.PartsEndless d mode ps := by
  unfold ending
  cases mode <;> simp

theorem card_ending (s : Schema) (d : Nat) : (s.ending d).card ≤ 2 * s.records.length := by
  have hsub : s.ending d ⊆ Finset.range s.records.length ×ˢ {.lenient, .strict} := by
    rintro ⟨i, mode⟩ h
    have hi := (mem_ending.1 h).1
    cases mode <;> simpa using hi
  refine (Finset.card_le_card hsub).trans ?_
  rw [Finset.card_product, Finset.card_range, mul_comm]
  exact Nat.mul_le_mul_right _ Finset.card_le_two

theorem declaration_eq_ok {t : RecordType} {ps : List RecordPart} :
    s.declaration t = .ok ps ↔ s.records[t.index]? = some (.ok ps) := by
  unfold declaration
  cases s.records[t.index]? <;> simp

theorem ending_mono (h : d ≤ e) : s.ending d ⊆ s.ending e := by
  rintro ⟨i, mode⟩ hi
  obtain ⟨hlt, hi⟩ := mem_ending.1 hi
  refine mem_ending.2 ⟨hlt, fun ps hps he => hi ps hps ?_⟩
  have hd : s.declaration ⟨i, "", false⟩ = .ok ps := declaration_eq_ok.2 hps
  rw [← run_record_nil hd] at he ⊢
  by_contra hne
  rw [run_nil_deeper (Nat.succ_le_succ h) hne] at he
  exact hne he

theorem settled_of_ending (h : s.ending (d + 1) ⊆ s.ending d) : s.Settled (d + 1) := by
  refine fun form => follows_all handsDown_none (fun t => ?_) form
  refine follows_start (fun mode => lifts_ok trivial) fun mode => ?_
  -- what has no end yet had none one step before, and what has one keeps it
  by_cases hd : (s.parser (d + 1) (.record t)).run mode [] = .error (.fault .endless)
  · suffices he : (s.parser (d + 2) (.record t)).run mode [] = .error (.fault .endless) by
      rw [he]
      exact .inl ⟨rfl, trivial⟩
    cases hdecl : s.declaration t with
    | error f =>
      rw [parser_succ, hdecl] at hd ⊢
      exact hd
    | ok ps =>
      have hps := declaration_eq_ok.1 hdecl
      rw [run_record_nil hdecl] at hd ⊢
      by_contra hne
      have hmem : (t.index, mode) ∈ s.ending (d + 1) := by
        refine mem_ending.2 ⟨(List.getElem?_eq_some_iff.1 hps).1, fun qs hqs => ?_⟩
        obtain rfl := Except.ok.inj (Option.some.inj (hps.symm.trans hqs))
        exact hne
      exact (mem_ending.1 (h hmem)).2 ps hps hd
  · rw [run_nil_deeper (Nat.le_succ _) hd]
    refine lifts_refl fun f hf hb => hd ?_
    cases f with
    | errors es => exact hb.elim
    | fault f => rw [hf, show f = .endless from hb]

/-- As many steps as there are records in each of the modes, and one for the record itself. -/
def floor (s : Schema) : Nat := 2 * s.records.length + 1

theorem settled (s : Schema) : s.Settled s.floor := by
  obtain ⟨d, hd, hsub⟩ := exists_stable s.card_ending fun d => ending_mono (Nat.le_succ d)
  exact settled_of_le (settled_of_ending hsub) (Nat.succ_le_succ hd)

end Schema

end WebForm
