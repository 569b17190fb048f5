import Mathlib
import WebForm.Proofs.Run.Check

/-!
# Runs of records

A record shares out its fields among its members: a member gets the fields with one of its names
that no member before it has taken. Every member runs on its share, unless the share is empty. Only
what is left over depends on the mode of the record alone.
-/
namespace WebForm

def Field.isTo (m : Member) (f : Field) : Bool := f.name.keyText ∈ m.names

/-- Each part of a record with the fields that reach it. -/
def shares : List RecordPart → List Field → List (RecordPart × List Field)
  | [], _ => []
  | .member m :: ps, fs =>
    (.member m, handed (Field.isTo m) fs) :: shares ps (fs.filter (!Field.isTo m ·))
  | .constant a x :: ps, fs => (.constant a x, []) :: shares ps fs

def isName (ps : List RecordPart) (key : Key) : Bool :=
  ps.any fun
    | .member m => key ∈ m.names
    | .constant _ _ => false

theorem share_mem {ps : List RecordPart} {fs : List Field} {share : RecordPart × List Field}
    (h : share ∈ shares ps fs) : share.1 ∈ ps := by
  induction ps generalizing fs with
  | nil => cases h
  | cons part ps ih =>
    cases part with
    | constant a x =>
      rcases List.mem_cons.1 h with rfl | h
      · exact List.mem_cons_self
      · exact List.mem_cons_of_mem _ (ih h)
    | member m =>
      rcases List.mem_cons.1 h with rfl | h
      · exact List.mem_cons_self
      · exact List.mem_cons_of_mem _ (ih h)

theorem mem_of_share {ps : List RecordPart} {fs : List Field} {share : RecordPart × List Field}
    (h : share ∈ shares ps fs) : ∀ g ∈ share.2, ∃ f ∈ fs, f.shift = g := by
  induction ps generalizing fs with
  | nil => cases h
  | cons part ps ih =>
    cases part with
    | constant a x =>
      rcases List.mem_cons.1 h with rfl | h
      · simp
      · exact ih h
    | member m =>
      rcases List.mem_cons.1 h with rfl | h
      · intro g hg
        obtain ⟨f, hf, -, hs⟩ := mem_handed.1 hg
        exact ⟨f, hf, hs⟩
      · intro g hg
        obtain ⟨f, hf, hs⟩ := ih h g hg
        exact ⟨f, List.mem_of_mem_filter hf, hs⟩

def memberNamed (key : Key) : List RecordPart → Option Member
  | [] => none
  | .member m :: ps => if key ∈ m.names then some m else memberNamed key ps
  | .constant _ _ :: ps => memberNamed key ps

theorem isName_eq (ps : List RecordPart) (key : Key) :
    isName ps key = (memberNamed key ps).isSome := by
  induction ps with
  | nil => rfl
  | cons part ps ih =>
    cases part with
    | constant a x => exact ih
    | member m =>
      unfold memberNamed
      by_cases hm : key ∈ m.names
      · simp [isName, hm]
      · rw [if_neg hm, ← ih]
        simp [isName, hm]

def Field.isIgnored (mode : Mode) (f : Field) : Bool :=
  !mode.isStrict || (f.name.keyText == methodKey && f.name.parent?.isNone)

/-- What a record notes of a field that leads to no member. -/
def strayMember (mode : Mode) (ps : List RecordPart) (f : Field) : FormErrors :=
  if isName ps f.name.keyText || f.isIgnored mode then [] else [f.unexpected]

variable {parserOf : Form → Parser} {mode : Mode} {ps : List RecordPart} {objections : Objections}
  {fs : List Field} {f : Field}

def MemberStands (p : Parser) (mode : Mode) (gs : List Field) : Option p.State → Prop
  | none => gs = []
  | some s => gs ≠ [] ∧ p.reach mode gs = .ok s

namespace MemberStates

def Stand (mode : Mode) : (ps : List RecordPart) → List Field → MemberStates parserOf ps → Prop
  | [], _, _ => True
  | .member m :: ps, fs, (s, rest) =>
    MemberStands (parserOf m.form) mode (handed (Field.isTo m) fs) s ∧
      Stand mode ps (fs.filter (!Field.isTo m ·)) rest
  | .constant _ _ :: ps, fs, rest => Stand mode ps fs rest

theorem pushInto_eq_ok {p : Parser} {s s' : Option p.State} :
    (pushInto p mode s f).result = .ok s' ↔
      ∃ a, s.elim (p.init mode) .ok = .ok a ∧ ∃ b, p.feed a f = .ok b ∧ some b = s' := by
  cases s with
  | some a => simp [pushInto, Step.result_map_eq_ok, Parser.feed]
  | none =>
    cases hi : p.init mode with
    | error e => simp [pushInto, hi]
    | ok a => simp [pushInto, hi, Step.result_map_eq_ok, Parser.feed]

theorem stands_start {p : Parser} {gs : List Field} {s : Option p.State}
    (h : MemberStands p mode gs s) : s.elim (p.init mode) .ok = p.reach mode gs := by
  cases s with
  | none =>
    obtain rfl : gs = [] := h
    exact (Parser.reach_nil p mode).symm
  | some a => exact h.2.symm

theorem stands_snoc {p : Parser} {gs : List Field} {s' : Option p.State} :
    MemberStands p mode (gs ++ [f]) s' ↔
      ∃ s, MemberStands p mode gs s ∧ (pushInto p mode s f).result = .ok s' := by
  have hne : gs ++ [f] ≠ [] := List.append_ne_nil_of_right_ne_nil gs (List.cons_ne_nil f [])
  constructor
  · intro h
    cases s' with
    | none => exact absurd h hne
    | some b =>
      obtain ⟨a, ha, hb⟩ := bind_eq_ok.1 ((Parser.reach_snoc p mode gs f).symm.trans h.2)
      obtain ⟨s, hs⟩ : ∃ s, MemberStands p mode gs s := by
        by_cases hgs : gs = []
        · exact ⟨none, hgs⟩
        · exact ⟨some a, hgs, ha⟩
      exact ⟨s, hs, pushInto_eq_ok.2 ⟨a, (stands_start hs).trans ha, b, hb, rfl⟩⟩
  · rintro ⟨s, hs, h⟩
    obtain ⟨a, ha, b, hb, rfl⟩ := pushInto_eq_ok.1 h
    refine ⟨hne, ?_⟩
    rw [Parser.reach_snoc, ← stands_start hs, ha]
    exact hb

def Pushes (mode : Mode) (key : Key) (f : Field) (ps : List RecordPart)
    (st st' : MemberStates parserOf ps) : Prop :=
  ∃ r, push mode key f ps st = some r ∧ r.result = .ok st'

section Pushes

variable {m : Member} {key : Key} {s s' : Option (parserOf m.form).State}
  {rest rest' : MemberStates parserOf ps}

theorem pushes_own (hm : key ∈ m.names) :
    Pushes mode key f (.member m :: ps) (s, rest) (s', rest') ↔
      (pushInto (parserOf m.form) mode s f).result = .ok s' ∧ rest = rest' := by
  unfold Pushes
  constructor
  · rintro ⟨r, hr, h⟩
    obtain rfl := Option.some.inj ((if_pos hm).symm.trans hr)
    obtain ⟨t, ht, h⟩ := Step.result_map_eq_ok.1 h
    obtain ⟨rfl, rfl⟩ := Prod.mk.inj h
    exact ⟨ht, rfl⟩
  · rintro ⟨h, rfl⟩
    exact ⟨_, if_pos hm, Step.result_map_eq_ok.2 ⟨s', h, rfl⟩⟩

theorem pushes_other (hm : key ∉ m.names) :
    Pushes mode key f (.member m :: ps) (s, rest) (s', rest') ↔
      s = s' ∧ Pushes mode key f ps rest rest' := by
  unfold Pushes
  constructor
  · rintro ⟨r, hr, h⟩
    obtain ⟨r', hr', rfl⟩ := Option.map_eq_some_iff.1 ((if_neg hm).symm.trans hr)
    obtain ⟨t, ht, h⟩ := Step.result_map_eq_ok.1 h
    obtain ⟨rfl, rfl⟩ := Prod.mk.inj h
    exact ⟨rfl, r', hr', ht⟩
  · rintro ⟨rfl, r, hr, h⟩
    have hp : (push mode key f ps rest).map (Step.map fun t => (s, t)) =
        some (r.map fun t => (s, t)) := by rw [hr, Option.map_some]
    exact ⟨_, (if_neg hm).trans hp, Step.result_map_eq_ok.2 ⟨rest', h, rfl⟩⟩

end Pushes

theorem push_none {key : Key} {st : MemberStates parserOf ps} (h : isName ps key = false) :
    push mode key f ps st = none := by
  induction ps with
  | nil => rfl
  | cons part ps ih =>
    cases part with
    | constant a x => exact ih (by simpa [isName] using h)
    | member m =>
      have hm : key ∉ m.names ∧ isName ps key = false := by simpa [isName] using h
      exact (if_neg hm.1).trans (Option.map_eq_none_iff.2 (ih hm.2))

theorem isName_of_push {key : Key} {st : MemberStates parserOf ps}
    (h : push mode key f ps st = none) : isName ps key = false := by
  induction ps with
  | nil => rfl
  | cons part ps ih =>
    cases part with
    | constant a x => simpa [isName] using ih h
    | member m =>
      rcases st with ⟨s, rest⟩
      by_cases hm : key ∈ m.names
      · cases (if_pos hm).symm.trans h
      · have hr := ih (Option.map_eq_none_iff.1 ((if_neg hm).symm.trans h))
        simpa [isName, hm] using hr

theorem stand_pass {st : MemberStates parserOf ps} (h : isName ps f.name.keyText = false) :
    Stand mode ps (fs ++ [f]) st ↔ Stand mode ps fs st := by
  induction ps generalizing fs with
  | nil => rfl
  | cons part ps ih =>
    cases part with
    | constant a x => exact ih (by simpa [isName] using h)
    | member m =>
      have hm : f.name.keyText ∉ m.names ∧ isName ps f.name.keyText = false := by
        simpa [isName] using h
      have ht : f.isTo m = false := by simp [Field.isTo, hm.1]
      rcases st with ⟨s, rest⟩
      simp only [Stand, handed_append, handed_single, ht, Bool.false_eq_true, if_false,
        List.append_nil, List.filter_append, List.filter_cons, Bool.not_false, if_true,
        List.filter_nil, ih hm.2]

theorem stand_snoc {st' : MemberStates parserOf ps} (h : isName ps f.name.keyText = true) :
    Stand mode ps (fs ++ [f]) st' ↔
      ∃ st, Stand mode ps fs st ∧ Pushes mode f.name.keyText f.shift ps st st' := by
  induction ps generalizing fs with
  | nil => cases h
  | cons part ps ih =>
    cases part with
    | constant a x => exact ih (by simpa [isName] using h)
    | member m =>
      rcases st' with ⟨s', rest'⟩
      cases ht : f.isTo m with
      | true =>
        have hm : f.name.keyText ∈ m.names := by simpa [Field.isTo] using ht
        simp only [Stand, handed_append, handed_single, ht, if_true, List.filter_append,
          List.filter_cons, Bool.not_true, Bool.false_eq_true, if_false, List.filter_nil,
          List.append_nil, stands_snoc]
        constructor
        · rintro ⟨⟨s, hs, hp⟩, hrest⟩
          exact ⟨(s, rest'), ⟨hs, hrest⟩, (pushes_own hm).2 ⟨hp, rfl⟩⟩
        · rintro ⟨⟨s, rest⟩, ⟨hs, hrest⟩, hp⟩
          obtain ⟨hs', rfl⟩ := (pushes_own hm).1 hp
          exact ⟨⟨s, hs, hs'⟩, hrest⟩
      | false =>
        have hm : f.name.keyText ∉ m.names := by simpa [Field.isTo] using ht
        have hn : isName ps f.name.keyText = true := by
          simpa [isName, hm] using h
        simp only [Stand, handed_append, handed_single, ht, Bool.false_eq_true, if_false,
          List.append_nil, List.filter_append, List.filter_cons, Bool.not_false, if_true,
          List.filter_nil, ih hn]
        constructor
        · rintro ⟨hs, rest, hrest, hp⟩
          exact ⟨(s', rest), ⟨hs, hrest⟩, (pushes_other hm).2 ⟨rfl, hp⟩⟩
        · rintro ⟨⟨s, rest⟩, ⟨hs, hrest⟩, hp⟩
          obtain ⟨rfl, hrest'⟩ := (pushes_other hm).1 hp
          exact ⟨hs, rest, hrest, hrest'⟩

theorem stand_nil {st : MemberStates parserOf ps} : Stand mode ps [] st ↔ st = init ps := by
  induction ps with
  | nil => exact ⟨fun _ => rfl, fun _ => trivial⟩
  | cons part ps ih =>
    cases part with
    | constant a x => exact ih
    | member m =>
      rcases st with ⟨_ | s, rest⟩
      · constructor
        · rintro ⟨-, h⟩
          obtain rfl := ih.1 h
          rfl
        · intro h
          exact ⟨rfl, ih.2 (Prod.mk.inj h).2⟩
      · constructor
        · rintro ⟨h, -⟩
          exact absurd rfl h.1
        · intro h
          cases (Prod.mk.inj h).1

end MemberStates

def parentOf (fs : List Field) : Option Name := fs.getLast?.bind fun f => f.name.parent?

theorem feed_record {type : RecordType} {s t : RecordState parserOf ps} :
    (Parser.record type (.ok ps) objections parserOf).feed s f = .ok t ↔
      t.mode = s.mode ∧ t.parent = f.name.parent? ∧ t.errors = s.errors ++ strayMember s.mode ps f ∧
        (if isName ps f.name.keyText then
          MemberStates.Pushes s.mode f.name.keyText f.shift ps s.members t.members
        else t.members = s.members) := by
  rcases s with ⟨m, q, st, xs⟩
  rcases t with ⟨m', q', st', xs'⟩
  change (RecordState.push ⟨m, q, st, xs⟩ f).result = _ ↔ _
  unfold RecordState.push strayMember MemberStates.Pushes
  cases hn : isName ps f.name.keyText with
  | false =>
    have hi : f.isIgnored m =
        RecordState.ignores (⟨m, f.name.parent?, st, xs⟩ : RecordState parserOf ps)
          f.name.keyText := rfl
    simp only [MemberStates.push_none hn, Bool.false_or, hi, Bool.false_eq_true, if_false]
    split_ifs <;> simp only [Step.result_done, Except.ok.injEq, RecordState.mk.injEq,
      List.append_nil] <;> tauto
  | true =>
    simp only [Bool.true_or, if_true, List.append_nil]
    cases hp : MemberStates.push m f.name.keyText f.shift ps st with
    | none => exact absurd hn (by rw [MemberStates.isName_of_push hp]; exact Bool.false_ne_true)
    | some r =>
      simp only [Step.result_map_eq_ok, RecordState.mk.injEq, Option.some.injEq]
      constructor
      · rintro ⟨u, hu, rfl, rfl, rfl, rfl⟩
        exact ⟨rfl, rfl, rfl, r, rfl, hu⟩
      · rintro ⟨rfl, rfl, rfl, _, rfl, hu⟩
        exact ⟨st', hu, rfl, rfl, rfl, rfl⟩

/-- After all the fields every member stands where its share takes it. -/
theorem reach_record {type : RecordType} {s : RecordState parserOf ps} :
    (Parser.record type (.ok ps) objections parserOf).reach mode fs = .ok s ↔
      s.mode = mode ∧ s.parent = parentOf fs ∧ s.errors = fs.flatMap (strayMember mode ps) ∧
        s.members.Stand mode ps fs := by
  induction fs using List.reverseRecOn generalizing s with
  | nil =>
    rcases s with ⟨m, q, st, xs⟩
    simp only [Parser.reach_nil, MemberStates.stand_nil, RecordState.init, Except.ok.injEq,
      RecordState.mk.injEq]
    constructor
    · rintro ⟨rfl, rfl, rfl, rfl⟩
      exact ⟨rfl, rfl, rfl, rfl⟩
    · rintro ⟨rfl, rfl, rfl, rfl⟩
      exact ⟨rfl, rfl, rfl, rfl⟩
  | append_singleton fs f ih =>
    have hp : parentOf (fs ++ [f]) = f.name.parent? := by simp [parentOf]
    rw [Parser.reach_snoc, bind_eq_ok, List.flatMap_append, List.flatMap_singleton, hp]
    constructor
    · rintro ⟨t, ht, hf⟩
      obtain ⟨rfl, -, hx, hst⟩ := ih.1 ht
      obtain ⟨hm, hq, hx', hst'⟩ := feed_record.1 hf
      refine ⟨hm, hq, by rw [hx', hx], ?_⟩
      split_ifs at hst' with hn
      · exact (MemberStates.stand_snoc hn).2 ⟨_, hst, hst'⟩
      · rw [hst']
        exact (MemberStates.stand_pass (by simpa using hn)).2 hst
    · rintro ⟨hm, hq, hx, hst⟩
      cases hn : isName ps f.name.keyText with
      | true =>
        obtain ⟨st, hst, hr⟩ := (MemberStates.stand_snoc hn).1 hst
        refine ⟨⟨mode, parentOf fs, st, fs.flatMap (strayMember mode ps)⟩,
          ih.2 ⟨rfl, rfl, rfl, hst⟩, feed_record.2 ⟨hm, hq, hx, ?_⟩⟩
        rw [if_pos hn]
        exact hr
      | false =>
        have hst := (MemberStates.stand_pass hn).1 hst
        refine ⟨⟨mode, parentOf fs, s.members, fs.flatMap (strayMember mode ps)⟩,
          ih.2 ⟨rfl, rfl, rfl, hst⟩, feed_record.2 ⟨hm, hq, hx, ?_⟩⟩
        rw [if_neg (by rw [hn]; exact Bool.false_ne_true)]

theorem absent_eq_some {p : Parser} {w : Value} :
    p.absent mode = .ok (some w) ↔ p.run mode [] = .ok w := by
  rw [Parser.absent]
  rcases p.run mode [] with (es | f) | w <;> simp [Outcome.caught, bind_ok, bind_error]

theorem member_absent_eq_ok {m : Member} {p : Parser} {slot : Slot Value} :
    m.absent p mode = .ok (some slot) ↔
      (m.fallback = .unset ∧ ∃ w, p.run mode [] = .ok w ∧ slot = .own w) ∨
        (m.fallback ≠ .unset ∧ slot = m.fallback) := by
  unfold Member.absent
  cases m.fallback with
  | unset =>
    simp only [map_eq_ok, true_and, ne_eq, not_true_eq_false, false_and, or_false,
      ← absent_eq_some]
    constructor
    · rintro ⟨_ | w, hw, h⟩
      · cases h
      · exact ⟨w, hw, (Option.some.inj h).symm⟩
    · rintro ⟨w, hw, rfl⟩
      exact ⟨some w, hw, rfl⟩
  | own w => simp [eq_comm]
  | shared w => simp [eq_comm]

/-- What a member holds after its share of the fields. -/
def MemberRun (p : Parser) (mode : Mode) (m : Member) (gs : List Field) (slot : Slot Value) :
    Prop :=
  (gs = [] ∧ m.absent p mode = .ok (some slot)) ∨
    (gs ≠ [] ∧ ∃ w, p.run mode gs = .ok w ∧ (∀ c ∈ m.checks, c.Passes w) ∧ slot = .own w)

def PartRun (parserOf : Form → Parser) (mode : Mode) :
    RecordPart × List Field → String × Slot Value → Prop
  | (.member m, gs), (a, slot) => a = m.attr ∧ MemberRun (parserOf m.form) mode m gs slot
  | (.constant b x, _), (a, slot) => a = b ∧ slot = x

inductive MemberEnds (p : Parser) (mode : Mode) (path : Path) (m : Member) :
    List Field → Collected → Prop
  | absent {slot} : m.absent p mode = .ok (some slot) →
    MemberEnds p mode path m [] ⟨[(m.attr, slot)], []⟩
  | missing : m.absent p mode = .ok none →
    MemberEnds p mode path m [] ⟨[], [(Error.ofKind .missing).named path]⟩
  | failed {gs es} : gs ≠ [] → p.Yields mode gs (.error es) →
    MemberEnds p mode path m gs ⟨[], es.named path⟩
  | checked {gs v es} : gs ≠ [] → p.Yields mode gs (.ok v) → m.check v = .ok es →
    MemberEnds p mode path m gs ⟨[(m.attr, .own v)], es.named path⟩

def PartEnds (parserOf : Form → Parser) (mode : Mode) (parent : Option Name) :
    RecordPart × List Field → Collected → Prop
  | (.member m, gs), c => MemberEnds (parserOf m.form) mode (.ofParts parent m.name) m gs c
  | (.constant a x, _), c => c = ⟨[(a, x)], []⟩

def gathered (cs : List Collected) : Collected :=
  ⟨cs.flatMap Collected.fields, cs.flatMap Collected.errors⟩

def Collected.plus (c d : Collected) : Collected := ⟨c.fields ++ d.fields, c.errors ++ d.errors⟩

theorem finish_iff {m : Member} {p : Parser} {path : Path} {gs : List Field} {c c' : Collected} :
    (∃ s, MemberStands p mode gs s ∧ m.finish p mode path s c = .ok c') ↔
      ∃ d, MemberEnds p mode path m gs d ∧ c.plus d = c' := by
  constructor
  · rintro ⟨_ | s, hs, hf⟩
    · obtain rfl : gs = [] := hs
      obtain ⟨_ | a, ha, hf⟩ := bind_eq_ok.1 hf
      · obtain rfl := Except.ok.inj hf
        exact ⟨_, .missing ha, by simp [Collected.plus, Collected.fail]⟩
      · obtain rfl := Except.ok.inj hf
        exact ⟨_, .absent ha, by simp [Collected.plus, Collected.put]⟩
    · obtain ⟨hne, hs⟩ := hs
      obtain ⟨es | w, hr, hf⟩ := bind_eq_ok.1 hf
      · obtain rfl := Except.ok.inj hf
        refine ⟨_, .failed hne ((Parser.yields_of_reach hs).2 hr), ?_⟩
        simp [Collected.plus, Collected.fail]
      · obtain ⟨es, hes, hf⟩ := bind_eq_ok.1 hf
        obtain rfl := Except.ok.inj hf
        refine ⟨_, .checked hne ((Parser.yields_of_reach hs).2 hr) hes, ?_⟩
        simp [Collected.plus, Collected.fail, Collected.put]
  · rintro ⟨d, hd, rfl⟩
    cases hd with
    | absent ha =>
      refine ⟨none, rfl, ?_⟩
      rw [Member.finish, ha]
      simp [Collected.plus, Collected.put, bind_ok]
    | missing ha =>
      refine ⟨none, rfl, ?_⟩
      rw [Member.finish, ha]
      simp [Collected.plus, Collected.fail, bind_ok]
    | failed hne hy =>
      obtain ⟨s, hs, hr⟩ := Parser.yields_iff.1 hy
      refine ⟨some s, ⟨hne, hs⟩, ?_⟩
      rw [Member.finish, hr]
      simp [Collected.plus, Collected.fail, bind_ok]
    | checked hne hy hes =>
      obtain ⟨s, hs, hr⟩ := Parser.yields_iff.1 hy
      refine ⟨some s, ⟨hne, hs⟩, ?_⟩
      rw [Member.finish, hr, bind_ok]
      simp [hes, Collected.plus, Collected.fail, Collected.put, bind_ok]

theorem finishParts_iff {parent : Option Name} {c c' : Collected} :
    (∃ st, MemberStates.Stand mode ps fs st ∧
        finishParts parserOf mode parent ps st c = .ok c') ↔
      ∃ cs, List.Forall₂ (PartEnds parserOf mode parent) (shares ps fs) cs ∧
        c.plus (gathered cs) = c' := by
  induction ps generalizing fs c with
  | nil =>
    simp only [shares, List.forall₂_nil_left_iff, exists_eq_left]
    constructor
    · rintro ⟨st, -, h⟩
      obtain rfl := Except.ok.inj h
      simp [Collected.plus, gathered]
    · intro h
      exact ⟨(), trivial, by rw [← h]; simp [finishParts, Collected.plus, gathered]⟩
  | cons part ps ih =>
    have hplus (d : Collected) (cs : List Collected) :
        c.plus (gathered (d :: cs)) = (c.plus d).plus (gathered cs) := by
      simp [Collected.plus, gathered]
    cases part with
    | constant a x =>
      simp only [shares, List.forall₂_cons_left_iff]
      have hput : c.put a x = c.plus ⟨[(a, x)], []⟩ := by simp [Collected.put, Collected.plus]
      constructor
      · rintro ⟨st, hst, h⟩
        obtain ⟨cs, hcs, rfl⟩ := ih.1 ⟨st, hst, h⟩
        exact ⟨_ :: cs, ⟨_, cs, rfl, hcs, rfl⟩, by rw [hplus, hput]⟩
      · rintro ⟨_, ⟨d, cs, rfl, hcs, rfl⟩, rfl⟩
        obtain ⟨st, hst, h⟩ := ih.2 ⟨cs, hcs, (hplus _ cs).symm⟩
        rw [← hput] at h
        exact ⟨st, hst, h⟩
    | member m =>
      simp only [shares, List.forall₂_cons_left_iff]
      constructor
      · rintro ⟨⟨s, st⟩, ⟨hs, hst⟩, h⟩
        obtain ⟨c₁, hf, h⟩ := bind_eq_ok.1 h
        obtain ⟨d, hd, rfl⟩ := finish_iff.1 ⟨s, hs, hf⟩
        obtain ⟨cs, hcs, rfl⟩ := ih.1 ⟨st, hst, h⟩
        exact ⟨d :: cs, ⟨d, cs, hd, hcs, rfl⟩, hplus d cs⟩
      · rintro ⟨_, ⟨d, cs, hd, hcs, rfl⟩, rfl⟩
        obtain ⟨s, hs, hf⟩ := finish_iff.2 ⟨d, hd, rfl⟩
        obtain ⟨st, hst, h⟩ := ih.2 ⟨cs, hcs, (hplus d cs).symm⟩
        exact ⟨(s, st), ⟨hs, hst⟩, bind_eq_ok.2 ⟨_, hf, h⟩⟩

def recordVerdict (type : RecordType) (objections : Objections) (c : Collected) :
    Except FormErrors Value := verdict (c.complaints objections) (.record type c.fields)

theorem failures_recordVerdict (type : RecordType) (objections : Objections) (c : Collected) :
    failures (recordVerdict type objections c) = c.complaints objections := failures_verdict _ _

theorem recordVerdict_of_ne_nil {type : RecordType} {objections : Objections} {c : Collected}
    (h : c.errors ≠ []) : recordVerdict type objections c = .error c.errors := by
  rw [recordVerdict, Collected.complaints_of_ne_nil h, verdict, if_neg (by simpa using h)]

theorem finalize_record (type : RecordType) (s : RecordState parserOf ps) :
    s.finalize type objections =
      Outcome.ofFault (finishParts parserOf s.mode s.parent ps s.members ⟨[], s.errors⟩) >>= fun c =>
        Outcome.ofErrors (recordVerdict type objections c) := by
  unfold RecordState.finalize
  congr 1
  funext c
  unfold recordVerdict verdict
  split
  · next h => rw [h]; rfl
  · next h => rw [if_neg (by simpa using h)]; rfl

/-- A record ends as its parts do on their shares and as its constructor says of their slots. -/
theorem yields_record {type : RecordType} {d : Except Fault (List RecordPart)}
    {x : Except FormErrors Value} :
    (Parser.record type d objections parserOf).Yields mode fs x ↔
      ∃ ps, d = .ok ps ∧ ∃ cs,
        List.Forall₂ (PartEnds parserOf mode (parentOf fs)) (shares ps fs) cs ∧
          x = recordVerdict type objections
            (Collected.plus ⟨[], fs.flatMap (strayMember mode ps)⟩ (gathered cs)) := by
  cases d with
  | error e =>
    rw [Parser.yields_iff]
    constructor
    · rintro ⟨s, -, h⟩
      cases h
    · rintro ⟨ps, h, -⟩
      cases h
  | ok ps =>
    have hfin (s : RecordState parserOf ps) :
        Outcome.caught (s.finalize type objections) = .ok x ↔
          ∃ c, finishParts parserOf s.mode s.parent ps s.members ⟨[], s.errors⟩ = .ok c ∧
            x = recordVerdict type objections c := by
      simp only [finalize_record, Outcome.caught_ofFault_bind, bind_eq_ok, Outcome.caught_ofErrors,
        Except.ok.injEq]
      exact exists_congr fun c => and_congr_right fun _ => eq_comm
    rw [Parser.yields_iff]
    constructor
    · rintro ⟨s, hs, h⟩
      obtain ⟨rfl, hp, hx, hst⟩ := reach_record.1 hs
      obtain ⟨c, hc, rfl⟩ := (hfin s).1 h
      rw [hp, hx] at hc
      obtain ⟨cs, hcs, rfl⟩ := finishParts_iff.1 ⟨_, hst, hc⟩
      exact ⟨ps, rfl, cs, hcs, rfl⟩
    · rintro ⟨qs, hqs, cs, hcs, rfl⟩
      obtain rfl := Except.ok.inj hqs
      obtain ⟨st, hst, hc⟩ := (@finishParts_iff _ _ _ _ _ ⟨[], fs.flatMap (strayMember mode ps)⟩ _).2
        ⟨cs, hcs, rfl⟩
      exact ⟨⟨mode, parentOf fs, st, fs.flatMap (strayMember mode ps)⟩,
        reach_record.2 ⟨rfl, rfl, rfl, hst⟩, (hfin _).2 ⟨_, hc, rfl⟩⟩

theorem partEnds_eq_nil (hp : ∀ form, (parserOf form).Explains) {parent : Option Name}
    {share : RecordPart × List Field} {c : Collected} :
    PartEnds parserOf mode parent share c ∧ c.errors = [] ↔
      ∃ slot, PartRun parserOf mode share slot ∧ ⟨[slot], []⟩ = c := by
  rcases share with ⟨m | ⟨a, x⟩, gs⟩
  · constructor
    · rintro ⟨h, he⟩
      cases h with
      | absent ha => exact ⟨_, ⟨rfl, .inl ⟨rfl, ha⟩⟩, rfl⟩
      | missing ha => cases he
      | failed hne hy =>
        obtain rfl := List.map_eq_nil_iff.1 he
        exact absurd (Parser.yields_errors.1 hy) (hp _ _ _)
      | checked hne hy hes =>
        obtain rfl := List.map_eq_nil_iff.1 he
        exact ⟨_, ⟨rfl, .inr ⟨hne, _, Parser.yields_value.1 hy, check_eq_ok.1 hes, rfl⟩⟩, rfl⟩
    · rintro ⟨⟨a, slot⟩, ⟨rfl, ⟨rfl, ha⟩ | ⟨hne, w, hw, hcs, rfl⟩⟩, rfl⟩
      · exact ⟨.absent ha, rfl⟩
      · exact ⟨.checked hne (Parser.yields_value.2 hw) (check_eq_ok.2 hcs), rfl⟩
  · constructor
    · rintro ⟨rfl, -⟩
      exact ⟨(a, x), ⟨rfl, rfl⟩, rfl⟩
    · rintro ⟨⟨b, y⟩, ⟨rfl, rfl⟩, rfl⟩
      exact ⟨rfl, rfl⟩

theorem partsEnd_eq_nil (hp : ∀ form, (parserOf form).Explains) {parent : Option Name}
    {gss : List (RecordPart × List Field)} {cs : List Collected} :
    List.Forall₂ (PartEnds parserOf mode parent) gss cs ∧ (gathered cs).errors = [] ↔
      ∃ slots, List.Forall₂ (PartRun parserOf mode) gss slots ∧
        slots.map (fun slot => ⟨[slot], []⟩) = cs := by
  have heq (slots : List (String × Slot Value)) :
      slots.map (fun slot => ⟨[slot], []⟩) = cs ↔
        List.Forall₂ (fun slot c => (⟨[slot], []⟩ : Collected) = c) slots cs := by
    rw [← List.forall₂_map_left_iff, List.forall₂_eq_eq_eq]
  simp only [heq, ← forall₂_comp_iff]
  constructor
  · rintro ⟨h, he⟩
    have he := List.flatMap_eq_nil_iff.1 he
    exact forall₂_imp_on (fun _ _ c hc h => (partEnds_eq_nil hp).1 ⟨h, he c hc⟩) h
  · intro h
    have h : List.Forall₂ (fun share c => PartEnds parserOf mode parent share c ∧ c.errors = [])
        gss cs := h.imp fun _ _ h => (partEnds_eq_nil hp).2 h
    refine ⟨h.imp fun _ _ h => h.1, List.flatMap_eq_nil_iff.2 fun c hc => ?_⟩
    obtain ⟨_, -, h⟩ := forall₂_right h c hc
    exact h.2

theorem gathered_slots (slots : List (String × Slot Value)) :
    gathered (slots.map fun slot => ⟨[slot], []⟩) = ⟨slots, []⟩ := by
  simp [gathered, List.flatMap_map]

theorem strayMember_nil :
    fs.flatMap (strayMember mode ps) = [] ↔
      ∀ f ∈ fs, isName ps f.name.keyText = true ∨ f.isIgnored mode = true := by
  rw [List.flatMap_eq_nil_iff]
  refine forall₂_congr fun f _ => ?_
  unfold strayMember
  cases isName ps f.name.keyText <;> cases f.isIgnored mode <;> simp

/-- A record has a value if it is declared, every field leads to a member or is left aside, every
part has a slot, and the constructor has nothing against the slots. -/
theorem run_record_eq_ok {type : RecordType} {d : Except Fault (List RecordPart)} {v : Value}
    (hp : ∀ form, (parserOf form).Explains) :
    (Parser.record type d objections parserOf).run mode fs = .ok v ↔
      ∃ ps, d = .ok ps ∧
        (∀ f ∈ fs, isName ps f.name.keyText = true ∨ f.isIgnored mode = true) ∧
        ∃ slots, List.Forall₂ (PartRun parserOf mode) (shares ps fs) slots ∧
          objections slots = [] ∧ .record type slots = v := by
  rw [← Parser.yields_value, yields_record]
  constructor
  · rintro ⟨ps, rfl, cs, hcs, h⟩
    obtain ⟨hnone, rfl⟩ := verdict_eq_ok.1 h.symm
    obtain ⟨he, ho⟩ := Collected.complaints_eq_nil.1 hnone
    obtain ⟨hn, he⟩ := List.append_eq_nil_iff.1 he
    obtain ⟨slots, hslots, rfl⟩ := (partsEnd_eq_nil hp).1 ⟨hcs, he⟩
    rw [gathered_slots] at ho
    exact ⟨ps, rfl, strayMember_nil.1 hn, slots, hslots, ho, by rw [gathered_slots]; rfl⟩
  · rintro ⟨ps, rfl, hn, slots, hslots, ho, rfl⟩
    obtain ⟨hcs, -⟩ := (partsEnd_eq_nil hp).2 ⟨slots, hslots, rfl⟩
    refine ⟨ps, rfl, _, hcs, ?_⟩
    rw [strayMember_nil.2 hn, gathered_slots]
    exact (verdict_eq_ok.2 ⟨Collected.complaints_eq_nil.2 ⟨rfl, ho⟩, rfl⟩).symm

namespace MemberStates

variable {keeps : Form → Bool}

/-- No member has been reached whose states are nothing to the record. -/
def Lacks (keeps : Form → Bool) : (ps : List RecordPart) → MemberStates parserOf ps → Prop
  | [], _ => True
  | .member m :: ps, (s, rest) => (keeps m.form = false → s = none) ∧ Lacks keeps ps rest
  | .constant _ _ :: ps, rest => Lacks keeps ps rest

theorem init_lacks : Lacks keeps ps (init ps : MemberStates parserOf ps) := by
  induction ps with
  | nil => trivial
  | cons part ps ih =>
    cases part with
    | constant a x => exact ih
    | member m => exact ⟨fun _ => rfl, ih⟩

theorem pushInto_unkept {p : Parser} {s s' : Option p.State}
    (h : (pushInto p mode s f false).result = .ok s') : s' = none := by
  cases s with
  | some a =>
    obtain ⟨_, -, rfl⟩ := Step.result_map_eq_ok.1 h
    rfl
  | none =>
    unfold pushInto at h
    cases hi : p.init mode with
    | error e =>
      rw [hi] at h
      cases h
    | ok a =>
      rw [hi] at h
      obtain ⟨_, -, rfl⟩ := Step.result_map_eq_ok.1 h
      rfl

theorem push_lacks {key : Key} {st st' : MemberStates parserOf ps}
    {r : Step (MemberStates parserOf ps)} (hst : Lacks keeps ps st)
    (hp : push mode key f ps st keeps = some r) (hr : r.result = .ok st') : Lacks keeps ps st' := by
  induction ps with
  | nil => cases hp
  | cons part ps ih =>
    cases part with
    | constant a x => exact ih hst hp hr
    | member m =>
      rcases st with ⟨s, rest⟩
      obtain ⟨hs, hrest⟩ := hst
      by_cases hm : key ∈ m.names
      · obtain rfl := Option.some.inj ((if_pos hm).symm.trans hp)
        obtain ⟨s', hs', rfl⟩ := Step.result_map_eq_ok.1 hr
        refine ⟨fun hk => ?_, hrest⟩
        rw [hk] at hs'
        exact pushInto_unkept hs'
      · obtain ⟨r', hr', rfl⟩ := Option.map_eq_some_iff.1 ((if_neg hm).symm.trans hp)
        obtain ⟨rest', hrest', rfl⟩ := Step.result_map_eq_ok.1 hr
        exact ⟨hs, ih hrest hr' hrest'⟩

end MemberStates

/-- Members whose states are nothing to the record are as if no field had reached them. -/
theorem reach_record_lacks {type : RecordType} {keeps : Form → Bool} {s : RecordState parserOf ps}
    (hs : (Parser.record type (.ok ps) objections parserOf keeps).reach mode fs = .ok s) :
    s.members.Lacks keeps := by
  induction fs using List.reverseRecOn generalizing s with
  | nil =>
    obtain rfl := Except.ok.inj ((Parser.reach_nil _ _).symm.trans hs)
    exact MemberStates.init_lacks
  | append_singleton fs f ih =>
    rw [Parser.reach_snoc, bind_eq_ok] at hs
    obtain ⟨t, ht, hf⟩ := hs
    have hlacks := ih ht
    have hf : (t.push f keeps).result = .ok s := hf
    unfold RecordState.push at hf
    dsimp only at hf
    split at hf
    · next r hr =>
      obtain ⟨st, hst, rfl⟩ := Step.result_map_eq_ok.1 hf
      exact MemberStates.push_lacks hlacks hr hst
    · split_ifs at hf <;> obtain rfl := Except.ok.inj hf <;> exact hlacks

end WebForm
