import Mathlib
import WebForm.Proofs.Depth.Follow

/-!
# Parsers in step with each other

A parser in one mode can be in step with another one in any mode: both start and take every field
alike, even where they break down, and make the same of it in the end. A parser is in step with
itself behind a mode of its own. A list, a dictionary, a pair and a wrapped form only hand their
mode on, so they are in step as soon as their parts are. A record looks at its mode, and is in step
if that is fixed.
-/
namespace WebForm

section Tied

variable {ε α β γ δ : Type} {rel : α → β → Prop} {rel' : γ → δ → Prop} {x : Except ε α}
  {y : Except ε β}

/-- The same error, or related results. -/
inductive Tied (rel : α → β → Prop) : Except ε α → Except ε β → Prop
  | ok {a b} : rel a b → Tied rel (.ok a) (.ok b)
  | error (e) : Tied rel (.error e) (.error e)

namespace Tied

theorem bind (h : Tied rel x y) {g : α → Except ε γ} {k : β → Except ε δ}
    (hg : ∀ a b, rel a b → Tied rel' (g a) (k b)) : Tied rel' (x >>= g) (y >>= k) := by
  cases h with
  | ok hab => exact hg _ _ hab
  | error e => exact .error e

theorem map (h : Tied rel x y) {g : α → γ} {k : β → δ}
    (hg : ∀ a b, rel a b → rel' (g a) (k b)) : Tied rel' (x.map g) (y.map k) := by
  cases h with
  | ok hab => exact .ok (hg _ _ hab)
  | error e => exact .error e

theorem bind_eq (h : Tied rel x y) {g : α → Except ε γ} {k : β → Except ε γ}
    (hg : ∀ a b, rel a b → g a = k b) : (x >>= g) = (y >>= k) := by
  cases h with
  | ok hab => exact hg _ _ hab
  | error e => rfl

theorem refl (x : Except ε α) : Tied Eq x x := by
  cases x with
  | ok a => exact .ok rfl
  | error e => exact .error e

theorem ofFault {x : Except Fault α} {y : Except Fault β} (h : Tied rel x y) :
    Tied rel (Outcome.ofFault x) (Outcome.ofFault y) := by
  cases h with
  | ok hab => exact .ok hab
  | error f => exact .error _

theorem stepMap {r : Step α} {r' : Step β} (h : Tied rel r.result r'.result) {g : α → γ}
    {k : β → δ} (hg : ∀ a b, rel a b → rel' (g a) (k b)) :
    Tied rel' (r.map g).result (r'.map k).result := by
  rw [Step.result_map, Step.result_map]
  exact h.map hg

end Tied

end Tied

namespace Parser

variable {m mode : Mode} {p q : Parser} {rel : p.State → q.State → Prop} {fs : List Field}
  {f : Field}

/-- The second parser goes in any mode the way of the first one in mode `m`. -/
structure Ties (m : Mode) (p q : Parser) (rel : p.State → q.State → Prop) : Prop where
  init (mode : Mode) : Tied rel (p.init m) (q.init mode)
  feed {s t} (f : Field) : rel s t → Tied rel (p.feed s f) (q.feed t f)
  finalize {s t} : rel s t → p.finalize s = q.finalize t

/-- The parsers are in step by some relation between their states. -/
def InStep (m : Mode) (p q : Parser) : Prop := ∃ rel, Ties m p q rel

namespace Ties

theorem reach (h : Ties m p q rel) (mode : Mode) (fs : List Field) :
    Tied rel (p.reach m fs) (q.reach mode fs) := by
  induction fs using List.reverseRecOn with
  | nil =>
    rw [reach_nil, reach_nil]
    exact h.init mode
  | append_singleton fs f ih =>
    rw [reach_snoc, reach_snoc]
    exact ih.bind fun s t hst => h.feed f hst

/-- In a run related states are all that the two parsers go through, so they end alike. -/
theorem run (h : Ties m p q rel) (mode : Mode) (fs : List Field) :
    p.run m fs = q.run mode fs := by
  rw [run_eq, run_eq]
  exact (h.reach mode fs).ofFault.bind_eq fun s t hst => h.finalize hst

theorem absent (h : Ties m p q rel) (mode : Mode) : p.absent m = q.absent mode := by
  rw [Parser.absent, Parser.absent, h.run mode []]

end Ties

theorem inStep_forced (m : Mode) (p : Parser) : InStep m p (forced m p) := by
  refine ⟨Eq, fun mode => Tied.refl _, ?_, ?_⟩
  · rintro s _ f rfl
    exact Tied.refl _
  · rintro s _ rfl
    rfl

theorem inStep_failing (m : Mode) (f : Fault) : InStep m (failing f) (failing f) := by
  refine ⟨Eq, fun mode => .error f, ?_, ?_⟩
  · rintro s _ g rfl
    exact .error f
  · rintro s _ rfl
    rfl

section Wrapped

variable {item item' : Parser}

theorem InStep.of_forced (outer : Mode) (h : InStep m item item') :
    InStep outer (forced m item) item' := by
  obtain ⟨rel, h⟩ := h
  exact ⟨rel, h.init, h.feed, h.finalize⟩

theorem inStep_optional (h : InStep m item item') : InStep m (optional item) (optional item') := by
  obtain ⟨rel, h⟩ := h
  refine ⟨rel, h.init, h.feed, fun hst => ?_⟩
  simp only [h.finalize hst]

theorem inStep_result (h : InStep m item item') : InStep m (result item) (result item') := by
  obtain ⟨rel, h⟩ := h
  refine ⟨rel, h.init, h.feed, fun hst => ?_⟩
  simp only [h.finalize hst]

theorem inStep_contextual (h : InStep m item item') :
    InStep m (contextual item) (contextual item') := by
  obtain ⟨rel, h⟩ := h
  refine ⟨fun s t => rel s.1 t.1 ∧ s.2 = t.2, fun mode => ?_, ?_, ?_⟩
  · exact (h.init mode).map fun a b hab => ⟨hab, rfl⟩
  · rintro ⟨s, c⟩ ⟨t, _⟩ f ⟨hst, rfl⟩
    unfold Parser.feed
    exact Tied.stepMap (h.feed f hst) fun a b hab => ⟨hab, rfl⟩
  · rintro ⟨s, c⟩ ⟨t, _⟩ ⟨hst, rfl⟩
    simp only [h.finalize hst]

end Wrapped

section Pair

variable {l r l' r' : Parser}

theorem inStep_pair (hl : InStep m l l') (hr : InStep m r r') :
    InStep m (pair l r) (pair l' r') := by
  obtain ⟨rl, hl⟩ := hl
  obtain ⟨rr, hr⟩ := hr
  refine ⟨fun s t => rl s.left t.left ∧ rr s.right t.right ∧ s.errors = t.errors, ?_, ?_, ?_⟩
  · intro mode
    exact (hl.init mode).bind fun a b hab => (hr.init mode).bind fun c d hcd =>
      .ok ⟨hab, hcd, rfl⟩
  · rintro ⟨a, c, es⟩ ⟨b, d, _⟩ f ⟨hab, hcd, rfl⟩
    change Tied _ (PairState.push _ f).result (PairState.push _ f).result
    unfold PairState.push
    split_ifs
    · exact Tied.stepMap (hl.feed f.shift hab) fun a b hab => ⟨hab, hcd, rfl⟩
    · exact Tied.stepMap (hr.feed f.shift hcd) fun c d hcd => ⟨hab, hcd, rfl⟩
    · exact .ok ⟨hab, hcd, rfl⟩
  · rintro ⟨a, c, es⟩ ⟨b, d, _⟩ ⟨hab, hcd, rfl⟩
    change PairState.finalize _ = PairState.finalize _
    rw [finalize_pair, finalize_pair, hl.finalize hab, hr.finalize hcd]

end Pair

section List

variable {item item' : Parser} {rel : item.State → item'.State → Prop}

def ListTied (m : Mode) (rel : item.State → item'.State → Prop) (s : ListState item.State)
    (t : ListState item'.State) : Prop :=
  s.mode = m ∧ s.lastKey = t.lastKey ∧ s.items = t.items ∧ s.errors = t.errors ∧
    Option.Rel rel s.current t.current

theorem flush_tied (h : Ties m item item' rel) {k : Option Key} {vs : List Value}
    {es : FormErrors} {c : Option item.State} {c' : Option item'.State} (hc : Option.Rel rel c c') :
    Tied (ListTied m rel) (ListState.flush ⟨m, k, c, vs, es⟩).result
      (ListState.flush ⟨mode, k, c', vs, es⟩).result := by
  cases hc with
  | none => exact .ok ⟨rfl, rfl, rfl, rfl, .none⟩
  | some hcd =>
    rw [ListState.result_flush, ListState.result_flush, h.finalize hcd]
    refine (Tied.refl _).bind ?_
    rintro r _ rfl
    exact .ok ⟨rfl, rfl, rfl, rfl, .none⟩

theorem feed_list_tied (h : Ties m item item' rel) {k : Option Key} {vs : List Value}
    {es : FormErrors} {c : Option item.State} {c' : Option item'.State} (hc : Option.Rel rel c c')
    (f : Field) :
    Tied (ListTied m rel) ((list item).feed ⟨m, k, c, vs, es⟩ f)
      ((list item').feed ⟨mode, k, c', vs, es⟩ f) := by
  have hstarted (hs : ListState.joined ⟨m, k, c, vs, es⟩ f.name.key? = none)
      (ht : ListState.joined ⟨mode, k, c', vs, es⟩ f.name.key? = none) :
      Tied (ListTied m rel) ((list item).feed ⟨m, k, c, vs, es⟩ f)
        ((list item').feed ⟨mode, k, c', vs, es⟩ f) := by
    rw [ListState.feed_started hs, ListState.feed_started ht]
    refine (flush_tied h hc).bind ?_
    rintro a b ⟨hm, -, hvs, hes, -⟩
    rw [hm]
    refine (h.init b.mode).bind fun c d hcd => (h.feed f.shift hcd).bind fun c d hcd => ?_
    exact .ok ⟨rfl, rfl, hvs, hes, .some hcd⟩
  by_cases hj : f.name.key?.isSome = true ∧ k = f.name.key?
  · obtain ⟨hk, hl⟩ := hj
    cases hc with
    | none => exact hstarted (by simp [ListState.joined]) (by simp [ListState.joined])
    | some hcd =>
      rw [ListState.feed_joined hk hl, ListState.feed_joined hk hl]
      exact (h.feed f.shift hcd).bind fun c d hcd => .ok ⟨rfl, rfl, rfl, rfl, .some hcd⟩
  · have hnone : ¬(f.name.key?.isSome && k == f.name.key?) = true := by
      rwa [Bool.and_eq_true, beq_iff_eq]
    exact hstarted (if_neg hnone) (if_neg hnone)

theorem inStep_list (h : InStep m item item') : InStep m (list item) (list item') := by
  obtain ⟨rel, h⟩ := h
  refine ⟨ListTied m rel, fun mode => .ok ⟨rfl, rfl, rfl, rfl, .none⟩, ?_, ?_⟩
  · rintro ⟨_, k, c, vs, es⟩ ⟨mode, _, c', _, _⟩ f ⟨rfl, rfl, rfl, rfl, hc⟩
    exact feed_list_tied h hc f
  · rintro ⟨_, k, c, vs, es⟩ ⟨mode, _, c', _, _⟩ ⟨rfl, rfl, rfl, rfl, hc⟩
    change ListState.finalize _ = ListState.finalize _
    rw [finalize_list, finalize_list]
    refine (flush_tied h hc).ofFault.bind_eq ?_
    rintro a b ⟨-, -, hvs, hes, -⟩
    rw [hvs, hes]

end List

section Dict

variable {key key' value value' : Parser} {rk : key.State → key'.State → Prop}
  {rv : value.State → value'.State → Prop} {es : List (DictEntry key.State value.State)}
  {es' : List (DictEntry key'.State value'.State)} {i : String}

theorem change_tied {g : DictEntry key.State value.State → Step (DictEntry key.State value.State)}
    {g' : DictEntry key'.State value'.State → Step (DictEntry key'.State value'.State)}
    (hg : ∀ e e', Entered rk rv e e' → Tied (Entered rk rv) (g e).result (g' e').result)
    (hes : List.Forall₂ (Entered rk rv) es es') :
    Tied (List.Forall₂ (Entered rk rv)) (DictState.change i g es).result
      (DictState.change i g' es').result := by
  induction hes with
  | nil => exact .ok .nil
  | @cons e e' es es' he hes ih =>
    rw [DictState.change, DictState.change, he.1]
    split_ifs
    · exact Tied.stepMap (hg e e' he) fun a b hab => .cons hab hes
    · exact Tied.stepMap ih fun as bs habs => .cons he habs

theorem pushKey_tied (hk : Ties m key key' rk) (f : Field) {e : DictEntry key.State value.State}
    {e' : DictEntry key'.State value'.State} (he : Entered rk rv e e') :
    Tied (Entered rk rv) (DictState.pushKey f e).result (DictState.pushKey f e').result := by
  obtain ⟨hi, hp, hks, hvs⟩ := he
  rw [DictState.pushKey, DictState.pushKey]
  exact Tied.stepMap (hk.feed f hks) fun a b hab => ⟨hi, hp, hab, hvs⟩

theorem serve_tied (hk : Ties m key key' rk) (hv : Ties m value value' rv) (f : Field)
    {e : DictEntry key.State value.State} {e' : DictEntry key'.State value'.State}
    (he : Entered rk rv e e') :
    Tied (Entered rk rv) (DictState.serve f e).result (DictState.serve f e').result := by
  unfold DictState.serve
  split
  · exact pushKey_tied hk f.shift he
  · obtain ⟨hi, hp, hks, hvs⟩ := he
    rw [DictState.pushValue, DictState.pushValue]
    exact Tied.stepMap (hv.feed f.shift hvs) fun a b hab => ⟨hi, hp, hks, hab⟩

theorem fresh_tied (hk : Ties m key key' rk) (hv : Ties m value value' rv) (mode : Mode)
    (direct : Bool) (place : View) :
    Tied (Entered rk rv) (DictState.fresh m direct i place)
      (DictState.fresh mode direct i place) := by
  refine (hk.init mode).bind fun a b hab => (hv.init mode).bind fun c d hcd => ?_
  cases direct
  · exact .ok ⟨rfl, rfl, hab, hcd⟩
  · exact pushKey_tied hk _ ⟨rfl, rfl, hab, hcd⟩

theorem feedEntries_tied (hk : Ties m key key' rk) (hv : Ties m value value' rv) (mode : Mode)
    (f : Field) (hes : List.Forall₂ (Entered rk rv) es es') :
    Tied (List.Forall₂ (Entered rk rv)) (DictState.feedEntries m f es)
      (DictState.feedEntries mode f es') := by
  unfold DictState.feedEntries
  cases f.target.index? with
  | none => exact .ok hes
  | some i =>
    simp only [any_entered hes]
    split_ifs
    · exact change_tied (fun e e' he => serve_tied hk hv f he) hes
    · refine (fresh_tied hk hv mode _ _).bind fun e e' he => ?_
      exact change_tied (fun e e' he => serve_tied hk hv f he)
        (List.rel_append hes (.cons he .nil))

theorem collect_tied (hk : Ties m key key' rk) (hv : Ties m value value' rv)
    (hes : List.Forall₂ (Entered rk rv) es es') (xs : FormErrors) (items : List (Value × Value)) :
    DictState.collect xs items es = DictState.collect xs items es' := by
  induction hes generalizing xs items with
  | nil => rfl
  | cons he _ ih =>
    obtain ⟨-, hp, hks, hvs⟩ := he
    simp only [DictState.collect, hp, hk.finalize hks, hv.finalize hvs, ih]

theorem inStep_dict (hk : InStep m key key') (hv : InStep m value value') :
    InStep m (dict key value) (dict key' value') := by
  obtain ⟨rk, hk⟩ := hk
  obtain ⟨rv, hv⟩ := hv
  refine ⟨fun s t => s.mode = m ∧ s.errors = t.errors ∧
    List.Forall₂ (Entered rk rv) s.entries t.entries, fun mode => .ok ⟨rfl, rfl, .nil⟩, ?_, ?_⟩
  · rintro ⟨_, es, xs⟩ ⟨mode, es', _⟩ f ⟨rfl, rfl, hes⟩
    rw [DictState.feed_dict, DictState.feed_dict]
    exact (feedEntries_tied hk hv mode f hes).bind fun ds ds' hds => .ok ⟨rfl, rfl, hds⟩
  · rintro ⟨_, es, xs⟩ ⟨mode, es', _⟩ ⟨rfl, rfl, hes⟩
    change DictState.finalize _ = DictState.finalize _
    unfold DictState.finalize
    rw [collect_tied hk hv hes]

end Dict

section Record

variable {parserOf parserOf' : Form → Parser} {ps : List RecordPart}
  {rels : ∀ form, (parserOf form).State → (parserOf' form).State → Prop}

theorem pushInto_tied (h : Ties m p q rel) {s : Option p.State} {t : Option q.State}
    (hst : Option.Rel rel s t) (f : Field) :
    Tied (Option.Rel rel) (MemberStates.pushInto p m s f).result
      (MemberStates.pushInto q m t f).result := by
  cases hst with
  | some hst =>
    rw [MemberStates.pushInto, MemberStates.pushInto]
    exact Tied.stepMap (h.feed f hst) fun a b hab => .some hab
  | none =>
    have hinit := h.init m
    unfold MemberStates.pushInto
    generalize p.init m = x at hinit ⊢
    generalize q.init m = y at hinit ⊢
    cases hinit with
    | error e => exact .error e
    | ok hab =>
      exact Tied.stepMap (h.feed f hab) fun a b hab => .some hab

theorem push_tied (h : ∀ form, Ties m (parserOf form) (parserOf' form) (rels form)) (key : Key)
    (f : Field) {st : MemberStates parserOf ps} {tt : MemberStates parserOf' ps}
    (hst : MembersAlike rels ps st tt) :
    Option.Rel (fun r r' => Tied (MembersAlike rels ps) r.result r'.result)
      (MemberStates.push m key f ps st) (MemberStates.push m key f ps tt) := by
  induction ps with
  | nil => exact .none
  | cons part ps ih =>
    cases part with
    | constant a x => exact ih hst
    | member mem =>
      rcases st with ⟨s, rest⟩
      rcases tt with ⟨t, rest'⟩
      obtain ⟨hs, hrest⟩ := hst
      rw [MemberStates.push, MemberStates.push]
      split_ifs
      · refine .some ?_
        exact Tied.stepMap (pushInto_tied (h mem.form) hs f) fun a b hab => ⟨hab, hrest⟩
      · have htail := ih hrest
        generalize MemberStates.push m key f ps rest = x at htail ⊢
        generalize MemberStates.push m key f ps rest' = y at htail ⊢
        cases htail with
        | none => exact .none
        | some hr =>
          refine .some ?_
          exact Tied.stepMap hr fun a b hab => ⟨hs, hab⟩

theorem finish_tied (h : Ties m p q rel) {s : Option p.State} {t : Option q.State}
    (hst : Option.Rel rel s t) (mem : Member) (path : Path) (c : Collected) :
    mem.finish p m path s c = mem.finish q m path t c := by
  cases hst with
  | none => simp only [Member.finish, Member.absent, h.absent m]
  | some hst => simp only [Member.finish, h.finalize hst]

theorem finishParts_tied (h : ∀ form, Ties m (parserOf form) (parserOf' form) (rels form))
    {st : MemberStates parserOf ps} {tt : MemberStates parserOf' ps}
    (hst : MembersAlike rels ps st tt) (parent : Option Name) (c : Collected) :
    finishParts parserOf m parent ps st c = finishParts parserOf' m parent ps tt c := by
  induction ps generalizing c with
  | nil => rfl
  | cons part ps ih =>
    cases part with
    | constant a x => exact ih hst _
    | member mem =>
      rcases st with ⟨s, rest⟩
      rcases tt with ⟨t, rest'⟩
      obtain ⟨hs, hrest⟩ := hst
      simp only [finishParts, finish_tied (h mem.form) hs, ih hrest]

def RecordTied (m : Mode) (rels : ∀ form, (parserOf form).State → (parserOf' form).State → Prop)
    (s : RecordState parserOf ps) (t : RecordState parserOf' ps) : Prop :=
  s.mode = m ∧ t.mode = m ∧ s.parent = t.parent ∧ s.errors = t.errors ∧
    MembersAlike rels ps s.members t.members

theorem result_push_stray {s : RecordState parserOf ps}
    (h : s.members.push s.mode f.name.keyText f.shift = none) :
    (s.push f).result = .ok { s with
      parent := f.name.parent?
      errors := s.errors ++ if f.isIgnored s.mode then [] else [f.unexpected] } := by
  have hi : f.isIgnored s.mode =
      RecordState.ignores { s with parent := f.name.parent? } f.name.keyText := rfl
  unfold RecordState.push
  simp only [h, hi]
  split_ifs
  · rw [List.append_nil]
    rfl
  · rfl

theorem push_record_tied (h : ∀ form, Ties m (parserOf form) (parserOf' form) (rels form))
    {s : RecordState parserOf ps} {t : RecordState parserOf' ps} (hst : RecordTied m rels s t)
    (f : Field) : Tied (RecordTied m rels) (s.push f).result (t.push f).result := by
  rcases s with ⟨m₁, parent, st, es⟩
  rcases t with ⟨m₂, _, tt, _⟩
  obtain ⟨hs, ht, rfl, rfl, hst⟩ := hst
  obtain rfl : m₁ = m := hs
  obtain rfl : m₂ = m₁ := ht
  cases hx : MemberStates.push m₂ f.name.keyText f.shift ps st with
  | none =>
    have hn : isName ps f.name.keyText = false := MemberStates.isName_of_push hx
    rw [result_push_stray hx, result_push_stray (MemberStates.push_none hn)]
    exact .ok ⟨rfl, rfl, rfl, rfl, hst⟩
  | some r =>
    have hpush := push_tied h f.name.keyText f.shift hst
    rw [hx] at hpush
    unfold RecordState.push
    simp only [hx]
    generalize MemberStates.push m₂ f.name.keyText f.shift ps tt = y at hpush ⊢
    cases hpush with
    | some hr => exact Tied.stepMap hr fun a b hab => ⟨rfl, rfl, rfl, rfl, hab⟩

/-- A record in a mode of its own hands this mode on to its members, those without fields
included. -/
theorem inStep_record (h : ∀ form, InStep m (parserOf form) (parserOf' form)) (t : RecordType)
    (d : Except Fault (List RecordPart)) (objections : Objections) :
    InStep m (record t d objections parserOf) (forced m (record t d objections parserOf')) := by
  choose rels h using h
  refine ⟨RecordTied m rels, fun mode => .ok ⟨rfl, rfl, rfl, rfl, init_alike⟩, ?_, ?_⟩
  · intro s s' f hst
    cases d with
    | error e => exact .error e
    | ok ps => exact push_record_tied h hst f
  · rintro ⟨m₁, parent, st, es⟩ ⟨m₂, _, tt, _⟩ ⟨hs, ht, rfl, rfl, hst⟩
    obtain rfl : m₁ = m := hs
    obtain rfl : m₂ = m₁ := ht
    cases d with
    | error e => rfl
    | ok ps =>
      change RecordState.finalize t objections _ = RecordState.finalize t objections _
      unfold RecordState.finalize
      simp only [finishParts_tied h hst]

end Record

end Parser

end WebForm
