import Mathlib
import WebForm.Proofs.Run.Basic

/-!
# Runs of leaves

A leaf is settled by the first field that it does not ignore. The number of fields only counts in
strict mode, and nothing stands for a missing field there.
-/
namespace WebForm

def LeafRules.read (rules : LeafRules) : Field → Outcome Value
  | .value f => rules.ofValue f
  | .data f => rules.ofData f

def takenOf (mode : Mode) : Outcome Value → Except Fault (Option (Except FormErrors Value))
  | .ok v => .ok (some (.ok v))
  | .error (.errors es) =>
    .ok (if !mode.isStrict && LeafState.refused es then none else some (.error es))
  | .error (.fault f) => .error f

def LeafRules.settle (rules : LeafRules) (mode : Mode) :
    Option (Except FormErrors Value) → Field → Except Fault (Option (Except FormErrors Value))
  | some r, _ => .ok (some r)
  | none, f => takenOf mode (rules.read f)

variable {rules : LeafRules} {mode : Mode} {fs : List Field} {f : Field} {v : Value}

namespace LeafState

theorem record_settles {s : LeafState} (hs : s.taken = none) (r : Outcome Value) :
    (s.record r).result.map taken = takenOf s.mode r := by
  rcases r with (es | f) | v
  · cases h : !s.mode.isStrict && refused es <;>
      simp [record, takenOf, h, hs, Except.map]
  · rfl
  · rfl

theorem record_frame {s t : LeafState} {r : Outcome Value} (h : (s.record r).result = .ok t) :
    t.mode = s.mode ∧ t.pushes = s.pushes := by
  rcases r with (es | f) | v
  · simp only [record, Step.result_done, Except.ok.injEq] at h
    subst h
    split_ifs <;> exact ⟨rfl, rfl⟩
  · cases h
  · obtain rfl := Except.ok.inj h
    exact ⟨rfl, rfl⟩

theorem push_settles (s : LeafState) :
    (s.push rules f).result.map taken = rules.settle s.mode s.taken f := by
  rcases s with ⟨m, n, x, _ | r, k⟩
  · cases f <;> exact record_settles rfl _
  · rfl

theorem push_frame {s t : LeafState} (h : (s.push rules f).result = .ok t) :
    t.mode = s.mode ∧ t.pushes = s.pushes + 1 := by
  rcases s with ⟨m, n, x, _ | r, k⟩
  · cases f <;> exact record_frame h
  · obtain rfl := Except.ok.inj h
    exact ⟨rfl, rfl⟩

end LeafState

theorem reach_leaf_frame {s : LeafState} (h : (Parser.leaf rules).reach mode fs = .ok s) :
    s.mode = mode ∧ s.pushes = fs.length := by
  induction fs using List.reverseRecOn generalizing s with
  | nil =>
    obtain rfl := Except.ok.inj ((Parser.reach_nil _ _).symm.trans h)
    exact ⟨rfl, rfl⟩
  | append_singleton fs f ih =>
    obtain ⟨t, ht, hs⟩ := bind_eq_ok.1 ((Parser.reach_snoc _ _ _ _).symm.trans h)
    obtain ⟨hm, hn⟩ := ih ht
    obtain ⟨hm', hn'⟩ := LeafState.push_frame hs
    exact ⟨hm'.trans hm, by rw [hn', hn, List.length_append, List.length_singleton]⟩

theorem reach_leaf_taken :
    ((Parser.leaf rules).reach mode fs).map LeafState.taken =
      fs.foldlM (rules.settle mode) none := by
  induction fs using List.reverseRecOn with
  | nil => rw [Parser.reach_nil]; rfl
  | append_singleton fs f ih =>
    rw [Parser.reach_snoc, List.foldlM_append, ← ih]
    cases h : (Parser.leaf rules).reach mode fs with
    | error e => rfl
    | ok s =>
      obtain ⟨hm, -⟩ := reach_leaf_frame h
      simp only [List.foldlM_cons, List.foldlM_nil, bind_pure]
      subst hm
      exact LeafState.push_settles s

theorem run_leaf_eq_ok :
    (Parser.leaf rules).run mode fs = .ok v ↔
      ∃ t, fs.foldlM (rules.settle mode) none = .ok t ∧
        ((t = some (.ok v) ∧ (mode.isStrict = false ∨ fs.length ≤ 1)) ∨
          (t = none ∧ mode.isStrict = false ∧ rules.fallback = some v)) := by
  have hfin (s : LeafState) (hm : s.mode = mode) (hn : s.pushes = fs.length) :
      s.finalize rules = .ok v ↔
        ((s.taken = some (.ok v) ∧ (mode.isStrict = false ∨ fs.length ≤ 1)) ∨
          (s.taken = none ∧ mode.isStrict = false ∧ rules.fallback = some v)) := by
    unfold LeafState.finalize
    rw [hm, hn]
    rcases s.taken with _ | es | w
    · cases mode.isStrict <;> cases rules.fallback <;> simp
    · simp
    · cases mode.isStrict <;> simp
      split_ifs <;> simp <;> omega
  rw [Parser.run_eq_ok, ← reach_leaf_taken]
  constructor
  · rintro ⟨s, hs, hv⟩
    obtain ⟨hm, hn⟩ := reach_leaf_frame hs
    exact ⟨s.taken, by rw [hs]; rfl, (hfin s hm hn).1 (Outcome.ofErrors_eq_ok.1 hv)⟩
  · rintro ⟨t, ht, h⟩
    obtain ⟨s, hs, rfl⟩ := map_eq_ok.1 ht
    obtain ⟨hm, hn⟩ := reach_leaf_frame hs
    exact ⟨s, hs, Outcome.ofErrors_eq_ok.2 ((hfin s hm hn).2 h)⟩

section Reason

/-- What is read of a field fails as unexpected, or for one reason. -/
def LeafRules.GivesReason (rules : LeafRules) : Prop :=
  ∀ f es, rules.read f = .error (.errors es) → es = [f.unexpected] ∨ ∃ kind, es = .ofKind kind

theorem refuseData_eq {f : DataField} {es : FormErrors}
    (h : LeafRules.refuseData f = .error (.errors es)) : es = [(Field.data f).unexpected] :=
  (Failure.errors.inj (Except.error.inj h)).symm

theorem ofText_reason {ε : Type} {kind : ε → Kind Value} {read : String → Except ε Value}
    {f : ValueField} {es : FormErrors}
    (h : (LeafRules.ofText kind read).ofValue f = .error (.errors es)) :
    ∃ kind, es = .ofKind kind := by
  change (read f.value).mapError _ = _ at h
  cases hr : read f.value with
  | error e =>
    rw [hr] at h
    exact ⟨kind e, (Failure.errors.inj (Except.error.inj h)).symm⟩
  | ok v =>
    rw [hr] at h
    cases h

theorem ofText_givesReason {ε : Type} (kind : ε → Kind Value) (read : String → Except ε Value) :
    (LeafRules.ofText kind read).GivesReason := by
  rintro (f | f) es h
  · exact .inr (ofText_reason h)
  · exact .inl (refuseData_eq h)

theorem readLimited_reason {f : DataField} {limit : Option Int} {es : FormErrors}
    (h : f.readLimited limit = .error (.errors es)) : ∃ kind, es = .ofKind kind := by
  unfold DataField.readLimited at h
  cases limit with
  | none => cases h
  | some n =>
    simp only at h
    split_ifs at h
    exact ⟨_, (Failure.errors.inj (Except.error.inj h)).symm⟩

theorem write_reason {r : UploadRules} {f : StoredFile} {bs : Text.Octets} {es : FormErrors}
    (h : r.write f bs = .error (.errors es)) :
    ∃ kind, es = .ofKind kind ∧ kind.isUnexpected = false := by
  unfold UploadRules.write at h
  simp only at h
  split at h
  · exact ⟨_, (Failure.errors.inj (Except.error.inj h)).symm, rfl⟩
  · split at h
    · cases h
    · exact ⟨_, (Failure.errors.inj (Except.error.inj h)).symm, rfl⟩
    · cases h

theorem writeAll_reason {r : UploadRules} {f : StoredFile} {s : Source} {es : FormErrors}
    (h : r.writeAll f s = .error (.errors es)) :
    ∃ kind, es = .ofKind kind ∧ kind.isUnexpected = false := by
  induction f, s using UploadRules.writeAll.induct r with
  | case1 f s _ hr =>
    rw [UploadRules.writeAll, if_pos hr] at h
    cases h
  | case2 f s _ hr g hg ih =>
    rw [UploadRules.writeAll, if_neg hr, hg] at h
    exact ih h
  | case3 f s _ hr e he =>
    rw [UploadRules.writeAll, if_neg hr, he] at h
    exact write_reason (he.trans h)

theorem upload_reason {r : UploadRules} {f : Field} {es : FormErrors}
    (h : (Leaf.upload r).rules.read f = .error (.errors es)) :
    ∃ kind, es = .ofKind kind ∧ kind.isUnexpected = false := by
  cases f with
  | value f => exact write_reason (map_eq_error.1 (map_eq_error.1 h))
  | data f => exact writeAll_reason (map_eq_error.1 (map_eq_error.1 h))

theorem rules_giveReason (l : Leaf) : l.rules.GivesReason := by
  cases l with
  | text limit =>
    rintro (f | f) es h
    · cases h
    · change (f.readLimited limit >>= _) = _ at h
      cases hr : f.readLimited limit with
      | error e =>
        rw [hr, bind_error] at h
        exact .inr (readLimited_reason (hr.trans (congrArg _ (Except.error.inj h))))
      | ok bs =>
        rw [hr, bind_ok] at h
        split at h
        · cases h
        · exact .inr ⟨_, (Failure.errors.inj (Except.error.inj h)).symm⟩
  | octets limit =>
    rintro (f | f) es h
    · cases h
    · exact .inr (readLimited_reason (map_eq_error.1 h))
  | boolean =>
    rintro (f | f) es h
    · exact .inr (ofText_reason h)
    · exact .inl (refuseData_eq h)
  | upload r =>
    intro f es h
    obtain ⟨kind, hes, -⟩ := upload_reason h
    exact .inr ⟨kind, hes⟩
  | nothing => rintro (f | f) es h <;> exact .inl (Failure.errors.inj (Except.error.inj h)).symm
  | integer signed bits | float | address version | date | time | dateTime | choice e =>
    rw [Leaf.rules]
    exact ofText_givesReason _ _

end Reason

section Blame

theorem Error.named_name (e : FormError) (p : Path) : (e.named p).name = some (e.name.getD p) := by
  rcases e with ⟨k, n, _ | q, v⟩ <;> rfl

theorem Error.named_of_name {e : FormError} (p : Path) (h : e.name ≠ none) : e.named p = e := by
  rcases e with ⟨k, n, _ | q, v⟩
  · exact absurd rfl h
  · rfl

theorem Error.valued_name (e : FormError) (v : String) : (e.valued v).name = e.name := by
  rcases e with ⟨k, n, p, _ | w⟩ <;> rfl

theorem feed_leaf_taken {s : LeafState} {r : Except FormErrors Value} (h : s.taken = some r) :
    (Parser.leaf rules).feed s f = .ok { s with pushes := s.pushes + 1 } := by
  rcases s with ⟨m, n, x, t, k⟩
  obtain rfl : t = some r := h
  rfl

theorem foldlM_leaf_taken {s : LeafState} {r : Except FormErrors Value} (h : s.taken = some r)
    (gs : List Field) :
    gs.foldlM (Parser.leaf rules).feed s = .ok { s with pushes := s.pushes + gs.length } := by
  induction gs generalizing s with
  | nil => rfl
  | cons g gs ih =>
    have hrest := @ih { s with pushes := s.pushes + 1 } h
    rw [List.foldlM_cons, feed_leaf_taken h, bind_ok, hrest, List.length_cons, Nat.add_assoc,
      Nat.add_comm 1]

theorem feed_leaf_open {s t : LeafState} (hs : s.taken = none)
    (h : (Parser.leaf rules).feed s f = .ok t) :
    t.fieldName = some f.name ∧
      ∀ es, t.taken = some (.error es) → rules.read f = .error (.errors es) := by
  rcases s with ⟨m, n, x, _, k⟩
  obtain rfl := hs
  have hrecord (s : LeafState) (hn : s.taken = none)
      (h : (s.record (rules.read f)).result = .ok t) :
      t.fieldName = s.fieldName ∧
        ∀ es, t.taken = some (.error es) → rules.read f = .error (.errors es) := by
    rcases hr : rules.read f with (es | e) | v <;> rw [hr] at h
    · simp only [LeafState.record, Step.result_done, Except.ok.injEq] at h
      subst h
      split_ifs <;> simp [hn]
    · cases h
    · obtain rfl := Except.ok.inj h
      exact ⟨rfl, nofun⟩
  cases f with
  | value f => exact hrecord _ rfl h
  | data f => exact hrecord _ rfl h

theorem reach_leaf_blame {s : LeafState} (h : (Parser.leaf rules).reach mode fs = .ok s) :
    (fs = [] ∧ s.taken = none) ∨ ∃ f ∈ fs, s.fieldName = some f.name ∧
      ∀ es, s.taken = some (.error es) → rules.read f = .error (.errors es) := by
  induction fs using List.reverseRecOn generalizing s with
  | nil =>
    obtain rfl := Except.ok.inj ((Parser.reach_nil _ _).symm.trans h)
    exact .inl ⟨rfl, rfl⟩
  | append_singleton fs f ih =>
    obtain ⟨t, ht, hs⟩ := bind_eq_ok.1 ((Parser.reach_snoc _ _ _ _).symm.trans h)
    right
    cases htaken : t.taken with
    | none => exact ⟨f, by simp, feed_leaf_open htaken hs⟩
    | some r =>
      obtain rfl := Except.ok.inj ((feed_leaf_taken htaken).symm.trans hs)
      rcases ih ht with ⟨-, hn⟩ | ⟨g, hg, hblame⟩
      · rw [hn] at htaken
        cases htaken
      · exact ⟨g, List.mem_append_left _ hg, hblame⟩

theorem fail_name {s : LeafState} {v : View} {es : FormErrors} (hn : s.fieldName = some v)
    (hv : v.asName.isEmpty = false) :
    ∀ e ∈ s.fail es, ∃ e' ∈ es, e.name = some (e'.name.getD (.ofView v)) := by
  intro e he
  rw [LeafState.fail, hn] at he
  simp only [hv, Bool.false_eq_true, if_false] at he
  cases hw : s.fieldValue with
  | none =>
    rw [hw] at he
    obtain ⟨e', he', rfl⟩ := List.mem_map.1 he
    exact ⟨e', he', Error.named_name e' _⟩
  | some w =>
    rw [hw] at he
    obtain ⟨d, hd, rfl⟩ := List.mem_map.1 he
    obtain ⟨e', he', rfl⟩ := List.mem_map.1 hd
    exact ⟨e', he', (Error.valued_name _ w).trans (Error.named_name e' _)⟩

/-- Errors of a leaf have the name of a field, in full or as far as the leaf's own view of it. Only
a name that is empty there is left out. -/
theorem leaf_error_name (hr : rules.GivesReason) (hne : fs ≠ []) {es : FormErrors}
    (h : (Parser.leaf rules).Yields mode fs (.error es)) :
    ∃ f ∈ fs, ∀ e ∈ es, e.name = some (.ofName f.name.source) ∨
      e.name = some (.ofView f.name) ∨ f.name.asName.isEmpty = true := by
  obtain ⟨s, hs, hx⟩ := Parser.yields_iff.1 h
  rw [Outcome.caught_ofErrors, Except.ok.injEq] at hx
  obtain ⟨hnil, -⟩ | ⟨f, hf, hname, htaken⟩ := reach_leaf_blame hs
  · exact absurd hnil hne
  refine ⟨f, hf, ?_⟩
  cases hv : f.name.asName.isEmpty with
  | true => exact fun e _ => .inr (.inr rfl)
  | false =>
    have hfail {es' : FormErrors} (hes : es = s.fail es')
        (hes' : es' = [f.unexpected] ∨ ∃ kind, es' = .ofKind kind) (e) (he : e ∈ es) :
        e.name = some (.ofName f.name.source) ∨ e.name = some (.ofView f.name) ∨
          false = true := by
      obtain ⟨e', he', hn⟩ := fail_name hname hv e (hes ▸ he)
      rw [hn]
      rcases hes' with rfl | ⟨kind, rfl⟩ <;> obtain rfl := List.mem_singleton.1 he'
      · cases f <;> exact .inl rfl
      · exact .inr (.inl rfl)
    unfold LeafState.finalize at hx
    split at hx
    · split_ifs at hx
      exact hfail (Except.error.inj hx).symm (.inr ⟨_, rfl⟩)
    · next es' hes' => exact hfail (Except.error.inj hx).symm (hr f es' (htaken es' hes'))
    · split at hx
      · cases hx
      · exact hfail (Except.error.inj hx).symm (.inr ⟨_, rfl⟩)

theorem run_leaf_rejected {f : ValueField} {gs : List Field} {kind : Kind Value}
    (h : rules.ofValue f = .error (.errors (.ofKind kind))) (hk : kind.isUnexpected = false)
    (hv : f.name.asName.isEmpty = false) :
    (Parser.leaf rules).Yields mode (.value f :: gs)
      (.error [⟨kind, kind.defaultEntity, some (.ofView f.name), some f.value⟩]) := by
  have hfirst : (Parser.leaf rules).feed (.init mode) (.value f) =
      .ok ⟨mode, some f.name, some f.value, some (.error (.ofKind kind)), 1⟩ := by
    have hrefused : LeafState.refused (.ofKind kind) = false := hk
    change (LeafState.record _ (rules.ofValue f)).result = _
    rw [h]
    simp [LeafState.record, hrefused, LeafState.init]
  refine Parser.yields_iff.2 ⟨⟨mode, some f.name, some f.value, some (.error (.ofKind kind)),
    1 + gs.length⟩, ?_, ?_⟩
  · rw [Parser.reach, bind_ok, List.foldlM_cons, hfirst, bind_ok]
    exact foldlM_leaf_taken rfl gs
  · rw [Outcome.caught_ofErrors]
    simp [LeafState.finalize, LeafState.fail, hv, Errors.ofKind, Errors.named, Errors.valued,
      Error.ofKind, Error.named, Error.valued]

end Blame

end WebForm
