import Mathlib
import WebForm.Proofs.Deciding

/-!
# Which field an error of a leaf is reported about

An error that comes up without a name and without a text gets both from the leaf. They belong to one
field, unless a lenient leaf passes over a text and then looks at a source of another name: the
error has the name of the source and the text of the other field. Rules for which this can happen
are told apart by what they make of one text and one source. Of the leaves of forms only the one
that takes nothing has such rules.
-/
namespace WebForm

def Failure.about (fs : List Field) : Failure → Failure
  | .errors es => .errors (es.map (Error.about fs))
  | .fault f => .fault f

namespace LeafRules

def decider? (rules : LeafRules) (mode : Mode) (fs : List Field) : Option Field :=
  fs.find? fun f => !rules.passesOver mode f

def seen (rules : LeafRules) (mode : Mode) : List Field → List Field
  | [] => []
  | f :: fs => if rules.passesOver mode f then f :: seen rules mode fs else [f]

def ruling (rules : LeafRules) (mode : Mode) (fs : List Field) : Outcome Value :=
  match rules.decider? mode fs with
  | some f =>
    match rules.read f with
    | .ok v =>
      if mode.isStrict && 1 < fs.length then .error (.errors (.ofKind .duplicate)) else .ok v
    | .error e => .error e
  | none =>
    match if mode.isStrict then none else rules.fallback with
    | some v => .ok v
    | none => .error (.errors (.ofKind .missing))

/-- An error comes up without a name and without a text and is given both by the leaf. -/
def Reports (rules : LeafRules) (mode : Mode) (fs : List Field) (p : Path) (text : String) : Prop :=
  ∃ es, rules.ruling mode fs = .error (.errors es) ∧ ∃ e ∈ es, e.name = none ∧ e.value = none ∧
    (e.about (rules.seen mode fs)).name = some p ∧ (e.about (rules.seen mode fs)).value = some text

/-- A lenient leaf fails at a source that it looks at last, with an error that has neither a name
nor a text. -/
def Balks (rules : LeafRules) (g : DataField) : Prop :=
  (rules.passesOver .lenient (.data g) = true ∧ rules.fallback = none) ∨
    (rules.passesOver .lenient (.data g) = false ∧
      ∃ es, rules.ofData g = .error (.errors es) ∧ ∃ e ∈ es, e.name = none ∧ e.value = none)

/-- A text is passed over, and a source of another name makes the leaf fail. -/
def Mixes (rules : LeafRules) : Prop :=
  ∃ (f : ValueField) (g : DataField), rules.passesOver .lenient (.value f) = true ∧
    f.name.asName.keys ≠ g.name.asName.keys ∧ g.name.asName.isEmpty = false ∧ rules.Balks g

end LeafRules

/-- One of the fields is a text with this name, as far as the leaf's view of it. -/
def Submits (fs : List Field) (p : Path) (text : String) : Prop :=
  ∃ f : ValueField, .value f ∈ fs ∧ (Path.ofView f.name).Same p ∧ f.value = text

variable {rules : LeafRules} {mode : Mode} {fs front rest : List Field} {f p : Field} {place : Path}
  {text : String}

namespace LeafRules

theorem not_passesOver_strict (f : Field) : rules.passesOver .strict f = false := by
  unfold passesOver
  split <;> rfl

theorem seen_passed (h : ∀ f ∈ fs, rules.passesOver mode f = true) : rules.seen mode fs = fs := by
  induction fs with
  | nil => rfl
  | cons f fs ih =>
    rw [seen, if_pos (h f List.mem_cons_self), ih fun g hg => h g (List.mem_cons_of_mem _ hg)]

theorem seen_decided (hfront : ∀ f ∈ front, rules.passesOver mode f = true)
    (hp : rules.passesOver mode p = false) (rest : List Field) :
    rules.seen mode (front ++ p :: rest) = front ++ [p] := by
  induction front with
  | nil => rw [List.nil_append, seen, if_neg (by simp [hp]), List.nil_append]
  | cons f front ih =>
    rw [List.cons_append, seen, if_pos (hfront f List.mem_cons_self),
      ih fun g hg => hfront g (List.mem_cons_of_mem _ hg), List.cons_append]

theorem exists_decider (rules : LeafRules) (mode : Mode) (fs : List Field) :
    (∃ front p rest, fs = front ++ p :: rest ∧ (∀ f ∈ front, rules.passesOver mode f = true) ∧
        rules.passesOver mode p = false ∧ rules.decider? mode fs = some p ∧
        rules.seen mode fs = front ++ [p]) ∨
      (∀ f ∈ fs, rules.passesOver mode f = true) ∧ rules.decider? mode fs = none ∧
        rules.seen mode fs = fs := by
  cases hd : rules.decider? mode fs with
  | none =>
    have hall : ∀ f ∈ fs, rules.passesOver mode f = true := by
      simpa [decider?] using hd
    exact .inr ⟨hall, rfl, seen_passed hall⟩
  | some p =>
    obtain ⟨hp, front, rest, rfl, hfront⟩ := List.find?_eq_some_iff_append.1 hd
    have hp : rules.passesOver mode p = false := by simpa using hp
    have hfront : ∀ f ∈ front, rules.passesOver mode f = true := by simpa using hfront
    exact .inl ⟨front, p, rest, rfl, hfront, hp, rfl, seen_decided hfront hp rest⟩

theorem seen_subset : ∀ f ∈ rules.seen mode fs, f ∈ fs := by
  obtain ⟨front, p, rest, rfl, -, -, -, hseen⟩ | ⟨-, -, hseen⟩ := rules.exists_decider mode fs
  · intro f hf
    rw [hseen] at hf
    rw [List.append_cons]
    exact List.mem_append_left _ hf
  · rw [hseen]
    exact fun f hf => hf

theorem passesOver_of_seen {init : List Field} {g : Field}
    (h : rules.seen mode fs = init ++ [g]) : ∀ f ∈ init, rules.passesOver mode f = true := by
  obtain ⟨front, p, rest, -, hfront, -, -, hseen⟩ | ⟨hall, -, hseen⟩ :=
    rules.exists_decider mode fs
  · obtain ⟨rfl, -⟩ := List.append_inj' (h.symm.trans hseen) rfl
    exact hfront
  · intro f hf
    refine hall f ?_
    rw [← hseen, h]
    exact List.mem_append_left _ hf

end LeafRules

theorem run_leaf_ruling (rules : LeafRules) (mode : Mode) (fs : List Field) :
    (Parser.leaf rules).run mode fs =
      (rules.ruling mode fs).mapError (Failure.about (rules.seen mode fs)) := by
  obtain ⟨front, p, rest, rfl, hfront, hp, hd, hseen⟩ | ⟨hall, hd, hseen⟩ :=
    rules.exists_decider mode fs
  · rcases hread : rules.read p with (es | e) | v <;>
      simp only [LeafRules.ruling, hd, hread, hseen]
    · exact run_leaf_failed hfront hp hread
    · have hreach := reach_leaf_decided hfront hp rest
      rw [hread] at hreach
      rw [Parser.run_eq, hreach]
      rfl
    · rw [run_leaf_taken hfront hp hread]
      split_ifs <;> rfl
  · rw [LeafRules.ruling, hd, hseen, run_leaf_passed hall]
    cases mode with
    | strict => rfl
    | lenient => cases rules.fallback <;> rfl

namespace LeafRules

theorem balks_of_ruling {init : List Field} {g : DataField} {es : FormErrors} {e : FormError}
    (hseen : rules.seen .lenient fs = init ++ [.data g])
    (hes : rules.ruling .lenient fs = .error (.errors es)) (he : e ∈ es) (hname : e.name = none)
    (hvalue : e.value = none) : rules.Balks g := by
  obtain ⟨front, p, rest, -, -, hp, hd, hseen'⟩ | ⟨hall, hd, hseen'⟩ :=
    rules.exists_decider .lenient fs
  · obtain rfl : p = .data g := by
      have hlast := (List.append_inj' (hseen'.symm.trans hseen) rfl).2
      exact List.singleton_inj.1 hlast
    rw [ruling, hd] at hes
    cases hread : rules.read (.data g) with
    | ok v =>
      simp only [hread] at hes
      cases hes
    | error e =>
      simp only [hread] at hes
      obtain rfl := Except.error.inj hes
      exact .inr ⟨hp, es, hread, e, he, hname, hvalue⟩
  · have hg : .data g ∈ fs := by
      rw [← hseen', hseen]
      simp
    rw [ruling, hd] at hes
    refine .inl ⟨hall _ hg, ?_⟩
    cases hfallback : rules.fallback with
    | none => rfl
    | some v =>
      simp only [Mode.isStrict, hfallback] at hes
      cases hes

theorem submits_or_mixed (h : rules.Reports mode fs place text) :
    Submits fs place text ∨ mode = .lenient ∧ rules.Mixes := by
  obtain ⟨es, hes, e, he, hname, hvalue, hplace, htext⟩ := h
  have hplace : lastPlace (rules.seen mode fs) = some place := by
    simpa [Error.about, hname] using hplace
  have htext : lastText (rules.seen mode fs) = some text := by
    simpa [Error.about, hvalue] using htext
  rcases List.eq_nil_or_concat' (rules.seen mode fs) with hnil | ⟨init, g, hseen⟩
  · rw [hnil] at hplace
    cases hplace
  rw [hseen, lastPlace_snoc] at hplace
  rw [hseen, lastText_snoc] at htext
  have hempty : g.name.asName.isEmpty = false := by
    by_contra hn
    rw [if_pos (by simpa using hn)] at hplace
    cases hplace
  rw [if_neg (by simp [hempty]), Option.some.injEq] at hplace
  subst hplace
  cases g with
  | value g =>
    have hg : .value g ∈ fs := seen_subset _ (by rw [hseen]; simp)
    exact .inl ⟨g, hg, rfl, Option.some.inj htext⟩
  | data g =>
    obtain ⟨f, hf, rfl⟩ := exists_of_lastText htext
    have hpassed := passesOver_of_seen hseen _ hf
    by_cases hkeys : f.name.asName.keys = g.name.asName.keys
    · have hfs : .value f ∈ rules.seen mode fs := by
        rw [hseen]
        exact List.mem_append_left _ hf
      exact .inl ⟨f, seen_subset _ hfs, hkeys, rfl⟩
    · cases mode with
      | strict =>
        rw [not_passesOver_strict] at hpassed
        cases hpassed
      | lenient =>
        exact .inr ⟨rfl, f, g, hpassed, hkeys, hempty, balks_of_ruling hseen hes he hname hvalue⟩

theorem reports_of_balks {f : ValueField} {g : DataField}
    (hf : rules.passesOver .lenient (.value f) = true) (hg : g.name.asName.isEmpty = false)
    (h : rules.Balks g) :
    rules.Reports .lenient [.value f, .data g] (.ofView g.name) f.value := by
  have hplace : lastPlace [.value f, .data g] = some (.ofView g.name) := by
    have hnamed : (Field.data g).name.asName.isEmpty = false := hg
    have hsnoc := lastPlace_snoc [.value f] (.data g)
    rwa [hnamed, if_neg Bool.false_ne_true] at hsnoc
  have habout (e : FormError) (hname : e.name = none) (hvalue : e.value = none) :
      (e.about [.value f, .data g]).name = some (.ofView g.name) ∧
        (e.about [.value f, .data g]).value = some f.value := by
    simp only [Error.about, hname, hvalue, hplace]
    exact ⟨rfl, rfl⟩
  rcases h with ⟨hpassed, hfallback⟩ | ⟨hp, es, hread, e, he, hname, hvalue⟩
  · have hall : ∀ x ∈ [Field.value f, .data g], rules.passesOver .lenient x = true := by
      simp [hf, hpassed]
    have hd : rules.decider? .lenient [.value f, .data g] = none := by
      simp [decider?, hf, hpassed]
    refine ⟨.ofKind .missing, by simp [ruling, hd, Mode.isStrict, hfallback],
      .ofKind .missing, List.mem_cons_self, rfl, rfl, ?_⟩
    rw [seen_passed hall]
    exact habout _ rfl rfl
  · have hfront : ∀ x ∈ [Field.value f], rules.passesOver .lenient x = true := by simp [hf]
    have hd : rules.decider? .lenient [.value f, .data g] = some (.data g) := by
      simp [decider?, hf, hp]
    have hread : rules.read (.data g) = .error (.errors es) := hread
    have hseen : rules.seen .lenient [.value f, .data g] = [.value f, .data g] :=
      seen_decided hfront hp []
    refine ⟨es, by simp [ruling, hd, hread], e, he, hname, hvalue, ?_⟩
    rw [hseen]
    exact habout e hname hvalue

theorem ofText_passesOver {ε : Type} (kind : ε → Kind Value) (read : String → Except ε Value)
    (h : ∀ e, (kind e).isUnexpected = false) (f : ValueField) :
    (LeafRules.ofText kind read).passesOver mode (.value f) = false := by
  have hread : (LeafRules.ofText kind read).read (.value f) =
      (read f.value).mapError fun e => .errors (.ofKind (kind e)) := rfl
  rw [passesOver, hread]
  cases read f.value with
  | error e =>
    have hrefused : LeafState.refused (.ofKind (kind e)) = false := h e
    simp [Except.mapError, hrefused]
  | ok v => rfl

theorem eq_nothing_of_passesOver {l : Leaf} {f : ValueField}
    (h : l.rules.passesOver mode (.value f) = true) : l = .nothing := by
  cases l with
  | nothing => rfl
  | text limit | octets limit => cases h
  | boolean =>
    have hnot : Leaf.boolean.rules.passesOver mode (.value f) = false :=
      ofText_passesOver (.unreadable .bool) readTruth (fun _ => rfl) f
    rw [hnot] at h
    cases h
  | upload r =>
    unfold passesOver at h
    split at h
    · next es hes =>
      obtain ⟨kind, rfl, hkind⟩ := upload_reason hes
      have hrefused : LeafState.refused (.ofKind kind) = false := hkind
      rw [hrefused, Bool.and_false] at h
      cases h
    · cases h
  | integer signed bits | float | address version | date | time | dateTime | choice e =>
    rw [Leaf.rules, ofText_passesOver _ _ fun _ => rfl] at h
    cases h

end LeafRules

def strayText : ValueField := .ofText "a" "x"
def straySource : DataField := ⟨.ofName (.ofString "b"), .ofOctets [], none, none⟩

theorem stray_keys_ne : strayText.name.asName.keys ≠ straySource.name.asName.keys := by
  have htext : strayText.name.asName.keys = ["a"] := by cbv
  have hsource : straySource.name.asName.keys = ["b"] := by cbv
  rw [htext, hsource]
  decide

theorem nothing_mixes : Leaf.nothing.rules.Mixes :=
  ⟨strayText, straySource, rfl, stray_keys_ne, rfl, .inl ⟨rfl, rfl⟩⟩

/-- A leaf reports errors about what it makes of its fields. What a strict leaf says of an error
without a name and a text of its own is true of one text that was submitted. That goes for a lenient
leaf as well if and only if no source makes it fail after a text of another name was passed over,
and of all leaves just the one that takes nothing can fail so. -/
theorem reports_submitted_iff (rules : LeafRules) :
    (∀ mode fs, (Parser.leaf rules).run mode fs =
        (rules.ruling mode fs).mapError (Failure.about (rules.seen mode fs))) ∧
      (∀ fs place text, rules.Reports .strict fs place text → Submits fs place text) ∧
      ((∀ fs place text, rules.Reports .lenient fs place text → Submits fs place text) ↔
        ¬rules.Mixes) ∧
      ∀ l : Leaf, l.rules.Mixes ↔ l = .nothing := by
  refine ⟨run_leaf_ruling rules, fun fs place text h => ?_, ⟨?_, fun hmix fs place text h => ?_⟩,
    fun l => ⟨?_, ?_⟩⟩
  · exact (LeafRules.submits_or_mixed h).resolve_right fun hmixed => nomatch hmixed.1
  · rintro hall ⟨f, g, hf, hkeys, hg, hbalks⟩
    obtain ⟨f', hf', hsame, -⟩ := hall _ _ _ (LeafRules.reports_of_balks hf hg hbalks)
    have heq : f' = f := by simpa using hf'
    rw [heq] at hsame
    exact hkeys hsame
  · exact (LeafRules.submits_or_mixed h).resolve_right fun hmixed => hmix hmixed.2
  · rintro ⟨f, g, hf, -⟩
    exact LeafRules.eq_nothing_of_passesOver hf
  · rintro rfl
    exact nothing_mixes

/-- A leaf that is sent a text that is no truth value reports it under its name. The leaf that takes
nothing reports the text of the first field under the name of the second. -/
theorem perhaps_submitted :
    Leaf.boolean.rules.Reports .lenient [.value (.ofText "trained" "perhaps")]
        (.name (.ofString "trained")) "perhaps" ∧
      Submits [.value (.ofText "trained" "perhaps")] (.name (.ofString "trained")) "perhaps" ∧
      (Parser.leaf Leaf.nothing.rules).run .lenient [.value strayText, .data straySource] =
        .error (.errors [⟨.missing, .field, some (.name (.ofString "b")), some "x"⟩]) ∧
      Leaf.nothing.rules.Reports .lenient [.value strayText, .data straySource]
        (.name (.ofString "b")) "x" ∧
      ¬Submits [.value strayText, .data straySource] (.name (.ofString "b")) "x" := by
  obtain ⟨-, -, hboolean, hleaves⟩ := reports_submitted_iff Leaf.boolean.rules
  obtain ⟨hrun, -⟩ := reports_submitted_iff Leaf.nothing.rules
  have hunmixed : ¬Leaf.boolean.rules.Mixes := fun h => nomatch (hleaves .boolean).1 h
  have hperhaps : Leaf.boolean.rules.Reports .lenient [.value (.ofText "trained" "perhaps")]
      (.name (.ofString "trained")) "perhaps" :=
    ⟨_, rfl, _, List.mem_cons_self, rfl, rfl, rfl, rfl⟩
  refine ⟨hperhaps, hboolean.2 hunmixed _ _ _ hperhaps, hrun .lenient _, ?_, ?_⟩
  · exact ⟨_, rfl, _, List.mem_cons_self, rfl, rfl, rfl, rfl⟩
  · rintro ⟨f, hf, hsame, -⟩
    have heq : f = strayText := by simpa using hf
    rw [heq] at hsame
    exact stray_keys_ne hsame

end WebForm
