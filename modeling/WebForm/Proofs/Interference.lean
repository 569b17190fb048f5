import Mathlib
import WebForm.Proofs.Depth.Adequacy

/-!
# Fields of different members

A record is settled by the fields of each member and by those of none, each in their own order. How
they are mixed does not count, and a field of no member does nothing but add its error.
-/
namespace WebForm

def RecordPart.isFor (key : Key) : RecordPart → Bool
  | .member m => key ∈ m.names
  | .constant _ _ => false

def Field.owner (ps : List RecordPart) (f : Field) : Option Nat :=
  ps.findIdx? (·.isFor f.name.keyText)

variable {ps : List RecordPart} {fs gs as bs : List Field} {f : Field}

theorem isName_iff_owner : isName ps f.name.keyText = (f.owner ps).isSome := by
  have hany : isName ps f.name.keyText = ps.any (·.isFor f.name.keyText) := by
    unfold isName
    congr 1
  rw [hany, Field.owner, List.findIdx?_isSome]

theorem strayMember_owned {mode : Mode} (h : f.owner ps ≠ none) : strayMember mode ps f = [] := by
  unfold strayMember
  rw [isName_iff_owner, Option.isSome_iff_ne_none.2 h, Bool.true_or, if_pos rfl]

theorem strays_filter (mode : Mode) :
    (fs.filter (·.owner ps = none)).flatMap (strayMember mode ps) =
      fs.flatMap (strayMember mode ps) := by
  induction fs with
  | nil => rfl
  | cons f fs ih =>
    by_cases h : f.owner ps = none
    · simp [h, ih]
    · simp [h, ih, strayMember_owned h]

theorem shares_congr (h : ∀ j, fs.filter (·.owner ps = some j) = gs.filter (·.owner ps = some j)) :
    shares ps fs = shares ps gs := by
  induction ps generalizing fs gs with
  | nil => rfl
  | cons part ps ih =>
    cases part with
    | constant a x =>
      have howner (f : Field) (j : Nat) :
          f.owner (.constant a x :: ps) = some (j + 1) ↔ f.owner ps = some j := by
        simp [Field.owner, List.findIdx?_cons, RecordPart.isFor]
      rw [shares, shares, ih fun j => by simpa only [howner] using h (j + 1)]
    | member m =>
      have hown (f : Field) : f.owner (.member m :: ps) = some 0 ↔ f.isTo m = true := by
        by_cases hm : f.name.keyText ∈ m.names <;>
          simp [Field.owner, List.findIdx?_cons, RecordPart.isFor, Field.isTo, hm]
      have hother (f : Field) (j : Nat) : f.owner (.member m :: ps) = some (j + 1) ↔
          f.owner ps = some j ∧ (!f.isTo m) = true := by
        by_cases hm : f.name.keyText ∈ m.names <;>
          simp [Field.owner, List.findIdx?_cons, RecordPart.isFor, Field.isTo, hm]
      have hhead : fs.filter (Field.isTo m) = gs.filter (Field.isTo m) := by
        simpa only [hown, Bool.decide_eq_true] using h 0
      have htail (j : Nat) : (fs.filter (!Field.isTo m ·)).filter (·.owner ps = some j) =
          (gs.filter (!Field.isTo m ·)).filter (·.owner ps = some j) := by
        have hj := h (j + 1)
        simpa only [List.filter_filter, hother, Bool.decide_and, Bool.decide_eq_true] using hj
      rw [shares, shares, handed, handed, hhead, ih htail]

theorem shares_stray (h : f.owner ps = none) :
    shares ps (as ++ f :: bs) = shares ps (as ++ bs) := by
  apply shares_congr
  intro j
  simp [h]

theorem parentOf_top (h : ∀ f ∈ fs, f.name.parent? = none) : parentOf fs = none := by
  unfold parentOf
  cases hl : fs.getLast? with
  | none => rfl
  | some f => exact h f (List.mem_of_getLast? hl)

variable {s : Schema} {t : RecordType} {mode : Mode} {r : Except FormErrors Value}

theorem strayMember_stray (h : f.owner ps = none) (hp : f.name.parent? = none) (mode : Mode) :
    strayMember mode ps f =
      if mode = .lenient ∨ f.name.keyText = methodKey then [] else [f.unexpected] := by
  have hn : isName ps f.name.keyText = false := by rw [isName_iff_owner, h]; rfl
  cases mode <;> simp [strayMember, hn, Field.isIgnored, hp, Mode.isStrict]

/-- The outcome of a record at the top hangs on the shares of its members and on its strays. -/
theorem parse_of_shares (hd : s.declaration t = .ok ps) (hfs : ∀ f ∈ fs, f.name.parent? = none)
    (hr : Outcome.caught (s.parse (.record t) mode fs) = .ok r) :
    ∃ slots es,
      r = recordVerdict t (s.objections t) ⟨slots, fs.flatMap (strayMember mode ps) ++ es⟩ ∧
      ∀ gs, (∀ g ∈ gs, g.name.parent? = none) → shares ps gs = shares ps fs →
        s.parse (.record t) mode gs = Outcome.ofErrors (recordVerdict t (s.objections t)
          ⟨slots, gs.flatMap (strayMember mode ps) ++ es⟩) := by
  obtain ⟨d, hd'⟩ : ∃ d, s.depth (Schema.longestName fs) = d + 1 :=
    ⟨_, (Nat.succ_pred_eq_of_pos (by unfold Schema.depth; omega)).symm⟩
  have hyields : (s.parser (d + 1) (.record t)).Yields mode fs r := by rw [← hd']; exact hr
  rw [Schema.parser_succ, hd, yields_record] at hyields
  obtain ⟨_, hps, cs, hcs, rfl⟩ := hyields
  obtain rfl := Except.ok.inj hps
  refine ⟨(gathered cs).fields, (gathered cs).errors, rfl, fun gs hgs hshares =>
    Outcome.caught_eq_ok.1 ?_⟩
  refine @Schema.parse_of_yields s (d + 1) (.record t) mode gs _ ?_
  rw [Schema.parser_succ, hd, yields_record]
  refine ⟨ps, rfl, cs, ?_, rfl⟩
  rw [hshares, parentOf_top hgs, ← parentOf_top hfs]
  exact hcs

/-- Two orders of the fields of a record at the top that leave the fields of every member in order,
and those of none, give the same outcome. A field of no member is left aside in lenient mode and if
its key is `_method`. Otherwise it adds its error to those of the strays before it and leaves those
of the other strays and of the members, so that the constructor is not asked. -/
theorem parse_interleaved (hd : s.declaration t = .ok ps)
    (hfs : ∀ f ∈ fs, f.name.parent? = none)
    (hr : Outcome.caught (s.parse (.record t) mode fs) = .ok r) :
    (∀ gs, (∀ o, gs.filter (·.owner ps = o) = fs.filter (·.owner ps = o)) →
        s.parse (.record t) mode gs = s.parse (.record t) mode fs) ∧
      ∃ slots es,
        r = recordVerdict t (s.objections t) ⟨slots, fs.flatMap (strayMember mode ps) ++ es⟩ ∧
        ∀ as bs f, fs = as ++ bs → f.owner ps = none → f.name.parent? = none →
          s.parse (.record t) mode (as ++ f :: bs) =
            if mode = .lenient ∨ f.name.keyText = methodKey then s.parse (.record t) mode fs
            else .error (.errors (as.flatMap (strayMember mode ps) ++
              f.unexpected :: (bs.flatMap (strayMember mode ps) ++ es))) := by
  obtain ⟨slots, es, rfl, h⟩ := parse_of_shares hd hfs hr
  constructor
  · intro gs ho
    have hgs : ∀ g ∈ gs, g.name.parent? = none := by
      intro g hg
      have hmem : g ∈ fs.filter (·.owner ps = g.owner ps) := by
        rw [← ho]
        exact List.mem_filter.2 ⟨hg, decide_eq_true rfl⟩
      exact hfs g (List.mem_of_mem_filter hmem)
    rw [h gs hgs (shares_congr fun j => ho (some j)), h fs hfs rfl, ← @strays_filter ps gs mode,
      ho none, strays_filter]
  · refine ⟨slots, es, rfl, ?_⟩
    rintro as bs f rfl hf hp
    have htop : ∀ g ∈ as ++ f :: bs, g.name.parent? = none := by
      intro g hg
      rcases List.mem_append.1 hg with hg | hg
      · exact hfs g (List.mem_append_left _ hg)
      · rcases List.mem_cons.1 hg with rfl | hg
        · exact hp
        · exact hfs g (List.mem_append_right _ hg)
    rw [h _ htop (shares_stray hf), h _ hfs rfl]
    simp only [List.flatMap_append, List.flatMap_cons, strayMember_stray hf hp]
    split_ifs
    · rw [List.nil_append]
    · rw [List.append_assoc, List.singleton_append, List.cons_append,
        recordVerdict_of_ne_nil (by simp)]
      rfl

def bandType : RecordType := ⟨0, "Band", false⟩

def bandParts : List RecordPart :=
  [.member ⟨"singer", "singer", [], .text, [], .unset⟩,
    .member ⟨"songs", "songs", [], .list .text, [], .unset⟩]

def bandSchema : Schema := { records := [.ok bandParts] }

def singer : Field := .value (.ofText "singer" "Nina")
def firstSong : Field := .value (.ofText "songs[0]" "Sinnerman")
def secondSong : Field := .value (.ofText "songs[1]" "Feeling Good")
def label : Field := .value (.ofText "label" "Philips")

/-- The singer may come between the songs, and a label is one error more. -/
theorem band_interleaved :
    bandSchema.parse (.record bandType) .strict [firstSong, singer, secondSong] =
        bandSchema.parse (.record bandType) .strict [singer, firstSong, secondSong] ∧
      bandSchema.parse (.record bandType) .strict [singer, firstSong, label, secondSong] =
        .error (.errors [label.unexpected]) := by
  have hparse : bandSchema.parse (.record bandType) .strict [singer, firstSong, secondSong] =
      .ok (.record bandType [("singer", .own (.text "Nina")),
        ("songs", .own (.list [.text "Sinnerman", .text "Feeling Good"]))]) := by
    cbv
  have htop : ∀ f ∈ [singer, firstSong, secondSong], f.name.parent? = none := by decide
  have hsinger : singer.owner bandParts = some 0 := by cbv
  have hfirst : firstSong.owner bandParts = some 1 := by cbv
  have hsecond : secondSong.owner bandParts = some 1 := by cbv
  obtain ⟨hmix, slots, es, hes, hstray⟩ :=
    parse_interleaved rfl htop (Outcome.caught_eq_value.2 hparse)
  constructor
  · apply hmix
    intro o
    by_cases h0 : some 0 = o
    · simp [← h0, hsinger, hfirst, hsecond]
    · simp [List.filter_cons, hsinger, hfirst, hsecond, h0]
  · have h := hstray [singer, firstSong] [secondSong] label rfl (by cbv) rfl
    rw [if_neg (by decide)] at h
    have hnone : es = [] := by
      obtain ⟨hnone, -⟩ := Collected.complaints_eq_nil.1 (verdict_eq_ok.1 hes.symm).1
      exact (List.append_eq_nil_iff.1 hnone).2
    rw [hnone] at h
    exact h

def bandLabel : Field := .value (.ofText "band.label" "Philips")
def silent : FormErrors := .ofKind (.validation "a band has songs")

def tourSchema : Schema where
  records := [.ok bandParts]
  objections _
    | [_, (_, .own (.list []))] => silent
    | _ => []

/-- A field of no member keeps the constructor from being asked, and one that has been moved on
before it is pushed gives its place to the members. -/
theorem label_interferes :
    tourSchema.parse (.record bandType) .strict [singer] = .error (.errors silent) ∧
      tourSchema.parse (.record bandType) .strict [singer, label] =
        .error (.errors [label.unexpected]) ∧
      bandSchema.parse (.record bandType) .lenient [] =
        .error (.errors [(Error.ofKind .missing).named (.ofParts none "singer")]) ∧
      bandSchema.parse (.record bandType) .lenient [bandLabel.shift] =
        .error (.errors
          [(Error.ofKind .missing).named (.ofParts (some (.ofString "band")) "singer")]) := by
  refine ⟨?_, ?_, ?_, ?_⟩ <;> cbv

end WebForm
