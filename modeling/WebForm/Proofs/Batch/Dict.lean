import Mathlib
import WebForm.Proofs.Batch.List
import WebForm.Proofs.Breaking

/-!
# Dictionaries at once

A dictionary takes its fields one at a time and keeps a key and a value under way for every entry. It
ends as if it had all the fields at once: each entry is parsed alone, from the fields with its index,
and the entries stand in the order of their first fields.
-/
namespace WebForm

/-- A side of an entry goes by any text that begins with its letter, in either case. -/
def isSide (letter : Char) (side : String) : Bool :=
  (Text.lower side.toList).head? == some letter

namespace Field

/-- The indices of the current key; an empty key has none. -/
def indices (f : Field) : List String := f.name.key?.elim [] Key.indices

def index? (f : Field) : Option String :=
  match f.indices with
  | [i] => some i
  | [side, i] => if isSide 'k' side || isSide 'v' side then some i else none
  | _ => none

def isForKey (f : Field) : Bool :=
  match f.indices with
  | [side, _] => isSide 'k' side
  | _ => false

def isForValue (f : Field) : Bool :=
  match f.indices with
  | [_] => true
  | [side, _] => isSide 'v' side
  | _ => false

def strayErrors (f : Field) : FormErrors :=
  match f.indices with
  | [_] => []
  | [side, _] =>
    if isSide 'k' side || isSide 'v' side then []
    else [⟨.invalidChoice ["k", "v"], .index 0, some (.ofView f.name), none⟩]
  | _ => [⟨.missing, .key, some (.ofView f.name), none⟩]

def namelessKey (f : Field) : List Field :=
  match f.indices with
  | [i] => [.value (.nameless i)]
  | _ => []

def sharesEntry (o f : Field) : Bool := f.index?.isSome && f.index? == o.index?

end Field

def openers : List Field → List Field
  | [] => []
  | f :: fs => if f.index?.isSome then f :: (openers fs).filter (!f.sharesEntry ·) else openers fs

def entryKeyFields (fs : List Field) (o : Field) : List Field :=
  o.namelessKey ++ handed (fun f => o.sharesEntry f && f.isForKey) fs

def entryValueFields (fs : List Field) (o : Field) : List Field :=
  handed (fun f => o.sharesEntry f && f.isForValue) fs

def parseEntry (key value : Parser) (mode : Mode) (fs : List Field) (o : Field) :
    Except Fault EntryEnd := do
  let k ← Outcome.caught (key.run mode (entryKeyFields fs o))
  let v ← Outcome.caught (value.run mode (entryValueFields fs o))
  .ok ⟨o.name, k, v⟩

/-- All entries, each of them parsed alone. Errors of fields without an entry come first; if there
are no errors, the items are set in order. -/
def parseEntries (key value : Parser) (mode : Mode) (fs : List Field) : Outcome Value := do
  let ds ← Outcome.ofFault ((openers fs).mapM (parseEntry key value mode fs))
  Outcome.ofErrors (verdict (fs.flatMap Field.strayErrors ++ ds.flatMap EntryEnd.errors)
    (.dict (setAll [] (ds.filterMap EntryEnd.item?))))

/-- All that the parser makes can be a key. -/
def Parser.MakesKeys (p : Parser) (mode : Mode) : Prop :=
  ∀ fs v, p.run mode fs = .ok v → v.keyFault? = none

section Reading

variable {fs : List Field} {f o : Field} {i : String}

theorem isSide_unique {side : String} (h : isSide 'k' side = true) : isSide 'v' side = false := by
  unfold isSide at h ⊢
  rw [eq_of_beq h]
  rfl

theorem target_eq (f : Field) :
    f.target = match f.indices with
      | [i] => .entry i
      | [side, i] =>
        if isSide 'k' side then .entryKey i
        else if isSide 'v' side then .entryValue i
        else .nowhere (.invalidChoice ["k", "v"]) (.index 0)
      | _ => .nowhere .missing .key := by
  have hindices : f.indices = (f.name.key?.map Key.indices).getD [] := by
    unfold Field.indices
    cases f.name.key? <;> rfl
  unfold Field.target DictTarget.ofKey isSide
  rw [hindices]
  rcases (f.name.key?.map Key.indices).getD [] with _ | ⟨a, _ | ⟨b, _ | ⟨c, l⟩⟩⟩
  case cons.cons.nil =>
    dsimp only
    split <;> simp_all
  all_goals rfl

theorem index?_target (f : Field) : f.target.index? = f.index? := by
  rw [target_eq, Field.index?]
  rcases f.indices with _ | ⟨a, _ | ⟨b, _ | ⟨c, l⟩⟩⟩
  case cons.cons.nil =>
    dsimp only
    split_ifs <;> simp_all [DictTarget.index?]
  all_goals rfl

theorem isOf_eq (i : String) (f : Field) : f.isOf i = (f.index? == some i) := by
  rw [Field.isOf, index?_target]

theorem isKeyOf_eq (i : String) (f : Field) :
    f.isKeyOf i = (f.index? == some i && f.isForKey) := by
  rw [Field.isKeyOf, target_eq, Field.index?, Field.isForKey]
  rcases f.indices with _ | ⟨a, _ | ⟨b, _ | ⟨c, l⟩⟩⟩
  case cons.cons.nil =>
    dsimp only
    split_ifs <;> simp_all [DictTarget.toKey?]
  all_goals simp [DictTarget.toKey?]

theorem isValueOf_eq (i : String) (f : Field) :
    f.isValueOf i = (f.index? == some i && f.isForValue) := by
  rw [Field.isValueOf, target_eq, Field.index?, Field.isForValue]
  rcases f.indices with _ | ⟨a, _ | ⟨b, _ | ⟨c, l⟩⟩⟩
  case cons.cons.nil =>
    dsimp only
    split_ifs <;> simp_all [DictTarget.toValue?, isSide_unique]
  all_goals simp [DictTarget.toValue?]

theorem strayEntry_eq (f : Field) : strayEntry f = f.strayErrors := by
  rw [strayEntry, target_eq, Field.strayErrors]
  rcases f.indices with _ | ⟨a, _ | ⟨b, _ | ⟨c, l⟩⟩⟩
  case cons.cons.nil =>
    dsimp only
    split_ifs <;> simp_all
  all_goals rfl

theorem namelessKey_eq (h : f.index? = some i) :
    f.namelessKey = if f.target.isDirect then [.value (.nameless i)] else [] := by
  rw [target_eq, Field.namelessKey]
  rw [Field.index?] at h
  rcases hf : f.indices with _ | ⟨a, _ | ⟨b, _ | ⟨c, l⟩⟩⟩ <;> rw [hf] at h
  case cons.cons.nil =>
    dsimp only
    split_ifs <;> simp_all [DictTarget.isDirect]
  case cons.nil =>
    obtain rfl := Option.some.inj h
    rfl
  all_goals rfl

end Reading

section Openers

variable {fs : List Field} {f g o : Field} {i : String}

theorem Field.sharesEntry_eq (h : o.index? = some i) (f : Field) :
    o.sharesEntry f = (f.index? == some i) := by
  rw [Field.sharesEntry, h]
  cases f.index? <;> rfl

theorem Field.sharesEntry_iff :
    o.sharesEntry f = true ↔ f.index? = o.index? ∧ f.index?.isSome = true := by
  rw [Field.sharesEntry, Bool.and_eq_true, beq_iff_eq, and_comm]

theorem openers_snoc (fs : List Field) (f : Field) :
    openers (fs ++ [f]) =
      if f.index?.isSome && !(openers fs).any (·.sharesEntry f) then openers fs ++ [f]
      else openers fs := by
  induction fs with
  | nil => cases h : f.index? <;> simp [openers, h]
  | cons g fs ih =>
    rw [List.cons_append, openers, openers, ih]
    by_cases hg : g.index?.isSome = true
    · rw [if_pos hg, if_pos hg, List.any_cons]
      cases hgf : g.sharesEntry f with
      | true =>
        rw [Bool.true_or, Bool.not_true, Bool.and_false, if_neg Bool.false_ne_true]
        split_ifs <;> simp [hgf]
      | false =>
        -- an opener that `g` takes the place of is none of the entry of `f`
        have hany : ((openers fs).filter (!g.sharesEntry ·)).any (·.sharesEntry f) =
            (openers fs).any (·.sharesEntry f) := by
          rw [List.any_filter]
          congr 1
          funext o
          cases hof : o.sharesEntry f with
          | false => exact Bool.and_false _
          | true =>
            have hgo : g.sharesEntry o = false := by
              rw [Bool.eq_false_iff, ne_eq, Field.sharesEntry_iff] at hgf ⊢
              rw [Field.sharesEntry_iff] at hof
              rintro ⟨ho, -⟩
              exact hgf ⟨hof.1.trans ho, hof.2⟩
            rw [hgo]
            rfl
        rw [hany, Bool.false_or]
        split_ifs <;> simp [hgf]
    · rw [if_neg hg, if_neg hg]

theorem index?_of_opener (h : opener i fs = some o) : o.index? = some i := by
  have := List.find?_some h
  rwa [isOf_eq, beq_iff_eq] at this

theorem forall₂_openers (fs : List Field) :
    List.Forall₂ (fun i o => opener i fs = some o) (entered fs) (openers fs) := by
  induction fs using List.reverseRecOn with
  | nil => exact .nil
  | append_singleton fs f ih =>
    have hold : List.Forall₂ (fun i o => opener i (fs ++ [f]) = some o) (entered fs)
        (openers fs) := ih.imp fun i o ho => by rw [opener_snoc, ho, Option.some_or]
    rw [entered_snoc, enter, openers_snoc, index?_target]
    cases hf : f.index? with
    | none => simpa [hf] using hold
    | some i =>
      have hany : (openers fs).any (·.sharesEntry f) = true ↔ i ∈ entered fs := by
        simp only [List.any_eq_true, Field.sharesEntry_iff, hf]
        constructor
        · rintro ⟨o, ho, hoi, -⟩
          obtain ⟨j, hj, hjo⟩ := forall₂_right ih o ho
          rw [index?_of_opener hjo] at hoi
          rwa [Option.some.inj hoi]
        · intro hi
          obtain ⟨o, ho, hio⟩ := forall₂_left ih i hi
          exact ⟨o, ho, (index?_of_opener hio).symm, rfl⟩
      by_cases hi : i ∈ entered fs
      · simpa [hi, hany.2 hi] using hold
      · have hnew : opener i (fs ++ [f]) = some f := by
          rw [opener_snoc, opener_none hi, Option.none_or]
          simp [opener, isOf_eq, hf]
        have hnone : (openers fs).any (·.sharesEntry f) = false :=
          Bool.eq_false_iff.2 (mt hany.1 hi)
        simp only [hi, if_false, hnone]
        exact List.rel_append hold (.cons hnew .nil)

end Openers

section Entries

variable {key value : Parser} {mode : Mode} {fs : List Field} {o : Field} {i : String}
  {d : EntryEnd}

theorem keyFields_eq (h : opener i fs = some o) : keyFields i fs = entryKeyFields fs o := by
  have hi := index?_of_opener h
  have hkey : Field.isKeyOf i = fun f => o.sharesEntry f && f.isForKey :=
    funext fun f => by rw [isKeyOf_eq, Field.sharesEntry_eq hi]
  rw [keyFields, entryKeyFields, h, Option.any_some, ← namelessKey_eq hi, hkey]

theorem valueFields_eq (h : opener i fs = some o) : valueFields i fs = entryValueFields fs o := by
  have hi := index?_of_opener h
  have hvalue : Field.isValueOf i = fun f => o.sharesEntry f && f.isForValue :=
    funext fun f => by rw [isValueOf_eq, Field.sharesEntry_eq hi]
  rw [valueFields, entryValueFields, hvalue]

theorem parseEntry_eq_ok :
    parseEntry key value mode fs o = .ok d ↔
      d.place = o.name ∧ key.Yields mode (entryKeyFields fs o) d.key ∧
        value.Yields mode (entryValueFields fs o) d.value := by
  rcases d with ⟨p, k, v⟩
  simp only [parseEntry, bind_eq_ok, Except.ok.injEq, EntryEnd.mk.injEq, Parser.Yields]
  constructor
  · rintro ⟨k', hk, v', hv, rfl, rfl, rfl⟩
    exact ⟨rfl, hk, hv⟩
  · rintro ⟨rfl, hk, hv⟩
    exact ⟨k, hk, v, hv, rfl, rfl, rfl⟩

theorem entryYields_iff (hkeys : key.MakesKeys mode) (h : opener i fs = some o) :
    EntryYields key value mode fs i d ↔ parseEntry key value mode fs o = .ok d := by
  rw [EntryYields, parseEntry_eq_ok, h, keyFields_eq h, valueFields_eq h, Option.map_some,
    Option.some.injEq, eq_comm]
  refine and_congr_right fun _ => ?_
  constructor
  · rintro ⟨hk, hv, -⟩
    exact ⟨hk, hv⟩
  · rintro ⟨hk, hv⟩
    refine ⟨hk, hv, ?_⟩
    rintro ⟨k, v⟩ hkv
    rcases d with ⟨p, kes | k', ves | v'⟩ <;> cases hkv
    exact hkeys _ _ (Parser.yields_value.1 hk)

theorem entriesYield_iff (hkeys : key.MakesKeys mode) {ds : List EntryEnd} :
    List.Forall₂ (EntryYields key value mode fs) (entered fs) ds ↔
      (openers fs).mapM (parseEntry key value mode fs) = .ok ds := by
  rw [mapM_eq_ok]
  exact forall₂_congr_left (forall₂_openers fs) fun i o d h => entryYields_iff hkeys h

def CanPush (key value : Parser) (mode : Mode) (fs : List Field) (o : Field) : Prop :=
  (∃ k, key.reach mode (entryKeyFields fs o) = .ok k) ∧
    ∃ v, value.reach mode (entryValueFields fs o) = .ok v

/-- The fields of a dictionary can be pushed if those of each entry can. -/
theorem reach_dict_iff :
    (∃ s, (Parser.dict key value).reach mode fs = .ok s) ↔
      ∀ o ∈ openers fs, CanPush key value mode fs o := by
  have hkeeps (i : String) (o : Field) (h : opener i fs = some o) :
      (∃ e : DictEntry key.State value.State, DictState.Keeps mode fs i e) ↔
        CanPush key value mode fs o := by
    unfold DictState.Keeps CanPush
    rw [h, keyFields_eq h, valueFields_eq h]
    constructor
    · rintro ⟨e, -, -, hk, hv⟩
      exact ⟨⟨_, hk⟩, _, hv⟩
    · rintro ⟨⟨k, hk⟩, v, hv⟩
      exact ⟨⟨i, o.name, k, v⟩, rfl, rfl, hk, hv⟩
  constructor
  · rintro ⟨s, hs⟩ o ho
    obtain ⟨i, hi, hio⟩ := forall₂_right (forall₂_openers fs) o ho
    obtain ⟨e, -, he⟩ := forall₂_left (reach_dict.1 hs).2.2 i hi
    exact (hkeeps i o hio).1 ⟨e, he⟩
  · intro h
    have hentry : ∀ i ∈ entered fs, ∃ e : DictEntry key.State value.State,
        DictState.Keeps mode fs i e := by
      intro i hi
      obtain ⟨o, ho, hio⟩ := forall₂_left (forall₂_openers fs) i hi
      exact (hkeeps i o hio).2 (h o ho)
    obtain ⟨es, hes⟩ := exists_forall₂ hentry
    exact ⟨⟨mode, es, fs.flatMap strayEntry⟩, reach_dict.2 ⟨rfl, rfl, hes⟩⟩

theorem exists_entries (hkey : key.Concludes mode) (hvalue : value.Concludes mode)
    (h : ∀ o ∈ openers fs, CanPush key value mode fs o) :
    ∃ ds, (openers fs).mapM (parseEntry key value mode fs) = .ok ds := by
  simp only [mapM_eq_ok]
  refine exists_forall₂ fun o ho => ?_
  obtain ⟨⟨k, hk⟩, v, hv⟩ := h o ho
  obtain ⟨kr, hkr⟩ := hkey.yields hk
  obtain ⟨vr, hvr⟩ := hvalue.yields hv
  exact ⟨⟨o.name, kr, vr⟩, parseEntry_eq_ok.2 ⟨rfl, hkr, hvr⟩⟩

/-- If keys and values always come to an end and keys can be keys of a dictionary, then a dictionary
makes of its fields, one after the other, what is made of the entries one after the other, each
from its own fields alone. -/
theorem finalize_dict_parseEntries (hkey : key.Concludes mode) (hvalue : value.Concludes mode)
    (hkeys : key.MakesKeys mode) (fs : List Field) :
    ((∃ s, (Parser.dict key value).reach mode fs = .ok s) ↔
        ∀ o ∈ openers fs, CanPush key value mode fs o) ∧
      ∀ s, (Parser.dict key value).reach mode fs = .ok s →
        s.finalize = parseEntries key value mode fs := by
  refine ⟨reach_dict_iff, fun s hs => ?_⟩
  obtain ⟨ds, hds⟩ := exists_entries hkey hvalue (reach_dict_iff.1 ⟨s, hs⟩)
  have hyields := yields_dict.2 ⟨ds, (entriesYield_iff hkeys).2 hds, rfl⟩
  have hstray : fs.flatMap strayEntry = fs.flatMap Field.strayErrors :=
    congrArg fs.flatMap (funext strayEntry_eq)
  have hfinal : s.finalize = Outcome.ofErrors (verdict
      (fs.flatMap strayEntry ++ ds.flatMap EntryEnd.errors)
      (.dict (setAll [] (ds.filterMap EntryEnd.item?)))) :=
    Parser.finalize_of_yields hs hyields
  rw [hfinal, parseEntries, hds, Outcome.ofFault_ok, bind_ok, hstray]

end Entries

def collarKey : Parser := Schema.empty.parser 0 .integer
def collarName : Parser := Schema.empty.parser 0 .text

def collarFields : List Field :=
  [.value (.ofText "[7]" "Rex"), .value (.ofText "[V:a]" "Fido"), .value (.ofText "[x:a]" "Bello"),
    .value (.ofText "" "Luna"), .value (.ofText "[key:a]" "8"), .value (.ofText "[7]" "Max"),
    .value (.ofText "[k:b]" "q")]

/-- The fields for no entry are complained of first, although others come before them. -/
theorem collars_parsed :
    collarKey.Concludes .lenient ∧ collarName.Concludes .lenient ∧ collarKey.MakesKeys .lenient ∧
      ∃ s, (Parser.dict collarKey collarName).reach .lenient collarFields = .ok s ∧
        s.finalize = .error (.errors [
          ⟨.invalidChoice ["k", "v"], .index 0, some (.name (.ofString "[x:a]")), none⟩,
          ⟨.missing, .key, some (.name (.ofString "")), none⟩,
          ⟨.unreadable .int (.integer .digit), .value, some (.name (.ofString "[k:b]")), some "q"⟩,
          ⟨.missing, .field, some (.name (.ofString "[k:b]")), none⟩]) := by
  have hkey : collarKey.Concludes .lenient := leaf_concludes
  have hname : collarName.Concludes .lenient := leaf_concludes
  have hform : (.integer : Form).makesKeys = true := rfl
  have hkeys : collarKey.MakesKeys .lenient := fun fs v h => keyFault_of_makesKeys hform h
  obtain ⟨s, hs⟩ : ∃ s, (Parser.dict collarKey collarName).reach .lenient collarFields = .ok s :=
    ⟨_, rfl⟩
  obtain ⟨-, hfinal⟩ := finalize_dict_parseEntries hkey hname hkeys collarFields
  exact ⟨hkey, hname, hkeys, s, hs, (hfinal s hs).trans (by rfl)⟩

end WebForm
