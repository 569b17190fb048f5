import Mathlib
import WebForm.Proofs.Motion
import WebForm.Proofs.Paths

/-!
# Paths that are read back

The text of a path is read back as the path if its keys are found again in it. A dot and a plain key
after a text add one span to it and leave the spans before as they are: brackets that are not
closed, dots at the end and empty keys stay what they were. So a plain key leads from a path that is
read back to one that is, and the last view of the text stands on that key.
-/
namespace WebForm

open View

theorem View.spans_of_isSpan {a : List Char} (h : IsSpan [] a) : spans a = [a] := by
  have hnone : spans [] = [] := spans_of_nil rfl
  have happend := spans_append h
  rwa [List.append_nil, hnone] at happend

namespace Key

variable {k : Key}

/-- A text that stands as it is for a key, alone or after a dot. -/
def IsPlain (k : Key) : Prop :=
  k ≠ "" ∧ k.toList.head? ≠ some '=' ∧ '.' ∉ k.toList ∧ '[' ∉ k.toList

instance (k : Key) : Decidable k.IsPlain := inferInstanceAs (Decidable (_ ∧ _ ∧ _ ∧ _))

theorem IsPlain.isSpan (h : k.IsPlain) : IsSpan [] k.toList := by
  obtain ⟨hne, heq, hdot, hbracket⟩ := h
  obtain ⟨c, t, ht⟩ := List.exists_cons_of_ne_nil (mt String.toList_eq_nil_iff.1 hne)
  rw [ht] at heq hdot hbracket ⊢
  rw [List.mem_cons, not_or] at hdot hbracket
  refine .plain (fun hc => heq (congrArg some hc)) (Ne.symm hbracket.1) (fun d hd => ?_) nofun
  exact ⟨fun h => hdot.2 (h ▸ hd), fun h => hbracket.2 (h ▸ hd)⟩

theorem IsPlain.isSpan_dot (h : k.IsPlain) : IsSpan [] ('.' :: k.toList) := by
  obtain ⟨-, -, hdot, hbracket⟩ := h
  refine .plain (by decide) (by decide) (fun d hd => ?_) nofun
  exact ⟨fun h => hdot (h ▸ hd), fun h => hbracket (h ▸ hd)⟩

theorem IsPlain.keyIn (h : k.IsPlain) : keyIn k.toList = k := by
  obtain ⟨-, -, hdot, hbracket⟩ := h
  cases ht : k.toList with
  | nil => rw [String.toList_eq_nil_iff.1 ht]; rfl
  | cons c t =>
    rw [ht, List.mem_cons, not_or] at hdot hbracket
    rw [View.keyIn, bareKey, if_neg (Ne.symm hdot.1), if_neg fun h => hbracket.1 h.1.symm, ← ht,
      String.ofList_toList]

theorem keyIn_dot (k : Key) : keyIn ('.' :: k.toList) = k := by
  simp [View.keyIn, bareKey]

end Key

namespace Name

variable {n : Name}

theorem begins_of_isWhole (hw : n.IsWhole) : n.Begins := by
  intro he
  rw [IsWhole, spans_of_nil (cut_eq_nil.2 (.inr he)), List.flatten_nil] at hw
  rw [← hw] at he
  cases he

theorem isWhole_iff_exists_stop : n.IsWhole ↔ ∃ k, ((ofName n).shiftBy k).stop = n.length := by
  constructor
  · intro hw
    refine ⟨(spans n.chars).length, ?_⟩
    rw [stop_shiftBy, List.take_of_length_le (Nat.le_succ _), hw, length]
  · rintro ⟨k, hk⟩
    rw [stop_shiftBy] at hk
    have hsome := ((List.take_sublist (k + 1) (spans n.chars)).flatten).length_le
    have hprefix : (spans n.chars).flatten <+: n.chars := flatten_spans n ▸ List.take_prefix _ _
    exact hprefix.eq_of_length_le (hk.symm.le.trans hsome)

end Name

namespace Path

variable {p : Path} {k : Key} {n : Name}

def reading (p : Path) : Name := .ofString p.display

def hash (hashKeys : List Key → UInt64) (p : Path) : UInt64 := hashKeys p.keys

/-- All of the text of the path is read, and the keys of the path are found in it. -/
structure ReadsBack (p : Path) : Prop where
  whole : p.reading.IsWhole
  keys : p.reading.keys = p.keys

theorem reading_name (n : Name) : (name n).reading = n := n.ofString_text

theorem ReadsBack.name (hw : n.IsWhole) : (name n).ReadsBack := by
  constructor
  · rwa [reading_name]
  · rw [reading_name, Path.keys]

theorem exists_last_span (hw : p.reading.IsWhole) (hk : k.IsPlain) :
    ∃ last, keyIn last = k ∧ (child p k).reading.chars = p.reading.chars ++ last ∧
      spans (child p k).reading.chars = spans p.reading.chars ++ [last] := by
  by_cases hp : p.display = ""
  · have htext : (child p k).reading.chars = k.toList := by
      simp [reading, display, joined, hp, Name.ofString]
    have hfront : p.reading.chars = [] := by
      simp [reading, hp, Name.ofString]
    refine ⟨k.toList, hk.keyIn, ?_, ?_⟩
    · rw [htext, hfront, List.nil_append]
    · rw [htext, hfront, spans_of_isSpan hk.isSpan, spans_of_nil rfl, List.nil_append]
  · have htext : (child p k).reading.chars = p.reading.chars ++ '.' :: k.toList := by
      simp [reading, display, joined, hp, hk.1, Name.ofString]
    refine ⟨'.' :: k.toList, k.keyIn_dot, htext, ?_⟩
    rw [htext, spans_append_dot hw, spans_of_isSpan hk.isSpan_dot]

theorem isWhole_child (hw : p.reading.IsWhole) (hk : k.IsPlain) :
    (child p k).reading.IsWhole := by
  obtain ⟨last, -, htext, hspans⟩ := exists_last_span hw hk
  rw [Name.IsWhole, hspans, List.flatten_append, hw, htext]
  simp

theorem keys_reading_child (hw : p.reading.IsWhole) (hk : k.IsPlain) :
    (child p k).reading.keys = p.reading.keys ++ [k] := by
  obtain ⟨last, hlast, -, hspans⟩ := exists_last_span hw hk
  rw [Name.keys_eq (Name.begins_of_isWhole (isWhole_child hw hk)), hspans, List.map_append,
    ← Name.keys_eq (Name.begins_of_isWhole hw), List.map_singleton, hlast]

theorem keys_child (hk : k.IsPlain) : (child p k).keys = p.keys ++ [k] := by
  have hbegins : (Name.ofString k).Begins := hk.2.1
  have hspans : spans (Name.ofString k).chars = [k.toList] := spans_of_isSpan hk.isSpan
  rw [keys, Name.keys_eq hbegins, hspans, List.map_singleton, hk.keyIn]

theorem ReadsBack.child (h : p.ReadsBack) (hk : k.IsPlain) : (child p k).ReadsBack := by
  refine ⟨isWhole_child h.whole hk, ?_⟩
  rw [keys_reading_child h.whole hk, h.keys, keys_child hk]

def lastView (p : Path) : View := (View.ofName p.reading).shiftBy (p.reading.keys.length - 1)

theorem lastView_child (hw : p.reading.IsWhole) (hk : k.IsPlain) :
    (child p k).lastView.keyText = k ∧ (child p k).lastView.before = p.reading.chars ∧
      (child p k).lastView.asName = (child p k).reading := by
  obtain ⟨span, hspan, htext, hspans⟩ := exists_last_span hw hk
  have hlength : (child p k).reading.keys.length - 1 = (spans p.reading.chars).length := by
    rw [keys_reading_child hw hk, Name.keys_eq (Name.begins_of_isWhole hw)]
    simp
  have hbefore : (child p k).lastView.before = p.reading.chars := by
    rw [lastView, before_shiftBy, hspans, hlength, List.take_left, hw]
  have hhere : (child p k).lastView.span = span := by
    rw [lastView, span_shiftBy, hspans, hlength, List.getElem?_concat_length, Option.getD_some]
  refine ⟨?_, hbefore, ?_⟩
  · rw [keyText, hhere]
    exact hspan
  · rw [asName, hbefore, hhere, ← htext]

/-- A path that goes on from a name by a plain key is read back from its text if views of the name
come to its end: it has the keys of its text, so that it equals it and is hashed like it, and the
last view of the text stands on the plain key, with the name before it. -/
theorem child_reads_back {p s : String} (hs : Key.IsPlain s)
    (hp : ∃ k, ((View.ofName (.ofString p)).shiftBy k).stop = (Name.ofString p).length) :
    let path : Path := .child (.name (.ofString p)) s
    let text : Name := .ofString path.display
    text.keys = (Name.ofString p).keys ++ [s] ∧ path.keys = (Name.ofString p).keys ++ [s] ∧
      Place.same (.path path) (.text path.display) = true ∧
      Place.same (.path path) (.name text) = true ∧
      (∀ hashKeys, path.hash hashKeys = (Path.name text).hash hashKeys) ∧
      path.lastView.key? = some s ∧ path.lastView.asName = text ∧
      path.lastView.parent? = if p = "" then none else some (.ofString p) := by
  intro path text
  have hname : (name (.ofString p)).ReadsBack := .name (Name.isWhole_iff_exists_stop.2 hp)
  have hpath : path.ReadsBack := hname.child hs
  have hkeys : path.keys = (Name.ofString p).keys ++ [s] := keys_child hs
  obtain ⟨hkey, hbefore, hlast⟩ := lastView_child hname.whole hs
  rw [reading_name] at hbefore
  refine ⟨hpath.keys.trans hkeys, hkeys, ?_, ?_, fun hashKeys => ?_, ?_, hlast, ?_⟩
  · exact beq_iff_eq.2 hpath.keys.symm
  · exact beq_iff_eq.2 hpath.keys.symm
  · exact congrArg hashKeys hpath.keys.symm
  · rw [key?, hkey, if_neg hs.1]
  · rw [parent?, hbefore]
    by_cases h : p = "" <;> simp [h, Name.ofString]

/-- Open brackets, empty keys and a closing bracket or equals sign later on do no harm. -/
theorem fido_reads_back :
    Key.IsPlain "ba]r=ks" ∧
      ((View.ofName (.ofString "dogs[fido..")).shiftBy 3).stop =
        (Name.ofString "dogs[fido..").length ∧
      (Name.ofString "dogs[fido...ba]r=ks").keys = ["dogs", "[fido", "", "", "ba]r=ks"] := by
  have hs : Key.IsPlain "ba]r=ks" := by decide
  have hp : ((View.ofName (.ofString "dogs[fido..")).shiftBy 3).stop =
      (Name.ofString "dogs[fido..").length := by decide
  have hdogs : (Name.ofString "dogs[fido..").keys = ["dogs", "[fido", "", ""] := by cbv
  obtain ⟨hkeys, -⟩ := child_reads_back hs ⟨3, hp⟩
  rw [hdogs] at hkeys
  exact ⟨hs, hp, hkeys⟩

end Path

end WebForm
