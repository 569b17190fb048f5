import Mathlib
import WebForm.Proofs.Names

/-!
# The text of paths

A path with two parts has the keys of both, but its text is one name, and the keys of that name are
found anew. The text is true to the path if these keys begin with those of the path. Most texts are;
not so if the path is empty, if an equals sign ends the text too early, or if the second part begins
with a mark of its own, so that the dot between the parts stands for one more key.
-/
namespace WebForm

namespace View

theorem IsSpan.of_end {a : List Char} (h : IsSpan [] a) (t : List Char) : IsSpan ('.' :: t) a := by
  cases h with
  | closed hi => exact .closed hi
  | unclosed hi _ => exact .unclosed hi (by simp)
  | plain hc hb hi _ => exact .plain hc hb hi (by simp)

theorem IsSpan.before_dot {a r : List Char} (h : IsSpan r a) (t : List Char) :
    IsSpan (r ++ '.' :: t) a := by
  cases r with
  | nil => exact h.of_end t
  | cons d r => exact h.of_head (by simp)

theorem flatten_spans_cut {s : List Char} (h : (cut s).1 ≠ []) :
    (spans s).flatten = s ↔ (spans (cut s).2).flatten = (cut s).2 := by
  calc (spans s).flatten = s
    _ ↔ (cut s).1 ++ (spans (cut s).2).flatten = (cut s).1 ++ (cut s).2 := by
      rw [(spans_cut h).2, List.flatten_cons, cut_append]
    _ ↔ (spans (cut s).2).flatten = (cut s).2 := List.append_right_inj _

theorem spans_append_dot {s : List Char} (hs : (spans s).flatten = s) (t : List Char) :
    spans (s ++ '.' :: t) = spans s ++ spans ('.' :: t) := by
  induction s using spans.induct with
  | case1 s h =>
    rw [spans_of_nil h] at hs ⊢
    obtain rfl := hs
    rfl
  | case2 s h ih =>
    obtain ⟨hspan, hsplit⟩ := spans_cut h
    have htext : s ++ '.' :: t = (cut s).1 ++ ((cut s).2 ++ '.' :: t) := by
      rw [← List.append_assoc, cut_append]
    rw [htext, spans_append (hspan.before_dot t), ih ((flatten_spans_cut h).1 hs), hsplit,
      List.cons_append]

theorem spans_append_stopped {s : List Char} (hs : (spans s).flatten ≠ s) (t : List Char) :
    spans (s ++ t) = spans s := by
  induction s using spans.induct with
  | case1 s h =>
    rw [spans_of_nil h] at hs ⊢
    have heq : s.head? = some '=' := (cut_eq_nil.1 h).resolve_left fun hnil => hs hnil.symm
    refine spans_of_nil (cut_eq_nil.2 (.inr ?_))
    rw [List.head?_append_of_ne_nil _ fun hnil => hs hnil.symm, heq]
  | case2 s h ih =>
    obtain ⟨hspan, hsplit⟩ := spans_cut h
    have hrest : (spans (cut s).2).flatten ≠ (cut s).2 := fun hr => hs ((flatten_spans_cut h).2 hr)
    have hne : (cut s).2 ≠ [] := by
      intro hnil
      rw [hnil] at hrest
      exact hrest (by rw [spans_of_nil rfl]; rfl)
    have hspan' : IsSpan ((cut s).2 ++ t) (cut s).1 := by
      refine hspan.of_head ?_
      rw [List.head?_append_of_ne_nil _ hne]
      exact fun c hc => hc
    have htext : s ++ t = (cut s).1 ++ ((cut s).2 ++ t) := by
      rw [← List.append_assoc, cut_append]
    rw [htext, spans_append hspan', ih hrest, hsplit]

theorem keysIn_dot_plain {t : List Char} (ht : ∀ c ∈ t.head?, c ≠ '.' ∧ c ≠ '[' ∧ c ≠ '=')
    (hne : t ≠ []) : (spans ('.' :: t)).map keyIn = (spans t).map keyIn := by
  cases t with
  | nil => exact absurd rfl hne
  | cons c t =>
    obtain ⟨hdot, hbracket, heq⟩ := ht c rfl
    obtain ⟨inner, r, rfl, hi, hr⟩ := exists_takeWhile (fun b => b ≠ '.' ∧ b ≠ '[') t
    have hi : ∀ b ∈ inner, b ≠ '.' ∧ b ≠ '[' := by simpa using hi
    have hr : ∀ b ∈ r.head?, b = '.' ∨ b = '[' := by
      intro b hb
      by_contra hn
      simpa [not_or.1 hn] using hr b hb
    have hplain : IsSpan r (c :: inner) := .plain heq hbracket hi hr
    have hmarked : IsSpan r ('.' :: c :: inner) := by
      refine .plain (by decide) (by decide) ?_ hr
      intro b hb
      rcases List.mem_cons.1 hb with rfl | hb
      · exact ⟨hdot, hbracket⟩
      · exact hi b hb
    have hwith := spans_append hmarked
    have hwithout := spans_append hplain
    simp only [List.cons_append] at hwith hwithout
    rw [hwith, hwithout, List.map_cons, List.map_cons]
    simp [keyIn, bareKey, hdot, hbracket]

theorem keysIn_dot_mark {t : List Char} (ht : ∃ c ∈ t.head?, c = '.' ∨ c = '[') :
    (spans ('.' :: t)).map keyIn = "" :: (spans t).map keyIn := by
  obtain ⟨c, hc, hmark⟩ := ht
  have hspan : IsSpan t ['.'] := by
    refine .plain (by decide) (by decide) nofun ?_
    intro b hb
    rwa [Option.some.inj (hb.symm.trans hc)]
  rw [← List.singleton_append, spans_append hspan, List.map_cons]
  rfl

theorem keysIn_dot_equals (t : List Char) :
    ∃ k ks, (spans ('.' :: '=' :: t)).map keyIn = k :: ks ∧ k ≠ "" := by
  obtain ⟨inner, r, rfl, hi, hr⟩ := exists_takeWhile (fun b => b ≠ '.' ∧ b ≠ '[') t
  have hspan : IsSpan r ('.' :: '=' :: inner) := by
    refine .plain (by decide) (by decide) ?_ ?_
    · intro b hb
      rcases List.mem_cons.1 hb with rfl | hb
      · decide
      · simpa using hi b hb
    · intro b hb
      by_contra hn
      simpa [not_or.1 hn] using hr b hb
  have hwith := spans_append hspan
  simp only [List.cons_append] at hwith
  refine ⟨_, _, by rw [hwith, List.map_cons], ?_⟩
  simp [keyIn, bareKey]

end View

namespace Name

open View

variable {m n : Name}

/-- The keys of a name have all of its text; no equals sign ends the name before. -/
def IsWhole (n : Name) : Prop := (spans n.chars).flatten = n.chars

theorem ofString_text (n : Name) : ofString n.text = n := by
  simp [ofString, text]

theorem begins_append_dot (hn : n.chars ≠ []) (s : List Char) :
    Begins ⟨n.chars ++ '.' :: s⟩ ↔ n.Begins := by
  rw [Begins, Begins, List.head?_append_of_ne_nil _ hn]

theorem prefix_cons_self {k : Key} {ks : List Key} : ks <+: k :: ks ↔ ∀ l ∈ ks, l = k := by
  induction ks with
  | nil => simp
  | cons l ks ih =>
    rw [List.cons_prefix_cons, List.forall_mem_cons]
    refine and_congr_right ?_
    rintro rfl
    exact ih

/-- The name begins with a key without a mark, or with marks and has nothing but empty keys. -/
def Follows (m : Name) : Prop :=
  (∀ c ∈ m.chars.head?, c ≠ '.' ∧ c ≠ '[' ∧ c ≠ '=') ∨
    (∃ c ∈ m.chars.head?, c = '.' ∨ c = '[') ∧ ∀ k ∈ m.keys, k = ""

theorem keys_prefix_dot (hm : m.chars ≠ []) :
    m.keys <+: (spans ('.' :: m.chars)).map keyIn ↔ m.Follows := by
  obtain ⟨c, t, ht⟩ := List.exists_cons_of_ne_nil hm
  have hhead : m.chars.head? = some c := by rw [ht, List.head?_cons]
  by_cases hmark : c = '.' ∨ c = '['
  · have hsome : ∃ c ∈ m.chars.head?, c = '.' ∨ c = '[' := ⟨c, hhead, hmark⟩
    have hb : m.Begins := by
      rw [Begins, hhead]
      rcases hmark with rfl | rfl <;> decide
    have hnot : ¬∀ c ∈ m.chars.head?, c ≠ '.' ∧ c ≠ '[' ∧ c ≠ '=' := by
      intro h
      obtain ⟨hdot, hbracket, -⟩ := h c hhead
      exact hmark.elim hdot hbracket
    rw [keysIn_dot_mark hsome, ← keys_eq hb, prefix_cons_self, Follows]
    simp only [hnot, hsome, true_and, false_or]
  · obtain ⟨hdot, hbracket⟩ := not_or.1 hmark
    have hnot : ¬∃ c ∈ m.chars.head?, c = '.' ∨ c = '[' := by
      rintro ⟨d, hd, hdmark⟩
      obtain rfl := Option.some.inj (hhead.symm.trans hd)
      exact hmark hdmark
    by_cases heq : c = '='
    · have hb : ¬m.Begins := not_not.2 (by rw [hhead, heq])
      obtain ⟨k, ks, hk, hne⟩ := keysIn_dot_equals t
      rw [ht, heq, hk, (keys_of_not_begins hb).1, List.cons_prefix_cons, Follows]
      constructor
      · rintro ⟨rfl, -⟩
        exact absurd rfl hne
      · rintro (h | ⟨h, -⟩)
        · exact absurd heq (h c hhead).2.2
        · exact absurd h hnot
    · have hplain : ∀ c ∈ m.chars.head?, c ≠ '.' ∧ c ≠ '[' ∧ c ≠ '=' := by
        intro d hd
        obtain rfl := Option.some.inj (hhead.symm.trans hd)
        exact ⟨hdot, hbracket, heq⟩
      have hb : m.Begins := fun h => (hplain _ h).2.2 rfl
      rw [keysIn_dot_plain hplain hm, ← keys_eq hb]
      exact iff_of_true (List.prefix_refl _) (.inl hplain)

theorem keys_append_dot (hb : n.Begins) (hn : n.chars ≠ []) (hm : m.chars ≠ []) :
    n.keys ++ m.keys <+: keys ⟨n.chars ++ '.' :: m.chars⟩ ↔ n.IsWhole ∧ m.Follows := by
  rw [keys_eq ((begins_append_dot hn m.chars).2 hb)]
  by_cases hw : n.IsWhole
  · rw [spans_append_dot hw, List.map_append, ← keys_eq hb, List.prefix_append_right_inj,
      keys_prefix_dot hm]
    exact (and_iff_right hw).symm
  · rw [spans_append_stopped hw, ← keys_eq hb]
    have hpos := List.length_pos_of_ne_nil fun h => hm (keys_eq_nil_iff.1 h)
    refine iff_of_false (fun hpre => ?_) fun h => hw h.1
    have hlen := hpre.length_le
    rw [List.length_append] at hlen
    omega

end Name

namespace Path

variable {n : Name} {p : Path} {s : String}

theorem keys_eq_nil : p.keys = [] ↔ p.isEmpty = true := by
  induction p with
  | name n => rw [keys, Name.keys_eq_nil_iff, isEmpty, Name.isEmpty, List.isEmpty_iff]
  | child p s ih =>
    rw [keys, List.append_eq_nil_iff, ih, Name.keys_eq_nil_iff, isEmpty, Bool.and_eq_true,
      beq_iff_eq]
    exact and_congr_right fun _ => String.toList_eq_nil_iff

theorem display_of_isEmpty (h : p.isEmpty = true) : p.display = "" := by
  induction p with
  | name n =>
    have hnil : n.chars = [] := List.isEmpty_iff.1 h
    rw [display, Name.text, hnil, String.ofList_nil]
  | child p s ih =>
    obtain ⟨hp, hs⟩ := Bool.and_eq_true_iff.1 h
    rw [display, ih hp, joined, if_pos rfl]
    exact beq_iff_eq.1 hs

/-- The text of the path is a name whose first keys are those of the path, and there are some. -/
def IsLegible (p : Path) : Prop :=
  p.isEmpty = false ∧ (Name.ofString p.display).Begins ∧
    p.keys <+: (Name.ofString p.display).keys

theorem isLegible_name : (name n).IsLegible ↔ n.chars ≠ [] ∧ n.Begins := by
  rw [IsLegible, display, Name.ofString_text, isEmpty, Name.isEmpty, List.isEmpty_eq_false_iff]
  simp only [keys, List.prefix_refl, and_true]

theorem isLegible_congr {q : Path} (hdisplay : p.display = q.display) (hkeys : p.keys = q.keys) :
    p.IsLegible ↔ q.IsLegible := by
  have hempty : p.isEmpty = q.isEmpty := by
    rw [Bool.eq_iff_iff, ← keys_eq_nil, hkeys, keys_eq_nil]
  rw [IsLegible, IsLegible, hdisplay, hkeys, hempty]

theorem isLegible_child_empty : (child p "").IsLegible ↔ p.IsLegible := by
  apply isLegible_congr
  · by_cases hp : p.display = "" <;> simp [display, joined, hp]
  · have hnone : (Name.ofString "").keys = [] := Name.keys_eq_nil_iff.2 rfl
    rw [keys, hnone, List.append_nil]

theorem isLegible_top : (ofParts none s).IsLegible ↔ (name (.ofString s)).IsLegible := by
  apply isLegible_congr
  · simp [ofParts, display, joined, Name.text, Name.ofString]
  · have htop : Name.keys ⟨[]⟩ = [] := Name.keys_eq_nil_iff.2 rfl
    simp [ofParts, keys, htop]

theorem isLegible_parts (hn : n.chars ≠ []) (hs : s ≠ "") :
    (child (name n) s).IsLegible ↔ n.Begins ∧ n.IsWhole ∧ (Name.ofString s).Follows := by
  have htext : Name.ofString (child (name n) s).display =
      ⟨n.chars ++ '.' :: (Name.ofString s).chars⟩ := by
    simp [display, joined, hn, hs, Name.ofString, Name.text]
  have hempty : (child (name n) s).isEmpty = false := by
    simp [isEmpty, Name.isEmpty, hn]
  have hm : (Name.ofString s).chars ≠ [] := by
    simpa [Name.ofString] using hs
  rw [IsLegible, htext, hempty, Name.begins_append_dot hn, keys, keys]
  simp only [true_and]
  exact and_congr_right fun hb => Name.keys_append_dot hb hn hm

end Path

end WebForm
