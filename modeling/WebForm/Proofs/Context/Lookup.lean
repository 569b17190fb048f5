import Mathlib
import WebForm.Proofs.Context.Contents
import WebForm.Proofs.Paths

/-!
# Errors by name

A context looks errors up by the names that lead to a name, the shortest first. It finds the errors
that are for the name, unless the name is empty or begins with an equals sign: then no name with its
keys leads to it.
-/
namespace WebForm

section Buckets

variable {β : Type} {f : β → Nat} {bs : List β}

theorem numbered_trans (f : β → Nat) (a b c : β) (hab : decide (f a ≤ f b) = true)
    (hbc : decide (f b ≤ f c) = true) : decide (f a ≤ f c) = true := by
  simp only [decide_eq_true_eq] at hab hbc ⊢
  omega

theorem numbered_total (f : β → Nat) (a b : β) :
    (decide (f a ≤ f b) || decide (f b ≤ f a)) = true := by
  simp only [Bool.or_eq_true, decide_eq_true_eq]
  omega

theorem filter_mergeSort (f : β → Nat) (bs : List β) (k : Nat) :
    (bs.mergeSort fun a b => f a ≤ f b).filter (f · = k) = bs.filter (f · = k) := by
  have hsorted : (bs.filter (f · = k)).Pairwise fun a b => decide (f a ≤ f b) = true := by
    apply List.pairwise_of_forall_mem_list
    intro a ha b hb
    have ha : f a = k := by simpa using (List.mem_filter.1 ha).2
    have hb : f b = k := by simpa using (List.mem_filter.1 hb).2
    simp [ha, hb]
  have hsub : (bs.filter (f · = k)).Sublist (bs.mergeSort fun a b => f a ≤ f b) :=
    List.sublist_mergeSort (numbered_trans f) (numbered_total f) hsorted List.filter_sublist
  have hsub := hsub.filter (f · = k)
  rw [List.filter_filter] at hsub
  simp only [Bool.and_self] at hsub
  have hperm := (List.mergeSort_perm bs fun a b => f a ≤ f b).filter (f · = k)
  exact (hsub.eq_of_length hperm.length_eq.symm).symm

theorem sorted_split (hs : bs.Pairwise fun a b => f a ≤ f b) {m : Nat} (hm : ∀ b ∈ bs, f b ≤ m) :
    bs = bs.filter (f · < m) ++ bs.filter (f · = m) := by
  induction bs with
  | nil => rfl
  | cons a bs ih =>
    obtain ⟨ha, hs⟩ := List.pairwise_cons.1 hs
    have hrest := ih hs fun b hb => hm b (List.mem_cons_of_mem _ hb)
    by_cases hlt : f a < m
    · have hne : f a ≠ m := by omega
      simpa [hlt, hne] using hrest
    · have heq : f a = m := by
        have := hm a List.mem_cons_self
        omega
      have hnone : bs.filter (f · < m) = [] := by
        refine List.filter_eq_nil_iff.2 fun b hb => ?_
        have := ha b hb
        simp only [decide_eq_true_eq]
        omega
      rw [hnone, List.nil_append] at hrest
      simpa [heq, hnone] using hrest

theorem sorted_eq_flatMap (hs : bs.Pairwise fun a b => f a ≤ f b) {m : Nat}
    (hm : ∀ b ∈ bs, f b < m) :
    bs = (List.range m).flatMap fun k => bs.filter (f · = k) := by
  induction m generalizing bs with
  | zero =>
    cases bs with
    | nil => rfl
    | cons a bs => exact absurd (hm a List.mem_cons_self) (Nat.not_lt_zero _)
  | succ m ih =>
    have hlow := ih (hs.filter (f · < m)) fun b hb => by simpa using (List.mem_filter.1 hb).2
    have hsame : ∀ k ∈ List.range m,
        (bs.filter (f · < m)).filter (f · = k) = bs.filter (f · = k) := by
      intro k hk
      have hk := List.mem_range.1 hk
      rw [List.filter_filter]
      refine List.filter_congr fun b _ => ?_
      by_cases hb : f b = k <;> simp [hb, hk]
    rw [List.range_succ, List.flatMap_append, List.flatMap_singleton,
      ← List.flatMap_congr hsame, ← hlow]
    exact sorted_split hs fun b hb => Nat.le_of_lt_succ (hm b hb)

theorem mergeSort_eq_flatMap {m : Nat} (hm : ∀ b ∈ bs, f b < m) :
    bs.mergeSort (fun a b => f a ≤ f b) = (List.range m).flatMap fun k => bs.filter (f · = k) := by
  have hsorted : (bs.mergeSort fun a b => f a ≤ f b).Pairwise fun a b => f a ≤ f b :=
    (List.pairwise_mergeSort (numbered_trans f) (numbered_total f) bs).imp of_decide_eq_true
  have hlt : ∀ b ∈ bs.mergeSort fun a b => f a ≤ f b, f b < m :=
    fun b hb => hm b (List.mem_mergeSort.1 hb)
  rw [sorted_eq_flatMap hsorted hlt]
  exact List.flatMap_congr fun k _ => filter_mergeSort f bs k

end Buckets

variable {α : Type} {c : Context α} {l : Context.Log α} {e : Error α} {n : Name} {p : Path}

def Error.keyCount (e : Error α) : Nat := e.name.elim 0 fun p => p.keys.length

theorem isFor_iff (hne : n.chars ≠ []) :
    e.isFor (.ofName n) = true ↔ ∃ p, e.name = some p ∧ p.keys ≠ [] ∧ p.keys <+: n.keys := by
  have hempty : (Path.ofName n).isEmpty = false := by
    rw [Path.ofName, Path.isEmpty, Name.isEmpty, List.isEmpty_eq_false_iff]
    exact hne
  rw [Error.isFor]
  cases he : e.name with
  | none => simp
  | some p =>
    simp only [Bool.and_eq_true, beq_iff_eq, List.isPrefixOf_iff_prefix, hempty,
      Option.some.injEq, exists_eq_left', ne_eq, Path.keys_eq_nil, Bool.not_eq_true]
    rfl

theorem isFor_and_keyCount (hne : n.chars ≠ []) {k : Nat} (hk : k < n.keys.length) :
    (e.isFor (.ofName n) = true ∧ e.keyCount = k + 1) ↔ e.keys? = some (n.keys.take (k + 1)) := by
  rw [isFor_iff hne, Error.keyCount, Error.keys?]
  cases e.name with
  | none => simp
  | some p =>
    simp only [Option.some.injEq, exists_eq_left', Option.elim_some, Option.map_some]
    constructor
    · rintro ⟨⟨-, hpre⟩, hlen⟩
      rw [← hlen]
      exact List.prefix_iff_eq_take.1 hpre
    · intro hp
      have hlen : p.keys.length = k + 1 := by
        rw [hp, List.length_take]
        omega
      refine ⟨⟨?_, ?_⟩, hlen⟩
      · exact List.ne_nil_of_length_eq_add_one hlen
      · rw [hp]
        exact List.take_prefix _ _

namespace Context

/-- What a name leads to, by the number of keys. -/
theorem Holds.errorsOf (h : c.Holds l) (hb : n.Begins) :
    c.errorsOf n = (List.range n.keys.length).flatMap fun k =>
      l.errors.filter (·.keys? = some (n.keys.take (k + 1))) := by
  have hlookup (m : Name) : lookup Path.keys (Path.ofName m).keys c.errors =
      l.errors.filter (·.keys? = some m.keys) := h.errors _
  unfold Context.errorsOf
  simp only [hlookup]
  rw [← List.flatMap_map Name.keys fun ks => l.errors.filter (·.keys? = some ks),
    Name.leading_keys hb, List.flatMap_map]

/-- The errors that a context finds for a name are all those that are for it, the ones with fewer
keys first and otherwise as they were recorded. -/
theorem errorsOf_eq_mergeSort (h : c.Reached l) (hne : n.chars ≠ []) (hb : n.Begins) :
    c.errorsOf n =
      (l.errors.filter (·.isFor (.ofName n))).mergeSort fun e f => e.keyCount ≤ f.keyCount := by
  have hcount : ∀ e ∈ l.errors.filter (·.isFor (.ofName n)),
      1 ≤ e.keyCount ∧ e.keyCount < n.keys.length + 1 := by
    intro e he
    obtain ⟨p, hp, hpos, hpre⟩ := (isFor_iff hne).1 (List.mem_filter.1 he).2
    have hlen := hpre.length_le
    have hpos := List.length_pos_of_ne_nil hpos
    rw [Error.keyCount, hp, Option.elim_some]
    omega
  have hnone : (l.errors.filter (·.isFor (.ofName n))).filter (·.keyCount = 0) = [] := by
    refine List.filter_eq_nil_iff.2 fun e he => ?_
    have := (hcount e he).1
    simp only [decide_eq_true_eq]
    omega
  rw [mergeSort_eq_flatMap fun e he => (hcount e he).2, List.range_succ_eq_map, List.flatMap_cons,
    hnone, List.nil_append, List.flatMap_map, h.holds.errorsOf hb]
  refine List.flatMap_congr fun k hk => ?_
  rw [List.filter_filter]
  refine List.filter_congr fun e _ => ?_
  rw [Bool.eq_iff_iff, decide_eq_true_iff, Bool.and_eq_true, decide_eq_true_iff, and_comm]
  exact (isFor_and_keyCount hne (List.mem_range.1 hk)).symm

def petTroubles : Errors Empty :=
  let missing : Error Empty := .ofKind .missing
  let unexpected : Error Empty := .ofKind .unexpected
  [missing.named (.ofParts (some (.ofString "dog")) "barks"),
    missing.named (.name (.ofString "cat")), unexpected.named (.name (.ofString "dog")), missing,
    unexpected.named (.name (.ofString "[dog].barks"))]

theorem barks_sorted :
    (Name.ofString "dog[barks]").chars ≠ [] ∧ (Name.ofString "dog[barks]").Begins ∧
      ((empty.pushErrors petTroubles).errorsOf (.ofString "dog[barks]")).map (·.name) =
        [some (.name (.ofString "dog")), some (.ofParts (some (.ofString "dog")) "barks"),
          some (.name (.ofString "[dog].barks"))] := by
  have hne : (Name.ofString "dog[barks]").chars ≠ [] := by decide
  have hb : (Name.ofString "dog[barks]").Begins := by decide
  refine ⟨hne, hb, ?_⟩
  rw [errorsOf_eq_mergeSort (Reached.empty.errors petTroubles) hne hb]
  cbv

/-- An error is found under the names that begin with its keys. Under a name that an equals sign
ends at once, only errors without keys are found. -/
theorem Holds.mem_errorsOf (h : c.Holds l) (he : e ∈ l.errors) (hp : e.name = some p) :
    e ∈ c.errorsOf n ↔
      (n.Begins ∧ p.keys ≠ [] ∧ p.keys <+: n.keys) ∨ (¬n.Begins ∧ p.keys = []) := by
  have hkeys : e.keys? = some p.keys := by
    rw [Error.keys?, hp, Option.map_some]
  by_cases hb : n.Begins
  · rw [h.errorsOf hb]
    simp only [List.mem_flatMap, List.mem_range, List.mem_filter, he, hkeys, true_and,
      decide_eq_true_eq, Option.some.injEq, hb, not_true, false_and, or_false]
    constructor
    · rintro ⟨k, hk, hpk⟩
      rw [hpk]
      refine ⟨?_, List.take_prefix _ _⟩
      rw [ne_eq, List.take_eq_nil_iff, ← List.length_eq_zero_iff]
      omega
    · rintro ⟨hne, hpre⟩
      have hpos := List.length_pos_of_ne_nil hne
      have hlen := hpre.length_le
      refine ⟨p.keys.length - 1, by omega, ?_⟩
      rw [Nat.sub_add_cancel hpos]
      exact List.prefix_iff_eq_take.1 hpre
  · have hlookup : c.errorsOf n = l.errors.filter (·.keys? = some []) := by
      have htop : (Path.ofName ⟨[]⟩).keys = [] := Name.keys_eq_nil_iff.2 rfl
      rw [Context.errorsOf, (Name.keys_of_not_begins hb).2, List.flatMap_singleton, htop, h.errors]
    rw [hlookup]
    simp only [List.mem_filter, he, hkeys, true_and, decide_eq_true_eq, Option.some.injEq, hb,
      not_false_eq_true, false_and, false_or]

/-- A recorded error is found under the text of its own name if and only if that text is true to
the name. -/
theorem found_iff_legible (h : c.Reached l) (he : e ∈ l.errors) (hp : e.name = some p) :
    (e ∈ c.errorsOf (.ofString p.display) ↔ p.IsLegible) ∧
      (p.IsLegible → c.hasError (.ofString p.display) = true) := by
  have hfound : e ∈ c.errorsOf (.ofString p.display) ↔ p.IsLegible := by
    rw [h.holds.mem_errorsOf he hp, Path.IsLegible, ← Bool.not_eq_true, ← Path.keys_eq_nil]
    constructor
    · rintro (⟨hb, hne, hpre⟩ | ⟨hb, hnil⟩)
      · exact ⟨hne, hb, hpre⟩
      · rw [Path.display_of_isEmpty (Path.keys_eq_nil.1 hnil)] at hb
        exact absurd (by decide) hb
    · rintro ⟨hne, hb, hpre⟩
      exact .inl ⟨hb, hne, hpre⟩
  refine ⟨hfound, fun hlegible => ?_⟩
  have hne := List.ne_nil_of_mem (hfound.2 hlegible)
  rw [hasError, Bool.not_eq_true', List.isEmpty_eq_false_iff]
  exact hne

def barksPath : Path := .ofParts (some (.ofString "dog")) "barks"

def barksMissing : Error Empty := (Error.ofKind .missing).named barksPath

/-- An error under the empty name, as a field without a name causes it. -/
def topUnexpected : Error Empty := (Error.ofKind .unexpected).named (.name ⟨[]⟩)

def barksContext : Context Empty := empty.pushErrors [barksMissing, topUnexpected]

theorem barks_found :
    barksContext.Reached ⟨[], [], [barksMissing, topUnexpected]⟩ ∧ barksPath.IsLegible ∧
      barksMissing ∈ barksContext.errorsOf (.ofString barksPath.display) ∧
      barksContext.hasError (.ofString barksPath.display) = true ∧
      topUnexpected ∉ barksContext.errorsOf (.ofString "") := by
  have hreached : barksContext.Reached ⟨[], [], [barksMissing, topUnexpected]⟩ := .errors _ .empty
  have hbarks : barksMissing ∈ [barksMissing, topUnexpected] := List.mem_cons_self
  have htop : topUnexpected ∈ [barksMissing, topUnexpected] := by simp
  have hlegible : barksPath.IsLegible := by
    have hwhole : (Name.ofString "dog").IsWhole := by
      unfold Name.IsWhole
      cbv
    have hfollows : (Name.ofString "barks").Follows := by
      left
      simp [Name.ofString]
    exact (Path.isLegible_parts (by decide) (by decide)).2 ⟨by decide, hwhole, hfollows⟩
  obtain ⟨hfound, hhas⟩ := found_iff_legible (p := barksPath) hreached hbarks rfl
  obtain ⟨hmissed, -⟩ := found_iff_legible (p := .name ⟨[]⟩) hreached htop rfl
  refine ⟨hreached, hlegible, hfound.2 hlegible, hhas hlegible, fun h => ?_⟩
  exact (Path.isLegible_name.1 (hmissed.1 h)).1 rfl

end Context

end WebForm
