import Mathlib
import WebForm.Form.Leaf
import WebForm.Proofs.Run.Basic

/-!
# Choosing members of enumerations

Case does not count in a choice, and numbers and texts can be written alike, so several members can
have values that read alike. Such a text chooses the first of them. A member can be chosen by its
value exactly if no member before it has a value that reads alike.
-/
namespace WebForm

def Value.ReadsLike (v w : Value) : Prop := Text.lowerString v.plain = Text.lowerString w.plain

instance (v w : Value) : Decidable (v.ReadsLike w) :=
  inferInstanceAs (Decidable (Text.lowerString v.plain = Text.lowerString w.plain))

namespace Enumeration

section Members

variable {index : Nat} {name : String} {taken entries ms : List (String × Value)} {e : Enumeration}

theorem declared_names (h : declared name taken entries = .ok ms)
    (ht : (taken.map (·.1)).Nodup) : (ms.map (·.1)).Nodup := by
  induction entries generalizing taken with
  | nil => exact Except.ok.inj h ▸ ht
  | cons entry entries ih =>
    obtain ⟨n, v⟩ := entry
    simp only [declared] at h
    split_ifs at h with hprivate hsunder hsetting hdunder
    · exact ih h ht
    · exact ih h ht
    · exact ih h ht
    · split at h
      · cases h
      · next hnew =>
        refine ih h ?_
        rw [List.map_append, List.nodup_append']
        refine ⟨ht, List.nodup_singleton n, List.disjoint_singleton.2 fun hn => ?_⟩
        obtain ⟨m, hm, hmn⟩ := List.mem_map.1 hn
        exact List.find?_eq_none.1 hnew m hm (decide_eq_true hmn)

theorem distinct_sublist (taken ms : List (String × Value)) :
    (distinct taken ms).Sublist (taken ++ ms) := by
  induction ms generalizing taken with
  | nil => simp [distinct]
  | cons m ms ih =>
    unfold distinct
    split_ifs with hm
    · exact (ih taken).trans (.append (.refl taken) (List.sublist_cons_self m ms))
    · simpa using ih (taken ++ [m])

theorem names_nodup (h : ofEntries index name entries = .ok e) : (e.members.map (·.1)).Nodup := by
  unfold ofEntries at h
  obtain ⟨ms, hms, h⟩ := bind_eq_ok.1 h
  split at h
  · obtain rfl := Except.ok.inj h
    have hsublist : (distinct [] ms).Sublist ms := distinct_sublist [] ms
    exact (declared_names hms List.nodup_nil).sublist (hsublist.map _)
  · cases h

end Members

section Choices

variable {e : Enumeration} {m c : String × Value} {before after : List (String × Value)}
  {f : ValueField}

theorem choose?_plain (hm : m ∈ e.members) :
    ∃ c, e.members.find? (fun c => decide (c.2.ReadsLike m.2)) = some c ∧
      e.choose? m.2.plain = some (e.toValue c) := by
  have hsome : (e.members.find? fun c => decide (c.2.ReadsLike m.2)).isSome :=
    List.find?_isSome.2 ⟨m, hm, decide_eq_true rfl⟩
  obtain ⟨c, hc⟩ := Option.isSome_iff_exists.1 hsome
  refine ⟨c, hc, ?_⟩
  change ((e.members.find? fun c => decide (c.2.ReadsLike m.2)).or _).map e.toValue = _
  rw [hc]
  rfl

theorem find?_first (hm : e.members = before ++ m :: after)
    (hnames : (e.members.map (·.1)).Nodup) :
    e.members.find? (fun c => decide (c.2.ReadsLike m.2)) = some m ↔
      ∀ b ∈ before, ¬b.2.ReadsLike m.2 := by
  rw [hm, List.find?_append]
  constructor
  · intro h b hb hlike
    have hsome : (before.find? fun c => decide (c.2.ReadsLike m.2)).isSome :=
      List.find?_isSome.2 ⟨b, hb, decide_eq_true hlike⟩
    obtain ⟨c, hc⟩ := Option.isSome_iff_exists.1 hsome
    rw [hc, Option.some_or] at h
    obtain rfl := Option.some.inj h
    rw [hm, List.map_append, List.map_cons, List.nodup_append'] at hnames
    exact hnames.2.2 (List.mem_map_of_mem (List.mem_of_find?_eq_some hc)) List.mem_cons_self
  · intro h
    have hnone : before.find? (fun c => decide (c.2.ReadsLike m.2)) = none :=
      List.find?_eq_none.2 fun b hb => by simpa using h b hb
    rw [hnone, Option.none_or]
    exact List.find?_cons_of_pos (decide_eq_true rfl)

theorem toValue_injective (e : Enumeration) : Function.Injective e.toValue := by
  rintro ⟨n, v⟩ ⟨k, w⟩ h
  obtain ⟨-, rfl, rfl⟩ := Value.choice.inj h
  rfl

theorem choice_leaf_ok {v : Value} (h : e.choose? f.value = some v) :
    (Leaf.choice e).rules.ofValue f = .ok v := by
  simp only [Leaf.rules, LeafRules.ofText, h]
  rfl

end Choices

/-- The text of a member's value always chooses a member: the first one whose value reads alike. It
chooses the member itself exactly if no value of a member before it reads alike. -/
theorem chosen_iff_first {index : Nat} {name : String} {entries : List (String × Value)}
    {e : Enumeration} (he : ofEntries index name entries = .ok e)
    {before after : List (String × Value)} {m : String × Value}
    (hm : e.members = before ++ m :: after) (f : ValueField) (hf : f.value = m.2.plain) :
    (∃ c, e.members.find? (fun c => decide (c.2.ReadsLike m.2)) = some c ∧
        (Leaf.choice e).rules.ofValue f = .ok (e.toValue c)) ∧
      ((Leaf.choice e).rules.ofValue f = .ok (e.toValue m) ↔
        ∀ b ∈ before, ¬b.2.ReadsLike m.2) := by
  obtain ⟨c, hc, hchoose⟩ := choose?_plain (e := e) (m := m) (by simp [hm])
  have hleaf : (Leaf.choice e).rules.ofValue f = .ok (e.toValue c) :=
    choice_leaf_ok (hf ▸ hchoose)
  refine ⟨⟨c, hc, hleaf⟩, ?_⟩
  rw [← find?_first hm (names_nodup he), hleaf, hc, Except.ok.injEq,
    (toValue_injective e).eq_iff, Option.some.injEq]

def sizes : Enumeration :=
  ⟨0, "Size", [("SMALL", .text "s"), ("SUPER", .text "S"), ("LARGE", .text "l")]⟩

theorem sizes_declared : ofEntries 0 "Size" sizes.members = .ok sizes := by
  have hdeclared : declared "Size" [] sizes.members = .ok sizes.members := rfl
  have hdistinct : distinct [] sizes.members = sizes.members := by
    simp [distinct, sizes, Value.sameKey, Value.same]
  rw [ofEntries, hdeclared]
  exact congrArg (fun ms => Except.ok (⟨0, "Size", ms⟩ : Enumeration)) hdistinct

theorem sizes_chosen :
    ofEntries 0 "Size" sizes.members = .ok sizes ∧
      sizes.members =
        [("SMALL", .text "s"), ("SUPER", .text "S")] ++ ("LARGE", .text "l") :: [] ∧
      (Leaf.choice sizes).rules.ofValue (.ofText "size" "l") =
        .ok (sizes.toValue ("LARGE", .text "l")) := by
  have hmembers : sizes.members =
      [("SMALL", .text "s"), ("SUPER", .text "S")] ++ ("LARGE", .text "l") :: [] := rfl
  obtain ⟨-, hlarge⟩ := chosen_iff_first sizes_declared hmembers (.ofText "size" "l") rfl
  exact ⟨sizes_declared, hmembers, hlarge.2 (by decide)⟩

/-- The second size is offered as a choice, but its text chooses the first one. -/
theorem super_not_chosen :
    ofEntries 0 "Size" sizes.members = .ok sizes ∧ ("SUPER", .text "S") ∈ sizes.members ∧
      (Value.text "S").plain ∈ sizes.choices ∧
      (Leaf.choice sizes).rules.ofValue (.ofText "size" (Value.text "S").plain) =
        .ok (sizes.toValue ("SMALL", .text "s")) ∧
      (Leaf.choice sizes).rules.ofValue (.ofText "size" (Value.text "S").plain) ≠
        .ok (sizes.toValue ("SUPER", .text "S")) := by
  have hsmall : (Leaf.choice sizes).rules.ofValue (.ofText "size" (Value.text "S").plain) =
      .ok (sizes.toValue ("SMALL", .text "s")) := rfl
  refine ⟨sizes_declared, by simp [sizes], by simp [sizes, choices], hsmall, ?_⟩
  rw [hsmall]
  simp [toValue]

end Enumeration

end WebForm
