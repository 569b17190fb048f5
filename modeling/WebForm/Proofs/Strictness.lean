import Mathlib
import WebForm.Proofs.Run.Form

/-!
# Strict and lenient forms

What a strict form makes of some fields, the lenient one makes of them too. Both share out their
fields in the same way; only leaves and records look at the mode, and where they do, the strict form
asks for more.
-/
namespace WebForm

/-- Errors of the parts are errors of the whole. -/
def Form.isDirect : Form → Bool
  | .leaf _ | .record _ | .unimplemented => true
  | .list i | .forced _ i => i.isDirect
  | .dict l r | .pair l r => l.isDirect && r.isDirect
  | .optional _ | .result _ | .contextual _ => false

/-- The form is direct, and so are those of all members of all records in it. -/
def Schema.Direct (s : Schema) (form : Form) : Prop :=
  form.isDirect = true ∧ ∀ t ∈ form.records, ∀ u, Relation.ReflTransGen s.Refers t u →
    ∀ ps m, s.declaration u = .ok ps → .member m ∈ ps → m.form.isDirect = true

namespace Schema.Direct

variable {s : Schema} {left right : Form}

theorem both (hd : (left.isDirect && right.isDirect) = true)
    (h : ∀ t ∈ left.records ++ right.records, ∀ u, Relation.ReflTransGen s.Refers t u →
      ∀ ps m, s.declaration u = .ok ps → .member m ∈ ps → m.form.isDirect = true) :
    s.Direct left ∧ s.Direct right := by
  obtain ⟨hl, hr⟩ := Bool.and_eq_true_iff.1 hd
  exact ⟨⟨hl, fun t ht => h t (List.mem_append_left _ ht)⟩,
    ⟨hr, fun t ht => h t (List.mem_append_right _ ht)⟩⟩

theorem member {t : RecordType} {ps : List RecordPart} {m : Member} (h : s.Direct (.record t))
    (hd : s.declaration t = .ok ps) (hm : .member m ∈ ps) : s.Direct m.form := by
  have ht : t ∈ (Form.record t).records := List.mem_singleton.2 rfl
  refine ⟨h.2 t ht t .refl ps m hd hm, fun u hu w huw => ?_⟩
  exact h.2 t ht w (.head ⟨ps, m, hd, hm, hu⟩ huw)

end Schema.Direct

variable {s : Schema} {fs : List Field} {v : Value}

theorem leaf_lenient {rules : LeafRules} (h : (Parser.leaf rules).run .strict fs = .ok v) :
    (Parser.leaf rules).run .lenient fs = .ok v := by
  obtain ⟨t, ht, ⟨rfl, hn⟩ | ⟨-, hm, -⟩⟩ := run_leaf_eq_ok.1 h
  · have hlength : fs.length ≤ 1 := hn.resolve_left Bool.noConfusion
    rcases fs with _ | ⟨f, _ | ⟨g, fs⟩⟩
    · cases ht
    · have hread : rules.read f = .ok v := by
        have ht : takenOf .strict (rules.read f) >>= pure = .ok (some (.ok v)) := ht
        rw [bind_pure] at ht
        rcases hr : rules.read f with (es | e) | w <;> rw [hr] at ht <;> cases ht
        rfl
      refine run_leaf_eq_ok.2 ⟨some (.ok v), ?_, .inl ⟨rfl, .inl rfl⟩⟩
      simp only [List.foldlM_cons, List.foldlM_nil, bind_pure, LeafRules.settle, hread, takenOf]
    · simp at hlength
  · cases hm

theorem part_lenient {parserOf : Form → Parser} {share : RecordPart × List Field}
    {slot : String × Slot Value}
    (hm : ∀ m, share.1 = .member m → ∀ fs v,
      (parserOf m.form).run .strict fs = .ok v → (parserOf m.form).run .lenient fs = .ok v)
    (h : PartRun parserOf .strict share slot) : PartRun parserOf .lenient share slot := by
  rcases share with ⟨m | ⟨b, x⟩, gs⟩
  · have hm := hm m rfl
    obtain ⟨ha, ⟨hgs, habsent⟩ | ⟨hgs, w, hw, hcs, hslot⟩⟩ := h
    · refine ⟨ha, .inl ⟨hgs, ?_⟩⟩
      rw [member_absent_eq_ok] at habsent ⊢
      exact habsent.imp_left fun ⟨hf, w, hw, hslot⟩ => ⟨hf, w, hm _ _ hw, hslot⟩
    · exact ⟨ha, .inr ⟨hgs, w, hm _ _ hw, hcs, hslot⟩⟩
  · exact h

theorem parser_lenient (d : Nat) (form : Form) (h : s.Direct form)
    (hv : (s.parser d form).run .strict fs = .ok v) :
    (s.parser d form).run .lenient fs = .ok v := by
  induction d, form using Form.depth_induction generalizing fs v with
  | leaf d l =>
    rw [Schema.parser_leaf] at hv ⊢
    exact leaf_lenient hv
  | list d item ih =>
    rw [Schema.parser_list, run_list_eq_ok (parser_explains s d item)] at hv ⊢
    obtain ⟨vs, hvs, rfl⟩ := hv
    exact ⟨vs, hvs.imp fun g w hw => ih h hw, rfl⟩
  | dict d key value ihk ihv =>
    obtain ⟨hk, hval⟩ := Schema.Direct.both h.1 h.2
    rw [Schema.parser_dict,
      run_dict_eq_ok (parser_explains s d key) (parser_explains s d value)] at hv ⊢
    obtain ⟨hn, kvs, hkvs, rfl⟩ := hv
    exact ⟨hn, kvs, hkvs.imp fun i kv hkv => ⟨ihk hk hkv.1, ihv hval hkv.2.1, hkv.2.2⟩, rfl⟩
  | pair d left right ihl ihr =>
    obtain ⟨hl, hr⟩ := Schema.Direct.both h.1 h.2
    rw [Schema.parser_pair, run_pair_eq_ok] at hv ⊢
    obtain ⟨hn, a, b, ha, hb, rfl⟩ := hv
    exact ⟨hn, a, b, ihl hl ha, ihr hr hb, rfl⟩
  | zero t => cases hv
  | succ d t ih =>
    rw [Schema.parser_succ, run_record_eq_ok (parser_explains s d)] at hv ⊢
    obtain ⟨ps, hd, -, slots, hslots, ho, rfl⟩ := hv
    refine ⟨ps, hd, fun f _ => .inr rfl, slots, forall₂_imp_on ?_ hslots, ho, rfl⟩
    intro share hshare slot _ hslot
    refine part_lenient (fun m hm fs v hv => ih m.form ?_ hv) hslot
    exact h.member hd (hm ▸ share_mem hshare)
  | optional d item _ => cases h.1
  | result d item _ => cases h.1
  | forced d m item ih =>
    rw [Schema.parser_forced, run_forced] at hv ⊢
    exact hv
  | contextual d item _ => cases h.1
  | unimplemented d =>
    rw [Schema.parser_unimplemented] at hv
    cases hv

/-- What a strict form makes of some fields, the lenient one makes of them too. -/
theorem strict_parse_lenient {form : Form} (h : s.Direct form)
    (hv : s.parse form .strict fs = .ok v) : s.parse form .lenient fs = .ok v :=
  parser_lenient _ form h hv

def guestType : RecordType := ⟨0, "Guest", false⟩

def guestSchema : Schema :=
  { records := [.ok [
    .member ⟨"name", "name", [], .forced .lenient .text, [.length (some (.int 1)) none], .unset⟩,
    .member ⟨"agreed", "agreed", [], .boolean, [], .shared (.bool false)⟩]] }

theorem guestSchema_direct : guestSchema.Direct (.list (.record guestType)) := by
  refine ⟨rfl, fun t _ u _ ps m hd hm => ?_⟩
  rcases u with ⟨_ | i, n, b⟩
  · obtain rfl := Except.ok.inj hd
    simp only [List.mem_cons, List.not_mem_nil, or_false, RecordPart.member.injEq] at hm
    rcases hm with rfl | rfl <;> rfl
  · cases hd

theorem guests_parse_lenient :
    guestSchema.parse (.list (.record guestType)) .lenient
        [.value (.ofText "[0].name" "Ada"), .value (.ofText "[0].name" "Eve"),
          .value (.ofText "[1].name" "Bob"), .value (.ofText "[1].agreed" "yes")] =
      .ok (.list [
        .record guestType [("name", .own (.text "Ada")), ("agreed", .shared (.bool false))],
        .record guestType [("name", .own (.text "Bob")), ("agreed", .own (.bool true))]]) :=
  strict_parse_lenient guestSchema_direct (by cbv)

end WebForm
