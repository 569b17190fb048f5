import Mathlib
import WebForm.Proofs.Depth.Whole
import WebForm.Proofs.Shares

/-!
# Fields that a lenient form ignores

A field is ignored where a record has no member of its name, or where a leaf refuses it. But a
record on its way has then been reached: it starts the member that the field leads to before it is
known that nothing comes of it. A member that only ignored fields reach does not take its declared
value, and what its form makes of no fields is checked. Apart from this an ignored field makes no
difference.
-/
namespace WebForm

namespace Schema

variable {s : Schema}

/-- The field is led through records to a record without a member of its name, or to a leaf that
refuses it as unexpected. -/
inductive Ignores (s : Schema) : Form → Field → Prop
  | leaf {l f es} : l.rules.read f = .error (.errors es) → LeafState.refused es = true →
    Ignores s (.leaf l) f
  | stray {t ps f} : s.declaration t = .ok ps → f.owner ps = none → Ignores s (.record t) f
  | member {t ps j m f} : s.declaration t = .ok ps → f.owner ps = some j →
    ps[j]? = some (.member m) → Ignores s m.form f.shift → Ignores s (.record t) f

/-- An ignored field is not the first to reach a member on its way, unless the member holds what it
would hold without any field: one without a declared value whose checks accept what its form makes
of it, or one whose declared value is like what its form makes of it. -/
inductive Spares (s : Schema) (Like : Slot Value → Slot Value → Prop) :
    Form → List Field → Field → Prop
  | leaf {l fs f} : Spares s Like (.leaf l) fs f
  | stray {t ps fs f} : s.declaration t = .ok ps → f.owner ps = none →
    Spares s Like (.record t) fs f
  | reached {t ps j m fs f} : s.declaration t = .ok ps → f.owner ps = some j →
    ps[j]? = some (.member m) → shareOf ps j fs ≠ [] →
    Spares s Like m.form (shareOf ps j fs) f.shift → Spares s Like (.record t) fs f
  | undeclared {t ps j m fs f} : s.declaration t = .ok ps → f.owner ps = some j →
    ps[j]? = some (.member m) → shareOf ps j fs = [] → m.fallback = .unset →
    (∀ w, s.parse m.form .lenient [f.shift] = .ok w → ∀ c ∈ m.checks, c.Passes w) →
    Spares s Like m.form [] f.shift → Spares s Like (.record t) fs f
  | declared {t ps j m fs f w} : s.declaration t = .ok ps → f.owner ps = some j →
    ps[j]? = some (.member m) → shareOf ps j fs = [] → Like m.fallback (.own w) →
    s.parse m.form .lenient [f.shift] = .ok w → (∀ c ∈ m.checks, c.Passes w) →
    Spares s Like (.record t) fs f

end Schema

section Compare

variable {slots slots' : List (String × Slot Value)}

/-- Two records are alike only if their attributes are alike one by one. -/
structure ComparesSlots (Alike : Value → Value → Prop) (Like : Slot Value → Slot Value → Prop) :
    Prop where
  record : ∀ {t : RecordType} {slots slots' : List (String × Slot Value)} {j : Nat}
    {x y : String × Slot Value}, Alike (.record t slots) (.record t slots') →
    slots[j]? = some x → slots'[j]? = some y → Like x.2 y.2
  own : ∀ {v w}, Like (.own v) (.own w) → Alike v w

theorem comparesSlots_eq : ComparesSlots Eq Eq where
  record := by
    rintro t slots slots' j x y h hx hy
    obtain ⟨-, rfl⟩ := Value.record.inj h
    rw [Option.some.inj (hx.symm.trans hy)]
  own := Slot.own.inj

theorem sameSlot_of_sameFields {j : Nat} {x y : String × Slot Value}
    (h : sameFields slots slots' = true) (hx : slots[j]? = some x) (hy : slots'[j]? = some y) :
    sameSlot x.2 y.2 = true := by
  induction slots generalizing slots' j with
  | nil => cases hx
  | cons slot slots ih =>
    rcases slots' with _ | ⟨slot', slots'⟩
    · cases hy
    · rcases slot with ⟨a, x⟩
      rcases slot' with ⟨b, y⟩
      simp only [sameFields, Bool.and_eq_true] at h
      cases j with
      | zero =>
        obtain rfl := Option.some.inj hx
        obtain rfl := Option.some.inj hy
        exact h.1.2
      | succ j => exact ih h.2 hx hy

theorem comparesSlots_same : ComparesSlots (Value.same · ·) (sameSlot · ·) where
  record := by
    rintro t slots slots' j x y h hx hy
    rw [Value.same, Bool.and_eq_true] at h
    exact sameSlot_of_sameFields h.2 hx hy
  own h := by rwa [sameSlot] at h

end Compare

section Leaf

variable {rules : LeafRules} {as bs : List Field} {f : Field} {es : FormErrors} {v : Value}

theorem settle_ignored (hread : rules.read f = .error (.errors es))
    (hrefused : LeafState.refused es = true) (t : Option (Except FormErrors Value)) :
    rules.settle .lenient t f = .ok t := by
  cases t with
  | some r => rfl
  | none =>
    rw [LeafRules.settle, hread, takenOf, hrefused]
    rfl

theorem run_leaf_ignored (hread : rules.read f = .error (.errors es))
    (hrefused : LeafState.refused es = true) :
    (Parser.leaf rules).run .lenient (as ++ f :: bs) = .ok v ↔
      (Parser.leaf rules).run .lenient (as ++ bs) = .ok v := by
  have hfold : (as ++ f :: bs).foldlM (rules.settle .lenient) none =
      (as ++ bs).foldlM (rules.settle .lenient) none := by
    rw [List.foldlM_append, List.foldlM_append]
    congr 1
    funext t
    rw [List.foldlM_cons, settle_ignored hread hrefused, bind_ok]
  have hlenient : Mode.lenient.isStrict = false := rfl
  simp only [run_leaf_eq_ok, hfold, hlenient, true_or, and_true]

end Leaf

namespace Schema

variable {s : Schema} {t : RecordType} {ps : List RecordPart} {m : Member} {j : Nat}
  {fs gs as bs : List Field} {f : Field} {v w : Value} {slot : Slot Value}
  {Like : Slot Value → Slot Value → Prop}

/-- What a lenient record makes of its fields, position by position. -/
theorem parse_lenient_record (hd : s.declaration t = .ok ps) :
    s.parse (.record t) .lenient fs = .ok v ↔
      ∃ slots : List (String × Slot Value), slots.length = ps.length ∧
        (∀ j part slot, ps[j]? = some part → slots[j]? = some slot →
          slot.1 = part.attr ∧ s.Fills .lenient part (shareOf ps j fs) slot.2) ∧
        s.objections t slots = [] ∧ .record t slots = v := by
  rw [parse_record_eq_ok]
  constructor
  · rintro ⟨qs, hqs, -, slots, hslots, hv⟩
    obtain rfl := Except.ok.inj (hd.symm.trans hqs)
    obtain ⟨hlength, hfills⟩ := forall₂_shares.1 hslots
    exact ⟨slots, hlength, hfills, hv⟩
  · rintro ⟨slots, hlength, hfills, hv⟩
    exact ⟨ps, hd, fun _ _ => .inr rfl, slots, forall₂_shares.2 ⟨hlength, hfills⟩, hv⟩

theorem parse_insert_iff (hd : s.declaration t = .ok ps)
    (h : ∀ j part slot, ps[j]? = some part → f.owner ps = some j →
      (s.Fills .lenient part (shareOf ps j (as ++ f :: bs)) slot ↔
        s.Fills .lenient part (shareOf ps j (as ++ bs)) slot)) :
    s.parse (.record t) .lenient (as ++ f :: bs) = .ok v ↔
      s.parse (.record t) .lenient (as ++ bs) = .ok v := by
  have hfills (j : Nat) (part : RecordPart) (slot : Slot Value) (hpart : ps[j]? = some part) :
      s.Fills .lenient part (shareOf ps j (as ++ f :: bs)) slot ↔
        s.Fills .lenient part (shareOf ps j (as ++ bs)) slot := by
    by_cases hj : f.owner ps = some j
    · exact h j part slot hpart hj
    · rw [shareOf_other hj]
  rw [parse_lenient_record hd, parse_lenient_record hd]
  refine exists_congr fun slots => and_congr_right fun _ => and_congr_left fun _ => ?_
  refine forall₃_congr fun j part slot => forall_congr' fun hpart => ?_
  rw [hfills j part slot.2 hpart]

theorem fills_reached (h : gs ≠ []) :
    s.Fills .lenient (.member m) gs slot ↔ ∃ w, s.parse m.form .lenient gs = .ok w ∧
      (∀ c ∈ m.checks, c.Passes w) ∧ slot = .own w := by
  simp [Fills, h]

theorem fills_undeclared (h : m.fallback = .unset) :
    s.Fills .lenient (.member m) [] slot ↔
      ∃ w, s.parse m.form .lenient [] = .ok w ∧ slot = .own w := by
  simp [Fills, h]

theorem fills_declared (h : m.fallback ≠ .unset) :
    s.Fills .lenient (.member m) [] slot ↔ slot = m.fallback := by
  simp [Fills, h]

theorem spares_member_iff (hd : s.declaration t = .ok ps) (ho : f.owner ps = some j)
    (hm : ps[j]? = some (.member m)) :
    s.Spares Like (.record t) fs f ↔
      (shareOf ps j fs ≠ [] ∧ s.Spares Like m.form (shareOf ps j fs) f.shift) ∨
        (shareOf ps j fs = [] ∧ m.fallback = .unset ∧
          (∀ w, s.parse m.form .lenient [f.shift] = .ok w → ∀ c ∈ m.checks, c.Passes w) ∧
          s.Spares Like m.form [] f.shift) ∨
        (shareOf ps j fs = [] ∧ ∃ w, Like m.fallback (.own w) ∧
          s.parse m.form .lenient [f.shift] = .ok w ∧ ∀ c ∈ m.checks, c.Passes w) := by
  have hsame {qs : List RecordPart} {k : Nat} {n : Member} (hd' : s.declaration t = .ok qs)
      (ho' : f.owner qs = some k) (hm' : qs[k]? = some (.member n)) : qs = ps ∧ k = j ∧ n = m := by
    obtain rfl := Except.ok.inj (hd.symm.trans hd')
    obtain rfl := Option.some.inj (ho.symm.trans ho')
    exact ⟨rfl, rfl, RecordPart.member.inj (Option.some.inj (hm'.symm.trans hm))⟩
  constructor
  · intro h
    cases h with
    | stray hd' ho' =>
      obtain rfl := Except.ok.inj (hd.symm.trans hd')
      rw [ho] at ho'
      cases ho'
    | reached hd' ho' hm' hshare hs =>
      obtain ⟨rfl, rfl, rfl⟩ := hsame hd' ho' hm'
      exact .inl ⟨hshare, hs⟩
    | undeclared hd' ho' hm' hshare hunset hchecks hs =>
      obtain ⟨rfl, rfl, rfl⟩ := hsame hd' ho' hm'
      exact .inr (.inl ⟨hshare, hunset, hchecks, hs⟩)
    | declared hd' ho' hm' hshare hown hw hchecks =>
      obtain ⟨rfl, rfl, rfl⟩ := hsame hd' ho' hm'
      exact .inr (.inr ⟨hshare, _, hown, hw, hchecks⟩)
  · rintro (⟨hshare, hs⟩ | ⟨hshare, hunset, hchecks, hs⟩ | ⟨hshare, w, hown, hw, hchecks⟩)
    · exact .reached hd ho hm hshare hs
    · exact .undeclared hd ho hm hshare hunset hchecks hs
    · exact .declared hd ho hm hshare hown hw hchecks

theorem parse_spared (h : s.Ignores form f) (hs : s.Spares Eq form (as ++ bs) f) :
    s.parse form .lenient (as ++ f :: bs) = .ok v ↔ s.parse form .lenient (as ++ bs) = .ok v := by
  induction h generalizing as bs v with
  | leaf hread hrefused =>
    rw [parse_leaf, parse_leaf]
    exact run_leaf_ignored hread hrefused
  | stray hd ho =>
    refine parse_insert_iff hd fun j part slot _ hj => ?_
    rw [ho] at hj
    cases hj
  | @member t ps j m f hd ho hm _ ih =>
    have hne : shareOf ps j as ++ f.shift :: shareOf ps j bs ≠ [] := by simp
    refine parse_insert_iff hd fun j' part slot hpart hj' => ?_
    obtain rfl : j = j' := Option.some.inj (ho.symm.trans hj')
    obtain rfl : .member m = part := Option.some.inj (hm.symm.trans hpart)
    rw [shareOf_insert ho, fills_reached hne]
    rw [spares_member_iff hd ho hm, shareOf_append] at hs
    rcases hs with ⟨hshare, hs⟩ | ⟨hshare, hunset, hchecks, hs⟩ | ⟨hshare, w, hown, hw, hchecks⟩
    · rw [shareOf_append, fills_reached hshare]
      simp only [ih hs]
    · obtain ⟨ha, hb⟩ := List.append_eq_nil_iff.1 hshare
      have hsame (w : Value) : s.parse m.form .lenient [f.shift] = .ok w ↔
          s.parse m.form .lenient [] = .ok w := @ih [] [] w hs
      rw [shareOf_append, hshare, fills_undeclared hunset, ha, hb, List.nil_append]
      simp only [hsame]
      refine exists_congr fun w => and_congr_right fun hw => ?_
      exact and_iff_right (hchecks w ((hsame w).2 hw))
    · obtain ⟨ha, hb⟩ := List.append_eq_nil_iff.1 hshare
      rw [shareOf_append, hshare, fills_declared (by rw [hown]; nofun), ha, hb,
        List.nil_append, hw, hown]
      constructor
      · rintro ⟨w', hw', -, rfl⟩
        rw [Except.ok.inj hw']
      · rintro rfl
        exact ⟨w, rfl, hchecks, rfl⟩

/-- Where an ignored field leaves what there is without it, it is one that is spared. -/
theorem spares_of_parse {Alike : Value → Value → Prop} (hlike : ComparesSlots Alike Like)
    (h : s.Ignores form f) (hv : s.parse form .lenient (as ++ bs) = .ok v)
    (hw : s.parse form .lenient (as ++ f :: bs) = .ok w) (hvw : Alike v w) :
    s.Spares Like form (as ++ bs) f := by
  induction h generalizing as bs v w with
  | leaf _ _ => exact .leaf
  | stray hd ho => exact .stray hd ho
  | @member t ps j m f hd ho hm _ ih =>
    have hne : shareOf ps j as ++ f.shift :: shareOf ps j bs ≠ [] := by simp
    obtain ⟨slots, hlength, hfills, -, rfl⟩ := (parse_lenient_record hd).1 hv
    obtain ⟨slots', hlength', hfills', -, rfl⟩ := (parse_lenient_record hd).1 hw
    have hj : j < ps.length := (List.getElem?_eq_some_iff.1 hm).1
    have hslot := List.getElem?_eq_getElem (hlength ▸ hj)
    have hslot' := List.getElem?_eq_getElem (hlength' ▸ hj)
    obtain ⟨-, hwithout⟩ := hfills j _ _ hm hslot
    obtain ⟨-, hwith⟩ := hfills' j _ _ hm hslot'
    have hslots := hlike.record hvw hslot hslot'
    rw [shareOf_insert ho, fills_reached hne] at hwith
    obtain ⟨y, hy, hchecks, hown⟩ := hwith
    rw [hown] at hslots
    rw [spares_member_iff hd ho hm]
    rw [shareOf_append] at hwithout ⊢
    by_cases hshare : shareOf ps j as ++ shareOf ps j bs = []
    · obtain ⟨ha, hb⟩ := List.append_eq_nil_iff.1 hshare
      rw [ha, hb, List.nil_append] at hy
      rw [hshare] at hwithout ⊢
      by_cases hunset : m.fallback = .unset
      · obtain ⟨x, hx, hown'⟩ := (fills_undeclared hunset).1 hwithout
        rw [hown'] at hslots
        have hfunction (u : Value) (hu : s.parse m.form .lenient [f.shift] = .ok u) : u = y :=
          Except.ok.inj (hu.symm.trans hy)
        refine .inr (.inl ⟨rfl, hunset, fun u hu => ?_, @ih [] [] x y hx hy (hlike.own hslots)⟩)
        rw [hfunction u hu]
        exact hchecks
      · rw [(fills_declared hunset).1 hwithout] at hslots
        exact .inr (.inr ⟨rfl, y, hslots, hy, hchecks⟩)
    · obtain ⟨x, hx, -, hown'⟩ := (fills_reached hshare).1 hwithout
      rw [hown'] at hslots
      exact .inl ⟨hshare, ih hx hy (hlike.own hslots)⟩

/-- An ignored field that is spared makes no difference to whether there is a value nor to which one
it is, wherever it comes. A field that leaves a value as it was is spared, and one that leaves an
equal value is spared but for declared values that are no more than equal. -/
theorem parse_ignored (h : s.Ignores (.record t) f) :
    (s.Spares Eq (.record t) (as ++ bs) f → ∀ v,
        s.parse (.record t) .lenient (as ++ f :: bs) = .ok v ↔
          s.parse (.record t) .lenient (as ++ bs) = .ok v) ∧
      ∀ v w, s.parse (.record t) .lenient (as ++ bs) = .ok v →
        s.parse (.record t) .lenient (as ++ f :: bs) = .ok w →
          (v = w → s.Spares Eq (.record t) (as ++ bs) f) ∧
            (v.same w = true → s.Spares (sameSlot · ·) (.record t) (as ++ bs) f) := by
  refine ⟨fun hs v => parse_spared h hs, fun v w hv hw => ⟨fun hvw => ?_, fun hvw => ?_⟩⟩
  · exact spares_of_parse comparesSlots_eq h hv hw hvw
  · exact spares_of_parse comparesSlots_same h hv hw hvw

end Schema

def petType : RecordType := ⟨0, "Pet", false⟩
def ownerType : RecordType := ⟨1, "Owner", false⟩

def petParts : List RecordPart := [.member ⟨"name", "name", [], .text, [], .unset⟩]

def ownerParts : List RecordPart := [.member ⟨"pet", "pet", [], .record petType, [], .shared .none⟩]

def ownerSchema : Schema := { records := [.ok petParts, .ok ownerParts] }

def petName : Field := .value (.ofText "pet.name" "Rex")
def petColor : Field := .value (.ofText "pet.color" "brown")

/-- A color is ignored beside the name of a pet. Alone it keeps an owner from having no pet. -/
theorem color_ignored :
    ownerSchema.parse (.record ownerType) .lenient [petName, petColor] =
        .ok (.record ownerType [("pet", .own (.record petType [("name", .own (.text "Rex"))]))]) ∧
      ownerSchema.parse (.record ownerType) .lenient [] =
        .ok (.record ownerType [("pet", .shared .none)]) ∧
      ∀ w, ownerSchema.parse (.record ownerType) .lenient [petColor] = .ok w →
        (Value.record ownerType [("pet", .shared .none)]).same w = false := by
  have howner : petColor.owner ownerParts = some 0 := by cbv
  have hstray : petColor.shift.owner petParts = none := by cbv
  have hignored : ownerSchema.Ignores (.record ownerType) petColor :=
    .member rfl howner rfl (.stray rfl hstray)
  have hnamed : ownerSchema.parse (.record ownerType) .lenient [petName] =
      .ok (.record ownerType [("pet", .own (.record petType [("name", .own (.text "Rex"))]))]) := by
    cbv
  have hnone : ownerSchema.parse (.record ownerType) .lenient [] =
      .ok (.record ownerType [("pet", .shared .none)]) := by
    cbv
  refine ⟨?_, hnone, ?_⟩
  · have hshare : shareOf ownerParts 0 [petName] ≠ [] := by
      rw [show shareOf ownerParts 0 [petName] = [petName.shift] by cbv]
      exact List.cons_ne_nil _ _
    have hspared := (@Schema.parse_ignored ownerSchema ownerType [petName] [] petColor hignored).1
    exact (hspared (.reached rfl howner rfl hshare (.stray rfl hstray)) _).2 hnamed
  · intro w hw
    have hspared := (@Schema.parse_ignored ownerSchema ownerType [] [] petColor hignored).2
    refine Bool.eq_false_iff.2 fun hsame => ?_
    rcases (Schema.spares_member_iff rfl howner rfl).1 ((hspared _ w hnone hw).2 hsame) with
      ⟨hshare, -⟩ | ⟨-, hunset, -⟩ | ⟨-, pet, hlike, hpet, -⟩
    · exact hshare rfl
    · cases hunset
    · have hmissing : ownerSchema.parse (.record petType) .lenient [petColor.shift] =
          .error (.errors
            [(Error.ofKind .missing).named (.ofParts (some (.ofString "pet")) "name")]) := by
        cbv
      cases hmissing.symm.trans hpet

end WebForm
