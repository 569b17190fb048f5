import Mathlib
import WebForm.Proofs.Run.Record
import WebForm.Proofs.Flatten.Value

/-!
# Values without the order of their entries

A dictionary has its items in the order in which their keys came up. No comparison and no check of
the library looks at that order, so these checks say the same of a value in any arrangement of its
dictionaries.
-/
namespace WebForm

def keyOrder (a b : Value × Value) : Bool := a.1.asKey ≤ b.1.asKey

mutual
/-- The value with all its dictionaries in the order of their keys. -/
def Value.arranged : Value → Value
  | .list vs => .list (arrangedItems vs)
  | .tuple vs => .tuple (arrangedItems vs)
  | .dict es => .dict ((arrangedEntries es).mergeSort keyOrder)
  | .record t fs => .record t (arrangedFields fs)
  | v => v

def arrangedItems : List Value → List Value
  | [] => []
  | v :: vs => v.arranged :: arrangedItems vs

def arrangedEntries : List (Value × Value) → List (Value × Value)
  | [] => []
  | (k, v) :: es => (k, v.arranged) :: arrangedEntries es

def arrangedFields : List (String × Slot Value) → List (String × Slot Value)
  | [] => []
  | (n, a) :: fs => (n, arrangedSlot a) :: arrangedFields fs

def arrangedSlot : Slot Value → Slot Value
  | .unset => .unset
  | .own v => .own v.arranged
  | .shared v => .shared v.arranged
end

theorem arrangedItems_eq (vs : List Value) : arrangedItems vs = vs.map Value.arranged := by
  induction vs with
  | nil => rfl
  | cons v vs ih => rw [arrangedItems, ih, List.map_cons]

theorem arrangedEntries_eq (es : List (Value × Value)) :
    arrangedEntries es = es.map (Prod.map id Value.arranged) := by
  induction es with
  | nil => rfl
  | cons e es ih => rw [arrangedEntries, ih, List.map_cons]; rfl

theorem arrangedFields_eq (fs : List (String × Slot Value)) :
    arrangedFields fs = fs.map (Prod.map id arrangedSlot) := by
  induction fs with
  | nil => rfl
  | cons f fs ih => rw [arrangedFields, ih, List.map_cons]; rfl

section Sorting

variable {es fs : List (Value × Value)}

theorem sorted_mergeSort (es : List (Value × Value)) :
    (es.mergeSort keyOrder).Pairwise fun a b => keyOrder a b = true := by
  apply List.pairwise_mergeSort
  · intro a b c hab hbc
    unfold keyOrder at hab hbc ⊢
    simp only [decide_eq_true_eq] at hab hbc ⊢
    exact hab.trans hbc
  · intro a b
    unfold keyOrder
    simpa using le_total a.1.asKey b.1.asKey

theorem mergeSort_perm_eq (h : es.Perm fs) (hn : (es.map fun e => e.1.asKey).Nodup) :
    es.mergeSort keyOrder = fs.mergeSort keyOrder := by
  have hes := List.mergeSort_perm es keyOrder
  have hfs := List.mergeSort_perm fs keyOrder
  refine List.Perm.eq_of_pairwise ?_ (sorted_mergeSort es) (sorted_mergeSort fs)
    (hes.trans (h.trans hfs.symm))
  intro a b ha hb hab hba
  have ha : a ∈ es := hes.mem_iff.1 ha
  have hb : b ∈ es := h.mem_iff.2 (hfs.mem_iff.1 hb)
  unfold keyOrder at hab hba
  simp only [decide_eq_true_eq] at hab hba
  exact List.inj_on_of_nodup_map hn ha hb (le_antisymm hab hba)

theorem length_sorted (es : List (Value × Value)) :
    ((arrangedEntries es).mergeSort keyOrder).length = es.length := by
  rw [List.length_mergeSort, arrangedEntries_eq, List.length_map]

end Sorting

section Compare

theorem sameEntries_eq (es fs : List (Value × Value)) :
    sameEntries es fs =
      es.all fun e => fs.any fun d => e.1.agree d.1 && e.1.same d.1 && e.2.same d.2 := by
  induction es with
  | nil => rw [sameEntries]; rfl
  | cons e es ih => rw [sameEntries, ih, List.all_cons]

theorem sameEntries_sort (es fs : List (Value × Value)) :
    sameEntries (es.mergeSort keyOrder) fs = sameEntries es fs := by
  rw [sameEntries_eq, sameEntries_eq]
  exact (List.mergeSort_perm es keyOrder).all_eq

mutual
theorem agree_arranged (v w : Value) : v.arranged.agree w = v.agree w := by
  cases v with
  | tuple vs => cases w <;> simp only [Value.arranged, Value.agree, agreeList_arranged vs]
  | record t fs => cases w <;> simp only [Value.arranged, Value.agree, agreeFields_arranged fs]
  | _ => cases w <;> simp only [Value.arranged, Value.agree]

theorem agreeList_arranged (vs ws : List Value) :
    agreeList (arrangedItems vs) ws = agreeList vs ws := by
  cases vs with
  | nil => simp only [arrangedItems]
  | cons v vs =>
    cases ws with
    | nil => simp only [arrangedItems, agreeList]
    | cons w ws => simp only [arrangedItems, agreeList, agree_arranged v, agreeList_arranged vs]

theorem agreeFields_arranged (es fs : List (String × Slot Value)) :
    agreeFields (arrangedFields es) fs = agreeFields es fs := by
  cases es with
  | nil => simp only [arrangedFields]
  | cons e es =>
    obtain ⟨n, a⟩ := e
    cases fs with
    | nil => simp only [arrangedFields, agreeFields]
    | cons f fs =>
      obtain ⟨m, b⟩ := f
      simp only [arrangedFields, agreeFields, agreeSlot_arranged a, agreeFields_arranged es]

theorem agreeSlot_arranged (a b : Slot Value) : agreeSlot (arrangedSlot a) b = agreeSlot a b := by
  cases a with
  | unset => simp only [arrangedSlot]
  | own v => cases b <;> simp only [arrangedSlot, agreeSlot, agree_arranged v]
  | shared v => cases b <;> simp only [arrangedSlot, agreeSlot, agree_arranged v]
end

mutual
theorem same_arranged (v w : Value) : v.arranged.same w = v.same w := by
  cases v with
  | list vs | tuple vs =>
    cases w <;>
      simp only [Value.arranged, Value.same, Value.isNumber, Bool.false_and, sameList_arranged vs]
  | dict es =>
    cases w <;>
      simp only [Value.arranged, Value.same, Value.isNumber, Bool.false_and, length_sorted,
        sameEntries_sort, sameEntries_arranged es]
  | record t fs =>
    cases w <;>
      simp only [Value.arranged, Value.same, Value.isNumber, Bool.false_and,
        sameFields_arranged fs]
  | _ => simp only [Value.arranged]

theorem sameList_arranged (vs ws : List Value) :
    sameList (arrangedItems vs) ws = sameList vs ws := by
  cases vs with
  | nil => simp only [arrangedItems]
  | cons v vs =>
    cases ws with
    | nil => simp only [arrangedItems, sameList]
    | cons w ws => simp only [arrangedItems, sameList, same_arranged v, sameList_arranged vs]

theorem sameEntries_arranged (es fs : List (Value × Value)) :
    sameEntries (arrangedEntries es) fs = sameEntries es fs := by
  cases es with
  | nil => simp only [arrangedEntries]
  | cons e es =>
    obtain ⟨k, v⟩ := e
    simp only [arrangedEntries, sameEntries, same_arranged v, sameEntries_arranged es]

theorem sameFields_arranged (es fs : List (String × Slot Value)) :
    sameFields (arrangedFields es) fs = sameFields es fs := by
  cases es with
  | nil => simp only [arrangedFields]
  | cons e es =>
    obtain ⟨n, a⟩ := e
    cases fs with
    | nil => simp only [arrangedFields, sameFields]
    | cons f fs =>
      obtain ⟨m, b⟩ := f
      simp only [arrangedFields, sameFields, sameSlot_arranged a, sameFields_arranged es]

theorem sameSlot_arranged (a b : Slot Value) : sameSlot (arrangedSlot a) b = sameSlot a b := by
  cases a with
  | unset => simp only [arrangedSlot]
  | own v => cases b <;> simp only [arrangedSlot, sameSlot, same_arranged v]
  | shared v => cases b <;> simp only [arrangedSlot, sameSlot, same_arranged v]
end

theorem typeName_arranged (v : Value) : v.arranged.typeName = v.typeName := by
  cases v <;> rfl

mutual
theorem order_arranged (operator : String) (v w : Value) :
    v.arranged.order operator w = v.order operator w := by
  cases v with
  | list vs | tuple vs =>
    cases w <;>
      simp only [Value.arranged, Value.order, Value.isNumber, Bool.false_and, Bool.false_eq_true,
        if_false, Value.typeName, orderLists_arranged operator vs]
  | dict es | record t fs =>
    cases w <;>
      simp only [Value.arranged, Value.order, Value.isNumber, Bool.false_and, Bool.false_eq_true,
        if_false, Value.typeName]
  | _ => simp only [Value.arranged]

theorem orderLists_arranged (operator : String) (vs ws : List Value) :
    orderLists operator (arrangedItems vs) ws = orderLists operator vs ws := by
  cases vs with
  | nil => simp only [arrangedItems]
  | cons v vs =>
    cases ws with
    | nil => simp only [arrangedItems, orderLists]
    | cons w ws =>
      simp only [arrangedItems, orderLists, same_arranged v w, order_arranged operator v w,
        orderLists_arranged operator vs ws]
end

theorem isVoid_arranged (v : Value) : v.arranged.isVoid = v.isVoid := by
  cases v with
  | list vs | tuple vs => simp [Value.arranged, Value.isVoid, arrangedItems_eq]
  | dict es =>
    have hlength := length_sorted es
    simp only [Value.arranged, Value.isVoid]
    cases es with
    | nil => rw [List.isEmpty_iff_length_eq_zero.2 hlength]; rfl
    | cons e es =>
      rw [List.isEmpty_cons, Bool.eq_false_iff, ne_eq, List.isEmpty_iff_length_eq_zero, hlength]
      exact Nat.succ_ne_zero _
  | _ => simp [Value.arranged, Value.isVoid, Value.isNumber]

theorem length_arranged (v : Value) : v.arranged.length? = v.length? := by
  cases v with
  | list vs | tuple vs =>
    simp only [Value.arranged, Value.length?, arrangedItems_eq, List.length_map]
  | dict es => simp only [Value.arranged, Value.length?, length_sorted]
  | _ => rfl

theorem contains_arranged (v w : Value) : v.arranged.contains w = v.contains w := by
  cases v with
  | list vs | tuple vs =>
    simp only [Value.arranged, Value.contains, arrangedItems_eq, List.any_map, Function.comp_def,
      same_arranged]
  | dict es =>
    simp only [Value.arranged, Value.contains, (List.mergeSort_perm _ keyOrder).any_eq,
      arrangedEntries_eq, List.any_map, Function.comp_def, Prod.map, id]
  | _ => rfl

theorem get_arranged (a : Slot Value) : (arrangedSlot a).get? = a.get?.map Value.arranged := by
  cases a <;> rfl

theorem attribute_arranged (v : Value) (name : String) :
    Option.Rel (fun a b => a = b.arranged ∨ a = b) (v.arranged.attribute? name)
      (v.attribute? name) := by
  have hrefl (o : Option Value) : Option.Rel (fun a b => a = b.arranged ∨ a = b) o o := by
    cases o with
    | none => exact .none
    | some a => exact .some (.inr rfl)
  cases v with
  | record t fs =>
    simp only [Value.arranged, Value.attribute?, arrangedFields_eq, List.find?_map,
      Function.comp_def, Prod.map, id]
    cases fs.find? fun f => decide (f.1 = name) with
    | none => exact .none
    | some f =>
      change Option.Rel _ (arrangedSlot f.2).get? f.2.get?
      rw [get_arranged]
      cases f.2.get? with
      | none => exact .none
      | some a => exact .some (.inl rfl)
  | _ => exact hrefl _

theorem measure_arranged (v : Value) : v.arranged.measure = v.measure := by
  by_cases hv : v = .none
  · rw [hv]
    rfl
  · have hv' : v.arranged ≠ .none := by
      intro h
      cases v <;> first | exact hv rfl | cases h
    have hsize := attribute_arranged v "size"
    rw [Value.measure.eq_2 _ hv, Value.measure.eq_2 _ hv', length_arranged, typeName_arranged]
    generalize v.arranged.attribute? "size" = x, v.attribute? "size" = y at hsize
    cases hsize with
    | none => rfl
    | @some _ b h =>
      rcases h with rfl | rfl
      · cases b <;> rfl
      · rfl

theorem mediaType_arranged (v : Value) : v.arranged.mediaType? = v.mediaType? := by
  have hgiven (name : String) : Option.Rel (fun a b => a = b.arranged ∨ a = b)
      (Value.mediaType?.given v.arranged name) (Value.mediaType?.given v name) := by
    have hattribute := attribute_arranged v name
    unfold Value.mediaType?.given
    generalize v.arranged.attribute? name = x, v.attribute? name = y at hattribute
    cases hattribute with
    | none => exact .none
    | @some a b h =>
      have hvoid : a.isVoid = b.isVoid := by
        rcases h with rfl | rfl
        · exact isVoid_arranged b
        · rfl
      rw [Option.filter_some, Option.filter_some, hvoid]
      split_ifs
      · exact .some h
      · exact .none
  have htype := hgiven "content_type"
  have hname := hgiven "file_name"
  unfold Value.mediaType?
  generalize Value.mediaType?.given v.arranged "content_type" = x,
    Value.mediaType?.given v "content_type" = y at htype
  cases htype with
  | @some a b h =>
    rcases h with rfl | rfl
    · cases b <;> rfl
    · cases a <;> rfl
  | none =>
    generalize Value.mediaType?.given v.arranged "file_name" = x,
      Value.mediaType?.given v "file_name" = y at hname
    cases hname with
    | none => rfl
    | @some _ b h =>
      rcases h with rfl | rfl
      · cases b <;> rfl
      · rfl

end Compare

/-- Values that differ in the order of entries alone. -/
def Value.Rearranged (v w : Value) : Prop := v.arranged = w.arranged

theorem run_arranged (c : Check) (v : Value) (hc : c.isStandard = true) :
    c.run v.arranged = c.run v := by
  have hless : v.arranged.less = v.less := by
    funext w
    rw [Value.less, Value.less, order_arranged]
  have hgreater : v.arranged.greater = v.greater := by
    funext w
    rw [Value.greater, Value.greater, order_arranged]
  induction c with
  | equals expected | differs invalid => rw [Check.run, Check.run, same_arranged]
  | length least greatest => rw [Check.run, Check.run, measure_arranged]
  | contains item | containsNamed item | omits item | omitsNamed item =>
    rw [Check.run, Check.run, contains_arranged]
  | inRange start stop => rw [Check.run, Check.run, outside, outside, hless, hgreater]
  | oneOf items =>
    have hsame : v.arranged.same = v.same := funext (same_arranged v)
    rw [Check.run, Check.run, hsame]
  | mediaType expected => rw [Check.run, Check.run, mediaType_arranged]
  | message text inner ih => rw [Check.run, Check.run, ih hc]
  | custom verdict => cases hc

/-- The checks of the library do not look at the order of entries. -/
theorem Schema.IsStandard.blindTo_rearranged {s : Schema} (h : s.IsStandard) :
    s.BlindTo Value.Rearranged := by
  refine h.blindTo fun c v w hc hvw => ?_
  rw [← run_arranged c v hc, hvw, run_arranged c w hc]

end WebForm
