import Mathlib
import WebForm.Proofs.Run.Check

/-!
# Values without spellings

A value shows how the names of its fields were spelled in three places only: files have the name of
their field, errors that of their place, and contexts those of all fields. No comparison of values
and no check of the library looks there.
-/
namespace WebForm

/-- The path with the same keys, each a part of its own. -/
def Path.unspelled (p : Path) : Path := p.keys.foldl .child (.name ⟨[]⟩)

def Error.unspelled (e : FormError) : FormError := { e with name := e.name.map Path.unspelled }

mutual
def Value.unspelled : Value → Value
  | .list vs => .list (unspelledItems vs)
  | .tuple vs => .tuple (unspelledItems vs)
  | .dict es => .dict (unspelledEntries es)
  | .record t fs => .record t (unspelledFields fs)
  | .choice t m v => .choice t m v.unspelled
  | .file f => .file { f with fieldName := "" }
  | .errors es => .errors (es.map Error.unspelled)
  | .contextual v _ => .contextual v.unspelled .empty
  | .object as => .object (unspelledAttributes as)
  | v => v

def unspelledItems : List Value → List Value
  | [] => []
  | v :: vs => v.unspelled :: unspelledItems vs

def unspelledEntries : List (Value × Value) → List (Value × Value)
  | [] => []
  | (k, v) :: es => (k.unspelled, v.unspelled) :: unspelledEntries es

def unspelledFields : List (String × Slot Value) → List (String × Slot Value)
  | [] => []
  | (n, a) :: fs => (n, unspelledSlot a) :: unspelledFields fs

def unspelledSlot : Slot Value → Slot Value
  | .unset => .unset
  | .own v => .own v.unspelled
  | .shared v => .shared v.unspelled

def unspelledAttributes : List (String × Value) → List (String × Value)
  | [] => []
  | (n, v) :: as => (n, v.unspelled) :: unspelledAttributes as
end

theorem unspelledItems_eq (vs : List Value) : unspelledItems vs = vs.map Value.unspelled := by
  induction vs with
  | nil => rfl
  | cons v vs ih => rw [unspelledItems, ih, List.map_cons]

theorem unspelledEntries_eq (es : List (Value × Value)) :
    unspelledEntries es = es.map (Prod.map Value.unspelled Value.unspelled) := by
  induction es with
  | nil => rfl
  | cons e es ih => rw [unspelledEntries, ih, List.map_cons]; rfl

theorem unspelledFields_eq (fs : List (String × Slot Value)) :
    unspelledFields fs = fs.map (Prod.map id unspelledSlot) := by
  induction fs with
  | nil => rfl
  | cons f fs ih => rw [unspelledFields, ih, List.map_cons]; rfl

theorem unspelledAttributes_eq (as : List (String × Value)) :
    unspelledAttributes as = as.map (Prod.map id Value.unspelled) := by
  induction as with
  | nil => rfl
  | cons a as ih => rw [unspelledAttributes, ih, List.map_cons]; rfl

theorem Path.keys_unspelled (p q : Path) : p.unspelled = q.unspelled ↔ p.keys = q.keys := by
  have hinj (ks ls : List Key) (h : ks.reverse.foldr (fun k p => Path.child p k) (.name ⟨[]⟩) =
      ls.reverse.foldr (fun k p => Path.child p k) (.name ⟨[]⟩)) : ks = ls := by
    rw [← List.reverse_inj]
    generalize ks.reverse = ks at h ⊢
    generalize ls.reverse = ls at h ⊢
    induction ks generalizing ls with
    | nil =>
      cases ls with
      | nil => rfl
      | cons l ls => cases h
    | cons k ks ih =>
      cases ls with
      | nil => cases h
      | cons l ls =>
        obtain ⟨hp, rfl⟩ := Path.child.inj h
        rw [ih ls hp]
  refine ⟨fun h => hinj _ _ ?_, fun h => by rw [unspelled, unspelled, h]⟩
  rw [List.foldr_reverse, List.foldr_reverse]
  exact h

theorem ctorIdx_unspelled (v : Value) : v.unspelled.ctorIdx = v.ctorIdx := by
  cases v <;> rfl

theorem isNumber_unspelled (v : Value) : v.unspelled.isNumber = v.isNumber := by
  cases v <;> rfl

theorem rank_unspelled (v : Value) : v.unspelled.rank? = v.rank? := by
  cases v <;> rfl

theorem same_apart {v w : Value} (h : v.ctorIdx ≠ w.ctorIdx) :
    v.same w = (v.isNumber && w.isNumber && compareNumbers v w == some .eq) := by
  rw [Value.same.eq_def]
  split <;> first | rfl | exact absurd rfl h

theorem same_unspelled_apart {v w : Value} (h : v.ctorIdx ≠ w.ctorIdx) :
    v.unspelled.same w.unspelled = v.same w := by
  have h' : v.unspelled.ctorIdx ≠ w.unspelled.ctorIdx := by
    rwa [ctorIdx_unspelled, ctorIdx_unspelled]
  rw [same_apart h, same_apart h', isNumber_unspelled, isNumber_unspelled, compareNumbers,
    compareNumbers, rank_unspelled, rank_unspelled]

theorem agree_unspelled_apart {v w : Value} (h : v.ctorIdx ≠ w.ctorIdx) :
    v.unspelled.agree w.unspelled = v.agree w := by
  have hapart {v w : Value} (h : v.ctorIdx ≠ w.ctorIdx) : v.agree w = true := by
    rw [Value.agree.eq_def]
    split <;> first | rfl | exact absurd rfl h
  rw [hapart h, hapart (by rwa [ctorIdx_unspelled, ctorIdx_unspelled])]

mutual
theorem agree_unspelled (v w : Value) : v.unspelled.agree w.unspelled = v.agree w := by
  by_cases h : v.ctorIdx = w.ctorIdx
  · cases v with
    | tuple vs =>
      cases w <;> cases h
      simp only [Value.unspelled, Value.agree, agreeList_unspelled vs]
    | record t fs =>
      cases w <;> cases h
      simp only [Value.unspelled, Value.agree, agreeFields_unspelled fs]
    | _ =>
      cases w <;> cases h
      simp only [Value.unspelled, Value.agree]
  · exact agree_unspelled_apart h

theorem agreeList_unspelled (vs ws : List Value) :
    agreeList (unspelledItems vs) (unspelledItems ws) = agreeList vs ws := by
  cases vs with
  | nil => cases ws <;> simp only [unspelledItems, agreeList]
  | cons v vs =>
    cases ws with
    | nil => simp only [unspelledItems, agreeList]
    | cons w ws =>
      simp only [unspelledItems, agreeList, agree_unspelled v w, agreeList_unspelled vs ws]

theorem agreeFields_unspelled (es fs : List (String × Slot Value)) :
    agreeFields (unspelledFields es) (unspelledFields fs) = agreeFields es fs := by
  cases es with
  | nil => cases fs <;> simp only [unspelledFields, agreeFields]
  | cons e es =>
    cases fs with
    | nil => simp only [unspelledFields, agreeFields]
    | cons f fs =>
      obtain ⟨n, a⟩ := e
      obtain ⟨m, b⟩ := f
      simp only [unspelledFields, agreeFields, agreeSlot_unspelled a b,
        agreeFields_unspelled es fs]

theorem agreeSlot_unspelled (a b : Slot Value) :
    agreeSlot (unspelledSlot a) (unspelledSlot b) = agreeSlot a b := by
  cases a with
  | unset => cases b <;> simp only [unspelledSlot, agreeSlot]
  | own v => cases b <;> simp only [unspelledSlot, agreeSlot, agree_unspelled v]
  | shared v => cases b <;> simp only [unspelledSlot, agreeSlot, agree_unspelled v]
end

mutual
theorem same_unspelled (v w : Value) : v.unspelled.same w.unspelled = v.same w := by
  by_cases h : v.ctorIdx = w.ctorIdx
  · cases v with
    | list vs | tuple vs =>
      cases w <;> cases h
      simp only [Value.unspelled, Value.same, sameList_unspelled vs]
    | dict es =>
      cases w <;> cases h
      simp only [Value.unspelled, Value.same]
      rw [sameEntries_unspelled, unspelledEntries_eq, unspelledEntries_eq, List.length_map,
        List.length_map]
    | record t fs =>
      cases w <;> cases h
      simp only [Value.unspelled, Value.same, sameFields_unspelled fs]
    | object as =>
      cases w <;> cases h
      simp only [Value.unspelled, Value.same]
      rw [sameAttributes_unspelled, unspelledAttributes_eq, unspelledAttributes_eq,
        List.length_map, List.length_map]
    | file f | errors es | contextual v c =>
      cases w <;> cases h
      simp only [Value.unspelled, Value.same, Value.isNumber, Bool.false_and]
    | _ =>
      cases w <;> cases h
      simp only [Value.unspelled, Value.same]
  · exact same_unspelled_apart h

theorem sameList_unspelled (vs ws : List Value) :
    sameList (unspelledItems vs) (unspelledItems ws) = sameList vs ws := by
  cases vs with
  | nil => cases ws <;> simp only [unspelledItems, sameList]
  | cons v vs =>
    cases ws with
    | nil => simp only [unspelledItems, sameList]
    | cons w ws =>
      simp only [unspelledItems, sameList, same_unspelled v w, sameList_unspelled vs ws]

theorem sameEntries_unspelled (es fs : List (Value × Value)) :
    sameEntries (unspelledEntries es) (unspelledEntries fs) = sameEntries es fs := by
  cases es with
  | nil => simp only [unspelledEntries, sameEntries]
  | cons e es =>
    obtain ⟨k, v⟩ := e
    simp only [unspelledEntries, sameEntries, sameEntries_unspelled es fs]
    rw [unspelledEntries_eq, List.any_map]
    simp only [Function.comp_def, Prod.map, agree_unspelled k, same_unspelled k, same_unspelled v]

theorem sameFields_unspelled (es fs : List (String × Slot Value)) :
    sameFields (unspelledFields es) (unspelledFields fs) = sameFields es fs := by
  cases es with
  | nil => cases fs <;> simp only [unspelledFields, sameFields]
  | cons e es =>
    cases fs with
    | nil => simp only [unspelledFields, sameFields]
    | cons f fs =>
      obtain ⟨n, a⟩ := e
      obtain ⟨m, b⟩ := f
      simp only [unspelledFields, sameFields, sameSlot_unspelled a b, sameFields_unspelled es fs]

theorem sameSlot_unspelled (a b : Slot Value) :
    sameSlot (unspelledSlot a) (unspelledSlot b) = sameSlot a b := by
  cases a with
  | unset => cases b <;> simp only [unspelledSlot, sameSlot]
  | own v => cases b <;> simp only [unspelledSlot, sameSlot, same_unspelled v]
  | shared v => cases b <;> simp only [unspelledSlot, sameSlot, same_unspelled v]

theorem sameAttributes_unspelled (es fs : List (String × Value)) :
    sameAttributes (unspelledAttributes es) (unspelledAttributes fs) = sameAttributes es fs := by
  cases es with
  | nil => simp only [unspelledAttributes, sameAttributes]
  | cons e es =>
    obtain ⟨n, v⟩ := e
    simp only [unspelledAttributes, sameAttributes, sameAttributes_unspelled es fs]
    rw [unspelledAttributes_eq, List.any_map]
    simp only [Function.comp_def, Prod.map, id, same_unspelled v]
end

theorem get_unspelled (a : Slot Value) : (unspelledSlot a).get? = a.get?.map Value.unspelled := by
  cases a <;> rfl

theorem sameKey_unspelled (v w : Value) : v.unspelled.sameKey w.unspelled = v.sameKey w := by
  rw [Value.sameKey, Value.sameKey, agree_unspelled, same_unspelled]

mutual
theorem keyFault_unspelled (v : Value) : v.unspelled.keyFault? = v.keyFault? := by
  cases v with
  | tuple vs => simp only [Value.unspelled, Value.keyFault?, keyFaultIn_unspelled vs]
  | record t fs =>
    have hunset : unsetIn t (unspelledFields fs) = unsetIn t fs := by
      rw [unsetIn, unsetIn, unspelledFields_eq, List.find?_map, Option.map_map]
      simp only [Function.comp_def, Prod.map, id, get_unspelled, Option.isNone_map]
    simp only [Value.unspelled, Value.keyFault?, hunset, keyFaultOf_unspelled fs]
  | _ => simp only [Value.unspelled, Value.keyFault?]

theorem keyFaultIn_unspelled (vs : List Value) :
    keyFaultIn (unspelledItems vs) = keyFaultIn vs := by
  cases vs with
  | nil => simp only [unspelledItems, keyFaultIn]
  | cons v vs =>
    simp only [unspelledItems, keyFaultIn, keyFault_unspelled v, keyFaultIn_unspelled vs]

theorem keyFaultOf_unspelled (fs : List (String × Slot Value)) :
    keyFaultOf (unspelledFields fs) = keyFaultOf fs := by
  cases fs with
  | nil => simp only [unspelledFields, keyFaultOf]
  | cons f fs =>
    obtain ⟨n, a⟩ := f
    simp only [unspelledFields, keyFaultOf, slotFault_unspelled a, keyFaultOf_unspelled fs]

theorem slotFault_unspelled (a : Slot Value) : slotFault (unspelledSlot a) = slotFault a := by
  cases a with
  | unset => simp only [unspelledSlot, slotFault]
  | own v | shared v => simp only [unspelledSlot, slotFault, keyFault_unspelled v]
end

theorem typeName_unspelled (v : Value) : v.unspelled.typeName = v.typeName := by
  cases v <;> rfl

theorem order_unspelled_apart {operator : String} {v w : Value} (h : v.ctorIdx ≠ w.ctorIdx) :
    v.unspelled.order operator w.unspelled = v.order operator w := by
  cases v <;> cases w <;> first
    | exact absurd rfl h
    | simp only [Value.unspelled, Value.order, Value.isNumber, Bool.and_false, Bool.false_and,
        Bool.false_eq_true, if_false, Value.typeName]

mutual
theorem order_unspelled (operator : String) (v w : Value) :
    v.unspelled.order operator w.unspelled = v.order operator w := by
  by_cases h : v.ctorIdx = w.ctorIdx
  · cases v with
    | list vs | tuple vs =>
      cases w <;> cases h
      simp only [Value.unspelled, Value.order, orderLists_unspelled operator vs]
    | none | dict es | record t fs | choice t m v | file f | errors es | contextual v c =>
      cases w <;> cases h
      simp only [Value.unspelled, Value.order, Value.isNumber, Bool.false_and, Bool.false_eq_true,
        if_false, Value.typeName]
    | _ =>
      cases w <;> cases h
      simp only [Value.unspelled, Value.order]
  · exact order_unspelled_apart h

theorem orderLists_unspelled (operator : String) (vs ws : List Value) :
    orderLists operator (unspelledItems vs) (unspelledItems ws) = orderLists operator vs ws := by
  cases vs with
  | nil => cases ws <;> simp only [unspelledItems, orderLists]
  | cons v vs =>
    cases ws with
    | nil => simp only [unspelledItems, orderLists]
    | cons w ws =>
      simp only [unspelledItems, orderLists, same_unspelled v w, order_unspelled operator v w,
        orderLists_unspelled operator vs ws]
end

theorem less_unspelled (v w : Value) : v.unspelled.less w.unspelled = v.less w := by
  rw [Value.less, Value.less, order_unspelled]

theorem greater_unspelled (v w : Value) : v.unspelled.greater w.unspelled = v.greater w := by
  rw [Value.greater, Value.greater, order_unspelled]

theorem isVoid_unspelled (v : Value) : v.unspelled.isVoid = v.isVoid := by
  cases v with
  | list vs | tuple vs => simp [Value.unspelled, Value.isVoid, unspelledItems_eq]
  | dict es => simp [Value.unspelled, Value.isVoid, unspelledEntries_eq]
  | errors es => simp [Value.unspelled, Value.isVoid]
  | _ => simp [Value.unspelled, Value.isVoid, Value.isNumber]

theorem length_unspelled (v : Value) : v.unspelled.length? = v.length? := by
  cases v with
  | list vs | tuple vs => simp [Value.unspelled, Value.length?, unspelledItems_eq]
  | dict es => simp [Value.unspelled, Value.length?, unspelledEntries_eq]
  | errors es => simp [Value.unspelled, Value.length?]
  | _ => rfl

theorem contains_unspelled (v w : Value) : v.unspelled.contains w.unspelled = v.contains w := by
  cases v with
  | list vs | tuple vs =>
    simp only [Value.unspelled, Value.contains, unspelledItems_eq, List.any_map, Function.comp_def,
      same_unspelled]
  | dict es =>
    simp only [Value.unspelled, Value.contains, keyFault_unspelled, unspelledEntries_eq,
      List.any_map, Function.comp_def, Prod.map, sameKey_unspelled]
  | text s | octets bs => cases w <;> rfl
  | _ => rfl

theorem attribute_unspelled {name : String} (h : name ≠ "field_name") (v : Value) :
    v.unspelled.attribute? name = (v.attribute? name).map Value.unspelled := by
  cases v with
  | record t fs =>
    simp only [Value.unspelled, Value.attribute?, unspelledFields_eq, List.find?_map,
      Function.comp_def, Prod.map, id]
    cases fs.find? fun f => decide (f.1 = name) with
    | none => rfl
    | some f => exact get_unspelled f.2
  | object as =>
    simp only [Value.unspelled, Value.attribute?, unspelledAttributes_eq, List.find?_map,
      Function.comp_def, Prod.map, id, Option.map_map]
  | file f =>
    simp only [Value.unspelled, Value.attribute?, h, if_false]
    split_ifs
    · rfl
    · cases f.fileName <;> rfl
    · rfl
    · rfl
  | choice t m v =>
    simp only [Value.unspelled, Value.attribute?]
    split_ifs <;> rfl
  | _ => rfl

theorem unspelled_eq_none {v : Value} : v.unspelled = .none ↔ v = .none := by
  cases v <;> simp [Value.unspelled]

theorem measure_unspelled (v : Value) : v.unspelled.measure = v.measure := by
  by_cases hv : v = .none
  · rw [hv]
    rfl
  · rw [Value.measure.eq_2 _ hv, Value.measure.eq_2 _ (mt unspelled_eq_none.1 hv),
      attribute_unspelled (by decide), length_unspelled, typeName_unspelled]
    rcases v.attribute? "size" with _ | a
    · rfl
    · cases a <;> rfl

theorem mediaType_unspelled (v : Value) : v.unspelled.mediaType? = v.mediaType? := by
  have hgiven {name : String} (h : name ≠ "field_name") :
      Value.mediaType?.given v.unspelled name =
        (Value.mediaType?.given v name).map Value.unspelled := by
    rw [Value.mediaType?.given, Value.mediaType?.given, attribute_unspelled h]
    cases v.attribute? name with
    | none => rfl
    | some a => cases ha : a.isVoid <;> simp [Option.filter, isVoid_unspelled, ha]
  unfold Value.mediaType?
  rw [hgiven (by decide), hgiven (by decide)]
  rcases Value.mediaType?.given v "content_type" with _ | a
  · rcases Value.mediaType?.given v "file_name" with _ | b
    · rfl
    · cases b <;> rfl
  · cases a <;> rfl

/-- Values that differ in spelling alone. -/
def Value.Alike (v w : Value) : Prop := v.unspelled = w.unspelled

theorem Value.Alike.check {v w : Value} (h : v.Alike w) (c : Check) (hc : c.isStandard = true) :
    c.run v = c.run w := by
  have hsame (x : Value) : v.same x = w.same x := by
    rw [← same_unspelled, h, same_unspelled]
  have houtside (start stop : Option Value) {v w : Value} (h : v.Alike w) :
      outside start stop v = outside start stop w := by
    have hless (x : Value) : v.less x = w.less x := by rw [← less_unspelled, h, less_unspelled]
    have hgreater (x : Value) : v.greater x = w.greater x := by
      rw [← greater_unspelled, h, greater_unspelled]
    rw [outside, outside, show v.less = w.less from funext hless,
      show v.greater = w.greater from funext hgreater]
  have hcontains (x : Value) : v.contains x = w.contains x := by
    rw [← contains_unspelled, h, contains_unspelled]
  induction c with
  | equals expected | differs invalid => rw [Check.run, Check.run, hsame]
  | length least greatest => rw [Check.run, Check.run, ← measure_unspelled v, h, measure_unspelled]
  | contains item | containsNamed item | omits item | omitsNamed item =>
    rw [Check.run, Check.run, hcontains]
  | inRange start stop => rw [Check.run, Check.run, houtside start stop h]
  | oneOf items => rw [Check.run, Check.run, show v.same = w.same from funext hsame]
  | mediaType expected =>
    rw [Check.run, Check.run, ← mediaType_unspelled v, h, mediaType_unspelled]
  | message text inner ih => rw [Check.run, Check.run, ih hc]
  | custom verdict => cases hc

end WebForm
