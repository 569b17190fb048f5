import Mathlib
import WebForm.Check

/-!
# Faults of values

A value can be no key, and a check can be one that does not fit its value. Both end the work, but
neither is a computation that would never end.
-/
namespace WebForm

mutual
theorem keyFault_ne_endless (v : Value) : v.keyFault? ≠ some .endless := by
  cases v with
  | tuple vs => rw [Value.keyFault?]; exact keyFaultIn_ne_endless vs
  | record t fs =>
    rw [Value.keyFault?]
    split_ifs
    · intro h
      rcases Option.or_eq_some_iff.1 h with h | ⟨-, h⟩
      · obtain ⟨f, -, hf⟩ := Option.map_eq_some_iff.1 h
        cases hf
      · exact keyFaultOf_ne_endless fs h
    · exact nofun
  | _ => rw [Value.keyFault?] <;> exact nofun

theorem keyFaultIn_ne_endless (vs : List Value) : keyFaultIn vs ≠ some .endless := by
  cases vs with
  | nil => exact nofun
  | cons v vs =>
    rw [keyFaultIn]
    intro h
    rcases Option.or_eq_some_iff.1 h with h | ⟨-, h⟩
    · exact keyFault_ne_endless v h
    · exact keyFaultIn_ne_endless vs h

theorem keyFaultOf_ne_endless (fs : List (String × Slot Value)) :
    keyFaultOf fs ≠ some .endless := by
  cases fs with
  | nil => exact nofun
  | cons f fs =>
    rcases f with ⟨n, a⟩
    rw [keyFaultOf]
    intro h
    rcases Option.or_eq_some_iff.1 h with h | ⟨-, h⟩
    · exact slotFault_ne_endless a h
    · exact keyFaultOf_ne_endless fs h

theorem slotFault_ne_endless (a : Slot Value) : slotFault a ≠ some .endless := by
  cases a with
  | unset => exact nofun
  | own v => exact keyFault_ne_endless v
  | shared v => exact keyFault_ne_endless v
end

mutual
theorem order_ne_endless (op : String) (v w : Value) : v.order op w ≠ .error .endless := by
  unfold Value.order
  split
  case h_3 => exact orderLists_ne_endless op _ _
  case h_4 => exact orderLists_ne_endless op _ _
  all_goals first | (split_ifs <;> simp) | simp

theorem orderLists_ne_endless (op : String) (vs ws : List Value) :
    orderLists op vs ws ≠ .error .endless := by
  cases vs with
  | nil => cases ws <;> exact nofun
  | cons v vs =>
    cases ws with
    | nil => exact nofun
    | cons w ws =>
      rw [orderLists]
      split_ifs
      · exact orderLists_ne_endless op vs ws
      · exact order_ne_endless op v w
end

theorem bind_ne_endless {α β : Type} {x : Except Fault α} {g : α → Except Fault β}
    (hx : x ≠ .error .endless) (hg : ∀ a, g a ≠ .error .endless) : (x >>= g) ≠ .error .endless := by
  cases x with
  | error e => exact fun h => hx (congrArg _ (Except.error.inj h))
  | ok a => exact hg a

theorem map_ne_endless {α β : Type} {x : Except Fault α} {g : α → β} (hx : x ≠ .error .endless) :
    x.map g ≠ .error .endless := by
  cases x with
  | error e => exact fun h => hx (congrArg _ (Except.error.inj h))
  | ok a => exact nofun

theorem outside_ne_endless (start stop : Option Value) (v : Value) :
    outside start stop v ≠ .error .endless := by
  refine bind_ne_endless ?_ fun below => ?_
  · cases start with
    | none => exact nofun
    | some b => exact map_ne_endless (order_ne_endless "<" v b)
  · cases below with
    | true => exact nofun
    | false =>
      cases stop with
      | none => exact nofun
      | some b => exact map_ne_endless (order_ne_endless ">" v b)

theorem measure_ne_endless (v : Value) : v.measure ≠ .error .endless := by
  unfold Value.measure
  split
  · exact nofun
  · split
    · exact nofun
    · exact nofun
    · split <;> exact nofun

theorem contains_ne_endless (v item : Value) : v.contains item ≠ .error .endless := by
  unfold Value.contains
  split
  · split <;> exact nofun
  · split <;> first | (split_ifs <;> simp) | simp
  · exact nofun
  · exact nofun
  · split
    · next f hf =>
      exact fun h => keyFault_ne_endless item (hf.trans (congrArg _ (Except.error.inj h)))
    · exact nofun
  · exact nofun
  · exact nofun

theorem mediaType_ne_endless (v : Value) : v.mediaType? ≠ .error .endless := by
  unfold Value.mediaType?
  split
  · exact nofun
  · exact nofun
  · exact nofun
  · split <;> exact nofun

theorem check_ne_endless (c : Check) (v : Value) : c.run v ≠ .error (.fault .endless) := by
  have hdemand (b : Bool) (k : Kind Value) : Check.demand b k ≠ .error (.fault .endless) := by
    cases b <;> exact nofun
  have hfault {α : Type} {x : Except Fault α} {g : α → Outcome Unit} (hx : x ≠ .error .endless)
      (hg : ∀ a, g a ≠ .error (.fault .endless)) :
      (Outcome.ofFault x >>= g) ≠ .error (.fault .endless) := by
    cases x with
    | error e => exact fun h => hx (congrArg _ (Failure.fault.inj (Except.error.inj h)))
    | ok a => exact hg a
  induction c with
  | equals expected => exact hdemand _ _
  | differs invalid => exact hdemand _ _
  | length least greatest =>
    exact hfault (measure_ne_endless v) fun n => hfault (outside_ne_endless _ _ n) fun out =>
      hdemand _ _
  | contains item => exact hfault (contains_ne_endless v item) fun found => hdemand _ _
  | containsNamed item => exact hfault (contains_ne_endless v item) fun found => hdemand _ _
  | omits item => exact hfault (contains_ne_endless v item) fun found => hdemand _ _
  | omitsNamed item => exact hfault (contains_ne_endless v item) fun found => hdemand _ _
  | inRange start stop => exact hfault (outside_ne_endless start stop v) fun out => hdemand _ _
  | oneOf items => exact hdemand _ _
  | mediaType expected =>
    refine hfault (mediaType_ne_endless v) fun actual => ?_
    cases actual <;> exact hdemand _ _
  | message text inner ih =>
    rw [Check.run]
    split
    · exact nofun
    · exact ih
  | custom verdict =>
    rw [Check.run]
    cases verdict v <;> exact nofun

end WebForm
