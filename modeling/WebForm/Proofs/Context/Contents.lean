import Mathlib
import WebForm.Error.Context

/-!
# What a context holds

A context is filled step by step. At every time it holds all that was put into it: the errors of a
name and the values of a name in the order in which they came, and the names themselves in the order
in which they came first.
-/
namespace WebForm

section Distinct

variable {α : Type} [BEq α] [LawfulBEq α]

theorem eraseDups_snoc (as : List α) (a : α) :
    (as ++ [a]).eraseDups = if a ∈ as then as.eraseDups else as.eraseDups ++ [a] := by
  rw [List.eraseDups_append]
  by_cases h : a ∈ as <;> simp [List.removeAll, List.eraseDups_cons, h]

theorem nodup_eraseDups (as : List α) : as.eraseDups.Nodup := by
  induction as using List.reverseRecOn with
  | nil => exact List.nodup_nil
  | append_singleton as a ih =>
    rw [eraseDups_snoc]
    split_ifs with h
    · exact ih
    · refine List.nodup_append'.2 ⟨ih, List.nodup_singleton a, ?_⟩
      rwa [List.disjoint_singleton, List.mem_eraseDups]

end Distinct

namespace Context

section Table

variable {β γ : Type} {keys : β → List Key} {table : List (β × List γ)} {place : β} {item : γ}

def heads (keys : β → List Key) (table : List (β × List γ)) : List (List Key) :=
  table.map fun e => keys e.1

theorem heads_cons (entry : β × List γ) :
    heads keys (entry :: table) = keys entry.1 :: heads keys table := rfl

theorem lookup_addTo (ks : List Key) :
    lookup keys ks (addTo keys place item table) =
      lookup keys ks table ++ if keys place = ks then [item] else [] := by
  induction table with
  | nil => by_cases h : keys place = ks <;> simp [lookup, addTo, h]
  | cons entry table ih =>
    obtain ⟨p, items⟩ := entry
    by_cases hp : keys p = keys place
    · rw [addTo, if_pos hp]
      by_cases h : keys place = ks <;> simp [lookup, hp, h]
    · rw [addTo, if_neg hp]
      by_cases h : keys p = ks
      · have hne : keys place ≠ ks := fun hks => hp (h.trans hks.symm)
        simp [lookup, h, hne]
      · simpa [lookup, h] using ih

theorem heads_addTo :
    heads keys (addTo keys place item table) =
      if keys place ∈ heads keys table then heads keys table
      else heads keys table ++ [keys place] := by
  induction table with
  | nil => rfl
  | cons entry table ih =>
    obtain ⟨p, items⟩ := entry
    by_cases hp : keys p = keys place
    · have hmem : keys place ∈ heads keys ((p, items) :: table) := by
        rw [heads_cons, hp]
        exact List.mem_cons_self
      rw [addTo, if_pos hp, if_pos hmem]
      rfl
    · have hmem : keys place ∈ heads keys ((p, items) :: table) ↔
          keys place ∈ heads keys table := by
        rw [heads_cons, List.mem_cons, or_iff_right fun h => hp h.symm]
      rw [addTo, if_neg hp, heads_cons, heads_cons, ih]
      simp only [← heads_cons (p, items), hmem]
      split_ifs <;> rfl

theorem perm_addTo :
    ((addTo keys place item table).flatMap (·.2)).Perm (table.flatMap (·.2) ++ [item]) := by
  induction table with
  | nil => exact List.Perm.refl _
  | cons entry table ih =>
    obtain ⟨p, items⟩ := entry
    by_cases hp : keys p = keys place
    · rw [addTo, if_pos hp, List.flatMap_cons, List.flatMap_cons, List.append_assoc,
        List.append_assoc]
      exact List.perm_append_comm.append_left items
    · rw [addTo, if_neg hp, List.flatMap_cons, List.flatMap_cons, List.append_assoc]
      exact ih.append_left items

theorem flatMap_lookup (h : (heads keys table).Nodup) :
    (heads keys table).flatMap (lookup keys · table) = table.flatMap (·.2) := by
  induction table with
  | nil => rfl
  | cons entry table ih =>
    obtain ⟨p, items⟩ := entry
    obtain ⟨hp, h⟩ := List.nodup_cons.1 h
    have hrest : (heads keys table).flatMap (lookup keys · ((p, items) :: table)) =
        (heads keys table).flatMap (lookup keys · table) := by
      refine List.flatMap_congr fun ks hks => ?_
      have hne : keys p ≠ ks := by
        rintro rfl
        exact hp hks
      simp [lookup, hne]
    change lookup keys (keys p) ((p, items) :: table) ++
      (heads keys table).flatMap (lookup keys · ((p, items) :: table)) = _
    rw [hrest, ih h]
    simp [lookup]

end Table

end Context

variable {α : Type}

def Error.keys? (e : Error α) : Option (List Key) := e.name.map Path.keys

namespace Errors

def byName (es : Errors α) : Errors α :=
  (es.filterMap Error.keys?).eraseDups.flatMap (fun ks => es.filter (·.keys? = some ks)) ++
    es.filter (·.name.isNone)

def worst (es : Errors α) : Status := es.foldl (fun s e => s.max e.status) .ok

end Errors

namespace Context

/-- All that was put into a context. -/
structure Log (α : Type) where
  values : List (Name × String)
  data : List Name
  errors : Errors α

/-- The context after all that was put into it, one thing after the other. -/
inductive Reached : Context α → Log α → Prop
  | empty : Reached .empty ⟨[], [], []⟩
  | error {c l} (e : Error α) : Reached c l →
    Reached (c.pushError e) { l with errors := l.errors ++ [e] }
  | errors {c l} (es : Errors α) : Reached c l →
    Reached (c.pushErrors es) { l with errors := l.errors ++ es }
  | value {c l} (n : Name) (v : String) : Reached c l →
    Reached (c.recordValue n v) { l with values := l.values ++ [(n, v)] }
  | data {c l} (n : Name) : Reached c l →
    Reached (c.recordData n) { l with data := l.data ++ [n] }

structure Holds (c : Context α) (l : Log α) : Prop where
  errors (ks : List Key) : lookup Path.keys ks c.errors = l.errors.filter (·.keys? = some ks)
  names : heads Path.keys c.errors = (l.errors.filterMap Error.keys?).eraseDups
  formErrors : c.formErrors = l.errors.filter (·.name.isNone)
  all : c.allErrors.Perm l.errors
  status : c.status = l.errors.worst
  values (ks : List Key) :
    lookup Name.keys ks c.values = (l.values.filter (·.1.keys = ks)).map (·.2)
  dataFields : c.dataFields.map Name.keys = (l.data.map Name.keys).eraseDups
  /-- The first spelling of a name stays. -/
  spelling : ∀ n ∈ c.dataFields, l.data.find? (·.keys = n.keys) = some n

variable {c : Context α} {l : Log α}

theorem holds_empty : (empty : Context α).Holds ⟨[], [], []⟩ where
  errors _ := rfl
  names := rfl
  formErrors := rfl
  all := List.Perm.refl _
  status := rfl
  values _ := rfl
  dataFields := rfl
  spelling _ h := (List.not_mem_nil h).elim

theorem Holds.pushError (h : c.Holds l) (e : Error α) :
    (c.pushError e).Holds { l with errors := l.errors ++ [e] } := by
  have hstatus : c.status.max e.status = Errors.worst (l.errors ++ [e]) := by
    rw [h.status, Errors.worst, Errors.worst, List.foldl_concat]
  cases hn : e.name with
  | none =>
    have hkeys : e.keys? = none := by rw [Error.keys?, hn]; rfl
    have hpush : c.pushError e =
        { c with status := c.status.max e.status, formErrors := c.formErrors ++ [e] } := by
      rw [Context.pushError, hn]
    rw [hpush]
    refine { h with
      errors := fun ks => ?_, names := ?_, formErrors := ?_, all := ?_, status := hstatus }
    · simpa [List.filter_append, hkeys] using h.errors ks
    · simpa [List.filterMap_append, hkeys] using h.names
    · simp [h.formErrors, List.filter_append, hn]
    · rw [Context.allErrors, ← List.append_assoc]
      exact h.all.append_right [e]
  | some p =>
    have hkeys : e.keys? = some p.keys := by rw [Error.keys?, hn]; rfl
    have hpush : c.pushError e = { c with
        status := c.status.max e.status, errors := addTo Path.keys p e c.errors } := by
      rw [Context.pushError, hn]
    rw [hpush]
    refine { h with
      errors := fun ks => ?_, names := ?_, formErrors := ?_, all := ?_, status := hstatus }
    · rw [lookup_addTo, h.errors, List.filter_append]
      by_cases hks : p.keys = ks <;> simp [hkeys, hks]
    · have hsnoc : (l.errors ++ [e]).filterMap Error.keys? =
          l.errors.filterMap Error.keys? ++ [p.keys] := by simp [hkeys]
      rw [heads_addTo, h.names, hsnoc, eraseDups_snoc]
      simp only [List.mem_eraseDups]
    · simp [h.formErrors, List.filter_append, hn]
    · have hold : (c.errors.flatMap (·.2) ++ c.formErrors ++ [e]).Perm (l.errors ++ [e]) :=
        h.all.append_right [e]
      refine (perm_addTo.append_right c.formErrors).trans (List.Perm.trans ?_ hold)
      rw [List.append_assoc, List.append_assoc]
      exact List.perm_append_comm.append_left _

theorem Holds.pushErrors (h : c.Holds l) (es : Errors α) :
    (c.pushErrors es).Holds { l with errors := l.errors ++ es } := by
  induction es generalizing c l with
  | nil => simpa [Context.pushErrors] using h
  | cons e es ih =>
    have hpush : c.pushErrors (e :: es) = (c.pushError e).pushErrors es := rfl
    rw [hpush, List.append_cons]
    exact ih (h.pushError e)

theorem Holds.recordValue (h : c.Holds l) (n : Name) (v : String) :
    (c.recordValue n v).Holds { l with values := l.values ++ [(n, v)] } := by
  refine { h with values := fun ks => ?_ }
  rw [Context.recordValue, lookup_addTo, h.values, List.filter_append, List.map_append]
  by_cases hks : n.keys = ks <;> simp [hks]

theorem Holds.recordData (h : c.Holds l) (n : Name) :
    (c.recordData n).Holds { l with data := l.data ++ [n] } := by
  have hany : (c.dataFields.any (·.keys = n.keys)) = true ↔ n.keys ∈ l.data.map Name.keys := by
    rw [← List.mem_eraseDups, ← h.dataFields, List.any_eq_true]
    simp
  have hkept (m : Name) (hm : m ∈ c.dataFields) :
      (l.data ++ [n]).find? (·.keys = m.keys) = some m := by
    rw [List.find?_append, h.spelling m hm]
    rfl
  have hsnoc (ns : List Name) : (ns ++ [n]).map Name.keys = ns.map Name.keys ++ [n.keys] :=
    List.map_append
  unfold Context.recordData
  split_ifs with hold
  · refine { h with dataFields := ?_, spelling := hkept }
    rw [h.dataFields, hsnoc, eraseDups_snoc, if_pos (hany.1 hold)]
  · have hnew := fun hmem => hold (hany.2 hmem)
    refine { h with dataFields := ?_, spelling := fun m hm => ?_ }
    · rw [hsnoc, hsnoc, eraseDups_snoc, if_neg hnew, h.dataFields]
    · rcases List.mem_append.1 hm with hm | hm
      · exact hkept m hm
      · obtain rfl := List.mem_singleton.1 hm
        have hnone : l.data.find? (·.keys = m.keys) = none := by
          refine List.find?_eq_none.2 fun k hk hkm => hnew ?_
          exact List.mem_map.2 ⟨k, hk, of_decide_eq_true hkm⟩
        simp [List.find?_append, hnone]

theorem Reached.holds (h : c.Reached l) : c.Holds l := by
  induction h with
  | empty => exact holds_empty
  | error e _ ih => exact ih.pushError e
  | errors es _ ih => exact ih.pushErrors es
  | value n v _ ih => exact ih.recordValue n v
  | data n _ ih => exact ih.recordData n

theorem Holds.allErrors (h : c.Holds l) : c.allErrors = l.errors.byName := by
  have hnodup : (heads Path.keys c.errors).Nodup := h.names ▸ nodup_eraseDups _
  rw [Context.allErrors, ← flatMap_lookup hnodup, h.names, h.formErrors, Errors.byName]
  simp only [h.errors]

end Context

end WebForm
