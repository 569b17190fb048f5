import Mathlib
import WebForm.Proofs.Run.Form

/-!
# Lists at once

A list takes its fields one at a time and finishes an item as soon as the next one begins. It ends as
if it had all the fields at once: they are cut into groups, and every group alone makes an item or
says why there is none.
-/
namespace WebForm

/-- These are the groups of the fields: neighbours that have the same current key are kept together,
and all others are cut apart. -/
structure Grouped (fs : List Field) (gs : List (List Field)) : Prop where
  whole : gs.flatten = fs
  filled : [] ∉ gs
  together : ∀ g ∈ gs, g.IsChain fun f f' => f.joins f' = true
  apart : gs.IsChain fun g g' => ∀ f ∈ g.getLast?, ∀ f' ∈ g'.head?, f.joins f' = false

variable {item : Parser} {mode : Mode} {f : Field} {fs : List Field} {gs : List (List Field)}
  {rs : List (Except FormErrors Value)}

/-- There is one way to cut fields into groups. -/
theorem grouped_iff : Grouped fs gs ↔ fs.splitBy Field.joins = gs := by
  rw [List.splitBy_eq_iff]
  have hboundary (hfilled : [] ∉ gs) :
      (gs.IsChain fun g g' => ∀ f ∈ g.getLast?, ∀ f' ∈ g'.head?, f.joins f' = false) ↔
        gs.IsChain fun g g' => ∃ hg hg', (g.getLast hg).joins (g'.head hg') = false := by
    refine List.IsChain.iff_of_mem_imp fun g g' hg hg' => ?_
    have hne : g ≠ [] := fun h => hfilled (h ▸ hg)
    have hne' : g' ≠ [] := fun h => hfilled (h ▸ hg')
    simp [List.getLast?_eq_some_getLast hne, List.head?_eq_some_head hne', hne, hne']
  constructor
  · rintro ⟨hwhole, hfilled, htogether, hapart⟩
    exact ⟨hwhole.symm, hfilled, htogether, (hboundary hfilled).1 hapart⟩
  · rintro ⟨hwhole, hfilled, htogether, hapart⟩
    exact ⟨hwhole.symm, hfilled, htogether, (hboundary hfilled).2 hapart⟩

theorem exists_yields (hitem : item.Concludes mode)
    (h : ∀ g ∈ gs, ∃ c, item.reach mode (g.map Field.shift) = .ok c) :
    ∃ rs, List.Forall₂ (fun g r => item.Yields mode (g.map Field.shift) r) gs rs := by
  refine exists_forall₂ fun g hg => ?_
  obtain ⟨c, hc⟩ := h g hg
  exact hitem.yields hc

/-- The fields of a list can be pushed if those of each group can be pushed to the item. -/
theorem reach_list_iff (hitem : item.Concludes mode) (hgs : Grouped fs gs) :
    (∃ s, (Parser.list item).reach mode fs = .ok s) ↔
      ∀ g ∈ gs, ∃ c, item.reach mode (g.map Field.shift) = .ok c := by
  obtain rfl := grouped_iff.1 hgs
  rcases List.eq_nil_or_concat fs with rfl | ⟨fs', e, rfl⟩
  · simp [Parser.reach_nil]
  rw [List.concat_eq_append]
  obtain ⟨gs, g, hs⟩ := exists_splitBy_eq (r := Field.joins) fs' e
  have hl : (fs' ++ [e]).getLast? = some e := by simp
  have hends :
      (∃ rs, gs.mapM (fun g => Outcome.caught (item.run mode (g.map Field.shift))) = .ok rs) ↔
        ∀ g ∈ gs, ∃ c, item.reach mode (g.map Field.shift) = .ok c := by
    simp only [mapM_eq_ok]
    constructor
    · rintro ⟨rs, hrs⟩ g hg
      obtain ⟨r, -, hr⟩ := forall₂_left hrs g hg
      obtain ⟨c, hc, -⟩ := Parser.yields_iff.1 hr
      exact ⟨c, hc⟩
    · exact exists_yields hitem
  rw [reach_list hs hl, hs]
  simp only [bind_eq_ok, List.forall_mem_append, List.forall_mem_singleton, ← hends]
  constructor
  · rintro ⟨s, rs, hrs, c, hc, -⟩
    exact ⟨⟨rs, hrs⟩, c, hc⟩
  · rintro ⟨⟨rs, hrs⟩, c, hc⟩
    exact ⟨_, rs, hrs, c, hc, rfl⟩

/-- A list ends as its groups do, each of which is parsed alone. -/
theorem finalize_list_verdict {s : ListState item.State}
    (hs : (Parser.list item).reach mode fs = .ok s) (hgs : Grouped fs gs)
    (hrs : List.Forall₂ (fun g r => item.Yields mode (g.map Field.shift) r) gs rs) :
    s.finalize = Outcome.ofErrors (verdict (errorsOf rs) (.list (valuesOf rs))) := by
  have hpieces : pieces fs = gs.map (List.map Field.shift) := by rw [pieces, grouped_iff.1 hgs]
  have hyields :
      (Parser.list item).Yields mode fs (verdict (errorsOf rs) (.list (valuesOf rs))) := by
    refine yields_list.2 ⟨rs, ?_, rfl⟩
    rw [hpieces]
    exact List.forall₂_map_left_iff.2 hrs
  exact Parser.finalize_of_yields hs hyields

theorem errorsOf_values (vs : List Value) : errorsOf (vs.map .ok) = [] := by
  induction vs with
  | nil => rfl
  | cons v vs ih => exact ih

theorem valuesOf_values (vs : List Value) : valuesOf (vs.map .ok) = vs := by
  induction vs with
  | nil => rfl
  | cons v vs ih => exact congrArg (v :: ·) ih

theorem push_unkept {s t : ListState item.State} (ht : t.current = none)
    (h : (t.push false f).result = .ok s) :
    s.current = none ∧ s.items = t.items ∧ s.errors = t.errors := by
  have hjoined : t.joined f.name.key? = none := by
    rw [ListState.joined, ht]
    exact ite_self none
  have hflush : t.flush = .done t := by rw [ListState.flush, ht]
  rw [ListState.push, hjoined] at h
  simp only [hflush, Step.result_andThen, Step.result_done, bind_ok] at h
  cases hi : item.init t.mode with
  | error e =>
    rw [hi] at h
    cases h
  | ok c =>
    rw [hi] at h
    obtain ⟨c', -, rfl⟩ := Step.result_map_eq_ok.1 h
    exact ⟨rfl, rfl, rfl⟩

/-- A list whose items are nothing to it between two fields comes to nothing. -/
theorem finalize_list_unkept {s : ListState item.State}
    (hs : (Parser.list item false).reach mode fs = .ok s) : s.finalize = .ok (.list []) := by
  have hlost : s.current = none ∧ s.items = [] ∧ s.errors = [] := by
    induction fs using List.reverseRecOn generalizing s with
    | nil =>
      obtain rfl := Except.ok.inj ((Parser.reach_nil _ _).symm.trans hs)
      exact ⟨rfl, rfl, rfl⟩
    | append_singleton fs f ih =>
      rw [Parser.reach_snoc, bind_eq_ok] at hs
      obtain ⟨t, ht, hf⟩ := hs
      obtain ⟨hcurrent, hitems, herrors⟩ := ih ht
      obtain ⟨hnone, hi, he⟩ := push_unkept hcurrent hf
      exact ⟨hnone, hi.trans hitems, he.trans herrors⟩
  obtain ⟨hcurrent, hitems, herrors⟩ := hlost
  have hflush : s.flush = .done s := by rw [ListState.flush, hcurrent]
  unfold ListState.finalize
  rw [hflush]
  simp [Step.done, hitems, herrors]

/-- If the item always comes to an end, a list makes of its fields what the item makes of the groups
that they can be cut into in one way. It has the errors of all groups in order if some group has any,
and else the values of the groups in order. A group that fails without an error is left out. -/
theorem finalize_list_grouped (hitem : item.Concludes mode) (fs : List Field) :
    (∃! gs, Grouped fs gs) ∧ ∀ gs, Grouped fs gs →
      ((∃ s, (Parser.list item).reach mode fs = .ok s) ↔
        ∀ g ∈ gs, ∃ c, item.reach mode (g.map Field.shift) = .ok c) ∧
      ∀ s, (Parser.list item).reach mode fs = .ok s →
        ∃ rs, List.Forall₂ (fun g r => item.Yields mode (g.map Field.shift) r) gs rs ∧
          s.finalize = Outcome.ofErrors (verdict (errorsOf rs) (.list (valuesOf rs))) ∧
          (∀ vs, rs = vs.map .ok → s.finalize = .ok (.list vs)) ∧
          ((∃ e es, .error (e :: es) ∈ rs) → s.finalize = .error (.errors (errorsOf rs))) ∧
          ((∀ es, .error es ∈ rs → es = []) → s.finalize = .ok (.list (valuesOf rs))) := by
  refine ⟨⟨_, grouped_iff.2 rfl, fun gs hgs => (grouped_iff.1 hgs).symm⟩, fun gs hgs => ?_⟩
  refine ⟨reach_list_iff hitem hgs, fun s hs => ?_⟩
  obtain ⟨rs, hrs⟩ := exists_yields hitem ((reach_list_iff hitem hgs).1 ⟨s, hs⟩)
  have hfinal := finalize_list_verdict hs hgs hrs
  refine ⟨rs, hrs, hfinal, ?_, ?_, ?_⟩
  · rintro vs rfl
    rw [hfinal, errorsOf_values, valuesOf_values]
    rfl
  · rintro ⟨e, es, he⟩
    have hne : errorsOf rs ≠ [] := by
      intro hnil
      rw [errorsOf_eq, List.flatMap_eq_nil_iff] at hnil
      cases hnil _ he
    rw [hfinal, verdict, if_neg (by simpa using hne)]
    rfl
  · intro hsilent
    have hnil : errorsOf rs = [] := by
      rw [errorsOf_eq, List.flatMap_eq_nil_iff]
      rintro (es | v) hr
      · exact hsilent es hr
      · rfl
    rw [hfinal, hnil]
    rfl

theorem leaf_concludes {rules : LeafRules} : (Parser.leaf rules).Concludes mode :=
  fun _ s _ => ⟨s.finalize rules, Outcome.caught_ofErrors⟩

theorem list_concludes (hitem : item.Concludes mode) : (Parser.list item).Concludes mode := by
  intro fs s hs
  have hgs := grouped_iff.2 (rfl : fs.splitBy Field.joins = _)
  obtain ⟨rs, hrs⟩ := exists_yields hitem ((reach_list_iff hitem hgs).1 ⟨s, hs⟩)
  have hfinal : (Parser.list item).finalize s = _ := finalize_list_verdict hs hgs hrs
  exact ⟨_, by rw [hfinal, Outcome.caught_ofErrors]⟩

def rowParser : Parser := .list (.leaf (Leaf.integer true none).rules)

def rowGroups : List (List Field) :=
  [[.value (.ofText "[0]" "5"), .value (.ofText "[0]" "3")], [.value (.ofText "" "4")],
    [.value (.ofText "[1]" "x"), .value (.ofText "[1].y" "6")], [.value (.ofText "[0]" "2")]]

def rowError : FormError :=
  ⟨.unreadable .int (.integer .digit), .value, some (.name (.ofString "[1]")), some "x"⟩

def rowResults : List (Except FormErrors Value) :=
  [.ok (.list [.int 5, .int 3]), .ok (.list [.int 4]), .error [rowError], .ok (.list [.int 2])]

/-- The third row keeps a list of rows from being one, though all others can be read. -/
theorem rows_grouped :
    rowParser.Concludes .lenient ∧ Grouped rowGroups.flatten rowGroups ∧
      ∃ s, (Parser.list rowParser).reach .lenient rowGroups.flatten = .ok s ∧
        s.finalize = .error (.errors [rowError]) := by
  have hrow : rowParser.Concludes .lenient := list_concludes leaf_concludes
  have hgs : Grouped rowGroups.flatten rowGroups := grouped_iff.2 (by rfl)
  obtain ⟨s, hs⟩ : ∃ s, (Parser.list rowParser).reach .lenient rowGroups.flatten = .ok s :=
    ⟨_, rfl⟩
  obtain ⟨-, hall⟩ := finalize_list_grouped hrow rowGroups.flatten
  obtain ⟨rs, hrs, -, -, herrors, -⟩ := (hall rowGroups hgs).2 s hs
  have hresults : List.Forall₂ (fun g r => rowParser.Yields .lenient (g.map Field.shift) r)
      rowGroups rowResults := .cons rfl (.cons rfl (.cons rfl (.cons rfl .nil)))
  have hunique : Relator.RightUnique fun (g : List Field) r =>
      rowParser.Yields .lenient (g.map Field.shift) r :=
    fun g r r' h h' => Except.ok.inj (h.symm.trans h')
  obtain rfl := List.right_unique_forall₂' hunique hrs hresults
  exact ⟨hrow, hgs, s, hs, herrors ⟨rowError, [], .tail _ (.tail _ (.head _))⟩⟩

def muteParser : Parser := .leaf ⟨fun _ => .error (.errors []), fun _ => .error (.errors []), none⟩

def textParser : Parser := .leaf (Leaf.text none).rules

def lostField : Field := .value (.ofText "[0]" "5")

/-- A group that fails without an error does not keep a list from being one, and a text is lost if
its state is nothing to the list. -/
theorem mute_row_lost :
    Grouped [lostField] [[lostField]] ∧
      (muteParser.Concludes .strict ∧ muteParser.Yields .strict [lostField.shift] (.error []) ∧
        (Parser.list muteParser).run .strict [lostField] = .ok (.list [])) ∧
      textParser.Concludes .strict ∧
        textParser.Yields .strict [lostField.shift] (.ok (.text "5")) ∧
        (Parser.list textParser false).run .strict [lostField] = .ok (.list []) := by
  refine ⟨grouped_iff.2 rfl, ⟨leaf_concludes, rfl, rfl⟩, leaf_concludes, rfl, rfl⟩

end WebForm
