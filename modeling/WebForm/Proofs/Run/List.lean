import Mathlib
import WebForm.Proofs.Run.Basic

/-!
# Runs of lists

A list cuts its fields where neighbours have no key or different keys, and runs its item on each
piece. Since the pieces are finished one after the other, even the first fault is that of the first
piece that has one.
-/
namespace WebForm

/-- The second field belongs to the item of the first. -/
def Field.joins (f g : Field) : Bool := g.name.key?.isSome && f.name.key? == g.name.key?

def pieces (fs : List Field) : List (List Field) :=
  (fs.splitBy Field.joins).map (List.map Field.shift)

def valuesOf (rs : List (Except FormErrors Value)) : List Value := rs.filterMap (·.toOption)

def errorsOf (rs : List (Except FormErrors Value)) : FormErrors :=
  rs.flatMap fun
    | .ok _ => []
    | .error es => es

theorem errorsOf_eq (rs : List (Except FormErrors Value)) : errorsOf rs = rs.flatMap failures := by
  unfold errorsOf
  congr 1

def assemble (rs : List (Except FormErrors Value)) : Outcome Value :=
  if (errorsOf rs).isEmpty then .ok (.list (valuesOf rs)) else .error (.errors (errorsOf rs))

theorem splitBy_snoc {α : Type} {r : α → α → Bool} {l g : List α} {gs : List (List α)} {a : α}
    (h : l.splitBy r = gs ++ [g]) (hr : ∀ x ∈ l.getLast?, r x a = true) :
    (l ++ [a]).splitBy r = gs ++ [g ++ [a]] := by
  obtain ⟨hl, hn, hc, hd⟩ := List.splitBy_eq_iff.1 h
  have hg : g ≠ [] := fun e => hn (by simp [e])
  obtain ⟨hd₁, -, hd₂⟩ := List.isChain_append.1 hd
  refine List.splitBy_eq_iff.2 ⟨by simp [hl], ?_, ?_, ?_⟩
  · intro hm
    rcases List.mem_append.1 hm with hm | hm
    · exact hn (List.mem_append_left _ hm)
    · simp at hm
  · intro m hm
    rcases List.mem_append.1 hm with hm | hm
    · exact hc m (List.mem_append_left _ hm)
    · obtain rfl : m = g ++ [a] := by simpa using hm
      refine List.isChain_append.2 ⟨hc g (by simp), List.isChain_singleton a, ?_⟩
      intro x hx y hy
      obtain rfl : a = y := by simpa using hy
      refine hr x ?_
      rw [hl, List.flatten_append, List.flatten_singleton, List.getLast?_append_of_ne_nil _ hg]
      exact hx
  · refine List.isChain_append.2 ⟨hd₁, List.isChain_singleton _, ?_⟩
    intro x hx y hy
    obtain rfl : g ++ [a] = y := by simpa using hy
    obtain ⟨hx', hg', hxg⟩ := hd₂ x hx g (by simp)
    exact ⟨hx', by simp, by simpa [List.head_append_of_ne_nil hg'] using hxg⟩

theorem exists_splitBy_eq {α : Type} {r : α → α → Bool} (l : List α) (a : α) :
    ∃ gs g, (l ++ [a]).splitBy r = gs ++ [g] := by
  rcases List.eq_nil_or_concat ((l ++ [a]).splitBy r) with h | ⟨gs, g, h⟩
  · simp at h
  · exact ⟨gs, g, h.trans List.concat_eq_append⟩

variable {item : Parser} {mode : Mode} {fs : List Field} {f : Field} {v : Value}

namespace ListState

variable {s : ListState item.State} {c : item.State} {key : Option Key} {vs : List Value}
  {es : FormErrors}

theorem result_flush :
    (ListState.flush ⟨mode, key, some c, vs, es⟩).result =
      Outcome.caught (item.finalize c) >>= fun r =>
        .ok ⟨mode, key, none, vs ++ valuesOf [r], es ++ errorsOf [r]⟩ := by
  simp only [flush]
  rcases item.finalize c with (es | e) | v <;>
    simp [Outcome.caught, valuesOf, errorsOf, Except.toOption, bind, Except.bind]

theorem feed_joined (hk : f.name.key?.isSome = true) (hl : key = f.name.key?) :
    (Parser.list item).feed ⟨mode, key, some c, vs, es⟩ f =
      item.feed c f.shift >>= fun c => .ok ⟨mode, f.name.key?, some c, vs, es⟩ := by
  simp [Parser.feed, push, joined, pushInto, hk, hl, Step.result_map, map_eq_bind]

theorem feed_started (h : s.joined f.name.key? = none) :
    (Parser.list item).feed s f =
      s.flush.result >>= fun t => item.init t.mode >>= fun c => item.feed c f.shift >>= fun c =>
        .ok { t with lastKey := f.name.key?, current := some c } := by
  simp only [Parser.feed, push, h, Step.result_andThen]
  congr 1
  funext t
  cases item.init t.mode with
  | error e => rfl
  | ok c => exact (Step.result_map _ _).trans (map_eq_bind _ _)

end ListState

theorem valuesOf_append (rs ss : List (Except FormErrors Value)) :
    valuesOf (rs ++ ss) = valuesOf rs ++ valuesOf ss := List.filterMap_append

theorem errorsOf_append (rs ss : List (Except FormErrors Value)) :
    errorsOf (rs ++ ss) = errorsOf rs ++ errorsOf ss := List.flatMap_append

/-- After all the fields the list has finished all pieces but the last one. -/
theorem reach_list {gs : List (List Field)} {g : List Field} {last : Field}
    (hs : fs.splitBy Field.joins = gs ++ [g]) (hl : fs.getLast? = some last) :
    (Parser.list item).reach mode fs =
      (gs.mapM fun g => Outcome.caught (item.run mode (g.map Field.shift))) >>= fun rs =>
        item.reach mode (g.map Field.shift) >>= fun c =>
          .ok ⟨mode, last.name.key?, some c, valuesOf rs, errorsOf rs⟩ := by
  induction fs using List.reverseRecOn generalizing gs g last with
  | nil => simp at hl
  | append_singleton fs f ih =>
    obtain rfl : f = last := by simpa using hl
    rw [Parser.reach_snoc]
    rcases List.eq_nil_or_concat fs with rfl | ⟨fs', e, rfl⟩
    · have hsingle : [f].splitBy Field.joins = [[f]] := by simp [List.splitBy, List.splitBy.loop]
      rw [List.nil_append, hsingle] at hs
      obtain ⟨rfl, hg⟩ := List.append_inj' (show [] ++ [[f]] = gs ++ [g] from hs) rfl
      obtain rfl : [f] = g := by simpa using hg
      have hj : (ListState.init mode : ListState item.State).joined f.name.key? = none := by
        simp [ListState.joined, ListState.init]
      rw [Parser.reach_nil, bind_ok, ListState.feed_started hj, List.map_singleton,
        Parser.reach_single]
      change (item.init mode >>= _) = (item.init mode >>= fun c => item.feed c f.shift) >>= _
      rw [bind_assoc]
      rfl
    · rw [List.concat_eq_append] at ih hs ⊢
      obtain ⟨gs', g', hs'⟩ := exists_splitBy_eq (r := Field.joins) fs' e
      rw [ih hs' (show (fs' ++ [e]).getLast? = some e by simp)]
      cases hj : e.joins f with
      | true =>
        rw [splitBy_snoc hs' (by simpa using hj)] at hs
        obtain ⟨rfl, hg⟩ := List.append_inj' hs rfl
        obtain rfl : g' ++ [f] = g := by simpa using hg
        obtain ⟨hk, hl⟩ : f.name.key?.isSome = true ∧ e.name.key? = f.name.key? := by
          simpa [Field.joins] using hj
        simp only [List.map_append, List.map_cons, List.map_nil, Parser.reach_snoc, bind_assoc,
          bind_ok, ListState.feed_joined hk hl]
      | false =>
        rw [List.splitBy_append (by simpa using hj), hs',
          show [f].splitBy Field.joins = [[f]] by simp [List.splitBy, List.splitBy.loop]] at hs
        obtain ⟨rfl, hg⟩ := List.append_inj' hs rfl
        obtain rfl : [f] = g := by simpa using hg
        have hn (rs : List (Except FormErrors Value)) (c : item.State) : ListState.joined
            ⟨mode, e.name.key?, some c, valuesOf rs, errorsOf rs⟩ f.name.key? = none := by
          simpa [ListState.joined, Field.joins] using hj
        simp only [List.mapM_append, List.mapM_cons, List.mapM_nil, bind_assoc, bind_ok,
          ListState.feed_started (hn _ _), ListState.result_flush, Parser.caught_run,
          List.map_singleton, Parser.reach_single, pure_bind, valuesOf_append, errorsOf_append]

theorem finalize_list (s : ListState item.State) :
    s.finalize = Outcome.ofFault s.flush.result >>= fun t =>
      if t.errors.isEmpty then .ok (.list t.items) else .error (.errors t.errors) := by
  unfold ListState.finalize
  rcases s.flush with ⟨t, _ | f⟩ <;> rfl

/-- The run of a list is made of the runs of its item on the pieces. -/
theorem run_list :
    (Parser.list item).run mode fs =
      Outcome.ofFault ((pieces fs).mapM fun g => Outcome.caught (item.run mode g)) >>= assemble := by
  have hp : ((pieces fs).mapM fun g => Outcome.caught (item.run mode g)) =
      (fs.splitBy Field.joins).mapM fun g =>
        Outcome.caught (item.run mode (g.map Field.shift)) := List.mapM_map ..
  rw [Parser.run_eq, hp]
  rcases List.eq_nil_or_concat fs with rfl | ⟨fs', e, rfl⟩
  · rfl
  rw [List.concat_eq_append]
  obtain ⟨gs, g, hs⟩ := exists_splitBy_eq (r := Field.joins) fs' e
  have hl : (fs' ++ [e]).getLast? = some e := by simp
  rw [reach_list hs hl, hs, List.mapM_append, List.mapM_cons, List.mapM_nil]
  cases gs.mapM fun g => Outcome.caught (item.run mode (g.map Field.shift)) with
  | error e => rfl
  | ok rs =>
    rw [Parser.caught_run]
    cases item.reach mode (g.map Field.shift) with
    | error e => rfl
    | ok c =>
      simp only [bind_ok, Outcome.ofFault_ok, finalize_list, ListState.result_flush]
      cases Outcome.caught (item.finalize c) with
      | error e => rfl
      | ok r =>
        change _ = assemble (rs ++ [r])
        rw [bind_ok, Outcome.ofFault_ok, bind_ok, assemble, valuesOf_append, errorsOf_append]

/-- A list ends as its item does on every piece. -/
theorem yields_list {x : Except FormErrors Value} :
    (Parser.list item).Yields mode fs x ↔
      ∃ rs, List.Forall₂ (item.Yields mode) (pieces fs) rs ∧
        x = verdict (errorsOf rs) (.list (valuesOf rs)) := by
  have hassemble (rs : List (Except FormErrors Value)) :
      assemble rs = Outcome.ofErrors (verdict (errorsOf rs) (.list (valuesOf rs))) := by
    unfold assemble verdict
    split_ifs <;> rfl
  rw [Parser.Yields, run_list, Outcome.caught_ofFault_bind, bind_eq_ok]
  simp only [mapM_eq_ok, hassemble, Outcome.caught_ofErrors, Except.ok.injEq]
  exact exists_congr fun rs => and_congr_right fun _ => eq_comm

theorem assemble_eq_ok {rs : List (Except FormErrors Value)} :
    assemble rs = .ok v ↔ errorsOf rs = [] ∧ .list (valuesOf rs) = v := by
  unfold assemble
  cases errorsOf rs <;> simp

theorem caught_items_eq_ok (h : item.Explains) {gs : List (List Field)} {vs : List Value} :
    (∃ rs, gs.mapM (fun g => Outcome.caught (item.run mode g)) = .ok rs ∧
        errorsOf rs = [] ∧ valuesOf rs = vs) ↔
      List.Forall₂ (fun g w => item.run mode g = .ok w) gs vs := by
  induction gs generalizing vs with
  | nil =>
    simp only [List.mapM_nil, pure_eq_ok, List.forall₂_nil_left_iff]
    constructor
    · rintro ⟨rs, rfl, -, rfl⟩
      rfl
    · rintro rfl
      exact ⟨[], rfl, rfl, rfl⟩
  | cons g gs ih =>
    simp only [List.mapM_cons, bind_eq_ok, pure_eq_ok, List.forall₂_cons_left_iff, ← ih]
    constructor
    · rintro ⟨rs, ⟨r, hr, ss, hs, rfl⟩, he, rfl⟩
      rcases r with es | w
      · have hn : es = [] := by
          have := List.append_eq_nil_iff.1 ((errorsOf_append [_] ss).symm.trans he)
          simpa [errorsOf] using this.1
        subst hn
        exact absurd (Outcome.caught_eq_errors.1 hr) (h mode g)
      · exact ⟨w, valuesOf ss, Outcome.caught_eq_value.1 hr, ⟨ss, hs, he, rfl⟩, rfl⟩
    · rintro ⟨w, ws, hw, ⟨ss, hs, he, rfl⟩, rfl⟩
      exact ⟨.ok w :: ss, ⟨.ok w, Outcome.caught_eq_value.2 hw, ss, hs, rfl⟩, he, rfl⟩

/-- A list has a value if its item has one on every piece. -/
theorem run_list_eq_ok (h : item.Explains) :
    (Parser.list item).run mode fs = .ok v ↔
      ∃ vs, List.Forall₂ (fun g w => item.run mode g = .ok w) (pieces fs) vs ∧ .list vs = v := by
  rw [run_list, bind_eq_ok]
  simp only [Outcome.ofFault_eq_ok, assemble_eq_ok, ← caught_items_eq_ok h]
  constructor
  · rintro ⟨rs, hrs, he, rfl⟩
    exact ⟨_, ⟨rs, hrs, he, rfl⟩, rfl⟩
  · rintro ⟨vs, ⟨rs, hrs, he, rfl⟩, rfl⟩
    exact ⟨rs, hrs, he, rfl⟩

end WebForm
