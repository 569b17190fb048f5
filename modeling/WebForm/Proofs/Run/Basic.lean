import Mathlib
import WebForm.Parser.Form

/-!
# Runs

A run starts a parser, feeds it all the fields and asks for the value. The state that the parser
reaches is a fold of its pushes that the first fault ends, so a run succeeds exactly if every push
does and the reached state has a value.
-/
namespace WebForm

section Success

variable {ε ζ α β : Type}

theorem bind_eq_ok {x : Except ε α} {g : α → Except ε β} {b : β} :
    (x >>= g) = .ok b ↔ ∃ a, x = .ok a ∧ g a = .ok b := by
  cases x <;> simp [bind, Except.bind]

theorem pure_eq_ok {a b : α} : (pure a : Except ε α) = .ok b ↔ a = b := by
  simp [pure, Except.pure]

theorem bind_ok (a : α) (g : α → Except ε β) : (Except.ok a >>= g) = g a := rfl

theorem bind_error (e : ε) (g : α → Except ε β) :
    (Except.error e >>= g) = .error e := rfl

theorem map_eq_ok {x : Except ε α} {g : α → β} {b : β} :
    x.map g = .ok b ↔ ∃ a, x = .ok a ∧ g a = b := by
  cases x <;> simp [Except.map]

theorem map_eq_error {x : Except ε α} {g : α → β} {e : ε} : x.map g = .error e ↔ x = .error e := by
  cases x <;> simp [Except.map]

theorem bind_eq_error {x : Except ε α} {g : α → Except ε β} {e : ε} :
    (x >>= g) = .error e ↔ x = .error e ∨ ∃ a, x = .ok a ∧ g a = .error e := by
  cases x <;> simp [bind, Except.bind]

theorem map_eq_bind (x : Except ε α) (g : α → β) : x.map g = x >>= fun a => .ok (g a) := by
  cases x <;> rfl

theorem mapError_eq_ok {x : Except ε α} {g : ε → ζ} {a : α} :
    x.mapError g = .ok a ↔ x = .ok a := by
  cases x <;> simp [Except.mapError]

theorem forall₂_imp_on {R S : α → β → Prop} {as : List α} {bs : List β}
    (h : ∀ a ∈ as, ∀ b ∈ bs, R a b → S a b) (hR : List.Forall₂ R as bs) : List.Forall₂ S as bs := by
  induction hR with
  | nil => exact .nil
  | cons hab _ ih =>
    refine .cons (h _ List.mem_cons_self _ List.mem_cons_self hab) (ih ?_)
    exact fun a ha b hb => h a (List.mem_cons_of_mem _ ha) b (List.mem_cons_of_mem _ hb)

theorem forall₂_right {R : α → β → Prop} {as : List α} {bs : List β} (h : List.Forall₂ R as bs) :
    ∀ b ∈ bs, ∃ a ∈ as, R a b := by
  induction h with
  | nil => simp
  | cons hab _ ih =>
    intro b hb
    rcases List.mem_cons.1 hb with rfl | hb
    · exact ⟨_, List.mem_cons_self, hab⟩
    · obtain ⟨a, ha, hR⟩ := ih b hb
      exact ⟨a, List.mem_cons_of_mem _ ha, hR⟩

theorem forall₂_left {R : α → β → Prop} {as : List α} {bs : List β} (h : List.Forall₂ R as bs) :
    ∀ a ∈ as, ∃ b ∈ bs, R a b := forall₂_right h.flip

theorem exists_forall₂ {R : α → β → Prop} {as : List α} (h : ∀ a ∈ as, ∃ b, R a b) :
    ∃ bs, List.Forall₂ R as bs := by
  induction as with
  | nil => exact ⟨[], .nil⟩
  | cons a as ih =>
    obtain ⟨b, hb⟩ := h a List.mem_cons_self
    obtain ⟨bs, hbs⟩ := ih fun a ha => h a (List.mem_cons_of_mem _ ha)
    exact ⟨b :: bs, .cons hb hbs⟩

theorem forall₂_carry {γ δ : Type} {R : α → β → Prop} {S : α → γ → Prop} {S' : β → δ → Prop}
    {T : γ → δ → Prop} {as : List α} {bs : List β} {cs : List γ} (hR : List.Forall₂ R as bs)
    (hS : List.Forall₂ S as cs) (h : ∀ a b c, R a b → S a c → ∃ d, S' b d ∧ T c d) :
    ∃ ds, List.Forall₂ S' bs ds ∧ List.Forall₂ T cs ds := by
  induction hR generalizing cs with
  | nil =>
    cases hS
    exact ⟨[], .nil, .nil⟩
  | cons hab _ ih =>
    cases hS with
    | cons hac hS =>
      obtain ⟨d, hd, hcd⟩ := h _ _ _ hab hac
      obtain ⟨ds, hds, hcds⟩ := ih hS
      exact ⟨d :: ds, .cons hd hds, .cons hcd hcds⟩

theorem forall₂_congr_left {γ : Type} {R : α → β → Prop} {S : α → γ → Prop} {T : β → γ → Prop}
    {as : List α} {bs : List β} {cs : List γ} (hR : List.Forall₂ R as bs)
    (h : ∀ a b c, R a b → (S a c ↔ T b c)) : List.Forall₂ S as cs ↔ List.Forall₂ T bs cs := by
  induction hR generalizing cs with
  | nil => rw [List.forall₂_nil_left_iff, List.forall₂_nil_left_iff]
  | cons hab _ ih =>
    simp only [List.forall₂_cons_left_iff]
    exact exists_congr fun c => exists_congr fun cs =>
      and_congr (h _ _ c hab) (and_congr_left fun _ => ih)

theorem forall₂_comp_iff {γ : Type} {R : α → β → Prop} {S : β → γ → Prop} {as : List α}
    {cs : List γ} :
    List.Forall₂ (fun a c => ∃ b, R a b ∧ S b c) as cs ↔
      ∃ bs, List.Forall₂ R as bs ∧ List.Forall₂ S bs cs := by
  constructor
  · intro h
    induction h with
    | nil => exact ⟨[], .nil, .nil⟩
    | cons hac _ ih =>
      obtain ⟨b, hab, hbc⟩ := hac
      obtain ⟨bs, hR, hS⟩ := ih
      exact ⟨b :: bs, .cons hab hR, .cons hbc hS⟩
  · rintro ⟨bs, hR, hS⟩
    induction hR generalizing cs with
    | nil =>
      cases hS
      exact .nil
    | cons hab _ ih =>
      cases hS with
      | cons hbc hS => exact .cons ⟨_, hab, hbc⟩ (ih hS)

theorem forall₂_snoc_iff {R : α → β → Prop} {as : List α} {a : α} {cs : List β} :
    List.Forall₂ R (as ++ [a]) cs ↔ ∃ bs b, List.Forall₂ R as bs ∧ R a b ∧ bs ++ [b] = cs := by
  induction as generalizing cs with
  | nil =>
    simp only [List.nil_append, List.forall₂_cons_left_iff, List.forall₂_nil_left_iff]
    constructor
    · rintro ⟨b, bs, hb, rfl, rfl⟩
      exact ⟨[], b, rfl, hb, rfl⟩
    · rintro ⟨bs, b, rfl, hb, rfl⟩
      exact ⟨b, [], hb, rfl, rfl⟩
  | cons a' as ih =>
    simp only [List.cons_append, List.forall₂_cons_left_iff, ih]
    constructor
    · rintro ⟨c, _, hc, ⟨bs, b, hbs, hb, rfl⟩, rfl⟩
      exact ⟨c :: bs, b, ⟨c, bs, hc, hbs, rfl⟩, hb, rfl⟩
    · rintro ⟨_, b, ⟨c, bs, hc, hbs, rfl⟩, hb, rfl⟩
      exact ⟨c, bs ++ [b], hc, ⟨bs, b, hbs, hb, rfl⟩, rfl⟩

theorem mapM_eq_ok {g : α → Except ε β} {as : List α} {bs : List β} :
    as.mapM g = .ok bs ↔ List.Forall₂ (fun a b => g a = .ok b) as bs := by
  induction as generalizing bs with
  | nil => rw [List.mapM_nil, pure_eq_ok, List.forall₂_nil_left_iff, eq_comm]
  | cons a as ih =>
    simp only [List.mapM_cons, bind_eq_ok, pure_eq_ok, ih, List.forall₂_cons_left_iff]
    constructor
    · rintro ⟨b, hb, bs, hbs, rfl⟩
      exact ⟨b, bs, hb, hbs, rfl⟩
    · rintro ⟨b, bs, hb, hbs, rfl⟩
      exact ⟨b, hb, bs, hbs, rfl⟩

theorem mapM_eq_error {g : α → Except ε β} {as : List α} {e : ε} (h : as.mapM g = .error e) :
    ∃ a ∈ as, g a = .error e := by
  induction as with
  | nil => cases h
  | cons a as ih =>
    rw [List.mapM_cons] at h
    rcases bind_eq_error.1 h with h | ⟨b, -, h⟩
    · exact ⟨a, List.mem_cons_self, h⟩
    · rcases bind_eq_error.1 h with h | ⟨bs, -, h⟩
      · obtain ⟨a', ha', h⟩ := ih h
        exact ⟨a', List.mem_cons_of_mem _ ha', h⟩
      · cases h

theorem mapM_congr {g g' : α → Except ε β} {as : List α} (h : ∀ a ∈ as, g a = g' a) :
    as.mapM g = as.mapM g' := by
  induction as with
  | nil => rfl
  | cons a as ih =>
    obtain ⟨ha, has⟩ := List.forall_mem_cons.1 h
    rw [List.mapM_cons, List.mapM_cons, ha, ih has]

end Success

def failures : Except FormErrors Value → FormErrors
  | .ok _ => []
  | .error es => es

def verdict (es : FormErrors) (v : Value) : Except FormErrors Value :=
  if es.isEmpty then .ok v else .error es

theorem verdict_eq_ok {es : FormErrors} {v w : Value} : verdict es v = .ok w ↔ es = [] ∧ v = w := by
  cases es <;> simp [verdict]

theorem verdict_ne_nil (es : FormErrors) (v : Value) : verdict es v ≠ .error [] := by
  cases es <;> simp [verdict]

theorem failures_verdict (es : FormErrors) (v : Value) : failures (verdict es v) = es := by
  cases es <;> rfl

namespace Outcome

variable {α : Type}

@[simp] theorem ofFault_ok (a : α) : ofFault (.ok a) = .ok a := rfl

@[simp] theorem ofFault_error (f : Fault) : (ofFault (.error f) : Outcome α) = .error (.fault f) :=
  rfl

theorem ofFault_eq_ok {r : Except Fault α} {a : α} : ofFault r = .ok a ↔ r = .ok a :=
  mapError_eq_ok

theorem ofErrors_eq_ok {r : Except FormErrors α} {a : α} : ofErrors r = .ok a ↔ r = .ok a :=
  mapError_eq_ok

theorem ofErrors_eq_errors {r : Except FormErrors α} {es : FormErrors} :
    ofErrors r = .error (.errors es) ↔ r = .error es := by
  cases r <;> simp [ofErrors, Except.mapError]

theorem caught_eq_value {o : Outcome α} {a : α} : caught o = .ok (.ok a) ↔ o = .ok a := by
  rcases o with (es | f) | a <;> simp [caught]

theorem caught_eq_errors {o : Outcome α} {es : FormErrors} :
    caught o = .ok (.error es) ↔ o = .error (.errors es) := by
  rcases o with (es | f) | a <;> simp [caught]

theorem caught_eq_ok {o : Outcome α} {r : Except FormErrors α} :
    caught o = .ok r ↔ o = ofErrors r := by
  rcases o with (es | f) | a <;> cases r <;> simp [caught, ofErrors, Except.mapError]

theorem caught_eq_error {o : Outcome α} {f : Fault} :
    caught o = .error f ↔ o = .error (.fault f) := by
  rcases o with (es | g) | a <;> simp [caught]

theorem ofErrors_ne_fault {r : Except FormErrors α} {f : Fault} :
    ofErrors r ≠ .error (.fault f) := by
  cases r <;> simp [ofErrors, Except.mapError]

theorem caught_ofErrors {r : Except FormErrors α} : caught (ofErrors r) = .ok r := by
  cases r <;> rfl

theorem caught_ofFault_bind {β : Type} {x : Except Fault α} {g : α → Outcome β} :
    caught (ofFault x >>= g) = x >>= fun a => caught (g a) := by
  cases x <;> rfl

theorem fault_inj {f g : Fault} (h : (.error (.fault f) : Outcome α) = .error (.fault g)) : f = g :=
  Failure.fault.inj (Except.error.inj h)

end Outcome

namespace Step

variable {σ τ : Type}

def result (r : Step σ) : Except Fault σ :=
  match r.fault with
  | none => .ok r.state
  | some f => .error f

@[simp] theorem result_done (s : σ) : (done s).result = .ok s := rfl

@[simp] theorem result_failed (s : σ) (f : Fault) : (failed s f).result = .error f := rfl

theorem result_map (g : σ → τ) (r : Step σ) : (r.map g).result = r.result.map g := by
  rcases r with ⟨s, _ | f⟩ <;> rfl

theorem result_map_eq_ok {g : σ → τ} {r : Step σ} {t : τ} :
    (r.map g).result = .ok t ↔ ∃ s, r.result = .ok s ∧ g s = t := by
  rw [result_map, map_eq_ok]

theorem result_map_eq_error {g : σ → τ} {r : Step σ} {e : Fault} :
    (r.map g).result = .error e ↔ r.result = .error e := by
  rw [result_map, map_eq_error]

theorem result_andThen (r : Step σ) (next : σ → Step σ) :
    (r.andThen next).result = r.result >>= fun s => (next s).result := by
  rcases r with ⟨s, _ | f⟩ <;> rfl

end Step

namespace Parser

variable {p : Parser} {mode : Mode} {fs : List Field} {f : Field} {s : p.State}

def feed (p : Parser) (s : p.State) (f : Field) : Except Fault p.State := (p.push s f).result

/-- The state after all the fields, from the beginning. -/
def reach (p : Parser) (mode : Mode) (fs : List Field) : Except Fault p.State :=
  p.init mode >>= fun s => fs.foldlM p.feed s

theorem reach_nil (p : Parser) (mode : Mode) : p.reach mode [] = p.init mode := by
  unfold reach
  cases p.init mode <;> rfl

theorem reach_append (p : Parser) (mode : Mode) (fs gs : List Field) :
    p.reach mode (fs ++ gs) = p.reach mode fs >>= fun s => gs.foldlM p.feed s := by
  simp only [reach, List.foldlM_append, bind_assoc]

theorem reach_snoc (p : Parser) (mode : Mode) (fs : List Field) (f : Field) :
    p.reach mode (fs ++ [f]) = p.reach mode fs >>= fun s => p.feed s f := by
  simp only [reach_append, List.foldlM_cons, List.foldlM_nil, bind_pure]

theorem reach_single (p : Parser) (mode : Mode) (f : Field) :
    p.reach mode [f] = p.init mode >>= fun s => p.feed s f := by
  rw [← List.nil_append [f], reach_snoc, reach_nil]

theorem foldl_result (p : Parser) (r : Step p.State) (fs : List Field) :
    (fs.foldl (fun r f => r.andThen (p.push · f)) r).result =
      r.result >>= fun s => fs.foldlM p.feed s := by
  induction fs generalizing r with
  | nil => simp only [List.foldl_nil, List.foldlM_nil, bind_pure]
  | cons f fs ih =>
    simp only [List.foldl_cons, ih, Step.result_andThen, List.foldlM_cons, bind_assoc]
    rfl

theorem result_pushAll (p : Parser) (s : p.State) (fs : List Field) :
    (p.pushAll s fs).result = fs.foldlM p.feed s := by
  rw [pushAll, foldl_result]
  rfl

theorem run_eq (p : Parser) (mode : Mode) (fs : List Field) :
    p.run mode fs = Outcome.ofFault (p.reach mode fs) >>= p.finalize := by
  unfold run reach
  cases p.init mode with
  | error f => rfl
  | ok s =>
    rw [bind_ok, ← p.result_pushAll, Outcome.ofFault_ok, bind_ok]
    rcases p.pushAll s fs with ⟨t, _ | f⟩ <;> rfl

theorem run_eq_ok {v : Value} :
    p.run mode fs = .ok v ↔ ∃ s, p.reach mode fs = .ok s ∧ p.finalize s = .ok v := by
  simp only [run_eq, bind_eq_ok, Outcome.ofFault_eq_ok]

theorem run_eq_errors {es : FormErrors} :
    p.run mode fs = .error (.errors es) ↔
      ∃ s, p.reach mode fs = .ok s ∧ p.finalize s = .error (.errors es) := by
  rw [run_eq]
  cases p.reach mode fs with
  | error f => simp [bind_error]
  | ok s => simp [bind_ok]

theorem run_of_reach (h : p.reach mode fs = .ok s) : p.run mode fs = p.finalize s := by
  rw [run_eq, h, Outcome.ofFault_ok, bind_ok]

theorem caught_run (p : Parser) (mode : Mode) (fs : List Field) :
    Outcome.caught (p.run mode fs) = p.reach mode fs >>= fun s => Outcome.caught (p.finalize s) := by
  rw [run_eq]
  cases p.reach mode fs <;> rfl

/-- The run ends in a value or in errors. -/
def Yields (p : Parser) (mode : Mode) (fs : List Field) (r : Except FormErrors Value) : Prop :=
  Outcome.caught (p.run mode fs) = .ok r

variable {r : Except FormErrors Value}

theorem yields_iff :
    p.Yields mode fs r ↔ ∃ s, p.reach mode fs = .ok s ∧ Outcome.caught (p.finalize s) = .ok r := by
  rw [Yields, caught_run, bind_eq_ok]

theorem yields_value {v : Value} : p.Yields mode fs (.ok v) ↔ p.run mode fs = .ok v :=
  Outcome.caught_eq_value

theorem yields_errors {es : FormErrors} :
    p.Yields mode fs (.error es) ↔ p.run mode fs = .error (.errors es) := Outcome.caught_eq_errors

theorem yields_of_reach (h : p.reach mode fs = .ok s) :
    p.Yields mode fs r ↔ Outcome.caught (p.finalize s) = .ok r := by
  rw [Yields, run_of_reach h]

theorem finalize_of_yields (hs : p.reach mode fs = .ok s) (h : p.Yields mode fs r) :
    p.finalize s = Outcome.ofErrors r := Outcome.caught_eq_ok.1 ((yields_of_reach hs).1 h)

/-- A run that fails says why. -/
def Explains (p : Parser) : Prop := ∀ mode fs, p.run mode fs ≠ .error (.errors [])

/-- Whatever was pushed, the parser ends in a value or in errors. -/
def Concludes (p : Parser) (mode : Mode) : Prop :=
  ∀ fs s, p.reach mode fs = .ok s → ∃ r, Outcome.caught (p.finalize s) = .ok r

theorem Concludes.yields (h : p.Concludes mode) (hs : p.reach mode fs = .ok s) :
    ∃ r, p.Yields mode fs r := by
  obtain ⟨r, hr⟩ := h fs s hs
  exact ⟨r, (yields_of_reach hs).2 hr⟩

end Parser

def handed (q : Field → Bool) (fs : List Field) : List Field := (fs.filter q).map Field.shift

theorem handed_nil (q : Field → Bool) : handed q [] = [] := rfl

theorem mem_handed {q : Field → Bool} {fs : List Field} {g : Field} :
    g ∈ handed q fs ↔ ∃ f ∈ fs, q f = true ∧ f.shift = g := by
  simp [handed, and_assoc]

theorem handed_append (q : Field → Bool) (fs gs : List Field) :
    handed q (fs ++ gs) = handed q fs ++ handed q gs := by
  simp only [handed, List.filter_append, List.map_append]

theorem handed_single (q : Field → Bool) (f : Field) :
    handed q [f] = if q f then [f.shift] else [] := by
  cases h : q f <;> simp [handed, h]

end WebForm
