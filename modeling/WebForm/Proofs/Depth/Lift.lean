import Mathlib
import WebForm.Proofs.Run.Form

/-!
# Parsers that follow each other

One parser follows another if it makes the same of the same fields, step by step, except that some
faults of the other need not be its own. Whether there may be such faults at all is a condition of
its own, so that a parser that follows itself without any has none of them.
-/
namespace WebForm

section Lifts

variable {ε α β γ δ : Type} {bad : ε → Prop} {slack : Prop} {rel : α → β → Prop}
  {rel' : γ → δ → Prop} {x : Except ε α} {y : Except ε β}

/-- The second result is the first one, unless that is a bad fault and there may be bad faults. -/
def Lifts (bad : ε → Prop) (slack : Prop) (rel : α → β → Prop) :
    Except ε α → Except ε β → Prop
  | .ok a, y => ∃ b, y = .ok b ∧ rel a b
  | .error e, y => bad e ∧ slack ∨ ¬bad e ∧ y = .error e

theorem lifts_ok {a : α} {b : β} (h : rel a b) :
    Lifts bad slack rel (.ok a) (.ok b) := ⟨b, rfl, h⟩

theorem lifts_bind (h : Lifts bad slack rel x y) {g : α → Except ε γ} {k : β → Except ε δ}
    (hg : ∀ a b, rel a b → Lifts bad slack rel' (g a) (k b)) :
    Lifts bad slack rel' (x >>= g) (y >>= k) := by
  cases x with
  | ok a =>
    obtain ⟨b, rfl, hab⟩ := h
    exact hg a b hab
  | error e =>
    rcases h with hs | ⟨hb, rfl⟩
    · exact .inl hs
    · exact .inr ⟨hb, rfl⟩

theorem lifts_map (h : Lifts bad slack rel x y) {g : α → γ} {k : β → δ}
    (hg : ∀ a b, rel a b → rel' (g a) (k b)) : Lifts bad slack rel' (x.map g) (y.map k) := by
  rw [map_eq_bind, map_eq_bind]
  exact lifts_bind h fun a b hab => lifts_ok (hg a b hab)

theorem lifts_refl (hx : ∀ e, x = .error e → ¬bad e) : Lifts bad slack Eq x x := by
  cases x with
  | ok a => exact lifts_ok rfl
  | error e => exact .inr ⟨hx e rfl, rfl⟩

theorem lifts_eq_ok {a : α} {z : Except ε α} (h : Lifts bad slack Eq (.ok a) z) : z = .ok a := by
  obtain ⟨b, hz, rfl⟩ := h
  exact hz

end Lifts

def Failure.IsBad (bad : Fault → Prop) : Failure → Prop
  | .fault f => bad f
  | .errors _ => False

section Outcome

variable {α β : Type} {bad : Fault → Prop} {slack : Prop} {rel : α → β → Prop}

theorem lifts_ofFault {x : Except Fault α} {y : Except Fault β} (h : Lifts bad slack rel x y) :
    Lifts (Failure.IsBad bad) slack rel (Outcome.ofFault x) (Outcome.ofFault y) := by
  cases x with
  | ok a =>
    obtain ⟨b, rfl, hab⟩ := h
    exact lifts_ok hab
  | error e =>
    rcases h with hs | ⟨hb, rfl⟩
    · exact .inl hs
    · exact .inr ⟨hb, rfl⟩

theorem lifts_caught {o o' : Outcome α} (h : Lifts (Failure.IsBad bad) slack Eq o o') :
    Lifts bad slack Eq (Outcome.caught o) (Outcome.caught o') := by
  rcases o with (es | f) | a
  · rcases h with ⟨hb, -⟩ | ⟨-, rfl⟩
    · exact hb.elim
    · exact lifts_ok rfl
  · rcases h with hs | ⟨hb, rfl⟩
    · exact .inl hs
    · exact .inr ⟨hb, rfl⟩
  · rw [lifts_eq_ok h]
    exact lifts_ok rfl

theorem lifts_cases {o o' : Outcome α} (h : Lifts (Failure.IsBad bad) slack Eq o o') :
    (∃ f, o = .error (.fault f) ∧ bad f ∧ slack) ∨
      (∀ f, o = .error (.fault f) → ¬bad f) ∧ o' = o := by
  rcases o with (es | f) | a
  · rcases h with ⟨hb, -⟩ | ⟨-, ho⟩
    · exact hb.elim
    · refine .inr ⟨fun f hf => ?_, ho⟩
      cases hf
  · rcases h with ⟨hb, hs⟩ | ⟨hb, ho⟩
    · exact .inl ⟨f, rfl, hb, hs⟩
    · refine .inr ⟨fun g hg => ?_, ho⟩
      obtain rfl := Outcome.fault_inj hg
      exact hb
  · refine .inr ⟨fun f hf => ?_, lifts_eq_ok h⟩
    cases hf

end Outcome

namespace Parser

variable {bad : Fault → Prop} {slack : Prop} {Q : Field → Prop} {p q : Parser} {mode : Mode}
  {fs : List Field}

/-- Related states stay related when they are fed one of the fields, and end alike. -/
structure Simulation (bad : Fault → Prop) (slack : Prop) (Q : Field → Prop) (p q : Parser)
    (rel : p.State → q.State → Prop) : Prop where
  init : ∀ mode, Lifts bad slack rel (p.init mode) (q.init mode)
  feed : ∀ {s t f s'}, rel s t → Q f → p.feed s f = .ok s' →
    ∃ t', q.feed t f = .ok t' ∧ rel s' t'
  finalize : ∀ {s t}, rel s t →
    Lifts (Failure.IsBad bad) slack Eq (p.finalize s) (q.finalize t)

/-- The second parser follows the first. -/
def Follows (bad : Fault → Prop) (slack : Prop) (Q : Field → Prop) (p q : Parser) : Prop :=
  ∃ rel, Simulation bad slack Q p q rel

namespace Simulation

variable {rel : p.State → q.State → Prop} {s s' : p.State} {t : q.State}

theorem feeds (h : Simulation bad slack Q p q rel) (hst : rel s t) (hQ : ∀ f ∈ fs, Q f)
    (hs : fs.foldlM p.feed s = .ok s') : ∃ t', fs.foldlM q.feed t = .ok t' ∧ rel s' t' := by
  induction fs generalizing s t with
  | nil =>
    obtain rfl := Except.ok.inj hs
    exact ⟨t, rfl, hst⟩
  | cons f fs ih =>
    rw [List.foldlM_cons] at hs
    obtain ⟨s₁, hs₁, hs⟩ := bind_eq_ok.1 hs
    obtain ⟨t₁, ht₁, h₁⟩ := h.feed hst (hQ f List.mem_cons_self) hs₁
    obtain ⟨t', ht', hst'⟩ := ih h₁ (fun g hg => hQ g (List.mem_cons_of_mem _ hg)) hs
    refine ⟨t', ?_, hst'⟩
    rw [List.foldlM_cons, ht₁, bind_ok, ht']

theorem reach (h : Simulation bad slack Q p q rel) (hQ : ∀ f ∈ fs, Q f)
    (hs : p.reach mode fs = .ok s) : ∃ t, q.reach mode fs = .ok t ∧ rel s t := by
  obtain ⟨s₀, hs₀, hs⟩ := bind_eq_ok.1 hs
  have hi := h.init mode
  rw [hs₀] at hi
  obtain ⟨t₀, ht₀, h₀⟩ := hi
  obtain ⟨t, ht, hst⟩ := h.feeds h₀ hQ hs
  exact ⟨t, bind_eq_ok.2 ⟨t₀, ht₀, ht⟩, hst⟩

end Simulation

theorem Follows.finalize (h : Follows bad slack Q p q) {s : p.State} (hQ : ∀ f ∈ fs, Q f)
    (hs : p.reach mode fs = .ok s) :
    Lifts (Failure.IsBad bad) slack Eq (p.finalize s) (q.run mode fs) := by
  obtain ⟨rel, hrel⟩ := h
  obtain ⟨t, ht, hst⟩ := hrel.reach hQ hs
  rw [run_of_reach ht]
  exact hrel.finalize hst

theorem Follows.run_nil (h : Follows bad slack Q p q) (mode : Mode) :
    Lifts (Failure.IsBad bad) slack Eq (p.run mode []) (q.run mode []) := by
  obtain ⟨rel, hrel⟩ := h
  rw [run_eq, run_eq, reach_nil, reach_nil]
  exact lifts_bind (lifts_ofFault (hrel.init mode)) fun s t hst => hrel.finalize hst

theorem Follows.absent (h : Follows bad slack Q p q) (mode : Mode) :
    Lifts bad slack Eq (p.absent mode) (q.absent mode) := by
  refine lifts_bind (lifts_caught (h.run_nil mode)) ?_
  rintro r _ rfl
  cases r <;> exact lifts_ok rfl

theorem follows_start (hi : ∀ mode, Lifts bad slack (fun _ _ => True) (p.init mode) (q.init mode))
    (hrun : ∀ mode, Lifts (Failure.IsBad bad) slack Eq (p.run mode []) (q.run mode [])) :
    Follows bad slack (fun _ => False) p q := by
  -- no field is ever fed, so only first states are related
  refine ⟨fun s t => ∃ mode, p.init mode = .ok s ∧ q.init mode = .ok t, fun mode => ?_, ?_, ?_⟩
  · have h := hi mode
    cases hp : p.init mode with
    | ok s =>
      rw [hp] at h
      obtain ⟨t, ht, -⟩ := h
      exact ⟨t, ht, mode, hp, ht⟩
    | error f =>
      rw [hp] at h
      exact h
  · exact fun _ hf => hf.elim
  · rintro s t ⟨mode, hs, ht⟩
    have h := hrun mode
    rwa [run_of_reach ((reach_nil p mode).trans hs), run_of_reach ((reach_nil q mode).trans ht)]
      at h

theorem Follows.of_feed {Q' : Field → Prop} (h : Follows bad slack Q' p q)
    (hQ : ∀ f s s', Q f → p.feed s f = .ok s' → Q' f) : Follows bad slack Q p q := by
  obtain ⟨rel, h⟩ := h
  exact ⟨rel, h.init, fun hst hf hs => h.feed hst (hQ _ _ _ hf hs) hs, h.finalize⟩

theorem follows_failing {f : Fault} (h : bad f ∧ slack ∨ ¬bad f ∧ ∀ mode, q.init mode = .error f) :
    Follows bad slack Q (failing f) q :=
  ⟨fun _ _ => False, ⟨fun mode => h.imp_right fun h => ⟨h.1, h.2 mode⟩, fun h => h.elim,
    fun h => h.elim⟩⟩

end Parser

end WebForm
