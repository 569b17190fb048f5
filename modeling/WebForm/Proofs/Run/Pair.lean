import Mathlib
import WebForm.Proofs.Run.Basic

/-!
# Runs of pairs

The two sides of a pair run on their own fields, whatever the order between the sides.
-/
namespace WebForm

variable {left right : Parser} {mode : Mode} {fs : List Field} {f : Field} {v : Value}

def Field.isFor (k : Key) (f : Field) : Bool := f.name.key? = some k

def straySide (f : Field) : FormErrors :=
  if f.isFor "0" || f.isFor "1" then []
  else [⟨.invalidChoice ["0", "1"], .index 0, some (.ofView f.name), none⟩]

theorem init_pair {s : PairState left.State right.State} :
    (Parser.pair left right).init mode = .ok s ↔
      left.init mode = .ok s.left ∧ right.init mode = .ok s.right ∧ s.errors = [] := by
  simp only [bind_eq_ok, Except.ok.injEq]
  constructor
  · rintro ⟨l, hl, r, hr, rfl⟩
    exact ⟨hl, hr, rfl⟩
  · rintro ⟨hl, hr, he⟩
    exact ⟨s.left, hl, s.right, hr, by rw [← he]⟩

theorem feed_pair {s t : PairState left.State right.State} :
    (Parser.pair left right).feed s f = .ok t ↔
      (handed (Field.isFor "0") [f]).foldlM left.feed s.left = .ok t.left ∧
        (handed (Field.isFor "1") [f]).foldlM right.feed s.right = .ok t.right ∧
        t.errors = s.errors ++ straySide f := by
  rcases s with ⟨l, r, es⟩
  rcases t with ⟨l', r', es'⟩
  simp only [Parser.feed, PairState.push, straySide, handed_single, Field.isFor]
  by_cases h0 : f.name.key? = some "0"
  · simp [h0, Step.result_map_eq_ok, Parser.feed, pure_eq_ok]
    tauto
  by_cases h1 : f.name.key? = some "1"
  · simp [h1, Step.result_map_eq_ok, Parser.feed, pure_eq_ok]
    tauto
  · simp [h0, h1, pure_eq_ok]
    tauto

/-- After all the fields each side stands where its own fields take it. -/
theorem reach_pair {s : PairState left.State right.State} :
    (Parser.pair left right).reach mode fs = .ok s ↔
      left.reach mode (handed (Field.isFor "0") fs) = .ok s.left ∧
        right.reach mode (handed (Field.isFor "1") fs) = .ok s.right ∧
        s.errors = fs.flatMap straySide := by
  induction fs using List.reverseRecOn generalizing s with
  | nil => simpa only [handed_nil, Parser.reach_nil, List.flatMap_nil] using init_pair
  | append_singleton fs f ih =>
    rw [Parser.reach_snoc, handed_append, handed_append, Parser.reach_append, Parser.reach_append,
      List.flatMap_append, List.flatMap_singleton]
    constructor
    · intro h
      obtain ⟨t, ht, hf⟩ := bind_eq_ok.1 h
      obtain ⟨hl, hr, he⟩ := ih.1 ht
      obtain ⟨hl', hr', he'⟩ := feed_pair.1 hf
      exact ⟨bind_eq_ok.2 ⟨_, hl, hl'⟩, bind_eq_ok.2 ⟨_, hr, hr'⟩, by rw [he', he]⟩
    · rintro ⟨hl, hr, he⟩
      obtain ⟨l, hl, hl'⟩ := bind_eq_ok.1 hl
      obtain ⟨r, hr, hr'⟩ := bind_eq_ok.1 hr
      exact bind_eq_ok.2 ⟨⟨l, r, fs.flatMap straySide⟩, ih.2 ⟨hl, hr, rfl⟩,
        feed_pair.2 ⟨hl', hr', he⟩⟩

theorem straySide_nil {fs : List Field} :
    fs.flatMap straySide = [] ↔ ∀ f ∈ fs, f.isFor "0" = true ∨ f.isFor "1" = true := by
  simp only [List.flatMap_eq_nil_iff, straySide]
  refine forall₂_congr fun f _ => ?_
  cases f.isFor "0" <;> cases f.isFor "1" <;> simp

def joinSides (es : FormErrors) (l r : Except FormErrors Value) : Except FormErrors Value :=
  match es, l, r with
  | [], .ok a, .ok b => .ok (.tuple [a, b])
  | es, l, r => .error (es ++ failures l ++ failures r)

theorem failures_joinSides (es : FormErrors) (l r : Except FormErrors Value) :
    failures (joinSides es l r) = es ++ failures l ++ failures r := by
  rcases es with _ | ⟨e, es⟩ <;> cases l <;> cases r <;> simp [joinSides, failures]

theorem joinSides_eq_ok {es : FormErrors} {l r : Except FormErrors Value} :
    joinSides es l r = .ok v ↔ es = [] ∧ ∃ a b, l = .ok a ∧ r = .ok b ∧ v = .tuple [a, b] := by
  rcases es with _ | ⟨e, es⟩ <;> cases l <;> cases r <;> simp [joinSides, eq_comm]

theorem finalize_pair (s : PairState left.State right.State) :
    s.finalize = Outcome.ofFault (Outcome.caught (left.finalize s.left)) >>= fun l =>
      Outcome.ofFault (Outcome.caught (right.finalize s.right)) >>= fun r =>
        Outcome.ofErrors (joinSides s.errors l r) := by
  unfold PairState.finalize
  congr 1
  funext l
  congr 1
  funext r
  rcases s.errors with _ | ⟨e, es⟩ <;> cases l <;> cases r <;> rfl

/-- A pair ends as its sides do on their own fields. -/
theorem yields_pair {x : Except FormErrors Value} :
    (Parser.pair left right).Yields mode fs x ↔
      ∃ l r, left.Yields mode (handed (Field.isFor "0") fs) l ∧
        right.Yields mode (handed (Field.isFor "1") fs) r ∧
        x = joinSides (fs.flatMap straySide) l r := by
  simp only [Parser.yields_iff, finalize_pair, Outcome.caught_ofFault_bind,
    Outcome.caught_ofErrors, bind_eq_ok, Except.ok.injEq]
  constructor
  · rintro ⟨s, hs, l, hl, r, hr, rfl⟩
    obtain ⟨hls, hrs, he⟩ := reach_pair.1 hs
    exact ⟨l, r, ⟨_, hls, hl⟩, ⟨_, hrs, hr⟩, by rw [he]⟩
  · rintro ⟨l, r, ⟨a, hls, hl⟩, ⟨b, hrs, hr⟩, rfl⟩
    exact ⟨⟨a, b, _⟩, reach_pair.2 ⟨hls, hrs, rfl⟩, l, hl, r, hr, rfl⟩

/-- A pair has a value if every field is for a side and both sides have one. -/
theorem run_pair_eq_ok :
    (Parser.pair left right).run mode fs = .ok v ↔
      (∀ f ∈ fs, f.isFor "0" = true ∨ f.isFor "1" = true) ∧
        ∃ a b, left.run mode (handed (Field.isFor "0") fs) = .ok a ∧
          right.run mode (handed (Field.isFor "1") fs) = .ok b ∧ v = .tuple [a, b] := by
  simp only [← Parser.yields_value, yields_pair, ← straySide_nil]
  constructor
  · rintro ⟨l, r, hl, hr, h⟩
    obtain ⟨hn, a, b, rfl, rfl, rfl⟩ := joinSides_eq_ok.1 h.symm
    exact ⟨hn, a, b, hl, hr, rfl⟩
  · rintro ⟨hn, a, b, hl, hr, rfl⟩
    exact ⟨.ok a, .ok b, hl, hr, (joinSides_eq_ok.2 ⟨hn, a, b, rfl, rfl, rfl⟩).symm⟩

end WebForm
