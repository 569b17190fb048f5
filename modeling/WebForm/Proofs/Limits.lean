import Mathlib
import WebForm.Proofs.Run.Basic
import WebForm.Proofs.Uploading

/-!
# Limits on what is read

A leaf for texts or octets reads its source once, for one octet more than its limit, and a read may
give fewer octets than there are. What it gives is then taken for all. So a limit is kept and
nothing is lost if and only if the first read decides: it gives all octets, or more than the limit.
-/
namespace WebForm

namespace Text

variable {b : UInt8} {bs cs all : Octets} {c : Char} {n : Nat} {s : List Char}

theorem utf8Head_append (h : utf8Head b bs = .char c n) (cs : Octets) :
    1 ≤ n ∧ n ≤ bs.length + 1 ∧ utf8Head b (bs ++ cs) = .char c n := by
  -- no character takes more than three octets after the first
  match bs with
  | [] | [_] | [_, _] | _ :: _ :: _ :: _ =>
    unfold utf8Head at h ⊢
    grind

theorem decodeFrom_append {pos : Nat} (h : decodeFrom all pos bs = .ok s) (all' cs : Octets) :
    decodeFrom all' pos (bs ++ cs) = (decodeFrom all' (pos + bs.length) cs).map (s ++ ·) := by
  fun_induction decodeFrom all pos bs generalizing s with
  | case1 pos =>
    obtain rfl := Except.ok.inj h
    cases hcs : decodeFrom all' pos cs <;> simp [hcs, Except.map]
  | case2 pos b r c n hhead t ht ih =>
    obtain rfl := Except.ok.inj h
    obtain ⟨hpos, hlength, happend⟩ := utf8Head_append hhead cs
    have hrest : pos + n + (r.drop (n - 1)).length = pos + (b :: r).length := by
      rw [List.length_drop, List.length_cons]
      omega
    have hdrop : (r ++ cs).drop (n - 1) = r.drop (n - 1) ++ cs :=
      List.drop_append_of_le_length (by omega)
    rw [List.cons_append, decodeFrom, happend]
    simp only [hdrop, ih ht, hrest]
    cases decodeFrom all' (pos + (b :: r).length) cs <;> rfl
  | case3 pos b r c n hhead p hp ih => cases h
  | case4 pos b r f n hhead => cases h

theorem decode_append_ne (h : decode bs = .ok s) (hcs : cs ≠ []) : decode (bs ++ cs) ≠ .ok s := by
  intro hall
  rw [decode, decodeFrom_append h] at hall
  cases ht : decodeFrom (bs ++ cs) (0 + bs.length) cs with
  | error p =>
    rw [ht] at hall
    cases hall
  | ok t =>
    rw [ht] at hall
    have hnil : t = [] := List.append_right_eq_self.1 (Except.ok.inj hall)
    obtain ⟨b, r, rfl⟩ := List.exists_cons_of_ne_nil hcs
    rw [hnil, decodeFrom] at ht
    split at ht
    · split at ht <;> cases ht
    · cases ht

end Text

namespace Source

variable {s : Source} {bs : Text.Octets} {limit : Option Int} {size : Int} {k : Nat}

theorem read_portion (s : Source) (h : 0 < size) :
    ∃ k : Nat, 1 ≤ k ∧ k ≤ size ∧ (s.read size).1 = s.rest.take k := by
  rw [read, if_neg (by omega), if_neg (by omega)]
  cases s.portions with
  | nil => exact ⟨size.toNat, by omega, by omega, rfl⟩
  | cons p ps => exact ⟨min size.toNat (max p 1), by omega, by omega, rfl⟩

theorem read_of_portion (hk : 1 ≤ k) (hsize : k ≤ size) :
    ((⟨bs, [k]⟩ : Source).read size).1 = bs.take k := by
  have hmin : min size.toNat (max k 1) = k := by omega
  rw [read, if_neg (by omega), if_neg (by omega)]
  simp only [hmin]

def firstRead (s : Source) (limit : Option Int) : Text.Octets :=
  (s.read (limit.elim (-1) (· + 1))).1

/-- The first read gives all octets, or more than the limit. -/
def Decides (s : Source) (limit : Option Int) : Prop :=
  s.firstRead limit = s.rest ∨ ∃ n ∈ limit, n < (s.firstRead limit).length

instance (s : Source) (limit : Option Int) : Decidable (s.Decides limit) :=
  decidable_of_iff
    (s.firstRead limit = s.rest ∨ limit.any fun n : Int => n < (s.firstRead limit).length) (by
      cases limit <;> simp [Decides])

theorem firstRead_prefix (s : Source) (limit : Option Int) : s.firstRead limit <+: s.rest :=
  ⟨_, s.read_append _⟩

theorem exists_part_of_not_decides (h : ¬s.Decides limit) :
    ∃ n ∈ limit, ∃ k : Nat, 1 ≤ k ∧ k ≤ n ∧ k < s.rest.length ∧
      s.firstRead limit = s.rest.take k := by
  obtain ⟨hall, hover⟩ := not_or.1 h
  cases limit with
  | none => exact absurd rfl hall
  | some n =>
    rcases lt_trichotomy (n + 1) 0 with hsize | hsize | hsize
    · refine absurd ?_ hall
      rw [firstRead, Option.elim_some, read, if_pos hsize]
    · -- the limit is -1: nothing is read, and that is more
      exact absurd ⟨n, rfl, by omega⟩ hover
    · obtain ⟨k, hk, -, hread⟩ := s.read_portion hsize
      have hread : s.firstRead (some n) = s.rest.take k := hread
      have hlength : k < s.rest.length := by
        by_contra hle
        exact hall (hread.trans (List.take_of_length_le (not_lt.1 hle)))
      refine ⟨n, rfl, k, hk, ?_, hlength, hread⟩
      by_contra hlt
      refine hover ⟨n, rfl, ?_⟩
      rw [hread, List.length_take]
      omega

/-- Every way to hand out the octets decides just where a single octet does. -/
theorem forall_decides_iff (bs : Text.Octets) (limit : Option Int) :
    (∀ s : Source, s.rest = bs → s.Decides limit) ↔ ∀ n ∈ limit, n < 1 ∨ bs.length ≤ 1 := by
  constructor
  · intro h n hn
    by_contra hmore
    obtain ⟨hlimit, hlength⟩ := not_or.1 hmore
    have hread : Source.firstRead ⟨bs, [1]⟩ limit = bs.take 1 := by
      rw [firstRead, Option.mem_def.1 hn, Option.elim_some]
      exact read_of_portion le_rfl (by omega)
    rcases h ⟨bs, [1]⟩ rfl with hall | ⟨m, hm, hover⟩
    · have hone := congrArg List.length (hread.symm.trans hall)
      rw [List.length_take] at hone
      dsimp only at hone
      omega
    · obtain rfl := Option.mem_unique hn hm
      rw [hread, List.length_take] at hover
      omega
  · rintro h s rfl
    by_contra hs
    obtain ⟨n, hn, k, hk, hle, hlength, -⟩ := exists_part_of_not_decides hs
    have := h n hn
    omega

theorem ofOctets_decides (bs : Text.Octets) (limit : Option Int) :
    (Source.ofOctets bs).Decides limit := by
  by_contra h
  obtain ⟨n, hn, k, hk, hle, hlength, hread⟩ := exists_part_of_not_decides h
  have htake : (Source.ofOctets bs).firstRead limit = bs.take (n + 1).toNat := by
    rw [firstRead, Option.mem_def.1 hn, Option.elim_some, read, if_neg (by omega),
      if_neg (by omega)]
    rfl
  have hparts := congrArg List.length (htake.symm.trans hread)
  simp only [List.length_take, ofOctets] at hparts hlength
  omega

end Source

/-- What a leaf for texts or octets is to make of all octets of a source: it rejects them if there
are more than its limit, and keeps all of them otherwise. -/
inductive Leaf.Accounts (bs : Text.Octets) : Leaf → Outcome Value → Prop
  | over {l : Leaf} {limit : Option Int} {n : Int} : l = .text limit ∨ l = .octets limit →
    n ∈ limit → n < bs.length →
    Accounts bs l (.error (.errors [⟨.invalidLength none (some (.int n)), .value, none, none⟩]))
  | octets {limit : Option Int} : (∀ n ∈ limit, bs.length ≤ n) →
    Accounts bs (.octets limit) (.ok (.octets bs))
  | text {limit : Option Int} {cs} : (∀ n ∈ limit, bs.length ≤ n) → Text.decode bs = .ok cs →
    Accounts bs (.text limit) (.ok (.text (String.ofList cs)))
  | unreadable {limit : Option Int} {p q} : (∀ n ∈ limit, bs.length ≤ n) →
    Text.decode bs = .error p →
    Accounts bs (.text limit) (.error (.errors (.ofKind (.unreadable .utf8 (.encoding q)))))

namespace DataField

open UploadRules (tooLong)

variable {f : DataField} {limit : Option Int} {n : Int} {bs : Text.Octets}

theorem readLimited_first (h : ∀ n ∈ limit, (f.data.firstRead limit).length ≤ n) :
    f.readLimited limit = .ok (f.data.firstRead limit) := by
  cases limit with
  | none => rfl
  | some n =>
    rw [readLimited]
    exact if_neg (not_lt.2 (h n rfl))

theorem readLimited_over (hn : n ∈ limit) (h : n < (f.data.firstRead limit).length) :
    f.readLimited limit = .error (.errors (tooLong n)) := by
  obtain rfl := hn
  rw [readLimited]
  exact if_pos h

theorem length_firstRead_le : (f.data.firstRead limit).length ≤ f.data.rest.length :=
  (f.data.firstRead_prefix limit).length_le

theorem readLimited_decided (h : f.data.Decides limit) :
    (∃ n ∈ limit, n < f.data.rest.length ∧ f.readLimited limit = .error (.errors (tooLong n))) ∨
    (∀ n ∈ limit, f.data.rest.length ≤ n) ∧ f.readLimited limit = .ok f.data.rest := by
  have hle := @length_firstRead_le f limit
  rcases h with hall | ⟨n, hn, hover⟩
  · by_cases hroom : ∀ n ∈ limit, f.data.rest.length ≤ n
    · right
      rw [← hall] at hroom ⊢
      exact ⟨hroom, readLimited_first hroom⟩
    · push Not at hroom
      obtain ⟨n, hn, hover⟩ := hroom
      exact .inl ⟨n, hn, hover, readLimited_over hn (hall ▸ hover)⟩
  · exact .inl ⟨n, hn, by omega, readLimited_over hn hover⟩

theorem readLimited_undecided (h : ¬f.data.Decides limit) :
    f.readLimited limit = .ok (f.data.firstRead limit) := by
  refine readLimited_first fun n hn => ?_
  by_contra hover
  exact h (.inr ⟨n, hn, not_le.1 hover⟩)

theorem ofData_refused {e : Failure} (h : f.readLimited limit = .error e) :
    (Leaf.octets limit).rules.ofData f = .error e ∧
      (Leaf.text limit).rules.ofData f = .error e := by
  constructor
  · change (f.readLimited limit).map _ = _
    rw [h]
    rfl
  · change (f.readLimited limit >>= _) = _
    rw [h, bind_error]

theorem ofData_octets (h : f.readLimited limit = .ok bs) :
    (Leaf.octets limit).rules.ofData f = .ok (.octets bs) := by
  change (f.readLimited limit).map _ = _
  rw [h]
  rfl

theorem ofData_text (h : f.readLimited limit = .ok bs) {cs : List Char}
    (hbs : Text.decode bs = .ok cs) :
    (Leaf.text limit).rules.ofData f = .ok (.text (String.ofList cs)) := by
  change (f.readLimited limit >>= _) = _
  rw [h, bind_ok]
  simp only [hbs]

theorem ofData_unreadable (h : f.readLimited limit = .ok bs) {p : Text.Utf8Problem}
    (hbs : Text.decode bs = .error p) : (Leaf.text limit).rules.ofData f =
      .error (.errors (.ofKind (.unreadable .utf8 (.encoding p)))) := by
  change (f.readLimited limit >>= _) = _
  rw [h, bind_ok]
  simp only [hbs]

theorem exists_lost (h : ¬f.data.Decides limit) :
    ∃ lost, f.data.firstRead limit ≠ [] ∧ lost ≠ [] ∧
      f.data.rest = f.data.firstRead limit ++ lost := by
  obtain ⟨-, -, k, hk, -, hlength, hread⟩ := Source.exists_part_of_not_decides h
  refine ⟨f.data.rest.drop k, ?_, ?_, ?_⟩
  · rw [hread, ne_eq, List.take_eq_nil_iff, not_or]
    exact ⟨by omega, List.ne_nil_of_length_pos (by omega)⟩
  · rw [ne_eq, List.drop_eq_nil_iff]
    omega
  · rw [hread, List.take_append_drop]

theorem accounts_of_decides_octets (h : f.data.Decides limit) :
    (Leaf.octets limit).Accounts f.data.rest ((Leaf.octets limit).rules.ofData f) := by
  rcases readLimited_decided h with ⟨n, hn, hover, hread⟩ | ⟨hroom, hread⟩
  · rw [(ofData_refused hread).1]
    exact .over (.inr rfl) hn hover
  · rw [ofData_octets hread]
    exact .octets hroom

theorem accounts_of_decides_text (h : f.data.Decides limit) :
    (Leaf.text limit).Accounts f.data.rest ((Leaf.text limit).rules.ofData f) := by
  rcases readLimited_decided h with ⟨n, hn, hover, hread⟩ | ⟨hroom, hread⟩
  · rw [(ofData_refused hread).2]
    exact .over (.inl rfl) hn hover
  · cases hbs : Text.decode f.data.rest with
    | ok cs =>
      rw [ofData_text hread hbs]
      exact .text hroom hbs
    | error p =>
      rw [ofData_unreadable hread hbs]
      exact .unreadable hroom hbs

theorem accounts_octets_iff :
    (Leaf.octets limit).Accounts f.data.rest ((Leaf.octets limit).rules.ofData f) ↔
      f.data.Decides limit := by
  refine ⟨fun h => ?_, accounts_of_decides_octets⟩
  by_contra hpart
  obtain ⟨lost, -, hlost, hrest⟩ := exists_lost hpart
  rw [ofData_octets (readLimited_undecided hpart)] at h
  generalize f.data.rest = rest at h hrest
  generalize f.data.firstRead limit = part at h hrest
  cases h with
  | octets _ => exact hlost (List.append_right_eq_self.1 hrest.symm)

theorem accounts_text_iff :
    (Leaf.text limit).Accounts f.data.rest ((Leaf.text limit).rules.ofData f) ↔
      f.data.Decides limit ∨ (∀ n ∈ limit, f.data.rest.length ≤ n) ∧
        (∃ p, Text.decode f.data.rest = .error p) ∧
        ∃ p, Text.decode (f.data.firstRead limit) = .error p := by
  by_cases hdecides : f.data.Decides limit
  · exact iff_of_true (accounts_of_decides_text hdecides) (.inl hdecides)
  obtain ⟨lost, -, hlost, hrest⟩ := exists_lost hdecides
  have hread := readLimited_undecided hdecides
  rw [or_iff_right hdecides]
  cases hpart : Text.decode (f.data.firstRead limit) with
  | ok cs =>
    rw [ofData_text hread hpart]
    have hall : Text.decode f.data.rest ≠ .ok cs := hrest ▸ Text.decode_append_ne hpart hlost
    generalize hv : Value.text (String.ofList cs) = v
    constructor
    · intro h
      cases h with
      | @text _ ds _ hds =>
        rw [String.ofList_injective (Value.text.inj hv)] at hall
        exact absurd hds hall
    · rintro ⟨-, -, p, hp⟩
      cases hp
  | error p =>
    rw [ofData_unreadable hread hpart]
    constructor
    · intro h
      cases h with
      | unreadable hroom hq => exact ⟨hroom, ⟨_, hq⟩, p, rfl⟩
    · rintro ⟨hroom, ⟨q, hq⟩, -⟩
      exact .unreadable hroom hq

/-- A leaf accounts for all octets of a source just where the first read decides. If it does not,
what it gave is kept for all, as octets or as the text that it happens to be, even if there are more
octets than the limit. Any octets can be handed out so, unless there is no limit, no room for a
single octet or no second octet. Octets in memory always come as they are asked for. -/
theorem accounted_iff_decides (f : DataField) (limit : Option Int) :
    ((Leaf.octets limit).Accounts f.data.rest ((Leaf.octets limit).rules.ofData f) ↔
      f.data.Decides limit) ∧
    ((Leaf.text limit).Accounts f.data.rest ((Leaf.text limit).rules.ofData f) ↔
      f.data.Decides limit ∨ (∀ n ∈ limit, f.data.rest.length ≤ n) ∧
        (∃ p, Text.decode f.data.rest = .error p) ∧
        ∃ p, Text.decode (f.data.firstRead limit) = .error p) ∧
    (¬f.data.Decides limit → ∃ part lost, part ≠ [] ∧ lost ≠ [] ∧ f.data.rest = part ++ lost ∧
      (Leaf.octets limit).rules.ofData f = .ok (.octets part) ∧
      ∀ cs, Text.decode part = .ok cs →
        (Leaf.text limit).rules.ofData f = .ok (.text (String.ofList cs))) ∧
    ((∀ s : Source, s.rest = f.data.rest → s.Decides limit) ↔
      ∀ n ∈ limit, n < 1 ∨ f.data.rest.length ≤ 1) ∧
    (Source.ofOctets f.data.rest).Decides limit := by
  refine ⟨accounts_octets_iff, accounts_text_iff, fun h => ?_,
    Source.forall_decides_iff f.data.rest limit, Source.ofOctets_decides f.data.rest limit⟩
  obtain ⟨lost, hpart, hlost, hrest⟩ := exists_lost h
  have hread := readLimited_undecided h
  exact ⟨_, lost, hpart, hlost, hrest, ofData_octets hread, fun _ => ofData_text hread⟩

def haltingField (text : String) : DataField :=
  ⟨.ofName (.ofString "note"), ⟨Text.encodeString text, [1]⟩, none, none⟩

/-- Of three octets the first is kept, whether there is room for all of them or not. -/
theorem halting_note_truncated :
    (Leaf.text (some 8192)).rules.ofData (haltingField "Rex") = .ok (.text "R") ∧
      (Leaf.octets (some 2)).rules.ofData (haltingField "Rex") = .ok (.octets [0x52]) ∧
      ¬(Leaf.text (some 8192)).Accounts (Text.encodeString "Rex")
        ((Leaf.text (some 8192)).rules.ofData (haltingField "Rex")) ∧
      ¬(Leaf.octets (some 2)).Accounts (Text.encodeString "Rex")
        ((Leaf.octets (some 2)).rules.ofData (haltingField "Rex")) := by
  have hshort : ¬(haltingField "Rex").data.Decides (some 8192) := by decide
  have hlong : ¬(haltingField "Rex").data.Decides (some 2) := by decide
  have hcs : Text.decode ((haltingField "Rex").data.firstRead (some 8192)) = .ok ['R'] := by cbv
  have hbs : (haltingField "Rex").data.firstRead (some 2) = [0x52] := by decide
  refine ⟨ofData_text (readLimited_undecided hshort) hcs, ?_, fun h => ?_,
    fun h => hlong (accounts_octets_iff.1 h)⟩
  · rw [ofData_octets (readLimited_undecided hlong), hbs]
  · obtain hdecides | ⟨-, -, p, hp⟩ := (accounts_text_iff (f := haltingField "Rex")).1 h
    · exact hshort hdecides
    · rw [hcs] at hp
      cases hp

end DataField

end WebForm
