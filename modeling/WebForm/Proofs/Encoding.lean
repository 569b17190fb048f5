import Mathlib
import WebForm.Parser.Session
import WebForm.Proofs.Names
import WebForm.Proofs.Splitting
import WebForm.Proofs.Utf8
import WebForm.Query

/-!
# Form encoding is undone

Encoded text is ASCII without the marks that fields and their parts are cut at. So cutting before
decoding finds the names and values that were encoded, and decoding gives each of them back. A
parser gets the fields that it would get if they were never encoded.
-/
namespace WebForm

namespace Text

section Escape

variable {n : Nat} {b : UInt8} {c : Char}

/-- A character that encoded text can have without being cut or taken for a blank. -/
def isPlain (c : Char) : Bool := isAscii c && c != '+' && c != '&' && c != '='

def unplus (c : Char) : Char := if c = '+' then ' ' else c

theorem unplus_plain (h : isPlain c = true) : unplus c = c := by
  refine if_neg ?_
  rintro rfl
  cases h

theorem hexValue?_digit (h : n < 16) : hexValue? (Nat.digitChar n).toUpper = some n := by
  interval_cases n <;> rfl

theorem isPlain_digit (h : n < 16) : isPlain (Nat.digitChar n).toUpper = true := by
  interval_cases n <;> rfl

theorem isPlain_of_mem_escape (h : c ∈ percentEscape b) : isPlain c = true := by
  have hb : b.toNat < 256 := b.toNat_lt
  simp only [percentEscape, List.mem_cons, List.not_mem_nil, or_false] at h
  rcases h with rfl | rfl | rfl
  · rfl
  · exact isPlain_digit (by omega)
  · exact isPlain_digit (by omega)

theorem percentOctets_escape (b : UInt8) (r : List Char) :
    percentOctets (percentEscape b ++ r) = b :: percentOctets r := by
  have hb : b.toNat < 256 := b.toNat_lt
  have hhigh : b.toNat / 16 < 16 := by omega
  have hlow : b.toNat % 16 < 16 := by omega
  have hsum : 16 * (b.toNat / 16) + b.toNat % 16 = b.toNat := Nat.div_add_mod _ _
  simp only [percentEscape, List.cons_append, List.nil_append, percentOctets, hexValue?_digit hhigh,
    hexValue?_digit hlow, hsum]
  simp

theorem percentOctets_escapes (bs : Octets) (r : List Char) :
    percentOctets (bs.flatMap percentEscape ++ r) = bs ++ percentOctets r := by
  induction bs with
  | nil => rfl
  | cons b bs ih =>
    rw [List.flatMap_cons, List.append_assoc, percentOctets_escape, ih, List.cons_append]

theorem percentOctets_cons (h : c ≠ '%') (r : List Char) :
    percentOctets (c :: r) = c.toNat.toUInt8 :: percentOctets r :=
  percentOctets.eq_2 _ _ fun _ _ _ hc _ => h hc

end Escape

section Encode

variable {c d : Char} {s : List Char}

theorem isAscii_of_alphanum (h : c.isAlphanum = true) : isAscii c = true := by
  simp only [Char.isAlphanum, Char.isAlpha, Char.isUpper, Char.isLower, Char.isDigit,
    Bool.or_eq_true, Bool.and_eq_true, decide_eq_true_eq, UInt32.le_iff_toNat_le,
    Char.reduceVal, UInt32.reduceToNat] at h
  refine decide_eq_true (?_ : c.val.toNat < 0x80)
  omega

theorem isAscii_of_unreserved (h : isUnreserved c = true) : isAscii c = true := by
  simp only [isUnreserved, Bool.or_eq_true, decide_eq_true_eq] at h
  rcases h with (((h | rfl) | rfl) | rfl) | rfl
  · exact isAscii_of_alphanum h
  all_goals rfl

theorem isPlain_of_unreserved (h : isUnreserved c = true) : isPlain c = true := by
  have hne (d : Char) (hd : isUnreserved d = false) : c ≠ d := by
    rintro rfl
    rw [h] at hd
    cases hd
  simp [isPlain, isAscii_of_unreserved h, hne '+' rfl, hne '&' rfl, hne '=' rfl]

theorem mem_formEncode (h : d ∈ formEncode s) : d = '+' ∨ isPlain d = true := by
  obtain ⟨c, -, hd⟩ := List.mem_flatMap.1 h
  unfold formEncodeChar at hd
  split_ifs at hd with hfree hblank
  · obtain rfl := List.mem_singleton.1 hd
    exact .inr (isPlain_of_unreserved hfree)
  · exact .inl (List.mem_singleton.1 hd)
  · obtain ⟨b, -, hd⟩ := List.mem_flatMap.1 hd
    exact .inr (isPlain_of_mem_escape hd)

theorem isAscii_formEncode (h : d ∈ formEncode s) : isAscii d = true := by
  rcases mem_formEncode h with rfl | h
  · rfl
  · simp only [isPlain, Bool.and_eq_true] at h
    exact h.1.1.1

theorem amp_notMem_formEncode : '&' ∉ formEncode s := fun h =>
  (mem_formEncode h).elim nofun nofun

theorem equals_notMem_formEncode : '=' ∉ formEncode s := fun h =>
  (mem_formEncode h).elim nofun nofun

theorem percentOctets_formEncodeChar (c : Char) (r : List Char) :
    percentOctets ((formEncodeChar c).map unplus ++ r) = encodeChar c ++ percentOctets r := by
  unfold formEncodeChar
  split_ifs with hfree hblank
  · have hascii : c.toNat < 0x80 := of_decide_eq_true (isAscii_of_unreserved hfree)
    have hpercent : c ≠ '%' := by
      rintro rfl
      cases hfree
    rw [List.map_singleton, unplus_plain (isPlain_of_unreserved hfree), List.singleton_append,
      percentOctets_cons hpercent, encodeChar]
    simp only [if_pos hascii]
    rfl
  · subst hblank
    exact percentOctets_cons (by decide) r
  · have hmap : ((encodeChar c).flatMap percentEscape).map unplus =
        (encodeChar c).flatMap percentEscape := by
      refine (List.map_congr_left fun d hd => ?_).trans (List.map_id _)
      obtain ⟨b, -, hd⟩ := List.mem_flatMap.1 hd
      exact unplus_plain (isPlain_of_mem_escape hd)
    rw [hmap, percentOctets_escapes]

theorem percentOctets_formEncode (s : List Char) :
    percentOctets ((formEncode s).map unplus) = encode s := by
  induction s with
  | nil => rfl
  | cons c s ih =>
    rw [formEncode, List.flatMap_cons, List.map_append, percentOctets_formEncodeChar,
      ← formEncode, ih, encode, encode, List.flatMap_cons]

theorem percentDecode_ascii (h : ∀ c ∈ s, isAscii c = true) :
    percentDecode s = decodeLossy (percentOctets s) := by
  cases s with
  | nil => rw [percentDecode, percentOctets, decodeLossy]
  | cons c r =>
    have hr : ∀ d ∈ r, isAscii d = true := fun d hd => h d (List.mem_cons_of_mem c hd)
    rw [percentDecode, if_pos (h c List.mem_cons_self), List.takeWhile_eq_self_iff.2 hr,
      List.dropWhile_eq_nil_iff.2 hr, percentDecode, List.append_nil]

/-- Decoding gives back what was encoded. -/
theorem formDecode_formEncode (s : List Char) : formDecode (formEncode s) = s := by
  have hascii : ∀ c ∈ (formEncode s).map unplus, isAscii c = true := by
    intro c hc
    obtain ⟨d, hd, rfl⟩ := List.mem_map.1 hc
    unfold unplus
    split_ifs
    · rfl
    · exact isAscii_formEncode hd
  change percentDecode ((formEncode s).map unplus) = s
  rw [percentDecode_ascii hascii, percentOctets_formEncode, decodeLossy_encode]

end Encode

section Cut

variable {α : Type} [DecidableEq α] {sep : α}

theorem splitOn_intercalate {p : List α} {pieces : List (List α)}
    (h : ∀ q ∈ p :: pieces, sep ∉ q) :
    splitOn sep ([sep].intercalate (p :: pieces)) = p :: pieces := by
  induction pieces generalizing p with
  | nil =>
    rw [List.intercalate_singleton]
    exact splitOn_of_notMem (h p List.mem_cons_self)
  | cons q pieces ih =>
    have hrest := ih fun q' hq' => h q' (List.mem_cons_of_mem p hq')
    have hsep : splitOn sep (sep :: [sep].intercalate (q :: pieces)) = [] :: q :: pieces := by
      rw [splitOn, if_pos rfl, hrest]
    rw [List.intercalate_cons_cons, List.append_assoc, List.singleton_append,
      splitOn_append_left (h p List.mem_cons_self) hsep, List.append_nil]

theorem cutAt_append {name value : List α} (h : sep ∉ name) :
    cutAt sep (name ++ sep :: value) = (name, some value) := by
  induction name with
  | nil => rw [List.nil_append, cutAt_cons, if_pos rfl]
  | cons c name ih =>
    have hc : c ≠ sep := fun hc => h (hc ▸ List.mem_cons_self)
    rw [List.cons_append, cutAt_cons, if_neg hc, ih fun hn => h (List.mem_cons_of_mem c hn)]

end Cut

end Text

namespace Query

def encodedPair (p : String × String) : List Char :=
  Text.formEncode p.1.toList ++ '=' :: Text.formEncode p.2.toList

def encoded (ps : List (String × String)) : String :=
  String.ofList (['&'].intercalate (ps.map encodedPair))

theorem amp_notMem_encodedPair (p : String × String) : '&' ∉ encodedPair p := by
  intro h
  rcases List.mem_append.1 h with h | h
  · exact Text.amp_notMem_formEncode h
  · exact Text.amp_notMem_formEncode ((List.mem_cons.1 h).resolve_left (by decide))

theorem decodedText_formEncode (s : String) :
    decodedText (String.ofList (Text.formEncode s.toList)) = s := by
  rw [decodedText, String.toList_ofList, Text.formDecode_formEncode, String.ofList_toList]

theorem decoded_parse_encodedPair (p : String × String) :
    decoded (.parse (String.ofList (encodedPair p))) = .ofText p.1 p.2 := by
  have hparse : ValueField.parse (String.ofList (encodedPair p)) =
      .ofText (String.ofList (Text.formEncode p.1.toList))
        (String.ofList (Text.formEncode p.2.toList)) := by
    rw [ValueField.parse, String.toList_ofList, encodedPair,
      Text.cutAt_append Text.equals_notMem_formEncode]
    rfl
  have htext (n v : String) : (ValueField.ofText n v).name.source.text = n := View.text_ofString n
  rw [hparse, decoded, htext, decodedText_formEncode]
  change ValueField.ofText p.1 (decodedText (String.ofList (Text.formEncode p.2.toList))) = _
  rw [decodedText_formEncode]

theorem fields_encoded (ps : List (String × String)) :
    fields (encoded ps) = ps.map fun p => .parse (String.ofList (encodedPair p)) := by
  cases ps with
  | nil => rfl
  | cons p ps =>
    have hfilled : ∀ q ∈ (p :: ps).map encodedPair, decide (q ≠ []) = true := by
      intro q hq
      obtain ⟨p', -, rfl⟩ := List.mem_map.1 hq
      simp [encodedPair]
    have hapart : ∀ q ∈ encodedPair p :: ps.map encodedPair, '&' ∉ q := by
      intro q hq
      obtain ⟨p', -, rfl⟩ := List.mem_map.1 (List.map_cons ▸ hq)
      exact amp_notMem_encodedPair p'
    rw [fields, encoded, String.toList_ofList, List.map_cons, Text.splitOn_intercalate hapart,
      ← List.map_cons, List.filter_eq_self.2 hfilled, List.map_map, List.map_map]
    rfl

/-- The fields of an encoded query string are the names and values that it was made of. -/
theorem decodedFields_encoded (ps : List (String × String)) :
    decodedFields (encoded ps) = ps.map fun p => .ofText p.1 p.2 := by
  rw [decodedFields, fields_encoded, List.map_map]
  exact List.map_congr_left fun p _ => decoded_parse_encodedPair p

end Query

/-- Encoded names and values come out as the fields that they were, in order and none of them lost.
A form makes of the query string what it makes of the fields. -/
theorem parse_encoded (s : Schema) (form : Form) (mode : Mode) (ps : List (String × String)) :
    Query.decodedFields (Query.encoded ps) = ps.map (fun p => .ofText p.1 p.2) ∧
      s.parseAll form mode
          ((Query.decodedFields (Query.encoded ps)).map fun f => .field (.value f)) =
        s.parseAll form mode (ps.map fun p => .field (.value (.ofText p.1 p.2))) := by
  have hfields := Query.decodedFields_encoded ps
  refine ⟨hfields, ?_⟩
  rw [hfields, List.map_map]
  rfl

example : Query.encoded [("a&b", "1 = é"), ("", "")] = "a%26b=1+%3D+%C3%A9&=" := by cbv

end WebForm
