import Mathlib
import WebForm.Proofs.Body.Reading
import WebForm.Proofs.Names
import WebForm.Proofs.Splitting
import WebForm.Proofs.Utf8
import WebForm.Query

/-!
# Urlencoded bodies and query strings

A reader of urlencoded bodies reports the pieces between the ampersands, wherever the chunks end. A
body of ASCII octets therefore holds the same fields as the query string that it spells.
-/
namespace WebForm

namespace Text

section Ascii

variable {s : List Char}

theorem octet_inj {c d : Char} (hc : isAscii c = true) (hd : isAscii d = true) :
    c.toNat.toUInt8 = d.toNat.toUInt8 ↔ c = d := by
  have hc : c.toNat < 0x80 := of_decide_eq_true hc
  have hd : d.toNat < 0x80 := of_decide_eq_true hd
  rw [← UInt8.toNat_inj, toNat_octet (by omega), toNat_octet (by omega), Char.toNat_inj]

theorem encode_ascii (hs : ∀ c ∈ s, isAscii c = true) : encode s = octetsOf s := by
  induction s with
  | nil => rfl
  | cons c s ih =>
    have hc : c.toNat < 0x80 := of_decide_eq_true (hs c List.mem_cons_self)
    have ih := ih fun d hd => hs d (List.mem_cons_of_mem c hd)
    rw [encode, List.flatMap_cons, ← encode, ih, encodeChar]
    simp only [if_pos hc]
    rfl

theorem latin1_octetsOf (hs : ∀ c ∈ s, isAscii c = true) : latin1 (octetsOf s) = s := by
  rw [latin1, octetsOf, List.map_map]
  refine (List.map_congr_left fun c hc => ?_).trans (List.map_id s)
  have hc : c.toNat < 0x80 := of_decide_eq_true (hs c hc)
  rw [Function.comp_apply, toNat_octet (by omega), Char.ofNat_toNat, id]

end Ascii

end Text

namespace Body

/-- The items of an urlencoded body: its pieces between ampersands, but for those that are empty. -/
def itemsOf (pieces : List Text.Octets) : List Item :=
  (pieces.filter (· ≠ [])).map Urlencoded.item

theorem itemsOf_append (pieces more : List Text.Octets) :
    itemsOf (pieces ++ more) = itemsOf pieces ++ itemsOf more := by
  simp only [itemsOf, List.filter_append, List.map_append]

def Reader.Reports (r : Reader) (body : Text.Octets) : Prop :=
  ∀ chunks, (∀ c ∈ chunks, c ≠ []) → chunks.flatten = body →
    (r.read none chunks).items = itemsOf (Text.splitOn 0x26 body) ∧
      (r.read none chunks).stop = .complete

section Reports

open Urlencoded

variable {s : Urlencoded.State} {received : Nat} {chunk : Text.Octets} {chunks : List Text.Octets}

def unlimited : FieldLimits := ⟨none, none⟩

theorem extend_unlimited (s : Urlencoded.State) (piece : Text.Octets) :
    ∃ n, extend unlimited s piece = .silent ⟨s.field ++ piece, n⟩ := by
  unfold extend
  cases piece with
  | nil => exact ⟨s.count, by rw [List.append_nil]; rfl⟩
  | cons b bs => exact ⟨_, rfl⟩

theorem complete_eq (s : Urlencoded.State) :
    complete s = ⟨itemsOf [s.field], .ok ⟨[], s.count⟩⟩ := by
  rcases s with ⟨_ | ⟨b, bs⟩, n⟩ <;> rfl

theorem writePieces_unlimited {p last : Text.Octets} {ps pieces : List Text.Octets}
    (h : (s.field ++ p) :: ps = pieces ++ [last]) :
    ∃ n, writePieces unlimited s (p :: ps) = ⟨itemsOf pieces, .ok ⟨last, n⟩⟩ := by
  induction ps generalizing s p pieces with
  | nil =>
    cases pieces with
    | nil =>
      obtain rfl := List.head_eq_of_cons_eq h
      exact extend_unlimited s p
    | cons piece pieces =>
      exact absurd (List.cons.inj h).2.symm (List.append_ne_nil_of_right_ne_nil _ (by simp))
  | cons q ps ih =>
    obtain ⟨n, hn⟩ := extend_unlimited s p
    cases pieces with
    | nil => cases h
    | cons piece pieces =>
      obtain ⟨rfl, htail⟩ := List.cons.inj h
      obtain ⟨m, hm⟩ := ih (s := ⟨[], n⟩) htail
      refine ⟨m, ?_⟩
      rw [writePieces.eq_3 _ _ _ _ (List.cons_ne_nil q ps), hn]
      simp only [Delivery.silent, Delivery.andThen, complete_eq, hm, List.nil_append]
      rw [← itemsOf_append]
      rfl

theorem write_unlimited {pieces : List Text.Octets} {last : Text.Octets} (hs : 0x26 ∉ s.field)
    (h : Text.splitOn 0x26 (s.field ++ chunk) = pieces ++ [last]) :
    ∃ n, (Reader.urlencoded unlimited).write s chunk = ⟨itemsOf pieces, .ok ⟨last, n⟩⟩ := by
  change ∃ n, writePieces unlimited s (Text.splitOn 0x26 chunk) = _
  cases hchunk : Text.splitOn 0x26 chunk with
  | nil => exact absurd hchunk (Text.splitOn_ne_nil _ _)
  | cons p ps =>
    rw [Text.splitOn_append_left hs hchunk] at h
    exact writePieces_unlimited h

theorem readFrom_unlimited_urlencoded (hs : 0x26 ∉ s.field) :
    (Reader.urlencoded unlimited).readFrom none received s chunks =
      ⟨chunks, itemsOf (Text.splitOn 0x26 (s.field ++ chunks.flatten)), .complete⟩ := by
  induction chunks generalizing received s with
  | nil =>
    rw [List.flatten_nil, List.append_nil, Text.splitOn_of_notMem hs]
    change Receipt.mk [] ((complete s).andThen _).items
      (.ofState ((complete s).andThen _).state) = _
    rw [complete_eq]
    simp [Delivery.andThen, Delivery.silent, Stop.ofState]
  | cons chunk chunks ih =>
    obtain ⟨pieces, last, hsplit, hlast, happend⟩ := Text.exists_splitOn 0x26 (s.field ++ chunk)
    obtain ⟨n, hwrite⟩ := write_unlimited hs hsplit
    have hstate : ((Reader.urlencoded unlimited).write s chunk).state = .ok ⟨last, n⟩ := by
      rw [hwrite]
    rw [readFrom_ok rfl hstate, ih hlast, hwrite, Receipt.after, ← itemsOf_append, ← happend,
      List.flatten_cons, List.append_assoc]

theorem urlencoded_reports (body : Text.Octets) : (Reader.urlencoded unlimited).Reports body := by
  rintro chunks - rfl
  have hread : (Reader.urlencoded unlimited).read none chunks =
      ⟨chunks, itemsOf (Text.splitOn 0x26 chunks.flatten), .complete⟩ :=
    @readFrom_unlimited_urlencoded ⟨[], 0⟩ 0 chunks List.not_mem_nil
  rw [hread]
  exact ⟨rfl, rfl⟩

end Reports

section Ascii

variable {cs : List Char}

theorem formText_octetsOf (hcs : ∀ c ∈ cs, Text.isAscii c = true) :
    formText (Text.octetsOf cs) = Query.decodedText (String.ofList cs) := by
  rw [formText, Text.latin1_octetsOf hcs, Query.decodedText, String.toList_ofList]

theorem encodedSubmission_item (hcs : ∀ c ∈ cs, Text.isAscii c = true) :
    encodedSubmission (Urlencoded.item (Text.octetsOf cs)) =
      .field (.value (Query.decoded (.parse (String.ofList cs)))) := by
  have hcut : Text.cutAt 0x3D (Text.octetsOf cs) =
      (Text.cutAt '=' cs).map Text.octetsOf (Option.map Text.octetsOf) :=
    Text.cutAt_map fun c hc => Text.octet_inj (hcs c hc) (by decide : Text.isAscii '=' = true)
  have hpart (c : Char) (hc : c ∈ (Text.cutAt '=' cs).1 ∨ c ∈ (Text.cutAt '=' cs).2.getD []) :
      Text.isAscii c = true := hcs c (Text.mem_of_cutAt hc)
  unfold Urlencoded.item ValueField.parse
  rw [hcut, String.toList_ofList]
  rcases hcs' : Text.cutAt '=' cs with ⟨name, value⟩
  rw [hcs'] at hpart
  have hname : formText (Text.octetsOf name) = Query.decodedText (String.ofList name) :=
    formText_octetsOf fun c hc => hpart c (.inl hc)
  have hvalue : formText (Text.octetsOf (value.getD [])) =
      Query.decodedText (String.ofList (value.getD [])) :=
    formText_octetsOf fun c hc => hpart c (.inr hc)
  have hgetD : (value.map Text.octetsOf).getD [] = Text.octetsOf (value.getD []) := by
    cases value <;> rfl
  have htext (n v : String) : (ValueField.ofText n v).name.source.text = n := View.text_ofString n
  simp only [Prod.map, encodedSubmission, Query.decoded, hgetD, hname, hvalue, htext]
  rfl

/-- The octets of a query string hold its fields. -/
theorem submissions_octetsOf {q : String} (hq : ∀ c ∈ q.toList, Text.isAscii c = true) :
    (itemsOf (Text.splitOn 0x26 (Text.octetsOf q.toList))).map encodedSubmission =
      (Query.decodedFields q).map fun f => .field (.value f) := by
  have hsplit : Text.splitOn 0x26 (Text.octetsOf q.toList) =
      (Text.splitOn '&' q.toList).map Text.octetsOf :=
    Text.splitOn_map fun c hc => Text.octet_inj (hq c hc) (by decide : Text.isAscii '&' = true)
  have hempty (cs : List Char) : decide (Text.octetsOf cs ≠ []) = decide (cs ≠ []) := by
    cases cs <;> rfl
  rw [hsplit, itemsOf, Query.decodedFields, Query.fields, List.filter_map]
  simp only [List.map_map, Function.comp_def, hempty]
  refine List.map_congr_left fun cs hcs => encodedSubmission_item fun c hc => ?_
  exact hq c (Text.mem_of_splitOn (List.mem_of_mem_filter hcs) c hc)

end Ascii

/-- A body that spells a query string in ASCII octets, in whatever chunks it comes, is parsed as the
query string is, if the body keeps to the limit: both make the same value, or the same errors. -/
theorem parseBody_urlencoded {r : Reader} {limit : Option Int} {q : String}
    {chunks : List Text.Octets} (hr : r.submission = encodedSubmission)
    (hreports : r.Reports (Text.encodeString q)) (hq : ∀ c ∈ q.toList, Text.isAscii c = true)
    (hlimit : ∀ l ∈ limit, (q.length : Int) ≤ l) (hchunks : ∀ c ∈ chunks, c ≠ [])
    (hcut : chunks.flatten = Text.encodeString q) (s : Schema) (form : Form) (mode : Mode) :
    s.parseBody form mode (submissionsOf (some r) limit chunks) =
      s.parseAll form mode ((Query.decodedFields q).map fun f => .field (.value f)) := by
  have hoctets : Text.encodeString q = Text.octetsOf q.toList := Text.encode_ascii hq
  have hlength : chunks.flatten.length = q.length := by
    rw [hcut, hoctets, Text.octetsOf, List.length_map, String.length_toList]
  have hread : receipt (some r) limit chunks = r.read none chunks :=
    readFrom_unlimited fun l hl => by rw [Nat.zero_add, hlength]; exact hlimit l hl
  obtain ⟨hitems, hstop⟩ := hreports chunks hchunks hcut
  have hfields : submissionsOf (some r) limit chunks =
      ((Query.decodedFields q).map .value).map .field := by
    rw [submissionsOf_eq (by rintro _ ⟨⟩; exact hr) (by rw [hread, hstop]; exact nofun), hread,
      Receipt.submissions, hitems, hstop, hoctets, submissions_octetsOf hq, List.map_map]
    exact List.append_nil _
  have hfields' : (Query.decodedFields q).map (fun f => Submission.field (.value f)) =
      ((Query.decodedFields q).map .value).map .field := (List.map_map ..).symm
  rw [hfields, hfields', parseBody_fields, parseAll_fields]

def queryRules : Rules := ⟨some 16, none, none, .standard, false⟩

theorem spaced_query_parsed :
    Schema.empty.parseBody (.dict .text .text) .strict
        (submissions queryRules "application/x-www-form-urlencoded"
          [Text.encodeString "a=1&&b%2", Text.encodeString "0c=%26", Text.encodeString "+&"]) =
      .ok (.dict [(.text "a", .text "1"), (.text "b c", .text "& ")]) := by
  have hq : ∀ c ∈ "a=1&&b%20c=%26+&".toList, Text.isAscii c = true :=
    List.all_eq_true.1 (by cbv)
  have hcut : [Text.encodeString "a=1&&b%2", Text.encodeString "0c=%26",
      Text.encodeString "+&"].flatten = Text.encodeString "a=1&&b%20c=%26+&" := by cbv
  have hformat : format? queryRules "application/x-www-form-urlencoded" =
      some (.urlencoded unlimited) := rfl
  rw [submissions_eq, hformat, Option.map_some, Format.reader,
    parseBody_urlencoded rfl (urlencoded_reports _) hq (by decide) (by decide) hcut]
  cbv

end Body

end WebForm
