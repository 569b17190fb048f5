import WebForm.Fault
import WebForm.Value.Basic

/-!
# Equality, keys and order of values

Numbers of all types compare by the number they stand for, and no number equals nothing. Files,
errors and contextual values differ from everything. Not every value can be a key of a dictionary,
and not every two values have an order.
-/
namespace WebForm

/-- The exact number a value stands for, if it stands for one that can be compared. -/
def Value.rank? : Value → Option Rank
  | .bool b => some (.ofInt (if b then 1 else 0))
  | .int i => some (.ofInt i)
  | .float d => d.rank?
  | _ => Option.none

def Value.isNumber : Value → Bool
  | .bool _ | .int _ | .float _ => true
  | _ => false

/-- The order of two numbers; there is none if one of them is not a number. -/
def compareNumbers (v w : Value) : Option Ordering :=
  match v.rank?, w.rank? with
  | some r, some s => some (r.compare s)
  | _, _ => none

/-- Seconds since midnight in universal time, and the microseconds beyond them. -/
def Time.universal (t : Time) : Int × Nat :=
  ((((t.hour * 60 + t.minute) * 60 + t.second : Nat) : Int) - (t.offset.getD 0).fdiv 1000000,
    t.microsecond)

def Time.order (t u : Time) : Ordering :=
  if t.offset = u.offset then compare t.sinceMidnight u.sinceMidnight
  else compareLex (compareOn (·.1)) (compareOn (·.2)) t.universal u.universal

def DateTime.universal (t : DateTime) : Int :=
  (t.date.ordinal : Int) * daySpan + t.time.sinceMidnight - t.time.offset.getD 0

def DateTime.order (t u : DateTime) : Ordering := compare t.universal u.universal

/-- Two times can be compared if both or none know their distance from universal time. -/
def sameAwareness (o p : Option Int) : Bool := o.isSome == p.isSome

/-- The time between the first midnight in universal time and this time of the first day. -/
def Time.elapsed (t : Time) : Int := t.sinceMidnight - t.offset.getD 0

/-- Times that are one key of a dictionary are equal and equally long after midnight. -/
def Time.sameKey (t u : Time) : Bool := t.elapsed == u.elapsed

mutual
/-- Whether two equal values count as one key of a dictionary. -/
def Value.agree : Value → Value → Bool
  | .time t, .time u => t.sameKey u
  | .tuple vs, .tuple ws => agreeList vs ws
  | .record _ es, .record _ fs => agreeFields es fs
  | _, _ => true

def agreeList : List Value → List Value → Bool
  | v :: vs, w :: ws => v.agree w && agreeList vs ws
  | _, _ => true

def agreeFields : List (String × Slot Value) → List (String × Slot Value) → Bool
  | (_, a) :: es, (_, b) :: fs => agreeSlot a b && agreeFields es fs
  | _, _ => true

def agreeSlot : Slot Value → Slot Value → Bool
  | .shared _, .shared _ => true
  | .own v, .own w | .own v, .shared w | .shared v, .own w => v.agree w
  | _, _ => true
end

mutual
def Value.same : Value → Value → Bool
  | .none, .none => true
  | .text s, .text t => s == t
  | .octets s, .octets t => s == t
  | .list vs, .list ws => sameList vs ws
  | .tuple vs, .tuple ws => sameList vs ws
  | .dict es, .dict fs => es.length == fs.length && sameEntries es fs
  | .record t es, .record u fs => t.index == u.index && sameFields es fs
  | .choice t m _, .choice u n _ => t == u && m == n
  | .address a, .address b => a == b
  | .date d, .date e => d == e
  | .time t, .time u => sameAwareness t.offset u.offset && t.order u == .eq
  | .dateTime t, .dateTime u => sameAwareness t.time.offset u.time.offset && t.order u == .eq
  | .object es, .object fs => es.length == fs.length && sameAttributes es fs
  | v, w => v.isNumber && w.isNumber && compareNumbers v w == some .eq

def sameList : List Value → List Value → Bool
  | [], [] => true
  | v :: vs, w :: ws => v.same w && sameList vs ws
  | _, _ => false

def sameEntries : List (Value × Value) → List (Value × Value) → Bool
  | [], _ => true
  | (k, v) :: es, fs =>
    fs.any (fun e => k.agree e.1 && k.same e.1 && v.same e.2) && sameEntries es fs

def sameFields : List (String × Slot Value) → List (String × Slot Value) → Bool
  | [], [] => true
  | (n, a) :: es, (m, b) :: fs => n == m && sameSlot a b && sameFields es fs
  | _, _ => false

/-- A shared value is itself, even if it does not compare as equal to itself. -/
def sameSlot : Slot Value → Slot Value → Bool
  | .unset, .unset | .shared _, .shared _ => true
  | .own v, .own w | .own v, .shared w | .shared v, .own w => v.same w
  | _, _ => false

def sameAttributes : List (String × Value) → List (String × Value) → Bool
  | [], _ => true
  | (n, v) :: es, fs => fs.any (fun e => n == e.1 && v.same e.2) && sameAttributes es fs
end

def unsetIn (t : RecordType) (fs : List (String × Slot Value)) : Option Fault :=
  (fs.find? fun f => f.2.get?.isNone).map fun f => .lacksAttribute t.name f.1

mutual
def Value.keyFault? : Value → Option Fault
  | .list _ => some (.unhashable "list")
  | .dict _ => some (.unhashable "dict")
  | .object _ => some (.unhashable "types.SimpleNamespace")
  | .tuple vs => keyFaultIn vs
  | .record t fs =>
    if t.frozen then (unsetIn t fs).or (keyFaultOf fs) else some (.unhashable t.name)
  | _ => Option.none

def keyFaultIn : List Value → Option Fault
  | [] => none
  | v :: vs => v.keyFault?.or (keyFaultIn vs)

def keyFaultOf : List (String × Slot Value) → Option Fault
  | [] => none
  | (_, a) :: fs => (slotFault a).or (keyFaultOf fs)

def slotFault : Slot Value → Option Fault
  | .unset => none
  | .own v | .shared v => v.keyFault?
end

mutual
def Value.unset? : Value → Option Fault
  | .list vs | .tuple vs => unsetInList vs
  | .dict es => unsetInEntries es
  | .record t fs => unsetInFields t fs
  | .contextual v _ => v.unset?
  | _ => Option.none

def unsetInList : List Value → Option Fault
  | [] => none
  | v :: vs => v.unset?.or (unsetInList vs)

def unsetInEntries : List (Value × Value) → Option Fault
  | [] => none
  | (k, v) :: es => (k.unset?.or v.unset?).or (unsetInEntries es)

def unsetInFields (t : RecordType) : List (String × Slot Value) → Option Fault
  | [] => none
  | (n, .unset) :: _ => some (.lacksAttribute t.name n)
  | (_, .own v) :: fs => v.unset?.or (unsetInFields t fs)
  | (_, .shared v) :: fs => v.unset?.or (unsetInFields t fs)
end

mutual
/-- The order of two values, for the comparison with the given operator. -/
def Value.order (operator : String) : Value → Value → Except Fault (Option Ordering)
  | .text s, .text t => .ok (some (compare s t))
  | .octets s, .octets t => .ok (some (if s = t then .eq else if s < t then .lt else .gt))
  | .list vs, .list ws => orderLists operator vs ws
  | .tuple vs, .tuple ws => orderLists operator vs ws
  | .date d, .date e => .ok (some (compare d.ordinal e.ordinal))
  | .time t, .time u =>
    if sameAwareness t.offset u.offset then .ok (some (t.order u))
    else .error (.offsetOrder "times")
  | .dateTime t, .dateTime u =>
    if sameAwareness t.time.offset u.time.offset then .ok (some (t.order u))
    else .error (.offsetOrder "datetimes")
  | .date _, .dateTime _ | .dateTime _, .date _ =>
    .error (.dateOrder "datetime.datetime" "datetime.date")
  | .address a, .address b =>
    if a.version = b.version then
      .ok (some ((compare a.number b.number).then (if a = b then .eq else .gt)))
    else .error (.versionOrder a.display b.display)
  | .object _, .object _ => .error (.unordered operator "dict" "dict")
  | v, w =>
    if v.isNumber && w.isNumber then .ok (compareNumbers v w)
    else .error (.unordered operator v.typeName w.typeName)

def orderLists (operator : String) : List Value → List Value → Except Fault (Option Ordering)
  | [], [] => .ok (some .eq)
  | [], _ :: _ => .ok (some .lt)
  | _ :: _, [] => .ok (some .gt)
  | v :: vs, w :: ws => if v.same w then orderLists operator vs ws else v.order operator w
end

namespace Value

/-- Whether two values are one key of a dictionary. -/
def sameKey (v w : Value) : Bool := v.agree w && v.same w

def less (v w : Value) : Except Fault Bool := (v.order "<" w).map (· == some .lt)
def greater (v w : Value) : Except Fault Bool := (v.order ">" w).map (· == some .gt)

def isVoid : Value → Bool
  | text s => s.isEmpty
  | octets bs => bs.isEmpty
  | list vs | tuple vs => vs.isEmpty
  | dict es => es.isEmpty
  | errors es => es.isEmpty
  | none => true
  | v => v.isNumber && v.rank?.any fun r => r.compare (.ofInt 0) == .eq

def length? : Value → Option Nat
  | text s => some s.length
  | octets bs => some bs.length
  | list vs | tuple vs => some vs.length
  | dict es => some es.length
  | errors es => some es.length
  | _ => Option.none

def contains (v item : Value) : Except Fault Bool :=
  match v with
  | text s =>
    match item with
    | text t => .ok (Text.occursIn t.toList s.toList)
    | w => .error (.textItem w.typeName)
  | octets bs =>
    match item with
    | octets cs => .ok (Text.occursIn cs bs)
    | int i => if 0 ≤ i ∧ i < 256 then .ok (bs.any (·.toNat == i.toNat)) else .error .octetRange
    | bool b => .ok (bs.any (·.toNat == if b then 1 else 0))
    | w => .error (.octetItem w.typeName)
  | list vs | tuple vs => .ok (vs.any (·.same item))
  | dict es =>
    match item.keyFault? with
    | some f => .error f
    | Option.none => .ok (es.any (·.1.sameKey item))
  | errors _ => .ok false
  | v => .error (.uncontaining v.typeName)

/-- Sets the value of a key. A key that is there keeps its place and its spelling. -/
def insert (key value : Value) : List (Value × Value) → List (Value × Value)
  | [] => [(key, value)]
  | (k, v) :: es => if k.sameKey key then (k, value) :: es else (k, v) :: insert key value es

end Value

namespace Kind

def sameBound : Option Value → Option Value → Bool
  | none, none => true
  | some v, some w => v.same w
  | _, _ => false

/-- Kinds compare by their content. All custom kinds are alike, and files' troubles compare by their
system's number, or else by label. -/
def same : Kind Value → Kind Value → Bool
  | invalidLength a b, invalidLength c d => sameBound a c && sameBound b d
  | invalidChoice cs, invalidChoice ds => cs == ds
  | outOfRange a b, outOfRange c d => sameBound a c && sameBound b d
  | validation m, validation n => m == n
  | duplicate, duplicate | missing, missing | unexpected, unexpected | unknown, unknown => true
  | custom _, custom _ => true
  | unreadable .file c, unreadable .file d =>
    match c.code?, d.code? with
    | some x, some y => x.same y
    | none, none => c.label == d.label
    | _, _ => false
  | unreadable r c, unreadable s d => r == s && c.same d
  | _, _ => false

end Kind

/-- Errors compare by the keys of their names, their texts, kinds and entities. -/
def Error.same (e f : FormError) : Bool :=
  (e.name.map Path.keys) == (f.name.map Path.keys) && e.value == f.value && e.kind.same f.kind &&
    e.entity == f.entity

end WebForm
