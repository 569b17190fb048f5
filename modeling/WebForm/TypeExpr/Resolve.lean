import WebForm.TypeExpr.Declaration

/-!
# The form of a type

Names in a type expression are looked up among the record types; then a form is found for it, if
there is one.
-/
namespace WebForm

def PlainType.form? : PlainType → Option Form
  | text => some .text
  | octets => some .octets
  | integer => some .integer
  | float => some .float
  | boolean => some .boolean
  | date => some (.leaf .date)
  | time => some (.leaf .time)
  | dateTime => some (.leaf .dateTime)
  | addressFour => some (.leaf (.address (some .four)))
  | addressSix => some (.leaf (.address (some .six)))
  | file => some .upload
  | _ => none

def Remark.form? : Remark → Option Form
  | form f => some f
  | _ => none

namespace TypeExpr

def isNothing : TypeExpr → Bool
  | plain .nothing => true
  | _ => false

def isErrors : TypeExpr → Bool
  | plain .errors => true
  | _ => false

mutual
def hasNames : TypeExpr → Bool
  | name _ | reference _ => true
  | generic _ args | union _ args => haveNames args
  | annotated t _ => t.hasNames
  | _ => false

def haveNames : List TypeExpr → Bool
  | [] => false
  | t :: ts => t.hasNames || haveNames ts
end

mutual
/-- Puts record types in the place of their names. A union in which names turn out to be types is
put together anew. -/
def dereference (lookup : String → Option RecordType) : TypeExpr → Except Fault TypeExpr
  | name s | reference s =>
    match lookup s with
    | some t => .ok (record t)
    | Option.none => .error (.undeclared s)
  | generic g args => (dereferenceAll lookup args).map (generic g)
  | union piped args =>
    if haveNames args then
      dereferenceAll lookup args >>= fun ts => if piped then ofPipe ts else ofUnion ts
    else .ok (union piped args)
  | annotated t rs => (t.dereference lookup).map (annotated · rs)
  | t => .ok t

def dereferenceAll (lookup : String → Option RecordType) :
    List TypeExpr → Except Fault (List TypeExpr)
  | [] => .ok []
  | t :: ts => do .ok ((← t.dereference lookup) :: (← dereferenceAll lookup ts))
end

def unionFault (piped : Bool) (args : List TypeExpr) : Except Fault Form :=
  .error (.noUnionForm (union piped args).quoted)

mutual
/-- The form of a type. The first form among the remarks on a type is its form. -/
def toForm : TypeExpr → Except Fault Form
  | form f => .ok f
  | annotated t rs =>
    match rs.findSome? Remark.form? with
    | some f => .ok f
    | Option.none => t.toForm
  | plain t =>
    match t.form? with
    | some f => .ok f
    | Option.none => .error (.noForm (plain t).quoted)
  | enumeration e => .ok (.leaf (.choice e))
  | record t => .ok (.record t)
  | generic g args =>
    if areHashable args then
      match g, args with
      | .list, [t] | .typingList, [t] | .sequence, [t] | .mutableSequence, [t] => do
        .ok (.list (← t.toForm))
      | .dict, [k, v] | .typingDict, [k, v] | .mapping, [k, v] | .mutableMapping, [k, v] => do
        .ok (.dict (← k.toForm) (← v.toForm))
      | .tuple, [l, r] => do .ok (.pair (← l.toForm) (← r.toForm))
      | .contextual, [t] => do .ok (.contextual (← t.toForm))
      | g, args => .error (.noForm (generic g args).quoted)
    else .error (.unhashable "list")
  | union piped args =>
    if areHashable args then
      match formsOf args with
      | [(false, f)] => if args.any isNothing then f.map .optional else unionFault piped args
      | [(false, f), (true, _)] => f.map .result
      | [(true, _), (false, f)] => f.map .result
      | [(true, f)] => if args.any isNothing then f.map .optional else unionFault piped args
      | _ => unionFault piped args
    else .error (.unhashable "list")
  | t => .error (.noForm t.quoted)

/-- The forms of the types other than that of nothing, each with whether it is the type of
errors. -/
def formsOf : List TypeExpr → List (Bool × Except Fault Form)
  | [] => []
  | t :: ts => if t.isNothing then formsOf ts else (t.isErrors, t.toForm) :: formsOf ts
end

def toRecord : TypeExpr → Except Fault RecordType
  | record t => .ok t
  | t => .error (.notRecord t.quoted)

end TypeExpr

namespace MemberDeclaration

def toPart (d : MemberDeclaration) (type : TypeExpr) : Except Fault RecordPart := do
  if !d.isParsed then .ok (.constant d.attr d.fallback)
  else
    let form ← d.form.elim type.toForm .ok
    match d.names with
    | [] => .ok (.member ⟨d.attr, d.attr, [], form, d.checks, d.fallback⟩)
    | n :: ns => .ok (.member ⟨d.attr, n, ns, form, d.checks, d.fallback⟩)

end MemberDeclaration

namespace Schema

/-- The last record type with a name hides the others. -/
def lookup (ds : List RecordDeclaration) (name : String) : Option RecordType :=
  (ds.reverse.find? (·.type.name = name)).map (·.type)

def resolve (ds : List RecordDeclaration) (d : RecordDeclaration) :
    Except Fault (List RecordPart) := do
  let types ← d.members.mapM fun m => m.type.asType.dereference (lookup ds)
  (d.members.zip types).mapM fun (m, t) => m.toPart t

def ofDeclarations (ds : List RecordDeclaration)
    (objections : RecordType → Objections := fun _ _ => []) : Schema :=
  ⟨ds.map (resolve ds), objections⟩

end Schema

end WebForm
