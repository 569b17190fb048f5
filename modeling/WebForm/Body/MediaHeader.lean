import WebForm.Text.Case
import WebForm.Text.Split
import WebForm.Text.Utf8

/-!
# Headers with parameters

A value followed by parameters, as in `form-data; name="a"`. Semicolons between double quotes do not
separate. The value and the names of parameters are read without regard to case.
-/
namespace WebForm.Body

structure MediaHeader where
  value : Text.Octets
  parameters : List (Text.Octets × Text.Octets)
  deriving DecidableEq, Repr

namespace MediaHeader

def isSpace (c : Char) : Bool := c = ' ' || c = '\t'

def trim (s : List Char) : List Char := ((s.dropWhile isSpace).reverse.dropWhile isSpace).reverse

/-- The pieces between semicolons outside of quotes. A quote after a backslash does not count. -/
def pieces (quoted escaped : Bool) : List Char → List (List Char)
  | [] => [[]]
  | c :: r =>
    if c = ';' && !quoted then [] :: pieces false false r
    else
      match pieces (if c = '"' && !escaped then !quoted else quoted) (c = '\\') r with
      | [] => [[c]]
      | p :: ps => (c :: p) :: ps

def halveBackslashes : List Char → List Char
  | '\\' :: '\\' :: r => '\\' :: halveBackslashes r
  | c :: r => c :: halveBackslashes r
  | [] => []

def bareQuotes : List Char → List Char
  | '\\' :: '"' :: r => '"' :: bareQuotes r
  | c :: r => c :: bareQuotes r
  | [] => []

/-- A text between quotes, without them and without the backslashes that it needs there; any other
text as it is. -/
def unquote (s : List Char) : List Char :=
  match s with
  | '"' :: c :: r =>
    if (c :: r).getLast? = some '"' then bareQuotes (halveBackslashes (c :: r).dropLast) else s
  | s => s

/-- A piece with an equals sign is a parameter, unless its name has an asterisk. -/
def parameter? (piece : List Char) : Option (List Char × List Char) :=
  match Text.cutAt '=' piece with
  | (_, none) => none
  | (name, some value) =>
    if name.contains '*' then none else some (Text.lower (trim name), unquote (trim value))

def encodePair? (p : List Char × List Char) : Option (Text.Octets × Text.Octets) := do
  some (← Text.encodeLatin1? p.1, ← Text.encodeLatin1? p.2)

def ofChars? (s : List Char) : Option MediaHeader := do
  let parts := pieces false false s
  let value ← Text.encodeLatin1? (Text.lower (trim (parts.headD [])))
  some ⟨value, ← ((parts.drop 1).filterMap parameter?).mapM encodePair?⟩

/-- The last parameter with a name counts. -/
def get? (h : MediaHeader) (name : String) : Option Text.Octets :=
  (h.parameters.reverse.find? (·.1 = Text.encodeString name)).map (·.2)

/-- Some clients send the whole path of a file. What follows the last backslash is its name. -/
def withoutPath (name : Text.Octets) : Text.Octets :=
  let s := Text.latin1 name
  if (s.drop 1).take 2 = [':', '\\'] || s.take 2 = ['\\', '\\'] then
    Text.octetsOf ((Text.splitOn '\\' s).getLast?.getD [])
  else name

end MediaHeader

end WebForm.Body
