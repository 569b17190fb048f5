import WebForm.Text.Split
import WebForm.Text.Utf8

/-!
# Names of files

A file name may come with folders in front. Its extension starts at the last dot of its last part;
dots at the start of that part begin no extension.
-/
namespace WebForm.FileName

def lastPart (s : List Char) : List Char := (s.reverse.takeWhile (· ≠ '/')).reverse

def splitExtension (s : List Char) : List Char × List Char :=
  let last := lastPart s
  let folder := s.take (s.length - last.length)
  let dots := last.takeWhile (· = '.')
  match Text.cutAt '.' (last.drop dots.length).reverse with
  | (_, none) => (s, [])
  | (extension, some front) => (folder ++ dots ++ front.reverse, '.' :: extension.reverse)

/-- The last part of a name that is given by its octets, without its extension and the extension. -/
def splitOctets (name : Text.Octets) : Text.Octets × Text.Octets :=
  let (stem, extension) := splitExtension (lastPart (Text.latin1 name))
  (Text.octetsOf stem, Text.octetsOf extension)

end WebForm.FileName
