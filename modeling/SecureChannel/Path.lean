/-!
# Names of files

A name of a file is a sequence of components between slashes. Its last component that is neither
empty nor a single dot is the file's own name, which the last dot behind its first character divides
into stem and extension.
-/

namespace SecureChannel.Path

/-- The components between the slashes of a name. -/
def components (path : String) : List (List Char) :=
  path.toList.splitOn '/'

/-- Whether a component stands for the directory that it is in. -/
def isSame (component : List Char) : Bool :=
  component = [] || component = ['.']

def above : List Char := ['.', '.']

/-- Components up to the file's own name, last first. -/
def toFileName (path : String) : List (List Char) :=
  (components path).reverse.dropWhile isSame

/-- The file's own name, unless the name ends at a directory's root or goes up. -/
def fileName? (path : String) : Option (List Char) :=
  match toFileName path with
  | [] => none
  | name :: _ => if name = above then none else some name

/-- Stem and extension of a file's own name. A dot in front divides nothing. -/
def divide (name : List Char) : List Char × Option (List Char) :=
  let tail := name.reverse.takeWhile (· ≠ '.')
  let stem := name.take (name.length - tail.length - 1)
  if tail.length = name.length || stem = [] then (name, none) else (stem, some tail.reverse)

def extension? (path : String) : Option String :=
  match fileName? path with
  | none => none
  | some name => (divide name).2.map String.ofList

/-- The name with another extension, or with one where there was none. -/
def withExtension (path extension : String) : String :=
  match toFileName path with
  | [] => path
  | name :: before =>
      if name = above then path
      else
        let renamed := (divide name).1 ++ '.' :: extension.toList
        String.ofList (['/'].intercalate (renamed :: before).reverse)

end SecureChannel.Path
