/-!
# Reports of failure

A program that fails says what it was doing, and then, from the outside in, why that did not
succeed. A report is shown on one line, or as a block in which each cause starts a line; several
causes are numbered, and what a cause holds behind a line feed is indented like its beginning.
-/

namespace SecureChannel

/-- What failed, and the causes of that, outermost first. -/
structure Report where
  headline : String
  causes : List String
deriving DecidableEq

namespace Report

def ofText (text : String) : Report := ⟨text, []⟩

/-- What a step failed with becomes the cause of the failure of the whole. -/
def within (context : String) (r : Report) : Report :=
  ⟨context, r.headline :: r.causes⟩

def line (r : Report) : String :=
  ": ".intercalate (r.headline :: r.causes)

/-- A text whose lines all stand behind the same margin, given what stands in front of the first. -/
def indented (start margin text : String) : String :=
  start ++ ("\n" ++ margin).intercalate (text.splitOn "\n") ++ "\n"

/-- Causes behind their numbers. -/
def numbered (first : Nat) : List String → String
  | [] => ""
  | cause :: rest => indented s!"    {first}: " "       " cause ++ numbered (first + 1) rest

def block (r : Report) : String :=
  let head := s!"Error: {r.headline}\n"
  match r.causes with
  | [] => head
  | [cause] => head ++ "\nCaused by:\n" ++ indented "    " "    " cause
  | many => head ++ "\nCaused by:\n" ++ numbered 0 many

end Report

end SecureChannel
