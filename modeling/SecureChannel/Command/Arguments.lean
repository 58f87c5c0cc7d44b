/-!
# Command lines

A command has options, each with a long name and some with a letter, and it may take any number of
further words. An option either carries a value, attached by an equals sign or as the next word, or
is a switch. No option is given twice. A word that starts with a hyphen is never a value by itself,
a lone hyphen apart, and behind a double hyphen all words are plain ones.

An option that is not on the command line may be taken from the environment.
-/

namespace SecureChannel.Command

structure OptionSpec where
  long : String
  letter : Option Char
  /-- The variable of the environment that stands in for the option. -/
  envName : Option String
  takesValue : Bool
deriving DecidableEq

inductive UsageFault
  | unknownCommand (word : String)
  | unexpected (word : String)
  | missingValue (option : String)
  | repeated (option : String)
  | invalidValue (option value : String)
  | required (option : String)
deriving DecidableEq

namespace UsageFault

def message : UsageFault → String
  | unknownCommand word => s!"unrecognized subcommand '{word}'"
  | unexpected word => s!"unexpected argument '{word}' found"
  | missingValue option => s!"a value is required for '--{option}' but none was supplied"
  | repeated option => s!"the argument '--{option}' cannot be used multiple times"
  | invalidValue option value => s!"invalid value '{value}' for '--{option}'"
  | required option => s!"the required argument '--{option}' was not provided"

end UsageFault

/-- What was found on a command line, last first. -/
structure Matches where
  /-- Options by their long names; a switch has an empty value. -/
  options : List (String × String)
  words : List String
  /-- Help was asked for, and nothing behind that was looked at. -/
  help : Bool
deriving DecidableEq

namespace Matches

def empty : Matches := ⟨[], [], false⟩

def note (m : Matches) (spec : OptionSpec) (value : String) : Except UsageFault Matches :=
  if (m.options.lookup spec.long).isSome then .error (.repeated spec.long)
  else .ok { m with options := (spec.long, value) :: m.options }

end Matches

inductive Word
  | divider
  /-- A long option, with the value that is attached. -/
  | long (name : String) (attached : Option String)
  | letters (first : Char) (rest : List Char)
  | plain

namespace Word

def ofText (text : String) : Word :=
  match text.toList with
  | ['-', '-'] => divider
  | '-' :: '-' :: rest =>
      let name := String.ofList (rest.takeWhile (· ≠ '='))
      match rest.dropWhile (· ≠ '=') with
      | [] => long name none
      | _ :: value => long name (some (String.ofList value))
  | '-' :: c :: rest => letters c rest
  | _ => plain

/-- Whether the word can be the value of the option in front of it. -/
def isValue : Word → Bool
  | plain => true
  | _ => false

end Word

/-- The value that is attached to a letter. -/
def attachedValue : List Char → Option String
  | [] => none
  | '=' :: value => some (String.ofList value)
  | value => some (String.ofList value)

/-- What the options of a command line are, and whether it may have further words. -/
structure Grammar where
  options : List OptionSpec
  takesWords : Bool

namespace Grammar

def long? (g : Grammar) (name : String) : Option OptionSpec :=
  g.options.find? fun spec => spec.long = name

def letter? (g : Grammar) (c : Char) : Option OptionSpec :=
  g.options.find? fun spec => spec.letter = some c

/-- Reads words from the front. `pending` is an option that still needs its value, and `plain` says
that a double hyphen was read. -/
def readWords (g : Grammar) (pending : Option OptionSpec) (plain : Bool) (m : Matches) :
    List String → Except UsageFault Matches
  | [] =>
      match pending with
      | some spec => .error (.missingValue spec.long)
      | none => .ok m
  | word :: rest =>
      let positional : Except UsageFault Matches :=
        if g.takesWords then readWords g none plain { m with words := word :: m.words } rest
        else .error (.unexpected word)
      if plain then positional
      else
        match pending with
        | some spec =>
            if (Word.ofText word).isValue then do
              let m ← m.note spec word
              readWords g none false m rest
            else .error (.missingValue spec.long)
        | none =>
            match Word.ofText word with
            | .divider => readWords g none true m rest
            | .plain => positional
            | .long name attached =>
                if name = "help" ∧ attached = none then .ok { m with help := true }
                else
                  match g.long? name with
                  | none => .error (.unexpected word)
                  | some spec => do
                      match spec.takesValue, attached with
                      | true, some value =>
                          let m ← m.note spec value
                          readWords g none false m rest
                      | true, none => readWords g (some spec) false m rest
                      | false, none =>
                          let m ← m.note spec ""
                          readWords g none false m rest
                      | false, some _ => throw (.unexpected word)
            | .letters c value =>
                if c = 'h' then .ok { m with help := true }
                else
                  match g.letter? c with
                  | none => .error (.unexpected word)
                  | some spec => do
                      match attachedValue value with
                      | some value =>
                          let m ← m.note spec value
                          readWords g none false m rest
                      | none => readWords g (some spec) false m rest

def read (g : Grammar) (words : List String) : Except UsageFault Matches :=
  g.readWords none false .empty words

end Grammar

/-- A command line with the environment that it is given in. -/
structure Invocation where
  found : Matches
  environment : List (String × String)

namespace Invocation

/-- The text of an option. Where help was asked for, the environment is of no account. -/
def text? (i : Invocation) (spec : OptionSpec) : Option String :=
  match i.found.options.lookup spec.long with
  | some value => some value
  | none =>
      if i.found.help then none
      else spec.envName.bind fun name => i.environment.lookup name

def value? {α : Type} (i : Invocation) (spec : OptionSpec) (parse : String → Option α) :
    Except UsageFault (Option α) :=
  match i.text? spec with
  | none => .ok none
  | some text =>
      match parse text with
      | some a => .ok (some a)
      | none => .error (.invalidValue spec.long text)

end Invocation

def digits? (cs : List Char) : Option Nat :=
  if cs ≠ [] ∧ cs.all Char.isDigit = true then
    some (cs.foldl (fun n c => 10 * n + (c.toNat - 48)) 0)
  else none

/-- A natural number below a bound; a plus sign may stand in front of it. -/
def natural? (bound : Nat) (text : String) : Option Nat := do
  let n ← match text.toList with
    | '+' :: rest => digits? rest
    | cs => digits? cs
  if n < bound then some n else none

/-- A 32-bit number; a plus sign may stand in front of it, and a minus sign in front of zero. -/
def word32? (text : String) : Option UInt32 :=
  match text.toList with
  | '-' :: rest => if digits? rest = some 0 then some 0 else none
  | _ => (natural? UInt32.size text).map UInt32.ofNat

/-- The name of a file, which is not empty. -/
def fileName? (text : String) : Option String :=
  if text.isEmpty then none else some text

end SecureChannel.Command
