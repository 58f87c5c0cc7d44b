import SecureChannel.Proofs.Json.Spelling

/-!
# Documents are divided into the tokens that they are made of

`Lexes octets tokens` says that octets are divided into tokens whatever stands behind them. It holds
of blanks, of each token, and of what is put together from such octets.

An object whose values are texts or null has many layouts: blanks may stand around all of its parts,
and every text may be spelled in each of its ways. `WritesObject` is the choice of one of them. All
layouts of an object are divided into the same tokens, and the one that is written has no blanks.
-/

namespace SecureChannel.Json

open Bytes

variable {octets octets' : Bytes} {tokens tokens' : List Token} {token : Token} {text : String}

/-! ### Token by token -/

/-- Octets are divided into tokens, whatever stands behind them. -/
def Lexes (octets : Bytes) (tokens : List Token) : Prop :=
  ∀ before fuel rest, octets.length ≤ fuel → ∃ left, fuel - octets.length ≤ left ∧
    lexAll before fuel (octets ++ rest) = lexAll (tokens.reverse ++ before) left rest

theorem Lexes.nil : Lexes [] [] := by
  intro before fuel rest _
  exact ⟨fuel, Nat.sub_le _ _, rfl⟩

theorem Lexes.append (first : Lexes octets tokens) (second : Lexes octets' tokens') :
    Lexes (octets ++ octets') (tokens ++ tokens') := by
  intro before fuel rest enough
  rw [List.length_append] at enough ⊢
  obtain ⟨left, atLeast, step⟩ := first before fuel (octets' ++ rest) (by omega)
  obtain ⟨left', atLeast', step'⟩ := second (tokens.reverse ++ before) left rest (by omega)
  refine ⟨left', by omega, ?_⟩
  rw [List.append_assoc, step, step', List.reverse_append, List.append_assoc]

/-- What a document is divided into. -/
theorem Lexes.lex (lexes : Lexes octets tokens) : lex octets = tokens := by
  obtain ⟨left, -, step⟩ := lexes [] octets.length [] (Nat.le_refl _)
  rw [List.append_nil] at step
  rw [Json.lex, step, List.append_nil]
  cases left <;> exact List.reverse_reverse tokens

theorem lexes_blank {c : UInt8} (blank : isSpace c = true) : Lexes [c] [] := by
  intro before fuel rest enough
  cases fuel with
  | zero => exact absurd enough (by simp)
  | succ fuel =>
    refine ⟨fuel, by simp, ?_⟩
    rw [List.cons_append, lexAll, blank, if_pos rfl]
    rfl

/-- Octets that start no blank and are one token wherever they stand. -/
theorem lexes_of_lexFrom {c : UInt8} (solid : isSpace c = false)
    (one : ∀ rest, lexFrom c (octets ++ rest) = some (token, rest)) :
    Lexes (c :: octets) [token] := by
  intro before fuel rest enough
  cases fuel with
  | zero => exact absurd enough (by simp)
  | succ fuel =>
    refine ⟨fuel, by simp, ?_⟩
    rw [List.cons_append, lexAll, solid, one]
    rfl

theorem lexes_openObject : Lexes [123] [.openObject] := lexes_of_lexFrom rfl fun _ => rfl

theorem lexes_closeObject : Lexes [125] [.closeObject] := lexes_of_lexFrom rfl fun _ => rfl

theorem lexes_colon : Lexes [58] [.colon] := lexes_of_lexFrom rfl fun _ => rfl

theorem lexes_comma : Lexes [44] [.comma] := lexes_of_lexFrom rfl fun _ => rfl

theorem lexes_null : Lexes (ofText "null") [.null] := lexes_of_lexFrom rfl fun _ => rfl

/-- A string is one token, however it is spelled. -/
theorem Spells.lexes (spells : Spells text octets) : Lexes octets [.text (some text)] := by
  obtain ⟨inside⟩ := spells
  apply lexes_of_lexFrom rfl
  intro rest
  have content := inside.lexString [] rest
  rw [List.nil_append, ← ofText_eq, Content.toText?_read] at content
  rw [List.append_assoc, List.singleton_append]
  change (lexString (.read []) _).map _ = _
  rw [content]
  rfl

/-! ### Layouts of an object -/

/-- A member of an object, whose value is a text or null. -/
abbrev Entry := String × Option String

/-- Octets that may stand between tokens: spaces, tabs and ends of lines. -/
def Blanks (octets : Bytes) : Prop :=
  ∀ c ∈ octets, c = 32 ∨ c = 9 ∨ c = 10 ∨ c = 13

/-- Octets are a value, with no blanks around it. -/
inductive WritesValue : Option String → Bytes → Prop
  | null : WritesValue none (ofText "null")
  | text {text : String} {octets : Bytes} (spells : Spells text octets) :
      WritesValue (some text) octets

/-- Octets are a member, with blanks around its key and its value. -/
inductive WritesEntry : Entry → Bytes → Prop
  | mk {key : String} {value : Option String} {written writtenValue a b c d : Bytes}
      (spells : Spells key written) (writes : WritesValue value writtenValue)
      (front : Blanks a ∧ Blanks b) (back : Blanks c ∧ Blanks d) :
      WritesEntry (key, value) (a ++ written ++ b ++ [58] ++ (c ++ writtenValue ++ d))

/-- Octets are one member or more, with a comma between each and the next. -/
inductive WritesEntries : List Entry → Bytes → Prop
  | one {entry : Entry} {octets : Bytes} (writes : WritesEntry entry octets) :
      WritesEntries [entry] octets
  | more {entry : Entry} {entries : List Entry} {first rest : Bytes}
      (writes : WritesEntry entry first) (writesRest : WritesEntries entries rest) :
      WritesEntries (entry :: entries) (first ++ [44] ++ rest)

/-- A document is an object with the given members in the given order, and nothing but blanks around
it. -/
inductive WritesObject : List Entry → Bytes → Prop
  | empty {front inside back : Bytes} (blanks : Blanks front ∧ Blanks inside ∧ Blanks back) :
      WritesObject [] (front ++ ([123] ++ inside ++ [125]) ++ back)
  | members {entries : List Entry} {front octets back : Bytes}
      (writes : WritesEntries entries octets) (blanks : Blanks front ∧ Blanks back) :
      WritesObject entries (front ++ ([123] ++ octets ++ [125]) ++ back)

def valueToken : Option String → Token
  | none => .null
  | some written => .text (some written)

/-- The tokens of the members of an object and of its closing brace. -/
def memberTokens (first : Bool) : List Entry → List Token
  | [] => [.closeObject]
  | (key, value) :: members =>
      (if first then [] else [.comma]) ++
        .text (some key) :: .colon :: valueToken value :: memberTokens false members

variable {entry : Entry} {entries : List Entry} {value : Option String}

theorem lexes_blanks (blanks : Blanks octets) : Lexes octets [] := by
  induction octets with
  | nil => exact .nil
  | cons c octets ih =>
    have blank : isSpace c = true := by
      rcases blanks c (.head _) with rfl | rfl | rfl | rfl <;> rfl
    exact (lexes_blank blank).append (ih fun c mem => blanks c (.tail _ mem))

/-- Blanks around tokens make no difference. -/
theorem Lexes.between (lexes : Lexes octets tokens) {front back : Bytes}
    (blanks : Blanks front ∧ Blanks back) : Lexes (front ++ octets ++ back) tokens := by
  have surrounded := ((lexes_blanks blanks.1).append lexes).append (lexes_blanks blanks.2)
  rwa [List.nil_append, List.append_nil] at surrounded

theorem WritesValue.lexes (writes : WritesValue value octets) :
    Lexes octets [valueToken value] := by
  cases writes with
  | null => exact lexes_null
  | text spells => exact spells.lexes

theorem WritesEntry.lexes (writes : WritesEntry entry octets) :
    Lexes octets [.text (some entry.1), .colon, valueToken entry.2] := by
  obtain ⟨spells, writes, front, back⟩ := writes
  exact ((spells.lexes.between front).append lexes_colon).append (writes.lexes.between back)

theorem WritesEntries.lexes (writes : WritesEntries entries octets) :
    Lexes (octets ++ [125]) (memberTokens true entries) := by
  induction writes with
  | one writes => exact writes.lexes.append lexes_closeObject
  | @more entry entries first rest writes writesRest ih =>
    have separated : memberTokens false entries = .comma :: memberTokens true entries := by
      cases writesRest <;> rfl
    have tokens := (writes.lexes.append lexes_comma).append ih
    rw [← List.append_assoc] at tokens
    simpa [memberTokens, separated] using tokens

/-- Every layout of an object is divided into the tokens of its members. -/
theorem WritesObject.lexes (writes : WritesObject entries octets) :
    Lexes octets (.openObject :: memberTokens true entries) := by
  cases writes with
  | empty blanks =>
    obtain ⟨front, inside, back⟩ := blanks
    refine Lexes.between ?_ ⟨front, back⟩
    exact (lexes_openObject.append (lexes_blanks inside)).append lexes_closeObject
  | members writes blanks =>
    refine Lexes.between ?_ blanks
    rw [List.append_assoc]
    exact lexes_openObject.append writes.lexes

/-! ### The layout that is written -/

theorem blanks_nil : Blanks [] := by simp [Blanks]

theorem writesEntry_print (key text : String) :
    WritesEntry (key, some text) (ofText (printText key ++ ":" ++ printText text)) := by
  have none : Blanks [] ∧ Blanks [] := ⟨blanks_nil, blanks_nil⟩
  have writes := WritesEntry.mk (spells_printText key) (.text (spells_printText text)) none none
  have colon : ofText ":" = [58] := rfl
  rw [ofText_append, ofText_append, colon]
  simpa using writes

theorem writesEntries_print (member : String × String) (members : List (String × String)) :
    WritesEntries ((member :: members).map fun (key, written) => (key, some written))
      (ofText (",".intercalate ((member :: members).map fun (key, written) =>
        printText key ++ ":" ++ printText written))) := by
  have comma : ofText "," = [44] := rfl
  induction members generalizing member with
  | nil => exact .one (writesEntry_print member.1 member.2)
  | cons next members ih =>
    have writes := WritesEntries.more (writesEntry_print member.1 member.2) (ih next)
    rw [← comma, ← ofText_append, ← ofText_append] at writes
    simpa only [List.map_cons, String.intercalate_cons_cons] using writes

/-- An object of texts is written in one of its layouts. -/
theorem writesObject_printObject (members : List (String × String)) :
    WritesObject (members.map fun (key, written) => (key, some written))
      (ofText (printObject (members.map fun (key, written) => (key, printText written)))) := by
  have openBrace : ofText "\x7b" = [123] := rfl
  have closeBrace : ofText "\x7d" = [125] := rfl
  have nothing : ofText "" = [] := rfl
  rw [printObject, List.map_map, ofText_append, ofText_append, openBrace, closeBrace]
  cases members with
  | nil => simpa [nothing] using WritesObject.empty ⟨blanks_nil, blanks_nil, blanks_nil⟩
  | cons member members =>
    have writes :=
      WritesObject.members (writesEntries_print member members) ⟨blanks_nil, blanks_nil⟩
    rw [List.nil_append, List.append_nil] at writes
    exact writes

end SecureChannel.Json
