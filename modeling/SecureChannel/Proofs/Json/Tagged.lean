import SecureChannel.Json.Reader
import SecureChannel.Proofs.Checked
import SecureChannel.Proofs.Json.Lexing

/-!
# Tagged records whose values are texts or null

Reading an object member by member is a fold over its members: `readMembers_entries` says so for
every reader that takes a member off the tokens and leaves the rest alone. For a tagged record it
follows that its kind may stand anywhere: what is collected are the other members, in their order.
-/

namespace SecureChannel.Json

variable {tag name : String} {names : List String} {levels : Nat}
variable {entries before after : List Entry}

def ofOptional : Option String → Json
  | none => .null
  | some written => .text written

def content (entry : Entry) : String × Json := (entry.1, ofOptional entry.2)

/-! ### Objects -/

theorem length_le_length_memberTokens (first : Bool) (entries : List Entry) :
    entries.length ≤ (memberTokens first entries).length := by
  induction entries generalizing first with
  | nil => exact Nat.zero_le _
  | cons entry entries ih =>
    have rest := ih false
    simp only [memberTokens, List.length_append, List.length_cons]
    omega

/-- A reader that takes one member at a time, and leaves what stands behind it alone, folds the
members of an object. -/
theorem readMembers_entries {σ : Type} {member : σ → String → Reader σ}
    {take : σ → Entry → Except Error σ}
    (takes : ∀ state entry rest, member state entry.1 (.colon :: valueToken entry.2 :: rest) =
      (take state entry).map (·, rest))
    (first : Bool) (state : σ) {fuel : Nat} (enough : entries.length < fuel) :
    readMembers member fuel first state (memberTokens first entries) =
      (entries.foldlM take state).map (·, []) := by
  induction entries generalizing first state fuel with
  | nil =>
    obtain ⟨fuel, rfl⟩ := Nat.exists_eq_succ_of_ne_zero (Nat.ne_of_gt enough)
    cases first <;> rfl
  | cons entry entries ih =>
    cases fuel with
    | zero => exact absurd enough (Nat.not_lt_zero _)
    | succ fuel =>
      have enough : entries.length < fuel := Nat.lt_of_succ_lt_succ enough
      have step :
          readMembers member (fuel + 1) first state (memberTokens first (entry :: entries)) =
          (take state entry >>= fun next =>
            readMembers member fuel false next (memberTokens false entries)) := by
        have one := takes state entry (memberTokens false entries)
        cases first <;>
          simp only [memberTokens, Bool.false_eq_true, if_false, if_true, List.cons_append,
            List.nil_append, readMembers, one, bind, Except.bind, Except.map] <;>
          cases take state entry <;> rfl
      rw [step, List.foldlM_cons]
      cases take state entry with
      | error e => rfl
      | ok next => exact ih false next enough

/-! ### Tagged records -/

namespace Tagged

/-- What becomes of the members of a tagged record that were collected, with one more. -/
def take (tag : String) (names : List String) (t : Tagged) (entry : Entry) :
    Except Error Tagged :=
  if entry.1 = tag then
    if t.kind.isSome then .error (.duplicateField tag)
    else
      match entry.2 with
      | none => .error .malformed
      | some name => (variant names name).map fun name => { t with kind := some name }
  else .ok { t with members := content entry :: t.members }

theorem read_value (value : Option String) (rest : List Token) :
    read (.strict levels) (valueToken value :: rest) = .ok (ofOptional value, rest) := by
  cases value <;> simp [valueToken, ofOptional, read, readFrom, readFrom.start, scalar?, Care.text?]

theorem member_entry (t : Tagged) (entry : Entry) (rest : List Token) :
    t.member tag names levels entry.1 (.colon :: valueToken entry.2 :: rest) =
      (t.take tag names entry).map (·, rest) := by
  obtain ⟨key, value⟩ := entry
  simp only [Tagged.member, take]
  split
  · split
    · rfl
    · cases value with
      | none => rfl
      | some name =>
        simp only [readColon, valueToken, readText, bind, Except.bind]
        cases variant names name <;> rfl
  · simp only [readColon, read_value, bind, Except.bind]
    rfl

/-- Members that are not the tag are collected. -/
theorem foldlM_take_others (others : ∀ entry ∈ entries, entry.1 ≠ tag) (t : Tagged) :
    entries.foldlM (take tag names) t =
      .ok { t with members := (entries.map content).reverse ++ t.members } := by
  induction entries generalizing t with
  | nil => rfl
  | cons entry entries ih =>
    have one : t.take tag names entry = .ok { t with members := content entry :: t.members } :=
      if_neg (others entry (.head _))
    rw [List.foldlM_cons, bind_eq_ok_iff]
    refine ⟨_, one, (ih (fun entry mem => others entry (.tail _ mem)) _).trans ?_⟩
    simp

/-- The tag may stand anywhere, once. -/
theorem foldlM_take_tagged (known : name ∈ names)
    (others : ∀ entry ∈ before ++ after, entry.1 ≠ tag) :
    (before ++ (tag, some name) :: after).foldlM (take tag names) ⟨none, []⟩ =
      .ok ⟨some name, ((before ++ after).map content).reverse⟩ := by
  have inFront : before.foldlM (take tag names) ⟨none, []⟩ = _ :=
    foldlM_take_others (fun entry mem => others entry (List.mem_append_left _ mem)) _
  have tagged : take tag names ⟨none, (before.map content).reverse ++ []⟩ (tag, some name) =
      .ok ⟨some name, (before.map content).reverse⟩ := by
    simp [take, variant, known, Except.map]
  have behind : after.foldlM (take tag names) ⟨some name, (before.map content).reverse⟩ = _ :=
    foldlM_take_others (fun entry mem => others entry (List.mem_append_right _ mem)) _
  rw [List.foldlM_append, bind_eq_ok_iff]
  refine ⟨_, inFront, ?_⟩
  rw [List.foldlM_cons, bind_eq_ok_iff, List.map_append, List.reverse_append]
  exact ⟨_, tagged, behind⟩

end Tagged

/-- A tagged record is read wherever its kind stands. -/
theorem readTagged_entries (known : name ∈ names)
    (others : ∀ entry ∈ before ++ after, entry.1 ≠ tag) :
    readTagged tag names levels
        (.openObject :: memberTokens true (before ++ (tag, some name) :: after)) =
      .ok ((name, .members ((before ++ after).map content)), []) := by
  have members := readMembers_entries (@Tagged.member_entry tag names (levels - 1)) true ⟨none, []⟩
    (Nat.lt_succ_of_le (length_le_length_memberTokens true (before ++ (tag, some name) :: after)))
  rw [Tagged.foldlM_take_tagged known others] at members
  simp only [readTagged, readObject, bind, Except.bind]
  rw [members]
  simp only [Except.map, List.reverse_reverse]
  rfl

end SecureChannel.Json
