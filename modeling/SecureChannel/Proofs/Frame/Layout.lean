import SecureChannel.Proofs.Frame.RoundTrip

/-!
# A frame does not depend on its layout

A frame can be written as an object in many ways: with its members in any order, the kind among
them; with the members that it leaves out as null; with members that its kind does not have; with
blanks around everything, and with every text spelled in any of its ways. `Lists` says which members
an object has to have to be that frame, and `decode_any_layout` that all documents that are such an
object are read as it, however they are laid out.

Members may come in any order because each of them fills places of its own: what is known after some
members is the union of what each of them says (`put_ok_iff`), and a union of disjoint parts does
not depend on their order.
-/

namespace SecureChannel.Frame

variable {kind : Kind} {f g h : Fields} {key other name : String} {u v : Json}

/-! ### The order of members -/

namespace Fields

def Disjoint (f g : Fields) : Prop :=
  (f.token = none ∨ g.token = none) ∧ (f.query = none ∨ g.query = none) ∧
    (f.bytes = none ∨ g.bytes = none) ∧ (f.outcome = none ∨ g.outcome = none)

def union (f g : Fields) : Fields :=
  ⟨f.token.or g.token, f.query.or g.query, f.bytes.or g.bytes, f.outcome.or g.outcome⟩

theorem disjoint_empty (f : Fields) : f.Disjoint empty := ⟨.inr rfl, .inr rfl, .inr rfl, .inr rfl⟩

@[simp] theorem union_empty (f : Fields) : f.union empty = f := by
  simp [union, empty]

/-- One place of a union of three parts, where the last two are exchanged. -/
theorem or_exchange {α : Type} {a b c : Option α} (first : a = none ∨ b = none)
    (second : a.or b = none ∨ c = none) :
    (a = none ∨ c = none) ∧ (a.or c = none ∨ b = none) ∧ (a.or b).or c = (a.or c).or b := by
  cases a with
  | none => cases b <;> cases c <;> simp_all
  | some a => simp_all

/-- The last two parts of a union can be exchanged. -/
theorem union_exchange (first : f.Disjoint g) (second : (f.union g).Disjoint h) :
    f.Disjoint h ∧ (f.union h).Disjoint g ∧ (f.union g).union h = (f.union h).union g := by
  obtain ⟨token, query, bytes, outcome⟩ := first
  obtain ⟨token', query', bytes', outcome'⟩ := second
  obtain ⟨apartToken, leftToken, sameToken⟩ := or_exchange token token'
  obtain ⟨apartQuery, leftQuery, sameQuery⟩ := or_exchange query query'
  obtain ⟨apartBytes, leftBytes, sameBytes⟩ := or_exchange bytes bytes'
  obtain ⟨apartOutcome, leftOutcome, sameOutcome⟩ := or_exchange outcome outcome'
  refine ⟨⟨apartToken, apartQuery, apartBytes, apartOutcome⟩,
    ⟨leftToken, leftQuery, leftBytes, leftOutcome⟩, ?_⟩
  simp only [union]
  rw [sameToken, sameQuery, sameBytes, sameOutcome]

end Fields

open Fields

/-- A place that is filled once says the same on its own. -/
theorem once_ok_iff {α β : Type} {place : Fields → Option α} {fill : Fields → β → Fields}
    {value : Except Json.Error β} (alone : place empty = none)
    (fills : ∀ b, value = .ok b → (f.Disjoint (fill empty b) ↔ place f = none))
    (joined : ∀ b, place f = none → fill f b = f.union (fill empty b)) :
    (do once key (place f); let b ← value; return fill f b) = .ok g ↔
      ∃ said, (do once key (place empty); let b ← value; return fill empty b) = .ok said ∧
        f.Disjoint said ∧ g = f.union said := by
  rw [alone]
  cases read : value with
  | error e => cases place f <;> simp [once, bind, Except.bind]
  | ok b =>
    have apart := fills b read
    cases seen : place f with
    | none => simp [once, bind, Except.bind, pure, Except.pure, apart, seen, joined, eq_comm]
    | some a => simp [once, bind, Except.bind, pure, Except.pure, apart, seen]

theorem mem_of_variant? {names : List String} (read : Json.variant? names v = .ok name) :
    name ∈ names := by
  have listed : ∀ {found}, Json.variant names found = .ok name → name ∈ names := by
    intro found read
    rw [Json.variant] at read
    split at read
    case isTrue mem => exact Except.ok.inj read ▸ mem
    case isFalse => contradiction
  unfold Json.variant? at read
  split at read
  · exact listed read
  · obtain ⟨found, known, read⟩ := bind_eq_ok_iff.mp read
    have same : found = name := by
      split at read <;> first | exact Except.ok.inj read | contradiction
    exact listed (same ▸ known)
  · contradiction

theorem ofWireName?_isSome (mem : name ∈ Outcome.all.map Outcome.wireName) :
    (Outcome.ofWireName? name).isSome := by
  obtain ⟨outcome, -, rfl⟩ := List.mem_map.mp mem
  rw [Outcome.ofWireName?_wireName]
  rfl

/-- A member says the same wherever it stands: it is taken in when the places that it fills are
empty, and nothing else is changed. -/
theorem put_ok_iff : f.put kind key v = .ok g ↔
    ∃ said, Fields.empty.put kind key v = .ok said ∧ f.Disjoint said ∧ g = f.union said := by
  simp only [Fields.put]
  split
  case isTrue unknown => simp [disjoint_empty, pure, Except.pure, eq_comm]
  split
  case isTrue token =>
    apply once_ok_iff rfl
    · simp [Fields.Disjoint, empty]
    · simp +contextual [union, empty]
  split
  case isTrue query =>
    apply once_ok_iff rfl
    · simp [Fields.Disjoint, empty]
    · simp +contextual [union, empty]
  split
  case isTrue outcome =>
    apply once_ok_iff rfl
    · intro name read
      have known := ofWireName?_isSome (mem_of_variant? read)
      simp [Fields.Disjoint, empty, Option.ne_none_iff_isSome.mpr known]
    · simp +contextual [union, empty]
  case isFalse =>
    apply once_ok_iff rfl
    · simp [Fields.Disjoint, empty]
    · simp +contextual [union, empty]

theorem put_exchange (first : f.put kind key u = .ok g) (second : g.put kind other v = .ok h) :
    ∃ g', f.put kind other v = .ok g' ∧ g'.put kind key u = .ok h := by
  obtain ⟨one, saysOne, apart, rfl⟩ := put_ok_iff.mp first
  obtain ⟨two, saysTwo, apart', rfl⟩ := put_ok_iff.mp second
  obtain ⟨apartTwo, apartOne, same⟩ := union_exchange apart apart'
  exact ⟨f.union two, put_ok_iff.mpr ⟨two, saysTwo, apartTwo, rfl⟩,
    put_ok_iff.mpr ⟨one, saysOne, apartOne, same⟩⟩

/-! ### Members that say nothing -/

namespace Fields

def Vacant (f : Fields) (name : String) : Prop :=
  name = "token" ∧ f.token = none ∨ name = "query" ∧ f.query = none

end Fields

/-- An optional member that is null is as good as one that is left out. -/
theorem put_null (known : kind.fields.contains name = true) (vacant : f.Vacant name) :
    ∃ g, f.put kind name .null = .ok g ∧
      (∀ absent, g.toFrame kind absent = f.toFrame kind absent) ∧
      ∀ other, other ≠ name → f.Vacant other → g.Vacant other := by
  obtain ⟨rfl, unread⟩ | ⟨rfl, unread⟩ := vacant
  · refine ⟨{ f with token := some none }, ?_, ?_, ?_⟩
    · simp only [Fields.put, known, once, unread]
      rfl
    · intro absent
      simp only [toFrame, unread, Option.join_some, Option.join_none]
    · intro other ne vacant
      exact .inr (vacant.resolve_left fun token => ne token.1)
  · refine ⟨{ f with query := some none }, ?_, ?_, ?_⟩
    · simp only [Fields.put, known, once, unread]
      rfl
    · intro absent
      simp only [toFrame, unread, Option.join_some, Option.join_none]
    · intro other ne vacant
      exact .inl (vacant.resolve_right fun query => ne query.1)

/-- Any of the optional members that were not read may be null, each once. -/
theorem foldlM_nulls {nulls : List String} (distinct : nulls.Nodup)
    (known : ∀ name ∈ nulls, kind.fields.contains name = true)
    (vacant : ∀ name ∈ nulls, f.Vacant name) :
    ∃ g, (nulls.map fun name => (name, Json.null)).foldlM
        (fun f (name, value) => Fields.put kind f name value) f = .ok g ∧
      ∀ absent, g.toFrame kind absent = f.toFrame kind absent := by
  induction nulls generalizing f with
  | nil => exact ⟨f, rfl, fun _ => rfl⟩
  | cons name nulls ih =>
    obtain ⟨notAgain, distinct⟩ := List.nodup_cons.mp distinct
    obtain ⟨next, put, same, still⟩ := put_null (known name (.head _)) (vacant name (.head _))
    have vacant : ∀ other ∈ nulls, next.Vacant other := by
      intro other mem
      exact still other (fun eq => notAgain (eq ▸ mem)) (vacant other (.tail _ mem))
    obtain ⟨g, run, same'⟩ := ih distinct (fun other mem => known other (.tail _ mem)) vacant
    refine ⟨g, ?_, fun absent => (same' absent).trans (same absent)⟩
    rw [List.map_cons, List.foldlM_cons, bind_eq_ok_iff]
    exact ⟨next, put, run⟩

theorem foldlM_strange {others : List (String × String)}
    (strange : ∀ other ∈ others, other.1 ∉ kind.fields) (f : Fields) :
    (others.map fun other => (other.1, Json.text other.2)).foldlM
      (fun f (name, value) => Fields.put kind f name value) f = .ok f := by
  induction others with
  | nil => rfl
  | cons other others ih =>
    have ignored : f.put kind other.1 (.text other.2) = .ok f := by
      have unknown := strange other (.head _)
      simp [Fields.put, unknown, pure, Except.pure]
    rw [List.map_cons, List.foldlM_cons, bind_eq_ok_iff]
    exact ⟨f, ignored, ih fun other mem => strange other (.tail _ mem)⟩

/-! ### All layouts of a frame -/

def leftOut (frame : Frame) : List String :=
  frame.kind.fields.filter fun name => name ∉ frame.texts.map Prod.fst

/-- The members of a frame, with nulls under the given names and with other texts. -/
def listed (frame : Frame) (nulls : List String) (others : List (String × String)) :
    List Json.Entry :=
  (frame.texts.map fun member => (member.1, some member.2)) ++
    ((nulls.map fun name => (name, none)) ++ others.map fun other => (other.1, some other.2))

/-- The members of an object that is the frame: its kind and its own members; some of the members
that it leaves out, as null; and texts under names that its kind does not have. They may stand in
any order. -/
inductive Lists (frame : Frame) (entries : List Json.Entry) : Prop
  | mk (nulls : List String) (others : List (String × String)) (distinct : nulls.Nodup)
      (absent : ∀ name ∈ nulls, name ∈ frame.leftOut)
      (strange : ∀ other ∈ others, other.1 ≠ "type" ∧ other.1 ∉ frame.kind.fields)
      (order : entries.Perm (("type", some frame.kind.wireName) :: frame.listed nulls others))

/-- What a frame leaves out does not take the place of the kind. -/
theorem ne_type_of_mem_leftOut {frame : Frame} (absent : name ∈ frame.leftOut) : name ≠ "type" := by
  rintro rfl
  have unknown : "type" ∉ frame.kind.fields := by
    cases frame.kind <;> decide
  exact unknown (List.mem_filter.mp absent).1

/-- What a frame leaves out is optional, and was not read. -/
theorem vacant_of_mem_leftOut {frame : Frame} (absent : name ∈ frame.leftOut) :
    frame.kind.fields.contains name = true ∧ frame.collected.Vacant name := by
  obtain ⟨known, left⟩ := List.mem_filter.mp absent
  refine ⟨List.contains_iff_mem.mpr known, ?_⟩
  rw [decide_eq_true_eq] at left
  cases frame with
  | keyRequest => cases known
  | key publicKey => simp_all [kind, Kind.fields, texts]
  | handshake token payload =>
    cases token <;> simp_all [kind, Kind.fields, texts, optional, collected, Vacant]
  | message token query body =>
    cases token <;> cases query <;>
      simp_all [kind, Kind.fields, texts, optional, collected, Vacant]
  | close token query body =>
    cases token <;> cases query <;>
      simp_all [kind, Kind.fields, texts, optional, collected, Vacant]
  | reply token outcome body =>
    cases token <;> simp_all [kind, Kind.fields, texts, optional, collected, Vacant]

/-- The members of a frame, nulls and strange members say what the frame does. -/
theorem foldlM_listed (frame : Frame) {nulls : List String} {others : List (String × String)}
    (distinct : nulls.Nodup) (absent : ∀ name ∈ nulls, name ∈ frame.leftOut)
    (strange : ∀ other ∈ others, other.1 ∉ frame.kind.fields) :
    ∃ g, ((frame.listed nulls others).map Json.content).foldlM
        (fun f (name, value) => Fields.put frame.kind f name value) Fields.empty = .ok g ∧
      g.toFrame frame.kind .missingField = .ok frame := by
  obtain ⟨g, nothing, same⟩ := foldlM_nulls distinct
    (fun name mem => (vacant_of_mem_leftOut (absent name mem)).1)
    (fun name mem => (vacant_of_mem_leftOut (absent name mem)).2)
  refine ⟨g, ?_, (same _).trans (frame.toFrame_collected _)⟩
  simp only [listed, List.map_append, List.map_map, List.foldlM_append, bind_eq_ok_iff]
  exact ⟨frame.collected, frame.foldlM_texts, g, nothing, foldlM_strange strange g⟩

/-- No other member takes the place of the kind. -/
theorem ne_type_of_mem_listed {frame : Frame} {nulls : List String}
    {others : List (String × String)} (absent : ∀ name ∈ nulls, name ∈ frame.leftOut)
    (strange : ∀ other ∈ others, other.1 ≠ "type") :
    ∀ entry ∈ frame.listed nulls others, entry.1 ≠ "type" := by
  intro entry mem
  rw [listed, List.mem_append, List.mem_append] at mem
  rcases mem with own | null | other
  · obtain ⟨member, mem, rfl⟩ := List.mem_map.mp own
    exact frame.ne_type_of_mem_texts member mem
  · obtain ⟨name, mem, rfl⟩ := List.mem_map.mp null
    exact ne_type_of_mem_leftOut (absent name mem)
  · obtain ⟨member, mem, rfl⟩ := List.mem_map.mp other
    exact strange member mem

/-- A frame that is written is read back, and so is every other document that lists it: the members
may stand in any order, what the frame leaves out may be null, texts under other names may be added,
and blanks and the spelling of texts make no difference. -/
theorem decode_any_layout (frame : Frame) :
    decode frame.encode = .ok frame ∧
      ∀ entries document, frame.Lists entries → Json.WritesObject entries document →
        decode document = .ok frame := by
  refine ⟨frame.decode_encode, ?_⟩
  rintro entries document ⟨nulls, others, distinct, absent, strange, order⟩ writes
  -- The kind stands somewhere, and the members around it are the listed ones in some order.
  obtain ⟨before, after, rfl⟩ := List.append_of_mem (order.mem_iff.mpr (.head _))
  have order := (List.perm_middle.symm.trans order).cons_inv
  have notKind : ∀ entry ∈ before ++ after, entry.1 ≠ "type" := by
    intro entry mem
    exact ne_type_of_mem_listed absent (fun other mem => (strange other mem).1) entry
      (order.mem_iff.mp mem)
  obtain ⟨g, run, made⟩ :=
    frame.foldlM_listed distinct absent fun other mem => (strange other mem).2
  rw [decode_of_lex writes.lexes.lex notKind, ofBody, bind_eq_ok_iff]
  refine ⟨g, foldlM_perm ?_ (order.map Json.content).symm run, made⟩
  intro s t u a b first second
  exact put_exchange first second

/-- A message with its kind last, a null, a member of no kind, blanks, and an escape. -/
def shuffled : Bytes :=
  Bytes.ofText ("\x7b \"note\":\"x\",\"body\":\"AA=\\u003D\" ," ++
    "\"token\":null,\"type\":\"message\"\x7d\n")

/-- It is the message with one octet, without token and query. -/
theorem decode_any_layout_shuffled : decode shuffled = .ok (.message none none [0]) := by
  have nothing := Json.blanks_nil
  have space : Json.Blanks [32] := by simp [Json.Blanks]
  have newline : Json.Blanks [10] := by simp [Json.Blanks]
  have zero : Json.IsHexDigit 48 0 := ⟨by decide, .inl rfl⟩
  have three : Json.IsHexDigit 51 3 := ⟨by decide, .inl rfl⟩
  have thirteen : Json.IsHexDigit 68 13 := ⟨by decide, .inr rfl⟩
  have escape : Json.IsUnitEscape '='.toNat [92, 117, 48, 48, 51, 68] :=
    .mk zero zero three thirteen
  have inside : Json.SpellsChars "AA==".toList ([65] ++ ([65] ++ ([61] ++ (_ ++ [])))) :=
    .cons (.plain (by decide) (by decide) (by decide)) <|
      .cons (.plain (by decide) (by decide) (by decide)) <|
        .cons (.plain (by decide) (by decide) (by decide)) <| .cons (.unit escape) .nil
  have padded : Json.Spells "AA==" (Bytes.ofText "\"AA=\\u003D\"") := .mk inside
  have note := Json.WritesEntry.mk (Json.spells_printText "note")
    (.text (Json.spells_printText "x")) ⟨space, nothing⟩ ⟨nothing, nothing⟩
  have body := Json.WritesEntry.mk (Json.spells_printText "body") (.text padded)
    ⟨nothing, nothing⟩ ⟨nothing, space⟩
  have token := Json.WritesEntry.mk (Json.spells_printText "token") .null
    ⟨nothing, nothing⟩ ⟨nothing, nothing⟩
  have tag := Json.WritesEntry.mk (Json.spells_printText "type")
    (.text (Json.spells_printText "message")) ⟨nothing, nothing⟩ ⟨nothing, nothing⟩
  have writes : Json.WritesObject [("note", some "x"), ("body", some "AA=="), ("token", none),
      ("type", some "message")] shuffled :=
    .members (.more note (.more body (.more token (.one tag)))) ⟨nothing, newline⟩
  refine (decode_any_layout (.message none none [0])).2 _ _ ?_ writes
  exact .mk ["token"] [("note", "x")] (by decide) (by decide) (by decide) (by decide)

end SecureChannel.Frame
