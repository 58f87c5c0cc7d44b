import SecureChannel.Frame.Decode
import SecureChannel.Proofs.Bytes.Base64
import SecureChannel.Proofs.Checked
import SecureChannel.Proofs.Json.Tagged

/-!
# Frames are read back

Every member of a written frame is a text: a name, a query, or octets in base64. So a datagram is
divided into the kind and the members one by one, a tagged record of texts is read member by member,
and what the members stand for is the frame that was written.
-/

namespace SecureChannel

namespace Frame

def texts : Frame → List (String × String)
  | keyRequest => []
  | key publicKey => [("public_key", Base64.encode .standard publicKey)]
  | handshake token payload =>
      optional "token" (token.map (Base64.encode .standard)) ++
        [("payload", Base64.encode .standard payload)]
  | message token query body | close token query body =>
      optional "token" (token.map (Base64.encode .standard)) ++ optional "query" query ++
        [("body", Base64.encode .standard body)]
  | reply token outcome body =>
      optional "token" (token.map (Base64.encode .standard)) ++
        [("outcome", outcome.wireName), ("body", Base64.encode .standard body)]

theorem members_eq (frame : Frame) :
    frame.members = frame.texts.map fun (name, value) => (name, Json.printText value) := by
  have printed : ∀ bytes, Json.printBytes bytes =
    Json.printText (Base64.encode .standard bytes) := fun _ => rfl
  cases frame with
  | keyRequest => rfl
  | key publicKey => rfl
  | handshake token payload => cases token <;> rfl
  | message token query body => cases token <;> cases query <;> rfl
  | close token query body => cases token <;> cases query <;> rfl
  | reply token outcome body => cases token <;> rfl

/-- No member takes the place of the kind. -/
theorem ne_type_of_mem_texts (frame : Frame) : ∀ member ∈ frame.texts, member.1 ≠ "type" := by
  cases frame with
  | keyRequest => simp [texts]
  | key publicKey => simp [texts]
  | handshake token payload => cases token <;> simp [texts, optional]
  | message token query body => cases token <;> cases query <;> simp [texts, optional]
  | close token query body => cases token <;> cases query <;> simp [texts, optional]
  | reply token outcome body => cases token <;> simp [texts, optional]

/-! ### One member at a time -/

section Members

variable {f : Fields} {kind : Kind} {name : String}

theorem put_token (octets : Bytes) (known : kind.fields.contains "token" = true)
    (unread : f.token = none) :
    f.put kind "token" (.text (Base64.encode .standard octets)) =
      .ok { f with token := some (some octets) } := by
  simp only [Fields.put, known, Bool.not_true, Bool.false_eq_true, if_false, if_true, Fields.once,
    unread, Option.isSome_none, Json.optionalBytes?, Json.optionalText?, Json.bytesOfText,
    Base64.decode_encode, bind, Except.bind, pure, Except.pure]

theorem put_query (query : String) (known : kind.fields.contains "query" = true)
    (unread : f.query = none) :
    f.put kind "query" (.text query) = .ok { f with query := some (some query) } := by
  simp only [Fields.put, known, Bool.not_true, Bool.false_eq_true, if_false, if_true, Fields.once,
    unread, Option.isSome_none, Json.optionalText?, bind, Except.bind, pure, Except.pure,
    String.reduceEq]

theorem put_outcome (outcome : Outcome) (known : kind.fields.contains "outcome" = true)
    (unread : f.outcome = none) :
    f.put kind "outcome" (.text outcome.wireName) = .ok { f with outcome := some outcome } := by
  have listed : outcome.wireName ∈ Outcome.all.map Outcome.wireName := by
    cases outcome <;> decide
  simp only [Fields.put, known, Bool.not_true, Bool.false_eq_true, if_false, if_true, Fields.once,
    unread, Option.isSome_none, Json.variant?, Json.variant, listed, Outcome.ofWireName?_wireName,
    bind, Except.bind, pure, Except.pure, String.reduceEq]

/-- The member that every frame of its kind has to have. -/
theorem put_bytes (octets : Bytes) (known : kind.fields.contains name = true)
    (special : name ≠ "token" ∧ name ≠ "query" ∧ name ≠ "outcome") (unread : f.bytes = none) :
    f.put kind name (.text (Base64.encode .standard octets)) =
      .ok { f with bytes := some octets } := by
  obtain ⟨token, query, outcome⟩ := special
  simp only [Fields.put, known, token, query, outcome, Bool.not_true, Bool.false_eq_true, if_false,
    Fields.once, unread, Option.isSome_none, Json.bytes?, Json.text?, Json.bytesOfText,
    Base64.decode_encode, bind, Except.bind, pure, Except.pure]

end Members

/-- What is known of a frame once all its members were read. -/
def collected : Frame → Fields
  | keyRequest => .empty
  | key publicKey => { Fields.empty with bytes := some publicKey }
  | handshake token payload => ⟨token.map some, none, some payload, none⟩
  | message token query body | close token query body =>
      ⟨token.map some, query.map some, some body, none⟩
  | reply token outcome body => ⟨token.map some, none, some body, some outcome⟩

theorem foldlM_texts (frame : Frame) :
    (frame.texts.map fun member => (member.1, Json.text member.2)).foldlM
      (fun f (name, value) => Fields.put frame.kind f name value) Fields.empty =
        .ok frame.collected := by
  cases frame with
  | keyRequest => rfl
  | key publicKey => simp [texts, kind, Kind.fields, Fields.empty, put_bytes, collected]
  | handshake token payload =>
    cases token <;>
      simp [texts, kind, optional, Kind.fields, Fields.empty, put_token, put_bytes, collected, bind,
        Except.bind, pure, Except.pure]
  | message token query body =>
    cases token <;> cases query <;>
      simp [texts, kind, optional, Kind.fields, Fields.empty, put_token, put_query, put_bytes,
        collected, bind, Except.bind, pure, Except.pure]
  | close token query body =>
    cases token <;> cases query <;>
      simp [texts, kind, optional, Kind.fields, Fields.empty, put_token, put_query, put_bytes,
        collected, bind, Except.bind, pure, Except.pure]
  | reply token outcome body =>
    cases token <;>
      simp [texts, kind, optional, Kind.fields, Fields.empty, put_token, put_outcome, put_bytes,
        collected, bind, Except.bind, pure, Except.pure]

/-- What is known of a frame is enough to make it. -/
theorem toFrame_collected (frame : Frame) (absent : String → Json.Error) :
    frame.collected.toFrame frame.kind absent = .ok frame := by
  cases frame with
  | keyRequest => rfl
  | key publicKey => rfl
  | handshake token payload => cases token <;> rfl
  | message token query body => cases token <;> cases query <;> rfl
  | close token query body => cases token <;> cases query <;> rfl
  | reply token outcome body => cases token <;> rfl

/-- A datagram that states its kind once is a frame of that kind with the other members. -/
theorem decode_of_lex {datagram : Bytes} {kind : Kind} {before after : List Json.Entry}
    (tokens : Json.lex datagram = .openObject ::
      Json.memberTokens true (before ++ ("type", some kind.wireName) :: after))
    (others : ∀ entry ∈ before ++ after, entry.1 ≠ "type") :
    decode datagram = ofBody kind (.members ((before ++ after).map Json.content)) := by
  have listed : kind.wireName ∈ Kind.all.map Kind.wireName := by
    cases kind <;> decide
  rw [decode, Json.readDocument, tokens, reader]
  simp only [Json.readTagged_entries listed others, Kind.ofWireName?_wireName, bind, Except.bind]
  cases ofBody kind (.members ((before ++ after).map Json.content)) <;> rfl

/-- The written datagram is one layout of the kind and the members of the frame. -/
theorem writesObject_encode (frame : Frame) :
    Json.WritesObject (("type", some frame.kind.wireName) ::
      frame.texts.map fun member => (member.1, some member.2)) frame.encode := by
  have writes := Json.writesObject_printObject (("type", frame.kind.wireName) :: frame.texts)
  rw [encode, toText, members_eq]
  exact writes

theorem decode_encode (frame : Frame) : decode frame.encode = .ok frame := by
  have others : ∀ entry ∈ frame.texts.map fun member => (member.1, some member.2),
      entry.1 ≠ "type" := by
    intro entry mem
    obtain ⟨member, listed, rfl⟩ := List.mem_map.mp mem
    exact frame.ne_type_of_mem_texts member listed
  have tokens : Json.lex frame.encode = .openObject :: Json.memberTokens true
      ([] ++ ("type", some frame.kind.wireName) ::
        frame.texts.map fun member => (member.1, some member.2)) :=
    frame.writesObject_encode.lexes.lex
  rw [decode_of_lex tokens others, ofBody, List.nil_append, List.map_map, bind_eq_ok_iff]
  exact ⟨frame.collected, frame.foldlM_texts, frame.toFrame_collected _⟩

end Frame

end SecureChannel
