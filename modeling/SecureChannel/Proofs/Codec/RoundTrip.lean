import SecureChannel.Codec
import SecureChannel.Proofs.Bytes.Base64
import SecureChannel.Proofs.Checked
import SecureChannel.Proofs.Codec.Names
import SecureChannel.Proofs.Json.Lexing

/-!
# Messages name their channel

Every codec gives back the channel and the ciphertext of the message that it has made. It does so
for exactly the names that a channel can have; which pairs of codec and scheme a configuration
allows does not matter here.

Messages that arrive can have been made by anybody. `lossless` says that what a codec reads in one
of them is a name of the asked scheme that a channel can have, and that the codec can state it
again. The message that it makes then need not be the one that arrived: an envelope has many
layouts, and a query may have further parameters.
-/

namespace SecureChannel

theorem Envelope.decode_encode (e : Envelope) : decode e.encode = .ok e := by
  have writes := Json.writesObject_printObject
    [("id", Base64.encode .standard e.id), ("payload", Base64.encode .standard e.payload)]
  have tokens := writes.lexes.lex
  change Json.lex e.encode = _ at tokens
  rw [decode, Json.readDocument, tokens]
  simp [Json.memberTokens, Json.valueToken, reader, Json.readObject, Json.readMembers,
    Fields.member, Json.readColon, Fields.readId, Fields.readPayload, Json.readBytes, Json.readText,
    Json.bytesOfText, Base64.decode_encode, Fields.toEnvelope, bind, Except.bind, pure, Except.pure]

/-- No symbol of base64 for queries separates parameters. -/
theorem Query.ne_separator_of_mem_encode {bytes : Bytes} :
    ∀ c ∈ (Base64.encode .url bytes).toList, c ≠ '&' := by
  intro c mem separator
  rw [Base64.encode, String.toList_ofList, List.mem_map] at mem
  obtain ⟨octet, mem, rfl⟩ := mem
  have written := Base64.written_of_mem_encodeBytes octet mem
  have number := congrArg Char.toNat separator
  rw [Bytes.toNat_ofNat (UInt8.lt_iff_toNat_lt.mp written.lt)] at number
  rcases written with ⟨v, small, rfl⟩ | ⟨other, -⟩
  · obtain ⟨-, -, -, other⟩ := Base64.Form.url.symbol_spec v small
    exact other (UInt8.toNat_inj.mp number)
  · cases other

theorem Query.ciphertext_ofCiphertext (ciphertext : Bytes) :
    Query.ciphertext (Query.ofCiphertext ciphertext) = .ok ciphertext := by
  have one : Query.parameters (Query.ofCiphertext ciphertext).toList =
      ['c' :: '=' :: (Base64.encode .url ciphertext).toList] := by
    have letters : ∀ c ∈ 'c' :: '=' :: (Base64.encode .url ciphertext).toList,
        (c == '&') = false := by
      simpa using Query.ne_separator_of_mem_encode
    rw [Query.ofCiphertext, String.toList_append]
    exact List.splitOnP_eq_singleton letters
  simp [Query.ciphertext, one, Query.value?, Base64.decode_encode]

theorem CodecError.ofId_ok_iff {α : Type} {result : Except IdError α} {a : α} :
    ofId result = .ok a ↔ result = .ok a := by
  cases result <;> simp [ofId]

namespace Codec

/-- A message that was made on a channel is one for that channel. -/
theorem decode_encode (codec : Codec) {id : ChannelId} (admissible : id.Admissible)
    (ciphertext : Bytes) :
    codec.decode id.scheme (codec.encode id ciphertext) = .ok (id, ciphertext) := by
  have named : CodecError.ofId (ChannelId.decode id.scheme id.toBytes) = .ok id := by
    rw [ChannelId.decode_toBytes admissible]
    rfl
  cases codec with
  | tokenReuse | routing =>
    simp [encode, decode, idOfTag, named, bind, Except.bind, pure, Except.pure]
  | query =>
    simp [encode, decode, idOfTag, named, Query.ciphertext_ofCiphertext, bind, Except.bind, pure,
      Except.pure]
  | envelope =>
    simp [encode, decode, Envelope.decode_encode, named, bind, Except.bind, pure, Except.pure]

/-- Whatever tag a message arrives with, it holds the ciphertext that was put in. -/
theorem ciphertext_of_decode {codec : Codec} {scheme : IdScheme} {tag : Option Bytes}
    {id other : ChannelId} {ciphertext text : Bytes}
    (decoded : codec.decode scheme { codec.encode id ciphertext with tag := tag } =
      .ok (other, text)) : text = ciphertext := by
  cases codec with
  | tokenReuse | routing =>
    obtain ⟨named, -, read⟩ := bind_eq_ok_iff.mp decoded
    cases read
    rfl
  | query =>
    obtain ⟨named, -, read⟩ := bind_eq_ok_iff.mp decoded
    obtain ⟨octets, known, read⟩ := bind_eq_ok_iff.mp read
    cases read
    exact Except.ok.inj (known.symm.trans (Query.ciphertext_ofCiphertext ciphertext))
  | envelope =>
    simp only [encode, decode, Envelope.decode_encode] at decoded
    obtain ⟨named, -, read⟩ := bind_eq_ok_iff.mp decoded
    cases read
    rfl

theorem idOfTag_ok_iff {scheme : IdScheme} {m : Message} {id : ChannelId} :
    idOfTag scheme m = .ok id ↔
      ∃ octets, m.tag = some octets ∧ ChannelId.decode scheme octets = .ok id := by
  cases tag : m.tag with
  | none => simp [idOfTag, tag]
  | some octets => simp [idOfTag, tag, CodecError.ofId_ok_iff]

/-- A codec that leaves the name to the transport reads it off the tag. -/
theorem idOfTag_of_decode {codec : Codec} (outside : codec.requiresTransportId = true)
    {scheme : IdScheme} {m : Message} {id : ChannelId} {ciphertext : Bytes}
    (decoded : codec.decode scheme m = .ok (id, ciphertext)) : idOfTag scheme m = .ok id := by
  cases codec with
  | tokenReuse | routing =>
    obtain ⟨other, tagged, read⟩ := bind_eq_ok_iff.mp decoded
    cases read
    exact tagged
  | query =>
    obtain ⟨other, tagged, read⟩ := bind_eq_ok_iff.mp decoded
    split at read
    · cases read
    · obtain ⟨octets, -, read⟩ := bind_eq_ok_iff.mp read
      cases read
      exact tagged
  | envelope => exact absurd outside (by decide)

/-- Whoever has made a message, the codec reads no name in it but one that octets stand for. -/
theorem named_of_decode {codec : Codec} {scheme : IdScheme} {m : Message} {id : ChannelId}
    {ciphertext : Bytes} (decoded : codec.decode scheme m = .ok (id, ciphertext)) :
    ∃ octets, ChannelId.decode scheme octets = .ok id := by
  cases outside : codec.requiresTransportId with
  | true =>
    obtain ⟨octets, -, named⟩ := idOfTag_ok_iff.mp (idOfTag_of_decode outside decoded)
    exact ⟨octets, named⟩
  | false =>
    cases codec with
    | envelope =>
      rw [decode] at decoded
      split at decoded
      · cases decoded
      · next e _ =>
        obtain ⟨other, named, read⟩ := bind_eq_ok_iff.mp decoded
        cases read
        exact ⟨e.id, CodecError.ofId_ok_iff.mp named⟩
    | tokenReuse | routing | query => cases outside

/-- A codec gives back exactly the names that a channel can have, with the ciphertext. What it reads
in a message, whatever that holds, is such a name under the asked scheme, and it is read again when
it is written again. -/
theorem lossless (codec : Codec) :
    (∀ id ciphertext, codec.decode id.scheme (codec.encode id ciphertext) = .ok (id, ciphertext) ↔
      id.Admissible) ∧
    ∀ scheme m id ciphertext, codec.decode scheme m = .ok (id, ciphertext) →
      id.scheme = scheme ∧ id.Admissible ∧
        codec.decode scheme (codec.encode id ciphertext) = .ok (id, ciphertext) := by
  have admissible : ∀ scheme m id ciphertext, codec.decode scheme m = .ok (id, ciphertext) →
      id.scheme = scheme ∧ id.Admissible := by
    intro scheme m id ciphertext decoded
    obtain ⟨octets, named⟩ := named_of_decode decoded
    exact ChannelId.admissible_of_decode named
  refine ⟨?_, ?_⟩
  · intro id ciphertext
    constructor
    · intro decoded
      exact (admissible _ _ _ _ decoded).2
    · intro fair
      exact codec.decode_encode fair ciphertext
  · intro scheme m id ciphertext decoded
    obtain ⟨rfl, fair⟩ := admissible _ _ _ _ decoded
    exact ⟨rfl, fair, codec.decode_encode fair ciphertext⟩

/-- A query with another parameter in front is read, and what is read is written without it. -/
theorem lossless_query :
    query.decode .transport ⟨some [1], some "?x=1&c=BQ", []⟩ = .ok (.transport [1], [5]) ∧
      query.decode .transport (query.encode (.transport [1]) [5]) = .ok (.transport [1], [5]) := by
  have read : query.decode .transport ⟨some [1], some "?x=1&c=BQ", []⟩ =
      .ok (.transport [1], [5]) := rfl
  exact ⟨read, ((lossless query).2 _ _ _ _ read).2.2⟩

end Codec

end SecureChannel
