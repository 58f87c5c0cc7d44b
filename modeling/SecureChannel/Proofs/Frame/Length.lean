import SecureChannel.Datagram.Server
import SecureChannel.Proofs.Frame.RoundTrip

/-!
# Short frames fit a datagram

All that a client and a server put into frames is base64, or a name that is known in advance, so
nothing has to be escaped, and a text takes up two quotes more than it has characters. Of three
octets base64 makes four characters, so frames are about a third longer than what they carry. An
envelope is base64 within base64: it is the longest of all ways to carry a message, and still
carries `maxCarried` octets.
-/

namespace SecureChannel

open Bytes

namespace Json

/-- What a text takes up as a string. -/
def extent (text : String) : Nat := (ofText (printText text)).length

/-- A text without escapes takes up two quotes more than it has octets. -/
theorem extent_of_unescaped {text : String} (unescaped : ∀ c ∈ text.toList, escapeChar c = [c]) :
    extent text = (ofText text).length + 2 := by
  have same : text.toList.flatMap escapeChar = text.toList := by
    rw [List.flatMap_def, List.map_congr_left unescaped, ← List.flatMap_def,
      List.flatMap_singleton']
  rw [extent, ofText_printText, same, ofText_eq]
  simp

theorem escapeChar_of_le {c : Char} (printable : 35 ≤ c.toNat) (backslash : c ≠ '\\') :
    escapeChar c = [c] := by
  have below : ∀ other : Char, other.toNat < 35 → c ≠ other := by
    rintro other small rfl
    omega
  have quote := below '"' (by decide)
  have lineFeed := below '\n' (by decide)
  have carriageReturn := below '\r' (by decide)
  have tab := below '\t' (by decide)
  simp only [escapeChar, quote, backslash, lineFeed, carriageReturn, tab, if_false]
  rw [if_neg (by omega), if_neg (by omega), if_neg (by omega)]

/-- What the members of an object take up, each with a colon and a comma. -/
def extents : List (String × String) → Nat
  | [] => 0
  | (key, value) :: members => extent key + extent value + 2 + extents members

theorem length_flatMap_members (members : List (String × String)) :
    ((members.map fun (key, value) => printText key ++ ":" ++ printText value).flatMap
      ofText).length + members.length = extents members := by
  have colon : (ofText ":").length = 1 := by decide
  induction members with
  | nil => rfl
  | cons member members ih =>
    simp only [extents, extent, List.map_cons, List.flatMap_cons, List.length_cons, ofText_append,
      List.length_append, colon] at ih ⊢
    omega

theorem length_printObject (key value : String) (members : List (String × String)) :
    (ofText (printObject (((key, value) :: members).map fun (key, value) =>
      (key, printText value)))).length = extents ((key, value) :: members) + 1 := by
  have braces : (ofText "\x7b").length = 1 ∧ (ofText "\x7d").length = 1 := by decide
  have parts : (((printText key ++ ":" ++ printText value) ::
      members.map fun (key, value) => printText key ++ ":" ++ printText value).flatMap
        ofText).length + (members.length + 1) = extents ((key, value) :: members) :=
    length_flatMap_members ((key, value) :: members)
  have joined := length_intercalate (by decide : (ofText ",").length = 1)
    (printText key ++ ":" ++ printText value)
    (members.map fun (key, value) => printText key ++ ":" ++ printText value)
  rw [List.length_map] at joined
  rw [printObject, List.map_map, ofText_append, ofText_append, List.length_append,
    List.length_append, braces.1, braces.2]
  change 1 + (ofText (",".intercalate ((printText key ++ ":" ++ printText value) ::
    members.map fun (key, value) => printText key ++ ":" ++ printText value))).length + 1 = _
  omega

end Json

namespace Base64

/-- Of three octets the text makes four. -/
theorem length_encodeBytes_le (form : Form) (bytes : Bytes) :
    3 * (encodeBytes form bytes).length ≤ 4 * bytes.length + 8 := by
  induction bytes using encodeBytes.induct with
  | case1 a b c rest ih =>
    simp only [encodeBytes, List.length_cons]
    omega
  | case2 a b => cases form <;> simp [encodeBytes, Form.fill]
  | case3 a => cases form <;> simp [encodeBytes, Form.fill]
  | case4 => simp [encodeBytes]

theorem le_length_encodeBytes (form : Form) (bytes : Bytes) :
    4 * bytes.length ≤ 3 * (encodeBytes form bytes).length := by
  induction bytes using encodeBytes.induct with
  | case1 a b c rest ih =>
    simp only [encodeBytes, List.length_cons]
    omega
  | case2 a b =>
    simp only [encodeBytes, List.length_cons, List.length_nil]
    omega
  | case3 a =>
    simp only [encodeBytes, List.length_cons, List.length_nil]
    omega
  | case4 => simp [encodeBytes]

set_option maxRecDepth 10000 in
theorem le_symbol (form : Form) : ∀ v : UInt8, v < 64 →
    35 ≤ form.symbol v ∧ form.symbol v ≠ 92 := by
  cases form <;> decide

/-- Nothing in the text has to be escaped. -/
theorem escapeChar_of_mem_encode {form : Form} {bytes : Bytes} :
    ∀ c ∈ (encode form bytes).toList, Json.escapeChar c = [c] := by
  intro c mem
  rw [encode, String.toList_ofList, List.mem_map] at mem
  obtain ⟨octet, mem, rfl⟩ := mem
  have written := written_of_mem_encodeBytes octet mem
  have number := toNat_ofNat (UInt8.lt_iff_toNat_lt.mp written.lt)
  have printable : 35 ≤ octet ∧ octet ≠ 92 := by
    rcases written with ⟨v, small, rfl⟩ | ⟨-, rfl⟩
    · exact le_symbol form v small
    · decide
  apply Json.escapeChar_of_le
  · rw [number]
    exact UInt8.le_iff_toNat_le.mp printable.1
  · intro backslash
    rw [backslash] at number
    exact printable.2 (UInt8.toNat_inj.mp number.symm)

theorem extent_encode_le (form : Form) (bytes : Bytes) :
    3 * Json.extent (encode form bytes) ≤ 4 * bytes.length + 14 := by
  have length := length_encodeBytes_le form bytes
  rw [Json.extent_of_unescaped escapeChar_of_mem_encode, ofText_encode]
  omega

theorem le_extent_encode (form : Form) (bytes : Bytes) :
    4 * bytes.length ≤ 3 * Json.extent (encode form bytes) := by
  have length := le_length_encodeBytes form bytes
  rw [Json.extent_of_unescaped escapeChar_of_mem_encode, ofText_encode]
  omega

end Base64

namespace Frame

/-- A frame is as long as its members, which stand in braces. -/
theorem length_encode (frame : Frame) : frame.encode.length =
    Json.extents (("type", frame.kind.wireName) :: frame.texts) + 1 := by
  rw [encode, toText, members_eq]
  exact Json.length_printObject "type" frame.kind.wireName frame.texts

/-- A frame fits if its members do not take up too much. -/
theorem fits_of_extents {frame : Frame}
    (short : Json.extents (("type", frame.kind.wireName) :: frame.texts) + 2 ≤ maxDatagram) :
    frame.fits = true := by
  rw [fits, length_encode, decide_eq_true_eq]
  omega

theorem not_fits_message {token : Option Bytes} {query : Option String} {body : Bytes}
    (long : 3 * maxDatagram < 4 * body.length) : (message token query body).fits = false := by
  have carried := Base64.le_extent_encode .standard body
  have members : Json.extent (Base64.encode .standard body) ≤
      Json.extents (("type", (message token query body).kind.wireName) ::
        (message token query body).texts) := by
    cases token <;> cases query <;>
      simp only [Json.extents, texts, optional, Option.map_none, Option.map_some,
        Option.toList_none, Option.toList_some, List.map_cons, List.map_nil, List.cons_append,
        List.nil_append] <;>
      omega
  rw [fits, length_encode, decide_eq_false_iff_not]
  omega

theorem fits_handshake {token payload : Bytes} (short : token.length + payload.length ≤ 48000) :
    (handshake (some token) payload).fits = true := by
  apply fits_of_extents
  have first := Base64.extent_encode_le .standard token
  have second := Base64.extent_encode_le .standard payload
  have keys : Json.extent "type" = 6 ∧ Json.extent "handshake" = 11 ∧ Json.extent "token" = 7 ∧
      Json.extent "payload" = 9 := by decide
  simp only [Json.extents, texts, optional, kind, Kind.wireName, maxDatagram, Option.map_some,
    Option.toList_some, List.map_cons, List.map_nil, List.cons_append, List.nil_append, keys]
  omega

theorem fits_reply {token : Bytes} {outcome : Outcome} {body : Bytes}
    (short : token.length + body.length ≤ 48000) :
    (reply (some token) outcome body).fits = true := by
  apply fits_of_extents
  have first := Base64.extent_encode_le .standard token
  have second := Base64.extent_encode_le .standard body
  have name : Json.extent outcome.wireName ≤ 32 := by
    cases outcome <;> decide
  have keys : Json.extent "type" = 6 ∧ Json.extent "reply" = 7 ∧ Json.extent "token" = 7 ∧
      Json.extent "outcome" = 9 ∧ Json.extent "body" = 6 := by decide
  simp only [Json.extents, texts, optional, kind, Kind.wireName, maxDatagram, Option.map_some,
    Option.toList_some, List.map_cons, List.map_nil, List.cons_append, List.nil_append, keys]
  omega

/-- The frames that carry a sealed message. -/
def Carries (kind : Option Bytes → Option String → Bytes → Frame) : Prop :=
  kind = .message ∨ kind = .close

theorem fits_of_carries {kind : Option Bytes → Option String → Bytes → Frame}
    (carries : Carries kind) {token body : Bytes} {query : Option String}
    (short : Json.extents (optional "query" query) + 70 + 4 * (token.length + body.length) / 3 ≤
      maxDatagram) : (kind (some token) query body).fits = true := by
  apply fits_of_extents
  have first := Base64.extent_encode_le .standard token
  have second := Base64.extent_encode_le .standard body
  have keys : Json.extent "type" = 6 ∧ Json.extent "message" = 9 ∧ Json.extent "close" = 7 ∧
      Json.extent "token" = 7 ∧ Json.extent "body" = 6 := by decide
  rcases carries with rfl | rfl <;> cases query <;>
    simp only [Json.extents, texts, optional, Frame.kind, Kind.wireName, Option.map_some,
      Option.toList_some, Option.toList_none, List.map_cons, List.map_nil, List.cons_append,
      List.nil_append, keys] at short ⊢ <;>
    omega

end Frame

/-- An envelope is not much longer than what it holds in base64. -/
theorem Envelope.length_encode_le (e : Envelope) :
    3 * e.encode.length ≤ 4 * (e.id.length + e.payload.length) + 100 := by
  have first := Base64.extent_encode_le .standard e.id
  have second := Base64.extent_encode_le .standard e.payload
  have keys : Json.extent "id" = 4 ∧ Json.extent "payload" = 9 := by decide
  have length := Json.length_printObject "id" (Base64.encode .standard e.id)
    [("payload", Base64.encode .standard e.payload)]
  change e.encode.length = _ at length
  simp only [Json.extents, keys] at length
  omega

/-- A query is not much longer than the ciphertext in base64. -/
theorem Query.extent_ofCiphertext_le (ciphertext : Bytes) :
    3 * Json.extent (ofCiphertext ciphertext) ≤ 4 * ciphertext.length + 20 := by
  have unescaped : ∀ c ∈ (ofCiphertext ciphertext).toList, Json.escapeChar c = [c] := by
    have letters : (ofCiphertext ciphertext).toList =
        'c' :: '=' :: (Base64.encode .url ciphertext).toList := by
      rw [ofCiphertext, String.toList_append]
      rfl
    rw [letters, List.forall_mem_cons, List.forall_mem_cons]
    exact ⟨rfl, rfl, Base64.escapeChar_of_mem_encode⟩
  have front : (ofText "c=").length = 2 := by decide
  have length := Base64.length_encodeBytes_le .url ciphertext
  rw [Json.extent_of_unescaped unescaped, ofCiphertext, ofText_append, List.length_append,
    Base64.ofText_encode, front]
  omega

/-- What is carried at most if it has to fit under every codec. -/
def maxCarried : Nat := 33000

/-- A sealed message fits, whichever codec carries it. -/
theorem Codec.fits_of_le (codec : Codec) {id : ChannelId} {ciphertext token : Bytes}
    {kind : Option Bytes → Option String → Bytes → Frame} (carries : Frame.Carries kind)
    (name : id.toBytes.length ≤ 255) (length : token.length ≤ 255)
    (short : ciphertext.length ≤ maxCarried) :
    (kind (some token) (codec.encode id ciphertext).query
      (codec.encode id ciphertext).body).fits = true := by
  apply Frame.fits_of_carries carries
  rw [maxCarried] at short
  cases codec with
  | tokenReuse | routing =>
    simp only [encode, Frame.optional, Option.toList_none, List.map_nil, Json.extents, maxDatagram]
    omega
  | query =>
    have written := Query.extent_ofCiphertext_le ciphertext
    have key : Json.extent "query" = 7 := by decide
    simp only [encode, Frame.optional, Option.toList_some, List.map_cons, List.map_nil,
      Json.extents, List.length_nil, key, maxDatagram]
    omega
  | envelope =>
    have enveloped := Envelope.length_encode_le ⟨id.toBytes, ciphertext⟩
    simp only [encode, Frame.optional, Option.toList_none, List.map_nil, Json.extents,
      maxDatagram] at enveloped ⊢
    omega

end SecureChannel
