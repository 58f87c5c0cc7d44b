import SecureChannel.Datagram.Endpoint
import SecureChannel.Proofs.Bytes.Text

/-!
# What a tag tells about the peer

The written form of an IPv4 endpoint ends with the digits of its port, and nothing marks where they
end. Where the token stands right behind them, another peer on the same address can have the same
tag: its port is shorter, and its token starts with the digits that are missing. That is all that
can happen. `transportTag_eq_iff` says when two peers have one tag, and nothing else makes their
tags equal. Tags without a token, and tags with tokens of one length, tell all peers apart.

A tag is neither empty nor too long for the name of a channel, as `length_transportTag` says.
-/

namespace SecureChannel

namespace Bytes

def decimal (n : Nat) : Bytes :=
  ofText (toString n)

def isDigit (octet : UInt8) : Bool := 48 ≤ octet.toNat && octet.toNat < 58

theorem toNat_lt_of_isDigit {c : Char} (digit : c.isDigit = true) :
    48 ≤ c.toNat ∧ c.toNat < 58 := by
  simp only [Char.isDigit, ge_iff_le, Bool.and_eq_true, decide_eq_true_eq,
    UInt32.le_iff_toNat_le] at digit
  obtain ⟨low, high⟩ := digit
  exact ⟨low, Nat.lt_succ_of_le high⟩

theorem flatMap_utf8EncodeChar_of_isDigit {digits : List Char}
    (all : ∀ c ∈ digits, c.isDigit = true) :
    digits.flatMap String.utf8EncodeChar = digits.map fun c => UInt8.ofNat c.toNat := by
  induction digits with
  | nil => rfl
  | cons c digits ih =>
    have small := (toNat_lt_of_isDigit (all c (.head _))).2
    rw [List.flatMap_cons, utf8EncodeChar_of_lt (by omega),
      ih fun c mem => all c (.tail _ mem)]
    rfl

theorem isDigit_of_mem_toDigits {n : Nat} : ∀ c ∈ Nat.toDigits 10 n, c.isDigit = true :=
  fun _ mem => Nat.isDigit_of_mem_toDigits (by decide) (by decide) mem

theorem decimal_eq (n : Nat) :
    decimal n = (Nat.toDigits 10 n).map fun c => UInt8.ofNat c.toNat := by
  rw [decimal, ofText_eq, Nat.toString_eq_ofList_toDigits, String.toList_ofList]
  exact flatMap_utf8EncodeChar_of_isDigit isDigit_of_mem_toDigits

theorem isDigit_of_mem_decimal {n : Nat} : ∀ octet ∈ decimal n, isDigit octet = true := by
  intro octet mem
  rw [decimal_eq, List.mem_map] at mem
  obtain ⟨c, mem, rfl⟩ := mem
  obtain ⟨low, high⟩ := toNat_lt_of_isDigit (isDigit_of_mem_toDigits c mem)
  simp only [isDigit, UInt8.toNat_ofNat', Bool.and_eq_true, decide_eq_true_eq]
  omega

theorem decimal_inj {n m : Nat} (same : decimal n = decimal m) : n = m := by
  have written := congrArg toText? same
  rw [decimal, decimal, toText?_ofText, toText?_ofText, Option.some.injEq] at written
  have digits : Nat.toDigits 10 n = Nat.toDigits 10 m := by
    simpa [Nat.toString_eq_ofList_toDigits] using congrArg String.toList written
  calc n
    _ = Nat.ofDigitChars 10 (Nat.toDigits 10 n) 0 := Nat.ofDigitChars_ten_toDigits.symm
    _ = Nat.ofDigitChars 10 (Nat.toDigits 10 m) 0 := by rw [digits]
    _ = m := Nat.ofDigitChars_ten_toDigits

theorem length_decimal_mono {n m : Nat} (le : n ≤ m) :
    (decimal n).length ≤ (decimal m).length := by
  rw [decimal_eq, decimal_eq, List.length_map, List.length_map]
  have pos : 0 < (Nat.toDigits 10 m).length := Nat.length_toDigits_pos
  have below := (Nat.length_toDigits_le_iff (by decide) pos).mp (Nat.le_refl _)
  exact (Nat.length_toDigits_le_iff (by decide) pos).mpr (Nat.lt_of_le_of_lt le below)

/-- The digits of a number end where something else stands. -/
theorem decimal_append_inj {n m : Nat} {c d : UInt8} {s t : Bytes} (notC : isDigit c = false)
    (notD : isDigit d = false) (same : decimal n ++ c :: s = decimal m ++ d :: t) :
    n = m ∧ c :: s = d :: t := by
  have front := congrArg (List.takeWhile isDigit) same
  rw [List.takeWhile_append_of_pos isDigit_of_mem_decimal,
    List.takeWhile_append_of_pos isDigit_of_mem_decimal, List.takeWhile_cons, List.takeWhile_cons,
    notC, notD] at front
  simp only [Bool.false_eq_true, if_false, List.append_nil] at front
  rw [front] at same
  exact ⟨decimal_inj front, List.append_cancel_left same⟩

end Bytes

open Bytes

namespace Endpoint

variable {a b : IPv4} {x y : UInt16} {s t : Bytes}

def portDigits (port : UInt16) : Bytes := decimal port.toNat

theorem portDigits_inj (same : portDigits x = portDigits y) : x = y :=
  UInt16.toNat_inj.mp (decimal_inj same)

theorem ofText_v4 (address : IPv4) (port : UInt16) :
    ofText (v4 address port).toText =
      decimal address.a.toNat ++ 46 :: (decimal address.b.toNat ++ 46 ::
        (decimal address.c.toNat ++ 46 :: (decimal address.d.toNat ++ 58 :: portDigits port))) := by
  have dot : ofText "." = [46] := by decide
  have colon : ofText ":" = [58] := by decide
  have empty : ofText "" = [] := by decide
  change ofText ("" ++ ("" ++ toString address.a.toNat ++ "." ++ toString address.b.toNat ++ "." ++
    toString address.c.toNat ++ "." ++ toString address.d.toNat) ++ ":" ++
      toString port.toNat) = _
  simp [ofText_append, dot, colon, decimal, portDigits]

/-- The address can be read off the front of a written endpoint, whatever stands behind it. -/
theorem ofText_v4_append_inj
    (same : ofText (v4 a x).toText ++ s = ofText (v4 b y).toText ++ t) :
    a = b ∧ portDigits x ++ s = portDigits y ++ t := by
  have dot : isDigit 46 = false := by decide
  have colon : isDigit 58 = false := by decide
  simp only [ofText_v4, List.append_assoc, List.cons_append] at same
  obtain ⟨first, same⟩ := decimal_append_inj dot dot same
  obtain ⟨second, same⟩ := decimal_append_inj dot dot (List.cons.inj same).2
  obtain ⟨third, same⟩ := decimal_append_inj dot dot (List.cons.inj same).2
  obtain ⟨fourth, same⟩ := decimal_append_inj colon colon (List.cons.inj same).2
  refine ⟨?_, (List.cons.inj same).2⟩
  cases a
  cases b
  simp only [IPv4.mk.injEq]
  exact ⟨UInt8.toNat_inj.mp first, UInt8.toNat_inj.mp second, UInt8.toNat_inj.mp third,
    UInt8.toNat_inj.mp fourth⟩

theorem ofText_v4_append_iff :
    ofText (v4 a x).toText ++ s = ofText (v4 b y).toText ++ t ↔
      a = b ∧ portDigits x ++ s = portDigits y ++ t := by
  constructor
  · exact ofText_v4_append_inj
  · rintro ⟨rfl, same⟩
    simp only [ofText_v4, List.append_assoc, List.cons_append, same]

end Endpoint

open Endpoint

/-- Two peers look alike under a codec: they share an address, and the digits of the one port with
the one token are those of the other port with the other token. -/
def Glued (codec : Codec) (a : IPv4) (x : UInt16) (s : Bytes) (b : IPv4) (y : UInt16) (t : Bytes) :
    Prop :=
  codec = .tokenReuse ∧ a = b ∧ portDigits x ++ s = portDigits y ++ t

/-- When two peers have one tag. -/
theorem transportTag_eq_iff {codec : Codec} (named : codec.requiresTransportId = true)
    {a b : IPv4} {x y : UInt16} (differ : v4 a x ≠ v4 b y) (s t : Bytes) :
    transportTag codec (some s) (v4 a x) = transportTag codec (some t) (v4 b y) ↔
      Glued codec a x s b y t := by
  have apart : ofText (v4 a x).toText ≠ ofText (v4 b y).toText := by
    intro same
    have ends : ofText (v4 a x).toText ++ [] = ofText (v4 b y).toText ++ [] := by rw [same]
    obtain ⟨rfl, digits⟩ := ofText_v4_append_inj ends
    rw [List.append_nil, List.append_nil] at digits
    exact differ (by rw [portDigits_inj digits])
  cases codec with
  | envelope => exact absurd named (by decide)
  | tokenReuse =>
    simp [transportTag, Glued, ofText_v4_append_iff]
  | query | routing => simp [transportTag, Glued, apart]

theorem not_glued_of_length_eq {codec : Codec} {a b : IPv4} {x y : UInt16}
    (differ : v4 a x ≠ v4 b y) {s t : Bytes} (length : s.length = t.length) :
    ¬ Glued codec a x s b y t := by
  rintro ⟨-, rfl, same⟩
  obtain ⟨digits, -⟩ := List.append_inj' same length
  exact differ (by rw [portDigits_inj digits])

/-! ### Written endpoints are short -/

theorem IPv4.length_toText_le (address : IPv4) : (ofText address.toText).length ≤ 15 := by
  have dot : (ofText ".").length = 1 := by decide
  have empty : (ofText "").length = 0 := by decide
  have three : ∀ octet : UInt8, (ofText (toString octet.toNat)).length ≤ 3 := fun octet =>
    Nat.le_trans (length_decimal_mono (Nat.le_of_lt_succ octet.toNat_lt))
      (by decide : (decimal 255).length ≤ 3)
  have a := three address.a
  have b := three address.b
  have c := three address.c
  have d := three address.d
  change (ofText ("" ++ toString address.a.toNat ++ "." ++ toString address.b.toNat ++ "." ++
    toString address.c.toNat ++ "." ++ toString address.d.toNat)).length ≤ 15
  simp only [ofText_append, List.length_append, dot, empty]
  omega

namespace IPv6

theorem length_groupsText_le (groups : List UInt16) :
    (ofText (groupsText groups)).length ≤ 17 * groups.length := by
  have four : ∀ group : UInt16,
      (ofText (String.ofList (Nat.toDigits 16 group.toNat))).length ≤ 16 := by
    intro group
    have digits : (Nat.toDigits 16 group.toNat).length ≤ 4 :=
      (Nat.length_toDigits_le_iff (by decide) (by decide)).mpr group.toNat_lt
    have length := length_ofText_le (String.ofList (Nat.toDigits 16 group.toNat))
    rw [String.toList_ofList] at length
    omega
  have joined := length_intercalate_le (by decide : (ofText ":").length = 1)
    (groups.map fun group => String.ofList (Nat.toDigits 16 group.toNat))
  have parts : ((groups.map fun group => String.ofList (Nat.toDigits 16 group.toNat)).flatMap
      ofText).length ≤ 16 * groups.length := by
    clear joined
    induction groups with
    | nil => exact Nat.le_refl 0
    | cons group groups ih =>
      have := four group
      rw [List.map_cons, List.flatMap_cons, List.length_append, List.length_cons]
      omega
  rw [List.length_map] at joined
  rw [groupsText]
  omega

theorem length_toText_le (address : IPv6) : (ofText address.toText).length ≤ 138 := by
  have size : address.groups.toList.length = 8 := address.groups.length_toList
  rw [toText]
  generalize address.groups.toList = groups at size ⊢
  split
  · next high low =>
    have front : (ofText "::ffff:").length = 7 := by decide
    have behind := (IPv4.ofGroups high low).length_toText_le
    rw [ofText_append, List.length_append]
    omega
  · rcases longestZeros groups with ⟨start, length⟩
    have double : (ofText "::").length = 2 := by decide
    have first := length_groupsText_le (groups.take start)
    have second := length_groupsText_le (groups.drop (start + length))
    have whole := length_groupsText_le groups
    rw [List.length_take] at first
    rw [List.length_drop] at second
    dsimp only
    split
    · rw [ofText_append, ofText_append, List.length_append, List.length_append]
      omega
    · omega

end IPv6

/-- A written endpoint is not empty, and it is short. -/
theorem Endpoint.length_toText (endpoint : Endpoint) :
    1 ≤ (ofText endpoint.toText).length ∧ (ofText endpoint.toText).length ≤ 160 := by
  have colon : (ofText ":").length = 1 := by decide
  have empty : (ofText "").length = 0 := by decide
  have five : ∀ port : UInt16, (ofText (toString port.toNat)).length ≤ 5 := fun port =>
    Nat.le_trans (length_decimal_mono (Nat.le_of_lt_succ port.toNat_lt))
      (by decide : (decimal 65535).length ≤ 5)
  cases endpoint with
  | v4 address port =>
    have host := address.length_toText_le
    have digits := five port
    have written : (v4 address port).toText = "" ++ address.toText ++ ":" ++ toString port.toNat :=
      rfl
    simp only [written, ofText_append, List.length_append, colon, empty]
    omega
  | v6 address zone port =>
    have host := address.length_toText_le
    have digits := five port
    have name : (ofText (toString zone.toNat)).length ≤ 10 :=
      Nat.le_trans (length_decimal_mono (Nat.le_of_lt_succ zone.toNat_lt))
        (by decide : (decimal 4294967295).length ≤ 10)
    have percent : (ofText "%").length = 1 := by decide
    have brackets : (ofText "[").length = 1 ∧ (ofText "]:").length = 2 := by decide
    have written : (v6 address zone port).toText = "" ++ "[" ++ (if zone = 0 then address.toText
        else "" ++ address.toText ++ "%" ++ toString zone.toNat) ++ "]:" ++ toString port.toNat :=
      rfl
    have inside : (ofText (if zone = 0 then address.toText
        else "" ++ address.toText ++ "%" ++ toString zone.toNat)).length ≤ 149 := by
      split
      · omega
      · simp only [ofText_append, List.length_append, percent, empty]
        omega
    rw [written, ofText_append, ofText_append, ofText_append, ofText_append]
    simp only [List.length_append, brackets, empty]
    omega

/-- Every tag is one that a channel can have for its name, if the token is short. -/
theorem length_transportTag {codec : Codec} {token tag : Bytes} {peer : Endpoint}
    (short : token.length ≤ 90) (known : transportTag codec (some token) peer = some tag) :
    1 ≤ tag.length ∧ tag.length ≤ ChannelId.maxTransportLength := by
  have length := peer.length_toText
  rw [ChannelId.maxTransportLength]
  cases codec with
  | envelope => cases known
  | query | routing =>
    rw [← Option.some.inj known]
    omega
  | tokenReuse =>
    rw [← Option.some.inj known, List.length_append]
    omega

end SecureChannel
