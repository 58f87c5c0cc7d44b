import SecureChannel.Proofs.Bytes.Base64
import SecureChannel.Proofs.Checked

/-!
# A sequence of octets has one base64 text

Reading turns symbols into values below 64, and each of these values has one symbol. A last group
with unused bits is accepted only where these bits are zero, and its padding is the one that
writing chooses. So whatever is read is the text of the octets that it is read as, and a text
stands for octets exactly where it is their text.
-/

namespace SecureChannel.Base64

variable {form : Form} {offset : Nat}

namespace Form

set_option maxRecDepth 10000 in
private theorem value?_all (form : Form) : ∀ c : UInt8,
    (form.value? c).all (fun v => v < 64 && form.symbol v == c) = true := by
  cases form <;> decide

/-- A value has no symbol but the one that is written for it. -/
theorem value?_spec {c v : UInt8} (found : form.value? c = some v) :
    v < 64 ∧ form.symbol v = c := by
  simpa [found] using value?_all form c

theorem fill_of_complete {symbols padding : Nat} (complete : form.complete symbols padding = true)
    (short : symbols + padding ≤ 4) (enough : 2 ≤ symbols) :
    List.replicate padding pad = form.fill (4 - symbols) := by
  cases form with
  | standard =>
    have whole : (symbols + padding) % 4 = 0 := by simpa [Form.complete] using complete
    rw [show padding = 4 - symbols by omega, fill]
  | url =>
    have none : padding = 0 := by simpa [Form.complete] using complete
    rw [none, fill, List.replicate_zero]

end Form

/-! ### The octets of four values -/

set_option maxRecDepth 10000 in
/-- A value is put together again from the parts that were joined into two octets. -/
theorem value_parts : ∀ v : UInt8, v < 64 → v <<< 2 >>> 2 = v ∧
    (v >>> 4 &&& 3) <<< 4 ||| v <<< 4 >>> 4 = v ∧ (v >>> 2 &&& 15) <<< 2 ||| v <<< 6 >>> 6 = v ∧
      v &&& 63 = v := by
  decide

set_option maxRecDepth 10000 in
/-- The other parts of the octets that a value is joined into stay clear of it. -/
theorem value_gone : ∀ v : UInt8, v < 64 → v >>> 4 >>> 2 = 0 ∧ v <<< 2 &&& 3 = 0 ∧
    v >>> 2 >>> 4 = 0 ∧ v <<< 4 &&& 15 = 0 ∧ v >>> 6 = 0 ∧ v <<< 6 &&& 63 = 0 := by
  decide

set_option maxRecDepth 10000 in
/-- A last value whose unused bits are zero leaves nothing to the octet that is missing. -/
theorem value_unused : ∀ v : UInt8, (v &&& 15 = 0 → v <<< 4 >>> 4 = 0) ∧
    (v &&& 3 = 0 → v <<< 6 >>> 6 = 0) := by
  decide

variable {a b c d : UInt8}

theorem first_join (ha : a < 64) (hb : b < 64) : (a <<< 2 ||| b >>> 4) >>> 2 = a := by
  obtain ⟨own, -⟩ := value_parts a ha
  obtain ⟨gone, -⟩ := value_gone b hb
  rw [UInt8.shiftRight_or, own, gone, UInt8.or_zero]

theorem second_join (ha : a < 64) (hb : b < 64) (hc : c < 64) :
    ((a <<< 2 ||| b >>> 4) &&& 3) <<< 4 ||| (b <<< 4 ||| c >>> 2) >>> 4 = b := by
  obtain ⟨-, goneA, -⟩ := value_gone a ha
  obtain ⟨-, own, -⟩ := value_parts b hb
  obtain ⟨-, -, goneC, -⟩ := value_gone c hc
  rw [Bytes.or_and, goneA, UInt8.zero_or, UInt8.shiftRight_or, goneC, UInt8.or_zero, own]

theorem third_join (hb : b < 64) (hc : c < 64) (hd : d < 64) :
    ((b <<< 4 ||| c >>> 2) &&& 15) <<< 2 ||| (c <<< 6 ||| d) >>> 6 = c := by
  obtain ⟨-, -, -, goneB, -⟩ := value_gone b hb
  obtain ⟨-, -, own, -⟩ := value_parts c hc
  obtain ⟨-, -, -, -, goneD, -⟩ := value_gone d hd
  rw [Bytes.or_and, goneB, UInt8.zero_or, UInt8.shiftRight_or, goneD, UInt8.or_zero, own]

theorem fourth_join (hc : c < 64) (hd : d < 64) : (c <<< 6 ||| d) &&& 63 = d := by
  obtain ⟨-, -, -, -, -, gone⟩ := value_gone c hc
  obtain ⟨-, -, -, own⟩ := value_parts d hd
  rw [Bytes.or_and, gone, UInt8.zero_or, own]

/-- Four values are written as the symbols of the octets that they are joined to. -/
theorem encodeBytes_join (ha : a < 64) (hb : b < 64) (hc : c < 64) (hd : d < 64) (rest : Bytes) :
    encodeBytes form (join a b c d ++ rest) =
      [a, b, c, d].map form.symbol ++ encodeBytes form rest := by
  simp only [join, List.cons_append, List.nil_append, encodeBytes, first_join ha hb,
    second_join ha hb hc, third_join hb hc hd, fourth_join hc hd, List.map_cons, List.map_nil]

theorem encodeBytes_join_three (ha : a < 64) (hb : b < 64) (hc : c < 64) (unused : c &&& 3 = 0) :
    encodeBytes form ((join a b c 0).take 2) = [a, b, c].map form.symbol ++ form.fill 1 := by
  have third : ((b <<< 4 ||| c >>> 2) &&& 15) <<< 2 = c := by
    have joined := third_join hb hc (d := 0) (by decide)
    rwa [UInt8.or_zero, (value_unused c).2 unused, UInt8.or_zero] at joined
  simp only [join, List.take_succ_cons, List.take_zero, encodeBytes, first_join ha hb,
    second_join ha hb hc, third, List.map_cons, List.map_nil, List.cons_append, List.nil_append]

theorem encodeBytes_join_two (ha : a < 64) (hb : b < 64) (unused : b &&& 15 = 0) :
    encodeBytes form ((join a b 0 0).take 1) = [a, b].map form.symbol ++ form.fill 2 := by
  have second : ((a <<< 2 ||| b >>> 4) &&& 3) <<< 4 = b := by
    have joined := second_join ha hb (c := 0) (by decide)
    rwa [UInt8.zero_shiftRight, UInt8.or_zero, (value_unused b).1 unused, UInt8.or_zero] at joined
  simp only [join, List.take_succ_cons, List.take_zero, encodeBytes, first_join ha hb, second,
    List.map_cons, List.map_nil, List.cons_append, List.nil_append]

/-! ### Reading -/

theorem valueAt_ok {c v : UInt8} (read : valueAt form offset c = .ok v) :
    v < 64 ∧ form.symbol v = c := by
  rw [valueAt] at read
  split at read
  · next found =>
    cases read
    exact Form.value?_spec found
  · cases read

/-- The values of the last group are those of its symbols, which only padding follows. -/
theorem lastValues_ok {before values : List UInt8} {text : Bytes} {padding : Nat}
    (read : lastValues form offset before text = .ok (values, padding)) :
    ∃ more, values = before ++ more ∧ (∀ v ∈ more, v < 64) ∧
      text = more.map form.symbol ++ List.replicate padding pad := by
  induction text generalizing before with
  | nil =>
    cases read
    exact ⟨[], by simp, by simp, by simp⟩
  | cons c rest ih =>
    rw [lastValues] at read
    split at read
    · next isPad =>
      split at read
      · cases read
      · split at read
        · next pads =>
          cases read
          have all : rest = List.replicate rest.length pad :=
            List.eq_replicate_iff.mpr ⟨rfl, by simpa using pads⟩
          refine ⟨[], by simp, by simp, ?_⟩
          rw [List.map_nil, List.nil_append, List.replicate_succ, ← all, isPad]
        · cases read
    · split at read
      · cases read
      · next v found =>
        obtain ⟨more, rfl, small, rfl⟩ := ih read
        obtain ⟨bound, written⟩ := Form.value?_spec found
        refine ⟨v :: more, by simp, List.forall_mem_cons.mpr ⟨bound, small⟩, ?_⟩
        rw [List.map_cons, written, List.cons_append]

/-- The last group is the text of its octets. -/
theorem decodeLast_ok {text bytes : Bytes} (short : text.length ≤ 4)
    (read : decodeLast form offset text = .ok bytes) : encodeBytes form bytes = text := by
  simp only [decodeLast, bind, Except.bind, throw, throwThe, MonadExceptOf.throw, pure,
    Except.pure] at read
  split at read
  · cases read
  · next pair found =>
    obtain ⟨values, padding⟩ := pair
    obtain ⟨more, rfl, small, rfl⟩ := lastValues_ok found
    rw [List.length_append, List.length_map, List.length_replicate] at short
    simp only [Bool.not_eq_eq_eq_not, Bool.not_true] at read
    split at read
    · cases read
    · next enough =>
      split at read
      · cases read
      · next complete =>
        simp only [Bool.not_eq_false] at complete
        rw [Form.fill_of_complete complete short (Nat.not_lt.mp enough)]
        split at read
        · next a b =>
          split at read
          · next unused =>
            cases read
            simp only [List.forall_mem_cons] at small
            obtain ⟨ha, hb, -⟩ := small
            exact encodeBytes_join_two ha hb unused
          · cases read
        · next a b c =>
          split at read
          · next unused =>
            cases read
            simp only [List.forall_mem_cons] at small
            obtain ⟨ha, hb, hc, -⟩ := small
            exact encodeBytes_join_three ha hb hc unused
          · cases read
        · next a b c d others =>
          cases read
          have alone : others = [] := by
            simp only [List.length_cons] at short
            exact List.eq_nil_of_length_eq_zero (by omega)
          subst alone
          simp only [List.forall_mem_cons] at small
          obtain ⟨ha, hb, hc, hd, -⟩ := small
          rw [← List.append_nil (join a b c d), encodeBytes_join ha hb hc hd]
          cases form <;> rfl
        · cases read

/-- Every group is the text of its octets. -/
theorem decodeGroups_ok {text bytes : Bytes} (read : decodeGroups form offset text = .ok bytes) :
    encodeBytes form bytes = text := by
  induction offset, text using decodeGroups.induct generalizing bytes with
  | case1 offset a b c d e rest ih =>
    simp only [decodeGroups, bind_eq_ok_iff, pure, Except.pure] at read
    obtain ⟨va, readA, vb, readB, vc, readC, vd, readD, others, more, whole⟩ := read
    cases whole
    obtain ⟨ha, rfl⟩ := valueAt_ok readA
    obtain ⟨hb, rfl⟩ := valueAt_ok readB
    obtain ⟨hc, rfl⟩ := valueAt_ok readC
    obtain ⟨hd, rfl⟩ := valueAt_ok readD
    rw [encodeBytes_join ha hb hc hd, ih more]
    rfl
  | case2 offset =>
    cases read
    rfl
  | case3 offset last full nonempty =>
    have group : decodeGroups form offset last = decodeLast form offset last := by
      rw [decodeGroups]
      · exact full
      · exact nonempty
    rw [group] at read
    refine decodeLast_ok ?_ read
    rcases last with _ | ⟨a, _ | ⟨b, _ | ⟨c, _ | ⟨d, _ | ⟨e, rest⟩⟩⟩⟩⟩
    all_goals first | exact absurd rfl (full _ _ _ _ _ _) | simp

theorem decodeBytes_ok {text bytes : Bytes} (read : decodeBytes form text = .ok bytes) :
    encodeBytes form bytes = text := by
  rw [decodeBytes] at read
  split at read
  · next none =>
    cases read
    rw [List.getLast?_eq_none_iff.mp none]
    rfl
  · split at read
    · cases read
    · exact decodeGroups_ok read

/-- A text stands for octets exactly where it is the one text that is written for them. -/
theorem decode_ok_iff {text : String} {bytes : Bytes} :
    decode form text = .ok bytes ↔ text = encode form bytes := by
  constructor
  · intro read
    rw [← Bytes.ofText_inj, ofText_encode, decodeBytes_ok read]
  · rintro rfl
    exact decode_encode form bytes

end SecureChannel.Base64
