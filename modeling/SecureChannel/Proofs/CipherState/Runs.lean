import SecureChannel.Proofs.CipherState.Outcomes
import SecureChannel.Proofs.CipherState.Records

/-!
# Runs of a direction

A sender is given texts one after the other, and a receiver is shown octets one after the other. A
run is a list of such calls; nothing says that they belong together, or that any of them succeeds.
`sealings` and `openings` are the records of the calls that did, in order, and `sealedAll` and
`shownAll` are the states that are left. A call that fails leaves no record and changes nothing.

`openings_induction` and `sealings_induction` package the induction over a run: what holds of a
state and its records at first, and is kept by each call that succeeds, holds in the end.
-/

namespace SecureChannel

/-- What a direction is called with: a text to seal, or octets to open. -/
structure CipherState.Call where
  ad : Bytes
  octets : Bytes
deriving DecidableEq

/-- The ciphertext of a text, as the receiver is shown it. -/
def Seal.call (e : Seal) : CipherState.Call := ⟨e.ad, e.ciphertext⟩

/-- What was sealed. -/
def Seal.text (e : Seal) : CipherState.Call := ⟨e.ad, e.plaintext⟩

/-- What came out of an opening. -/
def Opening.text (o : Opening) : CipherState.Call := ⟨o.ad, o.plaintext⟩

namespace CipherState

variable {p : Primitives} {s t : CipherState} {c : Call} {e : CipherError}
variable {plaintext ciphertext : Bytes}

/-! ### Receivers -/

/-- What a receiver answers to octets. -/
def answer (p : Primitives) (s : CipherState) (c : Call) : Except CipherError Bytes :=
  (s.decrypt p c.ad c.octets).map Prod.fst

/-- What becomes of a receiver that is shown octets. -/
def shown (p : Primitives) (s : CipherState) (c : Call) : CipherState :=
  match s.decrypt p c.ad c.octets with
  | .ok (_, t) => t
  | .error _ => s

/-- What becomes of a receiver that is shown octets several times. -/
def shownAll (p : Primitives) (s : CipherState) (calls : List Call) : CipherState :=
  calls.foldl (shown p) s

/-- The record of a call, if it succeeds. -/
def opening (p : Primitives) (s : CipherState) (c : Call) : List Opening :=
  match s.decrypt p c.ad c.octets with
  | .ok (plaintext, _) => [⟨s, c.ad, c.octets, plaintext⟩]
  | .error _ => []

/-- The records of the calls that succeed. -/
def openings (p : Primitives) : CipherState → List Call → List Opening
  | _, [] => []
  | s, c :: calls => s.opening p c ++ openings p (s.shown p c) calls

theorem answer_ok_iff : s.answer p c = .ok plaintext ↔
    ∃ t, s.decrypt p c.ad c.octets = .ok (plaintext, t) := by
  rw [answer]
  cases s.decrypt p c.ad c.octets with
  | error e => simp [Except.map]
  | ok opened => simp [Except.map, Prod.ext_iff]

theorem answer_error_iff : s.answer p c = .error e ↔
    s.decrypt p c.ad c.octets = .error e := by
  rw [answer]
  cases s.decrypt p c.ad c.octets with
  | error e => simp [Except.map]
  | ok opened => simp [Except.map]

theorem shown_of_error (refused : s.decrypt p c.ad c.octets = .error e) : s.shown p c = s := by
  simp only [shown, refused]

theorem opening_of_error (refused : s.decrypt p c.ad c.octets = .error e) :
    s.opening p c = [] := by
  simp only [opening, refused]

theorem shown_of_ok (opened : s.decrypt p c.ad c.octets = .ok (plaintext, t)) :
    s.shown p c = t := by
  simp only [shown, opened]

theorem opening_of_ok (opened : s.decrypt p c.ad c.octets = .ok (plaintext, t)) :
    s.opening p c = [⟨s, c.ad, c.octets, plaintext⟩] := by
  simp only [opening, opened]

theorem shownAll_append (p : Primitives) (s : CipherState) (first second : List Call) :
    s.shownAll p (first ++ second) = (s.shownAll p first).shownAll p second :=
  List.foldl_append

theorem openings_append (p : Primitives) (s : CipherState) (first second : List Call) :
    s.openings p (first ++ second) =
      s.openings p first ++ (s.shownAll p first).openings p second := by
  induction first generalizing s with
  | nil => rfl
  | cons c first ih =>
    rw [List.cons_append, openings, openings, ih, List.append_assoc]
    rfl

/-- What each call that succeeds keeps holds after every run. -/
theorem openings_induction {P : CipherState → List Opening → Prop} (start : P s [])
    (step : ∀ (u v : CipherState) (before : List Opening) (c : Call) (plaintext : Bytes),
      P u before → u.decrypt p c.ad c.octets = .ok (plaintext, v) →
        P v (before ++ [⟨u, c.ad, c.octets, plaintext⟩])) (calls : List Call) :
    P (s.shownAll p calls) (s.openings p calls) := by
  have run : ∀ u before, P u before → P (u.shownAll p calls) (before ++ u.openings p calls) := by
    induction calls with
    | nil =>
      intro u before holds
      rwa [openings, List.append_nil]
    | cons c calls ih =>
      intro u before holds
      rw [openings, ← List.append_assoc]
      apply ih (u.shown p c)
      cases answer : u.decrypt p c.ad c.octets with
      | error e =>
        rw [shown_of_error answer, opening_of_error answer, List.append_nil]
        exact holds
      | ok opened =>
        rw [shown_of_ok answer, opening_of_ok answer]
        exact step u opened.2 before c opened.1 holds answer
  exact run s [] start

/-! ### Senders -/

/-- What becomes of a sender that is given a text. -/
def sealed (p : Primitives) (s : CipherState) (c : Call) : CipherState :=
  match s.encrypt p c.ad c.octets with
  | .ok (_, t) => t
  | .error _ => s

/-- What becomes of a sender that is given several texts. -/
def sealedAll (p : Primitives) (s : CipherState) (texts : List Call) : CipherState :=
  texts.foldl (sealed p) s

/-- The record of a text, if it is sealed. -/
def sealing (p : Primitives) (s : CipherState) (c : Call) : List Seal :=
  match s.encrypt p c.ad c.octets with
  | .ok (ciphertext, _) => [⟨s, c.ad, c.octets, ciphertext⟩]
  | .error _ => []

/-- The records of the texts that are sealed. -/
def sealings (p : Primitives) : CipherState → List Call → List Seal
  | _, [] => []
  | s, c :: texts => s.sealing p c ++ sealings p (s.sealed p c) texts

theorem sealed_of_error (refused : s.encrypt p c.ad c.octets = .error e) : s.sealed p c = s := by
  simp only [sealed, refused]

theorem sealing_of_error (refused : s.encrypt p c.ad c.octets = .error e) :
    s.sealing p c = [] := by
  simp only [sealing, refused]

theorem sealed_of_ok (sent : s.encrypt p c.ad c.octets = .ok (ciphertext, t)) :
    s.sealed p c = t := by
  simp only [sealed, sent]

theorem sealing_of_ok (sent : s.encrypt p c.ad c.octets = .ok (ciphertext, t)) :
    s.sealing p c = [⟨s, c.ad, c.octets, ciphertext⟩] := by
  simp only [sealing, sent]

/-- What each text that is sealed keeps holds after every run. -/
theorem sealings_induction {P : CipherState → List Seal → Prop} (start : P s [])
    (step : ∀ (u v : CipherState) (before : List Seal) (c : Call) (ciphertext : Bytes),
      P u before → u.encrypt p c.ad c.octets = .ok (ciphertext, v) →
        P v (before ++ [⟨u, c.ad, c.octets, ciphertext⟩])) (texts : List Call) :
    P (s.sealedAll p texts) (s.sealings p texts) := by
  have run : ∀ u before, P u before → P (u.sealedAll p texts) (before ++ u.sealings p texts) := by
    induction texts with
    | nil =>
      intro u before holds
      rwa [sealings, List.append_nil]
    | cons c texts ih =>
      intro u before holds
      rw [sealings, ← List.append_assoc]
      apply ih (u.sealed p c)
      cases answer : u.encrypt p c.ad c.octets with
      | error e =>
        rw [sealed_of_error answer, sealing_of_error answer, List.append_nil]
        exact holds
      | ok sent =>
        rw [sealed_of_ok answer, sealing_of_ok answer]
        exact step u sent.2 before c sent.1 holds answer
  exact run s [] start

/-! ### Delivery -/

/-- What a direction seals, the other end opens, all of it and in order. -/
def Delivers (p : Primitives) (sender receiver : CipherState) : Prop :=
  ∀ texts, (receiver.openings p ((sender.sealings p texts).map Seal.call)).map Opening.text =
    (sender.sealings p texts).map Seal.text

/-- Directions that are in step deliver whatever they are given. -/
theorem InStep.delivers (sealing : p.Sealing) {sender receiver : CipherState}
    (inStep : InStep sender receiver) : Delivers p sender receiver := by
  intro texts
  induction texts generalizing sender receiver with
  | nil => rfl
  | cons c texts ih =>
    rw [sealings]
    cases answer : sender.encrypt p c.ad c.octets with
    | error e =>
      rw [sealed_of_error answer, sealing_of_error answer]
      exact ih inStep
    | ok sent =>
      obtain ⟨receiver', opened, next⟩ := inStep.deliver sealing answer
      rw [sealed_of_ok answer, sealing_of_ok answer, List.map_append, openings_append,
        List.map_append, List.map_append]
      have shows : receiver.shownAll p ([⟨sender, c.ad, c.octets, sent.1⟩].map Seal.call) =
          receiver' := shown_of_ok (c := ⟨c.ad, sent.1⟩) opened
      have opens : receiver.openings p ([⟨sender, c.ad, c.octets, sent.1⟩].map Seal.call) =
          [⟨receiver, c.ad, sent.1, c.octets⟩] := by
        simp only [List.map_cons, List.map_nil, openings, List.append_nil, Seal.call]
        exact opening_of_ok opened
      rw [shows, opens, ih next]
      rfl

/-! ### Counters -/

/-- A direction has used its counter so many times. -/
structure Counted (s : CipherState) (count : Nat) (t : CipherState) : Prop where
  key : t.key = s.key
  window : t.window = s.window
  nonce : t.nonce.toNat = s.nonce.toNat + count

theorem Counted.refl (s : CipherState) : Counted s 0 s := ⟨rfl, rfl, rfl⟩

theorem Counted.succ {count : Nat} (counted : Counted s count t) (below : t.nonce ≠ lastNonce) :
    Counted s (count + 1) { t with nonce := t.nonce + 1 } := by
  refine ⟨counted.key, counted.window, ?_⟩
  rw [toNat_succ_nonce below, counted.nonce, Nat.add_assoc]

/-- The last of a list is the one that was added, and the others were there before. -/
theorem getElem?_concat_cases {α : Type} {before : List α} {last a : α} {i : Nat}
    (found : (before ++ [last])[i]? = some a) :
    before[i]? = some a ∨ i = before.length ∧ last = a := by
  rw [List.getElem?_append] at found
  split at found
  · exact .inl found
  · next beyond =>
    rw [List.getElem?_singleton] at found
    split at found
    · next first => exact .inr ⟨by omega, Option.some.inj found⟩
    · cases found

/-- A sender seals one text after the other under one number after the other. -/
theorem sealings_counted (p : Primitives) (s : CipherState) (texts : List Call) :
    Counted s (s.sealings p texts).length (s.sealedAll p texts) ∧
      ∀ i e, (s.sealings p texts)[i]? = some e → e.Made p ∧ Counted s i e.sender := by
  apply sealings_induction (P := fun t seals => Counted s seals.length t ∧
    ∀ i e, seals[i]? = some e → e.Made p ∧ Counted s i e.sender)
  · exact ⟨.refl s, by simp⟩
  · rintro t u before c ciphertext ⟨counted, numbered⟩ sent
    obtain ⟨below, -, -, rfl⟩ := encrypt_ok_iff.mp sent
    refine ⟨?_, ?_⟩
    · rw [List.length_append]
      exact counted.succ below
    · intro i e found
      rcases getElem?_concat_cases found with old | ⟨rfl, rfl⟩
      · exact numbered i e old
      · exact ⟨⟨_, sent⟩, counted⟩

/-- A receiver with implicit nonces opens one ciphertext after the other under one number after the
other. -/
theorem openings_counted (p : Primitives) (implicit : s.window = none) (calls : List Call) :
    Counted s (s.openings p calls).length (s.shownAll p calls) ∧
      ∀ i o, (s.openings p calls)[i]? = some o → o.Made p ∧ Counted s i o.receiver := by
  apply openings_induction (P := fun t openings => Counted s openings.length t ∧
    ∀ i o, openings[i]? = some o → o.Made p ∧ Counted s i o.receiver)
  · exact ⟨.refl s, by simp⟩
  · rintro t u before c plaintext ⟨counted, numbered⟩ opened
    have next := opened
    rw [decrypt_of_implicit (counted.window.trans implicit)] at next
    obtain ⟨-, below, -, rfl⟩ := decryptNext_ok_iff.mp next
    refine ⟨?_, ?_⟩
    · rw [List.length_append]
      exact counted.succ below
    · intro i o found
      rcases getElem?_concat_cases found with old | ⟨rfl, rfl⟩
      · exact numbered i o old
      · exact ⟨⟨_, opened⟩, counted⟩

end CipherState

end SecureChannel
