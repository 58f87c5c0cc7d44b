import SecureChannel.Proofs.CipherState.Runs

/-!
# Receivers that count

A receiver with implicit nonces opens nothing but the ciphertext that comes next. Whatever it is
shown, in any order and any number of times, what it has opened so far are the first of the texts
that were sealed, in their order and with their associated data. And it never gets stuck: the
ciphertext that comes next is opened, whatever was refused before.

That holds as far as the cipher is not cheated, which is what `Genuine` says of a run. It does not
speak of the order. The order comes from the counters: both ends of a direction count what they have
sealed and opened, so the number of a record is its place.
-/

namespace SecureChannel.CipherState

variable {p : Primitives} {key : Bytes32} {texts calls : List Call} {i j : Nat}

theorem prefix_of_getElem? {α : Type} {xs ys : List α}
    (same : ∀ (i : Nat) (a : α), xs[i]? = some a → ys[i]? = some a) : xs <+: ys := by
  rw [List.prefix_iff_getElem?]
  intro i inside
  exact same i xs[i] (List.getElem?_eq_getElem inside)

/-- What was opened in a place was sealed in that place. -/
theorem text_of_genuine (sealing : p.Sealing)
    (genuine : Genuine ((new key .implicit).sealings p texts)
      ((new key .implicit).openings p calls)) {o : Opening}
    (found : ((new key .implicit).openings p calls)[i]? = some o) :
    ∃ e, ((new key .implicit).sealings p texts)[i]? = some e ∧ e.text = o.text := by
  obtain ⟨opened, receiver⟩ := (openings_counted p rfl calls).2 i o found
  obtain ⟨e, mem, octets, sameKey, number, ad⟩ := genuine o (List.mem_of_getElem? found)
  obtain ⟨j, there⟩ := List.getElem?_of_mem mem
  obtain ⟨made, sender⟩ := (sealings_counted p _ texts).2 j e there
  have place : i = j := by
    have counters : o.receiver.nonce = e.sender.nonce := by
      rw [Opening.number, Seal.number, unpack_of_implicit receiver.window,
        unpack_of_implicit sender.window] at number
      exact number
    have := receiver.nonce
    have := sender.nonce
    rw [counters] at *
    omega
  subst place
  refine ⟨e, there, ?_⟩
  have plaintext := Opening.plaintext_eq sealing made opened octets sameKey number ad
  rw [Seal.text, Opening.text, ad, plaintext]

/-- A receiver that counts has opened a prefix of what was sealed. A refusal leaves it as it was,
and it opens the ciphertext that comes next. -/
theorem opens_prefix (sealing : p.Sealing) (key : Bytes32) (texts calls : List Call)
    (genuine : Genuine ((new key .implicit).sealings p texts)
      ((new key .implicit).openings p calls)) :
    let s := new key .implicit
    (s.openings p calls).map Opening.text <+: (s.sealings p texts).map Seal.text ∧
    (∀ c e, (s.shownAll p calls).answer p c = .error e →
      s.shownAll p (calls ++ [c]) = s.shownAll p calls) ∧
    ∀ e, (s.sealings p texts)[(s.openings p calls).length]? = some e →
      (s.shownAll p calls).answer p e.call = .ok e.plaintext := by
  intro s
  refine ⟨?_, ?_, ?_⟩
  · apply prefix_of_getElem?
    intro i text found
    rw [List.getElem?_map, Option.map_eq_some_iff] at found
    obtain ⟨o, found, rfl⟩ := found
    obtain ⟨e, there, same⟩ := text_of_genuine sealing genuine found
    rw [List.getElem?_map, there, ← same]
    rfl
  · intro c e refused
    rw [shownAll_append]
    exact shown_of_error (answer_error_iff.mp refused)
  · intro e found
    obtain ⟨receiver, -⟩ := openings_counted p (s := s) rfl calls
    obtain ⟨⟨after, sent⟩, sender⟩ := (sealings_counted p s texts).2 _ e found
    have inStep : InStep e.sender (s.shownAll p calls) := by
      refine ⟨receiver.key.trans sender.key.symm, .inl ⟨sender.window, receiver.window, ?_⟩⟩
      rw [← UInt64.toNat_inj, receiver.nonce, sender.nonce]
    obtain ⟨receiver', opened, -⟩ := inStep.deliver sealing sent
    exact answer_ok_iff.mpr ⟨receiver', opened⟩

/-- Two texts, of which the second has other associated data than the first. -/
def twoTexts : List Call := [⟨[1], [10]⟩, ⟨[], [20, 21]⟩]

def ofTwo (number : UInt64) (text : Call) : Bytes :=
  Primitives.standard.encrypt (.ofNatLE 7) number text.ad text.octets

/-- The second ciphertext comes first, then something else, and then the first one twice. -/
def disorder : List Call :=
  [⟨[], ofTwo 1 ⟨[], [20, 21]⟩⟩, ⟨[1], [2, 3]⟩,
    ⟨[1], ofTwo 0 ⟨[1], [10]⟩⟩, ⟨[1], ofTwo 0 ⟨[1], [10]⟩⟩]

theorem openings_disorder : (new (.ofNatLE 7) .implicit).openings .standard disorder =
    [⟨new (.ofNatLE 7) .implicit, [1], ofTwo 0 ⟨[1], [10]⟩, [10]⟩] := by
  decide +kernel

/-- In such a run the first text is opened, and the second one can be opened then. -/
theorem opens_prefix_disorder :
    Genuine ((new (.ofNatLE 7) .implicit).sealings .standard twoTexts)
      ((new (.ofNatLE 7) .implicit).openings .standard disorder) ∧
    ((new (.ofNatLE 7) .implicit).openings .standard disorder).map Opening.text <+: twoTexts ∧
    ((new (.ofNatLE 7) .implicit).shownAll .standard disorder).answer .standard
      ⟨[], ofTwo 1 ⟨[], [20, 21]⟩⟩ = .ok [20, 21] := by
  have genuine : Genuine ((new (.ofNatLE 7) .implicit).sealings .standard twoTexts)
      ((new (.ofNatLE 7) .implicit).openings .standard disorder) := by
    rw [openings_disorder]
    intro o mem
    obtain rfl := List.mem_singleton.mp mem
    exact ⟨⟨_, [1], [10], _⟩, List.mem_cons_self, rfl, rfl, rfl, rfl⟩
  obtain ⟨opened, -, next⟩ :=
    opens_prefix Primitives.standard_sealing (.ofNatLE 7) twoTexts disorder genuine
  have texts : ((new (.ofNatLE 7) .implicit).sealings .standard twoTexts).map Seal.text =
      twoTexts := rfl
  refine ⟨genuine, texts ▸ opened, ?_⟩
  rw [openings_disorder] at next
  exact next ⟨⟨.ofNatLE 7, 1, none⟩, [], [20, 21], _⟩ rfl

end SecureChannel.CipherState
