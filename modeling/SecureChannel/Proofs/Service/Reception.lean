import SecureChannel.Proofs.Registry.Departures
import SecureChannel.Proofs.Service.Locality

/-!
# What a message does to the channel that it is for

`Reaches` says that a message is for a live channel: it decodes to the name of the channel. Then
what the decrypter of the channel answers decides everything. If it opens the ciphertext, the
channel's row of refusals is over. If it refuses the ciphertext, the row is longer by one, and the
channel is gone if that was one too many. A message that is for no live channel does nothing at
all.

The lemmas about `receive` hold under any associated data. A message to be served goes on from there
by sealing an answer, and a request to close by giving up the channel's name.
-/

namespace SecureChannel

open Registry

/-- Whether a message that is refused like this counts against the channel. -/
def CipherError.counts : CipherError → Bool
  | .authenticationFailure | .replay _ => true
  | .nonceExhausted | .encryptionFailed => false

/-- How many messages in a row were refused, after one more result. -/
def tally {α : Type} (result : Except CipherError α) (row : Nat) : Nat :=
  match result with
  | .ok _ => 0
  | .error e => if e.counts then row + 1 else row

/-- The channel after it has opened a ciphertext. -/
def Channel.opened (c : Channel) (now : Nat) (decrypter : CipherState) : Channel :=
  { c.touch now with
    pair := { c.pair with decrypter := decrypter }
    authFailures := 0 }

/-- The channel after it has refused a ciphertext. -/
def Channel.refused (c : Channel) (now : Nat) (e : CipherError) : Channel :=
  { c.touch now with authFailures := if e.counts then c.authFailures + 1 else c.authFailures }

instance (limits : Limits) (failures : UInt32) : Decidable (Exhausts limits failures) :=
  inferInstanceAs (Decidable (_ ∧ _))

namespace Service

variable {p : Primitives} {now : Nat} {ad ciphertext plaintext : Bytes} {h : Handle}
variable {m : Message} {s : Service} {c : Channel} {decrypter : CipherState} {e : CipherError}
variable {row : Nat}

/-- The message is for the live channel `h`, which has the state `c`. -/
structure Reaches (s : Service) (m : Message) (h : Handle) (c : Channel) (ciphertext : Bytes) :
    Prop where
  decoded : s.config.codec.decode s.config.idScheme m = .ok (c.id, ciphertext)
  live : s.registry.live? c.id = some h
  found : s.registry.channel? h = some c

/-- A message is for one channel at most. -/
theorem Reaches.unique {one : Handle} {d : Channel} {octets : Bytes}
    (reaches : Reaches s m h c ciphertext) (again : Reaches s m one d octets) :
    one = h ∧ d = c ∧ octets = ciphertext := by
  obtain ⟨name, same⟩ := Prod.mk.inj (Except.ok.inj (again.decoded.symm.trans reaches.decoded))
  have live := again.live
  rw [name, reaches.live] at live
  obtain rfl : h = one := Option.some.inj live
  exact ⟨rfl, Option.some.inj (again.found.symm.trans reaches.found), same⟩

/-! ### Taking a message in -/

theorem receive_of_unreached (named : Named s.registry)
    (unreached : ∀ h c ciphertext, ¬ Reaches s m h c ciphertext) (p : Primitives) (now : Nat)
    (ad : Bytes) : ∃ e, s.receive p now ad m = (.error e, s) := by
  cases decoded : s.config.codec.decode s.config.idScheme m with
  | error e => exact ⟨.codec e, by simp only [receive, resolve, decoded]⟩
  | ok message =>
    obtain ⟨id, ciphertext⟩ := message
    rcases looked : s.registry.lookup id now with ⟨e | h, r⟩
    · refine ⟨e, ?_⟩
      simp only [receive, resolve, decoded, looked, lookup_error looked]
    · obtain ⟨c, live, found, rfl, -⟩ := lookup_ok named looked
      exact absurd ⟨decoded, live, found⟩ (unreached h c ciphertext)

/-- What becomes of a message is up to the channel that it is for, and only refusals are more than
the channel's own affair. -/
theorem Reaches.receive_eq (reaches : Reaches s m h c ciphertext) (p : Primitives) (now : Nat)
    (ad : Bytes) :
    ∃ r, s.registry.Updates h ((c.touch now).decrypt p now ad ciphertext).2 r ∧
      s.receive p now ad m =
        match c.pair.decrypter.decrypt p ad ciphertext with
        | .ok (plaintext, _) => (.ok (c.id, h, plaintext), { s with registry := r })
        | .error e => (.error (.ofCipher e),
            { s with registry := if e.counts then (r.recordFailure h).2 else r }) := by
  have touched := updates_modifyChannel reaches.found fun c => c.touch now
  obtain ⟨answer, updates⟩ :=
    step_eq (f := fun c => c.decrypt p now ad ciphertext) touched.changed
  refine ⟨_, touched.trans updates, ?_⟩
  simp only [receive, resolve, reaches.decoded, lookup_of_live? reaches.live, openOn,
    Registry.decrypt]
  generalize (s.registry.modifyChannel h fun c => c.touch now).step h
    (fun c => c.decrypt p now ad ciphertext) = result at answer ⊢
  obtain ⟨found, r⟩ := result
  obtain rfl := answer
  simp only [Channel.decrypt, Channel.touch]
  rcases c.pair.decrypter.decrypt p ad ciphertext with e | ⟨plaintext, decrypter⟩
  · cases e <;> rfl
  · rfl

/-- A channel that opens the message has been used, and has no refusals in a row. -/
theorem Reaches.receive_opened (reaches : Reaches s m h c ciphertext)
    (opened : c.pair.decrypter.decrypt p ad ciphertext = .ok (plaintext, decrypter)) (now : Nat) :
    ∃ r, s.receive p now ad m = (.ok (c.id, h, plaintext), { s with registry := r }) ∧
      s.registry.Updates h (c.opened now decrypter) r := by
  obtain ⟨r, updates, received⟩ := reaches.receive_eq p now ad
  simp only [Channel.decrypt, Channel.touch, opened] at updates received
  exact ⟨r, received, updates⟩

/-- A channel that refuses the message has been looked up. If the refusal counts, it is counted, and
may cost the channel its name. -/
theorem Reaches.receive_refused (reaches : Reaches s m h c ciphertext)
    (refused : c.pair.decrypter.decrypt p ad ciphertext = .error e) (now : Nat) :
    ∃ r, s.receive p now ad m = (.error (.ofCipher e), { s with registry := r }) ∧
      Changes s.registry h (c.refused now e)
        ((e.counts && decide (Exhausts s.registry.limits (c.authFailures + 1))) = true) r := by
  obtain ⟨r, updates, received⟩ := reaches.receive_eq p now ad
  simp only [Channel.decrypt, Channel.touch, refused] at updates received
  rw [Channel.refused]
  cases counts : e.counts with
  | false =>
    simp only [counts, Bool.false_eq_true, if_false] at received ⊢
    exact ⟨r, received, updates.changes (by simp)⟩
  | true =>
    simp only [counts, if_true] at received ⊢
    have failure := changes_recordFailure updates.changed ((updates.live? _).trans reaches.live)
    rw [updates.limits] at failure
    refine ⟨_, received, ?_⟩
    simp only [Bool.true_and, decide_eq_true_eq]
    exact .of_updates updates failure

/-- A channel that opens a request to close loses its name. -/
theorem Reaches.handleClose_opened (reaches : Reaches s m h c ciphertext)
    (opened : c.pair.decrypter.decrypt p closeMarker ciphertext = .ok (plaintext, decrypter))
    (now : Nat) {gone : Prop} (lost : gone) :
    ∃ r, s.handleClose p now m = (.ok (), { s with registry := r }) ∧
      Changes s.registry h (c.opened now decrypter) gone r := by
  obtain ⟨r, received, updates⟩ := reaches.receive_opened opened now
  obtain ⟨removed, changes⟩ := changes_removeChannel updates.changed
    ((updates.live? _).trans reaches.live) lost
  rcases removal : r.removeChannel h with ⟨freed, u⟩
  rw [removal] at removed changes
  obtain rfl : freed = true := removed
  refine ⟨u, ?_, .of_updates updates changes⟩
  simp only [Service.handleClose, received, removal]

/-! ### The row of refusals -/

/-- The live channel that a message is for, and what its decrypter says to the ciphertext. -/
def verdict (p : Primitives) (s : Service) (ad : Bytes) (m : Message) :
    Option (Handle × Except CipherError (Bytes × CipherState)) :=
  match s.config.codec.decode s.config.idScheme m with
  | .error _ => none
  | .ok (id, ciphertext) =>
      (s.registry.live? id).bind fun h =>
        (s.registry.channel? h).map fun c => (h, c.pair.decrypter.decrypt p ad ciphertext)

theorem Reaches.verdict (reaches : Reaches s m h c ciphertext) (p : Primitives) (ad : Bytes) :
    s.verdict p ad m = some (h, c.pair.decrypter.decrypt p ad ciphertext) := by
  simp [Service.verdict, reaches.decoded, reaches.live, reaches.found]

theorem verdict_of_unreached (named : Named s.registry)
    (unreached : ∀ h c ciphertext, ¬ Reaches s m h c ciphertext) (p : Primitives) (ad : Bytes) :
    s.verdict p ad m = none := by
  rw [Service.verdict]
  split
  · rfl
  · next id ciphertext decoded =>
    cases live : s.registry.live? id with
    | none => rfl
    | some h =>
      obtain ⟨c, found, rfl⟩ := named id h live
      exact absurd ⟨decoded, live, found⟩ (unreached h c ciphertext)

/-- Only the channel that a message is for says something to it. -/
theorem reaches_of_verdict (named : Named s.registry)
    {result : Except CipherError (Bytes × CipherState)}
    (said : s.verdict p ad m = some (h, result)) :
    ∃ c ciphertext, Reaches s m h c ciphertext ∧
      c.pair.decrypter.decrypt p ad ciphertext = result := by
  by_cases reached : ∃ h c ciphertext, Reaches s m h c ciphertext
  · obtain ⟨one, c, ciphertext, reaches⟩ := reached
    obtain ⟨rfl, rfl⟩ := Prod.mk.inj (Option.some.inj ((reaches.verdict p ad).symm.trans said))
    exact ⟨c, ciphertext, reaches, rfl⟩
  · have unreached : ∀ h c ciphertext, ¬ Reaches s m h c ciphertext := by
      intro h c ciphertext reaches
      exact reached ⟨h, c, ciphertext, reaches⟩
    rw [verdict_of_unreached named unreached] at said
    cases said

/-- The message is refused, and so many refusals in a row are what the limits allow. -/
def Exceeds (limits : Limits) (result : Except CipherError (Bytes × CipherState)) (row : Nat) :
    Prop :=
  ∃ e, result = .error e ∧ e.counts = true ∧ limits.maxAuthFailures ≠ 0 ∧
    row + 1 = limits.maxAuthFailures.toNat

/-- A live channel has refused fewer messages in a row than would have cost it its name, and it
knows how many. -/
structure InRow (limits : Limits) (c : Channel) (row : Nat) : Prop where
  counted : c.authFailures = .ofNat row
  below : limits.maxAuthFailures ≠ 0 → row < limits.maxAuthFailures.toNat

theorem InRow.exhausts_iff {limits : Limits} (inRow : InRow limits c row) :
    Exhausts limits (c.authFailures + 1) ↔
      limits.maxAuthFailures ≠ 0 ∧ row + 1 = limits.maxAuthFailures.toNat := by
  apply and_congr_right
  intro limited
  have below := inRow.below limited
  have small := limits.maxAuthFailures.toNat_lt
  have next : (c.authFailures + 1).toNat = row + 1 := by
    rw [inRow.counted, UInt32.toNat_add, UInt32.toNat_ofNat']
    simp
    omega
  rw [UInt32.le_iff_toNat_le, next]
  omega

/-- A message leaves the channel in its row, and the channel is gone if the row is too long. -/
theorem Reaches.receive (named : Named s.registry) (reaches : Reaches s m h c ciphertext)
    (inRow : InRow s.registry.limits c row) (p : Primitives) (now : Nat) (ad : Bytes) :
    ∃ d, d.id = c.id ∧
      d.authFailures = .ofNat (tally (c.pair.decrypter.decrypt p ad ciphertext) row) ∧
      Leaves s.registry h d
        (Exceeds s.registry.limits (c.pair.decrypter.decrypt p ad ciphertext) row)
        (s.receive p now ad m).2.registry := by
  cases result : c.pair.decrypter.decrypt p ad ciphertext with
  | ok opened =>
    obtain ⟨r, received, updates⟩ := reaches.receive_opened result now
    rw [received]
    refine ⟨_, ?_, ?_, updates.leaves ?_⟩
    · rfl
    · rfl
    · rintro ⟨e, refused, -⟩
      cases refused
  | error e =>
    obtain ⟨r, received, changes⟩ := reaches.receive_refused result now
    rw [received]
    have exceeds : (e.counts && decide (Exhausts s.registry.limits (c.authFailures + 1))) = true ↔
        Exceeds s.registry.limits (.error e) row := by
      rw [Bool.and_eq_true, decide_eq_true_eq, inRow.exhausts_iff, Exceeds]
      constructor
      · rintro ⟨counts, reached⟩
        exact ⟨e, rfl, counts, reached⟩
      · rintro ⟨_, ⟨⟩, counts, reached⟩
        exact ⟨counts, reached⟩
    refine ⟨c.refused now e, rfl, ?_,
      propext exceeds ▸ changes.leaves named reaches.found rfl reaches.live⟩
    simp only [tally, Channel.refused, inRow.counted]
    split
    · exact (UInt32.ofNat_add row 1).symm
    · rfl

theorem handleMessage_of_unreached (named : Named s.registry)
    (unreached : ∀ h c ciphertext, ¬ Reaches s m h c ciphertext) (p : Primitives) (now : Nat) :
    (s.handleMessage p now m).2 = s := by
  obtain ⟨e, received⟩ := receive_of_unreached named unreached p now []
  rw [Service.handleMessage, received]

theorem handleClose_of_unreached (named : Named s.registry)
    (unreached : ∀ h c ciphertext, ¬ Reaches s m h c ciphertext) (p : Primitives) (now : Nat) :
    (s.handleClose p now m).2 = s := by
  obtain ⟨e, received⟩ := receive_of_unreached named unreached p now closeMarker
  rw [Service.handleClose, received]

/-- Sealing the answer does not make a difference to the row. -/
theorem Reaches.handleMessage (named : Named s.registry) (reaches : Reaches s m h c ciphertext)
    (inRow : InRow s.registry.limits c row) (p : Primitives) (now : Nat) :
    ∃ d, d.authFailures = .ofNat (tally (c.pair.decrypter.decrypt p [] ciphertext) row) ∧
      Leaves s.registry h d
        (Exceeds s.registry.limits (c.pair.decrypter.decrypt p [] ciphertext) row)
        (s.handleMessage p now m).2.registry := by
  obtain ⟨d, -, counted, leaves⟩ := reaches.receive named inRow p now []
  obtain ⟨r, -, received⟩ := reaches.receive_eq p now []
  rw [received] at leaves
  rw [Service.handleMessage, received]
  rcases result : c.pair.decrypter.decrypt p [] ciphertext with e | ⟨plaintext, decrypter⟩
  · simp only [result] at counted leaves ⊢
    exact ⟨d, counted, leaves⟩
  · simp only [result] at counted leaves ⊢
    obtain ⟨-, updates⟩ :=
      step_eq (f := fun c => c.encrypt p now [] (s.handler plaintext)) leaves.changed
    refine ⟨_, ?_, leaves.updates updates⟩
    rw [← counted, Channel.encrypt]
    split <;> rfl

/-- A channel that opens a request to close is gone. -/
theorem Reaches.handleClose (named : Named s.registry) (reaches : Reaches s m h c ciphertext)
    (inRow : InRow s.registry.limits c row) (p : Primitives) (now : Nat) :
    ∃ d, d.authFailures = .ofNat (tally (c.pair.decrypter.decrypt p closeMarker ciphertext) row) ∧
      Leaves s.registry h d
        ((c.pair.decrypter.decrypt p closeMarker ciphertext).isOk = true ∨
          Exceeds s.registry.limits (c.pair.decrypter.decrypt p closeMarker ciphertext) row)
        (s.handleClose p now m).2.registry := by
  rcases result : c.pair.decrypter.decrypt p closeMarker ciphertext with e | ⟨plaintext, decrypter⟩
  · obtain ⟨d, -, counted, leaves⟩ := reaches.receive named inRow p now closeMarker
    obtain ⟨r, -, received⟩ := reaches.receive_eq p now closeMarker
    rw [received] at leaves
    simp only [result] at counted leaves
    refine ⟨d, counted, ?_⟩
    simp only [Service.handleClose, received, result, Except.isOk, Except.toBool,
      Bool.false_eq_true, false_or]
    exact leaves
  · have closes : (c.pair.decrypter.decrypt p closeMarker ciphertext).isOk = true ∨
        Exceeds s.registry.limits (c.pair.decrypter.decrypt p closeMarker ciphertext) row :=
      .inl (congrArg Except.isOk result)
    rw [result] at closes
    obtain ⟨r, closed, changes⟩ := reaches.handleClose_opened result now closes
    rw [closed]
    exact ⟨_, rfl, changes.leaves named reaches.found rfl reaches.live⟩

end Service

end SecureChannel
