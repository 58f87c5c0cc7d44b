import SecureChannel.Proofs.Service.Turns

/-!
# What a request can do besides succeed

Serving a message goes through five stages: it is decoded, its channel is looked up, its ciphertext
is opened, the application is asked, and the answer is sealed. `fails_closed` says what the server
is like afterwards, whichever stage is the last one. As long as no ciphertext was opened, no
direction of any channel has moved, and the application was not asked. Once it was opened, the
application is asked exactly once, about the plaintext that the channel has authenticated.

To speak about how often the application is asked, `handleMessageM` serves a message for an
application with effects of its own. Without effects it is `handleMessage`, and an application that
keeps a record of what it is asked about shows what `handleMessage` asks.
-/

namespace SecureChannel

open Registry

namespace Service

variable {p : Primitives} {s : Service} {m : Message} {now : Nat} {h : Handle} {c : Channel}
variable {id : ChannelId} {ciphertext plaintext : Bytes} {decrypter : CipherState}
variable {e : CipherError}

/-! ### What the application is asked -/

/-- Serves a message for an application that may have effects of its own. -/
def handleMessageM {μ : Type → Type} [Monad μ] (p : Primitives) (ask : Bytes → μ Bytes)
    (s : Service) (now : Nat) (m : Message) : μ (Except ChannelError Bytes × Service) :=
  match s.receive p now [] m with
  | (.error e, s) => pure (.error e, s)
  | (.ok (_, h, plaintext), s) => do
      let reply ← ask plaintext
      let (answer, r) := s.registry.encrypt p h now [] reply
      return (answer, { s with registry := r })

/-- An application that answers as usual and keeps a record of what it was asked about. -/
def record (handler : Bytes → Bytes) (plaintext : Bytes) : StateM (List Bytes) Bytes := do
  modify (· ++ [plaintext])
  return handler plaintext

/-- What the application is asked about when a message is served, in this order. -/
def questions (p : Primitives) (s : Service) (now : Nat) (m : Message) : List Bytes :=
  ((s.handleMessageM p (record s.handler) now m).run []).2

/-- Receiving a message does not replace the application. -/
theorem handler_receive (p : Primitives) (s : Service) (now : Nat) (ad : Bytes) (m : Message) :
    (s.receive p now ad m).2.handler = s.handler := by
  obtain ⟨r, service⟩ := receive_service p s now ad m
  rw [service]

/-- An application without effects is served as usual. -/
theorem handleMessageM_pure {μ : Type → Type} [Monad μ] [LawfulMonad μ] (p : Primitives)
    (s : Service) (now : Nat) (m : Message) :
    s.handleMessageM p (fun text => (pure (s.handler text) : μ Bytes)) now m =
      pure (s.handleMessage p now m) := by
  have handler := handler_receive p s now [] m
  rw [handleMessageM, handleMessage]
  generalize s.receive p now [] m = received at handler ⊢
  rcases received with ⟨_ | _, t⟩
  · rfl
  · simp only [pure_bind, ← handler]

/-- The record makes no difference to the answer and to what becomes of the server. -/
theorem run_record (p : Primitives) (s : Service) (now : Nat) (m : Message) :
    ((s.handleMessageM p (record s.handler) now m).run []).1 = s.handleMessage p now m := by
  have handler := handler_receive p s now [] m
  rw [handleMessageM, handleMessage]
  generalize s.receive p now [] m = received at handler ⊢
  rcases received with ⟨_ | _, t⟩
  · rfl
  · simp only [← handler]
    rfl

theorem questions_of_error {e : ChannelError} {t : Service}
    (refused : s.receive p now [] m = (.error e, t)) : s.questions p now m = [] := by
  rw [questions, handleMessageM, refused]
  rfl

theorem questions_of_ok {t : Service}
    (received : s.receive p now [] m = (.ok (id, h, plaintext), t)) :
    s.questions p now m = [plaintext] := by
  rw [questions, handleMessageM, received]
  rfl

/-- A request to close is no business of the application: it is served alike whatever the
application would say. -/
theorem handleClose_handler (p : Primitives) (s : Service) (now : Nat) (m : Message)
    (other : Bytes → Bytes) :
    { s with handler := other }.handleClose p now m =
      ((s.handleClose p now m).1, { (s.handleClose p now m).2 with handler := other }) := by
  rw [handleClose, receive_withHandler, handleClose]
  rcases s.receive p now closeMarker m with ⟨_ | ⟨id, h, plaintext⟩, t⟩
  · rfl
  · dsimp only
    rcases t.registry.removeChannel h with ⟨_ | _, r⟩ <;> rfl

/-! ### One outcome after the other -/

/-- The channel of a handle is `d` now, and its name is free if `gone`. Nothing else of the server
has changed. -/
structure Replaces (s : Service) (h : Handle) (d : Channel) (gone : Prop) (t : Service) :
    Prop where
  service : t = { s with registry := t.registry }
  changes : Changes s.registry h d gone t.registry

/-- What is left of a channel that has refused a ciphertext: its directions have not moved, and the
refusal is counted, if it is one that counts. -/
structure Refuses {α : Type} (s : Service) (now : Nat) (h : Handle) (c : Channel)
    (e : CipherError) (answer : Except ChannelError α) (t : Service) : Prop where
  answer : answer = .error (.ofCipher e)
  replaces : Replaces s h
    { c with
      lastUsed := now
      authFailures := if e.counts then c.authFailures + 1 else c.authFailures }
    (e.counts = true ∧ Exhausts s.registry.limits (c.authFailures + 1)) t

/-- A channel has opened a message, and the application has said `reply`: that is sealed on the same
channel, or the channel says why it cannot be. -/
structure Replies (p : Primitives) (s : Service) (now : Nat) (h : Handle) (c : Channel)
    (decrypter : CipherState) (reply : Bytes) (answer : Except ChannelError Bytes) (t : Service) :
    Prop where
  sealed : ∀ octets, answer = .ok octets → ∃ encrypter,
    c.pair.encrypter.encrypt p [] reply = .ok (octets, encrypter) ∧
    encrypter.nonce.toNat = c.pair.encrypter.nonce.toNat + 1 ∧
    Replaces s h { c with lastUsed := now, pair := ⟨encrypter, decrypter⟩, authFailures := 0 }
      False t
  unsealed : ∀ e, answer = .error e → ∃ e', e = .ofCipher e' ∧
    c.pair.encrypter.encrypt p [] reply = .error e' ∧
    Replaces s h
      { c with lastUsed := now, pair := ⟨c.pair.encrypter, decrypter⟩, authFailures := 0 } False t

theorem Reaches.refuses_of_receive {ad : Bytes} (reaches : Reaches s m h c ciphertext)
    (refused : c.pair.decrypter.decrypt p ad ciphertext = .error e) (now : Nat) :
    ∃ t, s.receive p now ad m = (.error (.ofCipher e), t) ∧
      Refuses s now h c e (.error (.ofCipher e) : Except ChannelError Bytes) t := by
  obtain ⟨r, received, changes⟩ := reaches.receive_refused refused now
  rw [Bool.and_eq_true, decide_eq_true_eq] at changes
  exact ⟨_, received, rfl, rfl, changes⟩

theorem Refuses.of_error {α β : Type} {answer : Except ChannelError α} {t : Service}
    (refuses : Refuses s now h c e answer t) :
    Refuses s now h c e (.error (.ofCipher e) : Except ChannelError β) t :=
  ⟨rfl, refuses.replaces⟩

theorem Reaches.handleMessage_refuses (reaches : Reaches s m h c ciphertext)
    (refused : c.pair.decrypter.decrypt p [] ciphertext = .error e) (now : Nat) :
    Refuses s now h c e (s.handleMessage p now m).1 (s.handleMessage p now m).2 ∧
      s.questions p now m = [] := by
  obtain ⟨t, received, refuses⟩ := reaches.refuses_of_receive refused now
  refine ⟨?_, questions_of_error received⟩
  simp only [Service.handleMessage, received]
  exact refuses

theorem Reaches.handleClose_refuses (reaches : Reaches s m h c ciphertext)
    (refused : c.pair.decrypter.decrypt p closeMarker ciphertext = .error e) (now : Nat) :
    Refuses s now h c e (s.handleClose p now m).1 (s.handleClose p now m).2 := by
  obtain ⟨t, received, refuses⟩ := reaches.refuses_of_receive refused now
  simp only [Service.handleClose, received]
  exact refuses.of_error

theorem Reaches.handleMessage_replies (reaches : Reaches s m h c ciphertext)
    (opened : c.pair.decrypter.decrypt p [] ciphertext = .ok (plaintext, decrypter)) (now : Nat) :
    Replies p s now h c decrypter (s.handler plaintext) (s.handleMessage p now m).1
        (s.handleMessage p now m).2 ∧
      s.questions p now m = [plaintext] := by
  obtain ⟨_, received, -⟩ := reaches.receive_opened opened now
  obtain ⟨r, answer, changes⟩ := Reaches.handle_eq (q := ⟨m, now, false⟩) reaches p
  change s.handleMessage p now m = _ at answer
  rw [answer]
  refine ⟨?_, questions_of_ok received⟩
  have turn : c.turn p s.registry.limits s.handler ⟨m, now, false⟩ ciphertext =
      ⟨((c.opened now decrypter).encrypt p now [] (s.handler plaintext)).1,
        ((c.opened now decrypter).encrypt p now [] (s.handler plaintext)).2, false⟩ := by
    simp only [Channel.turn, Inbound.marker, Bool.false_eq_true, if_false, opened]
  rw [turn] at changes ⊢
  simp only [Channel.encrypt, Channel.opened, Channel.touch] at changes ⊢
  cases result : c.pair.encrypter.encrypt p [] (s.handler plaintext) with
  | error e =>
    simp only [result, Bool.false_eq_true] at changes ⊢
    refine ⟨fun _ answer => (by cases answer), ?_⟩
    rintro _ ⟨⟩
    exact ⟨e, rfl, result, rfl, changes⟩
  | ok sealing =>
    obtain ⟨octets, encrypter⟩ := sealing
    simp only [result, Bool.false_eq_true] at changes ⊢
    obtain ⟨below, -, -, moved⟩ := CipherState.encrypt_ok_iff.mp result
    refine ⟨?_, fun _ answer => (by cases answer)⟩
    rintro _ ⟨⟩
    refine ⟨encrypter, result, ?_, rfl, changes⟩
    rw [← moved]
    exact CipherState.toNat_succ_nonce below

theorem Reaches.handleClose_closes (reaches : Reaches s m h c ciphertext)
    (opened : c.pair.decrypter.decrypt p closeMarker ciphertext = .ok (plaintext, decrypter))
    (now : Nat) :
    (s.handleClose p now m).1 = .ok () ∧ Replaces s h
      { c with lastUsed := now, pair := ⟨c.pair.encrypter, decrypter⟩, authFailures := 0 } True
      (s.handleClose p now m).2 := by
  obtain ⟨r, closed, changes⟩ := reaches.handleClose_opened opened now trivial
  rw [closed]
  exact ⟨rfl, rfl, changes⟩

/-! ### All outcomes -/

/-- Whatever a server was called with before, and whatever it is called with now:

* a request that makes no sense, or is for no live channel, changes nothing, and the application is
  not asked;
* a ciphertext that its channel refuses moves no direction; it is counted and may cost the channel
  its name, and the application is not asked;
* a message that its channel opens is put to the application exactly once, and what the application
  says is sealed on the same channel; the row of refusals is over;
* a request to close that its channel opens costs the channel its name, and the application has no
  part in it.
-/
theorem fails_closed {config : Config} {key : Option StaticKey} {handler : Bytes → Bytes}
    (reached : Reachable p config key handler s) (now : Nat) (m : Message) :
    (∀ e, config.codec.decode config.idScheme m = .error e →
      s.handleMessage p now m = (.error (.codec e), s) ∧ s.questions p now m = [] ∧
      s.handleClose p now m = (.error (.codec e), s)) ∧
    (∀ id ciphertext, config.codec.decode config.idScheme m = .ok (id, ciphertext) →
      s.registry.live? id = none →
        s.handleMessage p now m = (.error (.unknownChannel id), s) ∧ s.questions p now m = [] ∧
        s.handleClose p now m = (.error (.unknownChannel id), s)) ∧
    (∀ id ciphertext h, config.codec.decode config.idScheme m = .ok (id, ciphertext) →
      s.registry.live? id = some h → ∃ c, s.registry.channel? h = some c ∧ c.id = id ∧
        (∀ e, c.pair.decrypter.decrypt p [] ciphertext = .error e →
          Refuses s now h c e (s.handleMessage p now m).1 (s.handleMessage p now m).2 ∧
          s.questions p now m = []) ∧
        (∀ plaintext decrypter,
          c.pair.decrypter.decrypt p [] ciphertext = .ok (plaintext, decrypter) →
            Replies p s now h c decrypter (handler plaintext) (s.handleMessage p now m).1
              (s.handleMessage p now m).2 ∧
            s.questions p now m = [plaintext]) ∧
        (∀ e, c.pair.decrypter.decrypt p closeMarker ciphertext = .error e →
          Refuses s now h c e (s.handleClose p now m).1 (s.handleClose p now m).2) ∧
        ∀ plaintext decrypter,
          c.pair.decrypter.decrypt p closeMarker ciphertext = .ok (plaintext, decrypter) →
            (s.handleClose p now m).1 = .ok () ∧ Replaces s h
              { c with lastUsed := now, pair := ⟨c.pair.encrypter, decrypter⟩, authFailures := 0 }
              True (s.handleClose p now m).2) ∧
    (∀ octets, (s.handleMessage p now m).1 = .ok octets →
      ∃ h c ciphertext plaintext decrypter, Reaches s m h c ciphertext ∧
        c.pair.decrypter.decrypt p [] ciphertext = .ok (plaintext, decrypter) ∧
        s.questions p now m = [plaintext] ∧
        Replies p s now h c decrypter (handler plaintext) (.ok octets)
          (s.handleMessage p now m).2) ∧
    ∀ other, { s with handler := other }.handleClose p now m =
      ((s.handleClose p now m).1, { (s.handleClose p now m).2 with handler := other }) := by
  obtain ⟨rfl, rfl, named⟩ := reached.sound
  refine ⟨?_, ?_, ?_, ?_, handleClose_handler p s now m⟩
  · intro e undecodable
    have received := fun ad => receive_of_undecodable undecodable p now ad
    refine ⟨?_, questions_of_error (received []), ?_⟩
    · rw [handleMessage, received]
    · rw [handleClose, received]
  · intro id ciphertext decoded unknown
    have received := fun ad => receive_of_unknown decoded unknown p now ad
    refine ⟨?_, questions_of_error (received []), ?_⟩
    · rw [handleMessage, received]
    · rw [handleClose, received]
  · intro id ciphertext h decoded live
    obtain ⟨c, rfl, reaches⟩ := reached.reaches decoded live
    exact ⟨c, reaches.found, rfl, fun e refused => reaches.handleMessage_refuses refused now,
      fun plaintext decrypter opened => reaches.handleMessage_replies opened now,
      fun e refused => reaches.handleClose_refuses refused now,
      fun plaintext decrypter opened => reaches.handleClose_closes opened now⟩
  · intro octets answer
    obtain ⟨id, h, c, ciphertext, plaintext, decrypter, t, receives, -, -⟩ :=
      handleMessage_ok named answer
    obtain rfl := receives.name
    have reaches : Reaches s m h c ciphertext := ⟨receives.decoded, receives.live, receives.found⟩
    obtain ⟨replies, asked⟩ := reaches.handleMessage_replies receives.opened now
    rw [answer] at replies
    exact ⟨h, c, ciphertext, plaintext, decrypter, reaches, receives.opened, asked, replies⟩

/-- Of two requests the one makes no sense and the other is a message of a peer: nothing comes of
the first, and the application is asked about the second once. -/
theorem fails_closed_twoPeers : ∃ ciphertext,
    twoPeers.handleMessage .standard 1 ⟨none, none, ciphertext⟩ =
      (.error (.codec .missingTag), twoPeers) ∧
    twoPeers.questions .standard 1 ⟨some [1], none, ciphertext⟩ = [[5, 6]] := by
  obtain ⟨ciphertext, decrypter, opened⟩ :=
    sealed_for_peer [] (by decide : ¬ CipherState.tooLong [5, 6])
  have untagged := (fails_closed reachable_twoPeers 1 ⟨none, none, ciphertext⟩).1 _ rfl
  obtain ⟨c, found, -, -, serves, -⟩ := (fails_closed reachable_twoPeers 1
    ⟨some [1], none, ciphertext⟩).2.2.1 _ ciphertext _ rfl live?_twoPeers.1
  obtain rfl := Option.some.inj (channel?_twoPeers.1.symm.trans found)
  exact ⟨ciphertext, untagged.1, (serves [5, 6] decrypter opened).2⟩

end Service

end SecureChannel
