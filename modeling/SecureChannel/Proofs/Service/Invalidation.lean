import SecureChannel.Proofs.Service.Turns

/-!
# A channel is invalidated by refusals in a row

The verdicts of a server are what its channels have said to the ciphertexts that were meant for
them, in messages and in requests to close. From them somebody who only watches can tell how many
refusals in a row each channel has given: those since the channel was made or has last opened
something. `refusals_counted` says that the counter of a channel is that number, and what follows
from it: no live channel has reached the limit, the refusal that reaches it costs the channel its
name, and nothing else that a server is called with counts or is held against a new channel.

A refusal is known from the answer of the server too: it is an authentication failure or a replay,
and nothing else is answered so.
-/

namespace SecureChannel

open Registry

/-- Whether an error says that a channel has refused a ciphertext. -/
def ChannelError.isRefusal : ChannelError → Bool
  | .authenticationFailure | .replay _ => true
  | _ => false

@[simp] theorem ChannelError.isRefusal_ofCipher (e : CipherError) :
    (ofCipher e).isRefusal = e.counts := by
  cases e <;> rfl

theorem CipherState.counts_of_encrypt {p : Primitives} {s : CipherState} {ad plaintext : Bytes}
    {e : CipherError} (failed : s.encrypt p ad plaintext = .error e) : e.counts = false := by
  rw [encrypt] at failed
  split at failed
  · cases failed
    rfl
  · split at failed
    · cases failed
      rfl
    · cases failed

namespace Service

/-- What a decrypter says to a ciphertext. -/
abbrev Verdict := Except CipherError (Bytes × CipherState)

/-- Whether the ciphertext was refused, in a way that counts. -/
def Verdict.isRefusal : Verdict → Bool
  | .ok _ => false
  | .error e => e.counts

/-- How many refusals a channel has given since it was made or has last opened a ciphertext. -/
def refusalsInRow (verdicts : List (Handle × Verdict)) (h : Handle) : Nat :=
  ((verdicts.filter fun v => v.1 = h).reverse.takeWhile fun v => !v.2.isOk).countP
    fun v => v.2.isRefusal

variable {p : Primitives} {s : Service} {q : Inbound} {h : Handle} {c : Channel}

/-! ### The row that is watched -/

/-- What a channel says ends its row or makes it longer, and is nothing to the other rows. -/
theorem refusalsInRow_concat (verdicts : List (Handle × Verdict)) (one : Handle) (v : Verdict)
    (h : Handle) : refusalsInRow (verdicts ++ [(one, v)]) h =
      if h = one then tally v (refusalsInRow verdicts one) else refusalsInRow verdicts h := by
  rw [refusalsInRow, List.filter_append]
  by_cases same : h = one
  · subst same
    rw [List.filter_cons_of_pos (by simp), List.filter_nil, List.reverse_append,
      List.reverse_singleton, List.singleton_append, if_pos rfl]
    cases v with
    | ok opened =>
      rw [List.takeWhile_cons_of_neg (by simp [Except.isOk, Except.toBool])]
      rfl
    | error e =>
      rw [List.takeWhile_cons_of_pos rfl, List.countP_cons]
      change (refusalsInRow verdicts h + if e.counts then 1 else 0) =
        if e.counts then refusalsInRow verdicts h + 1 else refusalsInRow verdicts h
      split <;> rfl
  · have other : ¬ one = h := fun eq => same eq.symm
    rw [List.filter_cons_of_neg (by simp [other]), List.filter_nil, List.append_nil, if_neg same]
    rfl

theorem extend_refusalsInRow (verdicts : List (Handle × Verdict))
    (next : Option (Handle × Verdict)) :
    Watched.extend (refusalsInRow verdicts) next = refusalsInRow (verdicts ++ next.toList) := by
  cases next with
  | none => simp [Watched.extend]
  | some v =>
    funext h
    exact (refusalsInRow_concat verdicts v.1 v.2 h).symm

/-! ### One call -/

/-- A request that is for no channel is an error of another kind, and changes nothing. -/
theorem handle_of_unreached (named : Named s.registry)
    (unreached : ∀ h c ciphertext, ¬ Reaches s q.message h c ciphertext) (p : Primitives) :
    ∃ e, s.handle p q = (.error e, s) ∧ e.isRefusal = false := by
  cases decoded : s.decode q with
  | error e => exact ⟨_, handle_of_undecodable decoded p, rfl⟩
  | ok named' =>
    obtain ⟨id, ciphertext⟩ := named'
    cases live : s.registry.live? id with
    | none => exact ⟨_, handle_of_unknown decoded live p, rfl⟩
    | some h =>
      obtain ⟨c, found, rfl⟩ := named id h live
      exact absurd ⟨decoded, live, found⟩ (unreached h c ciphertext)

/-- The answer of a channel is a refusal exactly if its decrypter refuses the ciphertext. -/
theorem isRefusal_turn_iff {limits : Limits} {handler : Bytes → Bytes} {ciphertext : Bytes} :
    (∃ e, (c.turn p limits handler q ciphertext).answer = .error e ∧ e.isRefusal = true) ↔
      Verdict.isRefusal (c.pair.decrypter.decrypt p q.marker ciphertext) = true := by
  rw [Channel.turn]
  rcases c.pair.decrypter.decrypt p q.marker ciphertext with e | ⟨plaintext, decrypter⟩
  · simp [Verdict.isRefusal]
  · simp only [Verdict.isRefusal, Bool.false_eq_true, iff_false]
    rintro ⟨e, answer, refusal⟩
    split at answer
    · cases answer
    · simp only [Channel.encrypt] at answer
      split at answer
      · cases answer
      · next failed =>
        obtain rfl := Except.error.inj answer
        rw [ChannelError.isRefusal_ofCipher, CipherState.counts_of_encrypt failed] at refusal
        cases refusal

end Service

namespace Running

open Service

/-- The message or the request to close that a server is called with. -/
def Event.inbound? : Event Unit → Option Inbound
  | .message now m => some ⟨m, now, false⟩
  | .close now m => some ⟨m, now, true⟩
  | .prepare .. | .settle .. | .expire _ => none

/-- The channel that a call is for, and what it says. -/
def said (p : Primitives) (w : Running Unit) (event : Event Unit) : Option (Handle × Verdict) :=
  event.inbound?.bind fun q => w.service.verdict p q.marker q.message

def serveAll (p : Primitives) (w : Running Unit) (events : List (Event Unit)) : Running Unit :=
  events.foldl (step p) w

/-- What the channels of a server say while it is called. -/
def verdicts (p : Primitives) (w : Running Unit) : List (Event Unit) → List (Handle × Verdict)
  | [] => []
  | event :: events => (w.said p event).toList ++ (w.step p event).verdicts p events

variable {p : Primitives} {w : Running Unit} {q : Inbound} {h : Handle} {c : Channel}
variable {config : Config} {event : Event Unit} {row : Handle → Nat}

/-! ### The row that is watched -/

theorem serve_watched (row : Handle → Nat) (event : Event Unit) :
    Watched.serve p ⟨w, row⟩ event = ⟨w.step p event, Watched.extend row (w.said p event)⟩ := by
  cases event <;> rfl

/-- The rows of a server are the refusals in its verdicts. -/
theorem run_eq (p : Primitives) (s : Service) (events : List (Event Unit)) :
    Watched.run p s events =
      ⟨serveAll p ⟨s, []⟩ events, refusalsInRow (verdicts p ⟨s, []⟩ events)⟩ := by
  have calls : ∀ before w, events.foldl (Watched.serve p) ⟨w, refusalsInRow before⟩ =
      ⟨w.serveAll p events, refusalsInRow (before ++ w.verdicts p events)⟩ := by
    induction events with
    | nil =>
      intro before w
      rw [verdicts, List.append_nil]
      rfl
    | cons event events ih =>
      intro before w
      rw [List.foldl_cons, serve_watched, extend_refusalsInRow, ih, verdicts, List.append_assoc]
      rfl
  exact calls [] ⟨s, []⟩

/-! ### One call -/

/-- The channel that says something is the one that the request is for. -/
theorem said_eq_some (named : Named w.service.registry) {v : Verdict}
    (heard : w.said p event = some (h, v)) : ∃ q c ciphertext, event.inbound? = some q ∧
      Reaches w.service q.message h c ciphertext ∧
      c.pair.decrypter.decrypt p q.marker ciphertext = v := by
  obtain ⟨q, asked, heard⟩ := Option.bind_eq_some_iff.mp heard
  obtain ⟨c, ciphertext, reaches, result⟩ := reaches_of_verdict named heard
  exact ⟨q, c, ciphertext, asked, reaches, result⟩

theorem said_of_reaches {ciphertext : Bytes} (reaches : Reaches w.service q.message h c ciphertext)
    (asked : event.inbound? = some q) (p : Primitives) :
    w.said p event = some (h, c.pair.decrypter.decrypt p q.marker ciphertext) := by
  rw [said, asked, Option.bind_some, reaches.verdict]

theorem step_of_inbound (asked : event.inbound? = some q) (p : Primitives) :
    w.step p event = { w with service := (w.service.handle p q).2 } := by
  cases event with
  | prepare | settle | expire => cases asked
  | message now m =>
    obtain rfl := Option.some.inj asked
    rfl
  | close now m =>
    obtain rfl := Option.some.inj asked
    rfl

/-- A request is answered with a refusal exactly if the channel that it is for refuses it. -/
theorem isRefusal_iff (named : Named w.service.registry) (asked : event.inbound? = some q)
    (p : Primitives) : (∃ e, (w.service.handle p q).1 = .error e ∧ e.isRefusal = true) ↔
      ∃ h v, w.said p event = some (h, v) ∧ v.isRefusal = true := by
  by_cases reached : ∃ h c ciphertext, Reaches w.service q.message h c ciphertext
  · obtain ⟨h, c, ciphertext, reaches⟩ := reached
    obtain ⟨r, handled, -⟩ := reaches.handle_eq p
    rw [handled, isRefusal_turn_iff, said_of_reaches reaches asked p]
    constructor
    · intro refused
      exact ⟨_, _, rfl, refused⟩
    · rintro ⟨_, _, ⟨⟩, refused⟩
      exact refused
  · have unreached : ∀ h c ciphertext, ¬ Reaches w.service q.message h c ciphertext :=
      fun h c ciphertext reaches => reached ⟨h, c, ciphertext, reaches⟩
    obtain ⟨e, handled, other⟩ := handle_of_unreached named unreached p
    constructor
    · rintro ⟨_, answer, refusal⟩
      rw [handled] at answer
      obtain rfl := Except.error.inj answer
      rw [other] at refusal
      cases refusal
    · rintro ⟨h, v, heard, -⟩
      obtain ⟨_, c, ciphertext, again, reaches, -⟩ := said_eq_some named heard
      obtain rfl := Option.some.inj (asked.symm.trans again)
      exact absurd reaches (unreached h c ciphertext)

/-- A request that a channel does not open ends the channel if that is one refusal too many. -/
theorem ends_iff_exceeds {ciphertext : Bytes} {e : CipherError}
    (reaches : Reaches w.service q.message h c ciphertext) (asked : event.inbound? = some q)
    (refused : c.pair.decrypter.decrypt p q.marker ciphertext = .error e) :
    Watched.Ends p ⟨w, row⟩ h c event ↔ Exceeds w.service.config.limits (.error e) (row h) := by
  cases event with
  | prepare | settle | expire => cases asked
  | message now m =>
    obtain rfl := Option.some.inj asked
    rw [← refused]
    constructor
    · intro ends
      cases ends with
      | message again exceeds =>
        obtain ⟨-, -, rfl⟩ := reaches.unique again
        exact exceeds
    · intro exceeds
      exact .message reaches exceeds
  | close now m =>
    obtain rfl := Option.some.inj asked
    rw [← refused]
    constructor
    · intro ends
      cases ends with
      | closed again opened =>
        obtain ⟨-, -, rfl⟩ := reaches.unique again
        have contrary := (congrArg Except.isOk refused).symm.trans opened
        cases contrary
      | close again exceeds =>
        obtain ⟨-, -, rfl⟩ := reaches.unique again
        exact exceeds
    · intro exceeds
      exact .close reaches exceeds

/-- A channel that says nothing keeps its counter. -/
theorem counter_of_silent (sound : Watched.Sound config ⟨w, row⟩)
    (found : w.service.registry.channel? h = some c)
    (silent : ∀ v, w.said p event ≠ some (h, v)) :
    ∃ d, (w.step p event).service.registry.channel? h = some d ∧
      d.authFailures = c.authFailures := by
  obtain ⟨d, there, -⟩ := (evolves_step p sound.running.named event).channels h c found
  refine ⟨d, there, ?_⟩
  have same : (Watched.serve p ⟨w, row⟩ event).row h = row h := by
    rw [serve_watched]
    cases heard : w.said p event with
    | none => rfl
    | some v =>
      apply if_neg
      rintro rfl
      exact silent v.2 heard
  rw [(sound.serve event).sound.counted h d there, sound.counted h c found, same]

/-- The counter of a live channel is its row, and below the limit if there is one. -/
theorem counter_of_live (sound : Watched.Sound config ⟨w, row⟩)
    (limited : config.maxAuthFailures ≠ 0) (live : w.service.registry.IsLive h)
    (found : w.service.registry.channel? h = some c) :
    c.authFailures.toNat = row h ∧ c.authFailures < config.maxAuthFailures := by
  have below := sound.below limited h live
  have small := config.maxAuthFailures.toNat_lt
  have counted : c.authFailures.toNat = row h := by
    rw [sound.counted h c found, UInt32.toNat_ofNat']
    exact Nat.mod_eq_of_lt (by omega)
  refine ⟨counted, ?_⟩
  rw [UInt32.lt_iff_toNat_lt, counted]
  exact below

/-- A ciphertext that is not opened costs the channel its name if that is one refusal too many. -/
theorem removed_iff (sound : Watched.Sound config ⟨w, row⟩) {e : CipherError}
    (heard : w.said p event = some (h, .error e)) :
    ¬ (w.step p event).service.registry.IsLive h ↔ e.counts = true ∧
      config.maxAuthFailures ≠ 0 ∧ row h + 1 = config.maxAuthFailures.toNat := by
  obtain ⟨q, c, ciphertext, asked, reaches, refused⟩ := said_eq_some sound.running.named heard
  have live : (w.step p event).service.registry.IsLive h ↔
      w.service.registry.IsLive h ∧ ¬ Watched.Ends p ⟨w, row⟩ h c event :=
    (sound.serve event).live h c reaches.found
  have configured : w.service.config = config := sound.configured
  rw [live, ends_iff_exceeds reaches asked refused, configured]
  constructor
  · intro gone
    obtain ⟨_, ⟨⟩, exceeds⟩ :=
      Classical.not_not.mp fun stays => gone ⟨⟨c.id, reaches.live⟩, stays⟩
    exact exceeds
  · rintro exceeds ⟨-, stays⟩
    exact stays ⟨e, rfl, exceeds⟩

/-- A new channel has a handle that stood for nothing, and nothing is held against it. -/
theorem counter_of_settled (sound : Watched.Sound config ⟨w, row⟩) {now index : Nat}
    {delivery : Delivery} {one : Unsettled Unit} (inside : w.unsettled[index]? = some one)
    (made : (w.service.settleHandshake now one.response delivery).1 = .ok h) :
    w.service.registry.channel? h = none ∧ row h = 0 ∧
      ∃ c, (w.step p (.settle now index delivery)).service.registry.channel? h = some c ∧
        c.authFailures = 0 := by
  obtain ⟨rfl, opens⟩ := opens_of_settle made
  have unmade : w.service.registry.channel? ⟨w.service.registry.channels.size⟩ = none := by
    simp [channel?]
  refine ⟨unmade, sound.unmade _ unmade, .new one.response.naming.id one.response.pair now, ?_, rfl⟩
  simp only [step, settle, inside]
  exact opens.channel?

/-! ### Every moment of every run -/

/-- What is known of a server at a moment of a run, given what its channels have said so far, and of
the next call. -/
structure CountsRefusals (p : Primitives) (config : Config) (w : Running Unit)
    (verdicts : List (Handle × Verdict)) (event : Event Unit) : Prop where
  /-- The counter of a live channel is its number of refusals in a row, and below the limit. -/
  counter : config.maxAuthFailures ≠ 0 → ∀ h c, w.service.registry.IsLive h →
    w.service.registry.channel? h = some c →
      c.authFailures.toNat = refusalsInRow verdicts h ∧ c.authFailures < config.maxAuthFailures
  /-- Only the live channel of the name that a request decodes to says something. -/
  addressed : ∀ h v, w.said p event = some (h, v) → ∃ q id ciphertext,
    event.inbound? = some q ∧ w.service.decode q = .ok (id, ciphertext) ∧
      w.service.registry.live? id = some h
  /-- The server's answer tells whether the channel has refused. -/
  answered : ∀ q, event.inbound? = some q →
    ((∃ e, (w.service.handle p q).1 = .error e ∧ e.isRefusal = true) ↔
      ∃ h v, w.said p event = some (h, v) ∧ v.isRefusal = true)
  /-- A ciphertext that is not opened costs the channel its name exactly if that is a refusal, and
  the one that reaches the limit. -/
  removed : ∀ h e, w.said p event = some (h, .error e) →
    (¬ (w.step p event).service.registry.IsLive h ↔ e.counts = true ∧ config.maxAuthFailures ≠ 0 ∧
      refusalsInRow verdicts h + 1 = config.maxAuthFailures.toNat)
  /-- The counters of all other channels stay. -/
  silent : ∀ h c, w.service.registry.channel? h = some c → (∀ v, w.said p event ≠ some (h, v)) →
    ∃ d, (w.step p event).service.registry.channel? h = some d ∧ d.authFailures = c.authFailures
  /-- A request that decodes to nothing, or to a name without a channel, does nothing. -/
  ignored : ∀ q, event.inbound? = some q →
    (∀ id ciphertext, w.service.decode q = .ok (id, ciphertext) →
      w.service.registry.live? id = none) →
      w.said p event = none ∧ w.step p event = w
  /-- A new channel starts with no refusals, whatever had its name before. -/
  unburdened : ∀ now index delivery one h, event = .settle now index delivery →
    w.unsettled[index]? = some one →
      (w.service.settleHandshake now one.response delivery).1 = .ok h →
        w.service.registry.channel? h = none ∧ refusalsInRow verdicts h = 0 ∧
          ∃ c, (w.step p event).service.registry.channel? h = some c ∧ c.authFailures = 0

/-- However a server was called, its channels count their refusals in a row, and a channel is gone
with the one that reaches the limit, if there is a limit. -/
theorem refusals_counted {key : Option StaticKey} {handler : Bytes → Bytes} {service : Service}
    (made : Service.new config key handler = .ok service) (p : Primitives)
    (events : List (Event Unit)) (event : Event Unit) :
    CountsRefusals p config (serveAll p ⟨service, []⟩ events) (verdicts p ⟨service, []⟩ events)
      event := by
  have sound : Watched.Sound config (Watched.run p service events) := Watched.sound_run made events
  rw [run_eq] at sound
  exact {
    counter := fun limited h c live found => counter_of_live sound limited live found
    addressed := by
      intro h v heard
      obtain ⟨q, c, ciphertext, asked, reaches, -⟩ := said_eq_some sound.running.named heard
      exact ⟨q, c.id, ciphertext, asked, reaches.decoded, reaches.live⟩
    answered := fun q asked => isRefusal_iff sound.running.named asked p
    removed := fun h e heard => removed_iff sound heard
    silent := fun h c found silent => counter_of_silent sound found silent
    ignored := by
      intro q asked unknown
      have unreached : ∀ h c ciphertext,
          ¬ Reaches (serveAll p ⟨service, []⟩ events).service q.message h c ciphertext := by
        intro h c ciphertext reaches
        have missing := unknown c.id ciphertext reaches.decoded
        rw [reaches.live] at missing
        cases missing
      obtain ⟨e, handled, -⟩ := handle_of_unreached sound.running.named unreached p
      rw [step_of_inbound asked, handled, said, asked, Option.bind_some]
      exact ⟨verdict_of_unreached sound.running.named unreached p q.marker, rfl⟩
    unburdened := by
      rintro now index delivery one h rfl inside made
      exact counter_of_settled sound inside made }

/-! ### Two refusals in a row -/

open Watched (patient patientServer patientOfPair greeting)

def emptyMessage : Message := ⟨some [1], none, []⟩

def ofPair (pair : CipherPair) : Running Unit := ⟨patientOfPair 2 pair, []⟩

/-- The first empty message is refused, and the channel stays. -/
theorem step_emptyMessage (pair : CipherPair) :
    ((ofPair pair).said .standard (.message 0 emptyMessage) =
      some (⟨0⟩, .error .authenticationFailure)) ∧
    ∃ c, ((ofPair pair).step .standard (.message 0 emptyMessage)).service.Reaches emptyMessage
      ⟨0⟩ c [] := by
  have reaches : (ofPair pair).service.Reaches emptyMessage ⟨0⟩ (.new (.transport [1]) pair 0) [] :=
    ⟨rfl, live?_setLive .., channel?_setLive ..⟩
  have asked : (Event.message 0 emptyMessage).inbound? = some ⟨emptyMessage, 0, false⟩ := rfl
  refine ⟨?_, ?_⟩
  · rw [said_of_reaches reaches asked, CipherState.decrypt_nil]
  · obtain ⟨r, handled, changes⟩ := reaches.handle_eq (q := ⟨emptyMessage, 0, false⟩) .standard
    rw [step_of_inbound asked, handled]
    rw [Channel.turn, CipherState.decrypt_nil] at changes
    refine ⟨_, rfl, ?_, changes.changed⟩
    have bearable : ¬ Exhausts (patient 2).limits 1 := by decide
    have slots := changes.slots (.transport [1]) fun lost => bearable (of_decide_eq_true lost.1)
    have live := live?_setLive (patientServer 2).registry (.transport [1]) pair 0
    rw [live?_eq_some_iff] at live ⊢
    exact slots.trans live

/-- A handshake makes a channel, one empty message leaves it there, and an empty request to close
ends it: the two count together. -/
theorem refusals_counted_twice : ∃ request,
    let events := greeting request ++ [.message 0 emptyMessage]
    Service.new (patient 2) none id = .ok (patientServer 2) ∧
      refusalsInRow (verdicts .standard ⟨patientServer 2, []⟩ events) ⟨0⟩ = 1 ∧
      ¬ ((serveAll .standard ⟨patientServer 2, []⟩ events).step .standard
        (.close 0 emptyMessage)).service.registry.IsLive ⟨0⟩ := by
  obtain ⟨request, pair, met⟩ := Watched.run_greeting 2
  refine ⟨request, ?_⟩
  intro events
  obtain ⟨heard, c, reaches⟩ := step_emptyMessage pair
  have made : Service.new (patient 2) none id = .ok (patientServer 2) := rfl
  have ran : Watched.run .standard (patientServer 2) events =
      ⟨(ofPair pair).step .standard (.message 0 emptyMessage),
        Watched.extend (fun _ => 0) ((ofPair pair).said .standard (.message 0 emptyMessage))⟩ := by
    rw [← serve_watched]
    simp only [events, Watched.run, List.foldl_append] at met ⊢
    rw [met]
    rfl
  obtain ⟨served, row⟩ := Watched.mk.inj ((run_eq ..).symm.trans ran)
  have count : refusalsInRow (verdicts .standard ⟨patientServer 2, []⟩ events) ⟨0⟩ = 1 := by
    rw [row, heard]
    rfl
  refine ⟨made, count, ?_⟩
  apply ((refusals_counted made .standard events (.close 0 emptyMessage)).removed ⟨0⟩
    .authenticationFailure ?_).mpr ⟨rfl, by decide, by rw [count]; rfl⟩
  rw [served, said_of_reaches (q := ⟨emptyMessage, 0, true⟩) reaches rfl, CipherState.decrypt_nil]

end Running

end SecureChannel
