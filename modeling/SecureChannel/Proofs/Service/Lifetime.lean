import SecureChannel.Proofs.Service.Handshake
import SecureChannel.Proofs.Service.Running
import SecureChannel.Proofs.Service.World

/-!
# What ends a channel

A server is called with handshakes, in two parts, messages, requests to close, and the time at which
idle channels are to be dropped, in any order and with any contents. `Watched` is a running server
together with the number of messages in a row that each of its channels has refused, as somebody
counts who only looks at the results of decryption.

`gone_iff_ends` says when a call costs a channel its name. There are five ways: the peer closes it,
it refuses one message too many, or one request to close too many, it was idle for too long, or the
handshake of its peer for another one under the same name is settled. Nothing else that a server is
called with does it: handshakes that fail or are about other names, messages and requests for other
channels or for none, requests to close that were not sealed as such.
-/

namespace SecureChannel

open Registry

/-- A running server, and how many messages in a row each channel has refused. -/
structure Watched extends Running Unit where
  row : Handle → Nat

namespace Watched

/-- The rows after a channel has said something to a ciphertext. -/
def extend (row : Handle → Nat)
    (verdict : Option (Handle × Except CipherError (Bytes × CipherState))) : Handle → Nat :=
  match verdict with
  | none => row
  | some (h, result) => fun one => if one = h then tally result (row h) else row one

/-- The rows after a call. Requests to close are in the same row as messages. -/
def rowAfter (p : Primitives) (w : Watched) : Running.Event Unit → Handle → Nat
  | .message _ m => extend w.row (w.service.verdict p [] m)
  | .close _ m => extend w.row (w.service.verdict p closeMarker m)
  | .prepare .. | .settle .. | .expire _ => w.row

def serve (p : Primitives) (w : Watched) (event : Running.Event Unit) : Watched :=
  ⟨w.toRunning.step p event, w.rowAfter p event⟩

/-- A server that has just started is called several times. -/
def run (p : Primitives) (service : Service) (events : List (Running.Event Unit)) : Watched :=
  events.foldl (serve p) ⟨⟨service, []⟩, fun _ => 0⟩

/-- Why the channel `h`, which has the state `c`, is gone after a call. -/
inductive Ends (p : Primitives) (w : Watched) (h : Handle) (c : Channel) :
    Running.Event Unit → Prop
  | closed {now : Nat} {m : Message} {ciphertext : Bytes}
      (reaches : w.service.Reaches m h c ciphertext)
      (opened : (c.pair.decrypter.decrypt p closeMarker ciphertext).isOk = true) :
      Ends p w h c (.close now m)
  /-- The channel refuses one message too many in a row. -/
  | message {now : Nat} {m : Message} {ciphertext : Bytes}
      (reaches : w.service.Reaches m h c ciphertext)
      (exceeds : Service.Exceeds w.service.config.limits
        (c.pair.decrypter.decrypt p [] ciphertext) (w.row h)) :
      Ends p w h c (.message now m)
  | close {now : Nat} {m : Message} {ciphertext : Bytes}
      (reaches : w.service.Reaches m h c ciphertext)
      (exceeds : Service.Exceeds w.service.config.limits
        (c.pair.decrypter.decrypt p closeMarker ciphertext) (w.row h)) :
      Ends p w h c (.close now m)
  | expired {now timeout : Nat} (limited : w.service.config.idleTimeout = some timeout)
      (idle : timeout < c.idleFor now) : Ends p w h c (.expire now)
  /-- The peer that has the name has set up another channel. -/
  | replaced {now index : Nat} {delivery : Delivery} {one : Unsettled Unit} {other : Handle}
      (scheme : w.service.config.idScheme = .transport)
      (inside : w.unsettled[index]? = some one)
      (named : PendingHandshake.peerId one.tag = .ok c.id)
      (made : (w.service.settleHandshake now one.response delivery).1 = .ok other) :
      Ends p w h c (.settle now index delivery)

/-! ### The invariant -/

variable {p : Primitives} {config : Config} {w : Watched} {h one : Handle} {c d : Channel}
variable {m : Message} {ciphertext : Bytes} {event : Running.Event Unit}

/-- What is known at every moment. Every channel counts its refusals right, and no live one has
reached the limit. -/
structure Sound (config : Config) (w : Watched) : Prop where
  configured : w.service.config = config
  limits : w.service.registry.limits = config.limits
  running : w.toRunning.Sound
  counted : ∀ h c, w.service.registry.channel? h = some c → c.authFailures = .ofNat (w.row h)
  unmade : ∀ h, w.service.registry.channel? h = none → w.row h = 0
  below : config.maxAuthFailures ≠ 0 → ∀ h, w.service.registry.IsLive h →
    w.row h < config.maxAuthFailures.toNat

theorem sound_start {key : Option StaticKey} {handler : Bytes → Bytes} {service : Service}
    (made : Service.new config key handler = .ok service) :
    Sound config ⟨⟨service, []⟩, fun _ => 0⟩ := by
  obtain ⟨rfl, -, -⟩ := World.service_new_ok made
  refine ⟨rfl, rfl, Running.sound_start (named_new _), ?_, fun _ _ => rfl, ?_⟩
  · intro h c found
    simp [Registry.new, channel?] at found
  · rintro limited h -
    exact UInt32.lt_iff_toNat_lt.mp (UInt32.pos_iff_ne_zero.mpr limited)

/-- The channel that a message is for is in its row. -/
theorem Sound.inRow (sound : Sound config w) (reaches : w.service.Reaches m h c ciphertext) :
    Service.InRow w.service.registry.limits c (w.row h) := by
  refine ⟨sound.counted h c reaches.found, ?_⟩
  intro limited
  rw [sound.limits] at limited ⊢
  exact sound.below limited h ⟨c.id, reaches.live⟩

/-- A channel that has answered is in a longer row, or in none. -/
theorem Sound.leaves (sound : Sound config w) {u : Running Unit} {gone : Prop}
    {result : Except CipherError (Bytes × CipherState)}
    (service : ∃ r, u.service = { w.service with registry := r }) (running : u.Sound)
    (leaves : Leaves w.service.registry h d gone u.service.registry)
    (counted : d.authFailures = .ofNat (tally result (w.row h)))
    (lost : Service.Exceeds config.limits result (w.row h) → gone) :
    Sound config ⟨u, extend w.row (some (h, result))⟩ where
  configured := by
    obtain ⟨r, same⟩ := service
    rw [same]
    exact sound.configured
  limits := leaves.limits.trans sound.limits
  running := running
  counted := by
    intro one c found
    simp only [extend]
    split
    · next same =>
      subst same
      obtain rfl := Option.some.inj (leaves.changed.symm.trans found)
      exact counted
    · next ne => exact sound.counted one c (by rwa [← leaves.kept one ne])
  unmade := by
    intro one missing
    have ne : one ≠ h := by
      rintro rfl
      rw [leaves.changed] at missing
      cases missing
    simp only [extend, if_neg ne]
    exact sound.unmade one (by rwa [← leaves.kept one ne])
  below := by
    intro limited one live
    obtain ⟨live, stays⟩ := (leaves.live one).mp live
    have below := sound.below limited one live
    simp only [extend]
    split
    · next same =>
      subst same
      cases result with
      | ok opened => exact Nat.zero_lt_of_lt below
      | error e =>
        simp only [tally]
        split
        · next counts =>
          apply Nat.lt_of_le_of_ne below
          intro reached
          exact stays ⟨rfl, lost ⟨e, rfl, counts, limited, reached⟩⟩
        · exact below
    · exact below

/-- Where no channel says anything, the rows are as they were. -/
theorem Sound.quiet (sound : Sound config w) {u : Running Unit}
    (service : ∃ r, u.service = { w.service with registry := r }) (running : u.Sound)
    (evolves : Evolves w.service.registry u.service.registry)
    (limits : u.service.registry.limits = w.service.registry.limits)
    (counted : ∀ h c, u.service.registry.channel? h = some c → c.authFailures = .ofNat (w.row h))
    (live : ∀ h, u.service.registry.IsLive h →
      w.service.registry.IsLive h ∨ w.service.registry.channel? h = none) :
    Sound config ⟨u, w.row⟩ where
  configured := by
    obtain ⟨r, same⟩ := service
    rw [same]
    exact sound.configured
  limits := limits.trans sound.limits
  running := running
  counted := counted
  unmade := by
    intro h missing
    apply sound.unmade
    cases found : w.service.registry.channel? h with
    | none => rfl
    | some c =>
      obtain ⟨d, there, -⟩ := evolves.channels h c found
      rw [there] at missing
      cases missing
  below := by
    intro limited h alive
    rcases live h alive with old | new
    · exact sound.below limited h old
    · rw [sound.unmade h new]
      exact UInt32.lt_iff_toNat_lt.mp (UInt32.pos_iff_ne_zero.mpr limited)

/-! ### Calls -/

/-- The invariant holds after a call, and what was live before is live then, or the call has ended
it. -/
structure Accounts (p : Primitives) (config : Config) (w : Watched)
    (event : Running.Event Unit) : Prop where
  sound : Sound config (w.serve p event)
  live : ∀ h c, w.service.registry.channel? h = some c →
    ((w.serve p event).service.registry.IsLive h ↔
      w.service.registry.IsLive h ∧ ¬ Ends p w h c event)

theorem Sound.idle (sound : Sound config w) (same : w.serve p event = w)
    (stays : ∀ h c, ¬ Ends p w h c event) : Accounts p config w event := by
  refine ⟨by rwa [same], ?_⟩
  intro h c found
  rw [same]
  simp [stays h c]

/-- A call that is about one channel ends that one, if any. -/
theorem Sound.answered (sound : Sound config w) {gone : Prop}
    {result : Except CipherError (Bytes × CipherState)}
    (found : w.service.registry.channel? h = some c)
    (row : w.rowAfter p event = extend w.row (some (h, result)))
    (leaves : Leaves w.service.registry h d gone (w.toRunning.step p event).service.registry)
    (counted : d.authFailures = .ofNat (tally result (w.row h)))
    (lost : Service.Exceeds config.limits result (w.row h) → gone)
    (ends : ∀ one e, Ends p w one e event → one = h ∧ gone) (ended : gone → Ends p w h c event) :
    Accounts p config w event := by
  refine ⟨?_, ?_⟩
  · rw [serve, row]
    exact sound.leaves (Running.step_service p w.toRunning event) (sound.running.step p event)
      leaves counted lost
  · intro one e there
    rw [serve, leaves.live]
    apply and_congr_right
    intro live
    apply not_congr
    constructor
    · rintro ⟨rfl, left⟩
      obtain rfl := Option.some.inj (there.symm.trans found)
      exact ended left
    · exact ends one e

theorem Sound.message (sound : Sound config w) (now : Nat) (m : Message) :
    Accounts p config w (.message now m) := by
  by_cases reached : ∃ h c ciphertext, w.service.Reaches m h c ciphertext
  · obtain ⟨h, c, ciphertext, reaches⟩ := reached
    obtain ⟨d, counted, leaves⟩ :=
      reaches.handleMessage sound.running.named (sound.inRow reaches) p now
    rw [sound.limits] at leaves
    refine sound.answered reaches.found ?_ leaves counted id ?_ ?_
    · simp only [rowAfter, reaches.verdict]
    · intro one e ends
      cases ends with
      | message again exceeds =>
        obtain ⟨rfl, rfl, rfl⟩ := reaches.unique again
        exact ⟨rfl, sound.configured ▸ exceeds⟩
    · intro exceeds
      exact .message reaches (sound.configured ▸ exceeds)
  · have unreached : ∀ h c ciphertext, ¬ w.service.Reaches m h c ciphertext := by
      intro h c ciphertext reaches
      exact reached ⟨h, c, ciphertext, reaches⟩
    apply sound.idle
    · simp only [serve, rowAfter, Service.verdict_of_unreached sound.running.named unreached,
        extend, Running.step, Service.handleMessage_of_unreached sound.running.named unreached]
    · intro h c ends
      cases ends with
      | message reaches _ => exact unreached _ _ _ reaches

theorem Sound.close (sound : Sound config w) (now : Nat) (m : Message) :
    Accounts p config w (.close now m) := by
  by_cases reached : ∃ h c ciphertext, w.service.Reaches m h c ciphertext
  · obtain ⟨h, c, ciphertext, reaches⟩ := reached
    obtain ⟨d, counted, leaves⟩ :=
      reaches.handleClose sound.running.named (sound.inRow reaches) p now
    rw [sound.limits] at leaves
    refine sound.answered reaches.found ?_ leaves counted .inr ?_ ?_
    · simp only [rowAfter, reaches.verdict]
    · intro one e ends
      cases ends with
      | closed again opened =>
        obtain ⟨rfl, rfl, rfl⟩ := reaches.unique again
        exact ⟨rfl, .inl opened⟩
      | close again exceeds =>
        obtain ⟨rfl, rfl, rfl⟩ := reaches.unique again
        exact ⟨rfl, .inr (sound.configured ▸ exceeds)⟩
    · rintro (opened | exceeds)
      · exact .closed reaches opened
      · exact .close reaches (sound.configured ▸ exceeds)
  · have unreached : ∀ h c ciphertext, ¬ w.service.Reaches m h c ciphertext := by
      intro h c ciphertext reaches
      exact reached ⟨h, c, ciphertext, reaches⟩
    apply sound.idle
    · simp only [serve, rowAfter, Service.verdict_of_unreached sound.running.named unreached,
        extend, Running.step, Service.handleClose_of_unreached sound.running.named unreached]
    · intro h c ends
      cases ends with
      | closed reaches _ => exact unreached _ _ _ reaches
      | close reaches _ => exact unreached _ _ _ reaches

theorem Sound.expire (sound : Sound config w) (now : Nat) :
    Accounts p config w (.expire now) := by
  have live : ∀ h c, w.service.registry.channel? h = some c →
      ((w.service.registry.expireIdle now).2.IsLive h ↔
        w.service.registry.IsLive h ∧ ¬ Ends p w h c (.expire now)) := by
    intro h c found
    rw [isLive_expireIdle found, sound.limits]
    apply and_congr_right
    intro live
    apply not_congr
    constructor
    · rintro ⟨timeout, limited, idle⟩
      exact .expired (sound.configured ▸ limited) idle
    · intro ends
      cases ends with
      | expired limited idle => exact ⟨_, sound.configured ▸ limited, idle⟩
  refine ⟨?_, live⟩
  refine sound.quiet ⟨_, rfl⟩ (sound.running.step p (.expire now)) (evolves_expireIdle _ now)
    (limits_expireIdle _ now) ?_ ?_
  · intro h c found
    refine sound.counted h c ?_
    rwa [channel?, ← channels_expireIdle _ now]
  · intro h alive
    cases found : w.service.registry.channel? h with
    | none => exact .inr rfl
    | some c => exact .inl ((live h c found).mp alive).1

/-- Settling a handshake takes a channel's name only under the transport scheme. -/
theorem replaced_iff {now index : Nat} {delivery : Delivery} {one : Unsettled Unit} {other : Handle}
    (sound : Sound config w) (inside : w.unsettled[index]? = some one)
    (made : (w.service.settleHandshake now one.response delivery).1 = .ok other)
    (found : w.service.registry.channel? h = some c) (live : w.service.registry.IsLive h) :
    Ends p w h c (.settle now index delivery) ↔ c.id = one.response.naming.id := by
  have mem := List.mem_of_getElem? inside
  constructor
  · intro ends
    cases ends with
    | replaced scheme inside' named _ =>
      obtain rfl := Option.some.inj (inside.symm.trans inside')
      obtain ⟨id, naming, known⟩ := sound.running.held.taken scheme one mem
      rw [naming]
      exact Except.ok.inj (named.symm.trans known)
  · intro name
    rw [Registry.isLive_iff sound.running.named found, name] at live
    by_cases scheme : w.service.config.idScheme = .transport
    · obtain ⟨id, naming, known⟩ := sound.running.held.taken scheme one mem
      refine .replaced scheme inside ?_ made
      rw [name, naming]
      exact known
    · rw [sound.running.held.live?_eq_none scheme mem] at live
      cases live

/-- A handshake that makes no channel ends none. -/
theorem Sound.unmoved (sound : Sound config w)
    (row : w.rowAfter p event = w.row)
    (channels : (w.toRunning.step p event).service.registry.channels = w.service.registry.channels)
    (limits : (w.toRunning.step p event).service.registry.limits = w.service.registry.limits)
    (live : ∀ id, (w.toRunning.step p event).service.registry.live? id =
      w.service.registry.live? id)
    (stays : ∀ h c, ¬ Ends p w h c event) : Accounts p config w event := by
  have alive (h) : (w.toRunning.step p event).service.registry.IsLive h ↔
      w.service.registry.IsLive h :=
    isLive_congr live
  refine ⟨?_, ?_⟩
  · rw [serve, row]
    refine sound.quiet (Running.step_service p w.toRunning event) (sound.running.step p event)
      (Running.evolves_step p sound.running.named event) limits ?_ ?_
    · intro h c found
      refine sound.counted h c ?_
      rwa [channel?, ← channels]
    · intro h there
      exact .inl ((alive h).mp there)
  · intro h c found
    rw [serve, alive]
    simp [stays h c]

theorem Sound.prepare (sound : Sound config w) (asker : Unit) (tag : Option Bytes)
    (request : Bytes) (draws : Nat → Nat) (fresh : Bytes32) :
    Accounts p config w (.prepare asker tag request draws fresh) := by
  rcases w.toRunning.prepare_cases p asker tag request draws fresh with
    ⟨e, r, prepared, same⟩ | ⟨response, r, prepared, prepares⟩
  · refine sound.unmoved rfl ?_ ?_ ?_ (fun h c ends => nomatch ends) <;>
      rw [Running.step, prepared]
    · exact same.channels
    · exact same.limits
    · intro id
      simp only [live?, same.slots id]
  · refine sound.unmoved rfl ?_ ?_ ?_ (fun h c ends => nomatch ends) <;>
      rw [Running.step, prepared]
    · exact prepares.channels
    · exact prepares.limits
    · exact prepares.live?

/-- A new channel is in no row, and all it can end is the channel that had its name. -/
theorem Sound.settle (sound : Sound config w) (now index : Nat) (delivery : Delivery) :
    Accounts p config w (.settle now index delivery) := by
  have service := Running.step_service p w.toRunning (.settle now index delivery)
  have running := sound.running.step p (.settle now index delivery)
  rcases w.toRunning.settle_cases now index delivery with
    ⟨none, settled⟩ | ⟨one, e, r, inside, settled, unreserves⟩ |
      ⟨one, r, inside, delivered, settled, opens⟩
  · refine sound.unmoved rfl ?_ ?_ ?_ ?_
    · rw [Running.step, settled]
    · rw [Running.step, settled]
    · intro id
      rw [Running.step, settled]
    · intro h c ends
      cases ends with
      | replaced _ inside _ _ =>
        rw [none] at inside
        cases inside
  · refine sound.unmoved rfl ?_ ?_ ?_ ?_
    · rw [Running.step, settled]
      exact unreserves.channels
    · rw [Running.step, settled]
      exact unreserves.limits
    · rw [Running.step, settled]
      exact unreserves.live
    · intro h c ends
      cases ends with
      | replaced _ inside' _ made =>
        obtain rfl := Option.some.inj (inside.symm.trans inside')
        have failed := congrArg (Option.map Prod.snd) (congrArg Prod.fst settled)
        simp only [Running.settle, inside, Option.map_some, Option.some.injEq, made] at failed
        cases failed
  · have made : (w.service.settleHandshake now one.response delivery).1 =
        .ok ⟨w.service.registry.channels.size⟩ := by
      have answer := congrArg (Option.map Prod.snd) (congrArg Prod.fst settled)
      simpa only [Running.settle, inside, Option.map_some, Option.some.injEq] using answer
    rw [Running.step, settled] at service running
    refine ⟨?_, ?_⟩
    · rw [serve, Running.step, settled]
      refine sound.quiet service running opens.confined.toEvolves opens.limits ?_ ?_
      · intro h c found
        rcases opens.channel?_cases found with rfl | old
        · obtain rfl := Option.some.inj (opens.channel?.symm.trans found)
          rw [sound.unmade]
          · rfl
          · simp [channel?]
        · exact sound.counted h c old
      · intro h alive
        cases found : w.service.registry.channel? h with
        | none => exact .inr rfl
        | some c => exact .inl ((opens.isLive_iff sound.running.named found).mp alive).1
    · intro h c found
      rw [serve, Running.step, settled, opens.isLive_iff sound.running.named found]
      apply and_congr_right
      intro live
      exact not_congr (replaced_iff sound inside made found live).symm

theorem Sound.serve (sound : Sound config w) (event : Running.Event Unit) :
    Accounts p config w event := by
  cases event with
  | prepare asker tag request draws fresh => exact sound.prepare asker tag request draws fresh
  | settle now index delivery => exact sound.settle now index delivery
  | message now m => exact sound.message now m
  | close now m => exact sound.close now m
  | expire now => exact sound.expire now

theorem sound_run {key : Option StaticKey} {handler : Bytes → Bytes} {service : Service}
    (made : Service.new config key handler = .ok service) (events : List (Running.Event Unit)) :
    Sound config (run p service events) := by
  have calls : ∀ w, Sound config w → Sound config (events.foldl (Watched.serve p) w) := by
    induction events with
    | nil => exact fun w sound => sound
    | cons event events ih =>
      intro w sound
      exact ih _ (sound.serve event).sound
  exact calls _ (sound_start made)

/-- However a server was called before, a channel that is live is gone after the next call exactly
if the call ends it. -/
theorem gone_iff_ends {key : Option StaticKey} {handler : Bytes → Bytes} {service : Service}
    (made : Service.new config key handler = .ok service) (events : List (Running.Event Unit))
    (event : Running.Event Unit) (h : Handle)
    (live : (run p service events).service.registry.IsLive h) :
    ¬ ((run p service events).serve p event).service.registry.IsLive h ↔
      ∃ c, (run p service events).service.registry.channel? h = some c ∧
        Ends p (run p service events) h c event := by
  have sound := sound_run (p := p) made events
  obtain ⟨c, found⟩ := live.found sound.running.named
  rw [(sound.serve event).live h c found]
  constructor
  · intro gone
    refine ⟨c, found, ?_⟩
    apply Classical.not_not.mp
    intro stays
    exact gone ⟨live, stays⟩
  · rintro ⟨d, there, ends⟩ ⟨-, stays⟩
    obtain rfl := Option.some.inj (found.symm.trans there)
    exact stays ends

/-! ### A channel that is refused something -/

/-- A configuration under which so many refusals in a row are too many. -/
def patient (refusals : UInt32) : Config :=
  { Config.peerNamed .routing with maxAuthFailures := refusals }

/-- A server of the standard primitives that nobody has called yet. -/
def patientServer (refusals : UInt32) : Service :=
  ⟨patient refusals, none, .new (patient refusals).limits, id⟩

/-- The server with one channel, under the name of its peer. -/
def patientOfPair (refusals : UInt32) (pair : CipherPair) : Service :=
  { patientServer refusals with registry :=
    ((patientServer refusals).registry.setLive (.transport [1]) pair 0).2 }

/-- The calls that a handshake of the peer leads to. -/
def greeting (request : Bytes) : List (Running.Event Unit) :=
  [.prepare () (some [1]) request (fun _ => 0) (.ofNatLE 9), .settle 0 0 .delivered]

theorem run_greeting (refusals : UInt32) : ∃ request pair,
    run .standard (patientServer refusals) (greeting request) =
      ⟨⟨patientOfPair refusals pair, []⟩, fun _ => 0⟩ := by
  obtain ⟨request, response, up, down, welcomes⟩ :=
    Service.welcomes_standard (s := patientServer refusals) rfl rfl rfl
      (rfl : ChannelId.decode .transport [1] = .ok (.transport [1]))
  have settled := Service.settleHandshake_delivered (s := patientServer refusals) 0
    ⟨response, .taken (.transport [1]), .new down up (patient refusals).nonceMode,
      (patient refusals).handshakeTimeout⟩ fun _ => by
        simp [patientServer, Registry.new, isFull, patient, Config.peerNamed, Config.default,
          Config.limits]
  refine ⟨request, .new down up (patient refusals).nonceMode, ?_⟩
  simp only [run, greeting, List.foldl_cons, List.foldl_nil, Watched.serve, Running.step,
    Running.prepare, welcomes.prepares, List.nil_append, rowAfter]
  simp only [Running.settle, List.getElem?_cons_zero]
  exact congrArg (fun answer => (⟨⟨answer.2, []⟩, fun _ => 0⟩ : Watched)) settled

/-- A handshake makes a channel, and an empty message ends it. -/
theorem gone_iff_ends_refusal : ∃ request,
    Service.new (patient 1) none id = .ok (patientServer 1) ∧
      (run .standard (patientServer 1) (greeting request)).service.registry.IsLive ⟨0⟩ ∧
      ¬ ((run .standard (patientServer 1) (greeting request)).serve .standard
        (.message 0 ⟨some [1], none, []⟩)).service.registry.IsLive ⟨0⟩ := by
  obtain ⟨request, pair, ran⟩ := run_greeting 1
  have live := live?_setLive (patientServer 1).registry (.transport [1]) pair 0
  have found := channel?_setLive (patientServer 1).registry (.transport [1]) pair 0
  have alive :
      (run .standard (patientServer 1) (greeting request)).service.registry.IsLive ⟨0⟩ := by
    rw [ran]
    exact ⟨.transport [1], live⟩
  have made : Service.new (patient 1) none id = .ok (patientServer 1) := rfl
  refine ⟨request, made, alive, ?_⟩
  apply (gone_iff_ends made _ (.message 0 ⟨some [1], none, []⟩) ⟨0⟩ alive).mpr
  rw [ran]
  exact ⟨_, found, .message ⟨rfl, live, found⟩ ⟨.authenticationFailure,
    CipherState.decrypt_nil .., rfl, (by decide : (1 : UInt32) ≠ 0), rfl⟩⟩

end Watched

end SecureChannel
