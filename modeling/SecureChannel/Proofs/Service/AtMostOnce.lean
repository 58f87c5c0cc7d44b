import SecureChannel.Proofs.Service.EndToEnd
import SecureChannel.Proofs.Service.Handshake
import SecureChannel.Proofs.Service.Traffic

/-!
# A message is handled at most once

In every run of a server in a hostile network, a text that a client has sealed reaches the
application at most once, unchanged, and on the channel that belongs to the client. A request to
close is sealed under a marker and does not reach it at all. This is so whatever the network does
with the ciphertext, and also if channels are closed, expire, lose their names or are set up anew
under the same name in between: numbers are spent on a channel, and a channel keeps its identity
when it loses its name.

Two things are asked of the cryptography. Nothing that was opened in the run had been sealed under
another key, number or associated data, which is `Authentic`. And the keys of two handshakes of the
run differ, which is `KeysDiffer`.
-/

namespace SecureChannel.Traffic

open Registry

variable {p : Primitives} {config : Config} {key : Option StaticKey} {handler : Bytes → Bytes}
variable {w : Traffic}

/-- Keys for the direction to the server are the same only at the two ends of one handshake. -/
structure KeysDiffer (w : Traffic) : Prop where
  servers : ∀ a ∈ w.servers, ∀ b ∈ w.servers,
    a.pair.decrypter.key = b.pair.decrypter.key → a.handle = b.handle
  clients : ∀ a ∈ w.servers, ∀ client ∈ w.clients,
    client.channel.pair.encrypter.key = a.pair.decrypter.key →
      a.request = client.request ∧ a.response = client.response

/-- A channel and a client come out of one handshake. -/
def Paired (w : Traffic) (h : Handle) (index : Nat) : Prop :=
  ∃ a ∈ w.servers, ∃ client, w.clients[index]? = some client ∧ a.handle = h ∧
    a.request = client.request ∧ a.response = client.response

/-- Nothing was opened that was sealed differently in the run. -/
def Secure (w : Traffic) : Prop :=
  Authentic (w.sent.map Sent.record) (w.asked.map Asked.record)

/-- What the server has opened of a text is what its client has sealed, on the channel of the
client. -/
theorem Sound.asked_of_octets (sound : Sound p config w) (sealing : p.Sealing)
    (secure : w.Secure) (keys : w.KeysDiffer) {e : Sent} (sent : e ∈ w.sent) {o : Asked}
    (asked : o ∈ w.asked) (octets : o.record.octets = e.record.octets) :
    e.record.ad = [] ∧ o.record.plaintext = e.record.plaintext ∧ w.Paired o.handle e.client := by
  obtain ⟨key, number, ad⟩ := secure _ (List.mem_map_of_mem sent) _ (List.mem_map_of_mem asked)
    octets
  obtain ⟨sealed, -, client, found, clientKey⟩ := sound.sent e sent
  obtain ⟨opened, empty, -, c, there, advances, -⟩ := sound.asked o asked
  obtain ⟨a, mem, handle⟩ := sound.owned _ _ there
  refine ⟨by rw [← ad, empty],
    Opening.plaintext_eq sealing sealed opened octets key number ad, a, mem, client, found, handle,
    ?_⟩
  obtain ⟨-, c', there', advances'⟩ := sound.servers a mem
  rw [handle] at there'
  obtain rfl : c = c' := Option.some.inj (there.symm.trans there')
  apply keys.clients a mem client (List.mem_of_getElem? found)
  rw [clientKey, ← key, ← advances.key, advances'.key]

/-- One text is opened at one place, and under one number there. -/
theorem Sound.same_place (sound : Sound p config w) (secure : w.Secure) (keys : w.KeysDiffer)
    {e : Sent} (sent : e ∈ w.sent) {one other : Asked} (asked : one ∈ w.asked)
    (asked' : other ∈ w.asked) (octets : one.record.octets = e.record.octets)
    (octets' : other.record.octets = e.record.octets) :
    one.handle = other.handle ∧ one.record.number = other.record.number := by
  have mem := List.mem_map_of_mem (f := Sent.record) sent
  obtain ⟨key, number, -⟩ := secure _ mem _ (List.mem_map_of_mem asked) octets
  obtain ⟨key', number', -⟩ := secure _ mem _ (List.mem_map_of_mem asked') octets'
  refine ⟨?_, number.trans number'.symm⟩
  obtain ⟨-, -, -, c, there, advances, -⟩ := sound.asked one asked
  obtain ⟨-, -, -, c', there', advances', -⟩ := sound.asked other asked'
  obtain ⟨a, mem, handle⟩ := sound.owned _ _ there
  obtain ⟨b, mem', handle'⟩ := sound.owned _ _ there'
  obtain ⟨-, d, found, later⟩ := sound.servers a mem
  obtain ⟨-, d', found', later'⟩ := sound.servers b mem'
  rw [handle] at found
  rw [handle'] at found'
  obtain rfl : c = d := Option.some.inj (there.symm.trans found)
  obtain rfl : c' = d' := Option.some.inj (there'.symm.trans found')
  rw [← handle, ← handle']
  apply keys.servers a mem b mem'
  rw [← later.key, ← later'.key, advances.key, advances'.key, key, key']

/-- The plaintexts that the application was asked about and that came out of a given text. -/
def askedOf (w : Traffic) (e : Sent) : List Asked :=
  w.asked.filter fun o => o.record.octets = e.record.octets

theorem Sound.length_askedOf_le (sound : Sound p config w) (secure : w.Secure)
    (keys : w.KeysDiffer) {e : Sent} (sent : e ∈ w.sent) : (w.askedOf e).length ≤ 1 := by
  have distinct := sound.distinct.filter fun o => o.record.octets = e.record.octets
  change (w.askedOf e).Pairwise _ at distinct
  have opened : ∀ o ∈ w.askedOf e, o ∈ w.asked ∧ o.record.octets = e.record.octets := by
    intro o mem
    simpa [askedOf] using mem
  rcases list : w.askedOf e with _ | ⟨one, _ | ⟨other, rest⟩⟩
  · simp
  · simp
  · rw [list] at distinct opened
    obtain ⟨asked, octets⟩ := opened one (by simp)
    obtain ⟨asked', octets'⟩ := opened other (by simp)
    have apart := (List.pairwise_cons.mp distinct).1 other (by simp)
    exact absurd (sound.same_place secure keys sent asked asked' octets octets') apart

/-- The record of a run holds whatever the application is asked about, message by message, and
nothing else. Each text that a client has sealed reaches the application at most once, unchanged, on
the channel of the client and without associated data; a request to close never does. -/
theorem handled_at_most_once (sealing : p.Sealing) (reached : Reachable p config key handler w)
    (secure : w.Secure) (keys : w.KeysDiffer) :
    (∀ now m, (w.step p (.message now m)).asked.map (·.record.plaintext) =
      w.asked.map (·.record.plaintext) ++ w.service.questions p now m) ∧
    ∀ e ∈ w.sent,
      (w.askedOf e).length ≤ 1 ∧
      (∀ o ∈ w.asked, o.record.ciphertext = e.record.ciphertext → o ∈ w.askedOf e) ∧
      (∀ o ∈ w.askedOf e, e.record.ad = [] ∧ o.record.plaintext = e.record.plaintext ∧
        w.Paired o.handle e.client) ∧
      (e.record.ad = closeMarker → w.askedOf e = []) := by
  have sound := reached.sound
  refine ⟨?_, ?_⟩
  · intro now m
    rw [step, List.map_append, map_askedBy p sound.running.named]
  intro e sent
  have agree : ∀ o ∈ w.askedOf e, e.record.ad = [] ∧
      o.record.plaintext = e.record.plaintext ∧ w.Paired o.handle e.client := by
    intro o mem
    obtain ⟨asked, octets⟩ := List.mem_filter.mp mem
    exact sound.asked_of_octets sealing secure keys sent asked (by simpa using octets)
  refine ⟨sound.length_askedOf_le secure keys sent, ?_, agree, ?_⟩
  · intro o asked same
    have mode := (sound.asked o asked).mode.trans (sound.sent e sent).mode.symm
    exact List.mem_filter.mpr ⟨asked, by simpa using Opening.octets_eq mode same⟩
  · intro marked
    apply List.eq_nil_iff_forall_not_mem.mpr
    intro o mem
    have unmarked := (agree o mem).1
    rw [marked] at unmarked
    revert unmarked
    decide

/-! ### A message that is shown to the server twice -/

/-- A configuration under which messages state their numbers. -/
def numbered : Config :=
  { Config.peerNamed .routing with nonceMode := .explicit 64 }

/-- A server that has just started and echoes, after a handshake with its first client. -/
def joined (request response : Bytes) (up down : Bytes32) (remote : Option PublicKey) :
    Traffic where
  service := ⟨numbered, none, ((Registry.new numbered.limits).setLive (.transport [1])
    (.new down up numbered.nonceMode) 0).2, id⟩
  unsettled := []
  servers := [⟨⟨0⟩, request, response, .new down up numbered.nonceMode⟩]
  clients := [⟨request, response, .transport [1], .new up down numbered.nonceMode, [], remote⟩]
  sent := []
  asked := []

theorem reachable_joined : ∃ request response up down remote,
    Reachable .standard numbered none id (joined request response up down remote) := by
  obtain ⟨request, response, up, down, welcomes⟩ :=
    Service.welcomes_standard (s := ⟨numbered, none, .new numbered.limits, id⟩) rfl rfl rfl
      (rfl : ChannelId.decode .transport [1] = .ok (.transport [1]))
  have settled := Service.settleHandshake_delivered
    (s := ⟨numbered, none, .new numbered.limits, id⟩) 0
    ⟨response, .taken (.transport [1]), .new down up numbered.nonceMode,
      numbered.handshakeTimeout⟩ fun _ => by
        simp [Registry.new, isFull, numbered, Config.peerNamed, Config.default, Config.limits]
  obtain ⟨client, started, rfl, remote, finished⟩ := welcomes.joins
  have start : Reachable .standard numbered none id
      ⟨⟨⟨numbered, none, .new numbered.limits, id⟩, []⟩, [], [], [], []⟩ := .start rfl
  refine ⟨client.request, response, up, down, remote, ?_⟩
  have run := ((start.step (.prepare (some [1]) client.request (fun _ => 0) (.ofNatLE 9))).step
    (.settle 0 0 .delivered)).step (.join none [] (.ofNatLE 7) response (some [1]))
  simp only [step, Running.prepare, welcomes.prepares, List.nil_append, Running.settle,
    List.getElem?_cons_zero, settled, serverEnd, started, finished] at run
  exact run

/-- The message that carries the text of the first client. -/
def replay (e : Sent) : Message := ⟨some [1], none, e.record.ciphertext⟩

/-- The client has sealed a message that the server can open. -/
theorem reachable_sent : ∃ (w : Traffic) (e : Sent), Reachable .standard numbered none id w ∧
    w.sent = [e] ∧ e.record.ad = [] ∧ w.asked = [] ∧ w.KeysDiffer ∧
    (∀ a ∈ w.servers, a.pair.decrypter.key = e.record.sender.key) ∧
    (w.service.receive .standard 0 [] (replay e)).1 =
      .ok (.transport [1], ⟨0⟩, e.record.plaintext) := by
  obtain ⟨request, response, up, down, remote, reached⟩ := reachable_joined
  have short : ¬ CipherState.tooLong [5] := by decide
  obtain ⟨ciphertext, next, sealed⟩ := CipherState.encrypt_isOk .standard []
    (CipherState.nonce_new_ne_lastNonce up numbered.nonceMode) short
  obtain ⟨receiver, opened, -⟩ := (CipherState.inStep_new up numbered.nonceMode).deliver
    Primitives.standard_sealing sealed
  have run := reached.step (.send 0 [] [5])
  have sends : ClientChannel.encrypt .standard
      ⟨.transport [1], .new up down numbered.nonceMode, [], remote⟩ [] [5] = .ok (ciphertext,
        ⟨.transport [1], ⟨next, .new down numbered.nonceMode⟩, [], remote⟩) := by
    simp only [ClientChannel.encrypt, CipherPair.new, sealed]
  simp only [step, joined, List.getElem?_cons_zero, sends] at run
  have name : (Registry.new numbered.limits).Opens (.transport [1])
    (.new down up numbered.nonceMode) 0 _ := opens_setLive ..
  refine ⟨_, ⟨0, ⟨.new up numbered.nonceMode, [], [5], ciphertext⟩⟩, run, rfl, rfl, rfl,
    ⟨?_, ?_⟩, ?_, ?_⟩
  · intro a mem b mem' _
    rw [List.mem_singleton.mp mem, List.mem_singleton.mp mem']
  · intro a mem client mem' _
    rw [List.mem_singleton.mp mem, List.mem_singleton.mp mem']
    exact ⟨rfl, rfl⟩
  · intro a mem
    rw [List.mem_singleton.mp mem]
    rfl
  · obtain ⟨_, _, received, -⟩ := Service.receive_isOk (s := ⟨numbered, none, _, id⟩)
      (m := ⟨some [1], none, ciphertext⟩) 0 rfl name.live? name.channel? opened
    exact congrArg Prod.fst received

/-- Where numbers are stated, a ciphertext has one number and one body. -/
theorem unpack_numbered {s t : CipherState} (one : s.isExplicit = numbered.nonceMode.isExplicit)
    (other : t.isExplicit = numbered.nonceMode.isExplicit) (ciphertext : Bytes) :
    s.unpack ciphertext = t.unpack ciphertext := by
  have explicit : numbered.nonceMode.isExplicit = true := rfl
  simp only [CipherState.unpack, one, other, explicit, if_true]

/-- Where there is one key and one ciphertext, nothing is opened that was sealed differently. -/
theorem secure_of_replays {e : Sent} (reached : Reachable p numbered key handler w)
    (sent : w.sent = [e]) (unmarked : e.record.ad = [])
    (same : ∀ o ∈ w.asked, o.record.ciphertext = e.record.ciphertext)
    (keys : ∀ a ∈ w.servers, a.pair.decrypter.key = e.record.sender.key) : w.Secure := by
  have sound := reached.sound
  have mem : e ∈ w.sent := by simp [sent]
  intro record mem' opening mem'' _
  simp only [sent, List.map_cons, List.map_nil, List.mem_singleton] at mem'
  obtain ⟨o, asked, rfl⟩ := List.mem_map.mp mem''
  subst mem'
  obtain ⟨-, ad, mode, c, there, advances, -⟩ := sound.asked o asked
  obtain ⟨a, there', handle⟩ := sound.owned _ _ there
  obtain ⟨-, c', found, advances'⟩ := sound.servers a there'
  rw [handle] at found
  obtain rfl : c = c' := Option.some.inj (there.symm.trans found)
  refine ⟨by rw [← advances.key, advances'.key, keys a there'], ?_, by rw [ad, unmarked]⟩
  rw [Opening.number, Seal.number, same o asked, unpack_numbered mode (sound.sent e mem).mode]

theorem ciphertext_of_askedBy {e : Sent} (sound : Sound p numbered w) {o : Asked}
    (mem : o ∈ askedBy p w.service 0 (replay e)) :
    o.record.ciphertext = e.record.ciphertext := by
  rcases askedBy_cases p sound.running.named 0 (replay e) with ⟨nothing, -⟩ |
    ⟨h, c, record, asked, -, -, -, ⟨id, decoded⟩, -⟩
  · rw [nothing] at mem
    cases mem
  · rw [asked] at mem
    obtain rfl := List.mem_singleton.mp mem
    rw [sound.configured] at decoded
    have read : numbered.codec.decode numbered.idScheme (replay e) =
        .ok (.transport [1], e.record.ciphertext) := rfl
    exact (Prod.mk.inj (Except.ok.inj (decoded.symm.trans read))).2

def shownTwice (w : Traffic) (e : Sent) : Traffic :=
  (w.step .standard (.message 0 (replay e))).step .standard (.message 0 (replay e))

theorem asked_shownTwice (w : Traffic) (e : Sent) :
    (w.shownTwice e).asked = w.asked ++ askedBy .standard w.service 0 (replay e) ++
      askedBy .standard (w.step .standard (.message 0 (replay e))).service 0 (replay e) := rfl

/-- All that the application is asked about comes out of the text. -/
theorem ciphertext_of_shownTwice {e : Sent} (reached : Reachable .standard numbered key handler w)
    (asked : w.asked = []) :
    ∀ o ∈ (w.shownTwice e).asked, o.record.ciphertext = e.record.ciphertext := by
  intro o mem
  have once := reached.step (.message 0 (replay e))
  rw [asked_shownTwice, asked, List.nil_append] at mem
  rcases List.mem_append.mp mem with mem | mem
  · exact ciphertext_of_askedBy reached.sound mem
  · exact ciphertext_of_askedBy once.sound mem

/-- A message that is shown to the server twice is handled once. -/
theorem handled_once_of_two : ∃ (w : Traffic) (e : Sent),
    Reachable .standard numbered none id w ∧ w.sent = [e] ∧ w.Secure ∧ w.KeysDiffer ∧
      (w.askedOf e).length = 1 := by
  obtain ⟨w, e, reached, sent, unmarked, asked, keys, shared, received⟩ := reachable_sent
  have twice : Reachable .standard numbered none id (w.shownTwice e) :=
    (reached.step (.message 0 (replay e))).step (.message 0 (replay e))
  have same := ciphertext_of_shownTwice (e := e) reached asked
  have secure := secure_of_replays twice sent unmarked same shared
  have differ : (w.shownTwice e).KeysDiffer := ⟨keys.servers, keys.clients⟩
  have mem : e ∈ (w.shownTwice e).sent := by
    change e ∈ w.sent
    simp [sent]
  obtain ⟨few, all, -⟩ :=
    (handled_at_most_once Primitives.standard_sealing twice secure differ).2 e mem
  refine ⟨_, e, twice, sent, secure, differ, Nat.le_antisymm few ?_⟩
  -- The first time the message is opened.
  rcases askedBy_cases .standard reached.sound.running.named 0 (replay e) with ⟨-, -, refused⟩ |
    ⟨h, c, o, first, -⟩
  · exact absurd received (refused _)
  · have mem' : (⟨h, o⟩ : Asked) ∈ (w.shownTwice e).asked := by
      rw [asked_shownTwice, first]
      exact List.mem_append_left _ (List.mem_append_right _ (List.mem_singleton_self _))
    exact List.length_pos_of_mem (all _ mem' (same _ mem'))

end SecureChannel.Traffic
