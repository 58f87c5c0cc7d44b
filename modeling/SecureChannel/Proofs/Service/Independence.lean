import SecureChannel.Proofs.Service.Turns

/-!
# Channels do not influence each other

Serving a request is an affair between the request and the one slot that its name stands for.
`channels_independent` says this in three ways. Two servers that agree on the slot, and on the
limits, answer alike and leave the slot alike, whatever else they have seen. All other slots stay as
they are, and so do their channels. And two requests that decode to different names can be served in
either order: the answers are the same, and so is the server afterwards.

A slot is compared by what it holds, not by handles: two servers may have given different handles to
channels in the same state. The order in which a table stores its names is no part of a server
either, so servers are compared name by name.
-/

namespace SecureChannel

open Registry

namespace Registry

variable {r s t u : Registry} {id : ChannelId} {h one : Handle} {c d e : Channel} {gone lost : Prop}

/-- What a name in use stands for, with the state of the channel in the place of its handle. -/
inductive Entry
  | reserved
  | live (channel : Channel)
deriving DecidableEq

def content? (r : Registry) (id : ChannelId) : Option Entry :=
  match r.slots[id]? with
  | none => none
  | some .reserved => some .reserved
  | some (.live h) => (r.channel? h).map .live

theorem content?_of_live (live : r.live? id = some h) (found : r.channel? h = some c) :
    r.content? id = some (.live c) := by
  rw [live?_eq_some_iff] at live
  simp [content?, live, found]

theorem live_of_content? (entry : r.content? id = some (.live c)) :
    ∃ h, r.live? id = some h ∧ r.channel? h = some c := by
  rw [content?] at entry
  split at entry
  · cases entry
  · cases entry
  · next h slot =>
    obtain ⟨d, found, same⟩ := Option.map_eq_some_iff.mp entry
    cases same
    exact ⟨h, (live?_eq_some_iff r id h).mpr slot, found⟩

/-- The changed channel is the entry of its name, or the name is free. -/
theorem Changes.content? (changes : Changes r h d gone s) (live : r.live? d.id = some h)
    [Decidable gone] : s.content? d.id = if gone then none else some (.live d) := by
  split
  · next left => simp [Registry.content?, changes.freed left]
  · next stays => exact content?_of_live ((changes.live? stays _).trans live) changes.changed

/-- Changes of two channels can be made in either order. -/
theorem Changes.comm (first : Changes r h d gone s) (second : Changes s one e lost t)
    (first' : Changes r one e lost s') (second' : Changes s' h d gone u) (ne : one ≠ h)
    (names : d.id ≠ e.id) : SameTable t u := by
  have slots : ∀ id : ChannelId, u.slots[id]? = t.slots[id]? := by
    intro id
    by_cases mine : gone ∧ id = d.id
    · obtain ⟨left, rfl⟩ := mine
      rw [second'.freed left, second.slots d.id fun both => names both.2, first.freed left]
    · rw [second'.slots id mine]
      by_cases theirs : lost ∧ id = e.id
      · obtain ⟨left, rfl⟩ := theirs
        rw [first'.freed left, second.freed left]
      · rw [first'.slots id theirs, second.slots id theirs, first.slots id mine]
  have channels : ∀ g, u.channel? g = t.channel? g := by
    intro g
    by_cases mine : g = h
    · subst mine
      rw [second'.changed, second.kept g ne.symm, first.changed]
    · rw [second'.kept g mine]
      by_cases theirs : g = one
      · subst theirs
        rw [first'.changed, second.changed]
      · rw [first'.kept g theirs, second.kept g theirs, first.kept g mine]
  refine ⟨slots, (Std.HashMap.Equiv.of_forall_getElem?_eq slots).size_eq,
    Array.ext_getElem? fun i => channels ⟨i⟩, ?_⟩
  rw [second'.limits, first'.limits, second.limits, first.limits]

end Registry

namespace Service

variable {p : Primitives} {s t : Service} {q q' : Inbound} {h h' : Handle} {c c' d : Channel}
variable {id id' : ChannelId} {ciphertext ciphertext' : Bytes} {gone : Prop} {r : Registry}

/-- Two servers cannot be told apart by anything that they are called with. -/
structure Same (s t : Service) : Prop where
  config : t.config = s.config
  key : t.key = s.key
  handler : t.handler = s.handler
  registry : SameTable s.registry t.registry

theorem Same.refl (s : Service) : Same s s :=
  ⟨rfl, rfl, rfl, .refl _⟩

/-- A request is for no channel, and nothing happens, or it is for the channel of its name. -/
theorem handle_cases (named : Named s.registry) (decoded : s.decode q = .ok (id, ciphertext))
    (p : Primitives) :
    (s.registry.live? id = none ∧ s.handle p q = (.error (.unknownChannel id), s)) ∨
      ∃ h c, c.id = id ∧ Reaches s q.message h c ciphertext := by
  cases live : s.registry.live? id with
  | none => exact .inl ⟨rfl, handle_of_unknown decoded live p⟩
  | some h =>
    obtain ⟨c, found, rfl⟩ := named id h live
    exact .inr ⟨h, c, rfl, decoded, live, found⟩

/-- A request for another channel is for the same one as before. -/
theorem Reaches.after (reaches : Reaches s q.message h c ciphertext)
    (changes : Changes s.registry h' d gone r) (ne : h ≠ h') (names : c.id ≠ d.id) :
    Reaches { s with registry := r } q.message h c ciphertext := by
  refine ⟨reaches.decoded, ?_, (changes.kept h ne).trans reaches.found⟩
  have live := reaches.live
  rw [live?_eq_some_iff] at live ⊢
  rw [← live]
  exact changes.slots c.id fun both => names both.2

/-- Where the entries of a name are alike, so are the answers, and the entries afterwards. -/
theorem handle_congr (named : Named s.registry) (named' : Named t.registry)
    (decoded : s.decode q = .ok (id, ciphertext)) (decoded' : t.decode q = .ok (id, ciphertext))
    (handler : t.handler = s.handler) (limits : t.registry.limits = s.registry.limits)
    (entry : t.registry.content? id = s.registry.content? id) :
    (t.handle p q).1 = (s.handle p q).1 ∧
      (t.handle p q).2.registry.content? id = (s.handle p q).2.registry.content? id := by
  -- Entries that are alike show the same channel state, if any, perhaps under different handles.
  rcases handle_cases named decoded p with ⟨unknown, answer⟩ | ⟨h, c, rfl, reaches⟩
  · rcases handle_cases named' decoded' p with ⟨-, answer'⟩ | ⟨h, c, rfl, reaches⟩
    · rw [answer, answer']
      exact ⟨rfl, entry⟩
    · rw [content?_of_live reaches.live reaches.found] at entry
      obtain ⟨one, live, -⟩ := live_of_content? entry.symm
      rw [unknown] at live
      cases live
  · rw [content?_of_live reaches.live reaches.found] at entry
    obtain ⟨h', live, found⟩ := live_of_content? entry
    have reaches' : Reaches t q.message h' c ciphertext := ⟨decoded', live, found⟩
    obtain ⟨r, answer, changes⟩ := reaches.handle_eq p
    obtain ⟨r', answer', changes'⟩ := reaches'.handle_eq p
    rw [handler, limits] at answer' changes'
    have after := changes.content? ((c.id_turn ..).symm ▸ reaches.live)
    have after' := changes'.content? ((c.id_turn ..).symm ▸ reaches'.live)
    rw [Channel.id_turn] at after after'
    rw [answer, answer']
    exact ⟨rfl, after'.trans after.symm⟩

/-- What a request does is confined to the slot of its name. -/
theorem handle_others (named : Named s.registry) (decoded : s.decode q = .ok (id, ciphertext))
    (p : Primitives) {other : ChannelId} (ne : other ≠ id) :
    (s.handle p q).2.registry.slots[other]? = s.registry.slots[other]? ∧
      ∀ h, s.registry.live? other = some h →
        (s.handle p q).2.registry.channel? h = s.registry.channel? h := by
  rcases handle_cases named decoded p with ⟨-, answer⟩ | ⟨h, c, rfl, reaches⟩
  · rw [answer]
    exact ⟨rfl, fun _ _ => rfl⟩
  · obtain ⟨r, answer, changes⟩ := reaches.handle_eq p
    rw [answer]
    refine ⟨changes.slots other fun both => ne (both.2.trans (c.id_turn ..)), ?_⟩
    intro one live
    apply changes.kept
    rintro rfl
    obtain ⟨d, found, rfl⟩ := named other one live
    exact ne (congrArg Channel.id (Option.some.inj (found.symm.trans reaches.found)))

theorem handle_service (p : Primitives) (s : Service) (q : Inbound) :
    ∃ r, (s.handle p q).2 = { s with registry := r } := by
  rw [handle]
  split
  · exact handleClose_service p s q.now q.message
  · exact handleMessage_service p s q.now q.message

/-- A request for no channel is for none after a request for another name either. -/
theorem handle_unknown_after (named : Named s.registry)
    (decoded : s.decode q = .ok (id, ciphertext))
    (decoded' : s.decode q' = .ok (id', ciphertext')) (ne : id ≠ id')
    (unknown : s.registry.live? id = none) (p : Primitives) :
    (s.handle p q').2.handle p q = (.error (.unknownChannel id), (s.handle p q').2) := by
  have slots := (handle_others named decoded' p ne).1
  obtain ⟨r, service⟩ := handle_service p s q'
  rw [service] at slots ⊢
  refine handle_of_unknown (s := { s with registry := r }) decoded ?_ p
  change r.slots[id]? = _ at slots
  simp only [live?] at unknown ⊢
  rw [slots]
  exact unknown

/-- Requests for different channels can be served in either order. -/
theorem Reaches.handle_comm (reaches : Reaches s q.message h c ciphertext)
    (reaches' : Reaches s q'.message h' c' ciphertext') (ne : c.id ≠ c'.id) (p : Primitives) :
    ((s.handle p q).2.handle p q').1 = (s.handle p q').1 ∧
      ((s.handle p q').2.handle p q).1 = (s.handle p q).1 ∧
      Same ((s.handle p q).2.handle p q').2 ((s.handle p q').2.handle p q).2 := by
  have handles : h' ≠ h := by
    rintro rfl
    exact ne (congrArg Channel.id (Option.some.inj (reaches.found.symm.trans reaches'.found)))
  have names := (c.id_turn p s.registry.limits s.handler q ciphertext)
  have names' := (c'.id_turn p s.registry.limits s.handler q' ciphertext')
  obtain ⟨r, answer, changes⟩ := reaches.handle_eq p
  obtain ⟨r', answer', changes'⟩ := reaches'.handle_eq p
  obtain ⟨u, second, changed⟩ :=
    (reaches'.after changes handles (names.symm ▸ ne.symm)).handle_eq p
  obtain ⟨u', second', changed'⟩ :=
    (reaches.after changes' handles.symm (names'.symm ▸ ne)).handle_eq p
  change Changes r h' _ _ u at changed
  change Changes r' h _ _ u' at changed'
  simp only [changes.limits] at second changed
  simp only [changes'.limits] at second' changed'
  rw [answer, answer']
  simp only
  rw [second, second']
  exact ⟨rfl, rfl, rfl, rfl, rfl,
    changes.comm changed changes' changed' handles (by rwa [names, names'])⟩

theorem handle_comm (named : Named s.registry) (decoded : s.decode q = .ok (id, ciphertext))
    (decoded' : s.decode q' = .ok (id', ciphertext')) (ne : id ≠ id') (p : Primitives) :
    ((s.handle p q).2.handle p q').1 = (s.handle p q').1 ∧
      ((s.handle p q').2.handle p q).1 = (s.handle p q).1 ∧
      Same ((s.handle p q).2.handle p q').2 ((s.handle p q').2.handle p q).2 := by
  rcases handle_cases named decoded p with ⟨unknown, answer⟩ | ⟨h, c, rfl, reaches⟩
  · rw [handle_unknown_after named decoded decoded' ne unknown, answer]
    exact ⟨rfl, rfl, .refl _⟩
  · rcases handle_cases named decoded' p with ⟨unknown, answer⟩ | ⟨h', c', rfl, reaches'⟩
    · rw [handle_unknown_after named decoded' decoded ne.symm unknown, answer]
      exact ⟨rfl, rfl, .refl _⟩
    · exact reaches.handle_comm reaches' ne p

/-- However two servers were called before: if a request decodes to the same name and ciphertext at
both, and they agree on what the name stands for, on the limits and on the application, then they
answer alike, and the name stands for the same afterwards. What any other name stands for is left
exactly as it was. And requests that decode to different names have the same answers in either
order, and lead to the same server. -/
theorem channels_independent {config : Config} {key : Option StaticKey}
    {handler : Bytes → Bytes} (reached : Reachable p config key handler s) (q : Inbound)
    (decoded : s.decode q = .ok (id, ciphertext)) :
    (∀ config' key' t, Reachable p config' key' handler t → t.decode q = .ok (id, ciphertext) →
      t.registry.limits = s.registry.limits → t.registry.content? id = s.registry.content? id →
        (t.handle p q).1 = (s.handle p q).1 ∧
        (t.handle p q).2.registry.content? id = (s.handle p q).2.registry.content? id) ∧
    (∀ other, other ≠ id →
      (s.handle p q).2.registry.slots[other]? = s.registry.slots[other]? ∧
      ∀ h, s.registry.live? other = some h →
        (s.handle p q).2.registry.channel? h = s.registry.channel? h) ∧
    ∀ q' id' ciphertext', s.decode q' = .ok (id', ciphertext') → id ≠ id' →
      ((s.handle p q).2.handle p q').1 = (s.handle p q').1 ∧
      ((s.handle p q').2.handle p q).1 = (s.handle p q).1 ∧
      Same ((s.handle p q).2.handle p q').2 ((s.handle p q').2.handle p q).2 := by
  obtain ⟨-, rfl, named⟩ := reached.sound
  refine ⟨?_, fun other ne => handle_others named decoded p ne, ?_⟩
  · intro config' key' t reached' decoded' limits entry
    obtain ⟨-, handler, named'⟩ := reached'.sound
    exact handle_congr named named' decoded decoded' handler limits entry
  · intro q' id' ciphertext' decoded' ne
    exact handle_comm named decoded decoded' ne p

/-- The one peer of a server sends a message, and the other one closes its channel. Whatever comes
first, both requests are answered, and in the end only the first peer has a channel. -/
theorem channels_independent_twoPeers : ∃ message close,
    let q : Inbound := ⟨⟨some [1], none, message⟩, 1, false⟩
    let q' : Inbound := ⟨⟨some [2], none, close⟩, 1, true⟩
    twoPeers.decode q = .ok (.transport [1], message) ∧
    twoPeers.decode q' = .ok (.transport [2], close) ∧
    (twoPeers.handle .standard q').1 = .ok [] ∧
    ((twoPeers.handle .standard q).2.handle .standard q').1 = .ok [] ∧
    Same ((twoPeers.handle .standard q).2.handle .standard q').2
      ((twoPeers.handle .standard q').2.handle .standard q).2 := by
  obtain ⟨message, -, -⟩ := sealed_for_peer [] (by decide : ¬ CipherState.tooLong [5, 6])
  obtain ⟨close, decrypter, opened⟩ :=
    sealed_for_peer closeMarker (by decide : ¬ CipherState.tooLong [])
  have reaches : Reaches twoPeers ⟨some [2], none, close⟩ ⟨1⟩
      (.new (.transport [2]) (.new default default .implicit) 0) close :=
    ⟨rfl, live?_twoPeers.2, channel?_twoPeers.2⟩
  obtain ⟨r, answer, -⟩ := Reaches.handle_eq (q := ⟨⟨some [2], none, close⟩, 1, true⟩) reaches
    .standard
  have closed : (twoPeers.handle .standard ⟨⟨some [2], none, close⟩, 1, true⟩).1 = .ok [] := by
    rw [answer]
    simp [Channel.turn, Inbound.marker, Channel.new, CipherPair.new, opened]
  have decoded : twoPeers.decode ⟨⟨some [1], none, message⟩, 1, false⟩ =
      .ok (.transport [1], message) := rfl
  obtain ⟨later, -, same⟩ := (channels_independent reachable_twoPeers _ decoded).2.2
    ⟨⟨some [2], none, close⟩, 1, true⟩ (.transport [2]) close rfl (by decide)
  exact ⟨message, close, rfl, rfl, closed, later.trans closed, same⟩

end Service

end SecureChannel
