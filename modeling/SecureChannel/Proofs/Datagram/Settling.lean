import SecureChannel.Proofs.Datagram.Joining

/-!
# Handshakes keep names apart

What a client knows about its channels survives every handshake, and settling one. A handshake
promises a channel under a name, and the promise is kept as long as nothing else is to get the name.
Tokens and reservations see to that where a client has many channels: the name of a new channel is
none of those in use.
-/

namespace SecureChannel

open Registry DatagramServer

/-- Of one endpoint, different tokens make different names. -/
theorem Spells.token_inj {peer : Endpoint} {token other : Bytes} {id : ChannelId}
    (spells : Spells .tokenReuse peer token id) (again : Spells .tokenReuse peer other id) :
    token = other := by
  have same := (spells.tag rfl).trans (again.tag rfl).symm
  exact List.append_cancel_left (Option.some.inj same)

/-! ### Handshakes to be settled -/

namespace Hosting

variable {w : Hosting} {one other : Unsettled Asker} {index : Nat} {id : ChannelId}

theorem mem_pending (mem : one ∈ w.unsettled) : one ∈ w.pending one.response.naming.id :=
  List.mem_filter.mpr ⟨mem, decide_eq_true rfl⟩

theorem eq_take_append_drop {unsettled : List (Unsettled Asker)}
    (inside : unsettled[index]? = some one) :
    unsettled = unsettled.take index ++ one :: unsettled.drop (index + 1) := by
  obtain ⟨less, rfl⟩ := List.getElem?_eq_some_iff.mp inside
  rw [← List.drop_eq_getElem_cons less, List.take_append_drop]

/-- What is settled under one name leaves all other names as they are. -/
theorem filter_eraseIdx_of_ne {unsettled : List (Unsettled Asker)}
    (inside : unsettled[index]? = some one) (ne : one.response.naming.id ≠ id) :
    (unsettled.eraseIdx index).filter (·.response.naming.id = id) =
      unsettled.filter (·.response.naming.id = id) := by
  rw [List.eraseIdx_eq_take_drop_succ, List.filter_append]
  have whole := congrArg (List.filter (·.response.naming.id = id)) (eq_take_append_drop inside)
  rw [whole, List.filter_append, List.filter_cons, if_neg (by simpa using ne)]

/-- When the only handshake under a name is settled, none is left. -/
theorem filter_eraseIdx_of_eq {unsettled : List (Unsettled Asker)}
    (inside : unsettled[index]? = some one)
    (alone : unsettled.filter (·.response.naming.id = one.response.naming.id) = [other]) :
    other = one ∧
      (unsettled.eraseIdx index).filter (·.response.naming.id = one.response.naming.id) = [] := by
  rw [List.eraseIdx_eq_take_drop_succ, List.filter_append]
  rw [eq_take_append_drop inside, List.filter_append, List.filter_cons,
    if_pos (decide_eq_true rfl)] at alone
  rcases List.append_eq_cons_iff.mp alone with ⟨before, rest⟩ | ⟨_, before, rest⟩
  · obtain ⟨rfl, behind⟩ := List.cons.inj rest
    exact ⟨rfl, by rw [before, behind]; rfl⟩
  · simp at rest

end Hosting

namespace Session

variable {p : Primitives} {w : Session} {m : Moment} {hello : Hello} {r s : Registry}
variable {config : Config} {key : Option Bytes32} {handler : Bytes → Bytes}
variable {channel : ClientChannel} {index : Nat} {one : Unsettled Asker} {id : ChannelId}
variable {mode : NonceMode}

theorem pending_promising (w : Session) (r : Registry) (one : Unsettled Asker) (id : ChannelId) :
    (w.promising r one).pending id =
      w.pending id ++ if one.response.naming.id = id then [one] else [] := by
  rw [Hosting.pending, promising, List.filter_append, Hosting.pending, List.filter_cons,
    List.filter_nil]
  simp only [decide_eq_true_eq]

/-! ### Handshakes keep what is known -/

/-- The name of a new channel is spelled with the token of its handshake. -/
theorem Promises.spells (promises : w.Promises m channel one r)
    (sound : Sound p config key handler w) :
    Spells w.client.codec w.client.endpoint m.token channel.id := by
  refine ⟨m.sized, ?_⟩
  intro requires
  rw [← sound.tag_eq]
  have scheme : w.service.config.idScheme = .transport := by
    rw [sound.steady.configured]
    rwa [sound.codec, Config.requiresTransportId_iff_of_valid sound.started.valid] at requires
  rcases promises.prepares.naming with ⟨other, -⟩ | ⟨-, id, known, naming, -⟩
  · exact absurd scheme other
  · obtain ⟨octets, tag, read⟩ := PendingHandshake.peerId_ok_iff.mp known
    rw [← promises.name, naming, Naming.id, (ChannelId.decode_transport_iff.mp read).1]
    exact tag

/-- What a client says in a handshake leaves the names of its channels. -/
theorem Spelled.hail {c : Caller} (spelled : Spelled config c id) (token : Bytes) :
    Spelled config (c.hail token) id :=
  spelled.grow rfl rfl (List.subset_append_left ..)

theorem kept_sublist (w : Session) : w.kept.Sublist w.channels := by
  rw [kept]
  split
  · exact List.nil_sublist _
  · exact .refl _

/-- A new name is in doubt if something else has it, and only then. -/
theorem mem_doubtsOnJoin (w : Session) (id name : ChannelId) :
    id ∈ w.doubtsOnJoin name ↔
      if id = name then w.pending name ≠ [] ∨ ∃ other ∈ w.kept, other.id = name
      else id ∈ w.doubtful := by
  rw [doubtsOnJoin]
  split
  · next clean =>
    simp only [Bool.and_eq_true, List.isEmpty_iff, List.all_eq_true, decide_eq_true_eq] at clean
    split
    · next same =>
      subst same
      simpa [clean.1] using clean.2
    · next other => simp [other]
  · next unclean =>
    split
    · next same =>
      subst same
      simpa [Classical.or_iff_not_imp_left] using unclean
    · next other => simp [other]

/-- A response that is made ready is not about any channel of another name. -/
theorem Keeps.promising (keeps : Keeps mode w.toHosting channel) {tag : Option Bytes}
    (prepares : w.service.Prepares tag one.response r)
    (ne : one.response.naming.id ≠ channel.id) : Keeps mode (w.promising r one) channel := by
  refine keeps.of_live ?_ (prepares.live? channel.id) prepares.channels
  rw [pending_promising, if_neg ne, List.append_nil]

/-- A client that gets a channel keeps what it knows about the other ones. -/
theorem Sound.promised (sound : Sound p config key handler w)
    (promises : w.Promises m channel one r)
    (served : Hosting.Reachable p config (key.map (StaticKey.ofPrivate p)) handler
      (w.promising r one)) :
    Sound p config key handler { w with
      toCaller := { w.hail m.token with channels := w.kept ++ [channel] }
      toHosting := w.promising r one
      doubtful := w.doubtsOnJoin channel.id } := by
  have old : ∀ c ∈ w.kept, c ∈ w.channels := fun c mem => w.kept_sublist.subset mem
  obtain ⟨up, down, mine, theirs⟩ := promises.crossed
  rw [sound.steady.configured] at mine theirs
  refine ⟨served, sound.codec, sound.seen, sound.inbox, ?_, ?_, ?_, ?_⟩
  · intro c mem
    rcases List.mem_append.mp mem with mem | new
    · exact sound.inMode c (old c mem)
    · rw [List.mem_singleton.mp new, mine]
      exact CipherPair.inMode_new up down _
  · intro c mem
    rcases List.mem_append.mp mem with mem | new
    · exact (sound.spelled c (old c mem)).grow rfl rfl (List.subset_append_left ..)
    · rw [List.mem_singleton.mp new]
      exact ⟨promises.admissible, by rw [promises.scheme, sound.steady.configured], m.token,
        List.mem_append_right _ (List.mem_singleton_self _), promises.spells sound⟩
  · refine List.pairwise_append.mpr
      ⟨(sound.unique.sublist w.kept_sublist).imp_of_mem ?_, List.pairwise_singleton .., ?_⟩
    · intro c d mem _ doubt same
      refine (w.mem_doubtsOnJoin c.id channel.id).mpr ?_
      split
      · next equal => exact .inr ⟨c, mem, equal⟩
      · exact doubt same
    · intro c mem d new same
      rw [List.mem_singleton.mp new] at same
      refine (w.mem_doubtsOnJoin c.id channel.id).mpr ?_
      rw [if_pos same]
      exact .inr ⟨c, mem, same⟩
  · intro c mem certain
    rw [mem_doubtsOnJoin] at certain
    split at certain
    · next same =>
      simp only [not_or, Classical.not_not] at certain
      obtain ⟨free, others⟩ := certain
      rcases List.mem_append.mp mem with mem | new
      · exact absurd ⟨c, mem, same⟩ others
      · obtain rfl := List.mem_singleton.mp new
        refine .promised ?_ mine theirs
        rw [pending_promising, free, if_pos promises.name, List.nil_append]
    · next ne =>
      rcases List.mem_append.mp mem with mem | new
      · exact (sound.keeps c (old c mem) certain).promising promises.prepares
          (promises.name ▸ Ne.symm ne)
      · exact absurd (congrArg _ (List.mem_singleton.mp new)) ne

theorem Sound.connect (sealing : p.Sealing) (sound : Sound p config key handler w)
    (fair : w.Fair p m hello) :
    Sound p config key handler (w.call p m (.connect hello)).2 := by
  have served := sound.served_call m (.connect hello)
  rcases sound.connect_cases sealing fair with
    ⟨e, caller, r, connected, said, same⟩ | ⟨e, one, r, connected, prepares⟩ |
    ⟨channel, one, r, connected, promises⟩
  · rw [connected] at served ⊢
    have keeps : ∀ {c}, Keeps config.nonceMode w.toHosting c →
        Keeps config.nonceMode (w.serving r) c := fun keeps =>
      keeps.of_live rfl (by simp only [serving, live?, same.slots]) same.channels
    rcases said with rfl | rfl
    · exact { sound with
        served := served
        keeps := fun c mem certain => keeps (sound.keeps c mem certain) }
    · exact { sound with
        served := served
        spelled := fun c mem => (sound.spelled c mem).hail m.token
        keeps := fun c mem certain => keeps (sound.keeps c mem certain) }
  · rw [connected] at served ⊢
    refine { sound with
      served := served
      spelled := fun c mem => (sound.spelled c mem).hail m.token
      unique := sound.unique.imp fun doubt same => List.mem_append_left _ (doubt same)
      keeps := ?_ }
    intro c mem certain
    simp only [List.mem_append, List.mem_singleton, not_or] at certain
    exact (sound.keeps c mem certain.1).promising prepares (Ne.symm certain.2)
  · rw [connected] at served ⊢
    exact sound.promised promises served

/-- The name of a new channel is none of those that can be used. -/
theorem Promises.ne_of_kept (promises : w.Promises m channel one r)
    (sound : Sound p config key handler w) (fair : w.Fair p m hello) {other : ClientChannel}
    (mem : other ∈ w.kept) (certain : other.id ∉ w.doubtful) : other.id ≠ channel.id := by
  intro same
  have old := w.kept_sublist.subset mem
  rcases promises.prepares.naming with ⟨scheme, res, naming, granted⟩ | ⟨scheme, -⟩
  · -- The name was free when it was reserved.
    have free : w.service.registry.slots[other.id]? = none := by
      rw [same, ← promises.name, naming]
      exact granted.free
    cases sound.keeps other old certain with
    | linked _ live =>
      rw [live?_eq_none_of_free free] at live
      cases live
    | @promised waiting _ _ alone =>
      have waits := List.mem_singleton_self waiting
      rw [← alone, Hosting.pending, List.mem_filter, decide_eq_true_eq] at waits
      exact sound.steady.running.held.ne_of_free scheme free waiting waits.1 waits.2
  · -- The name has the token of this handshake, and the other one an older token.
    have codec : w.client.codec = .tokenReuse := by
      rw [sound.steady.configured] at scheme
      have requires := (Config.requiresTransportId_iff_of_valid sound.started.valid).mpr scheme
      rw [← sound.codec] at requires
      cases codec : w.client.codec with
      | tokenReuse => rfl
      | query | routing => simp [kept, codec, Codec.onePerPeer] at mem
      | envelope => simp [codec, Codec.requiresTransportId] at requires
    obtain ⟨token, drawn, spells⟩ := (sound.spelled other old).token
    have again := promises.spells sound
    rw [codec, ← same] at again
    rw [codec] at spells
    exact fair.token (again.token_inj spells ▸ drawn)

/-! ### Settling -/

/-- There is room for what is to be settled. -/
def Roomy (w : Session) (index : Nat) : Prop :=
  ∀ one, w.unsettled[index]? = some one →
    w.service.registry.slots[one.response.naming.id]? = none → w.service.registry.isFull = false

/-- If there is room, settling a handshake registers its name. -/
theorem settle_opens (inside : w.unsettled[index]? = some one) (room : w.Roomy index) (now : Nat) :
    ∃ r, w.settle now index = { w with toHosting :=
        ⟨⟨{ w.service with registry := r }, w.unsettled.eraseIdx index⟩,
          w.origins ++ [⟨one.asker, ⟨w.service.registry.channels.size⟩⟩]⟩ } ∧
      w.service.registry.Opens one.response.naming.id one.response.pair now r := by
  refine ⟨_, ?_, opens_setLive ..⟩
  simp only [settle, Hosting.settle_delivered inside (room one inside), Option.filter_none,
    Option.toList_none, List.map_nil, List.append_nil]

theorem settle_of_none (outside : w.unsettled[index]? = none) (now : Nat) :
    w.settle now index = w := by
  simp [settle, Hosting.settle, Running.settle, outside]

/-- A promised channel is linked once its handshake is settled. -/
theorem Keeps.opens (keeps : Keeps mode w.toHosting channel)
    (inside : w.unsettled[index]? = some one) {now : Nat} {origins : List Origin}
    (opens : w.service.registry.Opens one.response.naming.id one.response.pair now r) :
    Keeps mode ⟨⟨{ w.service with registry := r }, w.unsettled.eraseIdx index⟩, origins⟩
      channel := by
  by_cases same : one.response.naming.id = channel.id
  · cases keeps with
    | linked settled live found linked =>
      have waits := Hosting.mem_pending (List.mem_of_getElem? inside)
      rw [same, settled] at waits
      cases waits
    | promised alone mine theirs =>
      rw [Hosting.pending, ← same] at alone
      obtain ⟨rfl, free⟩ := Hosting.filter_eraseIdx_of_eq inside alone
      rw [same] at opens free
      refine .linked free opens.live? opens.channel? ?_
      rw [theirs]
      exact World.linked_new mine
  · exact keeps.of_confined same (Hosting.filter_eraseIdx_of_ne inside same) opens.confined

theorem Sound.settle (sound : Sound p config key handler w) {now : Nat} (room : w.Roomy index) :
    Sound p config key handler (w.settle now index) := by
  cases inside : w.unsettled[index]? with
  | none => rwa [settle_of_none inside]
  | some one =>
    obtain ⟨r, settled, opens⟩ := settle_opens inside room now
    have served : Hosting.Reachable p config (key.map (StaticKey.ofPrivate p)) handler
        (w.settle now index).toHosting := sound.served.step (.settle now index .delivered)
    rw [settled] at served ⊢
    exact { sound with
      served := served
      keeps := fun channel mem certain => (sound.keeps channel mem certain).opens inside opens }

end Session

end SecureChannel
