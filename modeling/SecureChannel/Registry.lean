import SecureChannel.Channel
import SecureChannel.Config
import Std.Data.HashMap

/-!
# The registry

A server finds the channel of a message by the name that the message carries. The registry has one
slot for each name in use: a slot is reserved while a handshake is under way, and live once there is
a channel. Reserved names count against the limit and cannot be looked up.

A channel is the same channel as long as it is reached by the same handle, also after it has left
its slot or another channel has taken its name. Every channel ever made keeps its handle, so a stale
handle can be told from the one that the slot holds now.

Each operation returns its answer together with the registry as it is afterwards. Times are
milliseconds on the server's clock.
-/

namespace SecureChannel

/-- The identity of a channel. -/
structure Handle where
  index : Nat
deriving DecidableEq

/-- What a name in use stands for. -/
inductive Slot
  /-- The name was given to a handshake that is not finished. -/
  | reserved
  | live (handle : Handle)
deriving DecidableEq

/-- Whether a slot holds a channel. -/
def Slot.isLive : Slot → Bool
  | reserved => false
  | live _ => true

/-- A name that is held for a handshake under way. -/
structure Reservation where
  id : ChannelId
deriving DecidableEq

/-- The names in use, and all channels that were made. -/
structure Registry where
  slots : Std.HashMap ChannelId Slot
  channels : Array Channel
  limits : Limits

namespace Registry

def new (limits : Limits) : Registry := ⟨∅, #[], limits⟩

/-- How often a free name is drawn for. -/
def maxDraws : Nat := 128

def channel? (r : Registry) (h : Handle) : Option Channel :=
  r.channels[h.index]?

def liveCount (r : Registry) : Nat :=
  r.slots.toList.countP fun entry => entry.2.isLive

/-- Whether all names that the limit allows are in use. -/
def isFull (r : Registry) : Bool :=
  r.limits.maxSessions ≤ r.slots.size

def setSlot (r : Registry) (id : ChannelId) (slot : Slot) : Registry :=
  { r with slots := r.slots.insert id slot }

def freeSlot (r : Registry) (id : ChannelId) : Registry :=
  { r with slots := r.slots.erase id }

/-- Makes a channel live under a name, whatever the name stood for. -/
def setLive (r : Registry) (id : ChannelId) (pair : CipherPair) (now : Nat) : Handle × Registry :=
  let h : Handle := ⟨r.channels.size⟩
  (h, { r with
    slots := r.slots.insert id (.live h)
    channels := r.channels.push (.new id pair now) })

/-- The first of so many draws, from number `first` on, that gives a free name. -/
def drawFree (r : Registry) (scheme : IdScheme) (draws : Nat → Nat) (first : Nat) :
    (attempts : Nat) → Except ChannelError ChannelId
  | 0 => .error (.allocationExhausted maxDraws)
  | attempts + 1 =>
      match ChannelId.ofDraw scheme (draws first) with
      | .error e => .error (.identifier e)
      | .ok id =>
          if r.slots.contains id then drawFree r scheme draws (first + 1) attempts else .ok id

/-- Reserves a free name that is drawn at random. -/
def allocate (r : Registry) (scheme : IdScheme) (draws : Nat → Nat) :
    Except ChannelError Reservation × Registry :=
  if r.isFull then (.error (.registryFull r.limits.maxSessions), r)
  else
    match r.drawFree scheme draws 0 maxDraws with
    | .error e => (.error e, r)
    | .ok id => (.ok ⟨id⟩, r.setSlot id .reserved)

/-- Reserves the given name, if it is free. -/
def reserve (r : Registry) (id : ChannelId) : Except ChannelError Reservation × Registry :=
  if r.slots.contains id then (.error (.collision id), r)
  else if r.isFull then (.error (.registryFull r.limits.maxSessions), r)
  else (.ok ⟨id⟩, r.setSlot id .reserved)

/-- Makes a channel live under a reserved name. -/
def commit (r : Registry) (reservation : Reservation) (pair : CipherPair) (now : Nat) :
    Handle × Registry :=
  r.setLive reservation.id pair now

/-- Gives up a reservation; the name is free again unless a channel has taken it. -/
def release (r : Registry) (reservation : Reservation) : Registry :=
  if r.slots[reservation.id]? = some .reserved then r.freeSlot reservation.id else r

/-- Makes a channel live under a name that has to be free. -/
def register (r : Registry) (id : ChannelId) (pair : CipherPair) (now : Nat) :
    Except ChannelError Handle × Registry :=
  match r.reserve id with
  | (.error e, r) => (.error e, r)
  | (.ok reservation, r) =>
      let (h, r) := r.commit reservation pair now
      (.ok h, r)

/-- Makes a channel live under a name, in the place of an earlier one. -/
def rekey (r : Registry) (id : ChannelId) (pair : CipherPair) (now : Nat) :
    Except ChannelError Handle × Registry :=
  if !r.slots.contains id && r.isFull then (.error (.registryFull r.limits.maxSessions), r)
  else
    let (h, r) := r.setLive id pair now
    (.ok h, r)

def live? (r : Registry) (id : ChannelId) : Option Handle :=
  match r.slots[id]? with
  | some (.live h) => some h
  | _ => none

def modifyChannel (r : Registry) (h : Handle) (f : Channel → Channel) : Registry :=
  { r with channels := r.channels.modify h.index f }

/-- Finds the channel that is live under a name, which counts as use of it. -/
def lookup (r : Registry) (id : ChannelId) (now : Nat) : Except ChannelError Handle × Registry :=
  match r.live? id with
  | some h => (.ok h, r.modifyChannel h fun c => c.touch now)
  | none => (.error (.unknownChannel id), r)

/-- Frees a name and returns the channel that was live under it. -/
def remove (r : Registry) (id : ChannelId) : Except ChannelError Handle × Registry :=
  match r.live? id with
  | some h => (.ok h, r.freeSlot id)
  | none => (.error (.unknownChannel id), r)

/-- Frees the name of a channel, if the channel still has it; the flag says whether it had. -/
def removeChannel (r : Registry) (h : Handle) : Bool × Registry :=
  match r.channel? h with
  | none => (false, r)
  | some c => if r.live? c.id = some h then (true, r.freeSlot c.id) else (false, r)

/-- Whether a slot holds a channel that was not used for longer than the given time. -/
def isIdle (r : Registry) (timeout now : Nat) : Slot → Bool
  | .reserved => false
  | .live h =>
      match r.channel? h with
      | none => false
      | some c => timeout < c.idleFor now

/-- Frees the names of all channels that were idle for too long, and counts them. -/
def expireIdle (r : Registry) (now : Nat) : Nat × Registry :=
  match r.limits.idleTimeout with
  | none => (0, r)
  | some timeout =>
      let kept := r.slots.filter fun _ slot => !r.isIdle timeout now slot
      (r.slots.size - kept.size, { r with slots := kept })

/-- Counts a message that a channel has refused. At the limit the channel loses its name; the flag
says whether it did. -/
def recordFailure (r : Registry) (h : Handle) : Bool × Registry :=
  match r.channel? h with
  | none => (false, r)
  | some c =>
      let failures := c.authFailures + 1
      let r := r.modifyChannel h fun c => { c with authFailures := failures }
      if r.limits.maxAuthFailures = 0 ∨ failures < r.limits.maxAuthFailures then (false, r)
      else r.removeChannel h

/-- Lets the channel of a handle do a step. -/
def step {α : Type} (r : Registry) (h : Handle) (f : Channel → Except ChannelError α × Channel) :
    Except ChannelError α × Registry :=
  match r.channel? h with
  | none => (.error (.internal "no such channel"), r)
  | some c =>
      let (answer, c) := f c
      (answer, r.modifyChannel h fun _ => c)

def encrypt (p : Primitives) (r : Registry) (h : Handle) (now : Nat) (ad plaintext : Bytes) :
    Except ChannelError Bytes × Registry :=
  r.step h fun c => c.encrypt p now ad plaintext

def decrypt (p : Primitives) (r : Registry) (h : Handle) (now : Nat) (ad ciphertext : Bytes) :
    Except ChannelError Bytes × Registry :=
  r.step h fun c => c.decrypt p now ad ciphertext

/-! ### What an operation does to the names and to the channels -/

@[simp] theorem channels_setSlot (r : Registry) (id : ChannelId) (slot : Slot) :
    (r.setSlot id slot).channels = r.channels := rfl

theorem getElem?_setSlot (r : Registry) (id other : ChannelId) (slot : Slot) :
    (r.setSlot id slot).slots[other]? = if id = other then some slot else r.slots[other]? := by
  simp [setSlot, Std.HashMap.getElem?_insert]

theorem getElem?_freeSlot (r : Registry) (id other : ChannelId) :
    (r.freeSlot id).slots[other]? = if id = other then none else r.slots[other]? := by
  simp [freeSlot, Std.HashMap.getElem?_erase]

theorem getElem?_setLive (r : Registry) (id other : ChannelId) (pair : CipherPair) (now : Nat) :
    (r.setLive id pair now).2.slots[other]? =
      if id = other then some (.live (r.setLive id pair now).1) else r.slots[other]? := by
  simp [setLive, Std.HashMap.getElem?_insert]

theorem channel?_setLive (r : Registry) (id : ChannelId) (pair : CipherPair) (now : Nat) :
    (r.setLive id pair now).2.channel? (r.setLive id pair now).1 = some (.new id pair now) := by
  simp [setLive, channel?]

theorem live?_eq_some_iff (r : Registry) (id : ChannelId) (h : Handle) :
    r.live? id = some h ↔ r.slots[id]? = some (.live h) := by
  unfold live?
  split <;> simp_all

end Registry

end SecureChannel
