import SecureChannel.Command.Daemon
import SecureChannel.Proofs.Checked
import SecureChannel.Proofs.StaticKey.Identity

/-!
# The configuration of a server with options

A server starts from the usual configuration, or from the one that a file describes. Each option
that is given takes the place of one member, and the others stay. `Merges` says so member by member,
and only `override` does that.

The outcome has to be a valid configuration, but what a file describes has to be one as well, before
any option is looked at. So options and the file add up to the merged configuration unless the file
alone describes an invalid one: then the server is refused, even if the options replace just the
members that are at fault. Without a file this cannot happen: the usual configuration is valid.
-/

namespace SecureChannel.Command.Daemon

variable {o : Options} {s t : FileStore} {base merged c : Config}

/-! ### Merging -/

/-- A member has the value that is given, or the one that it had. -/
inductive Settles {α : Type} : (given : Option α) → (old new : α) → Prop
  | given (value old : α) : Settles (some value) old value
  | kept (old : α) : Settles none old old

theorem settles_iff {α : Type} {given : Option α} {old new : α} :
    Settles given old new ↔ new = given.getD old := by
  constructor
  · intro settles
    cases settles <;> rfl
  · rintro rfl
    cases given with
    | none => exact .kept old
    | some value => exact .given value old

/-- The options that are given take the place of the members that they are about. -/
structure Options.Merges (o : Options) (base merged : Config) : Prop where
  pattern : Settles o.pattern base.pattern merged.pattern
  idScheme : Settles o.idScheme base.idScheme merged.idScheme
  codec : Settles o.codec base.codec merged.codec
  nonceMode : Settles (o.window.map NonceMode.explicit) base.nonceMode merged.nonceMode
  maxSessions : Settles o.maxSessions base.maxSessions merged.maxSessions
  idleTimeout : Settles o.idleTimeout base.idleTimeoutSeconds merged.idleTimeoutSeconds
  maxAuthFailures : Settles o.maxAuthFailures base.maxAuthFailures merged.maxAuthFailures
  handshakeTimeout : merged.handshakeTimeout = base.handshakeTimeout

theorem Options.merges_iff : o.Merges base merged ↔ merged = o.override base := by
  constructor
  · rintro ⟨pattern, scheme, codec, mode, sessions, idle, failures, handshake⟩
    rw [settles_iff] at pattern scheme codec mode sessions idle failures
    cases merged
    simp only at pattern scheme codec mode sessions idle failures handshake
    subst pattern scheme codec mode sessions idle failures handshake
    rfl
  · rintro rfl
    exact ⟨settles_iff.mpr rfl, settles_iff.mpr rfl, settles_iff.mpr rfl, settles_iff.mpr rfl,
      settles_iff.mpr rfl, settles_iff.mpr rfl, settles_iff.mpr rfl, rfl⟩

/-! ### Starting -/

/-- What the options are merged into: the usual configuration, or what a file of readable text
describes, be that valid or not. -/
inductive Options.StartsFrom (o : Options) (s : FileStore) : Config → Prop
  | usual (fileless : o.config = none) : StartsFrom o s .default
  | file {path text : String} {base : Config} (named : o.config = some path)
      (read : s.read path = .ok (Bytes.ofText text))
      (described : Config.decode (Bytes.ofText text) = .ok base) : StartsFrom o s base

/-- The server's configuration, or why there is none, with the files as they are afterwards. -/
def Options.configured (o : Options) (s : FileStore) : Except ChannelError Config × FileStore :=
  o.channelConfig FileStore.access s

theorem valid_default : Config.default.validate = .ok () := rfl

/-- Without a file, what the options are merged into is valid. -/
theorem Options.StartsFrom.valid (starts : o.StartsFrom s base) (fileless : o.config = none) :
    base.validate = .ok () := by
  cases starts with
  | usual => exact valid_default
  | file named => simp [named] at fileless

/-- A file has to describe a valid configuration. -/
theorem load_of_read {path text : String} (read : s.read path = .ok (Bytes.ofText text))
    (described : Config.decode (Bytes.ofText text) = .ok base) :
    Config.load FileStore.access path s = (base.validate >>= fun _ => .ok base, s) := by
  have checked : Config.ofFile path (.ok text) = (base.validate >>= fun _ => .ok base) := by
    simp only [Config.ofFile, described]
    rfl
  rw [Config.load, bind_state_eq, lift_state_eq, FileStore.readText_of_read read]
  simp only [checked]
  cases base.validate <;> rfl

/-- First what the options are merged into has to be valid, and then the outcome. -/
theorem Options.configured_eq (starts : o.StartsFrom s base) :
    o.configured s = (base.validate >>= fun _ => (o.override base).validate >>= fun _ =>
      .ok (o.override base), s) := by
  cases starts with
  | usual fileless =>
    rw [configured, channelConfig, fileless, valid_default]
    simp only [pure_bind]
    cases (o.override .default).validate <;> rfl
  | file named read described =>
    simp only [configured, channelConfig, named]
    rw [bind_state_eq, load_of_read read described]
    cases base.validate with
    | error e => rfl
    | ok _ =>
      simp only [bind, Except.bind]
      cases (o.override base).validate <;> rfl

/-- There is a configuration exactly if both are valid, and it is the merged one. -/
theorem Options.configured_ok_iff (starts : o.StartsFrom s base) (merges : o.Merges base merged) :
    o.configured s = (.ok c, t) ↔
      c = merged ∧ t = s ∧ base.validate = .ok () ∧ merged.validate = .ok () := by
  obtain rfl := Options.merges_iff.mp merges
  rw [Options.configured_eq starts, Prod.mk.injEq, bind_eq_ok_iff]
  simp only [bind_eq_ok_iff, Except.ok.injEq]
  constructor
  · rintro ⟨⟨_, valid, _, valid', rfl⟩, rfl⟩
    exact ⟨rfl, rfl, valid, valid'⟩
  · rintro ⟨rfl, rfl, valid, valid'⟩
    exact ⟨⟨(), valid, (), valid', rfl⟩, rfl⟩

/-- If the file is valid, the merged configuration is all that counts. -/
theorem Options.configured_of_valid (starts : o.StartsFrom s base) (merges : o.Merges base merged)
    (valid : base.validate = .ok ()) :
    o.configured s = (merged.validate.map fun _ => merged, s) := by
  obtain rfl := Options.merges_iff.mp merges
  rw [Options.configured_eq starts, valid]
  rfl

/-- What the options are merged into is looked at first, then the outcome:

* if the former is valid, the answer is the merged configuration, or what is wrong with that;
* if it is not, the answer is what is wrong with it, whatever the options say;
* so there is a configuration exactly if the merged one is valid, unless just the file is invalid,
  and without a file that is always so;
* as long as the files are valid, it makes no difference which members were given as options.
-/
theorem Options.configured_of_valid_file (starts : o.StartsFrom s base)
    (merges : o.Merges base merged) :
    (base.validate = .ok () → o.configured s = (merged.validate.map fun _ => merged, s)) ∧
    (∀ e, base.validate = .error e → o.configured s = (.error e, s)) ∧
    (((∃ c t, o.configured s = (.ok c, t)) ↔ merged.validate = .ok ()) ↔
      (merged.validate = .ok () → base.validate = .ok ())) ∧
    (o.config = none → ((∃ c t, o.configured s = (.ok c, t)) ↔ merged.validate = .ok ())) ∧
    ∀ (o' : Options) (s' : FileStore) (base' : Config),
      o'.StartsFrom s' base' → o'.Merges base' merged →
      base.validate = .ok () → base'.validate = .ok () →
        (o'.configured s').1 = (o.configured s).1 := by
  have answered : (∃ c t, o.configured s = (.ok c, t)) ↔
      base.validate = .ok () ∧ merged.validate = .ok () := by
    simp only [configured_ok_iff starts merges]
    constructor
    · rintro ⟨_, _, -, -, both⟩
      exact both
    · intro both
      exact ⟨merged, s, rfl, rfl, both⟩
  refine ⟨configured_of_valid starts merges, ?_, ?_, ?_, ?_⟩
  · intro e fault
    rw [configured_eq starts, fault]
    rfl
  · rw [answered]
    constructor
    · intro exactly valid
      exact (exactly.mpr valid).1
    · intro implied
      exact ⟨And.right, fun valid => ⟨implied valid, valid⟩⟩
  · intro fileless
    rw [answered]
    exact and_iff_right (starts.valid fileless)
  · intro o' s' base' starts' merges' valid valid'
    rw [configured_of_valid starts merges valid, configured_of_valid starts' merges' valid']

def storeOf (text : String) : FileStore :=
  StaticKey.emptyStore.put ["latch.json".toList] ⟨Bytes.ofText text, FileStore.defaultMode⟩

theorem read_storeOf (text : String) :
    (storeOf text).read "latch.json" = .ok (Bytes.ofText text) :=
  have names : StaticKey.emptyStore.Names "latch.json" [] [] "latch.json".toList :=
    StaticKey.names_emptyStore (by decide) (by decide) (by decide) (by decide)
  (names.holds_put _ _).read

/-- A server that is told of the configuration file and of a number of sessions. -/
def sessionsOptions (sessions : Nat) : Options where
  listen := .v4 .loopback 5684
  config := some "latch.json"
  pattern := none
  idScheme := none
  codec := none
  window := none
  key := none
  maxSessions := some sessions
  idleTimeout := none
  maxAuthFailures := none
  logLevel := "info"

set_option maxRecDepth 10000 in
/-- The file gives the channels long names, and the option allows for more channels than there are
short names. -/
theorem configured_of_valid_file_long :
    ((sessionsOptions 70000).configured (storeOf "\x7b\"id_scheme\":\"random32\"\x7d")).1 =
      .ok { Config.default with idScheme := .random32, maxSessions := 70000 } := by
  have described : Config.decode (Bytes.ofText "\x7b\"id_scheme\":\"random32\"\x7d") =
      .ok { Config.default with idScheme := .random32 } := by rfl
  rw [(Options.configured_of_valid_file (.file rfl (read_storeOf _) described)
    (Options.merges_iff.mpr rfl)).1 rfl]
  rfl

set_option maxRecDepth 10000 in
/-- A file is refused for its number of sessions, although the option replaces that and the
configuration would be valid then. -/
theorem repaired_file_refused : ∃ base merged s,
    (sessionsOptions 5).StartsFrom s base ∧ (sessionsOptions 5).Merges base merged ∧
    merged.validate = .ok () ∧
    (sessionsOptions 5).configured s =
      (.error (.config "max_sessions must be at least 1"), s) := by
  have described : Config.decode (Bytes.ofText "\x7b\"max_sessions\":0\x7d") =
      .ok { Config.default with maxSessions := 0 } := by rfl
  have starts := Options.StartsFrom.file (o := sessionsOptions 5) rfl (read_storeOf _) described
  refine ⟨_, _, _, starts, Options.merges_iff.mpr rfl, rfl, ?_⟩
  rw [Options.configured_eq starts]
  rfl

end SecureChannel.Command.Daemon
