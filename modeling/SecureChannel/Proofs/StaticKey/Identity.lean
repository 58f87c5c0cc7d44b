import SecureChannel.Proofs.StaticKey.Files

/-!
# The identity of a server

A server that finds no key file makes a key, writes the private half to the file and the public half
to the file of that name with the extension `pub`, and later reads the private half back. The two
files are different ones unless the name of the key file has the extension `pub` itself. In that
case the public half takes the place of the private one, and the server comes back with a key whose
private half is the public half of the first one.
-/

namespace SecureChannel.StaticKey

variable {p : Primitives} {key : StaticKey} {s t : FileStore} {path : String} {fresh : Bytes32}
  {before before' : List (List Char)} {dir dir' : Place} {name name' : List Char}

/-- What the two files of a key hold once both are written, if one is named after the other. -/
theorem holds_of_save_beside
    (saved : s.run (save FileStore.access key path (Path.withExtension path "pub")) = (.ok (), t)) :
    ∃ before dir name, t.Holds path before dir name (Bytes.ofText
        (if Path.extension? path = some "pub" then key.publicKey.toText else key.privateText)) ∧
      t.read (Path.withExtension path "pub") = .ok (Bytes.ofText key.publicKey.toText) := by
  obtain ⟨before, dir, name, _, _, _, names, names', own, beside⟩ := holds_of_save saved
  simp only [names.place?_withExtension_iff (by decide) names'] at own
  exact ⟨before, dir, name, own, beside.read⟩

theorem run_loadOrCreate_of_present (present : s.isPresent path = true) :
    s.run (loadOrCreate p FileStore.access path fresh) = s.run (load p FileStore.access path) := by
  rw [loadOrCreate, FileStore.run_bind, FileStore.run_lift]
  simp [FileStore.access, present]

/-- Where there is no file yet, the fresh key is returned once both files are written. -/
theorem run_loadOrCreate_of_absent (absent : s.isPresent path = false) :
    s.run (loadOrCreate p FileStore.access path fresh) = (.ok key, t) ↔
      key = ofPrivate p fresh ∧ s.run (save FileStore.access (ofPrivate p fresh) path
        (Path.withExtension path "pub")) = (.ok (), t) := by
  rw [loadOrCreate, FileStore.run_bind, FileStore.run_lift]
  simp only [FileStore.access, absent, Bool.false_eq_true, if_false]
  rw [FileStore.run_bind_ok_iff]
  simp only [FileStore.run_adapt_ok_iff, FileStore.run_pure]
  constructor
  · rintro ⟨⟨⟩, u, saved, made⟩
    cases made
    exact ⟨rfl, saved⟩
  · rintro ⟨rfl, saved⟩
    exact ⟨(), t, saved, rfl⟩

/-- The key that is read after a key was made: it is that key, unless its public half was written
over the private one. -/
theorem run_loadOrCreate_again (absent : s.isPresent path = false)
    (made : s.run (loadOrCreate p FileStore.access path fresh) = (.ok key, t)) (again : Bytes32) :
    t.run (loadOrCreate p FileStore.access path again) =
      (.ok (ofPrivate p (if Path.extension? path = some "pub" then key.publicKey.point
        else key.privateKey)), t) := by
  obtain ⟨rfl, saved⟩ := (run_loadOrCreate_of_absent absent).mp made
  obtain ⟨before, dir, name, holds, -⟩ := holds_of_save_beside saved
  have text : (if Path.extension? path = some "pub" then (ofPrivate p fresh).publicKey.toText
      else (ofPrivate p fresh).privateText) = (ofPrivate p (if Path.extension? path = some "pub"
        then p.publicKey fresh else fresh)).privateText := by
    split <;> rfl
  rw [run_loadOrCreate_of_present holds.isPresent]
  rw [text] at holds
  exact run_load_of_pads (Text.pads_self _) holds.read

/-- The public half of a key that was made is in the file beside it. -/
theorem run_load_public_of_made (absent : s.isPresent path = false)
    (made : s.run (loadOrCreate p FileStore.access path fresh) = (.ok key, t)) :
    t.run (PublicKey.load FileStore.access (Path.withExtension path "pub")) =
      (.ok key.publicKey, t) := by
  obtain ⟨rfl, saved⟩ := (run_loadOrCreate_of_absent absent).mp made
  obtain ⟨before, dir, name, -, beside⟩ := holds_of_save_beside saved
  exact PublicKey.run_load_of_pads (Text.pads_self _) beside

theorem exists_made (names : s.Names path before dir name) (vacant : s.file? (dir ++ [name]) = none)
    (names' : s.Names (Path.withExtension path "pub") before' dir' name') (p : Primitives)
    (fresh : Bytes32) :
    s.isPresent path = false ∧
      ∃ t, s.run (loadOrCreate p FileStore.access path fresh) = (.ok (ofPrivate p fresh), t) := by
  have absent : s.isPresent path = false := by
    rw [names.isPresent_eq, vacant]
    rfl
  obtain ⟨t, saved⟩ := exists_run_save names names' (ofPrivate p fresh)
  exact ⟨absent, t, (run_loadOrCreate_of_absent absent).mpr ⟨rfl, saved⟩⟩

/-- A server that has made a key comes back with one and the same key at every later start, and the
file beside the key file holds the public half of the key that was made. The later key is the one
that was made exactly if the key file does not have the extension of public keys, or if the key is
its own public half. -/
theorem identity_kept_iff (absent : s.isPresent path = false)
    (made : s.run (loadOrCreate p FileStore.access path fresh) = (.ok key, t)) :
    key = ofPrivate p fresh ∧
    (∃ later,
      (∀ again, t.run (loadOrCreate p FileStore.access path again) = (.ok later, t)) ∧
      (later = key ↔
        Path.extension? path ≠ some "pub" ∨ key.publicKey.point = key.privateKey)) ∧
    t.run (PublicKey.load FileStore.access (Path.withExtension path "pub")) =
      (.ok key.publicKey, t) := by
  obtain ⟨rfl, -⟩ := (run_loadOrCreate_of_absent absent).mp made
  refine ⟨rfl, ⟨_, run_loadOrCreate_again absent made, ?_⟩, run_load_public_of_made absent made⟩
  split
  · next same =>
    simp only [same, ne_eq, not_true_eq_false, false_or]
    constructor
    · exact congrArg privateKey
    · intro fixed
      rw [fixed]
      rfl
  · next other => simp [other, ofPrivate]

def emptyStore : FileStore := ⟨[[]], [], []⟩

theorem names_emptyStore (undivided : '/' ∉ path.toList)
    (proper : Path.isSame path.toList = false) (below : path.toList ≠ Path.above)
    (fits : path.utf8ByteSize ≤ FileStore.maxComponent) :
    emptyStore.Names path [] [] path.toList :=
  FileStore.names_of_undivided undivided proper below fits (by simp [emptyStore])

/-- A key file `server.key` gives the same key at every start. -/
theorem identity_kept_server : ∃ key t, emptyStore.isPresent "server.key" = false ∧
    emptyStore.run (loadOrCreate .standard FileStore.access "server.key" (.ofNatLE 7)) =
      (.ok key, t) ∧
    t.run (loadOrCreate .standard FileStore.access "server.key" (.ofNatLE 9)) = (.ok key, t) ∧
    t.run (PublicKey.load FileStore.access "server.pub") = (.ok key.publicKey, t) := by
  have names : emptyStore.Names "server.key" [] [] "server.key".toList :=
    names_emptyStore (by decide) (by decide) (by decide) (by decide)
  have renamed : Path.withExtension "server.key" "pub" = "server.pub" := by decide
  have names' : emptyStore.Names (Path.withExtension "server.key" "pub") [] []
      "server.pub".toList := by
    rw [renamed]
    exact names_emptyStore (by decide) (by decide) (by decide) (by decide)
  obtain ⟨absent, t, made⟩ := exists_made names rfl names' .standard (.ofNatLE 7)
  obtain ⟨-, ⟨later, loaded, same⟩, beside⟩ := identity_kept_iff absent made
  obtain rfl : later = ofPrivate .standard (.ofNatLE 7) := same.mpr (.inl (by decide))
  rw [renamed] at beside
  exact ⟨_, t, absent, made, loaded _, beside⟩

/-- A key file `id.pub` is taken for a key whose private half is the public half of the key that was
made, and which has another public half. -/
theorem identity_lost : ∃ key later t, emptyStore.isPresent "id.pub" = false ∧
    emptyStore.run (loadOrCreate .standard FileStore.access "id.pub" (.ofNatLE 7)) = (.ok key, t) ∧
    t.run (loadOrCreate .standard FileStore.access "id.pub" (.ofNatLE 9)) = (.ok later, t) ∧
    later.privateKey = key.publicKey.point ∧ later.privateKey ≠ key.privateKey ∧
    later.publicKey ≠ key.publicKey := by
  have names : emptyStore.Names "id.pub" [] [] "id.pub".toList :=
    names_emptyStore (by decide) (by decide) (by decide) (by decide)
  have names' : emptyStore.Names (Path.withExtension "id.pub" "pub") [] [] "id.pub".toList := by
    rw [(by decide : Path.withExtension "id.pub" "pub" = "id.pub")]
    exact names
  obtain ⟨absent, t, made⟩ := exists_made names rfl names' .standard (.ofNatLE 7)
  have loaded := run_loadOrCreate_again absent made (.ofNatLE 9)
  rw [if_pos (by decide : Path.extension? "id.pub" = some "pub")] at loaded
  refine ⟨_, _, t, absent, made, loaded, rfl, ?_, ?_⟩
  · decide +kernel
  · decide +kernel

end SecureChannel.StaticKey
