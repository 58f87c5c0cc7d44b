import SecureChannel.Proofs.FileStore.Names
import SecureChannel.Proofs.StaticKey.Texts

/-!
# Key files

Programs that read and write key files are run on a store. A key is saved exactly if its private
half can be written to the one file and kept from others, and its public half can then be written to
the other file. Whoever reads a file gets the key that its text, without the blanks around it,
stands for.
-/

namespace SecureChannel

variable {α β : Type} {s t : FileStore} {path text : String}

def FileStore.run (program : ExceptT Report (StateM FileStore) α) (s : FileStore) :
    Except Report α × FileStore :=
  program s

namespace FileStore

variable {program : ExceptT Report (StateM FileStore) α}

@[simp] theorem run_pure (a : α) : run (pure a) s = (.ok a, s) := rfl

@[simp] theorem run_throw (e : Report) :
    run (throw e : ExceptT Report (StateM FileStore) α) s = (.error e, s) := rfl

@[simp] theorem run_lift (step : StateM FileStore α) :
    run (liftM step) s = (.ok (step s).1, (step s).2) := rfl

theorem run_bind {next : α → ExceptT Report (StateM FileStore) β} :
    run (program >>= next) s =
      match run program s with
      | (.ok a, t) => run (next a) t
      | (.error e, t) => (.error e, t) := by
  simp only [run, bind_state_eq]
  rcases program s with ⟨_ | _, t⟩ <;> rfl

theorem run_adapt_ok_iff {report : Report → Report} {a : α} :
    run (program.adapt report) s = (.ok a, t) ↔ run program s = (.ok a, t) := by
  have run_adapt : run (program.adapt report) s =
      ((run program s).1.mapError report, (run program s).2) := rfl
  rw [run_adapt]
  obtain ⟨result, u⟩ := run program s
  cases result with
  | ok b => exact Iff.rfl
  | error e => exact iff_of_false (by rintro ⟨⟩) (by rintro ⟨⟩)

/-- A program of two steps succeeds if both of them do, one after the other. -/
theorem run_bind_ok_iff {next : α → ExceptT Report (StateM FileStore) β} {b : β} :
    run (program >>= next) s = (.ok b, t) ↔
      ∃ a u, run program s = (.ok a, u) ∧ run (next a) u = (.ok b, t) := by
  rw [run_bind]
  obtain ⟨result, u⟩ := run program s
  constructor
  · intro done
    cases result with
    | ok a => exact ⟨a, u, rfl, done⟩
    | error e => cases done
  · rintro ⟨a, u, ⟨⟩, done⟩
    exact done

end FileStore

/-- What a file that holds a text is read as. -/
theorem run_readKeyText (read : s.read path = .ok (Bytes.ofText text)) :
    FileStore.run (readKeyText FileStore.access path) s = (.ok (Text.trim text), s) := by
  rw [readKeyText, FileStore.run_bind, FileStore.run_lift, FileStore.readText_of_read read]
  rfl

theorem run_writeKeyText_ok_iff :
    FileStore.run (writeKeyText FileStore.access path text) s = (.ok (), t) ↔
      s.write path (Bytes.ofText text) = .ok t := by
  rw [writeKeyText, FileStore.run_bind, FileStore.run_lift]
  simp only [FileStore.access, FileStore.update]
  cases s.write path (Bytes.ofText text) with
  | ok _ => simp
  | error _ => simp

namespace StaticKey

variable {p : Primitives} {key : StaticKey} {before before' : List (List Char)} {dir dir' : Place}
  {name name' : List Char}

/-- Both files are written, one after the other. -/
theorem run_save_ok_iff {publicPath : String} :
    s.run (save FileStore.access key path publicPath) = (.ok (), t) ↔
      ∃ u v, s.write path (Bytes.ofText key.privateText) = .ok u ∧ u.restrict path = .ok v ∧
        v.write publicPath (Bytes.ofText key.publicKey.toText) = .ok t := by
  rw [save, FileStore.run_bind_ok_iff]
  simp only [FileStore.run_bind, FileStore.run_lift]
  constructor
  · rintro ⟨⟨⟩, u, first, rest⟩
    simp only [FileStore.access, FileStore.update] at rest
    refine ⟨u, ?_⟩
    cases restricted : u.restrict path with
    | ok v =>
      rw [restricted] at rest
      exact ⟨v, run_writeKeyText_ok_iff.mp first, rfl, run_writeKeyText_ok_iff.mp rest⟩
    | error e =>
      rw [restricted] at rest
      cases rest
  · rintro ⟨u, v, first, restricted, second⟩
    refine ⟨(), u, run_writeKeyText_ok_iff.mpr first, ?_⟩
    simp only [FileStore.access, FileStore.update, restricted]
    exact run_writeKeyText_ok_iff.mpr second

/-- Both names of a key that was saved are names of files. Each file holds its half of the key; if
they are one file, it holds what was written last. -/
theorem holds_of_save {publicPath : String}
    (saved : s.run (save FileStore.access key path publicPath) = (.ok (), t)) :
    ∃ before dir name before' dir' name',
      s.Names path before dir name ∧ s.Names publicPath before' dir' name' ∧
      t.Holds path before dir name (Bytes.ofText (if s.place? path = s.place? publicPath
        then key.publicKey.toText else key.privateText)) ∧
      t.Holds publicPath before' dir' name' (Bytes.ofText key.publicKey.toText) := by
  obtain ⟨u, v, first, restricted, second⟩ := run_save_ok_iff.mp saved
  obtain ⟨before, dir, name, names⟩ := FileStore.names_of_write first
  obtain ⟨before', dir', name', names'⟩ := FileStore.names_of_write second
  obtain ⟨mode, written⟩ := names.write (Bytes.ofText key.privateText)
  cases written.symm.trans first
  -- The file of the private half is kept from others before the other one is written.
  have held := names.holds_put (Bytes.ofText key.privateText) mode
  cases held.restrict.symm.trans restricted
  refine ⟨before, dir, name, before', dir', name', names, names'.congr rfl rfl, ?_,
    names'.holds_of_write second⟩
  have both := (held.holds_put _ _).write_other names' second
  simpa only [FileStore.place?_put, ← apply_ite Bytes.ofText] using both

/-- If both names are names of files, both files are written. -/
theorem exists_run_save {publicPath : String} (names : s.Names path before dir name)
    (names' : s.Names publicPath before' dir' name') (key : StaticKey) :
    ∃ t, s.run (save FileStore.access key path publicPath) = (.ok (), t) := by
  obtain ⟨mode, first⟩ := names.write (Bytes.ofText key.privateText)
  have restricted := (names.holds_put (Bytes.ofText key.privateText) mode).restrict
  obtain ⟨mode', second⟩ := names'.put.put.write (Bytes.ofText key.publicKey.toText)
  exact ⟨_, run_save_ok_iff.mpr ⟨_, _, first, restricted, second⟩⟩

/-- What is read is the key that the text of the file stands for. -/
theorem run_load (read : s.read path = .ok (Bytes.ofText text))
    (parsed : parse p (Text.trim text) = .ok key) :
    s.run (load p FileStore.access path) = (.ok key, s) := by
  rw [load, FileStore.run_bind, run_readKeyText read]
  simp only [parsed]
  rfl

/-- A file with the private half, whatever blanks stand around it, gives the key. -/
theorem run_load_of_pads {privateKey : Bytes32} {padded : String}
    (pads : Text.Pads padded (ofPrivate p privateKey).privateText)
    (read : s.read path = .ok (Bytes.ofText padded)) :
    s.run (load p FileStore.access path) = (.ok (ofPrivate p privateKey), s) := by
  refine run_load read ?_
  rw [trim_encode pads]
  exact parse_privateText p privateKey

end StaticKey

/-- What is read is the public key that the text of the file stands for. -/
theorem PublicKey.run_load {key : PublicKey} (read : s.read path = .ok (Bytes.ofText text))
    (parsed : parse (Text.trim text) = .ok key) :
    s.run (load FileStore.access path) = (.ok key, s) := by
  rw [load, FileStore.run_bind, run_readKeyText read]
  simp only [parsed]
  rfl

/-- A file with the public half, whatever blanks stand around it, gives the public key. -/
theorem PublicKey.run_load_of_pads {key : PublicKey} {padded : String}
    (pads : Text.Pads padded key.toText) (read : s.read path = .ok (Bytes.ofText padded)) :
    s.run (load FileStore.access path) = (.ok key, s) := by
  refine run_load read ?_
  rw [trim_encode pads]
  exact parse_toText key

end SecureChannel
