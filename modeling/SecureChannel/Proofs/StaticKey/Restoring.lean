import SecureChannel.Proofs.StaticKey.Identity

/-!
# A key is restored from its files

Two names stand for one file exactly if they lead to one place, which is decided by the directories
alone. A key that was saved under names with two places comes back from its files, and so it does
from files in which blanks were put around the texts. Under two names of one place the public half
takes the place of the private one, and the key does not come back unless both halves are equal.

The texts of public keys are those of 64 digits of either case. A key is written in lowercase, and
what is written is read as the key.
-/

namespace SecureChannel.StaticKey

variable {p : Primitives} {key : StaticKey} {privateKey : Bytes32} {s t : FileStore}
  {path publicPath padded padded' : String}

/-- The key comes back from its files: from the one as a whole, from the other its public half. -/
structure Restores (p : Primitives) (key : StaticKey) (path publicPath : String) (s : FileStore) :
    Prop where
  own : s.run (load p FileStore.access path) = (.ok key, s)
  beside : s.run (PublicKey.load FileStore.access publicPath) = (.ok key.publicKey, s)

/-- A key can be saved exactly if both names are names of files. -/
theorem exists_save_iff : (∃ t, s.run (save FileStore.access key path publicPath) = (.ok (), t)) ↔
    (s.place? path).isSome = true ∧ (s.place? publicPath).isSome = true := by
  rw [FileStore.isSome_place?_iff, FileStore.isSome_place?_iff]
  constructor
  · rintro ⟨t, saved⟩
    obtain ⟨before, dir, name, before', dir', name', names, names', -⟩ := holds_of_save saved
    exact ⟨⟨before, dir, name, names⟩, before', dir', name', names'⟩
  · rintro ⟨⟨_, _, _, names⟩, _, _, _, names'⟩
    exact exists_run_save names names' key

/-- What is read from the first file of a key that was saved: the key, or under two names of one
file the key whose private half is the public one. -/
theorem run_load_of_save
    (saved : s.run (save FileStore.access (ofPrivate p privateKey) path publicPath) = (.ok (), t)) :
    t.run (load p FileStore.access path) =
      (.ok (ofPrivate p (if s.place? path = s.place? publicPath
        then p.publicKey privateKey else privateKey)), t) := by
  obtain ⟨_, _, _, _, _, _, -, -, own, -⟩ := holds_of_save saved
  refine run_load_of_pads ?_ own.read
  split
  · exact Text.pads_self _
  · exact Text.pads_self _

/-- A key that was saved comes back unless its public half was written over the private one. -/
theorem restores_of_save_iff
    (saved : s.run (save FileStore.access (ofPrivate p privateKey) path publicPath) = (.ok (), t)) :
    Restores p (ofPrivate p privateKey) path publicPath t ↔
      s.place? path ≠ s.place? publicPath ∨ p.publicKey privateKey = privateKey := by
  have read := run_load_of_save saved
  obtain ⟨_, _, _, _, _, _, -, -, -, beside⟩ := holds_of_save saved
  constructor
  · intro restores
    rw [restores.own, Prod.mk.injEq, Except.ok.injEq] at read
    split at read
    · exact .inr (congrArg StaticKey.privateKey read.1).symm
    · next distinct => exact .inl distinct
  · intro either
    refine ⟨?_, PublicKey.run_load_of_pads (Text.pads_self _) beside.read⟩
    rw [read]
    split
    · next same => rw [either.resolve_left (not_not_intro same)]
    · rfl

/-- The files of a key that was saved under names of two files can be written again with blanks
around their texts, and the key comes back from these as well. -/
theorem restores_of_pads
    (saved : s.run (save FileStore.access (ofPrivate p privateKey) path publicPath) = (.ok (), t))
    (distinct : s.place? path ≠ s.place? publicPath)
    (pads : Text.Pads padded (ofPrivate p privateKey).privateText)
    (pads' : Text.Pads padded' (ofPrivate p privateKey).publicKey.toText) :
    ∃ u v, t.write path (Bytes.ofText padded) = .ok u ∧
      u.write publicPath (Bytes.ofText padded') = .ok v ∧
      Restores p (ofPrivate p privateKey) path publicPath v := by
  obtain ⟨_, _, _, _, _, _, names, names', own, beside⟩ := holds_of_save saved
  obtain ⟨mode, written⟩ := own.toNames.write (Bytes.ofText padded)
  obtain ⟨mode', written'⟩ := beside.put.write (Bytes.ofText padded')
  have held := (own.holds_put (Bytes.ofText padded) mode).write_other beside.put written'
  rw [FileStore.place?_put, FileStore.place?_put, own.place?, beside.place?, ← names.place?,
    ← names'.place?, if_neg distinct] at held
  exact ⟨_, _, written, written', run_load_of_pads pads held.read,
    PublicKey.run_load_of_pads pads' (beside.put.holds_of_write written').read⟩

/-- Keys as texts and in files:

* the texts that are read as public keys are those of 64 digits of either case;
* a text is read as the key that is written as the text in lowercase;
* what is written for a key is read as the key;
* a key can be saved exactly if both names are names of files;
* a key that was saved comes back exactly if these are two files, or both halves are equal;
* from two files it also comes back with blanks around the texts.
-/
theorem texts_and_files (p : Primitives) :
    (∀ text, (∃ key, PublicKey.parse text = .ok key) ↔ IsKeyText text) ∧
    (∀ text key, PublicKey.parse text = .ok key ↔
      IsKeyText text ∧ key.toText = text.toLower) ∧
    (∀ key : PublicKey, PublicKey.parse key.toText = .ok key) ∧
    ∀ (privateKey : Bytes32) (s : FileStore) (path publicPath : String),
      ((∃ t, s.run (save FileStore.access (ofPrivate p privateKey) path publicPath) = (.ok (), t)) ↔
        (s.place? path).isSome = true ∧ (s.place? publicPath).isSome = true) ∧
      ∀ t, s.run (save FileStore.access (ofPrivate p privateKey) path publicPath) = (.ok (), t) →
        (Restores p (ofPrivate p privateKey) path publicPath t ↔
          s.place? path ≠ s.place? publicPath ∨ p.publicKey privateKey = privateKey) ∧
        (s.place? path ≠ s.place? publicPath → ∀ padded padded',
          Text.Pads padded (ofPrivate p privateKey).privateText →
          Text.Pads padded' (ofPrivate p privateKey).publicKey.toText →
          ∃ u v, t.write path (Bytes.ofText padded) = .ok u ∧
            u.write publicPath (Bytes.ofText padded') = .ok v ∧
            Restores p (ofPrivate p privateKey) path publicPath v) := by
  refine ⟨fun _ => PublicKey.exists_parse_iff, fun _ _ => PublicKey.parse_ok_iff_toText,
    PublicKey.parse_toText, ?_⟩
  intro privateKey s path publicPath
  refine ⟨exists_save_iff, ?_⟩
  intro t saved
  refine ⟨restores_of_save_iff saved, ?_⟩
  intro distinct padded padded' pads pads'
  exact restores_of_pads saved distinct pads pads'

/-- In an empty store a key is saved as `server.key` and `server.pub`. It comes back, and also after
a line end was put behind each text. -/
theorem texts_and_files_server : ∃ key t u v,
    emptyStore.run (save FileStore.access key "server.key" "server.pub") = (.ok (), t) ∧
    Restores .standard key "server.key" "server.pub" t ∧
    t.write "server.key" (Bytes.ofText (key.privateText ++ "\n")) = .ok u ∧
    u.write "server.pub" (Bytes.ofText (key.publicKey.toText ++ "\n")) = .ok v ∧
    Restores .standard key "server.key" "server.pub" v := by
  have names : emptyStore.Names "server.key" [] [] "server.key".toList :=
    names_emptyStore (by decide) (by decide) (by decide) (by decide)
  have names' : emptyStore.Names "server.pub" [] [] "server.pub".toList :=
    names_emptyStore (by decide) (by decide) (by decide) (by decide)
  have distinct : emptyStore.place? "server.key" ≠ emptyStore.place? "server.pub" := by
    rw [names.place?, names'.place?]
    decide
  have line : ∀ text, Text.Pads (text ++ "\n") text := fun text =>
    ⟨"", "\n", by simp [Text.Blank], by simp [Text.Blank, Text.isBlank], by simp⟩
  obtain ⟨-, -, -, files⟩ := texts_and_files .standard
  obtain ⟨saves, restores⟩ := files (.ofNatLE 7) emptyStore "server.key" "server.pub"
  obtain ⟨t, saved⟩ := saves.mpr ⟨by rw [names.place?]; rfl, by rw [names'.place?]; rfl⟩
  obtain ⟨restored, padded⟩ := restores t saved
  obtain ⟨u, v, written, written', again⟩ := padded distinct _ _ (line _) (line _)
  exact ⟨_, t, u, v, saved, restored.mpr (.inl distinct), written, written', again⟩

end SecureChannel.StaticKey
