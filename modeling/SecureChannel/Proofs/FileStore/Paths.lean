import SecureChannel.Path
import SecureChannel.Proofs.Bytes.Text

/-!
# Names with another extension

The file's own name is put together from its stem and its extension, so another extension leaves it
as it is only if it is the extension that the name has already. Everything in front of the file's
own name stays, and so does where the name starts.
-/

namespace SecureChannel.Path

variable {path : String} {before : List (List Char)} {name extension : List Char}

/-! ### Extensions -/

/-- Characters in front of a dot. -/
theorem takeWhile_append {undotted : List Char} (plain : '.' ∉ undotted) (rest : List Char) :
    (undotted ++ rest).takeWhile (· ≠ '.') = undotted ++ rest.takeWhile (· ≠ '.') := by
  apply List.takeWhile_append_of_pos
  intro c mem
  rw [decide_eq_true_iff]
  rintro rfl
  exact plain mem

/-- A name has no extension and is its own stem, or it is put together from both. -/
theorem divide_spec (name : List Char) :
    divide name = (name, none) ∨
      ∃ stem extension, divide name = (stem, some extension) ∧ name = stem ++ '.' :: extension := by
  by_cases dotted : '.' ∈ name.reverse
  · obtain ⟨back, front, parts, undotted⟩ := List.eq_append_cons_of_mem dotted
    have whole : name = front.reverse ++ '.' :: back.reverse := by
      have reversed := congrArg List.reverse parts
      simpa using reversed
    have tail : name.reverse.takeWhile (· ≠ '.') = back := by
      rw [parts, takeWhile_append undotted]
      simp
    have stem : name.take (name.length - back.length - 1) = front.reverse := by
      have shorter : name.length - back.length - 1 = front.reverse.length := by
        rw [whole]
        simp only [List.length_append, List.length_cons, List.length_reverse]
        omega
      rw [shorter, whole, List.take_left]
    rw [divide, tail, stem]
    split
    · exact .inl rfl
    · exact .inr ⟨_, _, rfl, whole⟩
  · left
    have tail : name.reverse.takeWhile (· ≠ '.') = name.reverse := by
      simpa using takeWhile_append dotted []
    rw [divide, tail]
    simp

/-- An extension changes a name unless it is the one that the name has. -/
theorem renamed_eq_iff :
    (divide name).1 ++ '.' :: extension = name ↔ (divide name).2 = some extension := by
  rcases divide_spec name with alone | ⟨stem, own, divided, whole⟩
  · rw [alone]
    have longer : name ++ '.' :: extension ≠ name := by
      intro same
      have := congrArg List.length same
      simp at this
    simp [longer]
  · rw [divided, whole]
    simp [eq_comm]

theorem divide_subset : ∀ c ∈ (divide name).1, c ∈ name := by
  rcases divide_spec name with alone | ⟨stem, own, divided, whole⟩
  · simp [alone]
  · intro c mem
    rw [divided] at mem
    rw [whole]
    exact List.mem_append_left _ mem

/-! ### The file's own name -/

theorem toFileName_of_components (written : components path = before ++ [name])
    (proper : isSame name = false) : toFileName path = name :: before.reverse := by
  rw [toFileName, written, List.reverse_append]
  exact List.dropWhile_cons_of_neg (by simp [proper])

/-- A name that is put together from its stem and an extension has that extension. -/
theorem extension?_eq_some_iff {extension : String} (written : components path = before ++ [name])
    (proper : isSame name = false) (below : name ≠ above) :
    extension? path = some extension ↔ (divide name).1 ++ '.' :: extension.toList = name := by
  rw [renamed_eq_iff, extension?, fileName?, toFileName_of_components written proper]
  simp only [if_neg below]
  cases (divide name).2 with
  | none => simp
  | some own => simp [← String.toList_inj]

theorem components_ofList {parts : List (List Char)} (undivided : ∀ p ∈ parts, '/' ∉ p)
    (nonempty : parts ≠ []) : components (String.ofList (['/'].intercalate parts)) = parts := by
  rw [components, String.toList_ofList]
  exact List.splitOn_intercalate '/' undivided nonempty

/-- A name starts at the root if its first component is empty and others follow. -/
theorem startsWith_iff :
    path.startsWith "/" = true ↔ ∃ rest, rest ≠ [] ∧ components path = [] :: rest := by
  have root : path.startsWith "/" = true ↔ ['/'] <+: path.toList := by simp
  rw [root, components]
  cases path.toList with
  | nil => simp
  | cons c rest =>
    rw [List.splitOn_cons_eq_if_modifyHead, List.cons_prefix_cons]
    by_cases slash : c = '/'
    · simp [slash, List.splitOn_ne_nil]
    · obtain ⟨part, parts, shape⟩ := List.exists_cons_of_ne_nil (List.splitOn_ne_nil '/' rest)
      simp [slash, Ne.symm slash, shape]

theorem startsWith_congr {other : String} {name' : List Char}
    (written : components path = before ++ [name])
    (written' : components other = before ++ [name']) :
    path.startsWith "/" = other.startsWith "/" := by
  rw [Bool.eq_iff_iff, startsWith_iff, startsWith_iff, written, written']
  cases before <;> simp

/-- With another extension only the file's own name changes. -/
theorem components_withExtension {extension : String}
    (written : components path = before ++ [name])
    (proper : isSame name = false) (below : name ≠ above) (undivided : '/' ∉ extension.toList) :
    components (withExtension path extension) =
      before ++ [(divide name).1 ++ '.' :: extension.toList] := by
  have plain : ∀ p ∈ before ++ [name], '/' ∉ p := by
    rw [← written]
    exact Bytes.not_mem_of_mem_splitOn
  simp only [List.forall_mem_append, List.forall_mem_cons] at plain
  obtain ⟨plainBefore, plainName, -⟩ := plain
  have stem : '/' ∉ (divide name).1 := fun mem => plainName (divide_subset _ mem)
  rw [withExtension, toFileName_of_components written proper]
  simp only [if_neg below, List.reverse_cons, List.reverse_reverse]
  apply components_ofList _ (by simp)
  simp only [List.forall_mem_append, List.forall_mem_cons]
  exact ⟨plainBefore, by simp [stem, undivided], by simp⟩

end SecureChannel.Path
