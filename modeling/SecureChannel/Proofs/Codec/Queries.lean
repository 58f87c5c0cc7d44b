import SecureChannel.Proofs.Bytes.Canonical
import SecureChannel.Proofs.Codec.RoundTrip

/-!
# What a query carries

A query is written from a number of question marks and a list of parameters, and every query is
written so from exactly one list in which no parameter contains the separator and the first one does
not begin with a question mark. So the first parameter that begins with `c=` decides what is read,
whatever stands around it: with the text of octets as its value it gives these octets, with any
other value it is malformed, and where there is none the ciphertext is missing.
-/

namespace SecureChannel

namespace Query

/-- The query with so many question marks in front of the given parameters. -/
def join (marks : Nat) (parameters : List (List Char)) : String :=
  String.ofList (List.replicate marks '?' ++ ['&'].intercalate parameters)

def parameter (value : String) : List Char := 'c' :: '=' :: value.toList

/-- Parameters that can be told apart in a query. -/
structure Plain (parameters : List (List Char)) : Prop where
  undivided : ∀ p ∈ parameters, '&' ∉ p
  unmarked : ∀ p, parameters.head? = some p → ¬ ['?'] <+: p

/-- Parameters of which none carries a ciphertext. -/
structure Unrelated (parameters : List (List Char)) : Prop extends Plain parameters where
  unnamed : ∀ p ∈ parameters, ¬ ['c', '='] <+: p

variable {marks : Nat} {before after : List (List Char)} {value written : String}

/-! ### The list of parameters -/

/-- Parameters that can be told apart are the parameters of the query that is written from them. -/
theorem parameters_join {parameters : List (List Char)} (plain : Plain parameters)
    (nonempty : parameters ≠ []) :
    Query.parameters (join marks parameters).toList = parameters := by
  have stop : (['&'].intercalate parameters).dropWhile (· = '?') =
      ['&'].intercalate parameters := by
    match parameters with
    | [] => rfl
    | [] :: [] => rfl
    | [] :: next :: more => simp [List.intercalate_cons_cons]
    | (c :: p) :: more =>
      have other : c ≠ '?' := by
        rintro rfl
        exact plain.unmarked _ rfl ⟨p, rfl⟩
      cases more <;> simp [List.intercalate_cons_cons, other]
  rw [join, String.toList_ofList, Query.parameters, List.dropWhile_append_of_pos (by simp), stop]
  exact List.splitOn_intercalate '&' plain.undivided nonempty

theorem plain_parameters (characters : List Char) : Plain (Query.parameters characters) := by
  refine ⟨Bytes.not_mem_of_mem_splitOn, ?_⟩
  rintro p first ⟨rest, rfl⟩
  have whole : ['&'].intercalate (Query.parameters characters) = characters.dropWhile (· = '?') :=
    List.intercalate_splitOn '&'
  obtain ⟨more, shape⟩ := List.head?_eq_some_iff.mp first
  have marked : (characters.dropWhile (· = '?')).head? = some '?' := by
    rw [← whole, shape]
    cases more <;> rfl
  have unmarked := List.head?_dropWhile_not (fun c : Char => decide (c = '?')) characters
  rw [marked] at unmarked
  exact absurd unmarked (by decide)

theorem join_parameters (written : String) :
    ∃ marks, written = join marks (Query.parameters written.toList) := by
  have all : ∀ c ∈ written.toList.takeWhile (· = '?'), c = '?' := by
    intro c mem
    simpa using List.all_eq_true.mp List.all_takeWhile c mem
  refine ⟨(written.toList.takeWhile (· = '?')).length, ?_⟩
  rw [join, Query.parameters, List.intercalate_splitOn, ← List.eq_replicate_of_mem all,
    List.takeWhile_append_dropWhile, String.ofList_toList]

/-! ### The parameter with the ciphertext -/

theorem value?_eq_some_iff {p value : List Char} :
    value? p = some value ↔ p = 'c' :: '=' :: value := by
  constructor
  · intro found
    unfold value? at found
    split at found
    · cases found
      rfl
    · cases found
  · rintro rfl
    rfl

theorem value?_eq_none_iff {p : List Char} : value? p = none ↔ ¬ ['c', '='] <+: p := by
  rw [Option.eq_none_iff_forall_ne_some]
  constructor
  · rintro none ⟨value, rfl⟩
    exact none value rfl
  · rintro other value found
    rw [value?_eq_some_iff] at found
    exact other ⟨value, found.symm⟩

/-- The value that decides is that of a parameter with no such parameter in front. -/
theorem findSome?_eq_some_iff :
    (Query.parameters written.toList).findSome? value? = some value.toList ↔
      ∃ marks before after, Unrelated before ∧ '&' ∉ value.toList ∧ (∀ p ∈ after, '&' ∉ p) ∧
        written = join marks (before ++ parameter value :: after) := by
  constructor
  · intro found
    -- The list is cut at the parameter that was found; nothing in front of it has a value.
    obtain ⟨before, p, after, list, value, none⟩ := List.findSome?_eq_some_iff.mp found
    obtain rfl := value?_eq_some_iff.mp value
    obtain ⟨marks, whole⟩ := join_parameters written
    have plain := plain_parameters written.toList
    rw [list] at whole plain
    have divided : ∀ p ∈ before ++ parameter _ :: after, '&' ∉ p := plain.undivided
    simp only [List.mem_append, List.mem_cons] at divided
    refine ⟨marks, before, after, ⟨⟨fun p mem => divided p (.inl mem), ?_⟩, ?_⟩, ?_,
      fun p mem => divided p (.inr (.inr mem)), whole⟩
    · intro p first
      exact plain.unmarked p (by rw [List.head?_append, first]; rfl)
    · exact fun p mem => value?_eq_none_iff.mp (none p mem)
    · have own := divided _ (.inr (.inl rfl))
      simp only [parameter, List.mem_cons, not_or] at own
      exact own.2.2
  · rintro ⟨marks, before, after, unrelated, plainValue, plainAfter, rfl⟩
    have plain : Plain (before ++ parameter value :: after) := by
      constructor
      · simp only [List.forall_mem_append, List.forall_mem_cons]
        exact ⟨unrelated.undivided, by simp [parameter, plainValue], plainAfter⟩
      · intro p first
        cases before with
        | nil =>
          cases first
          simp [parameter]
        | cons head rest => exact unrelated.unmarked p first
    rw [parameters_join plain (by simp), List.findSome?_eq_some_iff]
    exact ⟨before, parameter value, after, rfl, rfl,
      fun p mem => value?_eq_none_iff.mpr (unrelated.unnamed p mem)⟩

theorem findSome?_eq_none_iff :
    (Query.parameters written.toList).findSome? value? = none ↔
      ∃ marks parameters, Unrelated parameters ∧ written = join marks parameters := by
  rw [List.findSome?_eq_none_iff]
  constructor
  · intro none
    obtain ⟨marks, whole⟩ := join_parameters written
    exact ⟨marks, _, ⟨plain_parameters _, fun p mem => value?_eq_none_iff.mp (none p mem)⟩, whole⟩
  · rintro ⟨marks, parameters, unrelated, rfl⟩ p mem
    by_cases empty : parameters = []
    · subst empty
      -- A query of question marks alone has one parameter, which is empty.
      have bare : Plain [[]] := ⟨by simp, by simp⟩
      have same : join marks [] = join marks [[]] := rfl
      rw [same, parameters_join bare (by simp)] at mem
      rw [List.mem_singleton.mp mem]
      rfl
    · rw [parameters_join unrelated.toPlain empty] at mem
      exact value?_eq_none_iff.mpr (unrelated.unnamed p mem)

/-! ### The ciphertext -/

theorem ciphertext_missing_iff :
    Query.ciphertext written = .error .missingQuery ↔
      (Query.parameters written.toList).findSome? value? = none := by
  rw [Query.ciphertext]
  split
  · next none => simp [none]
  · next value found =>
    rw [found]
    split <;> simp

theorem ciphertext_ok_iff {ciphertext : Bytes} :
    Query.ciphertext written = .ok ciphertext ↔ (Query.parameters written.toList).findSome? value? =
      some (Base64.encode .url ciphertext).toList := by
  rw [Query.ciphertext]
  split
  · next none => simp [none]
  · next value found =>
    have same : value = (Base64.encode .url ciphertext).toList ↔
        String.ofList value = Base64.encode .url ciphertext := by
      rw [← String.toList_inj, String.toList_ofList]
    rw [found, Option.some.injEq, same, ← Base64.decode_ok_iff]
    split
    · next octets read => simp [read]
    · next fault read => simp [read]

theorem ciphertext_malformed_iff :
    (∃ reason, Query.ciphertext written = .error (.malformed reason)) ↔
      ∃ value : String, (Query.parameters written.toList).findSome? value? = some value.toList ∧
        ∀ ciphertext, value ≠ Base64.encode .url ciphertext := by
  constructor
  · rintro ⟨reason, failed⟩
    cases found : (Query.parameters written.toList).findSome? value? with
    | none =>
      rw [ciphertext_missing_iff.mpr found] at failed
      cases failed
    | some value =>
      refine ⟨String.ofList value, by rw [String.toList_ofList], ?_⟩
      intro ciphertext canonical
      have read : Query.ciphertext written = .ok ciphertext := by
        rw [ciphertext_ok_iff, found, ← canonical, String.toList_ofList]
      rw [read] at failed
      cases failed
  · rintro ⟨value, found, foreign⟩
    rw [Query.ciphertext, found]
    cases read : Base64.decode .url value with
    | ok octets => exact absurd (Base64.decode_ok_iff.mp read) (foreign octets)
    | error fault =>
      simp only [String.ofList_toList, read]
      exact ⟨_, rfl⟩

end Query

namespace Codec

theorem decode_query_eq {scheme : IdScheme} {m : Message} {id : ChannelId} {written : String}
    (tagged : idOfTag scheme m = .ok id) (asked : m.query = some written) :
    query.decode scheme m = (Query.ciphertext written).map fun ciphertext => (id, ciphertext) := by
  simp only [decode, tagged, asked, bind, Except.bind, pure, Except.pure]
  cases Query.ciphertext written <;> rfl

/-- The grammar of queries. For a message whose tag names a channel, octets are read from its query
exactly where the first parameter that begins with `c=` has the text of these octets as its value.
The ciphertext is missing exactly where no parameter begins so, and malformed exactly where the
value of the first one that does is the text of no octets, whatever the others are. -/
theorem decode_query {scheme : IdScheme} {m : Message} {id : ChannelId} {written : String}
    (tagged : idOfTag scheme m = .ok id) (asked : m.query = some written) :
    (∀ ciphertext, query.decode scheme m = .ok (id, ciphertext) ↔
      ∃ marks before after, Query.Unrelated before ∧ (∀ p ∈ after, '&' ∉ p) ∧
        written = Query.join marks
          (before ++ Query.parameter (Base64.encode .url ciphertext) :: after)) ∧
    (query.decode scheme m = .error .missingQuery ↔
      ∃ marks parameters, Query.Unrelated parameters ∧ written = Query.join marks parameters) ∧
    ((∃ reason, query.decode scheme m = .error (.malformed reason)) ↔
      ∃ marks before value after, Query.Unrelated before ∧ '&' ∉ value.toList ∧
        (∀ p ∈ after, '&' ∉ p) ∧
        written = Query.join marks (before ++ Query.parameter value :: after) ∧
        ∀ ciphertext, value ≠ Base64.encode .url ciphertext) := by
  rw [decode_query_eq tagged asked]
  refine ⟨?_, ?_, ?_⟩
  · intro ciphertext
    rw [map_eq_ok_iff]
    simp only [Prod.mk.injEq, true_and, exists_eq_right]
    rw [Query.ciphertext_ok_iff, Query.findSome?_eq_some_iff]
    have plain : '&' ∉ (Base64.encode .url ciphertext).toList := by
      intro mem
      exact Query.ne_separator_of_mem_encode _ mem rfl
    simp only [plain, not_false_eq_true, true_and]
  · rw [map_eq_error_iff, Query.ciphertext_missing_iff, Query.findSome?_eq_none_iff]
  · simp only [map_eq_error_iff, Query.ciphertext_malformed_iff, Query.findSome?_eq_some_iff]
    constructor
    · rintro ⟨value, ⟨marks, before, after, unrelated, plain, others, whole⟩, foreign⟩
      exact ⟨marks, before, value, after, unrelated, plain, others, whole, foreign⟩
    · rintro ⟨marks, before, value, after, unrelated, plain, others, whole, foreign⟩
      exact ⟨value, ⟨marks, before, after, unrelated, plain, others, whole⟩, foreign⟩

/-- Names that only begin with a `c`, question marks inside and further parameters do not matter. -/
theorem decode_query_repeated :
    query.decode .transport ⟨some [1], some "??cx=1&&?&c=BQ&c=!", []⟩ =
      .ok (.transport [1], [5]) := by
  refine ((decode_query rfl rfl).1 [5]).mpr
    ⟨2, ["cx=1".toList, [], ['?']], ["c=!".toList], ⟨⟨?_, ?_⟩, ?_⟩, ?_, rfl⟩
  all_goals decide

end Codec

end SecureChannel
