import RtmpEndpoint.Proofs.Amf0.Written

/-!
# Reading back what was written

Values are written back to back, and reading takes them off one by one. The writer does not look at
how deep they are nested; the reader stops at 64 levels.
-/

namespace RtmpEndpoint.Amf0.Value

/-! ## One value after the other -/

/-- Calling the reader again and again gives these values and leaves `rest`. -/
inductive Reads : (bytes : Bytes) → (values : List Value) → (rest : Bytes) → Prop where
  | nil (bytes : Bytes) : Reads bytes [] bytes
  | cons {bytes after rest : Bytes} {value : Value} {values : List Value}
      (first : decode bytes = .ok (some (value, after))) (more : Reads after values rest) :
      Reads bytes (value :: values) rest

theorem decode_prepend {value : Value} (h : value.Throughout Holdable) (rest : Bytes) :
    decode (prepend value rest) = (reading (maxNesting + 1) value rest).map some := by
  rw [← readNested_prepend _ h]
  obtain ⟨marker, body, hwritten⟩ := exists_marker value rest
  rw [hwritten]
  rfl

theorem reads_prependAll {values : List Value}
    (h : ∀ value ∈ values, value.Throughout Holdable ∧ value.depth ≤ maxNesting) (rest : Bytes) :
    Reads (prependAll values rest) values rest := by
  induction values with
  | nil => exact .nil rest
  | cons value values ih =>
    obtain ⟨⟨hfirst, hdepth⟩, hrest⟩ := List.forall_mem_cons.mp h
    have hread := decode_prepend hfirst (prependAll values rest)
    rw [reading, if_pos (Nat.lt_succ_of_le hdepth)] at hread
    exact .cons hread (ih hrest)

theorem decodeOnto_prependAll {values : List Value}
    (h : ∀ value ∈ values, value.Throughout Holdable) {bound : Bytes}
    (hbound : values.length ≤ bound.length) (read : List Value) :
    decodeOnto bound read (prependAll values [])
      = if ∀ value ∈ values, value.depth ≤ maxNesting then .ok (read.reverse ++ values)
        else .error (.nestingTooDeep maxNesting) := by
  induction values generalizing bound read with
  | nil =>
    rw [prependAll, decodeOnto]
    simp [decode, bind, Except.bind, pure, Except.pure]
  | cons value values ih =>
    obtain ⟨hfirst, hrest⟩ := List.forall_mem_cons.mp h
    obtain ⟨b, bound, rfl⟩ :=
      List.exists_cons_of_length_pos (Nat.lt_of_lt_of_le (Nat.succ_pos _) hbound)
    rw [prependAll, decodeOnto, decode_prepend hfirst, reading]
    by_cases hdepth : value.depth ≤ maxNesting
    · have hmore := ih hrest (Nat.le_of_succ_le_succ hbound) (value :: read)
      rw [if_pos (Nat.lt_succ_of_le hdepth)]
      simp [hdepth, bind, Except.bind, Except.map, hmore]
    · rw [if_neg (mt Nat.le_of_lt_succ hdepth)]
      simp [hdepth, bind, Except.bind, Except.map]

/-- All of what was written is read back, unless something in it is too deep. -/
theorem decodeAll_prependAll {values : List Value}
    (h : ∀ value ∈ values, value.Throughout Holdable) :
    decodeAll (prependAll values [])
      = if ∀ value ∈ values, value.depth ≤ maxNesting then .ok values
        else .error (.nestingTooDeep maxNesting) :=
  decodeOnto_prependAll h (length_le_prependAll values []) []

theorem encodeAll_ok_iff {values : List Value} {bytes : Bytes} : encodeAll values = .ok bytes ↔
    (∀ value ∈ values, value.Throughout HasRoom) ∧ bytes = prependAll values [] := by
  rw [← faultOfAll?_eq_none_iff, encodeAll]
  cases faultOfAll? values with
  | none => simp [eq_comm]
  | some error => simp

/-- What the writer accepts is read back value by value, whatever follows it, as long as no value is
too deep; otherwise the reader says so. -/
theorem reads_encodeAll {values : List Value} {bytes : Bytes}
    (written : encodeAll values = .ok bytes)
    (ordered : ∀ value ∈ values, value.Throughout Ordered)
    (named : ∀ value ∈ values, value.Throughout Named)
    (shortText : ∀ value ∈ values, value.Throughout ShortText) :
    (∀ rest, (∀ value ∈ values, value.depth ≤ maxNesting) → Reads (bytes ++ rest) values rest) ∧
      decodeAll bytes = if ∀ value ∈ values, value.depth ≤ maxNesting then .ok values
        else .error (.nestingTooDeep maxNesting) := by
  obtain ⟨hasRoom, rfl⟩ := encodeAll_ok_iff.mp written
  have holdable : ∀ value ∈ values, value.Throughout Holdable := fun value member part inside =>
    ⟨ordered value member part inside, named value member part inside,
      shortText value member part inside, hasRoom value member part inside⟩
  constructor
  · intro rest hdepth
    rw [← prependAll_append, List.nil_append]
    exact reads_prependAll (fun value member => ⟨holdable value member, hdepth value member⟩) rest
  · exact decodeAll_prependAll holdable

/-- An object with an array in it, and a number. -/
def objectAndNumber : List Value :=
  [object [("a", array [text "x", null])], number ⟨0x3ff0000000000000⟩]

theorem reads_encodeAll_objectAndNumber :
    encodeAll objectAndNumber = .ok [3, 0, 1, 97, 10, 0, 0, 0, 2, 2, 0, 1, 120, 5, 0, 0, 9,
        0, 63, 240, 0, 0, 0, 0, 0, 0] ∧
      Reads [3, 0, 1, 97, 10, 0, 0, 0, 2, 2, 0, 1, 120, 5, 0, 0, 9,
        0, 63, 240, 0, 0, 0, 0, 0, 0, 6] objectAndNumber [6] := by
  have written : encodeAll objectAndNumber = .ok [3, 0, 1, 97, 10, 0, 0, 0, 2, 2, 0, 1, 120, 5,
      0, 0, 9, 0, 63, 240, 0, 0, 0, 0, 0, 0] := rfl
  have shortText : (Utf8.encode "x").length ≤ 0xffffffff := by decide
  obtain ⟨hreads, -⟩ := reads_encodeAll written
    (by simp [objectAndNumber, throughout_array, throughout_object, throughout_leaf, Ordered,
      Properties.Sorted])
    (by simp [objectAndNumber, throughout_array, throughout_object, throughout_leaf, Named])
    (by simp [objectAndNumber, throughout_array, throughout_object, throughout_leaf, ShortText,
      shortText])
  exact ⟨written, hreads [6] (by decide)⟩

/-- Nothing, with `n` arrays around it. -/
def nested : Nat → Value
  | 0 => null
  | n + 1 => array [nested n]

theorem depth_nested (n : Nat) : (nested n).depth = n := by
  induction n with
  | zero => rfl
  | succ n ih => simp [nested, depth, depthOfAll, ih]

theorem throughout_nested (n : Nat) : (nested n).Throughout Holdable := by
  induction n with
  | zero =>
    rw [nested, throughout_leaf (by simp) (by simp)]
    exact ⟨trivial, trivial, trivial, trivial⟩
  | succ n ih =>
    refine throughout_array.mpr ⟨⟨trivial, trivial, trivial, Nat.le_of_ble_eq_true rfl⟩, ?_⟩
    intro value member
    rw [List.mem_singleton.mp member]
    exact ih

/-- The writer takes what its reader refuses: 65 arrays around a value, and an empty name. -/
theorem written_and_refused :
    (∃ bytes, encodeAll [nested 65] = .ok bytes ∧ decodeAll bytes = .error (.nestingTooDeep 64)) ∧
      encodeAll [object [("", null)]] = .ok [3, 0, 0, 5, 0, 0, 9] ∧
      decodeAll [3, 0, 0, 5, 0, 0, 9] = .error .unexpectedEmptyObjectPropertyName := by
  refine ⟨⟨prependAll [nested 65] [], ?_, ?_⟩, rfl, by cbv⟩
  · exact encodeAll_ok_iff.mpr
      ⟨by simpa using (throughout_nested 65).mono fun part h => h.hasRoom, rfl⟩
  · rw [decodeAll_prependAll (by simpa using throughout_nested 65)]
    simp [depth_nested, maxNesting]

end RtmpEndpoint.Amf0.Value
