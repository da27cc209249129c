import Mathlib
import RtmpEndpoint.Proofs.Amf0.RoundTrip

/-!
# Writing again what was read

Whatever form the bytes had, the values read from them are values that the format can hold and that
are not too deep. So they can be written, and what is written reads as the same values.
-/

namespace RtmpEndpoint.Amf0

theorem readNat_lt {width n : Nat} {bytes rest : Bytes} (h : readNat width bytes = .ok (n, rest)) :
    n < 1 <<< (8 * width) := by
  unfold readNat Bytes.number? at h
  cases hsplit : bytes.split? width with
  | none => simp [hsplit] at h
  | some parts =>
    obtain ⟨-, hlength⟩ := Bytes.split?_eq_some_iff.mp hsplit
    simp only [hsplit, Option.map_some, Except.ok.injEq, Prod.mk.injEq] at h
    rw [← h.1, ← hlength]
    exact Bytes.toNat_lt _

theorem length_of_readText {length : Nat} {bytes rest : Bytes} {text : String}
    (h : readText length bytes = .ok (text, rest)) : (Utf8.encode text).length = length := by
  unfold readText at h
  split at h
  · cases h
  · next front tail hsplit =>
    obtain ⟨-, hlength⟩ := Bytes.split?_eq_some_iff.mp hsplit
    split at h
    · next value hdecode =>
      obtain ⟨rfl, -⟩ := Prod.mk.inj (Except.ok.inj h)
      rw [Utf8.encode_of_decode hdecode, hlength]
    · cases h

namespace Value

/-- What a reader that may go `levels` deep gives back. -/
structure Readable (levels : Nat) (value : Value) : Prop where
  depth_lt : value.depth < levels
  holdable : value.Throughout Holdable

theorem readable_leaf {levels : Nat} {value : Value}
    (hobject : ∀ properties, value ≠ object properties) (harray : ∀ values, value ≠ array values)
    (short : value.ShortText) : Readable (levels + 1) value := by
  constructor
  · cases value with
    | object => exact absurd rfl (hobject _)
    | array => exact absurd rfl (harray _)
    | number | boolean | text | null | undefined => exact Nat.succ_pos _
  · rw [throughout_leaf hobject harray]
    cases value with
    | object => exact absurd rfl (hobject _)
    | array => exact absurd rfl (harray _)
    | number | boolean | text | null | undefined => exact ⟨trivial, trivial, short, trivial⟩

theorem readable_array {levels : Nat} {values : List Value} (hasRoom : values.length ≤ 0xffffffff)
    (h : ∀ value ∈ values, Readable levels value) : Readable (levels + 1) (array values) where
  depth_lt := Nat.lt_succ_of_le
    (depth_array_le_iff.mpr fun value member => (h value member).depth_lt)
  holdable := throughout_array.mpr
    ⟨⟨trivial, trivial, trivial, hasRoom⟩, fun value member => (h value member).holdable⟩

/-- Properties that have been read so far. -/
structure Gathered (levels : Nat) (properties : Properties) : Prop where
  ordered : properties.Sorted
  named : ∀ entry ∈ properties, entry.1 ≠ ""
  hasRoom : ∀ entry ∈ properties, (Utf8.encode entry.1).length ≤ 65535
  readable : ∀ entry ∈ properties, Readable levels entry.2

theorem readable_object {levels : Nat} {properties : Properties} (h : Gathered levels properties) :
    Readable (levels + 1) (object properties) where
  depth_lt := Nat.lt_succ_of_le
    (depth_object_le_iff.mpr fun entry member => (h.readable entry member).depth_lt)
  holdable := throughout_object.mpr
    ⟨⟨h.ordered, h.named, trivial, h.hasRoom⟩,
      fun entry member => (h.readable entry member).holdable⟩

theorem gathered_nil (levels : Nat) : Gathered levels [] := by
  constructor <;> simp [Properties.Sorted]

theorem Gathered.insert {levels : Nat} {properties : Properties} {name : String} {value : Value}
    (h : Gathered levels properties) (named : name ≠ "")
    (hasRoom : (Utf8.encode name).length ≤ 65535) (readable : Readable levels value) :
    Gathered levels (properties.insert name value) where
  ordered := Properties.sorted_insert name value h.ordered
  named entry member := by
    rcases Properties.mem_insert member with rfl | member
    · exact named
    · exact h.named entry member
  hasRoom entry member := by
    rcases Properties.mem_insert member with rfl | member
    · exact hasRoom
    · exact h.hasRoom entry member
  readable entry member := by
    rcases Properties.mem_insert member with rfl | member
    · exact readable
    · exact h.readable entry member

/-! ## What the loops read -/

variable {levels : Nat}

theorem readElements_readable
    (ih : ∀ marker bytes value rest, readMarked levels marker bytes = .ok (value, rest) →
      Readable levels value) {count : Nat} {read values : List Value} {bytes rest : Bytes}
    (h : readElements (readMarked levels) count read bytes = .ok (values, rest))
    (hread : ∀ value ∈ read, Readable levels value) :
    values.length = count + read.length ∧ ∀ value ∈ values, Readable levels value := by
  induction count generalizing read bytes with
  | zero =>
    cases h
    simpa using hread
  | succ count loop =>
    rw [readElements] at h
    obtain ⟨⟨marker, body⟩, -, h⟩ := bind_eq_ok.mp h
    obtain ⟨⟨value, after⟩, hvalue, h⟩ := bind_eq_ok.mp h
    obtain ⟨hlength, hvalues⟩ := loop h
      (List.forall_mem_cons.mpr ⟨ih marker body value after hvalue, hread⟩)
    refine ⟨?_, hvalues⟩
    rw [hlength, List.length_cons]
    omega

/-- The properties end here, or there is one more of them in front of the others. -/
theorem readProperties_ok {nested : UInt8 → Bytes → Except DecodeError (Value × Bytes)}
    {bound bytes rest : Bytes} {read properties : Properties}
    (h : readProperties nested bound read bytes = .ok (properties, rest)) :
    properties = read ∨ ∃ name marker body value after b bound',
      name ≠ "" ∧ (Utf8.encode name).length ≤ 65535 ∧ nested marker body = .ok (value, after) ∧
        bound = b :: bound' ∧
        readProperties nested bound' (read.insert name value) after = .ok (properties, rest) := by
  rw [readProperties.eq_def] at h
  obtain ⟨⟨length, body⟩, hlength, h⟩ := bind_eq_ok.mp h
  simp only at h
  split at h
  · obtain ⟨⟨marker, body⟩, -, h⟩ := bind_eq_ok.mp h
    simp only at h
    split at h
    · cases h
      exact .inl rfl
    · cases h
  · next hpos =>
    obtain ⟨⟨name, body⟩, hname, h⟩ := bind_eq_ok.mp h
    obtain ⟨⟨marker, body⟩, -, h⟩ := bind_eq_ok.mp h
    obtain ⟨⟨value, after⟩, hvalue, h⟩ := bind_eq_ok.mp h
    have hbytes := length_of_readText hname
    have hnamed : name ≠ "" := by
      rintro rfl
      exact hpos hbytes.symm
    have hroom : (Utf8.encode name).length ≤ 65535 :=
      hbytes ▸ Nat.le_of_lt_succ (readNat_lt hlength)
    cases bound with
    | nil => cases h
    | cons b bound =>
      exact .inr ⟨name, marker, body, value, after, b, bound, hnamed, hroom, hvalue, rfl, h⟩

theorem readProperties_gathered
    (ih : ∀ marker bytes value rest, readMarked levels marker bytes = .ok (value, rest) →
      Readable levels value) {bound bytes rest : Bytes} {read properties : Properties}
    (h : readProperties (readMarked levels) bound read bytes = .ok (properties, rest))
    (hread : Gathered levels read) : Gathered levels properties := by
  induction bound generalizing read bytes with
  | nil =>
    rcases readProperties_ok h with rfl | ⟨_, _, _, _, _, _, _, _, _, _, hbound, _⟩
    · exact hread
    · cases hbound
  | cons b bound loop =>
    rcases readProperties_ok h with
      rfl | ⟨name, marker, body, value, after, _, _, hname, hroom, hvalue, hbound, hmore⟩
    · exact hread
    · cases hbound
      exact loop hmore (hread.insert hname hroom (ih marker body value after hvalue))

/-- Text with a length of at most four bytes can be held. -/
theorem readable_text {width length : Nat} {bytes body rest : Bytes} {value : String}
    (hwidth : width ≤ 4) (hlength : readNat width bytes = .ok (length, body))
    (htext : readText length body = .ok (value, rest)) : Readable (levels + 1) (text value) := by
  refine readable_leaf (by simp) (by simp) ?_
  have hlt := readNat_lt hlength
  have hle : 1 <<< (8 * width) ≤ 1 <<< (8 * 4) := by
    simp only [Nat.shiftLeft_eq, Nat.one_mul]
    exact Nat.pow_le_pow_right (by decide) (Nat.mul_le_mul_left 8 hwidth)
  rw [ShortText, length_of_readText htext]
  exact Nat.le_of_lt_succ (Nat.lt_of_lt_of_le hlt hle)

/-- Everything that is read can be held and is not too deep. -/
theorem readable_of_readMarked {levels : Nat} {marker : UInt8} {bytes rest : Bytes} {value : Value}
    (h : readMarked levels marker bytes = .ok (value, rest)) : Readable levels value := by
  induction levels generalizing marker bytes value rest with
  | zero => cases h
  | succ levels ih =>
    have hnested : ∀ marker bytes value rest, readMarked levels marker bytes = .ok (value, rest) →
        Readable levels value := fun marker bytes value rest => ih
    rw [readMarked] at h
    -- A number.
    split at h
    · obtain ⟨⟨bits, body⟩, -, h⟩ := bind_eq_ok.mp h
      cases h
      exact readable_leaf (by simp) (by simp) trivial
    -- A boolean.
    split at h
    · obtain ⟨⟨flag, body⟩, -, h⟩ := bind_eq_ok.mp h
      cases h
      exact readable_leaf (by simp) (by simp) trivial
    -- Text and long text.
    split at h
    · obtain ⟨⟨length, body⟩, hlength, h⟩ := bind_eq_ok.mp h
      obtain ⟨⟨text, body⟩, htext, h⟩ := bind_eq_ok.mp h
      cases h
      exact readable_text (by decide) hlength htext
    split at h
    · obtain ⟨⟨length, body⟩, hlength, h⟩ := bind_eq_ok.mp h
      obtain ⟨⟨text, body⟩, htext, h⟩ := bind_eq_ok.mp h
      cases h
      exact readable_text (by decide) hlength htext
    -- An object and an ECMA array.
    split at h
    · obtain ⟨⟨properties, body⟩, hproperties, h⟩ := bind_eq_ok.mp h
      cases h
      exact readable_object (readProperties_gathered hnested hproperties (gathered_nil levels))
    split at h
    · obtain ⟨⟨count, body⟩, -, h⟩ := bind_eq_ok.mp h
      obtain ⟨⟨properties, body⟩, hproperties, h⟩ := bind_eq_ok.mp h
      cases h
      exact readable_object (readProperties_gathered hnested hproperties (gathered_nil levels))
    -- A strict array.
    split at h
    · obtain ⟨⟨count, body⟩, hcount, h⟩ := bind_eq_ok.mp h
      obtain ⟨⟨values, body⟩, hvalues, h⟩ := bind_eq_ok.mp h
      cases h
      obtain ⟨hlength, hreadable⟩ := readElements_readable hnested hvalues (by simp)
      refine readable_array ?_ hreadable
      rw [hlength]
      exact Nat.le_of_lt_succ (readNat_lt hcount)
    -- A date, null, undefined and all other markers.
    split at h
    · obtain ⟨⟨bits, body⟩, -, h⟩ := bind_eq_ok.mp h
      obtain ⟨⟨zone, body⟩, -, h⟩ := bind_eq_ok.mp h
      cases h
      exact readable_leaf (by simp) (by simp) trivial
    split at h
    · cases h
      exact readable_leaf (by simp) (by simp) trivial
    split at h
    · cases h
      exact readable_leaf (by simp) (by simp) trivial
    · cases h

theorem readable_of_decode {bytes rest : Bytes} {value : Value}
    (h : decode bytes = .ok (some (value, rest))) : Readable (maxNesting + 1) value := by
  cases bytes with
  | nil => cases h
  | cons marker body =>
    obtain ⟨⟨answer, after⟩, hread, h⟩ := bind_eq_ok.mp h
    cases h
    exact readable_of_readMarked hread

theorem readable_of_decodeOnto {bound bytes : Bytes} {read values : List Value}
    (h : decodeOnto bound read bytes = .ok values)
    (hread : ∀ value ∈ read, Readable (maxNesting + 1) value) :
    ∀ value ∈ values, Readable (maxNesting + 1) value := by
  induction bound generalizing bytes read with
  | nil =>
    rw [decodeOnto] at h
    obtain ⟨answer, hanswer, h⟩ := bind_eq_ok.mp h
    cases answer with
    | none =>
      cases h
      simpa using hread
    | some answer => cases h
  | cons b bound loop =>
    rw [decodeOnto] at h
    obtain ⟨answer, hanswer, h⟩ := bind_eq_ok.mp h
    cases answer with
    | none =>
      cases h
      simpa using hread
    | some answer =>
      exact loop h (List.forall_mem_cons.mpr ⟨readable_of_decode hanswer, hread⟩)

theorem readable_of_decodeAll {bytes : Bytes} {values : List Value}
    (h : decodeAll bytes = .ok values) : ∀ value ∈ values, Readable (maxNesting + 1) value :=
  readable_of_decodeOnto h (by simp)

/-- What a reader can give back can be written, and is read. -/
theorem decodeAll_of_readable {values : List Value}
    (h : ∀ value ∈ values, Readable (maxNesting + 1) value) :
    ∃ written, encodeAll values = .ok written ∧ decodeAll written = .ok values := by
  refine ⟨prependAll values [], encodeAll_ok_iff.mpr ⟨?_, rfl⟩, ?_⟩
  · intro value member
    exact (h value member).holdable.mono fun part h => h.hasRoom
  · rw [decodeAll_prependAll fun value member => (h value member).holdable]
    exact if_pos fun value member => Nat.le_of_lt_succ (h value member).depth_lt

/-- What was read can be written, and reads as the same values again. -/
theorem decodeAll_reencoded {bytes : Bytes} {values : List Value}
    (h : decodeAll bytes = .ok values) :
    ∃ written, encodeAll values = .ok written ∧ decodeAll written = .ok values := by
  have hreadable : ∀ value ∈ values, Readable (maxNesting + 1) value := readable_of_decodeAll h
  exact decodeAll_of_readable hreadable

/-- An ECMA array with a wrong count, a date, a boolean of 2 and a name that comes twice, out of
order and with a long string. -/
theorem decodeAll_reencoded_ecmaArray :
    decodeAll [8, 0, 0, 0, 7, 0, 1, 98, 1, 2, 0, 1, 97, 11, 63, 240, 0, 0, 0, 0, 0, 0, 0, 60,
        0, 1, 98, 12, 0, 0, 0, 1, 120, 0, 0, 9]
        = .ok [object [("a", number ⟨0x3ff0000000000000⟩), ("b", text "x")]] ∧
      ∃ written,
        encodeAll [object [("a", number ⟨0x3ff0000000000000⟩), ("b", text "x")]] = .ok written ∧
        decodeAll written = .ok [object [("a", number ⟨0x3ff0000000000000⟩), ("b", text "x")]] := by
  have h : decodeAll [8, 0, 0, 0, 7, 0, 1, 98, 1, 2, 0, 1, 97, 11, 63, 240, 0, 0, 0, 0, 0, 0, 0, 60,
      0, 1, 98, 12, 0, 0, 0, 1, 120, 0, 0, 9]
      = .ok [object [("a", number ⟨0x3ff0000000000000⟩), ("b", text "x")]] := by cbv
  exact ⟨h, decodeAll_reencoded h⟩

end Value

end RtmpEndpoint.Amf0
