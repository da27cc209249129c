import RtmpEndpoint.Proofs.Amf0.Shape

/-!
# Reading a written value

A reader that may go `levels` deep gives every value back that the format can hold and that is less
deep than that, with the bytes after it. Deeper values are written all the same and refused.
-/

namespace RtmpEndpoint.Amf0

variable {rest : Bytes}

/-! ## The pieces of a body -/

theorem readNat_ofNat {width n : Nat} (h : n < 1 <<< (8 * width)) :
    readNat width (Bytes.ofNat width n ++ rest) = .ok (n, rest) := by
  rw [readNat, Bytes.number?_ofNat h]

theorem readText_encode (text : String) :
    readText (Utf8.encode text).length (Utf8.encode text ++ rest) = .ok (text, rest) := by
  have hsplit : (Utf8.encode text ++ rest).split? (Utf8.encode text).length
      = some (Utf8.encode text, rest) := Bytes.split?_eq_some_iff.mpr ⟨rfl, rfl⟩
  simp only [readText, hsplit, Utf8.decode_encode]

/-- Only the empty text takes no bytes. -/
theorem encode_ne_nil {text : String} (h : text ≠ "") : Utf8.encode text ≠ [] := by
  intro hnil
  have hempty : Utf8.encode "" = [] := rfl
  have hread := Utf8.decode_encode text
  rw [hnil, ← hempty, Utf8.decode_encode] at hread
  exact h (Except.ok.inj hread).symm

/-- A name after all the others goes to the end. -/
theorem Properties.insert_last {name : String} {value : Value} {properties : Properties}
    (h : ∀ entry ∈ properties, entry.1 < name) :
    properties.insert name value = properties ++ [(name, value)] := by
  induction properties with
  | nil => rfl
  | cons entry rest ih =>
    obtain ⟨hfirst, hrest⟩ := List.forall_mem_cons.mp h
    rw [Properties.insert, if_neg (String.lt_asymm hfirst), if_neg (String.ne_of_lt hfirst).symm,
      ih hrest, List.cons_append]

namespace Value

/-! ## The written form -/

mutual

/-- What follows a value does not change how it is written. -/
theorem prepend_append : ∀ (value : Value) (rest more : Bytes),
    prepend value (rest ++ more) = prepend value rest ++ more
  | object properties, rest, more => by
    rw [prepend, prepend, prependProperties_append, List.cons_append]
  | array values, rest, more => by
    rw [prepend, prepend, prependAll_append, List.cons_append, List.append_assoc]
  | number _, _, _ | text _, _, _ => by simp [prepend]
  | boolean _, _, _ | null, _, _ | undefined, _, _ => rfl

theorem prependProperties_append : ∀ (properties : List (String × Value)) (rest more : Bytes),
    prependProperties properties (rest ++ more) = prependProperties properties rest ++ more
  | [], _, _ => rfl
  | (name, value) :: properties, rest, more => by
    rw [prependProperties, prependProperties, prependProperties_append, prepend_append,
      List.append_assoc]

theorem prependAll_append : ∀ (values : List Value) (rest more : Bytes),
    prependAll values (rest ++ more) = prependAll values rest ++ more
  | [], _, _ => rfl
  | value :: values, rest, more => by
    rw [prependAll, prependAll, prependAll_append, prepend_append]

end

/-- Every value starts with a marker. -/
theorem exists_marker (value : Value) (rest : Bytes) :
    ∃ marker body, prepend value rest = marker :: body := by
  cases value with
  | text x =>
    rw [prepend, encodeText]
    split <;> exact ⟨_, _, rfl⟩
  | number | boolean | object | array | null | undefined => exact ⟨_, _, rfl⟩

theorem length_lt_prepend (value : Value) (rest : Bytes) :
    rest.length < (prepend value rest).length := by
  obtain ⟨marker, body, h⟩ := exists_marker value []
  rw [← List.nil_append rest, prepend_append, h]
  simp only [List.nil_append, List.length_append, List.length_cons]
  omega

/-- Each value takes a byte, so the bytes at hand bound their number. -/
theorem length_le_prependAll (values : List Value) (rest : Bytes) :
    values.length ≤ (prependAll values rest).length := by
  induction values with
  | nil => exact Nat.zero_le _
  | cons value values ih =>
    have hmore := length_lt_prepend value (prependAll values rest)
    rw [prependAll, List.length_cons]
    omega

theorem length_le_prependProperties (properties : Properties) (rest : Bytes) :
    properties.length ≤ (prependProperties properties rest).length := by
  induction properties with
  | nil => exact Nat.zero_le _
  | cons entry properties ih =>
    have hmore := length_lt_prepend entry.2 (prependProperties properties rest)
    rw [prependProperties, List.length_cons, List.length_append]
    omega

/-- A marker and the body it announces. -/
def readNested (levels : Nat) (bytes : Bytes) : Except DecodeError (Value × Bytes) := do
  let (marker, bytes) ← readByte bytes
  readMarked levels marker bytes

/-! What follows a marker, one level down from the value it announces. -/

theorem readNested_number (levels : Nat) (body : Bytes) :
    readNested (levels + 1) (Marker.number :: body) =
      (readNat 8 body).map fun (bits, rest) => (number ⟨UInt64.ofNat bits⟩, rest) := rfl

theorem readNested_text (levels : Nat) (body : Bytes) :
    readNested (levels + 1) (Marker.text :: body) =
      (readNat 2 body).bind fun (length, bytes) =>
        (readText length bytes).map fun (value, rest) => (text value, rest) := rfl

theorem readNested_longText (levels : Nat) (body : Bytes) :
    readNested (levels + 1) (Marker.longText :: body) =
      (readNat 4 body).bind fun (length, bytes) =>
        (readText length bytes).map fun (value, rest) => (text value, rest) := rfl

theorem readNested_object (levels : Nat) (body : Bytes) :
    readNested (levels + 1) (Marker.object :: body) =
      (readProperties (readMarked levels) body [] body).map fun (properties, rest) =>
        (object properties, rest) := rfl

theorem readNested_strictArray (levels : Nat) (body : Bytes) :
    readNested (levels + 1) (Marker.strictArray :: body) =
      (readNat 4 body).bind fun (count, bytes) =>
        (readElements (readMarked levels) count [] bytes).map fun (values, rest) =>
          (array values, rest) := rfl

theorem readNested_leaf {levels : Nat} {value : Value}
    (hobject : ∀ properties, value ≠ object properties) (harray : ∀ values, value ≠ array values)
    (short : value.ShortText) :
    readNested (levels + 1) (prepend value rest) = .ok (value, rest) := by
  cases value with
  | number x =>
    have hbits : x.bits.toNat < 1 <<< (8 * 8) := x.bits.toNat_lt
    rw [prepend, readNested_number, Bytes.ofUInt64, readNat_ofNat hbits]
    simp [Except.map]
  | boolean x => cases x <;> rfl
  | text x =>
    have hshort : (Utf8.encode x).length ≤ 0xffffffff := short
    rw [prepend, encodeText]
    split
    · rw [List.cons_append, readNested_longText, List.append_assoc,
        readNat_ofNat (Nat.lt_succ_of_le hshort)]
      simp [Except.map, Except.bind, readText_encode]
    · next h =>
      have hlength : (Utf8.encode x).length < 1 <<< (8 * 2) :=
        Nat.lt_succ_of_le (Nat.not_lt.mp h)
      rw [List.cons_append, readNested_text, List.append_assoc, readNat_ofNat hlength]
      simp [Except.map, Except.bind, readText_encode]
  | object => exact absurd rfl (hobject _)
  | array => exact absurd rfl (harray _)
  | null => rfl
  | undefined => rfl

/-! ## The loops -/

theorem readElements_succ (levels count : Nat) (read : List Value) (bytes : Bytes) :
    readElements (readMarked levels) (count + 1) read bytes =
      (readNested levels bytes).bind fun (value, bytes) =>
        readElements (readMarked levels) count (value :: read) bytes := by
  cases bytes <;> rfl

theorem readProperties_end (nested : UInt8 → Bytes → Except DecodeError (Value × Bytes))
    (bound : Bytes) (read : Properties) (rest : Bytes) :
    readProperties nested bound read (propertiesEnd ++ rest) = .ok (read, rest) := by
  rw [readProperties]
  rfl

theorem readProperties_name {name : String} (named : name ≠ "")
    (hasRoom : (Utf8.encode name).length ≤ 65535) (levels : Nat) (b : UInt8) (bound : Bytes)
    (read : Properties) (bytes : Bytes) :
    readProperties (readMarked levels) (b :: bound) read (encodeName name ++ bytes) =
      (readNested levels bytes).bind fun (value, bytes) =>
        readProperties (readMarked levels) bound (read.insert name value) bytes := by
  have hlength : (Utf8.encode name).length < 1 <<< (8 * 2) := Nat.lt_succ_of_le hasRoom
  have hpos : (Utf8.encode name).length ≠ 0 :=
    fun h => encode_ne_nil named (List.length_eq_zero_iff.mp h)
  rw [readProperties, encodeName, List.append_assoc, readNat_ofNat hlength]
  simp only [bind, Except.bind, if_neg hpos, readText_encode]
  cases bytes <;> rfl

/-- What a reader makes of a written value when it may go `levels` deep. -/
def reading (levels : Nat) (value : Value) (rest : Bytes) : Except DecodeError (Value × Bytes) :=
  if value.depth < levels then .ok (value, rest) else .error (.nestingTooDeep maxNesting)

/-- The elements are read back unless one of them is too deep. -/
theorem readElements_prependAll {levels : Nat} {values : List Value}
    (h : ∀ value ∈ values, ∀ rest,
      readNested levels (prepend value rest) = reading levels value rest)
    (read : List Value) :
    readElements (readMarked levels) values.length read (prependAll values rest)
      = if ∀ value ∈ values, value.depth < levels then .ok (read.reverse ++ values, rest)
        else .error (.nestingTooDeep maxNesting) := by
  induction values generalizing read with
  | nil => simp [readElements, prependAll]
  | cons value values ih =>
    obtain ⟨hfirst, hrest⟩ := List.forall_mem_cons.mp h
    rw [List.length_cons, prependAll, readElements_succ, hfirst, reading]
    by_cases hdepth : value.depth < levels
    · simp [hdepth, Except.bind, ih hrest]
    · simp [hdepth, Except.bind]

/-- The properties are read back unless one of them is too deep. -/
theorem readProperties_prependProperties {levels : Nat} {properties : Properties} {bound : Bytes}
    (read : Properties)
    (h : ∀ entry ∈ properties, ∀ rest,
      readNested levels (prepend entry.2 rest) = reading levels entry.2 rest)
    (named : ∀ entry ∈ properties, entry.1 ≠ "")
    (hasRoom : ∀ entry ∈ properties, (Utf8.encode entry.1).length ≤ 65535)
    (ordered : Properties.Sorted (read ++ properties)) (hbound : properties.length ≤ bound.length) :
    readProperties (readMarked levels) bound read (prependProperties properties rest)
      = if ∀ entry ∈ properties, entry.2.depth < levels then .ok (read ++ properties, rest)
        else .error (.nestingTooDeep maxNesting) := by
  induction properties generalizing read bound with
  | nil => simp [prependProperties, readProperties_end]
  | cons entry properties ih =>
    obtain ⟨name, value⟩ := entry
    obtain ⟨hfirst, hrest⟩ := List.forall_mem_cons.mp h
    obtain ⟨hname, hnames⟩ := List.forall_mem_cons.mp named
    obtain ⟨hroom, hrooms⟩ := List.forall_mem_cons.mp hasRoom
    obtain ⟨b, bound, rfl⟩ :=
      List.exists_cons_of_length_pos (Nat.lt_of_lt_of_le (Nat.succ_pos _) hbound)
    have hlast : Properties.insert name value read = read ++ [(name, value)] :=
      Properties.insert_last fun entry member =>
        (List.pairwise_append.mp ordered).2.2 entry member _ (List.mem_cons_self ..)
    have hordered : Properties.Sorted (read ++ [(name, value)] ++ properties) := by
      rwa [List.append_assoc]
    rw [prependProperties, readProperties_name hname hroom, hfirst, reading]
    by_cases hdepth : value.depth < levels
    · simp only [hdepth, if_true, Except.bind, hlast, List.forall_mem_cons, true_and,
        ih _ hrest hnames hrooms hordered (Nat.le_of_succ_le_succ hbound), List.append_assoc,
        List.singleton_append]
    · simp only [hdepth, if_false, Except.bind, List.forall_mem_cons, false_and]

/-- Reading what was written gives the value and the bytes after it, unless it is too deep. -/
theorem readNested_prepend (levels : Nat) {value : Value} (h : value.Throughout Holdable)
    (rest : Bytes) : readNested levels (prepend value rest) = reading levels value rest := by
  induction levels generalizing value rest with
  | zero =>
    obtain ⟨marker, body, hwritten⟩ := exists_marker value rest
    rw [hwritten]
    rfl
  | succ levels ih =>
    cases value with
    | object properties =>
      obtain ⟨hself, hinside⟩ := throughout_object.mp h
      rw [prepend, readNested_object, readProperties_prependProperties []
        (fun entry member rest => ih (hinside entry member) rest) hself.named hself.hasRoom
        hself.ordered (length_le_prependProperties properties rest), reading]
      simp only [Nat.lt_succ_iff, depth_object_le_iff]
      split <;> rfl
    | array values =>
      obtain ⟨hself, hinside⟩ := throughout_array.mp h
      have hlength : values.length < 1 <<< (8 * 4) := Nat.lt_succ_of_le hself.hasRoom
      rw [prepend, readNested_strictArray, readNat_ofNat hlength]
      simp only [Except.bind]
      rw [readElements_prependAll fun value member rest => ih (hinside value member) rest, reading]
      simp only [Nat.lt_succ_iff, depth_array_le_iff]
      split <;> rfl
    | number | boolean | text | null | undefined =>
      rw [readNested_leaf (by simp) (by simp) h.self.shortText, reading, depth,
        if_pos (Nat.succ_pos _)]

end Value

end RtmpEndpoint.Amf0
