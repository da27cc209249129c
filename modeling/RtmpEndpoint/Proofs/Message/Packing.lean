import RtmpEndpoint.Message.Aggregate

/-!
# What an aggregate is made of

An aggregate is a row of packed messages with a back pointer behind each of them, the last of which
may be cut short. If its bytes are such a row, unpacking gives the messages of it that have a place
of their own; if they are not, it names the place up to which they are.
-/

namespace RtmpEndpoint.Message

/-! ## Rows of messages -/

/-- A message inside an aggregate. -/
structure Packed where
  tag : Tag
  timestamp : Timestamp
  /-- Three bytes that say nothing. -/
  streamId : Bytes
  body : Bytes
  length_streamId : streamId.length = 3
  length_body : body.length < 0x1000000

namespace Packed

/-- Type, length, timestamp with its high byte last, and stream id. -/
def header (packed : Packed) : Bytes :=
  packed.tag.id :: (Bytes.ofNat 3 packed.body.length ++ Bytes.ofNat 3 packed.timestamp.ms.toNat
    ++ UInt8.ofNat (packed.timestamp.ms.toNat >>> 24) :: packed.streamId)

def bytes (packed : Packed) : Bytes := packed.header ++ packed.body

/-- The message that it is unpacked to, if its type has a name and is not that of an aggregate. The
first message of the aggregate gets the timestamp of the aggregate. -/
def payload? (outer : Payload) (first : Timestamp) (packed : Packed) : Option Payload :=
  if packed.tag ∈ Tag.named.map (·.1) ∧ packed.tag ≠ .aggregate then
    some
      { timestamp := outer.timestamp.advance (packed.timestamp.since first)
        tag := packed.tag
        streamId := outer.streamId
        data := packed.body }
  else none

end Packed

/-- The bytes are these messages, each with a whole back pointer behind it. -/
inductive Row : List Packed → Bytes → Prop where
  | nil : Row [] []
  | cons {row : List Packed} {rest : Bytes} (packed : Packed) {backPointer : Bytes}
      (whole : backPointer.length = 4) (more : Row row rest) :
      Row (packed :: row) (packed.bytes ++ backPointer ++ rest)

/-- The bytes are these messages, and the back pointer of the last one may be cut short. -/
inductive Packs : List Packed → Bytes → Prop where
  | nil : Packs [] []
  | last (packed : Packed) {backPointer : Bytes} (short : backPointer.length ≤ 4) :
      Packs [packed] (packed.bytes ++ backPointer)
  | cons {row : List Packed} {rest : Bytes} (packed : Packed) {backPointer : Bytes}
      (whole : backPointer.length = 4) (more : Packs row rest) (behind : row ≠ []) :
      Packs (packed :: row) (packed.bytes ++ backPointer ++ rest)

/-- Behind whole messages of this many bytes there is something that no message begins. -/
def BadAt (bytes : Bytes) (offset : Nat) : Prop :=
  ∃ row front rest, Row row front ∧ bytes = front ++ rest ∧ front.length = offset ∧ rest ≠ [] ∧
    ∀ packed : Packed, ¬ packed.bytes <+: rest

/-- What the messages are unpacked to. The first of them sets the time, whether it is kept or
not. -/
def unpacked (outer : Payload) (row : List Packed) : List Payload :=
  match row.head? with
  | none => []
  | some first => row.filterMap (Packed.payload? outer first.timestamp)

/-! ## One message -/

theorem length_header (packed : Packed) : packed.header.length = SubHeader.size := by
  simp [Packed.header, packed.length_streamId, SubHeader.size]

theorem length_bytes (packed : Packed) :
    packed.bytes.length = SubHeader.size + packed.body.length := by
  rw [Packed.bytes, List.length_append, length_header]

/-- The high byte of a number of 32 bits and the other three. -/
theorem high_byte_add (ms : UInt32) :
    (UInt8.ofNat (ms.toNat >>> 24)).toNat <<< 24 + ms.toNat % 0x1000000 = ms.toNat := by
  have hlt := ms.toNat_lt
  simp only [UInt8.toNat_ofNat', Nat.shiftRight_eq_div_pow, Nat.shiftLeft_eq]
  omega

/-- The header says what the message is. -/
theorem ofBytes_header (packed : Packed) :
    SubHeader.ofBytes packed.header = ⟨packed.tag, packed.body.length, packed.timestamp⟩ := by
  have hthree (n : Nat) : ∃ x y z, Bytes.ofNat 3 n = [x, y, z] := ⟨_, _, _, rfl⟩
  have hlength : Bytes.toNat (Bytes.ofNat 3 packed.body.length) = packed.body.length :=
    (Bytes.toNat_ofNat ..).trans (Nat.mod_eq_of_lt packed.length_body)
  have htime := Bytes.toNat_ofNat 3 packed.timestamp.ms.toNat
  obtain ⟨x, y, z, hsize⟩ := hthree packed.body.length
  obtain ⟨u, v, w, hlow⟩ := hthree packed.timestamp.ms.toNat
  rw [hsize] at hlength
  rw [hlow] at htime
  have hms :
      UInt32.ofNat (Bytes.toNat (UInt8.ofNat (packed.timestamp.ms.toNat >>> 24) :: [u, v, w]))
        = packed.timestamp.ms := by
    rw [Bytes.toNat_cons, htime]
    exact (congrArg UInt32.ofNat (high_byte_add _)).trans UInt32.ofNat_toNat
  simp only [SubHeader.ofBytes, Packed.header, hsize, hlow, List.cons_append, List.nil_append,
    List.headD_cons, List.drop_succ_cons, List.drop_zero, List.take_succ_cons, List.take_zero,
    hlength, hms]

/-- What the message is unpacked to goes by what its header says. -/
theorem payload?_ofBytes_header (packed : Packed) (outer : Payload) (first : Timestamp) :
    (SubHeader.ofBytes packed.header).payload? outer first packed.body
      = packed.payload? outer first := by
  rw [ofBytes_header]
  have hnamed : packed.tag.isNamed = true ↔ packed.tag ∈ Tag.named.map (·.1) := by
    simp only [Tag.isNamed, List.any_eq_true, beq_iff_eq, List.mem_map]
  simp only [SubHeader.payload?, Packed.payload?, Bool.and_eq_true, hnamed, bne_iff_ne]

/-- Any bytes long enough to be a header, and behind them as many as they ask for, are a message. -/
theorem exists_packed {header body : Bytes} (hheader : header.length = SubHeader.size)
    (hbody : body.length = (SubHeader.ofBytes header).length) :
    ∃ packed : Packed, packed.bytes = header ++ body := by
  match header, hheader with
  | [tag, l₀, l₁, l₂, t₀, t₁, t₂, t₃, s₀, s₁, s₂], _ =>
    have hlength : body.length = Bytes.toNat [l₀, l₁, l₂] := hbody
    have hlow := Bytes.toNat_lt [t₀, t₁, t₂]
    have hhigh := t₃.toNat_lt
    simp only [List.length_cons, List.length_nil, Nat.shiftLeft_eq] at hlow
    obtain ⟨ms, hms⟩ : ∃ ms : UInt32,
        ms.toNat = t₃.toNat <<< 24 + Bytes.toNat [t₀, t₁, t₂] :=
      ⟨UInt32.ofNat (t₃.toNat <<< 24 + Bytes.toNat [t₀, t₁, t₂]),
        UInt32.toNat_ofNat_of_lt' (by simp only [Nat.shiftLeft_eq, UInt32.size]; omega)⟩
    have hsize : Bytes.ofNat 3 body.length = [l₀, l₁, l₂] := by
      rw [hlength]
      exact Bytes.ofNat_toNat rfl
    have hthree : Bytes.ofNat 3 ms.toNat = [t₀, t₁, t₂] := by
      refine Bytes.eq_of_toNat_eq rfl ?_
      rw [Bytes.toNat_ofNat, hms]
      simp only [Nat.shiftLeft_eq]
      omega
    have hfourth : UInt8.ofNat (ms.toNat >>> 24) = t₃ := by
      apply UInt8.toNat_inj.mp
      simp only [UInt8.toNat_ofNat', hms, Nat.shiftRight_eq_div_pow, Nat.shiftLeft_eq]
      omega
    refine ⟨⟨⟨tag⟩, ⟨ms⟩, [s₀, s₁, s₂], body, rfl, hlength ▸ Bytes.toNat_lt [l₀, l₁, l₂]⟩, ?_⟩
    simp only [Packed.bytes, Packed.header, hsize, hthree, hfourth, List.cons_append,
      List.nil_append]

/-! ## One turn of the loop -/

variable {outer : Payload} {first : Option Timestamp} {base : Timestamp} {offset : Nat}
  {read : List Payload} {row : List Packed} {bytes front rest : Bytes}

/-- A message at the front is taken, with what there is of its back pointer. The first one of all
sets the time for the others. -/
theorem unpackOnto_packed (packed : Packed) :
    unpackOnto outer first offset read (packed.bytes ++ rest)
      = unpackOnto outer (some (first.getD packed.timestamp))
          (offset + packed.bytes.length + backPointerSize)
          ((packed.payload? outer (first.getD packed.timestamp)).toList ++ read)
          (rest.drop backPointerSize) := by
  have hheader : Bytes.split? SubHeader.size (packed.bytes ++ rest)
      = some (packed.header, packed.body ++ rest) :=
    Bytes.split?_eq_some_iff.mpr ⟨List.append_assoc .., length_header packed⟩
  have hlength : (SubHeader.ofBytes packed.header).length = packed.body.length := by
    rw [ofBytes_header]
  have hbody : Bytes.split? (SubHeader.ofBytes packed.header).length (packed.body ++ rest)
      = some (packed.body, rest) :=
    Bytes.split?_eq_some_iff.mpr ⟨rfl, hlength.symm⟩
  have hne : (packed.bytes ++ rest).isEmpty = false := by
    rw [Packed.bytes, Packed.header]
    rfl
  rw [unpackOnto, hne]
  simp only [Bool.false_eq_true, if_false]
  split
  · next hnone => simp [hheader] at hnone
  next hsome =>
  obtain ⟨rfl, rfl⟩ := Prod.mk.inj (Option.some.inj (hheader.symm.trans hsome))
  split
  · next hnone => simp [hbody] at hnone
  next hsome' =>
  obtain ⟨rfl, rfl⟩ := Prod.mk.inj (Option.some.inj (hbody.symm.trans hsome'))
  rw [payload?_ofBytes_header, ofBytes_header, length_bytes, ← Nat.add_assoc]

/-- Where no message begins, unpacking stops with the place. -/
theorem unpackOnto_bad (hrest : rest ≠ []) (hbad : ∀ packed : Packed, ¬ packed.bytes <+: rest) :
    unpackOnto outer first offset read rest = .error (.truncatedAggregate offset) := by
  rw [unpackOnto]
  simp only [List.isEmpty_iff, hrest, if_false]
  split
  · rfl
  next header behind hheader =>
  obtain ⟨rfl, hlength⟩ := Bytes.split?_eq_some_iff.mp hheader
  split
  · rfl
  next body behind' hbody =>
  obtain ⟨rfl, hlength'⟩ := Bytes.split?_eq_some_iff.mp hbody
  obtain ⟨packed, hpacked⟩ := exists_packed hlength hlength'
  exact absurd ⟨behind', by rw [hpacked, List.append_assoc]⟩ (hbad packed)

/-! ## Rows -/

theorem drop_backPointer {backPointer : Bytes} (whole : backPointer.length = 4) :
    (backPointer ++ rest).drop backPointerSize = rest :=
  List.drop_left' whole

/-- One more message, whether it is kept or not, in the order in which the loop collects. -/
theorem reverse_filterMap_cons (keep : Packed → Option Payload) (packed : Packed) :
    (row.filterMap keep).reverse ++ ((keep packed).toList ++ read)
      = ((packed :: row).filterMap keep).reverse ++ read := by
  cases hkeep : keep packed <;> simp [hkeep]

/-- The whole messages in front are taken one by one. -/
theorem unpackOnto_row (h : Row row front) :
    unpackOnto outer (some base) offset read (front ++ rest)
      = unpackOnto outer (some base) (offset + front.length)
          ((row.filterMap (Packed.payload? outer base)).reverse ++ read) rest := by
  induction h generalizing offset read with
  | nil => rfl
  | @cons row behind packed backPointer whole more ih =>
    have hoffset : offset + packed.bytes.length + backPointerSize + behind.length
        = offset + (packed.bytes ++ backPointer ++ behind).length := by
      simp only [List.length_append, whole, backPointerSize]
      omega
    rw [List.append_assoc, List.append_assoc, unpackOnto_packed, drop_backPointer whole,
      Option.getD_some, ih, hoffset, reverse_filterMap_cons]

/-- Unpacking comes to the end of a row whose last back pointer may be cut short. -/
theorem unpackOnto_packs (h : Packs row bytes) :
    unpackOnto outer (some base) offset read bytes
      = .ok (read.reverse ++ row.filterMap (Packed.payload? outer base)) := by
  induction h generalizing offset read with
  | nil => simp [unpackOnto]
  | last packed short =>
    rw [unpackOnto_packed, List.drop_of_length_le (by exact short), unpackOnto]
    cases hkept : packed.payload? outer base <;> simp [hkept]
  | @cons row behind packed backPointer whole more _ ih =>
    rw [List.append_assoc, unpackOnto_packed, drop_backPointer whole, Option.getD_some, ih]
    cases hkept : packed.payload? outer base <;> simp [hkept]

/-- It is the first message that sets the time. -/
theorem unpackOnto_none (packed : Packed) :
    unpackOnto outer none offset read (packed.bytes ++ rest)
      = unpackOnto outer (some packed.timestamp) offset read (packed.bytes ++ rest) := by
  rw [unpackOnto_packed, unpackOnto_packed, Option.getD_none, Option.getD_some]

theorem Packs.eq_nil (h : Packs [] bytes) : bytes = [] := by
  cases h
  rfl

/-- A row of messages begins with the first of them. -/
theorem Packs.begins {packed : Packed} (h : Packs (packed :: row) bytes) :
    ∃ rest, bytes = packed.bytes ++ rest := by
  cases h with
  | last _ _ => exact ⟨_, rfl⟩
  | cons _ _ _ _ => exact ⟨_, List.append_assoc ..⟩

theorem Row.begins {packed : Packed} (h : Row (packed :: row) bytes) :
    ∃ rest, bytes = packed.bytes ++ rest := by
  cases h with
  | cons _ _ _ => exact ⟨_, List.append_assoc ..⟩

/-- What is unpacked is what the row says. -/
theorem unpack_of_packs {aggregate : Payload} (h : Packs row aggregate.data) :
    unpack aggregate = .ok (unpacked aggregate row) := by
  rw [unpack]
  cases row with
  | nil =>
    rw [h.eq_nil, unpackOnto]
    rfl
  | cons first row =>
    obtain ⟨rest, hrest⟩ := h.begins
    rw [hrest, unpackOnto_none, ← hrest, unpackOnto_packs h]
    rfl

/-- Unpacking stops at the place where there is something that no message begins. -/
theorem unpack_of_badAt {aggregate : Payload} (h : BadAt aggregate.data offset) :
    unpack aggregate = .error (.truncatedAggregate offset) := by
  obtain ⟨row, front, rest, hrow, hdata, rfl, hrest, hbad⟩ := h
  rw [unpack, hdata]
  cases row with
  | nil =>
    cases hrow
    exact unpackOnto_bad hrest hbad
  | cons first row =>
    obtain ⟨behind, rfl⟩ := hrow.begins
    rw [List.append_assoc, unpackOnto_none, ← List.append_assoc, unpackOnto_row hrow,
      unpackOnto_bad hrest hbad, Nat.zero_add]

/-- All bytes are a row, or there is a place behind whole messages where no message begins. -/
theorem packs_or_badAt (bytes : Bytes) :
    (∃ row, Packs row bytes) ∨ ∃ offset, BadAt bytes offset := by
  induction hlength : bytes.length using Nat.strongRecOn generalizing bytes with
  | ind length ih =>
    subst hlength
    by_cases hempty : bytes = []
    · exact .inl ⟨[], hempty ▸ .nil⟩
    by_cases hbegins : ∃ packed : Packed, packed.bytes <+: bytes
    · obtain ⟨packed, behind, rfl⟩ := hbegins
      by_cases hshort : behind.length ≤ 4
      · exact .inl ⟨[packed], .last packed hshort⟩
      -- a whole back pointer, and at least one byte behind it
      have hwhole : (behind.take 4).length = 4 := by simp only [List.length_take]; omega
      have hsplit : packed.bytes ++ behind = packed.bytes ++ behind.take 4 ++ behind.drop 4 := by
        rw [List.append_assoc, List.take_append_drop]
      have hless : (behind.drop 4).length < (packed.bytes ++ behind).length := by
        simp only [List.length_drop, List.length_append]
        omega
      obtain ⟨row, hrow⟩ | ⟨offset, row, front, rest, hrow, hdrop, -, hrest, hbad⟩ :=
        ih _ hless _ rfl
      · refine .inl ⟨packed :: row, hsplit ▸ .cons packed hwhole hrow ?_⟩
        rintro rfl
        exact hshort (List.drop_eq_nil_iff.mp hrow.eq_nil)
      · refine .inr ⟨_, packed :: row, _, rest, .cons packed hwhole hrow, ?_, rfl, hrest, hbad⟩
        rw [hsplit, hdrop, List.append_assoc _ front]
    · exact .inr ⟨0, [], [], bytes, .nil, rfl, rfl, hempty, not_exists.mp hbegins⟩

/-- Unpacking succeeds exactly on a row of messages, with the messages of the row that are kept, and
fails otherwise, with the place behind whole messages where no message begins. -/
theorem unpack_packs_or_badAt (aggregate : Payload) :
    (∀ messages, unpack aggregate = .ok messages ↔
      ∃ row, Packs row aggregate.data ∧ messages = unpacked aggregate row) ∧
    ∀ error, unpack aggregate = .error error ↔
      ∃ offset, BadAt aggregate.data offset ∧ error = .truncatedAggregate offset := by
  refine ⟨fun messages => ⟨fun h => ?_, ?_⟩, fun error => ⟨fun h => ?_, ?_⟩⟩
  · obtain ⟨row, hrow⟩ | ⟨offset, hbad⟩ := packs_or_badAt aggregate.data
    · exact ⟨row, hrow, Except.ok.inj (h.symm.trans (unpack_of_packs hrow))⟩
    · cases h.symm.trans (unpack_of_badAt hbad)
  · rintro ⟨row, hrow, rfl⟩
    exact unpack_of_packs hrow
  · obtain ⟨row, hrow⟩ | ⟨offset, hbad⟩ := packs_or_badAt aggregate.data
    · cases h.symm.trans (unpack_of_packs hrow)
    · exact ⟨offset, hbad, Except.error.inj (h.symm.trans (unpack_of_badAt hbad))⟩
  · rintro ⟨offset, hbad, rfl⟩
    exact unpack_of_badAt hbad

/-- A nested aggregate is left out and sets the time all the same; of the last back pointer there
is only one byte. -/
example :
    unpack ⟨⟨1000⟩, .aggregate, 5, [22, 0, 0, 0, 0, 0, 10, 0, 0, 0, 0, 0, 0, 0, 11,
        8, 0, 0, 1, 0, 0, 30, 0, 0, 0, 0, 7, 0]⟩
      = .ok [⟨⟨1020⟩, .audio, 5, [7]⟩] := by
  cbv

end RtmpEndpoint.Message
