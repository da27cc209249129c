import RtmpEndpoint.Proofs.Chunk.Reception

/-!
# Reading a chunk head back

The head of a chunk is everything in front of its share of the body. A reader whose last header on
the chunk stream is the one that the writer compressed against arrives at the header that was meant,
with the input at the body.
-/

namespace RtmpEndpoint.Chunk

/-- The chunk stream ids that a basic header can hold. -/
structure InRange (csid : UInt32) : Prop where
  min_le : 2 ≤ csid.toNat
  le_max : csid.toNat ≤ 65599

theorem inRange_iff {csid : UInt32} :
    InRange csid ↔ ¬(csid < minStreamId ∨ maxStreamId < csid) := by
  have hmin : minStreamId.toNat = 2 := rfl
  have hmax : maxStreamId.toNat = 65599 := rfl
  constructor
  · rintro ⟨h₁, h₂⟩ (h | h)
    · have := UInt32.lt_iff_toNat_lt.mp h
      omega
    · have := UInt32.lt_iff_toNat_lt.mp h
      omega
  · intro h
    rw [not_or, UInt32.lt_iff_toNat_lt, UInt32.lt_iff_toNat_lt] at h
    exact ⟨by omega, by omega⟩

/-! ## The basic header -/

theorem Format.ofByte_ofNat (format : Format) (n : Nat) (h : n < 64) :
    Format.ofByte (UInt8.ofNat (64 * format.code + n)) = format := by
  have hb : (UInt8.ofNat (64 * format.code + n)).toNat / 64 = format.code := by
    cases format <;> simp [Format.code] <;> omega
  rw [Format.ofByte, hb]
  cases format <;> rfl

theorem Format.toNat_ofNat_mod (format : Format) (n : Nat) (h : n < 64) :
    (UInt8.ofNat (64 * format.code + n)).toNat % 64 = n := by
  cases format <;> simp [Format.code] <;> omega

/-- Each of the three forms reads back as itself. -/
theorem readBasicHeader?_basicHeader (format : Format) {csid : UInt32} (h : InRange csid)
    (rest : Bytes) :
    readBasicHeader? (basicHeader format csid ++ rest)
      = some (format, csid, (basicHeader format csid).length) := by
  obtain ⟨hmin, hmax⟩ := h
  have hid : UInt32.ofNat csid.toNat = csid := by simp
  have hbyte (n : Nat) (hn : n < 256) : (UInt8.ofNat n).toNat = n := by simp; omega
  by_cases h₁ : csid.toNat < 64
  · have hlow := format.toNat_ofNat_mod csid.toNat h₁
    have hformat := format.ofByte_ofNat csid.toNat h₁
    simp only [basicHeader, h₁, if_true, List.cons_append, List.nil_append, readBasicHeader?, hlow]
    split <;> simp_all
  · by_cases h₂ : csid.toNat < 320
    · have hlow := format.toNat_ofNat_mod 0 (by omega)
      have hformat := format.ofByte_ofNat 0 (by omega)
      have hb := hbyte (csid.toNat - 64) (by omega)
      have hn : csid.toNat - 64 + 64 = csid.toNat := by omega
      simp only [Nat.add_zero] at hlow hformat
      simp only [basicHeader, h₁, h₂, if_true, if_false, Format.bits, List.cons_append,
        List.nil_append, readBasicHeader?, hlow, hformat, hb, hn, hid, List.length_cons,
        List.length_nil]
    · have hlow := format.toNat_ofNat_mod 1 (by omega)
      have hformat := format.ofByte_ofNat 1 (by omega)
      have hb := hbyte ((csid.toNat - 64) % 256) (by omega)
      have hc := hbyte ((csid.toNat - 64) / 256) (by omega)
      have hn : (csid.toNat - 64) / 256 * 256 + (csid.toNat - 64) % 256 + 64 = csid.toNat := by
        omega
      simp only [basicHeader, h₁, h₂, if_false, List.cons_append, List.nil_append,
        readBasicHeader?, hlow, hformat, hb, hc, hn, hid, List.length_cons, List.length_nil]

/-! ## The message header -/

/-- What a chunk of this format leaves the reader to start from. -/
def Format.start (format : Format) (previous : Option Header) : Header :=
  match format with
  | .type0 => .blank
  | _ => previous.getD .blank

/-- `header` is what a chunk of this format says after `previous`. -/
def Format.Resolves (format : Format) (previous : Option Header) (header : Header) : Prop :=
  match format with
  | .type0 => header.timestamp = ⟨header.timestampField⟩
  | .type1 => ∃ before, previous = some before ∧ before.streamId = header.streamId ∧
      before.timestamp.advance header.timestampField = header.timestamp
  | .type2 => ∃ before, previous = some before ∧ before.streamId = header.streamId ∧
      before.length = header.length ∧ before.tag = header.tag ∧
      before.timestamp.advance header.timestampField = header.timestamp
  | .type3 => previous = some header

/-- The part of a chunk in front of the body. -/
def head (format : Format) (csid : UInt32) (header : Header) : Bytes :=
  basicHeader format csid ++ header.fields format ++ header.extension

variable {format : Format} {csid : UInt32} {previous : Option Header} {header : Header}

theorem length_fields (format : Format) (header : Header) :
    (header.fields format).length = format.headerSize := by
  cases format <;> simp [Header.fields, Format.headerSize, Bytes.ofUInt32Reversed, Bytes.ofUInt32]

theorem isExtended_iff (header : Header) :
    header.isExtended = true ↔ 0xffffff ≤ header.timestampField.toNat := by
  simp [Header.isExtended, extendedMarker, UInt32.le_iff_toNat_le]

theorem min_timestampField (header : Header) :
    min header.timestampField extendedMarker
      = if header.isExtended then extendedMarker else header.timestampField := by
  have hm : extendedMarker.toNat = 0xffffff := rfl
  have hx := isExtended_iff header
  change (if header.timestampField ≤ extendedMarker then _ else _) = _
  cases he : header.isExtended with
  | true =>
    have hge := hx.mp he
    split
    · next h =>
      rw [UInt32.le_iff_toNat_le] at h
      rw [if_pos rfl]
      exact UInt32.toNat_inj.mp (by omega)
    · rfl
  | false =>
    have hlt : ¬ 0xffffff ≤ header.timestampField.toNat := by simp [← hx, he]
    rw [if_pos (UInt32.le_iff_toNat_le.mpr (by omega))]
    rfl

/-- The three byte timestamp field, which is all ones when it is too small. -/
theorem timestamp_fields (h : format ≠ .type3) :
    UInt32.ofNat (Bytes.toNat ((header.fields format).take 3))
      = if header.isExtended then extendedMarker else header.timestampField := by
  have htime : (header.fields format).take 3
      = Bytes.ofNat 3 (min header.timestampField extendedMarker).toNat := by
    cases format with
    | type0 | type1 => simp [Header.fields]
    | type2 => exact List.take_of_length_le (Nat.le_of_eq (Bytes.length_ofNat 3 _))
    | type3 => exact absurd rfl h
  have hlt : (if header.isExtended then extendedMarker else header.timestampField).toNat
      < 1 <<< 24 := by
    split
    · decide
    · next hx =>
      rw [isExtended_iff] at hx
      omega
  rw [htime, Bytes.toNat_ofNat, min_timestampField, Nat.mod_eq_of_lt hlt, UInt32.ofNat_toNat]

/-- A timestamp field that fits is no announcement of a longer one. -/
theorem timestampField_ne (h : header.isExtended = false) :
    header.timestampField ≠ extendedMarker := by
  intro he
  rw [← Bool.not_eq_true, isExtended_iff, he] at h
  exact h (by decide)

theorem toNat_ofNat_length (h : header.length ≤ maxMessageLength) :
    Bytes.toNat (Bytes.ofNat 3 header.length) = header.length := by
  have hlt : header.length < 1 <<< 24 := Nat.lt_of_le_of_lt h (by decide)
  rw [Bytes.toNat_ofNat, Nat.mod_eq_of_lt hlt]

theorem toNat_ofUInt32 (n : UInt32) : UInt32.ofNat (Bytes.toNat (Bytes.ofUInt32 n)) = n := by
  have hlt : n.toNat < 1 <<< 32 := n.toNat_lt
  rw [Bytes.ofUInt32, Bytes.toNat_ofNat, Nat.mod_eq_of_lt hlt, UInt32.ofNat_toNat]

/-- Where the fields after the timestamp stand. -/
theorem slices_fields {time size : Bytes} (tag : UInt8) (rest : Bytes) (ht : time.length = 3)
    (hs : size.length = 3) :
    ((time ++ (size ++ tag :: rest)).drop 3).take 3 = size ∧
      ((time ++ (size ++ tag :: rest)).drop 6).headD 0 = tag ∧
      (time ++ (size ++ tag :: rest)).drop 7 = rest := by
  have h7 : time.drop 7 = [] := List.drop_of_length_le (by omega)
  have h4 : size.drop 4 = [] := List.drop_of_length_le (by omega)
  simp [List.drop_append, ht, hs, h7, h4]

/-- What the fields and the timestamp quantity make of the start is the header that was meant. -/
theorem applyTimestamp_applyFields (hl : header.length ≤ maxMessageLength)
    (h : format.Resolves previous header) (hf : format ≠ .type3) :
    ((⟨format, csid, format.start previous⟩ : Current).applyFields
      (header.fields format)).applyTimestamp header.timestampField = ⟨format, csid, header⟩ := by
  have hlen := toNat_ofNat_length hl
  have hslices (rest : Bytes) := slices_fields header.tag.id rest
    (Bytes.length_ofNat 3 (min header.timestampField extendedMarker).toNat)
    (Bytes.length_ofNat 3 header.length)
  cases format with
  | type0 =>
    have htime : header.timestamp = ⟨header.timestampField⟩ := h
    have hid := toNat_ofUInt32 header.streamId
    have hfour : (Bytes.ofUInt32Reversed header.streamId).take 4
        = Bytes.ofUInt32Reversed header.streamId :=
      List.take_of_length_le (by simp [Bytes.ofUInt32Reversed, Bytes.ofUInt32])
    obtain ⟨hsize, htag, hrest⟩ := hslices (Bytes.ofUInt32Reversed header.streamId)
    simp only [Current.applyFields, Current.applyTimestamp, Header.fields, List.append_assoc,
      List.cons_append, List.nil_append, hsize, htag, hrest, hlen, hfour, ← htime]
    simp only [Bytes.ofUInt32Reversed, List.reverse_reverse, hid]
  | type1 =>
    obtain ⟨before, rfl, hstream, htime⟩ := h
    obtain ⟨hsize, htag, -⟩ := hslices []
    simp only [Current.applyFields, Current.applyTimestamp, Header.fields, Format.start,
      Option.getD_some, hsize, htag, hlen, hstream, htime]
  | type2 =>
    obtain ⟨before, rfl, hstream, hlength, htag, htime⟩ := h
    simp only [Current.applyFields, Current.applyTimestamp, Format.start, Option.getD_some, htime,
      hstream, hlength, htag]
  | type3 => exact absurd rfl hf

/-! ## From the head to the body -/

/-- The last header on a chunk stream and what has come in of an unfinished message there. -/
structure Readable (previous : Option Header) (got : Option Bytes) (format : Format)
    (csid : UInt32) (header : Header) : Prop where
  inRange : InRange csid
  length_le : header.length ≤ maxMessageLength
  resolves : format.Resolves previous header
  /-- Only a header of type 3 goes on with a message. -/
  continues : format = .type3 ∨ got = none

/-- The header while its timestamp quantity is still to come. -/
def Current.announced (current : Current) : Current :=
  { current with header := { current.header with timestampField := extendedMarker } }

namespace Assembler

/-- What has come in of an unfinished message. -/
def pending (a : Assembler) (csid : UInt32) : Option Bytes :=
  (a.unfinished.get? csid).map Buffer.bytes

/-- The reader at the body of a chunk with this header. -/
def reading (a : Assembler) (format : Format) (csid : UInt32) (header : Header) : Assembler :=
  { a with current := ⟨format, csid, header⟩ }

/-- A basic header of another type than 3 drops what is unfinished. -/
def opened (a : Assembler) (format : Format) (csid : UInt32) : Assembler :=
  if format = .type3 then a else { a with unfinished := a.unfinished.erase csid }

@[simp] theorem opened_maxSize (a : Assembler) : (a.opened format csid).maxSize = a.maxSize := by
  unfold opened
  split <;> rfl

@[simp] theorem opened_headers (a : Assembler) : (a.opened format csid).headers = a.headers := by
  unfold opened
  split <;> rfl

/-- Nothing is lost where there was nothing unfinished or the header is of type 3. -/
theorem pending_opened {a : Assembler} (h : format = .type3 ∨ a.pending csid = none)
    (other : UInt32) : (a.opened format csid).pending other = a.pending other := by
  unfold opened
  split
  · rfl
  · next hf =>
    have hn := h.resolve_left hf
    simp only [pending, Table.get?_erase, Option.map_eq_none_iff] at hn ⊢
    split
    · next he => rw [← he, hn]
    · rfl

/-- The stage after the timestamp field of a header. -/
def afterTimestamp (header : Header) : ReadStage :=
  if header.isExtended then .extendedTimestamp else .completeMessage

variable {a : Assembler} {rest : Bytes}

theorem step_basicHeader (rest : Bytes) (hc : InRange csid)
    (h : format.Resolves (a.headers.get? csid) header) :
    a.step .firstByteBasicHeader (basicHeader format csid ++ rest) =
      (.ok (.advanced (basicHeader format csid).length
          (if format = .type3 then afterTimestamp header else .chunkMessageHeader)),
        (a.opened format csid).reading format csid (format.start (a.headers.get? csid))) := by
  simp only [step, readBasicHeader, readBasicHeader?_basicHeader format hc rest]
  cases format with
  | type0 => simp [opened, reading, Format.start]
  | type1 | type2 =>
    obtain ⟨before, hb, -⟩ := h
    simp [opened, reading, Format.start, hb]
  | type3 =>
    have hb : a.headers.get? csid = some header := h
    simp [opened, reading, Format.start, hb, afterTimestamp]

theorem step_extendedTimestamp (a : Assembler) (rest bytes : Bytes) (hb : bytes.length = 4) :
    a.step .extendedTimestamp (bytes ++ rest) =
      (.ok (.advanced bytes.length .completeMessage),
        { a with current := if a.current.format = .type3 then a.current
            else a.current.applyTimestamp (UInt32.ofNat bytes.toNat) }) := by
  have hs : (bytes ++ rest).split? 4 = some (bytes, rest) :=
    Bytes.split?_eq_some_iff.mpr ⟨rfl, hb⟩
  simp [step, readExtendedTimestamp, hs, hb]

/-- A header that has taken up all but its timestamp quantity gets it from the extension. -/
theorem follow_extension (react : Reaction) (hf : a.current.format ≠ .type3)
    (h : a.current.applyTimestamp header.timestampField = ⟨format, csid, header⟩) :
    a.follow react .extendedTimestamp (Bytes.ofUInt32 header.timestampField ++ rest)
      = (a.reading format csid header).follow react .completeMessage rest := by
  have hs := a.step_extendedTimestamp rest (Bytes.ofUInt32 header.timestampField)
    (by simp [Bytes.ofUInt32])
  rw [if_neg hf, toNat_ofUInt32, h] at hs
  rw [follow_advanced react hs, List.drop_left]
  rfl

/-- The extension of a chunk of type 3 says nothing new. -/
theorem follow_extension_type3 (react : Reaction) (hf : a.current.format = .type3)
    (field : UInt32) :
    a.follow react .extendedTimestamp (Bytes.ofUInt32 field ++ rest)
      = a.follow react .completeMessage rest := by
  have hs := a.step_extendedTimestamp rest (Bytes.ofUInt32 field) (by simp [Bytes.ofUInt32])
  rw [if_pos hf] at hs
  rw [follow_advanced react hs, List.drop_left]

theorem step_messageHeader (rest fields : Bytes) (hl : fields.length = a.current.format.headerSize) :
    a.step .chunkMessageHeader (fields ++ rest) =
      let field := UInt32.ofNat (Bytes.toNat (fields.take 3))
      let current := a.current.applyFields fields
      if field = extendedMarker then
        (.ok (.advanced fields.length .extendedTimestamp), { a with current := current.announced })
      else
        (.ok (.advanced fields.length .completeMessage),
          { a with current := current.applyTimestamp field }) := by
  have hs : (fields ++ rest).split? a.current.format.headerSize = some (fields, rest) :=
    Bytes.split?_eq_some_iff.mpr ⟨rfl, hl⟩
  simp only [step, readMessageHeader, hs]
  split
  · next he => simp [he, hl, Current.announced]
  · simp [hl]

theorem follow_messageHeader (react : Reaction) (hl : header.length ≤ maxMessageLength)
    (h : format.Resolves previous header) (hf : format ≠ .type3)
    (ha : a.current = ⟨format, csid, format.start previous⟩) :
    a.follow react .chunkMessageHeader (header.fields format ++ (header.extension ++ rest))
      = (a.reading format csid header).follow react .completeMessage rest := by
  have happly : (Current.applyTimestamp _ _) = (⟨format, csid, header⟩ : Current) :=
    applyTimestamp_applyFields hl h hf
  have hstep := step_messageHeader (a := a) (header.extension ++ rest) (header.fields format)
    (by rw [ha, length_fields])
  simp only [timestamp_fields hf, ha] at hstep
  cases hx : header.isExtended with
  | false =>
    simp only [hx, Bool.false_eq_true, if_false, if_neg (timestampField_ne hx), happly] at hstep
    rw [follow_advanced react hstep, List.drop_left]
    simp only [Header.extension, hx, Bool.false_eq_true, if_false, List.nil_append, reading]
  | true =>
    simp only [hx, if_true] at hstep
    rw [follow_advanced react hstep, List.drop_left]
    simp only [Header.extension, hx, if_true]
    have hformat : ((⟨format, csid, format.start previous⟩ : Current).applyFields
        (header.fields format)).announced.format ≠ .type3 := by
      cases format <;> simp_all [Current.announced, Current.applyFields]
    exact follow_extension react hformat happly

/-- A head that the reader can resolve leaves it at the body with the header that was meant. -/
theorem follow_head (react : Reaction)
    (h : Readable (a.headers.get? csid) (a.pending csid) format csid header) :
    a.follow react .firstByteBasicHeader (head format csid header ++ rest)
      = ((a.opened format csid).reading format csid header).follow react .completeMessage rest := by
  have hstep := step_basicHeader (a := a)
    (header.fields format ++ (header.extension ++ rest)) h.inRange h.resolves
  rw [head, List.append_assoc, List.append_assoc, follow_advanced react hstep, List.drop_left]
  by_cases hf : format = .type3
  · subst hf
    have hprevious : a.headers.get? csid = some header := h.resolves
    simp only [if_true, Header.fields, List.nil_append, hprevious, Format.start, Option.getD_some,
      afterTimestamp, Header.extension]
    split
    · exact follow_extension_type3 react rfl header.timestampField
    · rw [List.nil_append]
  · rw [if_neg hf]
    exact follow_messageHeader react h.length_le h.resolves hf rfl

/-! ## The body -/

theorem bytes_received (a : Assembler) :
    a.received.bytes = (a.pending a.current.csid).getD [] := by
  unfold received pending
  cases a.unfinished.get? a.current.csid <;> rfl

end Assembler

end RtmpEndpoint.Chunk
