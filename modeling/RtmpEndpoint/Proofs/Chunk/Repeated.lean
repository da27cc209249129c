import RtmpEndpoint.Proofs.Chunk.Collecting

/-!
# Which chunks repeat an extended timestamp

A message header whose timestamp field is filled with ones is followed by an extension of four
bytes. Chunks of type 3 after it repeat the extension if it is a number that needs it, and not if
the field would have been wide enough: what is kept is the number, not how it was written.
-/

namespace RtmpEndpoint.Chunk

/-! ## What was said about the time -/

/-- How a header of another type than 3 gives its timestamp. -/
structure TimeSaid where
  /-- Three bytes. -/
  field : Bytes
  /-- Four more behind the header. -/
  extension : Option Bytes

/-- The field is filled with ones. -/
def TimeSaid.IsMarked (time : TimeSaid) : Prop := time.field = [0xff, 0xff, 0xff]

/-- There is an extension exactly behind a field that is filled with ones. -/
structure TimeSaid.Formed (time : TimeSaid) : Prop where
  length_field : time.field.length = 3
  extension_iff : time.extension.isSome ↔ time.IsMarked

/-- There is an extension, and three bytes would not have been enough for it or only just. -/
def TimeSaid.isLarge (time : TimeSaid) : Bool :=
  time.extension.any (0xffffff ≤ Bytes.toNat ·)

/-- What a chunk stream knows of its headers. -/
structure Heard where
  /-- The type of the last chunk. -/
  format : Format := .type0
  /-- What the last header of another type than 3 says. -/
  time : Option TimeSaid := none

/-- A chunk of type 3 has no message header, and what it repeats says nothing new. -/
def Mark.hear (heard : Heard) : Mark → Heard
  | opened format _ => { heard with format }
  | fields _ bytes => { heard with time := some ⟨bytes.take 3, none⟩ }
  | extension bytes =>
    if heard.format = .type3 then heard
    else { heard with time := heard.time.map fun time => { time with extension := some bytes } }
  | body _ | completed _ | aborted => heard

def heard (csid : UInt32) : History → Heard
  | [] => {}
  | (other, mark) :: earlier =>
    if other = csid then mark.hear (heard csid earlier) else heard csid earlier

/-- Whether bytes were taken. -/
def Mark.isPart : Mark → Bool
  | opened .. | fields .. | extension _ | body _ => true
  | completed _ | aborted => false

/-- The parts of chunks that were taken, the latest first. -/
def parts (history : History) : History := history.filter (·.2.isPart)

/-- The header keeps enough of what was said to tell whether the extension is repeated. -/
structure Tells (header : Header) (time : TimeSaid) : Prop where
  formed : time.Formed
  isExtended_eq : header.isExtended = time.isLarge

/-- What follows the basic header of a chunk of type 3 on a chunk stream where this was said. -/
def TimeSaid.stage (time : TimeSaid) : ReadStage :=
  if time.isLarge then .extendedTimestamp else .completeMessage

/-- The part that follows the basic header of a chunk of type 3. -/
def TimeSaid.Answers (time : TimeSaid) : Mark → Prop
  | .extension bytes => time.isLarge ∧ bytes.length = 4
  | .body _ => ¬ time.isLarge
  | _ => False

variable {csid other : UInt32} {mark : Mark} {history said : History} {header : Header}
  {time : TimeSaid}

theorem heard_cons : heard csid ((other, mark) :: history)
    = if other = csid then mark.hear (heard csid history) else heard csid history := rfl

theorem heard_other (hne : other ≠ csid) :
    heard csid ((other, mark) :: history) = heard csid history := if_neg hne

theorem heard_same : heard csid ((csid, mark) :: history) = mark.hear (heard csid history) :=
  if_pos rfl

/-- A basic header and a body do not say anything about the time. -/
theorem time_heard (hmark : ∀ heard, (mark.hear heard).time = heard.time) :
    (heard csid ((other, mark) :: history)).time = (heard csid history).time := by
  rw [heard_cons]
  split
  · exact hmark _
  · rfl

theorem parts_extend (chunk : Format × UInt32) (stage : ReadStage) (taken : Bytes)
    (completes : Option Payload) :
    parts (extend history chunk stage taken completes)
      = (chunk.2, .of chunk.1 taken stage) :: parts history := by
  have hpart : (Mark.of chunk.1 taken stage).isPart = true := by cases stage <;> rfl
  have hcons : parts ((chunk.2, .of chunk.1 taken stage) :: history)
      = (chunk.2, .of chunk.1 taken stage) :: parts history := List.filter_cons_of_pos hpart
  cases completes with
  | none => exact hcons
  | some payload => exact hcons

/-! ## What the header keeps -/

/-- Comparing words and comparing the numbers they were read from is the same. -/
theorem marker_le_ofNat {bytes : Bytes} (h : bytes.length ≤ 4) :
    (decide (extendedMarker ≤ UInt32.ofNat bytes.toNat) : Bool)
      = decide (0xffffff ≤ bytes.toNat) := by
  have hlt : bytes.toNat < 1 <<< (8 * 4) := by
    refine Nat.lt_of_lt_of_le (Bytes.toNat_lt bytes) ?_
    simp only [Nat.shiftLeft_eq, Nat.one_mul]
    exact Nat.pow_le_pow_right (by decide) (by omega)
  have hsize : (UInt32.ofNat bytes.toNat).toNat = bytes.toNat := UInt32.toNat_ofNat_of_lt' hlt
  rw [decide_eq_decide, UInt32.le_iff_toNat_le, hsize]
  rfl

/-- Three bytes spell the marker only if all of them are ones. -/
theorem ofNat_eq_marker_iff {field : Bytes} (h : field.length = 3) :
    UInt32.ofNat field.toNat = extendedMarker ↔ field = [0xff, 0xff, 0xff] := by
  constructor
  · intro heq
    have hlt := Bytes.toNat_lt field
    rw [h] at hlt
    have hnat := congrArg UInt32.toNat heq
    rw [UInt32.toNat_ofNat_of_lt' (Nat.lt_trans hlt (by decide))] at hnat
    exact Bytes.eq_of_toNat_eq h hnat
  · rintro rfl
    rfl

/-- The header after a message header without an extension. -/
theorem tells_field {current : Current} {fields : Bytes} (whole : 3 ≤ fields.length)
    (unmarked : stageAfterFields fields = .completeMessage) :
    Tells (current.afterFields fields).header ⟨fields.take 3, none⟩ := by
  have hlength : (fields.take 3).length = 3 := by simp only [List.length_take]; omega
  have hne : UInt32.ofNat (Bytes.toNat (fields.take 3)) ≠ extendedMarker := by
    intro heq
    simp [stageAfterFields, heq] at unmarked
  have hlt := Bytes.toNat_lt (fields.take 3)
  have hnat : Bytes.toNat (fields.take 3) ≠ 0xffffff := fun heq => hne (by rw [heq]; rfl)
  refine ⟨⟨hlength, ?_⟩, ?_⟩
  · simp [TimeSaid.IsMarked, ← ofNat_eq_marker_iff hlength, hne]
  · have hfield : (current.afterFields fields).header.timestampField
        = UInt32.ofNat (Bytes.toNat (fields.take 3)) := by
      rw [Current.afterFields, if_neg hne]
      rfl
    rw [Header.isExtended, hfield, marker_le_ofNat (by omega)]
    rw [hlength] at hlt
    simp only [TimeSaid.isLarge, Option.any_none, decide_eq_false_iff_not]
    omega

/-- The header after an extension. -/
theorem tells_extension {current : Current} {field extension : Bytes}
    (marked : field = [0xff, 0xff, 0xff]) (whole : extension.length = 4)
    (format : current.format ≠ .type3) :
    Tells (current.afterExtension extension).header ⟨field, some extension⟩ := by
  refine ⟨⟨congrArg List.length marked, by simp [TimeSaid.IsMarked, marked]⟩, ?_⟩
  have hfield : (current.afterExtension extension).header.timestampField
      = UInt32.ofNat extension.toNat := by
    rw [Current.afterExtension, if_neg format]
    rfl
  rw [Header.isExtended, hfield, marker_le_ofNat (by omega)]
  rfl

/-! ## What a reader recalls -/

/-- Behind a basic header of type 3 there is what the last header of another type asks for. -/
def Answered (said : History) : Prop :=
  ∀ csid bytes earlier other mark,
    (other, mark) :: (csid, .opened .type3 bytes) :: earlier <:+ said →
    ∃ time, (heard csid earlier).time = some time ∧ time.Formed ∧ other = csid ∧
      time.Answers mark

/-- A reader recalls of these parts which of them are repeated. -/
structure Recalls (a : Assembler) (stage : ReadStage) (said : History) : Prop where
  /-- Only between its message header and its body a chunk knows better than the last header. -/
  header_tells : ∀ csid header, a.headers.get? csid = some header →
    (PastFields stage → csid ≠ a.current.csid) →
    ∃ time, (heard csid said).time = some time ∧ Tells header time
  format_eq : stage ≠ .firstByteBasicHeader →
    (heard a.current.csid said).format = a.current.format
  /-- The extension of this chunk comes next. -/
  marked : stage = .extendedTimestamp → a.current.format ≠ .type3 →
    (heard a.current.csid said).time = some ⟨[0xff, 0xff, 0xff], none⟩
  current_tells : PastFields stage → (stage = .extendedTimestamp → a.current.format = .type3) →
    ∃ time, (heard a.current.csid said).time = some time ∧ Tells a.current.header time
  /-- The basic header was the last part. -/
  opened : ∀ csid bytes earlier, said = (csid, .opened .type3 bytes) :: earlier →
    csid = a.current.csid ∧
      ∃ time, (heard csid earlier).time = some time ∧ time.Formed ∧ stage = time.stage
  answered : Answered said

theorem recalls_new : Recalls {} .firstByteBasicHeader [] where
  header_tells csid header h := by cases h
  format_eq h := absurd rfl h
  marked h := by cases h
  current_tells h := by rcases h with h | h <;> cases h
  opened csid bytes earlier h := by cases h
  answered csid bytes earlier other mark h := by simp at h

/-- Another part in front, which answers to a basic header of type 3 if there was one. -/
theorem Answered.cons (h : Answered said)
    (answers : ∀ csid' bytes earlier, said = (csid', .opened .type3 bytes) :: earlier →
      ∃ time, (heard csid' earlier).time = some time ∧ time.Formed ∧ csid = csid' ∧
        time.Answers mark) :
    Answered ((csid, mark) :: said) := by
  intro csid' bytes earlier other mark' hs
  rcases List.suffix_cons_iff.mp hs with heq | hs
  · cases heq
    exact answers csid' bytes earlier rfl
  · exact h csid' bytes earlier other mark' hs

namespace Assembler

variable {a b : Assembler} {stage next : ReadStage} {taken : Bytes} {completes : Option Payload}
  {chunk : Format × UInt32}

theorem recalls_basicHeader {format : Format} (h : Recalls a .firstByteBasicHeader said)
    (known : a.start? format csid = some header) (taken : Bytes) :
    Recalls ((a.opened format csid).reading format csid header)
      (stageAfterBasicHeader format header) ((csid, .opened format taken) :: said) := by
  have htime : ∀ other, (heard other ((csid, .opened format taken) :: said)).time
      = (heard other said).time := fun other => time_heard fun _ => rfl
  have htells : ∀ other header, a.headers.get? other = some header →
      ∃ time, (heard other said).time = some time ∧ Tells header time :=
    fun other header hheader =>
      h.header_tells other header hheader fun hpast => by simp [PastFields] at hpast
  have hheaders : ((a.opened format csid).reading format csid header).headers = a.headers :=
    opened_headers a
  refine ⟨?_, ?_, ?_, ?_, ?_, ?_⟩
  · intro other header hheader _
    rw [hheaders] at hheader
    rw [htime]
    exact htells other header hheader
  · intro _
    exact congrArg Heard.format heard_same
  · intro hnext hformat
    exact absurd ((pastFields_afterBasicHeader format header).mp (.inl hnext)) hformat
  · intro hpast _
    have hformat := (pastFields_afterBasicHeader format header).mp hpast
    rw [htime]
    exact htells csid header (start?_eq (by simp [hformat]) known)
  · intro csid' bytes earlier hsaid
    cases hsaid
    obtain ⟨time, hheard, htells⟩ := htells csid header (start?_eq (by simp) known)
    refine ⟨rfl, time, hheard, htells.formed, ?_⟩
    rw [stageAfterBasicHeader, if_pos rfl, afterTimestamp, TimeSaid.stage, htells.isExtended_eq]
  · -- A basic header of type 3 was the last part, so this is no place for another.
    refine h.answered.cons fun csid' bytes earlier hsaid => ?_
    obtain ⟨-, time, -, -, hstage⟩ := h.opened csid' bytes earlier hsaid
    unfold TimeSaid.stage at hstage
    split at hstage <;> cases hstage

theorem recalls_fields (h : Recalls a .chunkMessageHeader said) (taken : Bytes)
    (whole : taken.length = a.current.format.headerSize) (format : a.current.format ≠ .type3) :
    Recalls { a with current := a.current.afterFields taken } (stageAfterFields taken)
      ((a.current.csid, .fields a.current.format taken) :: said) := by
  have htime : (heard a.current.csid
      ((a.current.csid, .fields a.current.format taken) :: said)).time
        = some ⟨taken.take 3, none⟩ := congrArg Heard.time heard_same
  have hthree : 3 ≤ taken.length := by
    rw [whole]
    cases hf : a.current.format <;> simp_all [Format.headerSize]
  refine ⟨?_, ?_, ?_, ?_, ?_, ?_⟩
  · intro other header hheader hne
    have hne : other ≠ a.current.csid := by simpa using hne (pastFields_afterFields taken)
    rw [heard_other hne.symm]
    exact h.header_tells other header hheader fun hpast => by simp [PastFields] at hpast
  · intro _
    dsimp only
    rw [csid_afterFields, format_afterFields, heard_same]
    exact h.format_eq (by simp)
  · intro hnext _
    dsimp only
    rw [csid_afterFields, htime]
    unfold stageAfterFields at hnext
    split at hnext
    · next hmarker =>
      have hlength : (taken.take 3).length = 3 := by simp only [List.length_take]; omega
      rw [(ofNat_eq_marker_iff hlength).mp hmarker]
    · cases hnext
  · intro hpast hnext
    dsimp only at hnext ⊢
    rw [csid_afterFields, htime]
    rw [format_afterFields] at hnext
    refine ⟨_, rfl, tells_field hthree ?_⟩
    rcases hpast with hpast | hpast
    · exact absurd (hnext hpast) format
    · exact hpast
  · intro csid' bytes earlier hsaid
    cases hsaid
  · refine h.answered.cons fun csid' bytes earlier hsaid => ?_
    obtain ⟨-, time, -, -, hstage⟩ := h.opened csid' bytes earlier hsaid
    unfold TimeSaid.stage at hstage
    split at hstage <;> cases hstage

theorem recalls_extension (h : Recalls a .extendedTimestamp said) (taken : Bytes)
    (whole : taken.length = 4) :
    Recalls { a with current := a.current.afterExtension taken } .completeMessage
      ((a.current.csid, .extension taken) :: said) := by
  have hformat := h.format_eq (by simp)
  have hother : ∀ {other}, other ≠ a.current.csid →
      heard other ((a.current.csid, .extension taken) :: said) = heard other said :=
    fun hne => heard_other hne.symm
  refine ⟨?_, ?_, ?_, ?_, ?_, ?_⟩
  · intro other header hheader hne
    have hne : other ≠ a.current.csid := by simpa using hne (.inr rfl)
    rw [hother hne]
    exact h.header_tells other header hheader fun _ => hne
  · intro _
    dsimp only
    rw [csid_afterExtension, (afterExtension_eq a.current taken).1, heard_same, Mark.hear]
    split <;> exact hformat
  · intro hnext
    cases hnext
  · intro _ _
    dsimp only
    rw [csid_afterExtension, heard_same, Mark.hear, hformat]
    by_cases htype : a.current.format = .type3
    · rw [if_pos htype, Current.afterExtension, if_pos htype]
      exact h.current_tells (.inl rfl) fun _ => htype
    · rw [if_neg htype, h.marked rfl htype]
      exact ⟨_, rfl, tells_extension rfl whole htype⟩
  · intro csid' bytes earlier hsaid
    cases hsaid
  · refine h.answered.cons fun csid' bytes earlier hsaid => ?_
    obtain ⟨hcsid, time, hheard, hformed, hstage⟩ := h.opened csid' bytes earlier hsaid
    refine ⟨time, hheard, hformed, hcsid.symm, ?_, whole⟩
    unfold TimeSaid.stage at hstage
    split at hstage
    · assumption
    · cases hstage

theorem recalls_body (h : Recalls a .completeMessage said) (taken : Bytes)
    (headers : ∀ other, b.headers.get? other
      = if a.current.csid = other then some a.current.header else a.headers.get? other) :
    Recalls b .firstByteBasicHeader ((a.current.csid, .body taken) :: said) := by
  have hheard : ∀ other,
      heard other ((a.current.csid, .body taken) :: said) = heard other said := by
    intro other
    rw [heard_cons]
    split <;> rfl
  refine ⟨?_, fun hne => absurd rfl hne, fun hnext => (by cases hnext), ?_, ?_, ?_⟩
  · intro other header hheader _
    rw [hheard]
    rw [headers] at hheader
    split at hheader
    · next hc =>
      cases hheader
      rw [← hc]
      exact h.current_tells (.inr rfl) (by simp)
    · next hc => exact h.header_tells other header hheader fun _ => Ne.symm hc
  · intro hpast
    simp [PastFields] at hpast
  · intro csid' bytes earlier hsaid
    cases hsaid
  · refine h.answered.cons fun csid' bytes earlier hsaid => ?_
    obtain ⟨hcsid, time, hheard, hformed, hstage⟩ := h.opened csid' bytes earlier hsaid
    refine ⟨time, hheard, hformed, hcsid.symm, ?_⟩
    unfold TimeSaid.stage at hstage
    split at hstage
    · cases hstage
    · assumption

/-- Whatever a step takes, the reader still recalls what was said. -/
theorem Takes.recalls (takes : a.Takes stage taken next completes b)
    (sound : Sound a stage chunk history) (h : Recalls a stage (parts history)) :
    Recalls b next (parts (extend history (named chunk stage taken) stage taken completes)) := by
  rw [parts_extend]
  cases takes with
  | @basicHeader _ format csid header read known =>
    have hread := read []
    rw [List.append_nil] at hread
    have hnamed : named chunk .firstByteBasicHeader taken = (format, csid) := by
      simp only [named, hread]
    rw [hnamed]
    exact recalls_basicHeader h known taken
  | fields whole =>
    obtain rfl := sound.chunk_eq (by simp)
    exact recalls_fields h taken whole (sound.before_fields rfl).1
  | extension whole =>
    obtain rfl := sound.chunk_eq (by simp)
    exact recalls_extension h taken whole
  | part =>
    obtain rfl := sound.chunk_eq (by simp)
    exact recalls_body h taken (a.get?_headers_keep taken)
  | last =>
    obtain rfl := sound.chunk_eq (by simp)
    exact recalls_body h taken a.get?_headers_finish

/-- The chunk size and what is unfinished have no part in it. -/
theorem recalls_congr (h : Recalls a stage said) (current : b.current = a.current)
    (headers : b.headers = a.headers) : Recalls b stage said where
  header_tells := by
    rw [headers, current]
    exact h.header_tells
  format_eq := by
    rw [current]
    exact h.format_eq
  marked := by
    rw [current]
    exact h.marked
  current_tells := by
    rw [current]
    exact h.current_tells
  opened := by
    rw [current]
    exact h.opened
  answered := h.answered

end Assembler

namespace Feed

variable {feed : Feed}

theorem recalls_act (knows : feed.Knows)
    (h : Recalls feed.assembler feed.stage (parts feed.history)) (action : Action) :
    Recalls (feed.act action).assembler (feed.act action).stage
      (parts (feed.act action).history) := by
  rcases act_cases knows action with
    ⟨taken, rest, next, completes, assembler, hbuffer, htakes, hact⟩ | ⟨csid, hact⟩ |
    ⟨maxSize, hact⟩
  · have hrecalls := htakes.recalls knows h
    rw [hact]
    simp only [take, hbuffer, List.take_left]
    exact hrecalls
  · rw [hact]
    exact Assembler.recalls_congr h rfl rfl
  · rw [hact]
    exact Assembler.recalls_congr h rfl rfl

theorem recalls_run (knows : feed.Knows)
    (h : Recalls feed.assembler feed.stage (parts feed.history)) (actions : List Action) :
    Recalls (feed.run actions).assembler (feed.run actions).stage
      (parts (feed.run actions).history) := by
  induction actions generalizing feed with
  | nil => exact h
  | cons action actions ih => exact ih (knows_act knows action) (recalls_act knows h action)

/-- Whatever is done to a new reader: what it takes next behind a basic header of type 3 is four
bytes of extension if the last header of another type on the chunk stream came with an extension of
0xffffff or more, and a body if it did not. That header came with an extension exactly if its field
was filled with ones. While nothing is taken behind the basic header, this is what is waited for. -/
theorem large_extension_repeated (actions : List Action) :
    let feed := ({} : Feed).run actions
    (∀ csid bytes earlier other mark,
      (other, mark) :: (csid, .opened .type3 bytes) :: earlier <:+ parts feed.history →
      ∃ time, (heard csid earlier).time = some time ∧ time.Formed ∧ other = csid ∧
        time.Answers mark) ∧
    ∀ csid bytes earlier, parts feed.history = (csid, .opened .type3 bytes) :: earlier →
      ∃ time, (heard csid earlier).time = some time ∧ time.Formed ∧ feed.stage = time.stage := by
  have hrecalls := recalls_run knows_new recalls_new actions
  refine ⟨hrecalls.answered, fun csid bytes earlier hparts => ?_⟩
  obtain ⟨-, hopened⟩ := hrecalls.opened csid bytes earlier hparts
  exact hopened

/-- Two messages of two chunks each, the second inside the first. Both have a field filled with
ones, with 0x1000000 behind it in the first and 5 in the second. Then a third message opens. -/
def largeAndSmall : List Action :=
  [.resize 1,
    .receive [0x03, 0xff, 0xff, 0xff, 0, 0, 2, 8, 1, 0, 0, 0, 1, 0, 0, 0, 0xaa],
    .step, .step, .step, .step,
    .receive [0x04, 0xff, 0xff, 0xff, 0, 0, 2, 9, 1, 0, 0, 0, 0, 0, 0, 5, 0xbb],
    .step, .step, .step, .step,
    .receive [0xc3, 1, 0, 0, 0, 0xcc], .step, .step, .step,
    .receive [0xc4, 0xdd], .step, .step,
    .receive [0xc3], .step]

/-- The second chunk of the second message. -/
theorem body_largeAndSmall :
    let said := parts (({} : Feed).run largeAndSmall).history
    (4, .body [0xdd]) :: (4, .opened .type3 [0xc4]) :: said.drop 3 <:+ said :=
  List.drop_suffix 1 (parts (({} : Feed).run largeAndSmall).history)

/-- The second chunk of the first message. -/
theorem extension_largeAndSmall :
    let said := parts (({} : Feed).run largeAndSmall).history
    (3, .extension [1, 0, 0, 0]) :: (3, .opened .type3 [0xc3]) :: said.drop 6 <:+ said :=
  List.drop_suffix 4 (parts (({} : Feed).run largeAndSmall).history)

theorem large_extension_repeated_largeAndSmall :
    let feed := ({} : Feed).run largeAndSmall
    let said := parts feed.history
    ((3, .extension [1, 0, 0, 0]) :: (3, .opened .type3 [0xc3]) :: said.drop 6 <:+ said ∧
      ∃ time, (heard 3 (said.drop 6)).time = some time ∧ time.Formed ∧ time.isLarge) ∧
    ((4, .body [0xdd]) :: (4, .opened .type3 [0xc4]) :: said.drop 3 <:+ said ∧
      ∃ time, (heard 4 (said.drop 3)).time = some time ∧ time.Formed ∧ ¬ time.isLarge) ∧
    said = (3, .opened .type3 [0xc3]) :: said.drop 1 ∧
      ∃ time, (heard 3 (said.drop 1)).time = some time ∧ time.Formed ∧ feed.stage = time.stage := by
  obtain ⟨hanswered, hopened⟩ := large_extension_repeated largeAndSmall
  obtain ⟨large, hlarge, hformed, -, hisLarge, -⟩ := hanswered _ _ _ _ _ extension_largeAndSmall
  obtain ⟨small, hsmall, hformed', -, hisSmall⟩ := hanswered _ _ _ _ _ body_largeAndSmall
  exact ⟨⟨extension_largeAndSmall, large, hlarge, hformed, hisLarge⟩,
    ⟨body_largeAndSmall, small, hsmall, hformed', hisSmall⟩, rfl, hopened 3 [0xc3] _ rfl⟩

/-- A field that is filled with ones does not tell whether the extension is repeated: of the two
messages the second goes on without. -/
theorem marked_without_repeat :
    ¬ ∀ actions csid bytes earlier other mark,
      (other, mark) :: (csid, .opened .type3 bytes) :: earlier
          <:+ parts (({} : Feed).run actions).history →
        ((∃ again, mark = .extension again ∧ again.length = 4) ↔
          ∃ time, (heard csid earlier).time = some time ∧ time.IsMarked) := by
  intro h
  obtain ⟨again, hagain, -⟩ :=
    (h _ _ _ _ _ _ body_largeAndSmall).mpr ⟨⟨[0xff, 0xff, 0xff], some [0, 0, 0, 5]⟩, rfl, rfl⟩
  cases hagain

end Feed

end RtmpEndpoint.Chunk
