import RtmpEndpoint.Proofs.Chunk.History
import RtmpEndpoint.Proofs.Chunk.Taking

/-!
# What a message is made of

What is unfinished on a chunk stream, and every message that completes, is what the history of the
reader has collected. It never outgrows the length that the last header of type 0 or 1 announced.
-/

namespace RtmpEndpoint.Chunk

variable {csid : UInt32} {history : History}

/-! ## What a reader knows -/

/-- The message header of the chunk has been taken. -/
def PastFields (stage : ReadStage) : Prop :=
  stage = .extendedTimestamp ∨ stage = .completeMessage

/-- A reader knows what its history says. -/
structure Sound (a : Assembler) (stage : ReadStage) (chunk : Format × UInt32)
    (history : History) : Prop where
  chunk_eq : stage ≠ .firstByteBasicHeader → chunk = (a.current.format, a.current.csid)
  collected_eq : ∀ csid, (a.pending csid).getD [] = collected csid history
  /-- What is unfinished is shorter than the last header says. -/
  unfinished_lt : ∀ csid bytes, a.pending csid = some bytes →
    ∃ header, a.headers.get? csid = some header ∧ bytes.length < header.length
  /-- Only between its message header and its body a chunk knows better than the last header. -/
  length_eq : ∀ csid header, a.headers.get? csid = some header →
    (PastFields stage → csid ≠ a.current.csid) →
    lengthInForce csid history = some header.length
  before_fields : stage = .chunkMessageHeader →
    a.current.format ≠ .type3 ∧ a.pending a.current.csid = none ∧
      (a.current.format ≠ .type0 →
        lengthInForce a.current.csid history = some a.current.header.length)
  past_fields : PastFields stage →
    lengthInForce a.current.csid history = some a.current.header.length ∧
      ∀ bytes, a.pending a.current.csid = some bytes → bytes.length < a.current.header.length
  justified : Justified history

theorem sound_new : Sound {} .firstByteBasicHeader (.type0, 0) [] where
  chunk_eq h := absurd rfl h
  collected_eq csid := rfl
  unfinished_lt csid bytes h := by cases h
  length_eq csid header h := by cases h
  before_fields h := by cases h
  past_fields h := by rcases h with h | h <;> cases h
  justified := justified_nil

namespace Assembler

variable {a b : Assembler} {stage next : ReadStage} {taken : Bytes} {completes : Option Payload}
  {chunk : Format × UInt32}

/-- The subtraction in the size of a body does not go below zero. -/
theorem received_le (h : Sound a .completeMessage chunk history) :
    a.received.size ≤ a.current.header.length := by
  obtain ⟨-, hlt⟩ := h.past_fields (.inr rfl)
  rw [← Buffer.length_bytes, bytes_received]
  cases hp : a.pending a.current.csid with
  | none => exact Nat.zero_le _
  | some bytes => exact Nat.le_of_lt (hlt bytes hp)

/-! ## What a step keeps -/

theorem pastFields_afterBasicHeader (format : Format) (header : Header) :
    PastFields (stageAfterBasicHeader format header) ↔ format = .type3 := by
  unfold stageAfterBasicHeader afterTimestamp PastFields
  split
  · next h =>
    split <;> simp [h]
  · next h => simp [h]

theorem pastFields_afterFields (fields : Bytes) : PastFields (stageAfterFields fields) := by
  unfold stageAfterFields PastFields
  split <;> simp

/-- A chunk of type 3 goes on with what is unfinished, any other drops it. -/
theorem sound_basicHeader {format : Format} {header : Header}
    (h : Sound a .firstByteBasicHeader chunk history)
    (known : a.start? format csid = some header) (taken : Bytes) :
    Sound ((a.opened format csid).reading format csid header)
      (stageAfterBasicHeader format header) (format, csid)
      ((csid, .opened format taken) :: history) := by
  have hlength : ∀ other header, a.headers.get? other = some header →
      lengthInForce other ((csid, .opened format taken) :: history) = some header.length := by
    intro other header hheader
    rw [lengthInForce_other fun _ => rfl]
    exact h.length_eq other header hheader fun hpast => by simp [PastFields] at hpast
  have hpending : ∀ other, ((a.opened format csid).reading format csid header).pending other
      = if format ≠ .type3 ∧ csid = other then none else a.pending other :=
    pending_opened_eq a format csid
  have hheaders : ((a.opened format csid).reading format csid header).headers = a.headers :=
    opened_headers a
  refine ⟨fun _ => rfl, ?_, ?_, ?_, ?_, ?_, h.justified.cons (by simp)⟩
  · intro other
    rw [hpending, collected_cons, ← h.collected_eq]
    by_cases hf : format = .type3 <;> by_cases hc : csid = other <;> simp [hf, hc, Mark.collect]
  · intro other bytes hbytes
    rw [hpending] at hbytes
    split at hbytes
    · cases hbytes
    · rw [hheaders]
      exact h.unfinished_lt other bytes hbytes
  · intro other header hheader _
    rw [hheaders] at hheader
    exact hlength other header hheader
  · intro hnext
    have hf : format ≠ .type3 := by
      intro hf
      have hpast := (pastFields_afterBasicHeader format header).mpr hf
      rw [hnext] at hpast
      simp [PastFields] at hpast
    exact ⟨hf, (hpending csid).trans (if_pos ⟨hf, rfl⟩),
      fun hf₀ => hlength csid header (start?_eq hf₀ known)⟩
  · intro hpast
    obtain rfl := (pastFields_afterBasicHeader format header).mp hpast
    have hknown := start?_eq (by simp) known
    refine ⟨hlength csid header hknown, ?_⟩
    intro bytes hbytes
    -- The chunk starts from the last header, and that is longer than what is unfinished.
    have hsame := (hpending csid).trans (if_neg fun hne => hne.1 rfl)
    have hbytes : a.pending csid = some bytes := hsame.symm.trans hbytes
    obtain ⟨header', hknown', hlt⟩ := h.unfinished_lt csid bytes hbytes
    rw [hknown] at hknown'
    cases hknown'
    exact hlt

/-- The message header replaces the length in force unless it is of type 2. -/
theorem sound_fields (h : Sound a .chunkMessageHeader chunk history) (taken : Bytes) :
    Sound { a with current := a.current.afterFields taken } (stageAfterFields taken) chunk
      ((chunk.2, .fields chunk.1 taken) :: history) := by
  obtain ⟨hf, hnone, hstart⟩ := h.before_fields rfl
  obtain rfl := h.chunk_eq (by simp)
  refine ⟨?_, ?_, h.unfinished_lt, ?_, ?_, ?_, h.justified.cons (by simp)⟩
  · intro _
    simp
  · intro other
    rw [collected_header fun _ => rfl]
    exact h.collected_eq other
  · intro other header hheader hne
    have hne : other ≠ a.current.csid := by
      simpa using hne (pastFields_afterFields taken)
    rw [lengthInForce_cons, if_neg hne.symm]
    exact h.length_eq other header hheader fun _ => hne
  · intro hnext
    have hpast := pastFields_afterFields taken
    rw [hnext] at hpast
    simp [PastFields] at hpast
  · intro _
    dsimp only
    rw [csid_afterFields, length_afterFields, lengthInForce_cons, if_pos rfl, Mark.announce]
    refine ⟨?_, ?_⟩
    · split
      · rfl
      -- A header of type 2 starts from the last one and keeps its length.
      · next hf' => exact hstart (mt .inl hf')
    · intro bytes hbytes
      cases hnone.symm.trans hbytes

theorem sound_extension (h : Sound a .extendedTimestamp chunk history) (taken : Bytes) :
    Sound { a with current := a.current.afterExtension taken } .completeMessage chunk
      ((chunk.2, .extension taken) :: history) := by
  obtain ⟨hformat, hlength⟩ := afterExtension_eq a.current taken
  obtain ⟨hforce, hlt⟩ := h.past_fields (.inl rfl)
  refine ⟨?_, ?_, h.unfinished_lt, ?_, ?_, ?_, h.justified.cons (by simp)⟩
  · intro _
    rw [hformat, csid_afterExtension]
    exact h.chunk_eq (by simp)
  · intro other
    rw [collected_header fun _ => rfl]
    exact h.collected_eq other
  · intro other header hheader hne
    rw [lengthInForce_other fun _ => rfl]
    have hne := hne (.inr rfl)
    rw [csid_afterExtension] at hne
    exact h.length_eq other header hheader fun _ => hne
  · intro hnext
    cases hnext
  · intro _
    dsimp only
    rw [lengthInForce_other fun _ => rfl, csid_afterExtension, hlength]
    exact ⟨hforce, hlt⟩

/-- A body makes the header of its chunk the last one, and something else unfinished. -/
theorem sound_body {got : Option Bytes} {now : History}
    (h : Sound a .completeMessage chunk history)
    (headers : ∀ other, b.headers.get? other
      = if a.current.csid = other then some a.current.header else a.headers.get? other)
    (pending : ∀ other, b.pending other
      = if a.current.csid = other then got else a.pending other)
    (short : ∀ bytes, got = some bytes → bytes.length < a.current.header.length)
    (collects : ∀ other, collected other now
      = if a.current.csid = other then got.getD [] else collected other history)
    (forces : ∀ other, lengthInForce other now = lengthInForce other history)
    (justified : Justified now) : Sound b .firstByteBasicHeader chunk now := by
  obtain ⟨hforce, -⟩ := h.past_fields (.inr rfl)
  refine ⟨fun hne => absurd rfl hne, ?_, ?_, ?_, fun hnext => (by cases hnext), ?_, justified⟩
  · intro other
    rw [pending, collects]
    split
    · rfl
    · exact h.collected_eq other
  · intro other bytes hbytes
    rw [pending] at hbytes
    rw [headers]
    split at hbytes
    · next hc => exact ⟨a.current.header, if_pos hc, short bytes hbytes⟩
    · next hc =>
      rw [if_neg hc]
      exact h.unfinished_lt other bytes hbytes
  · intro other header hheader _
    rw [forces]
    rw [headers] at hheader
    split at hheader
    · next hc =>
      cases hheader
      rw [← hc, hforce]
    · next hc => exact h.length_eq other header hheader fun _ => Ne.symm hc
  · intro hpast
    simp [PastFields] at hpast

/-- What was unfinished, with the body behind it. -/
theorem collected_body (h : Sound a .completeMessage chunk history) (taken : Bytes) :
    collected a.current.csid ((a.current.csid, .body taken) :: history)
      = a.received.bytes ++ taken := by
  rw [collected_cons, if_pos rfl, bytes_received, h.collected_eq]
  rfl

theorem sound_part (h : Sound a .completeMessage chunk history) (whole : taken.length = a.bodySize)
    (short : a.received.size + taken.length ≠ a.current.header.length) :
    Sound (a.keep taken) .firstByteBasicHeader chunk ((chunk.2, .body taken) :: history) := by
  have hle := received_le h
  have hcollected := collected_body h taken
  obtain rfl := h.chunk_eq (by simp)
  refine sound_body h (a.get?_headers_keep taken) (a.pending_keep taken) ?_ ?_
    (fun other => lengthInForce_other fun _ => rfl) (h.justified.cons (by simp))
  · intro bytes hbytes
    cases hbytes
    rw [List.length_append, Buffer.length_bytes]
    rw [bodySize] at whole
    omega
  · intro other
    split
    · next hc => rw [← hc, hcollected, Option.getD_some]
    · next hc => rw [collected_cons, if_neg hc]

theorem sound_last (h : Sound a .completeMessage chunk history)
    (full : a.received.size + taken.length = a.current.header.length) :
    Sound a.finish .firstByteBasicHeader chunk
      ((chunk.2, .completed (a.current.header.payload (a.received.bytes ++ taken)))
        :: (chunk.2, .body taken) :: history) := by
  obtain ⟨hforce, -⟩ := h.past_fields (.inr rfl)
  have hcollected := collected_body h taken
  obtain rfl := h.chunk_eq (by simp)
  have hjustified : Justified ((a.current.csid, .body taken) :: history) :=
    h.justified.cons (by simp)
  refine sound_body h a.get?_headers_finish a.pending_finish (by simp) ?_ ?_
    (hjustified.cons ?_)
  · intro other
    rw [collected_cons]
    split
    · rfl
    · next hc => rw [collected_cons, if_neg hc]
  · intro other
    rw [lengthInForce_other fun _ => rfl, lengthInForce_other fun _ => rfl]
  · intro payload hpayload
    cases hpayload
    rw [lengthInForce_other fun _ => rfl, hforce, hcollected]
    simp only [Header.payload, List.length_append, Buffer.length_bytes, full, and_self]

/-- Whatever a step takes, the reader still knows what its history says. -/
theorem Takes.sound (takes : a.Takes stage taken next completes b)
    (h : Sound a stage chunk history) :
    Sound b next (named chunk stage taken)
      (extend history (named chunk stage taken) stage taken completes) := by
  cases takes with
  | @basicHeader _ format csid header read known =>
    have hread := read []
    rw [List.append_nil] at hread
    have hnamed : named chunk .firstByteBasicHeader taken = (format, csid) := by
      simp only [named, hread]
    rw [hnamed]
    exact sound_basicHeader h known taken
  | fields => exact sound_fields h taken
  | extension => exact sound_extension h taken
  | part whole short => exact sound_part h whole short
  | last whole full => exact sound_last h full

/-- The reader knows no less when only its chunk size differs. -/
theorem sound_congr (h : Sound a stage chunk history) (current : b.current = a.current)
    (headers : b.headers = a.headers) (pending : ∀ csid, b.pending csid = a.pending csid) :
    Sound b stage chunk history where
  chunk_eq := by
    rw [current]
    exact h.chunk_eq
  collected_eq csid := by
    rw [pending]
    exact h.collected_eq csid
  unfinished_lt csid := by
    rw [pending, headers]
    exact h.unfinished_lt csid
  length_eq csid := by
    rw [headers, current]
    exact h.length_eq csid
  before_fields := by
    rw [current, pending]
    exact h.before_fields
  past_fields := by
    rw [current, pending]
    exact h.past_fields
  justified := h.justified

/-- Where there is no last header there is nothing unfinished. -/
theorem pending_of_unknown (h : Sound a stage chunk history) (unknown : a.headers.get? csid = none) :
    a.pending csid = none := by
  cases hp : a.pending csid with
  | none => rfl
  | some bytes =>
    obtain ⟨header, hheader, -⟩ := h.unfinished_lt csid bytes hp
    cases unknown.symm.trans hheader

/-- A header that has nothing to start from has nothing unfinished to drop. -/
theorem opened_of_unknown {format : Format} (h : Sound a stage chunk history)
    (unknown : a.start? format csid = none) : a.opened format csid = a := by
  have hunknown : a.headers.get? csid = none := by
    unfold start? at unknown
    split at unknown
    · cases unknown
    · exact unknown
  have hnone : a.unfinished.get? csid = none :=
    Option.map_eq_none_iff.mp (pending_of_unknown h hunknown)
  unfold opened
  split
  · rfl
  · rw [Table.erase_of_get? hnone]

/-- An abort may come at any time, also inside a chunk of the message that it drops. -/
theorem sound_abort (h : Sound a stage chunk history) (csid : UInt32) :
    Sound (a.abort csid) stage chunk ((csid, .aborted) :: history) where
  chunk_eq := h.chunk_eq
  collected_eq other := by
    rw [pending_abort, collected_cons]
    split
    · rfl
    · exact h.collected_eq other
  unfinished_lt other bytes hbytes :=
    h.unfinished_lt other bytes (pending_of_abort hbytes)
  length_eq other header hheader hne := by
    rw [lengthInForce_other fun _ => rfl]
    exact h.length_eq other header hheader hne
  before_fields hstage := by
    obtain ⟨hf, hnone, hstart⟩ := h.before_fields hstage
    refine ⟨hf, ?_, ?_⟩
    · rw [pending_abort]
      split
      · rfl
      · exact hnone
    · rw [lengthInForce_other fun _ => rfl]
      exact hstart
  past_fields hpast := by
    obtain ⟨hforce, hlt⟩ := h.past_fields hpast
    rw [lengthInForce_other fun _ => rfl]
    exact ⟨hforce, fun bytes hbytes => hlt bytes (pending_of_abort hbytes)⟩
  justified := h.justified.cons (by simp)

end Assembler

/-! ## What a whole run keeps -/

namespace Feed

variable {feed : Feed}

/-- The reader knows what its history says. -/
def Knows (feed : Feed) : Prop := Sound feed.assembler feed.stage feed.chunk feed.history

theorem knows_new : Knows {} := sound_new

theorem knows_take {taken rest : Bytes} {next : ReadStage} {completes : Option Payload}
    {assembler : Assembler} (h : feed.Knows) (buffer : feed.buffer = taken ++ rest)
    (takes : feed.assembler.Takes feed.stage taken next completes assembler) :
    (feed.take taken.length next completes assembler).Knows := by
  have hsound := takes.sound h
  simp only [Knows, take, buffer, List.take_left]
  exact hsound

/-- A step takes bytes, or it leaves them and loses at most what an unresolved header drops. -/
theorem step_cases (feed : Feed) :
    (∃ taken rest next completes assembler, feed.buffer = taken ++ rest ∧
      feed.assembler.Takes feed.stage taken next completes assembler ∧
      feed.step = feed.take taken.length next completes assembler) ∨
    feed.step = feed ∨
    ∃ format csid, feed.assembler.start? format csid = none ∧
      feed.step = { feed with assembler := feed.assembler.opened format csid } := by
  rw [step]
  rcases feed.assembler.step_cases feed.stage feed.buffer with hwait |
    ⟨taken, rest, next, completes, assembler, hbuffer, htakes⟩ |
    ⟨format, csid, n, -, -, hunknown, hfail⟩ | ⟨-, hfail⟩
  · exact .inr (.inl (by rw [hwait]))
  · refine .inl ⟨taken, rest, next, completes, assembler, hbuffer, htakes, ?_⟩
    rw [hbuffer, htakes.step_eq rest]
    cases completes with
    | none => rfl
    | some payload =>
      obtain rfl := htakes.next_of_some
      rfl
  · exact .inr (.inr ⟨format, csid, hunknown, by rw [hfail]⟩)
  · exact .inr (.inl (by rw [hfail]))

/-- What can be done to a reader that knows its history: it takes bytes, it drops what is unfinished
on a chunk stream, or nothing of it changes but its chunk size and what waits in its buffer. -/
theorem act_cases (h : feed.Knows) (action : Action) :
    (∃ taken rest next completes assembler, feed.buffer = taken ++ rest ∧
      feed.assembler.Takes feed.stage taken next completes assembler ∧
      feed.act action = feed.take taken.length next completes assembler) ∨
    (∃ csid, feed.act action = { feed with
      assembler := feed.assembler.abort csid, history := (csid, .aborted) :: feed.history }) ∨
    ∃ maxSize, feed.act action = { feed with
      assembler := { feed.assembler with maxSize }, buffer := feed.buffer ++ action.bytes } := by
  have hsame : feed = { feed with
      assembler := { feed.assembler with maxSize := feed.assembler.maxSize }
      buffer := feed.buffer ++ [] } := by rw [List.append_nil]
  cases action with
  | receive bytes => exact .inr (.inr ⟨feed.assembler.maxSize, rfl⟩)
  | step =>
    rcases feed.step_cases with htakes | hstep | ⟨format, csid, hunknown, hstep⟩
    · exact .inl htakes
    · exact .inr (.inr ⟨_, hstep.trans hsame⟩)
    · rw [Assembler.opened_of_unknown h hunknown] at hstep
      exact .inr (.inr ⟨_, hstep.trans hsame⟩)
  | resize size =>
    refine .inr (.inr ?_)
    rw [act, Assembler.setMaxSize]
    cases Size.ofNat? size with
    | none => exact ⟨_, hsame⟩
    | some bound => exact ⟨bound, by rw [Action.bytes, List.append_nil]⟩
  | abort csid => exact .inr (.inl ⟨csid, rfl⟩)

theorem knows_act (h : feed.Knows) (action : Action) : (feed.act action).Knows := by
  rcases act_cases h action with ⟨taken, rest, next, completes, assembler, hbuffer, htakes, hact⟩ |
    ⟨csid, hact⟩ | ⟨maxSize, hact⟩
  · rw [hact]
    exact knows_take h hbuffer htakes
  · rw [hact]
    exact Assembler.sound_abort h csid
  · rw [hact]
    exact Assembler.sound_congr h rfl rfl fun _ => rfl

theorem knows_run (h : feed.Knows) (actions : List Action) : (feed.run actions).Knows := by
  induction actions generalizing feed with
  | nil => exact h
  | cons action actions ih => exact ih (knows_act h action)

theorem bytes_take {taken rest : Bytes} (buffer : feed.buffer = taken ++ rest) (next : ReadStage)
    (completes : Option Payload) (assembler : Assembler) :
    bytesTaken (feed.take taken.length next completes assembler).history
        ++ (feed.take taken.length next completes assembler).buffer
      = bytesTaken feed.history ++ feed.buffer := by
  simp only [take, bytesTaken_extend, buffer, List.take_left, List.drop_left, List.append_assoc]

theorem bytes_step (feed : Feed) :
    bytesTaken feed.step.history ++ feed.step.buffer = bytesTaken feed.history ++ feed.buffer := by
  rcases feed.step_cases with ⟨taken, rest, next, completes, assembler, hbuffer, -, hstep⟩ |
    hstep | ⟨format, csid, -, hstep⟩
  · rw [hstep]
    exact bytes_take hbuffer next completes assembler
  · rw [hstep]
  · rw [hstep]

theorem bytes_act (feed : Feed) (action : Action) :
    bytesTaken (feed.act action).history ++ (feed.act action).buffer
      = bytesTaken feed.history ++ feed.buffer ++ action.bytes := by
  cases action with
  | receive bytes => exact (List.append_assoc ..).symm
  | step => exact (bytes_step feed).trans (List.append_nil _).symm
  | resize size =>
    rw [act, Action.bytes, List.append_nil]
    split <;> rfl
  | abort csid => simp only [act, bytesTaken, Mark.bytes, Action.bytes, List.append_nil]

/-- No byte is lost: each one was taken or waits in the buffer. -/
theorem bytes_run (feed : Feed) (actions : List Action) :
    bytesTaken (feed.run actions).history ++ (feed.run actions).buffer
      = bytesTaken feed.history ++ feed.buffer ++ actions.flatMap (·.bytes) := by
  induction actions generalizing feed with
  | nil => exact (List.append_nil _).symm
  | cons action actions ih =>
    rw [run, List.foldl_cons, ← run, ih, bytes_act, List.flatMap_cons, List.append_assoc]

/-- Whatever is done to a new reader, its history accounts for every byte. What is unfinished on a
chunk stream is what was collected there and less than its last header says, a body is never asked
for below zero, and a message that completed is what was collected for it, at the length in
force. -/
theorem messages_of_run (actions : List Action) :
    let feed := ({} : Feed).run actions
    bytesTaken feed.history ++ feed.buffer = actions.flatMap (·.bytes) ∧
    (∀ csid, (feed.assembler.pending csid).getD [] = collected csid feed.history) ∧
    (∀ csid part, feed.assembler.unfinished.get? csid = some part →
      ∃ header, feed.assembler.headers.get? csid = some header ∧ part.size < header.length) ∧
    (feed.stage = .completeMessage →
      feed.assembler.received.size ≤ feed.assembler.current.header.length) ∧
    ∀ csid payload earlier, (csid, .completed payload) :: earlier <:+ feed.history →
      payload.data = collected csid earlier ∧
        lengthInForce csid earlier = some payload.data.length := by
  intro feed
  have hknows : Sound feed.assembler feed.stage feed.chunk feed.history :=
    knows_run knows_new actions
  refine ⟨bytes_run {} actions, hknows.collected_eq, ?_, ?_, hknows.justified⟩
  · intro csid part hpart
    have hpending : feed.assembler.pending csid = some part.bytes := by
      rw [Assembler.pending, hpart, Option.map_some]
    obtain ⟨header, hheader, hlt⟩ := hknows.unfinished_lt csid part.bytes hpending
    rw [Buffer.length_bytes] at hlt
    exact ⟨header, hheader, hlt⟩
  · intro hstage
    rw [hstage] at hknows
    exact Assembler.received_le hknows

/-- A message is interrupted by one on another chunk stream and aborted inside its second chunk,
whose body is then the first of a message that goes on with the next chunk. -/
def abortInside : List Action :=
  [.resize 2, .resize 0,
    .receive [0x03, 0, 0, 5, 0, 0, 3, 8, 1, 0, 0, 0, 1, 2], .step, .step, .step,
    .receive [0x04, 0, 0, 5, 0, 0, 1, 9, 1, 0, 0, 0, 7], .step, .step, .step,
    .receive [0xc3], .step, .step, .abort 3,
    .receive [3, 4, 0xc3], .step, .step, .receive [5], .step]

theorem messages_of_run_abortInside :
    ∃ payload earlier,
      (({} : Feed).run abortInside).history = (3, .completed payload) :: earlier ∧
        payload.data = [3, 4, 5] ∧ collected 3 earlier = [3, 4, 5] ∧
        lengthInForce 3 earlier = some 3 := by
  obtain ⟨-, -, -, -, hcompleted⟩ := messages_of_run abortInside
  have hhistory : (({} : Feed).run abortInside).history
      = (3, .completed ⟨⟨5⟩, .audio, 1, [3, 4, 5]⟩) :: (({} : Feed).run abortInside).history.tail :=
    rfl
  have hsuffix : (3, .completed ⟨⟨5⟩, .audio, 1, [3, 4, 5]⟩)
        :: (({} : Feed).run abortInside).history.tail
      <:+ (({} : Feed).run abortInside).history := ⟨[], hhistory.symm⟩
  obtain ⟨hdata, hlength⟩ := hcompleted 3 _ _ hsuffix
  exact ⟨_, _, hhistory, rfl, hdata.symm, hlength⟩

end Feed

end RtmpEndpoint.Chunk
