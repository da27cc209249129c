import RtmpEndpoint.Proofs.Chunk.Collecting

/-!
# Chunks that nothing came before

A chunk of another type than 0 builds on the last header of its chunk stream, and there is one as
soon as the body of a chunk has been taken there. Where there is none, a reader stops at the basic
header. It has taken nothing and dropped nothing then, and stays there whatever comes in.
-/

namespace RtmpEndpoint.Chunk

variable {a b : Assembler} {stage next : ReadStage} {chunk : Format × UInt32} {history : History}
  {input taken : Bytes} {completes : Option Payload} {format : Format} {csid : UInt32}

/-! ## Basic headers -/

/-- The input begins with a whole basic header of this format and chunk stream id: one byte, or two
or three if the id is not in the first. -/
inductive Headed : Bytes → Format → UInt32 → Prop where
  | one {first : UInt8} {rest : Bytes} (id : 2 ≤ first.toNat % 64) :
      Headed (first :: rest) (.ofByte first) (UInt32.ofNat (first.toNat % 64))
  | two {first second : UInt8} {rest : Bytes} (id : first.toNat % 64 = 0) :
      Headed (first :: second :: rest) (.ofByte first) (UInt32.ofNat (second.toNat + 64))
  | three {first second third : UInt8} {rest : Bytes} (id : first.toNat % 64 = 1) :
      Headed (first :: second :: third :: rest) (.ofByte first)
        (UInt32.ofNat (third.toNat * 256 + second.toNat + 64))

theorem Headed.append (h : Headed input format csid) (more : Bytes) :
    Headed (input ++ more) format csid := by
  cases h with
  | one id => exact .one id
  | two id => exact .two id
  | three id => exact .three id

theorem headed_iff : Headed input format csid ↔
    ∃ n, readBasicHeader? input = some (format, csid, n) := by
  constructor
  · rintro (⟨id⟩ | ⟨id⟩ | ⟨id⟩)
    · refine ⟨1, ?_⟩
      unfold readBasicHeader?
      split <;> grind
    · exact ⟨2, by simp [readBasicHeader?, id]⟩
    · exact ⟨3, by simp [readBasicHeader?, id]⟩
  · rintro ⟨n, h⟩
    unfold readBasicHeader? at h
    split at h
    · cases h
    · next first rest =>
      split at h
      · next hid =>
        cases h
        exact .two hid
      · next hid =>
        cases h
        exact .three hid
      · cases h
      · cases h
      · next hzero hone _ _ =>
        cases h
        exact .one (by grind)

/-! ## Where chunks have been -/

/-- The body of a chunk has been taken on this chunk stream. -/
def Ended (csid : UInt32) (history : History) : Prop := ∃ bytes, (csid, Mark.body bytes) ∈ history

/-- The assembler remembers a header for each chunk stream on which a chunk has ended, and no
others. -/
structure Remembers (a : Assembler) (stage : ReadStage) (chunk : Format × UInt32)
    (history : History) : Prop where
  csid_eq : stage ≠ .firstByteBasicHeader → chunk.2 = a.current.csid
  header_iff : ∀ csid, (a.headers.get? csid).isSome = true ↔ Ended csid history

theorem not_ended_nil (csid : UInt32) : ¬ Ended csid [] := nofun

/-- Only the stage of a body ends a chunk. -/
theorem ended_extend_iff (csid : UInt32) : Ended csid (extend history chunk stage taken completes) ↔
    (stage = .completeMessage ∧ chunk.2 = csid) ∨ Ended csid history := by
  have hmark : (∃ bytes, Mark.of chunk.1 taken stage = .body bytes) ↔ stage = .completeMessage := by
    cases stage <;> simp [Mark.of]
  have hcons : Ended csid ((chunk.2, .of chunk.1 taken stage) :: history) ↔
      (stage = .completeMessage ∧ chunk.2 = csid) ∨ Ended csid history := by
    simp only [Ended, List.mem_cons, Prod.mk.injEq, exists_or, ← hmark]
    grind
  cases completes with
  | none => exact hcons
  | some payload =>
    rw [← hcons]
    simp [extend, Ended]

namespace Assembler

/-- A body makes its chunk stream one that is remembered. -/
theorem remembers_body (h : Remembers a .completeMessage chunk history)
    (headers : ∀ csid, b.headers.get? csid
      = if a.current.csid = csid then some a.current.header else a.headers.get? csid) :
    Remembers b .firstByteBasicHeader chunk
      (extend history chunk .completeMessage taken completes) where
  csid_eq hne := absurd rfl hne
  header_iff csid := by
    rw [headers, ended_extend_iff, h.csid_eq (by simp)]
    split
    · next hc => simp [hc]
    · next hc => simp [hc, h.header_iff]

/-- Whatever is taken, the headers say where chunks have ended. -/
theorem Takes.remembers (takes : a.Takes stage taken next completes b)
    (h : Remembers a stage chunk history) :
    Remembers b next (named chunk stage taken)
      (extend history (named chunk stage taken) stage taken completes) := by
  cases takes with
  | @basicHeader _ format csid header read known =>
    have hread := read []
    rw [List.append_nil] at hread
    refine ⟨fun _ => by simp only [named, hread, reading], fun other => ?_⟩
    rw [ended_extend_iff, reading, opened_headers, h.header_iff]
    simp
  | fields whole =>
    refine ⟨fun _ => (h.csid_eq (by simp)).trans (csid_afterFields ..).symm, fun other => ?_⟩
    rw [ended_extend_iff, h.header_iff]
    simp
  | extension whole =>
    refine ⟨fun _ => (h.csid_eq (by simp)).trans (csid_afterExtension ..).symm, fun other => ?_⟩
    rw [ended_extend_iff, h.header_iff]
    simp
  | part whole short => exact remembers_body h (a.get?_headers_keep taken)
  | last whole full => exact remembers_body h a.get?_headers_finish

/-- A chunk that goes on needs one that has ended, and there is nothing else that fails. -/
theorem step_error_iff (h : Remembers a stage chunk history) (hs : stage.isHandshake = false)
    (input : Bytes) (error : AssembleError) : (a.step stage input).1 = .error error ↔
      ∃ format csid n, stage = .firstByteBasicHeader ∧
        readBasicHeader? input = some (format, csid, n) ∧ format ≠ .type0 ∧ ¬ Ended csid history ∧
        error = .noPreviousChunkOnStream csid := by
  have hunknown (format : Format) (csid : UInt32) : a.start? format csid = none ↔
      format ≠ .type0 ∧ ¬ Ended csid history := by
    rw [← h.header_iff, start?]
    split <;> simp_all
  constructor
  · intro hfails
    rcases a.step_cases stage input with hwait | ⟨taken, rest, next, completes, b, rfl, htakes⟩ |
      ⟨format, csid, n, hstage, hread, hstart, hfail⟩ | ⟨hhandshake, -⟩
    · rw [hwait] at hfails
      cases hfails
    · rw [htakes.step_eq] at hfails
      cases hfails
    · rw [hfail] at hfails
      cases hfails
      obtain ⟨hformat, hended⟩ := (hunknown format csid).mp hstart
      exact ⟨format, csid, n, hstage, hread, hformat, hended, rfl⟩
    · rw [hs] at hhandshake
      cases hhandshake
  · rintro ⟨format, csid, n, rfl, hread, hformat, hended, rfl⟩
    rw [step, readBasicHeader_of_read hread, (hunknown format csid).mpr ⟨hformat, hended⟩]

end Assembler

namespace Assembler

/-- A refusal leaves the reader as it was, and more input does not help. -/
theorem step_of_error {error : AssembleError} (h : Sound a stage chunk history)
    (fails : (a.step .firstByteBasicHeader input).1 = .error error) (more : Bytes) :
    a.step .firstByteBasicHeader (input ++ more) = (.error error, a) := by
  rcases a.step_cases .firstByteBasicHeader input with hwait |
    ⟨taken, rest, next, completes, b, rfl, htakes⟩ |
    ⟨format, csid, n, -, hread, hunknown, hfail⟩ | ⟨hhandshake, -⟩
  · rw [hwait] at fails
    cases fails
  · rw [htakes.step_eq] at fails
    cases fails
  · rw [hfail] at fails
    cases fails
    obtain ⟨m, hread⟩ := headed_iff.mp ((headed_iff.mpr ⟨n, hread⟩).append more)
    rw [step, readBasicHeader_of_read hread, hunknown]
    exact congrArg _ (opened_of_unknown h hunknown)
  · cases hhandshake

end Assembler

/-! ## A reader that has been refused -/

namespace Feed

variable {feed : Feed} {error : AssembleError}

/-- A reader that is at a chunk which goes on where none has ended. -/
structure Headless (feed : Feed) (csid : UInt32) : Prop where
  stage : feed.stage = .firstByteBasicHeader
  headed : ∃ format, Headed feed.buffer format csid ∧ format ≠ .type0
  first : ¬ Ended csid feed.history

/-- What is known of every reader. -/
structure Grounded (feed : Feed) : Prop where
  knows : feed.Knows
  remembers : Remembers feed.assembler feed.stage feed.chunk feed.history

theorem grounded_new : Grounded {} where
  knows := knows_new
  remembers := ⟨fun h => absurd rfl h, fun csid => by simp [not_ended_nil]⟩

/-- A message that is aborted has not ended. -/
theorem ended_abort_iff (csid other : UInt32) :
    Ended csid ((other, .aborted) :: history) ↔ Ended csid history := by
  simp [Ended]

theorem grounded_act (h : feed.Grounded) (action : Action) : (feed.act action).Grounded := by
  refine ⟨knows_act h.knows action, ?_⟩
  rcases act_cases h.knows action with
    ⟨taken, rest, next, completes, assembler, hbuffer, htakes, hact⟩ | ⟨csid, hact⟩ |
    ⟨maxSize, hact⟩
  · have hremembers := htakes.remembers h.remembers
    rw [hact]
    simp only [take, hbuffer, List.take_left]
    exact hremembers
  · rw [hact]
    exact ⟨h.remembers.csid_eq, fun other =>
      (h.remembers.header_iff other).trans (ended_abort_iff other csid).symm⟩
  · rw [hact]
    exact ⟨h.remembers.csid_eq, h.remembers.header_iff⟩

theorem grounded_run (actions : List Action) (h : feed.Grounded) : (feed.run actions).Grounded :=
  List.foldlRecOn actions act h fun _ h action _ => grounded_act h action

/-- A basic header is refused if it is whole and has nothing to build on. -/
theorem Grounded.refuses_iff (h : feed.Grounded) (input : Bytes) (error : AssembleError) :
    (feed.assembler.step .firstByteBasicHeader input).1 = .error error ↔
      ∃ format csid, Headed input format csid ∧ format ≠ .type0 ∧ ¬ Ended csid feed.history ∧
        error = .noPreviousChunkOnStream csid := by
  have hremembers : Remembers feed.assembler .firstByteBasicHeader feed.chunk feed.history :=
    ⟨fun hne => absurd rfl hne, h.remembers.header_iff⟩
  rw [Assembler.step_error_iff hremembers rfl]
  constructor
  · rintro ⟨format, csid, n, -, hread, hrefused⟩
    exact ⟨format, csid, headed_iff.mpr ⟨n, hread⟩, hrefused⟩
  · rintro ⟨format, csid, hheaded, hrefused⟩
    obtain ⟨n, hread⟩ := headed_iff.mp hheaded
    exact ⟨format, csid, n, rfl, hread, hrefused⟩

theorem Grounded.headless_iff (h : feed.Grounded) (error : AssembleError) :
    (∃ csid, feed.Headless csid ∧ error = .noPreviousChunkOnStream csid) ↔
      feed.stage = .firstByteBasicHeader ∧
        (feed.assembler.step feed.stage feed.buffer).1 = .error error := by
  constructor
  · rintro ⟨csid, ⟨hstage, ⟨format, hheaded, hformat⟩, hfirst⟩, herror⟩
    rw [hstage, h.refuses_iff]
    exact ⟨rfl, format, csid, hheaded, hformat, hfirst, herror⟩
  · rintro ⟨hstage, hfails⟩
    rw [hstage, h.refuses_iff] at hfails
    obtain ⟨format, csid, hheaded, hformat, hfirst, herror⟩ := hfails
    exact ⟨csid, ⟨hstage, ⟨format, hheaded, hformat⟩, hfirst⟩, herror⟩

/-- A reader without a header to build on stays where it is. -/
theorem Headless.step {csid : UInt32} (h : feed.Headless csid) (grounded : feed.Grounded) :
    feed.step = feed := by
  obtain ⟨hstage, hfails⟩ := (grounded.headless_iff _).mp ⟨csid, h, rfl⟩
  rw [hstage] at hfails
  have hstep := Assembler.step_of_error grounded.knows hfails []
  rw [List.append_nil, ← hstage] at hstep
  rw [Feed.step, hstep]

theorem Headless.act {csid : UInt32} (h : feed.Headless csid) (grounded : feed.Grounded)
    (action : Action) : (feed.act action).Headless csid ∧
      (feed.act action).buffer = feed.buffer ++ action.bytes ∧
      (feed.act action).assembler.headers = feed.assembler.headers := by
  cases action with
  | receive bytes =>
    obtain ⟨format, hheaded, hformat⟩ := h.headed
    exact ⟨⟨h.stage, ⟨format, hheaded.append bytes, hformat⟩, h.first⟩, rfl, rfl⟩
  | step =>
    rw [Feed.act, h.step grounded]
    exact ⟨h, (List.append_nil _).symm, rfl⟩
  | resize size =>
    rw [Feed.act, Assembler.setMaxSize]
    cases Size.ofNat? size with
    | none => exact ⟨h, (List.append_nil _).symm, rfl⟩
    | some bound => exact ⟨⟨h.stage, h.headed, h.first⟩, (List.append_nil _).symm, rfl⟩
  | abort other =>
    exact ⟨⟨h.stage, h.headed, mt (ended_abort_iff csid other).mp h.first⟩,
      (List.append_nil _).symm, rfl⟩

theorem Headless.run {csid : UInt32} (h : feed.Headless csid) (grounded : feed.Grounded)
    (actions : List Action) : (feed.run actions).Headless csid ∧
      (feed.run actions).buffer = feed.buffer ++ actions.flatMap (·.bytes) ∧
      (feed.run actions).assembler.headers = feed.assembler.headers := by
  induction actions generalizing feed with
  | nil => exact ⟨h, (List.append_nil _).symm, rfl⟩
  | cons action actions ih =>
    obtain ⟨hact, hbuffer, hheaders⟩ := h.act grounded action
    obtain ⟨hrun, hbuffer', hheaders'⟩ := ih hact (grounded_act grounded action)
    refine ⟨hrun, ?_, hheaders'.trans hheaders⟩
    rw [List.flatMap_cons, ← List.append_assoc, ← hbuffer]
    exact hbuffer'

/-- Whatever is done to a new reader: at the beginning of a chunk it refuses its input exactly if
that begins with a whole basic header of another type than 0 for a chunk stream on which no body has
been taken. Then it is still the reader that it was, and refuses its input again with anything
behind it. Once it has refused what it was fed, it takes nothing any more and remembers the headers
that it did, whatever else is done to it. -/
theorem headless_refused (actions : List Action) :
    let feed := ({} : Feed).run actions
    (∀ input error, (feed.assembler.step .firstByteBasicHeader input).1 = .error error ↔
      ∃ format csid, Headed input format csid ∧ format ≠ .type0 ∧ ¬ Ended csid feed.history ∧
        error = .noPreviousChunkOnStream csid) ∧
    (∀ input error, (feed.assembler.step .firstByteBasicHeader input).1 = .error error →
      ∀ more, feed.assembler.step .firstByteBasicHeader (input ++ more)
        = (.error error, feed.assembler)) ∧
    ∀ error, feed.stage = .firstByteBasicHeader →
      (feed.assembler.step feed.stage feed.buffer).1 = .error error → feed.step = feed ∧
        ∀ later, let after := feed.run later
          after.stage = feed.stage ∧ after.buffer = feed.buffer ++ later.flatMap (·.bytes) ∧
          after.assembler.headers = feed.assembler.headers ∧
          (after.assembler.step after.stage after.buffer).1 = .error error := by
  intro feed
  have hgrounded : feed.Grounded := grounded_run actions grounded_new
  refine ⟨hgrounded.refuses_iff, fun input error => Assembler.step_of_error hgrounded.knows, ?_⟩
  intro error hstage hfails
  obtain ⟨csid, hheadless, herror⟩ := (hgrounded.headless_iff error).mpr ⟨hstage, hfails⟩
  refine ⟨hheadless.step hgrounded, fun later => ?_⟩
  obtain ⟨hlater, hbuffer, hheaders⟩ := hheadless.run hgrounded later
  have hgrounded' := grounded_run later hgrounded
  obtain ⟨hstage', hfails'⟩ := (hgrounded'.headless_iff error).mp ⟨csid, hlater, herror⟩
  exact ⟨hstage'.trans hstage.symm, hbuffer, hheaders, hfails'⟩

/-- The first chunk of a message of two bytes, and a chunk that goes on elsewhere. -/
def goesOnElsewhere : List Action :=
  [.resize 1, .receive [3, 0, 0, 0, 0, 0, 2, 8, 1, 0, 0, 0, 0xaa], .step, .step, .step,
    .receive [0xc4]]

/-- The message is still unfinished after the refusal, and nothing gets the reader on. -/
theorem headless_refused_goesOnElsewhere :
    let feed := ({} : Feed).run goesOnElsewhere
    feed.step = feed ∧ feed.assembler.pending 3 = some [0xaa] ∧
      let after := feed.run [.receive [1, 2], .resize 5, .step]
      after.buffer = [0xc4, 1, 2] ∧
        (after.assembler.step after.stage after.buffer).1 = .error (.noPreviousChunkOnStream 4) := by
  obtain ⟨-, -, hrefused⟩ := headless_refused goesOnElsewhere
  obtain ⟨hstep, hlater⟩ := hrefused (.noPreviousChunkOnStream 4) rfl rfl
  obtain ⟨-, hbuffer, -, hfails⟩ := hlater [.receive [1, 2], .resize 5, .step]
  exact ⟨hstep, rfl, hbuffer, hfails⟩

end Feed

end RtmpEndpoint.Chunk
