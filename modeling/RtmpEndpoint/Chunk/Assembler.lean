import RtmpEndpoint.Buffer
import RtmpEndpoint.Chunk.Splitter
import RtmpEndpoint.ReadStage

/-!
# Assembling messages from chunks

The assembler takes one part of a chunk at a time. A step either consumes that part and names the
stage after it, or consumes nothing because part of it is still missing, so it does not matter how
the bytes were cut.
-/

namespace RtmpEndpoint.Chunk

inductive AssembleError where
  | noPreviousChunkOnStream (csid : UInt32)
  | invalidMaxChunkSize (size : Nat)
  | unexpectedStage (stage : ReadStage)
  deriving DecidableEq, Repr

def AssembleError.message : AssembleError → String
  | noPreviousChunkOnStream csid =>
    "Received chunk with non-zero chunk type on csid " ++ toString csid.toNat
      ++ " prior to receiving a type 0 chunk"
  | invalidMaxChunkSize size => invalidSizeMessage size
  | unexpectedStage stage =>
    "Chunk framer was asked to handle the non-chunk parse state " ++ stage.name

/-- The chunk being read. -/
structure Current where
  format : Format := .type0
  csid : UInt32 := 0
  header : Header := .blank
  deriving Repr

/-- What a step did. -/
inductive Progress where
  | needMoreData
  | advanced (consumed : Nat) (next : ReadStage)
  /-- The chunk completed a message; a basic header comes next. -/
  | completed (consumed : Nat) (payload : Payload)
  deriving DecidableEq, Repr

structure Assembler where
  maxSize : Size := .initial
  /-- The header of the last chunk whose body was consumed, by chunk stream. -/
  headers : Table Header := .empty
  /-- The chunk bodies that have arrived of an unfinished message, by chunk stream. -/
  unfinished : Table Buffer := .empty
  current : Current := {}

namespace Current

/-- Takes up the timestamp quantity of the header. -/
def applyTimestamp (current : Current) (field : UInt32) : Current :=
  let header := current.header
  let timestamp := match current.format with
    | .type0 => ⟨field⟩
    | _ => header.timestamp.advance field
  { current with header := { header with timestamp, timestampField := field } }

/-- Takes up the other fields of a message header. -/
def applyFields (current : Current) (fields : Bytes) : Current :=
  let header := current.header
  let kind : Header :=
    { header with
      length := Bytes.toNat ((fields.drop 3).take 3)
      tag := ⟨(fields.drop 6).headD 0⟩ }
  match current.format with
  | .type0 =>
    let streamId := Bytes.toNat ((fields.drop 7).take 4).reverse
    { current with header := { kind with streamId := UInt32.ofNat streamId } }
  | .type1 => { current with header := kind }
  | _ => current

end Current

namespace Assembler

/-- A header of another type than 3 opens a new message, so what was unfinished on its chunk stream
is dropped. All types but 0 build on the previous header. -/
def readBasicHeader (a : Assembler) (input : Bytes) :
    Except AssembleError Progress × Assembler :=
  match readBasicHeader? input with
  | none => (.ok .needMoreData, a)
  | some (format, csid, consumed) =>
    let a := if format = .type3 then a else { a with unfinished := a.unfinished.erase csid }
    match (if format = .type0 then some .blank else a.headers.get? csid) with
    | none => (.error (.noPreviousChunkOnStream csid), a)
    | some header =>
      let next :=
        if format = .type3 then
          if header.isExtended then .extendedTimestamp else .completeMessage
        else .chunkMessageHeader
      (.ok (.advanced consumed next), { a with current := ⟨format, csid, header⟩ })

def readMessageHeader (a : Assembler) (input : Bytes) : Progress × Assembler :=
  let size := a.current.format.headerSize
  match input.split? size with
  | none => (.needMoreData, a)
  | some (fields, _) =>
    let field := UInt32.ofNat (Bytes.toNat (fields.take 3))
    let current := a.current.applyFields fields
    if field = extendedMarker then
      let header := { current.header with timestampField := field }
      (.advanced size .extendedTimestamp, { a with current := { current with header } })
    else
      (.advanced size .completeMessage, { a with current := current.applyTimestamp field })

/-- A type 3 chunk repeats the extended timestamp, which says nothing new. -/
def readExtendedTimestamp (a : Assembler) (input : Bytes) : Progress × Assembler :=
  match input.split? 4 with
  | none => (.needMoreData, a)
  | some (field, _) =>
    let current :=
      if a.current.format = .type3 then a.current
      else a.current.applyTimestamp (UInt32.ofNat field.toNat)
    (.advanced 4 .completeMessage, { a with current })

/-- What has arrived of the message that the current chunk belongs to. -/
def received (a : Assembler) : Buffer := (a.unfinished.get? a.current.csid).getD .empty

/-- The length of the body of the current chunk. -/
def bodySize (a : Assembler) : Nat :=
  min (a.current.header.length - a.received.size) a.maxSize.value

def readBody (a : Assembler) (input : Bytes) : Progress × Assembler :=
  let csid := a.current.csid
  let header := a.current.header
  let size := a.bodySize
  match input.split? size with
  | none => (.needMoreData, a)
  | some (body, _) =>
    let received := a.received.push body
    let headers := a.headers.insert csid header
    if received.size = header.length then
      (.completed size ⟨header.timestamp, header.tag, header.streamId, received.bytes⟩,
        { a with headers, unfinished := a.unfinished.erase csid })
    else
      (.advanced size .firstByteBasicHeader,
        { a with headers, unfinished := a.unfinished.insert csid received })

/-- Takes the part of a chunk that the stage names off the front of the input. -/
def step (a : Assembler) (stage : ReadStage) (input : Bytes) :
    Except AssembleError Progress × Assembler :=
  match stage with
  | .firstByteBasicHeader => a.readBasicHeader input
  | .chunkMessageHeader =>
    let (progress, a) := a.readMessageHeader input
    (.ok progress, a)
  | .extendedTimestamp =>
    let (progress, a) := a.readExtendedTimestamp input
    (.ok progress, a)
  | .completeMessage =>
    let (progress, a) := a.readBody input
    (.ok progress, a)
  | .handshakeC0C1 | .handshakeC2 => (.error (.unexpectedStage stage), a)

/-- With fewer bytes the part that the stage names cannot be whole. -/
def needed (a : Assembler) : ReadStage → Nat
  | .firstByteBasicHeader => 1
  | .chunkMessageHeader => a.current.format.headerSize
  | .extendedTimestamp => 4
  | .completeMessage => a.bodySize
  | .handshakeC0C1 | .handshakeC2 => 0

theorem step_of_length_lt {a : Assembler} {stage : ReadStage} {input : Bytes}
    (h : input.length < a.needed stage) : a.step stage input = (.ok .needMoreData, a) := by
  cases stage with
  | firstByteBasicHeader =>
    obtain rfl : input = [] := List.length_eq_zero_iff.1 (by simpa [needed] using h)
    rfl
  | chunkMessageHeader =>
    have hs : input.split? a.current.format.headerSize = none := Bytes.split?_eq_none_iff.2 h
    simp [step, readMessageHeader, hs]
  | extendedTimestamp =>
    have hs : input.split? 4 = none := Bytes.split?_eq_none_iff.2 h
    simp [step, readExtendedTimestamp, hs]
  | completeMessage =>
    have hs : input.split? a.bodySize = none := Bytes.split?_eq_none_iff.2 h
    simp [step, readBody, hs]
  | handshakeC0C1 | handshakeC2 => simp [needed] at h

/-- Follows the peer's chunk size from the next chunk body on. -/
def setMaxSize (a : Assembler) (size : Nat) : Except AssembleError Assembler :=
  match Size.ofNat? size with
  | some size => .ok { a with maxSize := size }
  | none => .error (.invalidMaxChunkSize size)

/-- Drops what has arrived of an unfinished message. -/
def abort (a : Assembler) (csid : UInt32) : Assembler :=
  { a with unfinished := a.unfinished.erase csid }

/-! Each step shortens the input or leads to a stage of lower rank. -/

theorem step_advanced {a b : Assembler} {stage next : ReadStage} {input : Bytes} {n : Nat}
    (h : a.step stage input = (.ok (.advanced n next), b)) :
    n ≤ input.length ∧ (0 < n ∨ next.rank < stage.rank) := by
  unfold step at h
  split at h
  · unfold readBasicHeader at h
    split at h
    · simp at h
    · next format csid consumed hc =>
      obtain ⟨hpos, hle⟩ := readBasicHeader?_length hc
      dsimp only at h
      split at h
      · simp at h
      · simp only [Prod.mk.injEq, Except.ok.injEq, Progress.advanced.injEq] at h
        obtain ⟨⟨rfl, -⟩, -⟩ := h
        exact ⟨hle, .inl hpos⟩
  · simp only [readMessageHeader] at h
    split at h
    · simp at h
    · next fields rest hs =>
      have := Bytes.length_of_split? hs
      split at h <;> simp only [Prod.mk.injEq, Except.ok.injEq, Progress.advanced.injEq] at h <;>
        obtain ⟨⟨rfl, rfl⟩, -⟩ := h <;> exact ⟨by omega, .inr (by decide)⟩
  · simp only [readExtendedTimestamp] at h
    split at h
    · simp at h
    · next field rest hs =>
      have := Bytes.length_of_split? hs
      simp only [Prod.mk.injEq, Except.ok.injEq, Progress.advanced.injEq] at h
      obtain ⟨⟨rfl, -⟩, -⟩ := h
      exact ⟨by omega, .inl (by decide)⟩
  · simp only [readBody] at h
    split at h
    · simp at h
    · next body rest hs =>
      have := Bytes.length_of_split? hs
      split at h
      · simp at h
      · simp only [Prod.mk.injEq, Except.ok.injEq, Progress.advanced.injEq] at h
        obtain ⟨⟨rfl, rfl⟩, -⟩ := h
        exact ⟨by omega, .inr (by decide)⟩
  all_goals simp at h

theorem step_completed {a b : Assembler} {stage : ReadStage} {input : Bytes} {n : Nat}
    {payload : Payload} (h : a.step stage input = (.ok (.completed n payload), b)) :
    n ≤ input.length ∧ stage = .completeMessage := by
  unfold step at h
  split at h
  · unfold readBasicHeader at h
    split at h
    · simp at h
    · dsimp only at h
      split at h <;> simp at h
  · simp only [readMessageHeader] at h
    split at h
    · simp at h
    · split at h <;> simp at h
  · simp only [readExtendedTimestamp] at h
    split at h <;> simp at h
  · simp only [readBody] at h
    split at h
    · simp at h
    · next body rest hs =>
      have := Bytes.length_of_split? hs
      split at h <;> simp only [Prod.mk.injEq, Except.ok.injEq, Progress.completed.injEq] at h
      · obtain ⟨⟨rfl, -⟩, -⟩ := h
        exact ⟨by omega, rfl⟩
      · simp at h
  all_goals simp at h

/-- What a run over buffered bytes did. -/
structure Run where
  /-- Every step that consumed something or moved to another stage, with the stage before it. -/
  steps : List (ReadStage × Progress)
  stage : ReadStage
  /-- What no step has consumed. -/
  rest : Bytes
  failure : Option AssembleError
  assembler : Assembler

/-- The messages that were completed. -/
def Run.payloads (run : Run) : List Payload :=
  run.steps.filterMap fun
    | (_, .completed _ payload) => some payload
    | _ => none

/-- Steps over the input until more data is needed or a step fails, after the steps already
`taken` (last one first). -/
def runOnto (taken : List (ReadStage × Progress)) (a : Assembler) (stage : ReadStage)
    (input : Bytes) : Run :=
  match _h : a.step stage input with
  | (.error error, a) => ⟨taken.reverse, stage, input, some error, a⟩
  | (.ok .needMoreData, a) => ⟨taken.reverse, stage, input, none, a⟩
  | (.ok (.advanced consumed next), b) =>
    b.runOnto ((stage, .advanced consumed next) :: taken) next (input.drop consumed)
  | (.ok (.completed consumed payload), b) =>
    b.runOnto ((stage, .completed consumed payload) :: taken) .firstByteBasicHeader
      (input.drop consumed)
termination_by (input.length, stage.rank)
decreasing_by
  · obtain ⟨hle, hlt⟩ := step_advanced _h
    rw [Prod.lex_def]
    simp only [List.length_drop]
    omega
  · obtain ⟨hle, rfl⟩ := step_completed _h
    rw [Prod.lex_def]
    simp only [List.length_drop, ReadStage.rank]
    omega

def run (a : Assembler) (stage : ReadStage) (input : Bytes) : Run := a.runOnto [] stage input

end Assembler

end RtmpEndpoint.Chunk
