import RtmpEndpoint.Chunk.Assembler

/-!
# The history of a reader

A reader is fed in pieces, and told of new chunk sizes and aborted messages in between. The history
says what it took on each chunk stream, which bodies belong together and which length they should
come to.
-/

namespace RtmpEndpoint.Chunk

/-! ## Histories -/

/-- What happens on a chunk stream. -/
inductive Mark where
  /-- A basic header. -/
  | opened (format : Format) (bytes : Bytes)
  /-- A message header. -/
  | fields (format : Format) (bytes : Bytes)
  | extension (bytes : Bytes)
  | body (bytes : Bytes)
  | completed (payload : Payload)
  | aborted

/-- What happened on every chunk stream, the latest first. -/
abbrev History := List (UInt32 × Mark)

def Mark.bytes : Mark → Bytes
  | opened _ bytes | fields _ bytes | extension bytes | body bytes => bytes
  | completed _ | aborted => []

/-- All bytes that were taken, in order. -/
def bytesTaken : History → Bytes
  | [] => []
  | (_, mark) :: earlier => bytesTaken earlier ++ mark.bytes

/-- The bodies that belong together after this mark. -/
def Mark.collect (got : Bytes) : Mark → Bytes
  | opened format _ => if format = .type3 then got else []
  | fields .. | extension _ => got
  | body bytes => got ++ bytes
  | completed _ | aborted => []

/-- The message length in force after this mark. -/
def Mark.announce (length : Option Nat) : Mark → Option Nat
  | fields format bytes =>
    if format = .type0 ∨ format = .type1 then some (Bytes.toNat ((bytes.drop 3).take 3))
    else length
  | _ => length

/-- The bodies on a chunk stream since the latest of its last header of another type than 3, its
last completion and its last abort. -/
def collected (csid : UInt32) : History → Bytes
  | [] => []
  | (other, mark) :: earlier =>
    if other = csid then mark.collect (collected csid earlier) else collected csid earlier

/-- The message length of the last header of type 0 or 1 on a chunk stream. -/
def lengthInForce (csid : UInt32) : History → Option Nat
  | [] => none
  | (other, mark) :: earlier =>
    if other = csid then mark.announce (lengthInForce csid earlier) else lengthInForce csid earlier

/-- Each completed message is what was collected for it, at the length in force. -/
def Justified (history : History) : Prop :=
  ∀ csid payload earlier, (csid, Mark.completed payload) :: earlier <:+ history →
    payload.data = collected csid earlier ∧
      lengthInForce csid earlier = some payload.data.length

variable {csid other : UInt32} {mark : Mark} {history : History}

theorem collected_cons : collected csid ((other, mark) :: history)
    = if other = csid then mark.collect (collected csid history) else collected csid history :=
  rfl

theorem lengthInForce_cons : lengthInForce csid ((other, mark) :: history)
    = if other = csid then mark.announce (lengthInForce csid history)
      else lengthInForce csid history := rfl

theorem justified_nil : Justified [] := by
  intro csid payload earlier h
  simp at h

theorem Justified.cons (h : Justified history)
    (hmark : ∀ payload, mark = .completed payload →
      payload.data = collected csid history ∧
        lengthInForce csid history = some payload.data.length) :
    Justified ((csid, mark) :: history) := by
  intro other payload earlier hs
  rcases List.suffix_cons_iff.mp hs with heq | hs
  · cases heq
    exact hmark payload rfl
  · exact h other payload earlier hs

/-- A message header and its extension are no part of a message. -/
theorem collected_header (hmark : ∀ got, mark.collect got = got) :
    collected csid ((other, mark) :: history) = collected csid history := by
  rw [collected_cons, hmark, ite_self]

/-- Only a message header of type 0 or 1 announces a length. -/
theorem lengthInForce_other (hmark : ∀ length, mark.announce length = length) :
    lengthInForce csid ((other, mark) :: history) = lengthInForce csid history := by
  rw [lengthInForce_cons, hmark, ite_self]

/-! ## Feeding a reader -/

/-- The format and the chunk stream of bytes that were taken at a stage. Only a basic header says
so. -/
def named (chunk : Format × UInt32) (stage : ReadStage) (taken : Bytes) : Format × UInt32 :=
  match stage, readBasicHeader? taken with
  | .firstByteBasicHeader, some (format, csid, _) => (format, csid)
  | _, _ => chunk

/-- The mark of bytes that were taken at a stage. -/
def Mark.of (format : Format) (taken : Bytes) : ReadStage → Mark
  | .chunkMessageHeader => fields format taken
  | .extendedTimestamp => extension taken
  | .completeMessage => body taken
  | _ => opened format taken

/-- The history after bytes of this chunk were taken. -/
def extend (history : History) (chunk : Format × UInt32) (stage : ReadStage) (taken : Bytes) :
    Option Payload → History
  | none => (chunk.2, .of chunk.1 taken stage) :: history
  | some payload =>
    (chunk.2, .completed payload) :: (chunk.2, .of chunk.1 taken stage) :: history

theorem bytes_of (format : Format) (taken : Bytes) (stage : ReadStage) :
    (Mark.of format taken stage).bytes = taken := by
  cases stage <;> rfl

theorem bytesTaken_extend (chunk : Format × UInt32) (stage : ReadStage) (taken : Bytes)
    (completes : Option Payload) :
    bytesTaken (extend history chunk stage taken completes) = bytesTaken history ++ taken := by
  cases completes with
  | none => rw [extend, bytesTaken, bytes_of]
  | some payload => rw [extend, bytesTaken, bytesTaken, bytes_of, Mark.bytes, List.append_nil]

/-- A reader between two steps. -/
structure Feed where
  assembler : Assembler := {}
  stage : ReadStage := .firstByteBasicHeader
  /-- What has arrived and no step has taken. -/
  buffer : Bytes := []
  /-- What the last basic header said. -/
  chunk : Format × UInt32 := (.type0, 0)
  history : History := []

namespace Feed

/-- What can be done to a reader. -/
inductive Action where
  | receive (bytes : Bytes)
  | step
  | resize (size : Nat)
  | abort (csid : UInt32)

def Action.bytes : Action → Bytes
  | receive bytes => bytes
  | step | resize _ | abort _ => []

/-- The step took bytes and named the stage after it. -/
def take (feed : Feed) (n : Nat) (next : ReadStage) (completes : Option Payload)
    (assembler : Assembler) : Feed :=
  let taken := feed.buffer.take n
  let chunk := named feed.chunk feed.stage taken
  { assembler
    stage := next
    buffer := feed.buffer.drop n
    chunk
    history := extend feed.history chunk feed.stage taken completes }

/-- A step that waits or fails leaves its bytes and its stage. -/
def step (feed : Feed) : Feed :=
  match feed.assembler.step feed.stage feed.buffer with
  | (.ok (.advanced n next), assembler) => feed.take n next none assembler
  | (.ok (.completed n payload), assembler) =>
    feed.take n .firstByteBasicHeader (some payload) assembler
  | (.ok .needMoreData, assembler) => { feed with assembler }
  | (.error _, assembler) => { feed with assembler }

/-- A chunk size that is refused changes nothing. -/
def act (feed : Feed) : Action → Feed
  | .receive bytes => { feed with buffer := feed.buffer ++ bytes }
  | .step => feed.step
  | .resize size =>
    match feed.assembler.setMaxSize size with
    | .ok assembler => { feed with assembler }
    | .error _ => feed
  | .abort csid =>
    { feed with
      assembler := feed.assembler.abort csid
      history := (csid, .aborted) :: feed.history }

def run (feed : Feed) (actions : List Action) : Feed := actions.foldl act feed

end Feed

end RtmpEndpoint.Chunk
