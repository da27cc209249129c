import RtmpEndpoint.Proofs.Connection.Closing
import RtmpEndpoint.Proofs.Connection.Counting

/-!
# How large the chunks of the peer are

The peer's chunk size is kept twice. The assembler cuts bodies by it, and the reader asks the socket
for as much as four such chunks. One message sets it, and sets both or neither: in every state of a
receiver the two are the same.
-/

namespace RtmpEndpoint

namespace Chunk

namespace Assembler

variable {a : Assembler}

theorem setMaxSize_of_some {n : Nat} {size : Size} (h : Size.ofNat? n = some size) :
    a.setMaxSize n = .ok { a with maxSize := size } := by
  rw [setMaxSize, h]

theorem setMaxSize_of_none {n : Nat} (h : Size.ofNat? n = none) :
    a.setMaxSize n = .error (.invalidMaxChunkSize n) := by
  rw [setMaxSize, h]

theorem maxSize_readBasicHeader (a : Assembler) (input : Bytes) :
    (a.readBasicHeader input).2.maxSize = a.maxSize := by
  unfold readBasicHeader
  split
  · rfl
  · dsimp only
    split <;> split <;> rfl

theorem maxSize_readMessageHeader (a : Assembler) (input : Bytes) :
    (a.readMessageHeader input).2.maxSize = a.maxSize := by
  unfold readMessageHeader
  dsimp only
  split
  · rfl
  · split <;> rfl

theorem maxSize_readExtendedTimestamp (a : Assembler) (input : Bytes) :
    (a.readExtendedTimestamp input).2.maxSize = a.maxSize := by
  unfold readExtendedTimestamp
  split <;> rfl

theorem maxSize_readBody (a : Assembler) (input : Bytes) :
    (a.readBody input).2.maxSize = a.maxSize := by
  unfold readBody
  dsimp only
  split
  · rfl
  · split <;> rfl

/-- However chunks are taken apart, they do not change the size that they are cut by. -/
theorem maxSize_step (a : Assembler) (stage : ReadStage) (input : Bytes) :
    (a.step stage input).2.maxSize = a.maxSize := by
  cases stage with
  | firstByteBasicHeader => exact maxSize_readBasicHeader a input
  | chunkMessageHeader => exact maxSize_readMessageHeader a input
  | extendedTimestamp => exact maxSize_readExtendedTimestamp a input
  | completeMessage => exact maxSize_readBody a input
  | handshakeC0C1 | handshakeC2 => rfl

end Assembler

end Chunk

/-! ## Messages -/

namespace Link

variable {link : Link} {payload : Payload}

/-- The size that bodies are cut by, and what is known of the size of reads. -/
def sizes (link : Link) : Chunk.Size × Flow.ReadSize := (link.assembler.maxSize, link.readSize)

/-- The chunk size that a message sets. -/
def chunkSize? (payload : Payload) : Option Chunk.Size :=
  if payload.tag = .setChunkSize ∧ 4 ≤ payload.data.length then
    Chunk.Size.ofNat? (Bytes.toNat (payload.data.take 4) % 2 ^ 31)
  else none

/-- What is wrong with a message that should set the chunk size and does not. -/
def refusal (payload : Payload) : ConnectionError :=
  if payload.data.length < 4 then .control .unexpectedEndOfPayload
  else .framing (.invalidMaxChunkSize 0)

/-- The link once a chunk size has been accepted. -/
def resize (size : Chunk.Size) (link : Link) : Link :=
  { link with
    assembler := { link.assembler with maxSize := size }
    readSize := link.readSize.setChunk size.value }

theorem setReadChunkSize_some {size : UInt32} {accepted : Chunk.Size}
    (h : Chunk.Size.ofNat? size.toNat = some accepted) :
    setReadChunkSize size link = (.ok (), link.resize accepted) := by
  have hvalue : accepted.value = size.toNat := by
    unfold Chunk.Size.ofNat? at h
    split at h <;> cases h
    rfl
  rw [setReadChunkSize_accepted (Chunk.Assembler.setMaxSize_of_some h), resize, hvalue]

/-- Of the sizes of 31 bits only zero is out of range. -/
theorem setReadChunkSize_none {size : UInt32} (h : Chunk.Size.ofNat? size.toNat = none)
    (hlt : size.toNat < 2 ^ 31) :
    setReadChunkSize size link = (.error (.framing (.invalidMaxChunkSize 0)), link) := by
  have hzero : size.toNat = 0 := by
    refine Nat.eq_zero_of_not_pos fun hpos => ?_
    rw [Chunk.Size.ofNat?, dif_pos ⟨hpos, by omega⟩] at h
    cases h
  rw [setReadChunkSize_refused (Chunk.Assembler.setMaxSize_of_none h), hzero]

theorem deliver_setChunkSize (htag : payload.tag = .setChunkSize) :
    deliver payload = obeyControl (Message.decode .setChunkSize payload.data) := by
  rw [deliver_eq, htag]
  exact if_pos rfl

theorem deliver_resizes {size : Chunk.Size} (h : chunkSize? payload = some size) :
    deliver payload link = (.ok (), link.resize size) := by
  unfold chunkSize? at h
  split at h
  · next hsets =>
    obtain ⟨htag, hwhole⟩ := hsets
    obtain ⟨value, hdecode, hvalue⟩ := (Message.decode_setChunkSize payload.data).2 hwhole
    rw [deliver_setChunkSize htag, hdecode]
    exact setReadChunkSize_some (hvalue ▸ h)
  · cases h

/-- A message that should set the chunk size and does not fails and changes nothing. -/
theorem deliver_refused (htag : payload.tag = .setChunkSize) (h : chunkSize? payload = none) :
    deliver payload link = (.error (refusal payload), link) := by
  obtain ⟨hshort, hwhole⟩ := Message.decode_setChunkSize payload.data
  rw [deliver_setChunkSize htag, refusal]
  by_cases hlen : payload.data.length < 4
  · rw [hshort hlen, if_pos hlen]
    rfl
  · obtain ⟨value, hdecode, hvalue⟩ := hwhole (Nat.le_of_not_lt hlen)
    rw [chunkSize?, if_pos ⟨htag, Nat.le_of_not_lt hlen⟩, ← hvalue] at h
    have hlt : value.toNat < 2 ^ 31 := by
      rw [hvalue]
      exact Nat.mod_lt _ (by decide)
    rw [hdecode, if_neg hlen]
    exact setReadChunkSize_none h hlt

theorem sizes_onSession {α : Type} (x : Session.Action α) (link : Link) :
    (onSession x link).2.sizes = link.sizes := by
  unfold onSession Transition.focus
  split <;> rfl

theorem sizes_answer (x : Session.Action Nat) (link : Link) :
    ((do let _ ← onSession x : Action Unit) link).2.sizes = link.sizes := by
  rw [answer_eq]
  exact sizes_onSession _ link

theorem sizes_setPeerBandwidth (size : UInt32) (limit : BandwidthLimit) (link : Link) :
    (setPeerBandwidth size limit link).2.sizes = link.sizes := by
  cases ha : link.window.accepts size limit with
  | false => rw [setPeerBandwidth_ignored ha]
  | true =>
    rw [setPeerBandwidth_accepted ha]
    exact sizes_answer _ _

theorem sizes_control {message : Message} (h : ∀ size, message ≠ .setChunkSize size)
    (link : Link) : (control message link).2.sizes = link.sizes := by
  cases message with
  | setChunkSize size => exact absurd rfl (h size)
  | setPeerBandwidth size limit => exact sizes_setPeerBandwidth size limit link
  | acknowledgement | abort | windowAcknowledgementSize | userControl | audio | video | command
  | data | unknown => rfl

theorem sizes_answerPing (decoded : Except Message.DecodeError Message) (link : Link) :
    (answerPing decoded link).2.sizes = link.sizes := by
  unfold answerPing
  split
  · exact sizes_answer _ link
  · rfl

theorem sizes_deliver_other (htag : payload.tag ≠ .setChunkSize) (link : Link) :
    (deliver payload link).2.sizes = link.sizes := by
  rw [deliver_eq]
  split
  · cases hdecode : Message.decode payload.tag payload.data with
    | error error => rfl
    | ok message =>
      refine sizes_control ?_ link
      rintro size rfl
      exact htag (Session.tag_decode hdecode)
  · split
    · exact sizes_answerPing _ link
    · rfl

/-- What a message does to both sizes: it sets them, or it leaves them. -/
theorem sizes_deliver (payload : Payload) (link : Link) :
    (deliver payload link).2.sizes
      = match chunkSize? payload with
        | some size => (link.resize size).sizes
        | none => link.sizes := by
  cases h : chunkSize? payload with
  | some size => rw [deliver_resizes h]
  | none =>
    by_cases htag : payload.tag = .setChunkSize
    · rw [deliver_refused htag h]
    · exact sizes_deliver_other htag link

theorem deliverAll_append (before after : List Payload) :
    deliverAll (before ++ after) = (do deliverAll before; deliverAll after) := by
  induction before with
  | nil => rfl
  | cons payload before ih =>
    funext link
    rw [List.cons_append, deliverAll, deliverAll, ih]
    simp only [Transition.bind_apply]
    cases deliver payload link with
    | mk result next => cases result <;> rfl

/-- However it comes, a message that should set the chunk size and does not ends what it is part of.
The messages after it are not taken, and it changes nothing itself. -/
theorem receive_refused {bad : Payload} {before after : List Payload}
    (hparts : parts payload = before ++ bad :: after) (htag : bad.tag = .setChunkSize)
    (h : chunkSize? bad = none) (link : Link) :
    ∃ error, receive payload link = (.error error, (deliverAll before link).2) := by
  rw [receive_eq, hparts, deliverAll_append]
  rcases then_cases (deliverAll before) (deliverAll (bad :: after)) link with
    ⟨error, -, hrun⟩ | ⟨-, hrun⟩
  · exact ⟨error, hrun⟩
  · refine ⟨refusal bad, ?_⟩
    rw [hrun, deliverAll, Transition.bind_error (deliver_refused htag h)]

theorem sizes_recordReceived (bytes : Nat) (link : Link) :
    (recordReceived bytes link).2.sizes = link.sizes := by
  unfold recordReceived
  dsimp only
  split
  · rfl
  · split <;> rfl

/-- Both sizes are for the same chunks, and the rest of the read size is as given. -/
structure Sized (handshake : Nat) (isComplete : Bool) (link : Link) : Prop where
  chunk : link.readSize.chunk = link.assembler.maxSize.value
  handshake : link.readSize.handshake = handshake
  isComplete : link.readSize.isHandshakeComplete = isComplete

variable {handshake : Nat} {isComplete : Bool}

theorem Sized.of_sizes {next : Link} (h : link.Sized handshake isComplete)
    (hsizes : next.sizes = link.sizes) : next.Sized handshake isComplete := by
  obtain ⟨hsize, hread⟩ := Prod.mk.inj hsizes
  constructor
  · rw [hread, hsize]
    exact h.chunk
  · rw [hread]
    exact h.handshake
  · rw [hread]
    exact h.isComplete

theorem Sized.resize (h : link.Sized handshake isComplete) (size : Chunk.Size) :
    (link.resize size).Sized handshake isComplete :=
  ⟨rfl, h.handshake, h.isComplete⟩

theorem Sized.deliver (h : link.Sized handshake isComplete) (payload : Payload) :
    (Link.deliver payload link).2.Sized handshake isComplete := by
  have hsizes := sizes_deliver payload link
  cases hset : chunkSize? payload with
  | some size =>
    rw [hset] at hsizes
    exact (h.resize size).of_sizes hsizes
  | none =>
    rw [hset] at hsizes
    exact h.of_sizes hsizes

theorem Sized.deliverAll (h : link.Sized handshake isComplete) (payloads : List Payload) :
    (Link.deliverAll payloads link).2.Sized handshake isComplete := by
  induction payloads generalizing link with
  | nil => exact h
  | cons payload rest ih =>
    have hfirst := h.deliver payload
    rcases then_cases (Link.deliver payload) (Link.deliverAll rest) link with
      ⟨error, -, hrun⟩ | ⟨-, hrun⟩
    · rw [Link.deliverAll, hrun]
      exact hfirst
    · rw [Link.deliverAll, hrun]
      exact ih hfirst

/-- Whatever a message is, the two sizes are for the same chunks after it. -/
theorem Sized.receive (h : link.Sized handshake isComplete) (payload : Payload) :
    (Link.receive payload link).2.Sized handshake isComplete := by
  rw [receive_eq]
  exact h.deliverAll _

end Link

/-! ## Receivers -/

def Phase.isChunking : Phase → Bool
  | .handshaking _ => false
  | .chunking => true

theorem Phase.eq_chunking {phase : Phase} (h : phase.isChunking = true) : phase = .chunking := by
  cases phase with
  | chunking => rfl
  | handshaking => cases h

namespace Receiver

variable {first r s : Receiver} {handshake : Nat}

/-- What a receiver can become while others use its session. -/
inductive ComesTo (first : Receiver) : Receiver → Prop where
  | start : ComesTo first first
  | on {r s : Receiver} (h : ComesTo first r) (hs : Reaches r s) : ComesTo first s
  | meanwhile {r : Receiver} (h : ComesTo first r) (session : Session) :
      ComesTo first (r.withSession session)

/-- Also if it fails. -/
theorem ComesTo.process (h : ComesTo first r) (input : Bytes) :
    ComesTo first (process input r).2 :=
  h.on (reaches_processOnto 0 (.push .refl input))

/-- The sizes of a receiver are for the same chunks, and the handshake is over for both. -/
def Sized (handshake : Nat) (r : Receiver) : Prop := r.link.Sized handshake r.phase.isChunking

theorem sized_takeC0C1 (h : r.Sized handshake) {judge : Handshake}
    (hp : r.phase = .handshaking judge) : (takeC0C1 judge r).2.Sized handshake := by
  unfold Sized at h
  rw [hp] at h
  rw [takeC0C1_eq]
  unfold Receiver.judge
  split
  · rwa [Sized, hp]
  · rwa [Sized, hp]
  · next judged _ =>
    have hsent := Link.sizes_onSession (sendReply judged.1) r.link
    dsimp only
    cases hrun : Link.onSession (sendReply judged.1) r.link with
    | mk answer link =>
      rw [hrun] at hsent
      cases answer <;> exact h.of_sizes hsent

theorem sized_takeC2 (h : r.Sized handshake) (judge : Handshake) :
    (takeC2 judge r).2.Sized handshake := by
  rw [takeC2_eq]
  unfold Receiver.judge
  split
  · exact h
  · exact h
  · exact ⟨h.chunk, h.handshake, rfl⟩

/-- Taking a part of a chunk takes a message at most. -/
theorem sized_afterPart (h : r.Sized handshake)
    {result : Except Chunk.AssembleError Chunk.Progress × Chunk.Assembler}
    (hsize : result.2.maxSize = r.link.assembler.maxSize) :
    (afterPart r result).2.Sized handshake := by
  have hlink : { r.link with assembler := result.2 }.Sized handshake r.phase.isChunking :=
    ⟨by rw [hsize]; exact h.chunk, h.handshake, h.isComplete⟩
  obtain ⟨progress, assembler⟩ := result
  cases progress with
  | error error => exact hlink
  | ok progress =>
    cases progress with
    | needMoreData | advanced => exact hlink
    | completed consumed payload =>
      have hnext := hlink.receive payload
      dsimp only [afterPart]
      cases hrun : Link.receive payload { r.link with assembler } with
      | mk answer link =>
        rw [hrun] at hnext
        cases answer <;> exact hnext

theorem Sized.step (h : r.Sized handshake) : (Receiver.step r).2.Sized handshake := by
  unfold Receiver.step
  split
  · next hp _ => exact sized_takeC0C1 h hp
  · exact sized_takeC2 h _
  · exact h
  · rw [takeChunkPart_eq]
    exact sized_afterPart h (Chunk.Assembler.maxSize_step _ _ _)

theorem Sized.reaches (h : r.Sized handshake) (hs : Reaches r s) : s.Sized handshake := by
  induction hs with
  | refl => exact h
  | push hs input ih => exact ih
  | step hs ih => exact ih.step
  | counted hs bytes ih => exact ih.of_sizes (Link.sizes_recordReceived bytes _)

theorem Sized.comesTo (hfirst : first.Sized handshake) (h : ComesTo first r) :
    r.Sized handshake := by
  induction h with
  | start => exact hfirst
  | on h hs ih => exact ih.reaches hs
  | meanwhile h session ih => exact ⟨ih.chunk, ih.handshake, ih.isComplete⟩

theorem sized_accept (session : Session) (nonce : Nonce) (capacity : Nat) :
    (Connection.accept session nonce capacity).receiver.Sized session.config.handshakeReadSize :=
  ⟨rfl, rfl, rfl⟩

/-- A step that completes a message takes it, with the size that the chunks were cut by. -/
theorem step_of_completes {payload : Payload} (h : r.completes? = some payload) :
    ∃ assembler : Chunk.Assembler, assembler.maxSize = r.link.assembler.maxSize ∧
      (step r).2.link = (Link.receive payload { r.link with assembler }).2 ∧
      ∀ error, (Link.receive payload { r.link with assembler }).1 = .error error →
        (step r).1 = .error error := by
  cases hp : r.phase with
  | handshaking judge => cases h.symm.trans (completes?_handshaking hp)
  | chunking =>
    have hsize := r.link.assembler.maxSize_step r.stage r.buffer.bytes
    rw [completes?_chunking hp] at h
    rw [step_chunking hp]
    cases hpart : r.link.assembler.step r.stage r.buffer.bytes with
    | mk progress assembler =>
      rw [hpart] at h hsize
      refine ⟨assembler, hsize, ?_⟩
      split at h
      · next consumed completed heq =>
        obtain rfl : progress = .ok (.completed consumed completed) := heq
        cases h
        dsimp only [afterPart]
        cases Link.receive payload { r.link with assembler } with
        | mk answer link =>
          cases answer with
          | ok => exact ⟨rfl, fun _ hfails => by cases hfails⟩
          | error error =>
            refine ⟨rfl, fun _ hfails => ?_⟩
            cases hfails
            rfl
      · cases h

/-- In every state of a receiver after the handshake bodies are cut by the size that reads are asked
for by, and that is a size that a chunk can have. A message that sets it sets it in both places. One
that should and does not changes nothing, and it ends the message that it is part of: the sizes are
then as the parts before it have left them. -/
theorem sizes_agree {session : Session} {nonce : Nonce} {capacity : Nat}
    (h : ComesTo (Connection.accept session nonce capacity).receiver r) (hp : r.phase = .chunking) :
    let size := r.link.assembler.maxSize.value
    (1 ≤ size ∧ size ≤ 0x7fffffff) ∧ r.link.readSize.chunk = size ∧
    r.link.readSize.next = min (4 * (size + 11)) 1048576 ∧
    (∀ payload : Payload, payload.tag = .setChunkSize →
      Link.receive payload r.link = match Link.chunkSize? payload with
        | some accepted => (.ok (), r.link.resize accepted)
        | none => (.error (Link.refusal payload), r.link)) ∧
    ∀ payload before bad after, r.completes? = some payload →
      Link.parts payload = before ++ bad :: after → bad.tag = .setChunkSize →
      Link.chunkSize? bad = none → (∃ error, (step r).1 = .error error) ∧
        ∃ assembler : Chunk.Assembler, assembler.maxSize = r.link.assembler.maxSize ∧
          (step r).2.link = (Link.deliverAll before { r.link with assembler }).2 ∧
          (before = [] → (step r).2.link.sizes = r.link.sizes) := by
  intro size
  have hsized := (sized_accept session nonce capacity).comesTo h
  have hcomplete : r.link.readSize.isHandshakeComplete = true := by
    rw [hsized.isComplete, hp]
    rfl
  refine ⟨⟨r.link.assembler.maxSize.pos, r.link.assembler.maxSize.le⟩, hsized.chunk, ?_,
    fun payload htag => ?_, fun payload before bad after hcompletes hparts htag hrefused => ?_⟩
  · rw [Flow.ReadSize.next, if_pos hcomplete, hsized.chunk]
    rfl
  · have hdirect : Link.receive payload = Link.deliver payload := by
      rw [Link.receive, htag]
      rfl
    rw [hdirect]
    cases hset : Link.chunkSize? payload with
    | some accepted => exact Link.deliver_resizes hset
    | none => exact Link.deliver_refused htag hset
  · obtain ⟨assembler, hsize, hlink, hfails⟩ := step_of_completes hcompletes
    obtain ⟨error, hreceive⟩ :=
      Link.receive_refused hparts htag hrefused { r.link with assembler }
    rw [hreceive] at hlink hfails
    refine ⟨⟨error, hfails error rfl⟩, assembler, hsize, hlink, fun hdirect => ?_⟩
    rw [hlink, hdirect]
    exact Prod.ext hsize rfl

/-- An aggregate in a chunk. Its first message sets a chunk size, its second one sets none. -/
def goodAndBadSize : Bytes :=
  [2, 0, 0, 0, 0, 0, 38, 22, 0, 0, 0, 0] ++
    [1, 0, 0, 4, 0, 0, 0, 0, 0, 0, 0] ++ [0, 0, 16, 0] ++ [0, 0, 0, 15] ++
    [1, 0, 0, 4, 0, 0, 0, 0, 0, 0, 0] ++ [0, 0, 0, 0] ++ [0, 0, 0, 15]

/-- The handshake is over, and the body of the aggregate comes next. -/
def beforeAggregate : Receiver :=
  (step (step (step (greeted.push (sevens.bytes ++ goodAndBadSize))).2).2).2

theorem comesTo_beforeAggregate :
    ComesTo (Connection.accept {} sevens 65536).receiver beforeAggregate :=
  .on .start (.step (.step (.step (.push (.step (.push .refl _)) _))))

/-- The good size is kept in both places, although the message fails. -/
theorem sizes_agree_goodAndBadSize :
    ∃ payload before bad after, beforeAggregate.completes? = some payload ∧
      payload.tag = .aggregate ∧ Link.parts payload = before ++ bad :: after ∧
      bad.tag = .setChunkSize ∧ Link.chunkSize? bad = none ∧
      beforeAggregate.link.assembler.maxSize.value = 128 ∧
      beforeAggregate.link.readSize.next = 556 ∧
      (∃ error, (step beforeAggregate).1 = .error error) ∧
      (step beforeAggregate).2.link.assembler.maxSize.value = 4096 ∧
      (step beforeAggregate).2.link.readSize.next = 16428 := by
  let good : Payload := ⟨⟨0⟩, .setChunkSize, 0, [0, 0, 16, 0]⟩
  let bad : Payload := ⟨⟨0⟩, .setChunkSize, 0, [0, 0, 0, 0]⟩
  let aggregate : Payload := ⟨⟨0⟩, .aggregate, 0, goodAndBadSize.drop 12⟩
  have hruns : beforeAggregate.phase.isChunking = true ∧
      beforeAggregate.completes? = some aggregate ∧
      Link.parts aggregate = [good] ++ [bad] ∧
      beforeAggregate.link.assembler.maxSize.value = 128 ∧
      (step beforeAggregate).2.link.assembler.maxSize.value = 4096 := by
    decide +kernel
  obtain ⟨hchunking, hcompletes, hparts, hbefore, hafter⟩ := hruns
  have hphase := Phase.eq_chunking hchunking
  have hstill := (Reaches.step .refl).chunking hphase
  have hrefused : Link.chunkSize? bad = none := by decide
  obtain ⟨-, -, hnext, -, hends⟩ := sizes_agree comesTo_beforeAggregate hphase
  obtain ⟨hfails, -⟩ := hends aggregate [good] bad [] hcompletes hparts rfl hrefused
  obtain ⟨-, -, hlast, -⟩ := sizes_agree (comesTo_beforeAggregate.on (.step .refl)) hstill
  rw [hbefore] at hnext
  rw [hafter] at hlast
  exact ⟨aggregate, [good], bad, [], hcompletes, rfl, hparts, rfl, hrefused, hbefore, hnext, hfails,
    hafter, hlast⟩

end Receiver

end RtmpEndpoint
