import RtmpEndpoint.Proofs.Chunk.Headless
import RtmpEndpoint.Proofs.Connection.Effects
import RtmpEndpoint.Proofs.Connection.Opening

/-!
# What ends a connection

Little of what a peer can send is an error to the receiver: a chunk that goes on where no chunk has
been, a malformed message of a protocol control type, and a chunk size of zero. Everything else that
is malformed, refused or answered with an error by a controller is dropped or replied to, and the
receiver goes on.
-/

namespace RtmpEndpoint

/-! ## What a receiver fails with -/

namespace Receiver

open RtmpEndpoint.Chunk (Ended Format History)

/-- A receiver with the chunks that it has taken. -/
structure Traced where
  receiver : Receiver
  /-- What the last basic header said. -/
  chunk : Format × UInt32 := (.type0, 0)
  history : History := []

namespace Traced

def push (input : Bytes) (t : Traced) : Traced := { t with receiver := t.receiver.push input }

/-- The receiver took the first bytes of its buffer, and is another one after it. -/
def took (n : Nat) (receiver : Receiver) (t : Traced) : Traced :=
  let taken := t.receiver.buffer.bytes.take n
  let chunk := Chunk.named t.chunk t.receiver.stage taken
  { receiver, chunk
    history := Chunk.extend t.history chunk t.receiver.stage taken t.receiver.completes? }

end Traced

variable {t u : Traced} {r : Receiver} {n : Nat} {error : ConnectionError}

/-- The states that a receiver comes to behind the handshake: input comes in, it takes steps, and it
counts what it has taken while others use its session. -/
inductive Reached : Traced → Prop where
  | opened (session : Session) (readSize : Flow.ReadSize) (chunks : List Flow.QueuedChunk) :
      Reached { receiver := opened session readSize chunks }
  | push {t : Traced} (h : Reached t) (input : Bytes) : Reached (t.push input)
  | step {t : Traced} {n : Nat} {r : Receiver} (h : Reached t)
      (hs : step t.receiver = (.ok (some n), r)) : Reached (t.took n r)
  | meanwhile {t : Traced} (h : Reached t) (window : Flow.Window) (session : Session) :
      Reached { t with
        receiver := { t.receiver with link := { t.receiver.link with window, session } } }

/-- Steps that succeed lead on. -/
inductive Goes : Traced → Traced → Prop where
  | here (t : Traced) : Goes t t
  | on {t u : Traced} {n : Nat} {r : Receiver} (hs : step t.receiver = (.ok (some n), r))
      (h : Goes (t.took n r) u) : Goes t u

/-- What the receiver takes next ends the connection with this error: a chunk that goes on where
none has ended, or a message with a part that breaks the connection. -/
inductive Violates (t : Traced) : ConnectionError → Prop where
  | headless {format : Format} {csid : UInt32} {n : Nat}
      (stage : t.receiver.stage = .firstByteBasicHeader)
      (read : Chunk.readBasicHeader? t.receiver.buffer.bytes = some (format, csid, n))
      (goesOn : format ≠ .type0) (first : ¬ Ended csid t.history) :
      Violates t (.framing (.noPreviousChunkOnStream csid))
  | message {payload : Payload} {error : ConnectionError}
      (completes : t.receiver.completes? = some payload)
      (broken : Link.Broken (Link.parts payload) error) : Violates t error

/-- What is known of a receiver behind the handshake. -/
structure Running (t : Traced) : Prop where
  phase : t.receiver.phase = .chunking
  stage : t.receiver.stage.isHandshake = false
  remembers : Chunk.Remembers t.receiver.link.assembler t.receiver.stage t.chunk t.history

/-- A step fails with what it violates. -/
theorem Running.step_error_iff (h : Running t) (hopen : t.receiver.queue.isOpen = true) :
    (Receiver.step t.receiver).1 = .error error ↔ Violates t error := by
  obtain ⟨r, chunk, history⟩ := t
  obtain ⟨hphase, hstage, hremembers⟩ := h
  dsimp only at hphase hstage hremembers hopen ⊢
  have hfails := Chunk.Assembler.step_error_iff hremembers hstage r.buffer.bytes
  rw [step_chunking hphase]
  cases hs : r.link.assembler.step r.stage r.buffer.bytes with
  | mk progress assembler =>
    have hcompletes := completes?_chunking hphase
    rw [hs] at hfails hcompletes
    -- A chunk that goes on where none has ended can only be read where the assembler fails.
    have hheadless : Violates ⟨r, chunk, history⟩ error ↔
        (∃ failure, progress = .error failure ∧ error = .framing failure) ∨
        ∃ payload, r.completes? = some payload ∧ Link.Broken (Link.parts payload) error := by
      constructor
      · rintro (⟨stage, read, goesOn, first⟩ | ⟨completes, broken⟩)
        · exact .inl ⟨_, (hfails _).mpr ⟨_, _, _, stage, read, goesOn, first, rfl⟩, rfl⟩
        · exact .inr ⟨_, completes, broken⟩
      · rintro (⟨failure, hfailure, rfl⟩ | ⟨payload, completes, broken⟩)
        · obtain ⟨format, csid, n, stage, read, goesOn, first, rfl⟩ := (hfails _).mp hfailure
          exact .headless stage read goesOn first
        · exact .message completes broken
    rw [hheadless, hcompletes]
    cases progress with
    | error failure => simp [afterPart, eq_comm]
    | ok progress =>
      cases progress with
      | needMoreData => simp [afterPart]
      | advanced consumed next => simp [afterPart]
      | completed consumed payload =>
        have hreceive :=
          (Link.heeds_receive payload { r.link with assembler }).fails _ hopen error
        have hresult : (afterPart r (.ok (.completed consumed payload), assembler)).1
            = .error error ↔ (Link.receive payload { r.link with assembler }).1 = .error error := by
          rw [afterPart]
          cases Link.receive payload { r.link with assembler } with
          | mk result link => cases result <;> simp
        rw [hresult, hreceive]
        simp

/-- A step that succeeds leaves the receiver with what it knows. -/
theorem Running.took (h : Running t) (hs : Receiver.step t.receiver = (.ok (some n), r)) :
    Running (t.took n r) := by
  obtain ⟨s, chunk, history⟩ := t
  obtain ⟨hphase, -, hremembers⟩ := h
  dsimp only at hphase hremembers hs
  have hcompletes := completes?_chunking hphase
  rw [step_chunking hphase] at hs
  cases hp : s.link.assembler.step s.stage s.buffer.bytes with
  | mk progress assembler =>
    rw [hp] at hs hcompletes
    cases progress with
    | error failure => cases hs
    | ok progress =>
      cases progress with
      | needMoreData => cases hs
      | advanced consumed next =>
        cases hs
        obtain ⟨taken, rest, hbytes, rfl, htakes⟩ := Chunk.Assembler.takes_of_advanced hp
        refine ⟨hphase, isHandshake_of_takes htakes, ?_⟩
        simp only [Traced.took, hbytes, List.take_left, hcompletes]
        exact htakes.remembers hremembers
      | completed consumed payload =>
        obtain ⟨taken, rest, hbytes, rfl, htakes⟩ := Chunk.Assembler.takes_of_completed hp
        have hafter := htakes.remembers hremembers
        have hheaders :=
          (Link.heeds_receive payload { s.link with assembler }).headers s.link.session
        rw [afterPart] at hs
        cases hreceive : Link.receive payload { s.link with assembler } with
        | mk result link =>
          rw [hreceive] at hs hheaders
          cases result with
          | error failure => cases hs
          | ok =>
            cases hs
            refine ⟨hphase, rfl, fun hne => absurd rfl hne, fun csid => ?_⟩
            simp only [Traced.took, hbytes, List.take_left, hcompletes]
            rw [hheaders]
            exact hafter.header_iff csid

theorem Reached.running (h : Reached t) : Running t := by
  induction h with
  | opened session readSize chunks =>
    exact ⟨rfl, rfl, fun hne => absurd rfl hne,
      fun csid => iff_of_false Bool.false_ne_true (Chunk.not_ended_nil csid)⟩
  | push h input ih => exact ⟨ih.phase, ih.stage, ih.remembers⟩
  | step h hs ih => exact ih.took hs
  | meanwhile h window session ih => exact ⟨ih.phase, ih.stage, ih.remembers⟩

/-! ## What a piece of input fails with -/

theorem isOpen_step {r s : Receiver} {result : Except ConnectionError (Option Nat)}
    (h : step r = (result, s)) (hopen : r.queue.isOpen = true) : s.queue.isOpen = true := by
  obtain ⟨log, hqueue, -⟩ := keeps_step hopen
  rw [h] at hqueue
  dsimp only at hqueue
  rw [hqueue, Flow.SendQueue.isOpen_replay, hopen]

/-- There is no other way on than the step that succeeds. -/
theorem goes_iff : Goes t u ↔ u = t ∨ ∃ n r, step t.receiver = (.ok (some n), r) ∧
    Goes (t.took n r) u := by
  constructor
  · rintro (_ | ⟨hs, h⟩)
    · exact .inl rfl
    · exact .inr ⟨_, _, hs, h⟩
  · rintro (rfl | ⟨n, r, hs, h⟩)
    · exact .here _
    · exact .on hs h

/-- Where no step succeeds there is nothing to violate but what the step fails with. -/
theorem Running.violates_here (h : Running t) (hopen : t.receiver.queue.isOpen = true)
    (hstop : ∀ n r, step t.receiver ≠ (.ok (some n), r)) :
    (∃ u, Goes t u ∧ Violates u error) ↔ (step t.receiver).1 = .error error := by
  rw [h.step_error_iff hopen]
  constructor
  · rintro ⟨u, hgoes, hviolates⟩
    rcases goes_iff.mp hgoes with rfl | ⟨n, r, hs, -⟩
    · exact hviolates
    · exact absurd hs (hstop n r)
  · exact fun hviolates => ⟨t, .here t, hviolates⟩

/-- Behind a step that succeeds there is as much to violate as before it. -/
theorem Running.violates_on (h : Running t) (hopen : t.receiver.queue.isOpen = true)
    (hs : step t.receiver = (.ok (some n), r)) :
    (∃ u, Goes t u ∧ Violates u error) ↔ ∃ u, Goes (t.took n r) u ∧ Violates u error := by
  constructor
  · rintro ⟨u, hgoes, hviolates⟩
    rcases goes_iff.mp hgoes with rfl | ⟨m, s, hs', hgoes⟩
    · rw [← h.step_error_iff hopen, hs] at hviolates
      cases hviolates
    · cases hs.symm.trans hs'
      exact ⟨u, hgoes, hviolates⟩
  · rintro ⟨u, hgoes, hviolates⟩
    exact ⟨u, .on hs hgoes, hviolates⟩

/-- Running on, a receiver fails with what it comes to violate. -/
theorem Running.processOnto_error_iff (h : Running t) (hopen : t.receiver.queue.isOpen = true)
    (framed : Nat) : (processOnto framed t.receiver).1 = .error error ↔
      ∃ u, Goes t u ∧ Violates u error := by
  generalize hr : t.receiver = r
  fun_induction processOnto framed r generalizing t with
  | case1 framed r failure s hs =>
    subst hr
    simp [h.violates_here hopen, hs]
  | case2 framed r n s hs ih =>
    subst hr
    rw [h.violates_on hopen hs]
    exact ih (h.took hs) (isOpen_step hs hopen) rfl
  | case3 r s hs =>
    subst hr
    simp [h.violates_here hopen, hs]
  | case4 framed r s hs hframed link hcount =>
    subst hr
    simp [h.violates_here hopen, hs]
  | case5 framed r s hs hframed failure link hcount =>
    subst hr
    cases step_none hs
    obtain ⟨counts, log, hrecord, -⟩ := t.receiver.link.recordReceived_isOpen framed hopen
    cases hcount.symm.trans hrecord

/-- Counting changes nothing but the window and what is sent. -/
theorem reached_counted (h : Reached t) (bytes : Nat) :
    ∃ u, Reached u ∧ u.receiver =
      { t.receiver with link := (Link.recordReceived bytes t.receiver.link).2 } := by
  refine ⟨_, h.meanwhile (Link.recordReceived bytes t.receiver.link).2.window
    (Link.recordReceived bytes t.receiver.link).2.session, ?_⟩
  dsimp only
  unfold Link.recordReceived
  dsimp only
  split
  · rfl
  · split <;> rfl

/-- A piece of input that is taken without an error leads to a state that can be reached. -/
theorem reached_processOnto (h : Reached t) {framed : Nat}
    (hrun : processOnto framed t.receiver = (.ok (), r)) : ∃ u, Reached u ∧ u.receiver = r := by
  generalize hr : t.receiver = s at hrun
  fun_induction processOnto framed s generalizing t with
  | case1 framed s failure s' hs => cases hrun
  | case2 framed s n s' hs ih =>
    subst hr
    exact ih (h.step hs) rfl hrun
  | case3 s s' hs =>
    cases hrun
    cases step_none hs
    exact ⟨t, h, hr⟩
  | case4 framed s s' hs hframed link hcount =>
    cases hrun
    cases step_none hs
    subst hr
    have hcounted := reached_counted h framed
    rwa [hcount] at hcounted
  | case5 framed s s' hs hframed failure link hcount => cases hrun

/-- However its input came in pieces so far, a receiver behind the handshake whose queue is open
fails on the next piece if and only if it comes to a chunk of another type than 0 on a chunk stream
on which none has ended, or to a message of which a part is of a protocol control type and malformed
or sets a chunk size of zero. The first of them says what the error is. A piece on which it does not
fail leads to another such state. -/
theorem process_fails_iff (h : Reached t) (hopen : t.receiver.queue.isOpen = true)
    (input : Bytes) :
    (∀ error, (process input t.receiver).1 = .error error ↔
      ∃ u, Goes (t.push input) u ∧ Violates u error) ∧
    ∀ r, process input t.receiver = (.ok (), r) → ∃ u, Reached u ∧ u.receiver = r :=
  ⟨fun _ => (h.push input).running.processOnto_error_iff hopen 0,
    fun _ hrun => reached_processOnto (h.push input) hrun⟩

/-- A receiver that nothing has come in to since the handshake. -/
def untouched : Traced := { receiver := opened {} ⟨1536, 128, false⟩ [] }

/-- A chunk of type 3 on chunk stream 3, the first one of all. -/
theorem process_fails_headless :
    Reached untouched ∧ untouched.receiver.queue.isOpen = true ∧
      Violates (untouched.push [0xc3]) (.framing (.noPreviousChunkOnStream 3)) ∧
      (process [0xc3] untouched.receiver).1 = .error (.framing (.noPreviousChunkOnStream 3)) := by
  have hread : Chunk.readBasicHeader? (untouched.push [0xc3]).receiver.buffer.bytes
      = some (.type3, 3, 1) := rfl
  have hviolates : Violates (untouched.push [0xc3]) (.framing (.noPreviousChunkOnStream 3)) :=
    .headless rfl hread (by decide) (Chunk.not_ended_nil 3)
  have hreached : Reached untouched := .opened {} ⟨1536, 128, false⟩ []
  obtain ⟨hfails, -⟩ := process_fails_iff hreached rfl [0xc3]
  exact ⟨hreached, rfl, hviolates, (hfails _).mpr ⟨_, .here _, hviolates⟩⟩

end Receiver

end RtmpEndpoint
