import RtmpEndpoint.Connection.Work

/-!
# The schedule

The three loops of a connection share one thread and go round. In a round each loop has one turn,
and each round begins one loop later than the round before it. In its turn a loop goes on until it
has to wait or the allowance of the round is used up. Another round is due when a loop that waited
can go on again, or when the allowance did not suffice. After a stretch of rounds the peer has its
chance to write before the next one.

Main statements: a loop is ready exactly if its next event is possible (`isReady_eq`), and the
rounds come to an end (`settle`).
-/

namespace RtmpEndpoint

/-- A loop whose turn it may be. -/
inductive Turn where
  | reader
  | receiver
  | writer
  deriving DecidableEq, Repr

namespace Turn

def next : Turn → Turn
  | reader => receiver
  | receiver => writer
  | writer => reader

/-- Whether the loop has something to do, so that it need not wait. -/
def isReady (c : Connection) : Turn → Bool
  | reader =>
    match c.reader with
    | .ready => true
    | .asking size => c.isCancelled || size == 0 || !c.inbox.isEmpty || c.isEnded
    | .holding _ => c.isCancelled || c.outcome.isSome || c.reads.length < c.depth
    | .stopped | .failed => false
  | receiver =>
    c.outcome.isNone && (c.isCancelled || c.reader.hasStopped || !c.reads.isEmpty)
  | writer =>
    match c.writer with
    | .idle => c.isCancelled || !c.queue.chunks.isEmpty
    | .writing { chunks := [], .. } => true
    | .writing { chunks := chunk :: _, .. } =>
      c.isCancelled || c.outbox.isBroken
        || c.outbox.written.size + min 1 chunk.bytes.length ≤ c.outbox.capacity
    | .stopped | .failed => false

/-- As many bytes as were asked for and are there. -/
def readerEvent (c : Connection) : Connection.Event :=
  match c.reader with
  | .ready => .ask
  | .asking size => .read (c.inbox.take size).length
  | .holding _ => .handOver
  | .stopped | .failed => .stopReader

def receiverEvent (c : Connection) : Connection.Event :=
  if c.reads.isEmpty && c.reader.hasStopped then .stopReceiver else .receive

/-- As many chunks as the allowance covers, and of the first chunk as much as there is room for. -/
def writerEvent (allowance : Nat) (c : Connection) : Connection.Event :=
  match c.writer with
  | .idle => .gather (max 1 (min allowance c.queue.chunks.length))
  | .writing { chunks := [], .. } => .flush
  | .writing { chunks := chunk :: _, .. } =>
    if c.outbox.isBroken then .fail
    else .write (chunk.bytes.take (c.outbox.capacity - c.outbox.written.size)).length
  | .stopped | .failed => .stopWriter

/-- What a loop does next. A closed session stops it before anything else. -/
def event (allowance : Nat) (c : Connection) : Turn → Connection.Event
  | reader => if c.isCancelled then .stopReader else readerEvent c
  | receiver => if c.isCancelled then .stopReceiver else receiverEvent c
  | writer => if c.isCancelled then .stopWriter else writerEvent allowance c

theorem isReady_reader (allowance : Nat) (c : Connection) :
    reader.isReady c = (c.fire (reader.event allowance c)).isSome := by
  by_cases hc : c.isCancelled = true
  · cases hr : c.reader <;>
      simp [isReady, event, Connection.fire, Connection.stopReader, hc, hr, Reader.hasStopped]
  · cases hr : c.reader with
    | ready => simp [isReady, event, readerEvent, Connection.fire, Connection.ask, hc, hr]
    | asking size =>
      simp only [isReady, event, readerEvent, Connection.fire, Connection.read, hc, hr]
      by_cases hs : size = 0
      · simp [hs]
      · cases hi : c.inbox with
        | nil => cases he : c.isEnded <;> simp [hs]
        | cons b rest =>
          obtain ⟨count, hcount, hpos, hsize, hle⟩ : ∃ count, ((b :: rest).take size).length = count
              ∧ count ≠ 0 ∧ count ≤ size ∧ count ≤ (b :: rest).length := by
            refine ⟨_, rfl, ?_, List.length_take_le _ _, List.length_take_le' _ _⟩
            rw [List.length_take, List.length_cons]; omega
          rw [hcount]
          simp [hpos, hsize, Bytes.split?_of_le hle]
    | holding bytes =>
      simp only [isReady, event, readerEvent, Connection.fire, Connection.handOver, hc, hr]
      cases ho : c.outcome <;> simp
      split <;> simp_all
    | stopped | failed =>
      simp [isReady, event, readerEvent, Connection.fire, Connection.stopReader, hc, hr]

theorem isReady_receiver (allowance : Nat) (c : Connection) :
    receiver.isReady c = (c.fire (receiver.event allowance c)).isSome := by
  by_cases hc : c.isCancelled = true
  · simp [isReady, event, Connection.fire, Connection.stopReceiver, hc]
    cases c.outcome <;> simp
  · simp only [isReady, event, receiverEvent, hc]
    cases ho : c.outcome <;> cases hr : c.reads <;> cases hs : c.reader.hasStopped <;>
      simp [Connection.fire, Connection.stopReceiver, Connection.receive, ho, hr, hs]
    all_goals split <;> simp

theorem isReady_writer (allowance : Nat) (c : Connection) :
    writer.isReady c = (c.fire (writer.event allowance c)).isSome := by
  by_cases hc : c.isCancelled = true
  · cases hw : c.writer <;>
      simp [isReady, event, Connection.fire, Connection.stopWriter, hc, hw, Writer.hasStopped]
    split <;> simp_all
  · cases hw : c.writer with
    | idle =>
      cases hq : c.queue.chunks with
      | nil => simp [isReady, event, writerEvent, Connection.fire, Connection.gather, hc, hw, hq]
      | cons chunk chunks =>
        have hcount : 0 < max 1 (min allowance (chunk :: chunks).length)
            ∧ max 1 (min allowance (chunk :: chunks).length) ≤ (chunk :: chunks).length := by
          rw [List.length_cons]; omega
        simp only [isReady, event, writerEvent, Connection.fire, Connection.gather, hc, hw, hq,
          if_false, Bool.false_eq_true, if_pos hcount]
        simp
    | writing batch =>
      obtain ⟨chunks, written, completions⟩ := batch
      cases chunks with
      | nil => simp [isReady, event, writerEvent, Connection.fire, Connection.flush, hc, hw]
      | cons chunk chunks =>
        by_cases hb : c.outbox.isBroken = true
        · simp [isReady, event, writerEvent, Connection.fire, Connection.fail, hc, hw, hb]
        · have hle : (chunk.bytes.take (c.outbox.capacity - c.outbox.written.size)).length
              ≤ chunk.bytes.length := List.length_take_le' _ _
          simp only [isReady, event, writerEvent, Connection.fire, Connection.write, hc, hw, hb,
            if_false, Bool.false_eq_true, false_and, false_or]
          rw [Bytes.split?_of_le hle]
          simp only [List.length_take, List.isEmpty_iff, List.drop_eq_nil_iff]
          grind
    | stopped | failed =>
      simp [isReady, event, writerEvent, Connection.fire, Connection.stopWriter, hc, hw]

/-- A loop is ready exactly if its next event is possible. -/
theorem isReady_eq (turn : Turn) (allowance : Nat) (c : Connection) :
    turn.isReady c = (c.fire (turn.event allowance c)).isSome := by
  cases turn with
  | reader => exact isReady_reader allowance c
  | receiver => exact isReady_receiver allowance c
  | writer => exact isReady_writer allowance c

end Turn

namespace Connection

/-- How much of the allowance of a round an event uses up. What touches neither the socket nor a
queue is free. -/
def Event.cost : Event → Nat
  | .read _ | .failRead | .handOver | .receive | .write _ | .fail => 1
  | .gather count => count
  | .ask | .flush | .stopReader | .stopReceiver | .stopWriter | .finish => 0

end Connection

/-- A connection with the order of its loops. -/
structure Schedule where
  connection : Connection
  /-- The loop that begins the next round. -/
  first : Turn := .reader
  /-- The loops that found nothing to do in their last turn, and still have not. -/
  waiting : List Turn := []
  /-- Whether there is a next round. -/
  isDue : Bool := true

namespace Schedule

/-- How much the loops can do in one round. -/
def allowance : Nat := 128

/-- How many rounds there are without a break. -/
def stretchLength : Nat := 61

/-- Goes on with `d`. Waiting loops that are ready now are woken. -/
def notice (d : Connection) (s : Schedule) : Schedule :=
  { s with
    connection := d
    waiting := s.waiting.filter (!·.isReady d)
    isDue := s.isDue || s.waiting.any (·.isReady d) }

def wait (turn : Turn) (s : Schedule) : Schedule :=
  { s with waiting := if s.waiting.contains turn then s.waiting else turn :: s.waiting }

@[simp] theorem connection_notice (d : Connection) (s : Schedule) :
    (s.notice d).connection = d := rfl
@[simp] theorem connection_wait (turn : Turn) (s : Schedule) :
    (s.wait turn).connection = s.connection := rfl

/-- Lets a loop go on as long as it can and the allowance suffices. Answers what is left of it. -/
def takeTurn (turn : Turn) (allowance : Nat) (s : Schedule) : Nat × Schedule :=
  let event := turn.event allowance s.connection
  if allowance < event.cost then (allowance, s)
  else match _h : s.connection.fire event with
    | some d => takeTurn turn (allowance - event.cost) (s.notice d)
    | none => (allowance, s.wait turn)
termination_by (s.connection.inputWork, s.connection.receiverWork, s.connection.outputWork)
decreasing_by exact Connection.uses_fire _h

/-- A turn that takes nothing off the allowance changes nothing. Any other uses up work. -/
theorem takeTurn_uses (turn : Turn) (allowance : Nat) (s : Schedule) :
    ((takeTurn turn allowance s).1 = allowance
      ∧ (takeTurn turn allowance s).2.connection = s.connection
      ∧ (takeTurn turn allowance s).2.isDue = s.isDue)
    ∨ Connection.Uses (takeTurn turn allowance s).2.connection s.connection := by
  fun_induction takeTurn turn allowance s with
  | case1 => exact .inl ⟨rfl, rfl, rfl⟩
  | case2 allowance s event hle d h ih =>
    have hd := Connection.uses_fire h
    rcases ih with ⟨-, hc, -⟩ | hu
    · exact .inr (by rw [hc]; exact hd)
    · exact .inr (hu.trans hd)
  | case3 => exact .inl ⟨rfl, rfl, rfl⟩

/-- A round. Answers whether the allowance was used up. -/
def round (s : Schedule) : Bool × Schedule :=
  let turn := s.first
  let s := { s with isDue := false, first := turn.next }
  let (left, s) := takeTurn turn allowance s
  let (left, s) := takeTurn turn.next left s
  let (left, s) := takeTurn turn.next.next left s
  match s.connection.fire .finish with
  | some d => (left == 0, s.notice d)
  | none => (left == 0, s)

/-- A round changes nothing and leads to no other, or it uses up work. -/
theorem round_uses (s : Schedule) :
    (s.round.1 = false ∧ s.round.2.connection = s.connection ∧ s.round.2.isDue = false)
    ∨ Connection.Uses s.round.2.connection s.connection := by
  let t₀ : Schedule := { s with isDue := false, first := s.first.next }
  let r₁ := takeTurn s.first allowance t₀
  let r₂ := takeTurn s.first.next r₁.1 r₁.2
  let r₃ := takeTurn s.first.next.next r₂.1 r₂.2
  have h₁ := takeTurn_uses s.first allowance t₀
  have h₂ := takeTurn_uses s.first.next r₁.1 r₁.2
  have h₃ := takeTurn_uses s.first.next.next r₂.1 r₂.2
  have hround : s.round = match r₃.2.connection.fire .finish with
    | some d => (r₃.1 == 0, r₃.2.notice d)
    | none => (r₃.1 == 0, r₃.2) := rfl
  have hturns : (r₃.1 = allowance ∧ r₃.2.connection = s.connection ∧ r₃.2.isDue = false)
      ∨ Connection.Uses r₃.2.connection s.connection := by
    change (r₁.1 = _ ∧ r₁.2.connection = s.connection ∧ r₁.2.isDue = false)
      ∨ Connection.Uses r₁.2.connection s.connection at h₁
    change (r₂.1 = _ ∧ r₂.2.connection = _ ∧ r₂.2.isDue = _) ∨ Connection.Uses r₂.2.connection _ at h₂
    change (r₃.1 = _ ∧ r₃.2.connection = _ ∧ r₃.2.isDue = _) ∨ Connection.Uses r₃.2.connection _ at h₃
    grind [Connection.Uses.trans]
  rw [hround]
  split
  · next d hd =>
    have hd := Connection.uses_fire hd
    rcases hturns with ⟨-, hc, -⟩ | hu
    · exact .inr (hc ▸ hd)
    · exact .inr (hd.trans hu)
  · rcases hturns with ⟨ha, hc, hi⟩ | hu
    · exact .inl ⟨by simp [ha, allowance], hc, hi⟩
    · exact .inr hu

/-- At most `count` rounds. A round whose allowance was used up makes one more due, after the others
that are. -/
def rounds (count : Nat) (exhausted : Bool) (s : Schedule) : Schedule :=
  match count with
  | 0 => { s with isDue := s.isDue || exhausted }
  | count + 1 =>
    if s.isDue && !s.connection.isFinished then
      let (more, s) := s.round
      rounds count (exhausted || more) s
    else { s with isDue := s.isDue || exhausted }

theorem rounds_uses (count : Nat) (exhausted : Bool) (s : Schedule) :
    (s.rounds count exhausted).connection = s.connection
    ∨ Connection.Uses (s.rounds count exhausted).connection s.connection := by
  induction count generalizing exhausted s with
  | zero => exact .inl rfl
  | succ count ih =>
    rw [rounds]
    split
    · have h := ih (exhausted || s.round.1) s.round.2
      have := s.round_uses
      grind [Connection.Uses.trans]
    · exact .inl rfl

/-- More rounds are due only after work was used up, unless they were due from the start. -/
theorem uses_of_isDue_rounds {count : Nat} {exhausted : Bool} {s : Schedule}
    (h : (s.rounds count exhausted).isDue = true) :
    exhausted = true ∨ (count = 0 ∨ s.connection.isFinished) ∧ s.isDue = true
    ∨ Connection.Uses (s.rounds count exhausted).connection s.connection := by
  induction count generalizing exhausted s with
  | zero => simp [rounds] at h; grind
  | succ count ih =>
    rw [rounds] at h ⊢
    split at h
    · next hdue =>
      have hrest := ih h
      have hround := s.round_uses
      have := rounds_uses count (exhausted || s.round.1) s.round.2
      grind [Connection.Uses.trans]
    · grind

/-- Rounds without a break. -/
def stretch (s : Schedule) : Schedule := s.rounds stretchLength false

theorem uses_stretch {s : Schedule} (hf : s.connection.isFinished = false)
    (h : s.stretch.isDue = true) : Connection.Uses s.stretch.connection s.connection := by
  rcases uses_of_isDue_rounds h with h | ⟨h | h, -⟩ | h
  · simp at h
  · simp [stretchLength] at h
  · simp [hf] at h
  · exact h

/-- Lets the loops go on until all of them wait. -/
def settle (s : Schedule) : Schedule :=
  if _h : s.isDue = true ∧ s.connection.isFinished = false then settle s.stretch else s
termination_by (s.connection.inputWork, s.connection.receiverWork, s.connection.outputWork,
  s.isDue.toNat)
decreasing_by
  rcases hd : s.stretch.isDue with _ | _
  · rcases rounds_uses stretchLength false s with hc | hu
    · rw [stretch, hc, _h.1]
      exact .right _ (.right _ (.right _ (by simp)))
    · simp only [Connection.Uses, Prod.lex_def, stretch] at hu ⊢
      omega
  · have hu := uses_stretch _h.2 hd
    simp only [Connection.Uses, Prod.lex_def] at hu ⊢
    omega

theorem settle_isDue (s : Schedule) :
    s.settle.isDue = false ∨ s.settle.connection.isFinished = true := by
  fun_induction settle s with
  | case1 s h ih => exact ih
  | case2 s h => grind

/-! ## What the peer does -/

def arrive (bytes : Bytes) (s : Schedule) : Schedule := s.notice (s.connection.arrive bytes)
def endInput (s : Schedule) : Schedule := s.notice s.connection.endInput
def leave (s : Schedule) : Schedule := s.notice s.connection.leave
def cancel (s : Schedule) : Schedule := s.notice s.connection.cancel

/-- The peer reads all that has been written. -/
def takeWritten (s : Schedule) : Bytes × Schedule :=
  let (bytes, connection) := s.connection.takeWritten
  (bytes, s.notice connection)

end Schedule

end RtmpEndpoint
