import RtmpEndpoint.Proofs.Connection.Cutting
import RtmpEndpoint.Proofs.Connection.Effects

/-!
# The bandwidth that a peer allows

A peer limits how much may be written between two of its acknowledgements, and says how strictly.
Whether a limit is accepted depends on the last one that was, and on nothing else of what came
before. After a soft or a dynamic limit the write window only shrinks, until a hard one comes.
-/

namespace RtmpEndpoint

/-- How much a peer allows, and how strictly. -/
structure Bandwidth where
  size : UInt32
  limit : BandwidthLimit
  deriving DecidableEq

namespace Bandwidth

/-- A hard limit is always accepted, a soft one if it allows no more than the last limit, and a
dynamic one if the last limit was hard. As the first limit any will do. -/
def follows (last : Option Bandwidth) (next : Bandwidth) : Bool :=
  match next.limit with
  | .hard => true
  | .soft => last.all (next.size ≤ ·.size)
  | .dynamic => last.all (·.limit == .hard)

/-- The limits that are accepted of those that came in. In both lists the latest is first. -/
def accepted : List Bandwidth → List Bandwidth
  | [] => []
  | next :: earlier =>
    if follows (accepted earlier).head? next then next :: accepted earlier else accepted earlier

def message (bandwidth : Bandwidth) : Message :=
  .setPeerBandwidth bandwidth.size bandwidth.limit

/-- The announcement that the write window is as large as the limit allows. -/
def answer (bandwidth : Bandwidth) : Payload :=
  ⟨.zero, .windowAcknowledgementSize, controlMessageStreamId, Bytes.ofUInt32 bandwidth.size⟩

variable {last : Bandwidth} {earlier later : List Bandwidth}

theorem carries_answer (bandwidth : Bandwidth) :
    Session.Carries bandwidth.answer (.windowAcknowledgementSize bandwidth.size) :=
  ⟨rfl, rfl, rfl⟩

theorem answer_fits (bandwidth : Bandwidth) :
    bandwidth.answer.data.length ≤ Chunk.maxMessageLength := by
  simp [answer, Bytes.ofUInt32, Chunk.maxMessageLength]

theorem head?_accepted_cons (next : Bandwidth) (earlier : List Bandwidth) :
    (accepted (next :: earlier)).head? =
      if follows (accepted earlier).head? next then some next else (accepted earlier).head? := by
  rw [accepted]
  split <;> rfl

/-- What follows a limit that is not hard, and is not hard itself, is soft and allows no more. -/
theorem soft_of_follows {next : Bandwidth} (h : follows (some last) next = true)
    (hlast : last.limit ≠ .hard) (hnext : next.limit ≠ .hard) :
    next.limit = .soft ∧ next.size ≤ last.size := by
  unfold follows at h
  split at h
  · next hhard => exact absurd hhard hnext
  · next hsoft => exact ⟨hsoft, by simpa using h⟩
  · simp [hlast] at h

/-- Without another hard limit, the last one that is accepted never allows more. -/
theorem head?_accepted_append (h : (accepted earlier).head? = some last)
    (hlast : last.limit ≠ .hard) (hlater : ∀ next ∈ later, next.limit ≠ .hard) :
    ∃ now, (accepted (later ++ earlier)).head? = some now ∧ now.limit ≠ .hard ∧
      now.size ≤ last.size := by
  induction later with
  | nil => exact ⟨last, h, hlast, UInt32.le_refl _⟩
  | cons next later ih =>
    obtain ⟨now, hnow, hlimit, hsize⟩ := ih fun other hmem => hlater other (.tail _ hmem)
    rw [List.cons_append, head?_accepted_cons, hnow]
    split
    · next hfollows =>
      obtain ⟨hsoft, hle⟩ := soft_of_follows hfollows hlimit (hlater next (.head _))
      exact ⟨next, rfl, by simp [hsoft], UInt32.le_trans hle hsize⟩
    · exact ⟨now, rfl, hlimit, hsize⟩

end Bandwidth

namespace Link

open Bandwidth (accepted follows)

/-! ## Turns -/

/-- What happens to a link that can send. -/
inductive Turn where
  /-- A protocol control message comes in. -/
  | control (message : Message)
  /-- Bytes are counted as received. -/
  | count (bytes : Nat)
  /-- Chunks are taken, and others use the session. -/
  | meanwhile (assembler : Chunk.Assembler) (readSize : Flow.ReadSize) (session : Session)
      (isOpen : session.queue.isOpen = true)

namespace Turn

/-- The limit that is set in this turn. -/
def bandwidth? : Turn → Option Bandwidth
  | control (.setPeerBandwidth size limit) => some ⟨size, limit⟩
  | _ => none

def take (link : Link) : Turn → Link
  | control message => (Link.control message link).2
  | count bytes => (recordReceived bytes link).2
  | meanwhile assembler readSize session _ => { link with assembler, readSize, session }

/-- The turns one after the other. -/
def run (turns : List Turn) (link : Link) : Link := turns.foldl take link

/-- The limits that came in, the latest first. -/
def limits (turns : List Turn) : List Bandwidth := (turns.filterMap bandwidth?).reverse

theorem limits_cons (turn : Turn) (turns : List Turn) :
    limits (turn :: turns) = limits turns ++ turn.bandwidth?.toList := by
  cases h : turn.bandwidth? <;> simp [limits, h]

end Turn

/-! ## What the write window is set to -/

variable {link : Link} {last : Option Bandwidth}

/-- The link can send, and its write window is as the last limit says. -/
structure Tracks (link : Link) (last : Option Bandwidth) : Prop where
  isOpen : link.session.queue.isOpen = true
  writeSize : link.window.writeSize = last.map (·.size)
  limit : link.window.limit = last.map (·.limit)

/-- The link after it has accepted a limit. -/
def limited (next : Bandwidth) (link : Link) : Link :=
  { link with
    window := { link.window with writeSize := some next.size, limit := some next.limit }
    session := link.session.sent [.message Chunk.controlStreamId next.answer] }

theorem Tracks.accepts (h : link.Tracks last) (next : Bandwidth) :
    link.window.accepts next.size next.limit = follows last next := by
  unfold Flow.Window.accepts follows
  obtain ⟨size, limit⟩ := next
  rw [h.writeSize, h.limit]
  cases limit <;> cases last <;> rfl

theorem Tracks.control_ignored (h : link.Tracks last) {next : Bandwidth}
    (hrefused : follows last next = false) : control next.message link = (.ok (), link) :=
  setPeerBandwidth_ignored ((h.accepts next).trans hrefused)

theorem Tracks.control_accepted (h : link.Tracks last) {next : Bandwidth}
    (haccepted : follows last next = true) :
    control next.message link = (.ok (), link.limited next) := by
  have hsent := Session.sendControl_fits next.carries_answer next.answer_fits h.isOpen
  rw [Bandwidth.message, control, setPeerBandwidth_accepted ((h.accepts next).trans haccepted),
    answer_eq, onSession, Transition.focus, Session.unawaited, Transition.bind_ok hsent]
  rfl

theorem Tracks.limited (h : link.Tracks last) (next : Bandwidth) :
    (link.limited next).Tracks (some next) where
  isOpen := (Session.isOpen_sent ..).trans h.isOpen
  writeSize := rfl
  limit := rfl

/-- The other messages leave the limit alone. -/
theorem window_control {message : Message} (h : (Turn.control message).bandwidth? = none)
    (link : Link) :
    (control message link).2.window.writeSize = link.window.writeSize ∧
      (control message link).2.window.limit = link.window.limit := by
  cases message with
  | setPeerBandwidth size limit => cases h
  | setChunkSize size =>
    rw [control]
    cases hs : link.assembler.setMaxSize size.toNat with
    | error error =>
      rw [setReadChunkSize_refused hs]
      exact ⟨rfl, rfl⟩
    | ok assembler =>
      rw [setReadChunkSize_accepted hs]
      exact ⟨rfl, rfl⟩
  | _ => exact ⟨rfl, rfl⟩

/-- In a turn the limit that comes in is taken up if it follows the last one. -/
theorem Tracks.take {earlier : List Bandwidth} (h : link.Tracks (accepted earlier).head?)
    (turn : Turn) :
    (turn.take link).Tracks (accepted (turn.bandwidth?.toList ++ earlier)).head? := by
  cases hset : turn.bandwidth? with
  | some next =>
    obtain rfl : turn = .control next.message := by
      unfold Turn.bandwidth? at hset
      split at hset <;> cases hset
      rfl
    rw [Option.toList_some, List.singleton_append, Bandwidth.head?_accepted_cons, Turn.take]
    cases hfollows : follows (accepted earlier).head? next with
    | true =>
      rw [h.control_accepted hfollows]
      exact h.limited next
    | false =>
      rw [h.control_ignored hfollows]
      exact h
  | none =>
    rw [Option.toList_none, List.nil_append]
    cases turn with
    | control message =>
      obtain ⟨hsize, hlimit⟩ := window_control hset link
      exact ⟨(oblivious_control message).isOpen link h.isOpen, hsize.trans h.writeSize,
        hlimit.trans h.limit⟩
    | count bytes =>
      obtain ⟨counts, log, hrecord, -, hface⟩ := recordReceived_isOpen bytes link h.isOpen
      rw [Turn.take, hrecord]
      exact ⟨(Flow.SendQueue.isOpen_of_face hface).trans h.isOpen, h.writeSize, h.limit⟩
    | meanwhile assembler readSize session isOpen => exact ⟨isOpen, h.writeSize, h.limit⟩

theorem Tracks.run {earlier : List Bandwidth} (h : link.Tracks (accepted earlier).head?)
    (turns : List Turn) :
    (Turn.run turns link).Tracks (accepted (Turn.limits turns ++ earlier)).head? := by
  induction turns generalizing link earlier with
  | nil => exact h
  | cons turn turns ih =>
    rw [Turn.limits_cons, List.append_assoc]
    exact ih (h.take turn)

/-- While a link can send, its write window is what the last limit said that it accepted. It
accepts the next limit if that follows this one, and then queues one message, which announces the
new window; otherwise it stays as it is. From a soft or dynamic limit on that was accepted, the write
window never grows until a hard one comes. -/
theorem window_follows_limits (fresh : link.window = {})
    (hopen : link.session.queue.isOpen = true) (turns : List Turn) :
    let now := Turn.run turns link
    let last := (accepted (Turn.limits turns)).head?
    (now.window.writeSize = last.map (·.size) ∧ now.window.limit = last.map (·.limit)) ∧
    (∀ next, follows last next = false → control next.message now = (.ok (), now)) ∧
    (∀ next, follows last next = true → control next.message now = (.ok (), now.limited next)) ∧
    ∀ previous, last = some previous → previous.limit ≠ .hard → ∀ later,
      (∀ next ∈ Turn.limits later, next.limit ≠ .hard) →
        ∃ size, (Turn.run later now).window.writeSize = some size ∧ size ≤ previous.size := by
  intro now last
  have hstart : link.Tracks (accepted []).head? := by
    rw [accepted]
    exact ⟨hopen, by rw [fresh]; rfl, by rw [fresh]; rfl⟩
  have hnow : now.Tracks last := by
    have hrun := hstart.run turns
    rwa [List.append_nil] at hrun
  refine ⟨⟨hnow.writeSize, hnow.limit⟩, fun next => hnow.control_ignored,
    fun next => hnow.control_accepted, fun previous hprevious hlimit later hlater => ?_⟩
  obtain ⟨final, hfinal, -, hsize⟩ := Bandwidth.head?_accepted_append hprevious hlimit hlater
  have hlast := (hnow.run later).writeSize
  rw [hfinal] at hlast
  exact ⟨final.size, hlast, hsize⟩

/-- A hard limit, a soft one that is too large, and a dynamic one. -/
def threeLimits : List Turn :=
  [.control (.setPeerBandwidth 5000 .hard), .count 10, .control (.setPeerBandwidth 6000 .soft),
    .control (.setPeerBandwidth 7000 .dynamic)]

/-- After the dynamic limit another one is ignored, and a soft one lowers the window. -/
theorem window_follows_limits_threeLimits :
    let link : Link := { readSize := ⟨1536, 128, false⟩, session := {} }
    let now := Turn.run threeLimits link
    now.window.writeSize = some 7000 ∧
      control (.setPeerBandwidth 8000 .dynamic) now = (.ok (), now) ∧
      control (.setPeerBandwidth 4000 .soft) now = (.ok (), now.limited ⟨4000, .soft⟩) ∧
      ∃ size, (Turn.run [.control (.setPeerBandwidth 4000 .soft),
        .control (.setPeerBandwidth 4001 .soft)] now).window.writeSize = some size ∧ size ≤ 7000 := by
  intro link now
  obtain ⟨⟨hsize, -⟩, hignored, haccepted, hlower⟩ :=
    window_follows_limits (rfl : link.window = {}) rfl threeLimits
  exact ⟨hsize, hignored ⟨8000, .dynamic⟩ rfl, haccepted ⟨4000, .soft⟩ rfl,
    hlower ⟨7000, .dynamic⟩ rfl (by simp) _ (by decide)⟩

end Link

end RtmpEndpoint
