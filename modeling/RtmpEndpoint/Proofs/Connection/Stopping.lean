import RtmpEndpoint.Proofs.Connection.Moves

/-!
# What is handed on before a connection stops

Whichever loop stops first stops the other two, also if reads still wait for the receiver. Until
then nothing is lost: all that came is taken or waits, and the messages that were handed on are
those that the reads taken so far complete. Afterwards at most one more read is taken. So what waits
when the reader finds the end of the input may be lost.
-/

namespace RtmpEndpoint.Connection

open RtmpEndpoint.Flow (SendQueue)
open RtmpEndpoint.Receiver (Behind Comes plainOpening sevens)

/-! ## Intakes -/

/-- A connection and what has come of its input. -/
structure Intake where
  connection : Connection
  /-- All that the peer has sent. -/
  sent : Bytes := []
  /-- The reads that the receiver has taken, in order. -/
  taken : List Bytes := []
  /-- The messages that were handed on. -/
  handed : List Payload := []

namespace Intake

/-- The intake of what has become of the connection. -/
def after (a : Intake) (d : Connection) : Move → Intake
  | .arrive bytes => { a with connection := d, sent := a.sent ++ bytes }
  | .fire .receive =>
    let bytes := a.connection.reads.headD []
    { a with
      connection := d
      taken := a.taken ++ [bytes]
      handed := a.handed ++ Receiver.handed (a.connection.receiver.push bytes) }
  | _ => { a with connection := d }

def move (a : Intake) (move : Move) : Option Intake :=
  (a.connection.move move).map fun d => a.after d move

/-- A connection that has just been accepted. -/
def start (session : Session) (nonce : Nonce) (capacity : Nat) : Intake where
  connection := .accept { session with queue := {} } nonce capacity

/-- The moves one after the other, if each of them can be made. -/
def run (moves : List Move) (a : Intake) : Option Intake := moves.foldlM move a

/-- The bytes that the receiver has taken. -/
def input (a : Intake) : Bytes := a.taken.flatten

theorem flatten_taken (a : Intake) (bytes : Bytes) :
    (a.taken ++ [bytes]).flatten = a.input ++ bytes := by
  rw [List.flatten_append, List.flatten_singleton, input]

variable {a b : Intake} {first : Receiver} {d : Connection}

theorem after_beside {move : Move} (h : move.isInput = false) :
    a.after d move = { a with connection := d } := by
  cases move with
  | arrive => cases h
  | fire event =>
    cases event with
    | receive => cases h
    | _ => rfl
  | _ => rfl

theorem after_receive {bytes : Bytes} {reads : List Bytes}
    (h : a.connection.reads = bytes :: reads) :
    a.after d (.fire .receive) = { a with
      connection := d
      taken := a.taken ++ [bytes]
      handed := a.handed ++ Receiver.handed (a.connection.receiver.push bytes) } := by
  simp only [after, h, List.headD_cons]

/-! ## What an intake keeps -/

/-- How the receiver stands to one that gets all of the input at once: whatever more comes, that one
has the messages that were handed on behind it and something to go. -/
def Follows (first : Receiver) (a : Intake) : Prop :=
  (Receiver.step a.connection.receiver).1 = .ok none ∧
    ∀ more, ∃ s : Receiver, s.queue.isOpen = true ∧ Behind s a.connection.receiver more ∧
      Receiver.handed (first.push (a.input ++ more)) = a.handed ++ Receiver.handed s ∧
      (Receiver.exhaust (first.push (a.input ++ more))).1 = (Receiver.exhaust s).1

/-- What an intake keeps. -/
structure Kept (first : Receiver) (a : Intake) : Prop where
  running : a.connection.isCancelled = false →
    ¬ a.connection.Stopped ∧ a.connection.queue.isOpen = true
  front : a.input ++ a.connection.reads.flatten <+: a.sent
  all : a.connection.reader.hasStopped = false → a.sent = a.input ++ a.connection.waiting
  handed : a.connection.queue.isOpen = true → a.handed = Receiver.handed (first.push a.input)
  follows : a.connection.queue.isOpen = true → a.connection.outcome = none → a.Follows first

/-- With no more input the one in front has nothing to go either. -/
theorem Follows.handed_eq (h : a.Follows first) :
    a.handed = Receiver.handed (first.push a.input) := by
  obtain ⟨hwait, hmore⟩ := h
  obtain ⟨s, hopen, hbehind, hhanded, -⟩ := hmore []
  have hs : Receiver.step s = (.ok none, (Receiver.step s).2) :=
    Prod.ext (hbehind.waits hopen hwait) rfl
  rw [Receiver.handed_none hs, List.append_nil, List.append_nil] at hhanded
  exact hhanded.symm

/-- Nothing that happens to the session makes a difference. -/
theorem Follows.withSession (h : a.Follows first) {session : Session}
    (receiver : b.connection.receiver = a.connection.receiver.withSession session)
    (before : a.connection.queue.isOpen = true) (isOpen : session.queue.isOpen = true)
    (taken : b.taken = a.taken) (handed : b.handed = a.handed) : b.Follows first := by
  obtain ⟨hwait, hmore⟩ := h
  have hinput : b.input = a.input := congrArg List.flatten taken
  refine ⟨?_, fun more => ?_⟩
  · obtain ⟨next, hsame⟩ : Receiver.Impartial session Receiver.step a.connection.receiver :=
      Receiver.impartial_step before isOpen
    rw [receiver, hsame]
    exact hwait
  · obtain ⟨s, hopen, hbehind, hhanded, hresult⟩ := hmore more
    rw [hinput, handed, receiver]
    exact ⟨s, hopen, hbehind.withSession isOpen, hhanded, hresult⟩

/-- What comes of the next read. -/
theorem Follows.comes (h : a.Follows first) (bytes more : Bytes) :
    ∃ s, Comes s (a.connection.receiver.push bytes) more
        (Receiver.process bytes a.connection.receiver) ∧
      Receiver.handed (first.push (a.input ++ bytes ++ more)) = a.handed ++ Receiver.handed s ∧
      (Receiver.exhaust (first.push (a.input ++ bytes ++ more))).1 = (Receiver.exhaust s).1 := by
  obtain ⟨s, hopen, hbehind, hhanded, hresult⟩ := h.2 (bytes ++ more)
  rw [← List.append_assoc] at hhanded hresult
  exact ⟨s, hbehind.push.comes hopen 0, hhanded, hresult⟩

/-- The one in front is as far ahead after the read as it was before. -/
theorem Follows.receive (h : a.Follows first) {bytes : Bytes} {reads : List Bytes}
    (hreads : a.connection.reads = bytes :: reads)
    (receiver : Receiver.process bytes a.connection.receiver = (.ok (), d.receiver)) :
    (a.after d (.fire .receive)).Follows first := by
  rw [after_receive hreads]
  have hcomes (more : Bytes) := h.comes bytes more
  rw [receiver] at hcomes
  constructor
  · obtain ⟨s, hcome, -⟩ := hcomes []
    cases hcome with
    | waits wait => exact wait
  · intro more
    obtain ⟨s, hcome, hhanded, hresult⟩ := hcomes more
    cases hcome with
    | @waits _ u _ isOpen behind handed result =>
      rw [input, a.flatten_taken bytes, hhanded, hresult, handed, ← List.append_assoc]
      exact ⟨u, isOpen, behind, rfl, result⟩

/-- Both have handed on the same when a read fails. -/
theorem Follows.fails (h : a.Follows first) {bytes : Bytes} {error : ConnectionError}
    {r : Receiver}
    (receiver : Receiver.process bytes a.connection.receiver = (.error error, r)) :
    Receiver.handed (first.push (a.input ++ bytes))
        = a.handed ++ Receiver.handed (a.connection.receiver.push bytes) ∧
      (Receiver.exhaust (first.push (a.input ++ bytes))).1 = .error error := by
  obtain ⟨s, hcome, hhanded, hresult⟩ := h.comes bytes []
  rw [receiver] at hcome
  rw [List.append_nil] at hhanded hresult
  cases hcome with
  | fails isOpen handed result => exact ⟨by rw [hhanded, handed], hresult.trans result⟩

theorem kept_start (session : Session) (nonce : Nonce) (capacity : Nat) :
    (start session nonce capacity).Kept (start session nonce capacity).connection.receiver := by
  have hfollows : (start session nonce capacity).Follows
      (start session nonce capacity).connection.receiver :=
    ⟨rfl, fun more => ⟨_, rfl, Receiver.behind_push more rfl, rfl, rfl⟩⟩
  refine ⟨fun hgoes => ⟨?_, rfl⟩, List.prefix_refl _, fun _ => rfl, fun _ => hfollows.handed_eq,
    fun _ _ => hfollows⟩
  rintro (hcancelled | hreader | houtcome | hwriter)
  · cases hgoes.symm.trans hcancelled
  · cases hreader
  · cases houtcome
  · cases hwriter

/-! ## One move -/

/-- Nothing is taken, and the messages stay what they were. -/
theorem Kept.untaken (h : a.Kept first) (taken : b.taken = a.taken) (handed : b.handed = a.handed)
    (receiver : b.connection.receiver
      = a.connection.receiver.withSession b.connection.session)
    (isOpen : b.connection.queue.isOpen = true → a.connection.queue.isOpen = true)
    (outcome : b.connection.outcome = none → a.connection.outcome = none) :
    (b.connection.queue.isOpen = true → b.handed = Receiver.handed (first.push b.input)) ∧
      (b.connection.queue.isOpen = true → b.connection.outcome = none → b.Follows first) := by
  have hinput : b.input = a.input := congrArg List.flatten taken
  constructor
  · intro hopen
    rw [hinput, handed]
    exact h.handed (isOpen hopen)
  · intro hopen hrunning
    have hbefore := isOpen hopen
    exact (h.follows hbefore (outcome hrunning)).withSession receiver hbefore hopen taken handed

theorem Kept.quiet (h : a.Kept first) (quiet : Quiet a.connection b.connection)
    (front : b.input ++ b.connection.reads.flatten <+: b.sent)
    (all : a.connection.reader.hasStopped = false → b.sent = b.input ++ b.connection.waiting)
    (taken : b.taken = a.taken) (handed : b.handed = a.handed) : b.Kept first := by
  obtain ⟨hhanded, hfollows⟩ := h.untaken taken handed quiet.receiver
    (fun hopen => quiet.isOpen ▸ hopen) (fun hrunning => quiet.outcome ▸ hrunning)
  refine ⟨fun hgoes => ?_, front, fun hreader => all (quiet.reader ▸ hreader), hhanded, hfollows⟩
  obtain ⟨hstopped, hopen⟩ := h.running (quiet.isCancelled ▸ hgoes)
  refine ⟨?_, quiet.isOpen.trans hopen⟩
  rw [Stopped, quiet.isCancelled, quiet.reader, quiet.outcome, quiet.writer]
  exact hstopped

theorem Kept.halts (h : a.Kept first) (halts : Halts a.connection d) :
    ({ a with connection := d } : Intake).Kept first := by
  have hrunning : d.outcome = none → a.connection.outcome = none := by
    intro hnone
    rcases halts.outcome with hsame | hsome
    · exact hsame.symm.trans hnone
    · rw [hnone] at hsome
      cases hsome
  obtain ⟨hhanded, hfollows⟩ := h.untaken (b := { a with connection := d }) rfl rfl halts.receiver
    halts.isOpen hrunning
  refine ⟨fun hgoes => ?_, ?_, fun hreader => ?_, hhanded, hfollows⟩
  · cases halts.isCancelled.symm.trans hgoes
  · change a.input ++ d.reads.flatten <+: a.sent
    rw [halts.reads]
    exact h.front
  · obtain ⟨hbefore, hwaiting⟩ := halts.waiting hreader
    change a.sent = a.input ++ d.waiting
    rw [hwaiting]
    exact h.all hbefore

/-- What is taken waited first. -/
theorem waiting_of_reads {c d : Connection} {bytes : Bytes} (reads : c.reads = bytes :: d.reads)
    (reader : d.reader = c.reader) (inbox : d.inbox = c.inbox) :
    c.waiting = bytes ++ d.waiting := by
  rw [waiting, waiting, reads, reader, inbox]
  simp only [List.flatten_cons, List.append_assoc]

theorem isOpen_process {c : Connection} {bytes : Bytes} {r : Receiver}
    {result : Except ConnectionError Unit} (h : Receiver.process bytes c.receiver = (result, r)) :
    r.queue.isOpen = c.queue.isOpen := by
  have hgrows : SendQueue.Grows c.queue (Receiver.process bytes c.receiver).2.queue :=
    Receiver.stable_process (SendQueue.stable_grows c.queue) bytes (.refl _)
  rw [h] at hgrows
  exact hgrows.isOpen

/-- The front of what was sent goes from what waits to what is taken. -/
theorem Kept.taking (h : a.Kept first) {bytes : Bytes}
    (reads : a.connection.reads = bytes :: d.reads) (reader : d.reader = a.connection.reader)
    (inbox : d.inbox = a.connection.inbox) :
    a.input ++ bytes ++ d.reads.flatten <+: a.sent ∧
      (d.reader.hasStopped = false → a.sent = a.input ++ bytes ++ d.waiting) := by
  constructor
  · have hfront := h.front
    rw [reads, List.flatten_cons, ← List.append_assoc] at hfront
    exact hfront
  · intro hreader
    rw [h.all (reader ▸ hreader), waiting_of_reads reads reader inbox, List.append_assoc]

theorem Kept.receive (h : a.Kept first) {bytes : Bytes} (running : a.connection.outcome = none)
    (reads : a.connection.reads = bytes :: d.reads) (reader : d.reader = a.connection.reader)
    (inbox : d.inbox = a.connection.inbox) (writer : d.writer = a.connection.writer)
    (receiver : Receiver.process bytes a.connection.receiver = (.ok (), d.receiver))
    (outcome : d.outcome = if d.isCancelled then some (.ok ()) else none) :
    (a.after d (.fire .receive)).Kept first := by
  have hisOpen : d.queue.isOpen = a.connection.queue.isOpen := isOpen_process receiver
  have hfollows (hopen : d.queue.isOpen = true) : (a.after d (.fire .receive)).Follows first :=
    (h.follows (hisOpen.symm.trans hopen) running).receive reads receiver
  rw [after_receive reads] at hfollows ⊢
  obtain ⟨hfront, hall⟩ := h.taking reads reader inbox
  rw [← a.flatten_taken bytes] at hfront hall
  refine ⟨fun hgoes => ?_, hfront, hall, fun hopen => (hfollows hopen).handed_eq,
    fun hopen _ => hfollows hopen⟩
  change d.isCancelled = false at hgoes
  have hgone : a.connection.isCancelled = false := by
    refine Bool.eq_false_of_not_eq_true fun hcancelled => ?_
    have hstays := Receiver.isClosed_process bytes hcancelled
    rw [receiver] at hstays
    cases hgoes.symm.trans hstays
  obtain ⟨hstopped, hopen⟩ := h.running hgone
  refine ⟨?_, hisOpen.trans hopen⟩
  rw [hgoes, if_neg Bool.false_ne_true] at outcome
  change ¬ d.Stopped
  rw [Stopped, hgoes, ← hgone, reader, outcome, ← running, writer]
  exact hstopped

theorem Kept.fails (h : a.Kept first) {bytes : Bytes} {error : ConnectionError} {r : Receiver}
    (running : a.connection.outcome = none) (reads : a.connection.reads = bytes :: d.reads)
    (reader : d.reader = a.connection.reader) (inbox : d.inbox = a.connection.inbox)
    (receiver : Receiver.process bytes a.connection.receiver = (.error error, r))
    (queue : d.queue = r.queue) (outcome : d.outcome = some (.error error))
    (isCancelled : d.isCancelled = true) :
    (a.after d (.fire .receive)).Kept first ∧ (a.connection.queue.isOpen = true →
      d.queue.isOpen = true ∧
      (Receiver.exhaust (first.push (a.after d (.fire .receive)).input)).1 = .error error) := by
  have hisOpen : d.queue.isOpen = a.connection.queue.isOpen := by
    rw [queue]
    exact isOpen_process receiver
  have hends (hopen : a.connection.queue.isOpen = true) :=
    (h.follows hopen running).fails receiver
  rw [after_receive reads]
  obtain ⟨hfront, hall⟩ := h.taking reads reader inbox
  rw [← a.flatten_taken bytes] at hends hfront hall
  refine ⟨⟨fun hgoes => ?_, hfront, hall, fun hopen => ?_, fun _ hnone => ?_⟩,
    fun hopen => ⟨hisOpen.trans hopen, (hends hopen).2⟩⟩
  · cases isCancelled.symm.trans hgoes
  · exact (hends (hisOpen.symm.trans hopen)).1.symm
  · cases outcome.symm.trans hnone

theorem Kept.move (h : a.Kept first) {move : Move} (hmove : a.move move = some b) :
    b.Kept first := by
  obtain ⟨d, hd, rfl⟩ := Option.map_eq_some_iff.mp hmove
  cases took_move hd with
  | passes beside quiet waiting reads =>
    rw [after_beside beside]
    refine h.quiet quiet ?_ (fun hreader => ?_) rfl rfl
    · change a.input ++ d.reads.flatten <+: a.sent
      rw [reads]
      exact h.front
    · change a.sent = a.input ++ d.waiting
      rw [waiting]
      exact h.all hreader
  -- What is handed over was held, so the front grows into what waits.
  | @handOver bytes quiet reader waiting reads =>
    have hall : a.sent = a.input ++ d.waiting := by
      rw [waiting]
      exact h.all reader
    refine h.quiet quiet ⟨d.reader.held ++ d.inbox, ?_⟩ (fun _ => hall) rfl rfl
    change a.input ++ d.reads.flatten ++ _ = a.sent
    rw [hall, Connection.waiting, List.append_assoc, List.append_assoc]
  | @arrive bytes quiet waiting reads =>
    refine h.quiet quiet ?_ (fun hreader => ?_) rfl rfl
    · change a.input ++ d.reads.flatten <+: a.sent ++ bytes
      rw [reads]
      exact h.front.trans (List.prefix_append _ _)
    · change a.sent ++ bytes = a.input ++ d.waiting
      rw [h.all hreader, waiting, List.append_assoc]
  | receive running reads reader inbox writer receiver outcome =>
    exact h.receive running reads reader inbox writer receiver outcome
  | fails running reads reader inbox receiver queue outcome isCancelled =>
    exact (h.fails running reads reader inbox receiver queue outcome isCancelled).1
  | ends asked reader halts => exact h.halts halts
  | readFails asking halts => exact h.halts halts
  | gone isBroken halts => exact h.halts halts
  | cancel halts => exact h.halts halts
  | follows beside stopped halts =>
    rw [after_beside beside]
    exact h.halts halts

theorem Kept.run (h : a.Kept first) {moves : List Move} (hrun : a.run moves = some b) :
    b.Kept first :=
  preserved_of_moves (fun _ _ _ hkept hmove => hkept.move hmove) h hrun

/-! ## The first loop to stop -/

/-- What can be the first to close the session, and with which move. -/
inductive Stops (first : Receiver) (a b : Intake) : Move → Prop where
  /-- The reader finds the end of the input, and nothing is left to read. -/
  | ended (isEnded : a.connection.isEnded = true)
      (all : b.sent = b.input ++ b.connection.reads.flatten) : Stops first a b (.fire (.read 0))
  /-- A read of nothing at all is taken for the end. -/
  | askedForNothing (asking : a.connection.reader = .asking 0) :
      Stops first a b (.fire (.read 0))
  | violated {error : ConnectionError} (outcome : b.connection.outcome = some (.error error))
      (result : (Receiver.exhaust (first.push b.input)).1 = .error error) :
      Stops first a b (.fire .receive)
  /-- The session was closed while the read was taken. -/
  | closed (outcome : b.connection.outcome = some (.ok ())) : Stops first a b (.fire .receive)
  /-- The socket fails a read. -/
  | readFails {size : Nat} (asking : a.connection.reader = .asking size) :
      Stops first a b (.fire .failRead)
  /-- A write or a flush fails. -/
  | gone (isBroken : a.connection.outbox.isBroken = true) : Stops first a b (.fire .fail)
  | cancelled : Stops first a b .cancel

/-- Until the session is closed no read is missing, and neither is what was handed on of them. -/
theorem Kept.stops (h : a.Kept first) {move : Move} (hgoes : a.connection.isCancelled = false)
    (hmove : a.move move = some b) (hstops : b.connection.isCancelled = true) :
    Stops first a b move ∧ b.handed = Receiver.handed (first.push b.input) := by
  have hkept := h.move hmove
  obtain ⟨hstopped, hopen⟩ := h.running hgoes
  have hreader : a.connection.reader.hasStopped = false :=
    Bool.eq_false_of_not_eq_true fun hreader => hstopped (.inr (.inl hreader))
  obtain ⟨d, hd, rfl⟩ := Option.map_eq_some_iff.mp hmove
  have hquiet (quiet : Quiet a.connection d) : d.isCancelled ≠ true := by
    rw [quiet.isCancelled, hgoes]
    exact Bool.false_ne_true
  cases took_move hd with
  | passes beside quiet =>
    rw [after_beside beside] at hstops
    exact absurd hstops (hquiet quiet)
  | handOver quiet => exact absurd hstops (hquiet quiet)
  | arrive quiet => exact absurd hstops (hquiet quiet)
  | @receive bytes running reads reader inbox writer receiver outcome =>
    change d.isCancelled = true at hstops
    rw [if_pos hstops] at outcome
    exact ⟨.closed outcome, hkept.handed ((isOpen_process receiver).trans hopen)⟩
  | fails running reads reader inbox receiver queue outcome isCancelled =>
    obtain ⟨hstill, hresult⟩ :=
      (h.fails running reads reader inbox receiver queue outcome isCancelled).2 hopen
    exact ⟨.violated outcome hresult, hkept.handed hstill⟩
  -- From here on nothing is taken, and what was handed on before is all there is: the queue may be
  -- closed by now, so it has to be said of the time before.
  | ends asked reader halts =>
    refine ⟨?_, h.handed hopen⟩
    rcases asked with hasking | ⟨hwaiting, hended⟩
    · exact .askedForNothing hasking
    · refine .ended hended ?_
      change a.sent = a.input ++ d.reads.flatten
      rw [h.all hreader, hwaiting, halts.reads]
  | readFails asking => exact ⟨.readFails asking, h.handed hopen⟩
  | gone isBroken => exact ⟨.gone isBroken, h.handed hopen⟩
  | cancel => exact ⟨.cancelled, h.handed hopen⟩
  | follows beside stopped => exact absurd stopped hstopped

/-! ## After that -/

/-- What can have become of an intake whose session was closed. -/
structure Ends (b c : Intake) : Prop where
  isCancelled : c.connection.isCancelled = true
  handed : b.handed <+: c.handed
  /-- At most one more read has been taken. -/
  taken : c.taken = b.taken ∨
    c.connection.outcome.isSome = true ∧ ∃ last, c.taken = b.taken ++ [last]
  /-- If none waited and none was to come, none has been taken. -/
  settled : b.connection.reader.hasStopped = true → b.connection.reads = [] →
    c.connection.reader.hasStopped = true ∧ c.connection.reads = [] ∧ c.taken = b.taken ∧
      c.handed = b.handed

variable {c : Intake}

theorem Ends.refl (h : b.connection.isCancelled = true) : Ends b b :=
  ⟨h, List.prefix_refl _, .inl rfl, fun hreader hreads => ⟨hreader, hreads, rfl, rfl⟩⟩

theorem Ends.quiet (h : Ends b a) (quiet : Quiet a.connection c.connection)
    (reads : a.connection.reader.hasStopped = true → c.connection.reads = a.connection.reads)
    (taken : c.taken = a.taken) (handed : c.handed = a.handed) : Ends b c := by
  refine ⟨quiet.isCancelled.trans h.isCancelled, handed ▸ h.handed, ?_, fun hreader hreads => ?_⟩
  · rw [taken, quiet.outcome]
    exact h.taken
  · obtain ⟨hstopped, hempty, hsame, hmessages⟩ := h.settled hreader hreads
    exact ⟨quiet.reader.trans hstopped, (reads hstopped).trans hempty, taken.trans hsame,
      handed.trans hmessages⟩

theorem Ends.halts (h : Ends b a) (halts : Halts a.connection d) :
    Ends b { a with connection := d } := by
  refine ⟨halts.isCancelled, h.handed, ?_, fun hreader hreads => ?_⟩
  · rcases h.taken with hnone | ⟨hdone, hone⟩
    · exact .inl hnone
    · refine .inr ⟨?_, hone⟩
      rcases halts.outcome with hsame | hsome
      · exact hsame ▸ hdone
      · exact hsome
  · obtain ⟨hstopped, hempty, hsame, hmessages⟩ := h.settled hreader hreads
    refine ⟨Bool.eq_true_of_not_eq_false fun hgoes => ?_, halts.reads.trans hempty, hsame,
      hmessages⟩
    cases hstopped.symm.trans (halts.waiting hgoes).1

/-- The read that is taken is the last one. -/
theorem Ends.receive (h : Ends b a) {bytes : Bytes} (running : a.connection.outcome = none)
    (reads : a.connection.reads = bytes :: d.reads) (isCancelled : d.isCancelled = true)
    (outcome : d.outcome.isSome = true) : Ends b (a.after d (.fire .receive)) := by
  rw [after_receive reads]
  refine ⟨isCancelled, h.handed.trans (List.prefix_append _ _), ?_, fun hreader hreads => ?_⟩
  · rcases h.taken with hnone | ⟨hdone, -⟩
    · exact .inr ⟨outcome, bytes, congrArg (· ++ [bytes]) hnone⟩
    · rw [running] at hdone
      cases hdone
  · obtain ⟨-, hempty, -⟩ := h.settled hreader hreads
    cases reads.symm.trans hempty

theorem Ends.move (h : Ends b a) {move : Move} (hmove : a.move move = some c) : Ends b c := by
  obtain ⟨d, hd, rfl⟩ := Option.map_eq_some_iff.mp hmove
  cases took_move hd with
  | passes beside quiet waiting reads =>
    rw [after_beside beside]
    exact h.quiet quiet (fun _ => reads) rfl rfl
  | handOver quiet reader =>
    exact h.quiet quiet (fun hreader => by cases reader.symm.trans hreader) rfl rfl
  | arrive quiet waiting reads => exact h.quiet quiet (fun _ => reads) rfl rfl
  | @receive bytes running reads reader inbox writer receiver outcome =>
    have hcancelled : d.isCancelled = true := by
      have hstays := Receiver.isClosed_process bytes h.isCancelled
      rw [receiver] at hstays
      exact hstays
    rw [if_pos hcancelled] at outcome
    exact h.receive running reads hcancelled (by rw [outcome]; rfl)
  | fails running reads reader inbox receiver queue outcome isCancelled =>
    exact h.receive running reads isCancelled (by rw [outcome]; rfl)
  | ends asked reader halts => exact h.halts halts
  | readFails asking halts => exact h.halts halts
  | gone isBroken halts => exact h.halts halts
  | cancel halts => exact h.halts halts
  | follows beside stopped halts =>
    rw [after_beside beside]
    exact h.halts halts

theorem Ends.run (h : Ends b a) {moves : List Move} (hrun : a.run moves = some c) : Ends b c :=
  preserved_of_moves (fun _ _ _ hends hmove => hends.move hmove) h hrun

/-! ## What can be said at any time -/

/-- What can be said of an intake at any time. -/
structure Faithful (first : Receiver) (a : Intake) : Prop where
  /-- What was taken and what waits is a front part of what was sent. -/
  front : a.input ++ a.connection.reads.flatten <+: a.sent
  /-- Until the session is closed all that was sent is taken or waits. -/
  all : a.connection.isCancelled = false → a.sent = a.input ++ a.connection.waiting
  /-- Until the writer stops, what was handed on is what the reads that were taken complete. -/
  handed : a.connection.queue.isOpen = true → a.handed = Receiver.handed (first.push a.input)
  /-- Nothing else closes the session, and nothing is missing then. -/
  stops : ∀ move b, a.connection.isCancelled = false → a.move move = some b →
    b.connection.isCancelled = true →
      Stops first a b move ∧ b.handed = Receiver.handed (first.push b.input)
  /-- Once it is closed one more read may be taken. -/
  taken : a.connection.isCancelled = true → ∀ moves c, a.run moves = some c →
    a.handed <+: c.handed ∧ ∃ last, c.taken = a.taken ++ last ∧ last.length ≤ 1
  /-- If nothing waits when the reader finds the end of the input, all is handed on. -/
  ended : ∀ b, a.connection.isCancelled = false → a.connection.reads = [] →
    a.connection.requested ≠ 0 → a.move (.fire (.read 0)) = some b →
      ∀ moves c, b.run moves = some c → c.handed = Receiver.handed (first.push b.sent)

theorem Kept.ended (h : a.Kept first) (hgoes : a.connection.isCancelled = false)
    (hreads : a.connection.reads = []) (hasks : a.connection.requested ≠ 0)
    (hmove : a.move (.fire (.read 0)) = some b) {moves : List Move}
    (hrun : b.run moves = some c) : c.handed = Receiver.handed (first.push b.sent) := by
  have hend : b.connection = { a.connection.cancel with reader := .stopped } := by
    obtain ⟨d, hd, rfl⟩ := Option.map_eq_some_iff.mp hmove
    exact read_zero hd
  have hcancelled : b.connection.isCancelled = true := congrArg Connection.isCancelled hend
  have hreader : b.connection.reader.hasStopped = true := congrArg (·.reader.hasStopped) hend
  have hempty : b.connection.reads = [] := (congrArg Connection.reads hend).trans hreads
  obtain ⟨hstops, hhanded⟩ := h.stops hgoes hmove hcancelled
  obtain ⟨-, -, -, hmessages⟩ := ((Ends.refl hcancelled).run hrun).settled hreader hempty
  cases hstops with
  | ended isEnded all =>
    rw [hempty, List.flatten_nil, List.append_nil] at all
    rw [hmessages, hhanded, all]
  | askedForNothing asking =>
    rw [requested, asking] at hasks
    exact absurd rfl hasks

/-- Whatever the order of events, nothing is lost until the session is closed. -/
theorem handed_until_stopped {session : Session} {nonce : Nonce} {capacity : Nat}
    {moves : List Move} (hrun : (start session nonce capacity).run moves = some a) :
    a.Faithful (start session nonce capacity).connection.receiver := by
  have h := (kept_start session nonce capacity).run hrun
  refine ⟨h.front, fun hgoes => ?_, h.handed, fun _ _ => h.stops,
    fun hcancelled moves c hafter => ?_,
    fun b hgoes hreads hasks hmove moves c => h.ended hgoes hreads hasks hmove⟩
  · obtain ⟨hstopped, -⟩ := h.running hgoes
    exact h.all (Bool.eq_false_of_not_eq_true fun hreader => hstopped (.inr (.inl hreader)))
  · have hends := (Ends.refl hcancelled).run hafter
    refine ⟨hends.handed, ?_⟩
    rcases hends.taken with hnone | ⟨-, last, hone⟩
    · exact ⟨[], hnone.trans (List.append_nil _).symm, Nat.zero_le _⟩
    · exact ⟨[last], hone, Nat.le_refl _⟩

/-! ## A frame at the end -/

/-- C2 and a video frame of one byte in a chunk. -/
def echoAndFrame : Bytes :=
  List.replicate 8 0 ++ sevens.bytes ++ [3, 0, 0, 0, 0, 0, 1, 9, 1, 0, 0, 0, 23]

/-- C0 and C1 are answered. Then the rest comes and no more, and the reader hands it over. -/
def handingOver : List Move :=
  [.arrive plainOpening, .fire .ask, .fire (.read 1536), .fire .handOver, .fire .ask,
    .fire (.read 1), .fire .handOver, .fire .receive, .fire .receive, .fire (.gather 2),
    .fire (.write 1537), .fire (.write 1536), .fire .flush, .takeWritten, .arrive echoAndFrame,
    .endInput, .fire .ask, .fire (.read 1536), .fire .handOver, .fire .ask, .fire (.read 13),
    .fire .handOver]

/-- The reader finds the end, and the other loops stop. -/
def ending : List Move :=
  [.fire .ask, .fire (.read 0), .fire .stopReceiver, .fire .stopWriter, .fire .finish]

set_option maxRecDepth 16000 in
/-- The receiver takes both reads before the reader finds the end. -/
theorem handed_until_stopped_receiving :
    ∃ a, (start {} sevens 65536).run
        (handingOver ++ [.fire .receive, .fire .receive] ++ ending) = some a ∧
      a.connection.isFinished = true ∧ a.handed = [⟨⟨0⟩, .video, 1, [23]⟩] ∧
      a.Faithful (start {} sevens 65536).connection.receiver := by
  have hends : ((start {} sevens 65536).run
      (handingOver ++ [.fire .receive, .fire .receive] ++ ending)).map
        (fun a => (a.connection.isFinished, a.handed)) = some (true, [⟨⟨0⟩, .video, 1, [23]⟩]) := by
    cbv
  obtain ⟨a, hrun, hend⟩ := Option.map_eq_some_iff.mp hends
  obtain ⟨hfinished, hhanded⟩ := Prod.mk.inj hend
  exact ⟨a, hrun, hfinished, hhanded, handed_until_stopped hrun⟩

set_option maxRecDepth 16000 in
/-- If both reads still wait then, they are never taken, and the frame is lost. -/
theorem frame_lost_at_the_end :
    ∃ a b, (start {} sevens 65536).run handingOver = some a ∧
      a.connection.isCancelled = false ∧ a.connection.isEnded = true ∧
      a.run ending = some b ∧ b.connection.isFinished = true ∧
      b.connection.outcome = some (.ok ()) ∧ b.handed = [] ∧
      (Receiver.exhaust ((start {} sevens 65536).connection.receiver.push b.sent)).1 = .ok () ∧
      Receiver.handed ((start {} sevens 65536).connection.receiver.push b.sent)
        = [⟨⟨0⟩, .video, 1, [23]⟩] := by
  have hends : ((start {} sevens 65536).run handingOver).bind (fun a => (a.run ending).map
      fun b => (a.connection.isCancelled, a.connection.isEnded, b.connection.isFinished,
        b.connection.outcome, b.handed, b.sent))
      = some (false, true, true, some (.ok ()), [], plainOpening ++ echoAndFrame) := by
    cbv
  obtain ⟨a, hrun, hrest⟩ := Option.bind_eq_some_iff.mp hends
  obtain ⟨b, hending, hend⟩ := Option.map_eq_some_iff.mp hrest
  simp only [Prod.mk.injEq] at hend
  obtain ⟨hcancelled, hended, hfinished, houtcome, hhanded, hsent⟩ := hend
  refine ⟨a, b, hrun, hcancelled, hended, hending, hfinished, houtcome, hhanded, ?_, ?_⟩
  · rw [hsent]
    cbv
  · rw [hsent]
    cbv

end Intake

end RtmpEndpoint.Connection
