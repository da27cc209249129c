import RtmpEndpoint.Proofs.Connection.Lagging

/-!
# How the input is cut does not matter

Input comes in pieces, and a receiver takes what it can of each. Where the pieces end makes no
difference but for the acknowledgements, which are sent when a piece has been taken.
-/

namespace RtmpEndpoint

open RtmpEndpoint.Flow (SendQueue)
open RtmpEndpoint.Flow.SendQueue (Entry)

/-! ## Counting what was received -/

namespace Link

/-- The log has nothing in it but acknowledgements that were queued. -/
def OnlyAcknowledges (log : List Entry) : Prop := log.filter Entry.matters = []

/-- Counting received bytes queues an acknowledgement at most and changes only what is hidden. -/
theorem recordReceived_isOpen (bytes : Nat) (link : Link)
    (hopen : link.session.queue.isOpen = true) :
    ∃ counts log, recordReceived bytes link
        = (.ok (), link.hide counts (link.session.queue.replay log)) ∧
      OnlyAcknowledges log ∧ (link.session.queue.replay log).face = link.session.queue.face := by
  unfold recordReceived
  have hwindow : ∃ due unacknowledged received, link.window.record bytes
      = (due, { link.window with unacknowledged, received }) := by
    unfold Flow.Window.record
    dsimp only
    split
    · exact ⟨_, _, _, rfl⟩
    · split <;> exact ⟨_, _, _, rfl⟩
  obtain ⟨due, unacknowledged, received, hrecord⟩ := hwindow
  rw [hrecord]
  cases due with
  | none => exact ⟨(unacknowledged, received), [], rfl, rfl, rfl⟩
  | some sequenceNumber =>
    have hfits : Chunk.Splitter.Fits Chunk.controlStreamId ⟨.zero, .acknowledgement,
        controlMessageStreamId, Bytes.ofUInt32 sequenceNumber⟩ :=
      ⟨⟨by decide, by decide⟩, by simp [Bytes.ofUInt32, Chunk.maxMessageLength]⟩
    have hsend := SendQueue.send_of_fits hfits hopen
    refine ⟨(unacknowledged, received), [.message Chunk.controlStreamId
      ⟨.zero, .acknowledgement, controlMessageStreamId, Bytes.ofUInt32 sequenceNumber⟩], ?_, rfl,
      rfl⟩
    have hcontrol : Session.sendControl (.acknowledgement sequenceNumber) link.session
        = (.ok link.session.queue.messages, { link.session with
          queue := link.session.queue.queued Chunk.controlStreamId
            ⟨.zero, .acknowledgement, controlMessageStreamId, Bytes.ofUInt32 sequenceNumber⟩ }) := by
      have hencode : Session.encode (.acknowledgement sequenceNumber) link.session
          = (.ok (.acknowledgement, Bytes.ofUInt32 sequenceNumber), link.session) := rfl
      rw [Session.sendControl, Session.sendMessage, Transition.bind_ok hencode]
      simp only [Session.onQueue, Transition.focus, hsend]
    dsimp only
    rw [hcontrol]
    rfl

end Link

namespace Receiver

/-! ## Runs -/

/-- The receiver with more input. -/
def push (input : Bytes) (r : Receiver) : Receiver := { r with buffer := r.buffer.push input }

/-- The messages that are handed on before the receiver waits or fails. -/
def handed (r : Receiver) : List Payload :=
  match _h : step r with
  | (.ok (some _), s) => r.completes?.toList ++ handed s
  | (.ok none, _) => r.completes?.toList
  | (.error _, _) => r.completes?.toList
termination_by (r.buffer.size, r.stage.rank)
decreasing_by exact step_some _h

/-- Takes pieces of input one after the other, up to one that fails. -/
def processAll : List Bytes → Action Unit
  | [] => pure ()
  | input :: inputs => do
    process input
    processAll inputs

/-- The messages that are handed on while the pieces are taken. -/
def handedAll : List Bytes → Receiver → List Payload
  | [], _ => []
  | input :: inputs, r =>
    handed (r.push input) ++
      match process input r with
      | (.ok (), s) => handedAll inputs s
      | (.error _, _) => []

/-- All the steps that the input allows, with nothing counted. -/
def exhaust (r : Receiver) : Except ConnectionError Unit × Receiver :=
  match _h : step r with
  | (.error error, s) => (.error error, s)
  | (.ok (some _), s) => exhaust s
  | (.ok none, s) => (.ok (), s)
termination_by (r.buffer.size, r.stage.rank)
decreasing_by exact step_some _h

/-- What comes of the rest of a piece and the pieces after it. -/
structure Outcome where
  handed : List Payload
  result : Except ConnectionError Unit
  receiver : Receiver

/-- Messages that were handed on before. -/
def Outcome.after (payloads : List Payload) (o : Outcome) : Outcome :=
  { o with handed := payloads ++ o.handed }

/-- What comes of several pieces. -/
def outcomeAll (inputs : List Bytes) (r : Receiver) : Outcome :=
  ⟨handedAll inputs r, (processAll inputs r).1, (processAll inputs r).2⟩

/-- What comes of the rest of a piece, of which `framed` bytes have been taken, and the pieces after
it. -/
def outcome (framed : Nat) (inputs : List Bytes) (r : Receiver) : Outcome :=
  match processOnto framed r with
  | (.ok (), s) => (outcomeAll inputs s).after (handed r)
  | (.error error, s) => ⟨handed r, .error error, s⟩

variable {r s t : Receiver} {error : ConnectionError} {n : Nat}

theorem handed_error (h : step r = (.error error, t)) : handed r = r.completes?.toList := by
  rw [handed]
  split <;> simp_all

theorem handed_some (h : step r = (.ok (some n), t)) :
    handed r = r.completes?.toList ++ handed t := by
  rw [handed]
  split <;> simp_all

theorem handed_none (h : step r = (.ok none, t)) : handed r = [] := by
  have hnone := completes?_of_none h
  rw [handed]
  split <;> simp_all

theorem exhaust_error (h : step r = (.error error, t)) : exhaust r = (.error error, t) := by
  rw [exhaust]
  split <;> simp_all

theorem exhaust_some (h : step r = (.ok (some n), t)) : exhaust r = exhaust t := by
  rw [exhaust]
  split <;> simp_all

theorem exhaust_none (h : step r = (.ok none, t)) : exhaust r = (.ok (), r) := by
  have hsame := step_none h
  rw [exhaust]
  split <;> simp_all

theorem processOnto_error (framed : Nat) (h : step r = (.error error, t)) :
    processOnto framed r = (.error error, t) := by
  rw [processOnto]
  split <;> simp_all

theorem processOnto_some (framed : Nat) (h : step r = (.ok (some n), t)) :
    processOnto framed r = processOnto (framed + n) t := by
  rw [processOnto]
  split <;> simp_all

/-- Nothing is counted when nothing was taken. -/
theorem processOnto_none (h : step r = (.ok none, t)) : processOnto 0 r = (.ok (), t) := by
  rw [processOnto]
  split <;> simp_all

theorem outcome_error (framed : Nat) (inputs : List Bytes) (h : step r = (.error error, t)) :
    outcome framed inputs r = ⟨r.completes?.toList, .error error, t⟩ := by
  rw [outcome, processOnto_error framed h, handed_error h]

theorem outcome_some (framed : Nat) (inputs : List Bytes) (h : step r = (.ok (some n), t)) :
    outcome framed inputs r = (outcome (framed + n) inputs t).after r.completes?.toList := by
  rw [outcome, outcome, processOnto_some framed h, handed_some h]
  cases processOnto (framed + n) t with
  | mk result u => cases result <;> simp [Outcome.after]

/-- A piece more is the rest of the pieces with it in the buffer. -/
theorem outcomeAll_cons (input : Bytes) (inputs : List Bytes) (r : Receiver) :
    outcomeAll (input :: inputs) r = outcome 0 inputs (r.push input) := by
  have hprocess : process input r = processOnto 0 (r.push input) := rfl
  rw [outcomeAll, outcome, handedAll, processAll, Transition.bind_apply, hprocess]
  cases processOnto 0 (r.push input) with
  | mk result u => cases result <;> simp [Outcome.after, outcomeAll]

/-- Waiting counts what has been taken of the piece. -/
theorem processOnto_waiting (framed : Nat) (h : step r = (.ok none, t))
    (hopen : r.queue.isOpen = true) :
    ∃ counts log, Link.OnlyAcknowledges log ∧ (r.queue.replay log).face = r.queue.face ∧
      processOnto framed r = (.ok (), r.hide counts (r.queue.replay log) r.buffer) := by
  have hsame := step_none h
  subst hsame
  obtain ⟨counts, log, hrecord, hlog, hface⟩ := t.link.recordReceived_isOpen framed hopen
  by_cases hframed : framed = 0
  · subst hframed
    exact ⟨(t.link.window.unacknowledged, t.link.window.received), [], rfl, rfl,
      processOnto_none h⟩
  · refine ⟨counts, log, hlog, hface, ?_⟩
    rw [processOnto]
    split <;> simp_all
    rfl

/-- The next piece comes after that. -/
theorem outcome_none (framed : Nat) (h : step r = (.ok none, t)) (hopen : r.queue.isOpen = true) :
    ∃ counts log, Link.OnlyAcknowledges log ∧ (r.queue.replay log).face = r.queue.face ∧
      ∀ inputs, outcome framed inputs r
        = outcomeAll inputs (r.hide counts (r.queue.replay log) r.buffer) := by
  obtain ⟨counts, log, hlog, hface, hprocess⟩ := processOnto_waiting framed h hopen
  refine ⟨counts, log, hlog, hface, ?_⟩
  intro inputs
  rw [outcome, hprocess, handed_none h]
  simp [Outcome.after]

/-! ## Lagging behind -/

/-- The receivers are alike but for what is hidden, and for input that one of them is yet to get. -/
def Lags (s r : Receiver) (more : Bytes) : Prop :=
  ∃ counts q buffer, r = s.hide counts q buffer ∧ q.face = s.queue.face ∧
    buffer.bytes ++ more = s.buffer.bytes

theorem Lags.isOpen {more : Bytes} (h : Lags s r more) : r.queue.isOpen = s.queue.isOpen := by
  obtain ⟨counts, q, buffer, rfl, hface, -⟩ := h
  exact SendQueue.isOpen_of_face hface

theorem Lags.symm (h : Lags s r []) : Lags r s [] := by
  obtain ⟨counts, q, buffer, rfl, hface, hbytes⟩ := h
  rw [List.append_nil] at hbytes
  refine ⟨(s.link.window.unacknowledged, s.link.window.received), s.queue, s.buffer, rfl,
    hface.symm, ?_⟩
  rw [List.append_nil]
  exact hbytes.symm

theorem Lags.trans {more : Bytes} (h : Lags s r more) (h' : Lags r t []) : Lags s t more := by
  obtain ⟨counts, q, buffer, rfl, hface, hbytes⟩ := h
  obtain ⟨counts', q', buffer', rfl, hface', hbytes'⟩ := h'
  rw [List.append_nil] at hbytes'
  exact ⟨counts', q', buffer', rfl, hface'.trans hface, by rw [hbytes']; exact hbytes⟩

/-- What was counted and acknowledged is hidden. -/
theorem lags_hide (counts : UInt64 × UInt64) {q : SendQueue} (h : q.face = r.queue.face) :
    Lags r (r.hide counts q r.buffer) [] :=
  ⟨counts, q, r.buffer, rfl, h, List.append_nil _⟩

theorem Lags.push {input more : Bytes} (h : Lags s r (input ++ more)) :
    Lags s (r.push input) more := by
  obtain ⟨counts, q, buffer, rfl, hface, hbytes⟩ := h
  refine ⟨counts, q, buffer.push input, rfl, hface, ?_⟩
  rw [Buffer.bytes_push, List.append_assoc, hbytes]

/-- The step of a receiver that lags behind is to wait, or the step of the one in front. -/
theorem lags_step (hopen : s.queue.isOpen = true) :
    ∃ log, (step s).2.queue = s.queue.replay log ∧ ∀ r more, Lags s r more →
      (step r).1 = .ok none ∨ ((step r).1 = (step s).1 ∧ Lags (step s).2 (step r).2 more ∧
        (step r).2.queue = r.queue.replay log ∧ r.completes? = s.completes?) := by
  obtain ⟨log, hqueue, hrun⟩ := keeps_step hopen
  refine ⟨log, hqueue, ?_⟩
  rintro r more ⟨counts, q, buffer, rfl, hface, hbytes⟩
  rcases hrun counts q buffer more hface hbytes with ⟨hwait, -⟩ | ⟨left, hleft, hstep, hsame⟩
  · exact .inl (by rw [hwait])
  · have hafter : (q.replay log).face = (step s).2.queue.face := by
      rw [hqueue]
      exact SendQueue.face_replay hface log
    refine .inr ⟨by rw [hstep], ?_, by rw [hstep]; rfl, hsame⟩
    rw [hstep]
    exact ⟨counts, q.replay log, left, rfl, hafter, hleft⟩

/-- With the same input both wait. -/
theorem Lags.waits (h : Lags s r []) (hopen : s.queue.isOpen = true)
    (hwait : (step r).1 = .ok none) : (step s).1 = .ok none := by
  obtain ⟨log, -, hrun⟩ := lags_step (s := r) (h.isOpen.trans hopen)
  rcases hrun s [] h.symm with hs | ⟨hs, -⟩
  · exact hs
  · rw [hs, hwait]

/-- While a receiver waits it gets more pieces, until it goes on or there are none left. -/
theorem catch_up (hopen : s.queue.isOpen = true) (framed : Nat) {inputs : List Bytes}
    (h : Lags s r inputs.flatten) :
    ∃ framed' inputs' t log, Link.OnlyAcknowledges log ∧ t.queue = r.queue.replay log ∧
      Lags s t inputs'.flatten ∧ outcome framed inputs r = outcome framed' inputs' t ∧
      ((step t).1 = .ok none → inputs' = []) := by
  induction inputs generalizing framed r with
  | nil => exact ⟨framed, [], r, [], rfl, rfl, h, rfl, fun _ => rfl⟩
  | cons input inputs ih =>
    by_cases hwait : (step r).1 = .ok none
    · obtain ⟨counts, log, hlog, hface, hout⟩ :=
        outcome_none framed (Prod.ext hwait rfl) (h.isOpen.trans hopen)
      have hpushed : Lags s ((r.hide counts (r.queue.replay log) r.buffer).push input)
          inputs.flatten := (h.trans (lags_hide counts hface)).push
      obtain ⟨framed', inputs', t, log', hlog', hqueue, hlags, hout', hend⟩ := ih 0 hpushed
      refine ⟨framed', inputs', t, log ++ log', ?_, ?_, hlags, ?_, hend⟩
      · rw [Link.OnlyAcknowledges, List.filter_append, hlog, hlog', List.append_nil]
      · rw [hqueue, SendQueue.replay_append]
        rfl
      · rw [hout, outcomeAll_cons, hout']
    · exact ⟨framed, input :: inputs, r, [], rfl, rfl, h, rfl, fun hw => absurd hw hwait⟩

/-! ## Pieces and the whole -/

/-- What comes of the pieces is what comes of the whole input: `log` says what is sent then, and
among the pieces there are acknowledgements besides. -/
structure Matches (s : Receiver) (log : List Entry) (r : Receiver) (o : Outcome) : Prop where
  handed : o.handed = handed s
  result : o.result = (exhaust s).1
  sent : ∃ sent, o.receiver.queue = r.queue.replay sent ∧
    sent.filter Entry.matters = log.filter Entry.matters
  receiver : (exhaust s).1 = .ok () → Lags (exhaust s).2 o.receiver []

/-- Acknowledgements that were queued before do not count. -/
theorem Matches.of_queue {log acks : List Entry} {o : Outcome} (h : Matches s log t o)
    (hq : t.queue = r.queue.replay acks) (hacks : Link.OnlyAcknowledges acks) :
    Matches s log r o where
  handed := h.handed
  result := h.result
  sent := by
    obtain ⟨sent, hsent, hlog⟩ := h.sent
    refine ⟨acks ++ sent, by rw [hsent, hq, SendQueue.replay_append], ?_⟩
    rw [List.filter_append, hacks, hlog, List.nil_append]
  receiver := h.receiver

/-- It is enough to look at receivers that wait only when there are no pieces left. -/
theorem matches_of_caughtUp {log : List Entry} (hopen : s.queue.isOpen = true)
    (h : ∀ framed (inputs : List Bytes) t, Lags s t inputs.flatten →
      ((step t).1 = .ok none → inputs = []) → Matches s log t (outcome framed inputs t))
    (framed : Nat) {inputs : List Bytes} (hlags : Lags s r inputs.flatten) :
    Matches s log r (outcome framed inputs r) := by
  obtain ⟨framed', inputs', t, acks, hacks, hqueue, hlags', hout, hend⟩ :=
    catch_up hopen framed hlags
  rw [hout]
  apply Matches.of_queue _ hqueue hacks
  exact h framed' inputs' t hlags' hend

/-- Once it has caught up, the step is that of the one in front. -/
theorem step_of_caughtUp (hopen : s.queue.isOpen = true) :
    ∃ log, (step s).2.queue = s.queue.replay log ∧
      ∀ (inputs : List Bytes) t, Lags s t inputs.flatten →
        ((step t).1 = .ok none → inputs = []) →
        (step t).1 = (step s).1 ∧ ((step s).1 ≠ .ok none →
          Lags (step s).2 (step t).2 inputs.flatten ∧
          (step t).2.queue = t.queue.replay log ∧ t.completes? = s.completes?) := by
  obtain ⟨log, hqueue, hrun⟩ := lags_step hopen
  refine ⟨log, hqueue, ?_⟩
  intro inputs t hlags hend
  rcases hrun t _ hlags with hwait | ⟨hstep, hnext⟩
  · rw [hend hwait] at hlags
    have hstuck := hlags.waits hopen hwait
    exact ⟨hwait.trans hstuck.symm, fun hne => absurd hstuck hne⟩
  · exact ⟨hstep, fun _ => hnext⟩

/-- A receiver that lags behind comes to the same as the one that has all of the input. -/
theorem outcome_lags (s : Receiver) (hopen : s.queue.isOpen = true) :
    ∃ log, ∀ framed inputs r, Lags s r inputs.flatten →
      Matches s log r (outcome framed inputs r) := by
  induction s using exhaust.induct with
  | case1 s error t h =>
    obtain ⟨log, -, hrun⟩ := step_of_caughtUp hopen
    refine ⟨log, fun framed inputs r => matches_of_caughtUp hopen ?_ framed⟩
    intro framed inputs r hlags hend
    obtain ⟨hstep, hnext⟩ := hrun inputs r hlags hend
    obtain ⟨-, hsent, hcompletes⟩ := hnext (by simp [h])
    rw [h] at hstep
    have herror : step r = (.error error, (step r).2) := Prod.ext hstep rfl
    rw [outcome_error framed inputs herror]
    constructor
    · rw [handed_error h, hcompletes]
    · rw [exhaust_error h]
    · exact ⟨log, hsent, rfl⟩
    · rw [exhaust_error h]
      intro hok
      cases hok
  | case2 s n t h ih =>
    obtain ⟨log, hqueue, hrun⟩ := step_of_caughtUp hopen
    rw [h] at hqueue
    have hopen' : t.queue.isOpen = true := by rw [hqueue, SendQueue.isOpen_replay, hopen]
    obtain ⟨more, hmore⟩ := ih hopen'
    refine ⟨log ++ more, fun framed inputs r => matches_of_caughtUp hopen ?_ framed⟩
    intro framed inputs r hlags hend
    obtain ⟨hstep, hnext⟩ := hrun inputs r hlags hend
    obtain ⟨hlags', hsent, hcompletes⟩ := hnext (by simp [h])
    rw [h] at hstep hlags'
    have hsome : step r = (.ok (some n), (step r).2) := Prod.ext hstep rfl
    have hrest := hmore (framed + n) inputs (step r).2 hlags'
    rw [outcome_some framed inputs hsome]
    constructor
    · rw [handed_some h, ← hcompletes]
      exact congrArg _ hrest.handed
    · rw [exhaust_some h]
      exact hrest.result
    · obtain ⟨sent, hsent', hlog⟩ := hrest.sent
      refine ⟨log ++ sent, ?_, by rw [List.filter_append, List.filter_append, hlog]⟩
      rw [SendQueue.replay_append, ← hsent]
      exact hsent'
    · rw [exhaust_some h]
      exact hrest.receiver
  | case3 s t h =>
    obtain ⟨log, -, hrun⟩ := step_of_caughtUp hopen
    refine ⟨[], fun framed inputs r => matches_of_caughtUp hopen ?_ framed⟩
    intro framed inputs r hlags hend
    have hwait : (step r).1 = .ok none := by rw [(hrun inputs r hlags hend).1, h]
    rw [hend hwait] at hlags ⊢
    obtain ⟨counts, last, hlast, hface, hfinal⟩ :=
      outcome_none framed (Prod.ext hwait rfl) (hlags.isOpen.trans hopen)
    rw [hfinal]
    constructor
    · rw [handed_none h]
      rfl
    · rw [exhaust_none h]
      rfl
    · exact ⟨last, rfl, hlast⟩
    · rw [exhaust_none h]
      intro _
      exact hlags.trans (lags_hide counts hface)

/-! ## Two ways of cutting -/

/-- The receivers have come to the same state, up to the counts of received bytes and what the send
queue holds. -/
structure SameEnd (r s : Receiver) : Prop where
  phase : r.phase = s.phase
  stage : r.stage = s.stage
  rest : r.buffer.bytes = s.buffer.bytes
  assembler : r.link.assembler = s.link.assembler
  readSize : r.link.readSize = s.link.readSize
  readWindow : r.link.window.readSize = s.link.window.readSize
  writeWindow : r.link.window.writeSize = s.link.window.writeSize
  limit : r.link.window.limit = s.link.window.limit
  /-- The streams, the connection and everything else of the session. -/
  session : { r.link.session with queue := {} } = { s.link.session with queue := {} }
  /-- The write chunk size among others. -/
  face : r.queue.face = s.queue.face

theorem Lags.sameEnd (hr : Lags t r []) (hs : Lags t s []) : SameEnd r s := by
  obtain ⟨counts, q, buffer, rfl, hface, hbytes⟩ := hr
  obtain ⟨counts', q', buffer', rfl, hface', hbytes'⟩ := hs
  rw [List.append_nil] at hbytes hbytes'
  exact ⟨rfl, rfl, hbytes.trans hbytes'.symm, rfl, rfl, rfl, rfl, rfl, rfl,
    hface.trans hface'.symm⟩

/-- A receiver that nothing has come in to. -/
def fresh (nonce : Nonce) (link : Link) : Receiver := { phase := .handshaking { nonce }, link }

theorem step_fresh (nonce : Nonce) (link : Link) :
    step (fresh nonce link) = (.ok none, fresh nonce link) := rfl

/-- Nothing has been taken of a piece before the first one. -/
theorem outcome_fresh (nonce : Nonce) (link : Link) (inputs : List Bytes) :
    outcome 0 inputs (fresh nonce link) = outcomeAll inputs (fresh nonce link) := by
  rw [outcome, processOnto_none (step_fresh nonce link), handed_none (step_fresh nonce link)]
  rfl

theorem lags_fresh (nonce : Nonce) (link : Link) (input : Bytes) :
    Lags ((fresh nonce link).push input) (fresh nonce link) input :=
  ⟨(link.window.unacknowledged, link.window.received), link.session.queue, .empty, rfl, rfl, by
    rw [push, Buffer.bytes_push]
    rfl⟩

/-- However the input is cut, the same messages are handed on, with the same result. If nothing
failed the receiver ends in the same state, having sent the same but for acknowledgements. -/
theorem cutting_is_irrelevant (nonce : Nonce) (link : Link)
    (hopen : link.session.queue.isOpen = true) (first second : List Bytes)
    (hcut : first.flatten = second.flatten) :
    handedAll first (fresh nonce link) = handedAll second (fresh nonce link) ∧
      (processAll first (fresh nonce link)).1 = (processAll second (fresh nonce link)).1 ∧
      ((processAll first (fresh nonce link)).1 = .ok () →
        SameEnd (processAll first (fresh nonce link)).2 (processAll second (fresh nonce link)).2 ∧
        ∃ sent sent',
          (processAll first (fresh nonce link)).2.queue = link.session.queue.replay sent ∧
          (processAll second (fresh nonce link)).2.queue = link.session.queue.replay sent' ∧
          sent.filter Entry.matters = sent'.filter Entry.matters) := by
  obtain ⟨log, hrun⟩ := outcome_lags ((fresh nonce link).push first.flatten) hopen
  have hfirst := hrun 0 first (fresh nonce link) (lags_fresh nonce link first.flatten)
  have hsecond := hrun 0 second (fresh nonce link) (hcut ▸ lags_fresh nonce link second.flatten)
  rw [outcome_fresh] at hfirst hsecond
  refine ⟨hfirst.handed.trans hsecond.handed.symm, hfirst.result.trans hsecond.result.symm, ?_⟩
  intro hok
  have hwhole := hfirst.result.symm.trans hok
  obtain ⟨sent, hsent, hlog⟩ := hfirst.sent
  obtain ⟨sent', hsent', hlog'⟩ := hsecond.sent
  exact ⟨(hfirst.receiver hwhole).sameEnd (hsecond.receiver hwhole), sent, sent', hsent, hsent',
    hlog.trans hlog'.symm⟩

/-- C0 and C1 of the plainest kind. -/
def plainOpening : Bytes := 3 :: List.replicate 1536 0

theorem cutting_plainOpening :
    ({} : Session).queue.isOpen = true ∧
      [plainOpening].flatten = (plainOpening.map fun byte => [byte]).flatten ∧
      let r := fresh (.ofSeed 1) { readSize := { handshake := 1536, chunk := 128 }, session := {} }
      handedAll [plainOpening] r = handedAll (plainOpening.map fun byte => [byte]) r ∧
        (processAll [plainOpening] r).1 = (processAll (plainOpening.map fun byte => [byte]) r).1 := by
  have hcut : [plainOpening].flatten = (plainOpening.map fun byte => [byte]).flatten := by
    rw [List.flatten_singleton, ← List.flatMap_def, List.flatMap_singleton']
  refine ⟨rfl, hcut, ?_⟩
  obtain ⟨hhanded, hresult, -⟩ := cutting_is_irrelevant (.ofSeed 1)
    { readSize := { handshake := 1536, chunk := 128 }, session := {} } rfl
    [plainOpening] (plainOpening.map fun byte => [byte]) hcut
  exact ⟨hhanded, hresult⟩

end Receiver

end RtmpEndpoint
