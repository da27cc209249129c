import RtmpEndpoint.Proofs.Connection.Closing

/-!
# Input in reads, whatever becomes of the session

Between two reads anything may happen to the session of a receiver. As long as something can be sent
on it, what is handed on of the reads is what the whole input completes.
-/

namespace RtmpEndpoint.Receiver

open RtmpEndpoint.Flow (SendQueue)

variable {r s : Receiver} {session : Session} {more : Bytes}

/-! ## Steps -/

/-- The action does the same with this session, except to the session. -/
def Impartial (session : Session) (x : Action (Option Nat)) (r : Receiver) : Prop :=
  ∃ next, x (r.withSession session) = ((x r).1, (x r).2.withSession next)

theorem impartial_takeC0C1 (handshake : Handshake) (hopen : r.queue.isOpen = true)
    (hsession : session.queue.isOpen = true) : Impartial session (takeC0C1 handshake) r := by
  have hbuffer : (r.withSession session).buffer = r.buffer := rfl
  unfold Impartial
  simp only [takeC0C1, hbuffer]
  cases handshake.receiveC0C1 r.buffer.bytes with
  | error error => exact ⟨session, rfl⟩
  | ok judged =>
    cases judged with
    | none => exact ⟨session, rfl⟩
    | some judged =>
      have hreply {session : Session} (hopen : session.queue.isOpen = true) :=
        sendReply_of_isOpen hopen judged.1
      refine ⟨sending [⟨judged.1.s0s1, none⟩, ⟨judged.1.s2, none⟩] session, ?_⟩
      simp only [Link.onSession, Transition.focus, withSession, hreply hsession,
        hreply (show r.link.session.queue.isOpen = true from hopen)]

theorem impartial_takeC2 (handshake : Handshake) : Impartial session (takeC2 handshake) r := by
  have hbuffer : (r.withSession session).buffer = r.buffer := rfl
  unfold Impartial
  simp only [takeC2, hbuffer]
  cases handshake.receiveC2 r.buffer.bytes with
  | error error => exact ⟨session, rfl⟩
  | ok judged => cases judged <;> exact ⟨session, rfl⟩

/-- Also during the handshake a step does the same whatever the session is, except to the
session. -/
theorem impartial_step (hopen : r.queue.isOpen = true) (hsession : session.queue.isOpen = true) :
    Impartial session step r := by
  cases hp : r.phase with
  | chunking =>
    obtain ⟨next, hsame, -⟩ := step_withSession (Prod.eta (step r)).symm hp hopen hsession
    exact ⟨next, hsame⟩
  | handshaking handshake =>
    have hthere : (r.withSession session).phase = .handshaking handshake := hp
    have hstage : (r.withSession session).stage = r.stage := rfl
    unfold Impartial
    cases hs : r.stage with
    | handshakeC0C1 =>
      rw [step, step, hthere, hstage, hp, hs]
      exact impartial_takeC0C1 handshake hopen hsession
    | handshakeC2 =>
      rw [step, step, hthere, hstage, hp, hs]
      exact impartial_takeC2 handshake
    | firstByteBasicHeader | chunkMessageHeader | extendedTimestamp | completeMessage =>
      rw [step, step, hthere, hstage, hp, hs]
      exact ⟨session, rfl⟩

/-! ## Following -/

/-- The receivers are alike but for their sessions and for what is counted, and one of them is yet
to get some of the input. On its session something can be sent. -/
def Behind (s r : Receiver) (more : Bytes) : Prop :=
  ∃ t session, Lags s t more ∧ r = t.withSession session ∧ session.queue.isOpen = true

theorem behind_push (input : Bytes) (hopen : r.queue.isOpen = true) :
    Behind (r.push input) r input :=
  ⟨r, r.link.session, ⟨(r.link.window.unacknowledged, r.link.window.received), r.queue, r.buffer,
    rfl, rfl, (Buffer.bytes_push r.buffer input).symm⟩, rfl, hopen⟩

theorem Behind.isOpen (h : Behind s r more) : r.queue.isOpen = true := by
  obtain ⟨t, session, -, rfl, hsession⟩ := h
  exact hsession

theorem Behind.push {input : Bytes} (h : Behind s r (input ++ more)) :
    Behind s (r.push input) more := by
  obtain ⟨t, session, hlags, rfl, hsession⟩ := h
  exact ⟨t.push input, session, hlags.push, rfl, hsession⟩

/-- Anything may happen to the session. -/
theorem Behind.withSession (h : Behind s r more) (hsession : session.queue.isOpen = true) :
    Behind s (r.withSession session) more := by
  obtain ⟨t, before, hlags, rfl, -⟩ := h
  exact ⟨t, session, hlags, rfl, hsession⟩

theorem Behind.hide (h : Behind s r more) (counts : UInt64 × UInt64) {q : SendQueue}
    (hq : q.isOpen = true) : Behind s (r.hide counts q r.buffer) more := by
  obtain ⟨t, session, hlags, rfl, -⟩ := h
  exact ⟨t.hide counts t.queue t.buffer, { session with queue := q },
    hlags.trans (lags_hide counts rfl), rfl, hq⟩

/-- The step of a receiver that follows is to wait, or the step of the one in front. -/
theorem Behind.step (h : Behind s r more) (hopen : s.queue.isOpen = true) :
    (step r).1 = .ok none ∨ ((step r).1 = (step s).1 ∧
      Behind (Receiver.step s).2 (Receiver.step r).2 more ∧ r.completes? = s.completes?) := by
  obtain ⟨t, session, hlags, rfl, hsession⟩ := h
  obtain ⟨next, hsame⟩ := impartial_step (hlags.isOpen.trans hopen) hsession
  obtain ⟨log, -, hrun⟩ := lags_step hopen
  rcases hrun t more hlags with hwait | ⟨hstep, hlags', -, hcompletes⟩
  · exact .inl (by rw [hsame]; exact hwait)
  · exact .inr ⟨by rw [hsame]; exact hstep, ⟨(Receiver.step t).2, next, hlags', by rw [hsame],
      isOpen_step hsame hsession⟩, hcompletes⟩

/-- With the same input both wait. -/
theorem Behind.waits (h : Behind s r []) (hopen : s.queue.isOpen = true)
    (hwait : (Receiver.step r).1 = .ok none) : (Receiver.step s).1 = .ok none := by
  obtain ⟨t, session, hlags, rfl, hsession⟩ := h
  obtain ⟨next, hsame⟩ := impartial_step (hlags.isOpen.trans hopen) hsession
  rw [hsame] at hwait
  exact hlags.waits hopen hwait

/-! ## Reads -/

/-- What comes of a read to a receiver that follows. It waits, and the one in front has a way to go
that hands on the rest, or both fail with the same error. -/
inductive Comes (s r : Receiver) (more : Bytes) :
    Except ConnectionError Unit × Receiver → Prop where
  | waits {t u : Receiver} (wait : (step t).1 = .ok none) (isOpen : u.queue.isOpen = true)
      (behind : Behind u t more) (handed : handed s = handed r ++ handed u)
      (result : (exhaust s).1 = (exhaust u).1) : Comes s r more (.ok (), t)
  | fails {error : ConnectionError} {t : Receiver} (isOpen : t.queue.isOpen = true)
      (handed : handed s = handed r) (result : (exhaust s).1 = .error error) :
      Comes s r more (.error error, t)

/-- However far a receiver is behind, a read does what the whole input does. -/
theorem Behind.comes (h : Behind s r more) (hopen : s.queue.isOpen = true) (framed : Nat) :
    Comes s r more (processOnto framed r) := by
  fun_induction processOnto framed r generalizing s with
  | case1 framed r error t hs =>
    rcases h.step hopen with hwait | ⟨hstep, hbehind, hcompletes⟩
    · rw [hs] at hwait
      cases hwait
    · rw [hs] at hstep
      have hfails : Receiver.step s = (.error error, (Receiver.step s).2) :=
        Prod.ext hstep.symm rfl
      refine .fails (isOpen_step hs h.isOpen) ?_ ?_
      · rw [handed_error hfails, handed_error hs, hcompletes]
      · rw [exhaust_error hfails]
  | case2 framed r n t hs ih =>
    rcases h.step hopen with hwait | ⟨hstep, hbehind, hcompletes⟩
    · rw [hs] at hwait
      cases hwait
    · rw [hs] at hstep hbehind
      have hgoes : Receiver.step s = (.ok (some n), (Receiver.step s).2) :=
        Prod.ext hstep.symm rfl
      have hcomes := ih hbehind (isOpen_step hgoes hopen)
      generalize processOnto (framed + n) t = result at hcomes ⊢
      cases hcomes with
      | waits wait isOpen behind handed result =>
        refine .waits wait isOpen behind ?_ ?_
        · rw [handed_some hgoes, handed_some hs, handed, hcompletes, List.append_assoc]
        · rw [exhaust_some hgoes, result]
      | fails isOpen handed result =>
        refine .fails isOpen ?_ ?_
        · rw [handed_some hgoes, handed_some hs, handed, hcompletes]
        · rw [exhaust_some hgoes, result]
  | case3 r t hs =>
    obtain rfl := step_none hs
    exact .waits (by rw [hs]) hopen h (by rw [handed_none hs]; rfl) rfl
  | case4 framed r t hs hframed link hcount =>
    obtain rfl := step_none hs
    obtain ⟨counts, log, hrecord, -, hface⟩ := Link.recordReceived_isOpen framed t.link h.isOpen
    rw [hrecord] at hcount
    obtain rfl := (Prod.mk.inj hcount).2
    -- Counting comes after the last step, so it must not set the receiver going again.
    have hstill := (lags_hide counts hface).symm.waits
      ((Flow.SendQueue.isOpen_of_face hface).trans h.isOpen) (congrArg Prod.fst hs)
    exact .waits hstill hopen (h.hide counts ((Flow.SendQueue.isOpen_of_face hface).trans h.isOpen))
      (by rw [handed_none hs]; rfl) rfl
  | case5 framed r t hs hframed error link hcount =>
    obtain rfl := step_none hs
    obtain ⟨counts, log, hrecord, -, -⟩ := Link.recordReceived_isOpen framed t.link h.isOpen
    rw [hrecord] at hcount
    cases hcount

end RtmpEndpoint.Receiver
