import RtmpEndpoint.Proofs.Connection.Lagging
import RtmpEndpoint.Proofs.Session.Connecting
import RtmpEndpoint.Proofs.Session.Keeping

/-!
# What a message does to a connection

A message fails if it is of a protocol control type and malformed, or if it sets a chunk size of
zero, and whether it does has nothing to do with the session that it comes to. Neither have its
effects on everything beside the session.
-/

namespace RtmpEndpoint

namespace Message

/-- A chunk size is read from the first four bytes, of which one bit is dropped. -/
theorem decode_setChunkSize (data : Bytes) :
    (data.length < 4 → decode .setChunkSize data = .error .unexpectedEndOfPayload) ∧
      (4 ≤ data.length → ∃ size : UInt32, decode .setChunkSize data = .ok (.setChunkSize size) ∧
        size.toNat = Bytes.toNat (data.take 4) % 2 ^ 31) := by
  constructor
  · intro hshort
    have hsplit : data.split? 4 = none := Bytes.split?_eq_none_iff.mpr hshort
    simp only [decode, readUInt32, Bytes.number?, hsplit, Option.map_none]
    rfl
  · intro hwhole
    have hsplit := Bytes.split?_of_le hwhole
    have hlt : Bytes.toNat (data.take 4) < 2 ^ 32 := by
      have hlt := Bytes.toNat_lt (data.take 4)
      rwa [List.length_take, Nat.min_eq_left hwhole] at hlt
    refine ⟨UInt32.ofNat (Bytes.toNat (data.take 4)) &&& chunkSizeMask, ?_, ?_⟩
    · simp only [decode, readUInt32, Bytes.number?, hsplit, Option.map_some]
      rfl
    · rw [toNat_and_chunkSizeMask, UInt32.toNat_ofNat_of_lt' hlt]
      rfl

theorem isProtocolControl_iff (tag : Tag) :
    tag.isProtocolControl = true ↔ tag.id ∈ [1, 2, 3, 5, 6] := by
  obtain ⟨id⟩ := tag
  simp [Tag.isProtocolControl, or_assoc]

end Message

/-! ## Messages that end a connection -/

namespace Link

/-- The message ends the connection with this error: it is of a protocol control type and
malformed, or the chunk size that it sets is zero. -/
inductive Breaks (payload : Payload) : ConnectionError → Prop where
  | malformed {error : Message.DecodeError} (control : payload.tag.id ∈ [1, 2, 3, 5, 6])
      (bad : Message.decode payload.tag payload.data = .error error) :
      Breaks payload (.control error)
  | sizeZero (tag : payload.tag = .setChunkSize) (whole : 4 ≤ payload.data.length)
      (zero : Bytes.toNat (payload.data.take 4) % 2 ^ 31 = 0) :
      Breaks payload (.framing (.invalidMaxChunkSize 0))

/-- The first of the messages that ends the connection does so with this error. -/
inductive Broken : List Payload → ConnectionError → Prop where
  | here {payload : Payload} {rest : List Payload} {error : ConnectionError}
      (h : Breaks payload error) : Broken (payload :: rest) error
  | later {payload : Payload} {rest : List Payload} {error : ConnectionError}
      (harmless : ∀ error, ¬ Breaks payload error) (h : Broken rest error) :
      Broken (payload :: rest) error

/-- The messages that a message is taken as: an aggregate as those in it, and as none at all if it
is malformed. -/
def parts (payload : Payload) : List Payload :=
  if payload.tag = .aggregate then (Message.unpack payload).toOption.getD [] else [payload]

theorem broken_cons_iff {payload : Payload} {rest : List Payload} {error : ConnectionError} :
    Broken (payload :: rest) error ↔
      Breaks payload error ∨ ((∀ error, ¬ Breaks payload error) ∧ Broken rest error) := by
  constructor
  · rintro (h | ⟨harmless, h⟩)
    · exact .inl h
    · exact .inr ⟨harmless, h⟩
  · rintro (h | ⟨harmless, h⟩)
    · exact .here h
    · exact .later harmless h

variable {link : Link} {payload : Payload} {error : ConnectionError} {α : Type}

/-- A message that is read without an error breaks nothing, unless it sets the chunk size. -/
theorem harmless_of_decode {message : Message}
    (h : Message.decode payload.tag payload.data = .ok message) (htag : payload.tag ≠ .setChunkSize)
    (error : ConnectionError) : ¬ Breaks payload error := by
  rintro (⟨-, bad⟩ | ⟨tag, -, -⟩)
  · cases h.symm.trans bad
  · exact htag tag

theorem harmless_of_tag (h : payload.tag.isProtocolControl = false) (error : ConnectionError) :
    ¬ Breaks payload error := by
  rintro (⟨control, -⟩ | ⟨tag, -, -⟩)
  · rw [(Message.isProtocolControl_iff _).mpr control] at h
    cases h
  · rw [tag] at h
    cases h

/-! ## What an action fails with -/

theorem Oblivious.isOpen {x : Link → α × Link} (h : Oblivious x) (link : Link)
    (hopen : link.session.queue.isOpen = true) : (x link).2.session.queue.isOpen = true := by
  obtain ⟨log, hqueue, -⟩ := h.run link hopen
  rw [hqueue, Flow.SendQueue.isOpen_replay, hopen]

/-- As long as something can be sent, the action fails here with these errors and no others, and
what it does beside the session is the same for every session. The assembler remembers the headers
that it has, and a session that is closed stays closed. -/
structure HeedsAt (errors : ConnectionError → Prop) (x : Action Unit) (link : Link) : Prop where
  fails : ∀ session : Session, session.queue.isOpen = true →
    ∀ error, (x { link with session }).1 = .error error ↔ errors error
  same : ∃ next : Link, ∀ session : Session, session.queue.isOpen = true →
    ∃ t, (x { link with session }).2 = { next with session := t }
  headers : ∀ session, (x { link with session }).2.assembler.headers = link.assembler.headers
  isClosed : ∀ session : Session, session.isClosed = true →
    (x { link with session }).2.session.isClosed = true

def Heeds (errors : ConnectionError → Prop) (x : Action Unit) : Prop :=
  ∀ link, HeedsAt errors x link

/-- The action does not fail. -/
abbrev Succeeds (x : Action Unit) : Prop := Heeds (fun _ => False) x

variable {p q : ConnectionError → Prop} {x y : Action Unit}

theorem heeds_congr (h : ∀ error, p error ↔ q error) : Heeds p x ↔ Heeds q x := by
  rw [show p = q from funext fun error => propext (h error)]

/-- An action that goes on as another one does, once something beside the session has changed. -/
theorem HeedsAt.of_eq {other : Link} (hy : HeedsAt p y other)
    (h : ∀ session, x { link with session } = y { other with session })
    (headers : other.assembler.headers = link.assembler.headers) : HeedsAt p x link where
  fails session hopen := by
    rw [h]
    exact hy.fails session hopen
  same := by
    obtain ⟨next, hsame⟩ := hy.same
    refine ⟨next, fun session hopen => ?_⟩
    rw [h]
    exact hsame session hopen
  headers session := by
    rw [h]
    exact (hy.headers session).trans headers
  isClosed session hclosed := by
    rw [h]
    exact hy.isClosed session hclosed

/-- The session has no say in what the action does beside it. -/
theorem HeedsAt.impartial (h : HeedsAt p x link) {session : Session}
    (hlink : link.session.queue.isOpen = true) (hsession : session.queue.isOpen = true) :
    ∃ t, x { link with session } = ((x link).1, { (x link).2 with session := t }) := by
  obtain ⟨next, hsame⟩ := h.same
  obtain ⟨t, ht⟩ := hsame link.session hlink
  obtain ⟨u, hu⟩ := hsame session hsession
  have hresult : (x { link with session }).1 = (x link).1 := by
    have hfails := h.fails link.session hlink
    cases hx : (x link).1 with
    | error error => exact (h.fails session hsession error).mpr ((hfails error).mp hx)
    | ok =>
      cases hy : (x { link with session }).1 with
      | error error =>
        cases hx.symm.trans ((hfails error).mpr ((h.fails session hsession error).mp hy))
      | ok => rfl
  have ht : (x link).2 = { next with session := t } := ht
  exact ⟨u, Prod.ext hresult (by rw [hu, ht])⟩

theorem heeds_fail (error : ConnectionError) : Heeds (· = error) (Transition.fail error) :=
  fun link => ⟨fun _ _ other => by simp [eq_comm], ⟨link, fun session _ => ⟨session, rfl⟩⟩,
    fun _ => rfl, fun _ => id⟩

/-- An action of the session that never fails. -/
theorem succeeds_onSession {x : Session.Action Unit}
    (result : ∀ s : Session, s.queue.isOpen = true → (x s).1 = .ok ())
    (isClosed : ∀ s : Session, s.isClosed = true → (x s).2.isClosed = true) :
    Succeeds (onSession x) := by
  intro link
  have hnext (session : Session) :
      (onSession x { link with session }).2 = { link with session := (x session).2 } := by
    simp only [onSession, Transition.focus]
    cases x session with
    | mk answer t => cases answer <;> rfl
  refine ⟨fun session hopen error => ?_, ⟨link, fun session _ => ⟨_, hnext session⟩⟩,
    fun session => by rw [hnext], fun session hclosed => ?_⟩
  · have hresult := result session hopen
    simp only [onSession, Transition.focus]
    cases hrun : x session with
    | mk answer t =>
      rw [hrun] at hresult
      obtain rfl : answer = .ok () := hresult
      simp
  · rw [hnext]
    exact isClosed session hclosed

theorem succeeds_pure : Succeeds (pure ()) :=
  succeeds_onSession (x := pure ()) (fun _ _ => rfl) fun _ => id

theorem then_cases (x y : Action Unit) (link : Link) :
    (∃ error, (x link).1 = .error error ∧
      (x >>= fun _ => y) link = (.error error, (x link).2)) ∨
    ((x link).1 = .ok () ∧ (x >>= fun _ => y) link = y (x link).2) := by
  rw [Transition.bind_apply]
  cases x link with
  | mk result next =>
    cases result with
    | error error => exact .inl ⟨error, rfl, rfl⟩
    | ok => exact .inr ⟨rfl, rfl⟩

/-- What comes after an action that fails does not count. -/
theorem heeds_then (hx : Heeds p x) (hy : Heeds q y) (hsee : Oblivious x) :
    Heeds (fun error => p error ∨ ((∀ error, ¬ p error) ∧ q error)) (x >>= fun _ => y) := by
  intro link
  obtain ⟨hfails, ⟨next, hsame⟩, hheaders, hclosed⟩ := hx link
  have hstill {session : Session} (hopen : session.queue.isOpen = true) :
      (x { link with session }).2.session.queue.isOpen = true :=
    hsee.isOpen { link with session } hopen
  constructor
  · intro session hopen other
    have hfails := hfails session hopen
    rcases then_cases x y { link with session } with ⟨error, hfirst, hrun⟩ | ⟨hfirst, hrun⟩
    · have hp : p error := (hfails error).mp hfirst
      rw [hrun, ← hfirst, hfails other]
      exact ⟨.inl, fun h => h.resolve_right fun hq => hq.1 error hp⟩
    · have hp : ∀ error, ¬ p error := fun error h => by
        cases hfirst.symm.trans ((hfails error).mpr h)
      rw [hrun, (hy _).fails _ (hstill hopen) other]
      exact ⟨fun hq => .inr ⟨hp, hq⟩, fun h => (h.resolve_left (hp other)).2⟩
  · obtain ⟨last, hlast⟩ := (hy next).same
    -- Whether the second action is carried out is the same for every session.
    by_cases hp : ∃ error, p error
    · obtain ⟨error, hp⟩ := hp
      refine ⟨next, fun session hopen => ?_⟩
      have hfirst := (hfails session hopen error).mpr hp
      rw [Transition.bind_error (Prod.ext hfirst rfl)]
      exact hsame session hopen
    · refine ⟨last, fun session hopen => ?_⟩
      rcases then_cases x y { link with session } with ⟨error, hfirst, -⟩ | ⟨-, hrun⟩
      · exact absurd ⟨error, (hfails session hopen error).mp hfirst⟩ hp
      · have hstill := hstill hopen
        obtain ⟨t, hnext⟩ := hsame session hopen
        rw [hnext] at hstill
        rw [hrun, hnext]
        exact hlast t hstill
  · intro session
    rcases then_cases x y { link with session } with ⟨error, -, hrun⟩ | ⟨-, hrun⟩ <;> rw [hrun]
    · exact hheaders session
    · exact ((hy _).headers _).trans (hheaders session)
  · intro session hsession
    rcases then_cases x y { link with session } with ⟨error, -, hrun⟩ | ⟨-, hrun⟩ <;> rw [hrun]
    · exact hclosed session hsession
    · exact (hy _).isClosed _ (hclosed session hsession)

/-- A control message that a chunk stream has room for is sent. -/
theorem succeeds_answer {message : Message} {reply : Payload}
    (h : Session.Carries reply message) (hfits : reply.data.length ≤ Chunk.maxMessageLength) :
    Succeeds (do let _ ← onSession (Session.sendControl message) : Action Unit) := by
  rw [answer_eq]
  refine succeeds_onSession (fun s hopen => ?_) fun s hclosed => ?_
  · rw [Session.unawaited, Transition.bind_ok (Session.sendControl_fits h hfits hopen)]
    rfl
  · exact Session.lasts_isClosed.queueOnly
      (Session.queueOnly_unawaited (Session.queueOnly_sendMessage _ _ _ _)) s hclosed

/-- Routing a message to the session has no result. -/
theorem succeeds_dispatch (payload : Payload) : Succeeds (dispatch payload) :=
  succeeds_onSession (x := fun s => (.ok (), s.dispatch payload)) (fun _ _ => rfl)
    fun _ hclosed => Session.lasts_isClosed.dispatch payload hclosed

theorem succeeds_setPeerBandwidth (size : UInt32) (limit : BandwidthLimit) :
    Succeeds (setPeerBandwidth size limit) := by
  intro link
  have hcarries : Session.Carries ⟨.zero, .windowAcknowledgementSize, controlMessageStreamId,
      Bytes.ofUInt32 size⟩ (.windowAcknowledgementSize size) := ⟨rfl, rfl, rfl⟩
  have hanswer := succeeds_answer hcarries (by simp [Bytes.ofUInt32, Chunk.maxMessageLength])
  cases ha : link.window.accepts size limit with
  | false => exact (succeeds_pure link).of_eq (fun _ => setPeerBandwidth_ignored ha) rfl
  | true =>
    have haccepted := hanswer { link with
      window := { link.window with writeSize := some size, limit := some limit } }
    exact haccepted.of_eq (fun _ => setPeerBandwidth_accepted ha) rfl

/-- Of the sizes of 31 bits only zero is refused. -/
theorem heeds_setReadChunkSize {size : UInt32} (h : size.toNat < 2 ^ 31) :
    Heeds (fun error => size.toNat = 0 ∧ error = .framing (.invalidMaxChunkSize 0))
      (setReadChunkSize size) := by
  intro link
  by_cases hzero : size.toNat = 0
  · have hnone : link.assembler.setMaxSize size.toNat = .error (.invalidMaxChunkSize 0) := by
      rw [hzero]
      rfl
    have hfail := heeds_fail (.framing (.invalidMaxChunkSize 0)) link
    simp only [hzero, true_and]
    exact hfail.of_eq (fun _ => setReadChunkSize_refused hnone) rfl
  · have hsome : link.assembler.setMaxSize size.toNat
        = .ok { link.assembler with maxSize := ⟨size.toNat, by omega, by omega⟩ } := by
      rw [Chunk.Assembler.setMaxSize, Chunk.Size.ofNat?, dif_pos ⟨by omega, by omega⟩]
    have hdone := succeeds_pure { link with
      assembler := { link.assembler with maxSize := ⟨size.toNat, by omega, by omega⟩ }
      readSize := link.readSize.setChunk size.toNat }
    simp only [hzero, false_and]
    exact hdone.of_eq (fun _ => setReadChunkSize_accepted hsome) rfl

theorem succeeds_control {message : Message} (h : ∀ size, message ≠ .setChunkSize size) :
    Succeeds (control message) := by
  cases message with
  | setChunkSize size => exact absurd rfl (h size)
  | setPeerBandwidth size limit => exact succeeds_setPeerBandwidth size limit
  | abort chunkStreamId =>
    exact fun link => (succeeds_pure { link with
      assembler := link.assembler.abort chunkStreamId }).of_eq (fun _ => rfl) rfl
  | windowAcknowledgementSize size =>
    exact fun link => (succeeds_pure { link with
      window := link.window.setReadSize size }).of_eq (fun _ => rfl) rfl
  | acknowledgement bytes =>
    exact succeeds_onSession (x := Transition.update fun s => { s with
      queue := { s.queue with counter := s.queue.counter.acknowledge bytes } }) (fun _ _ => rfl)
      fun _ => id
  | userControl | audio | video | command | data | unknown => exact succeeds_pure

theorem succeeds_answerPing (decoded : Except Message.DecodeError Message) :
    Succeeds (answerPing decoded) := by
  unfold answerPing
  split
  · next timestamp =>
    have hcarries : Session.Carries ⟨.zero, .userControl, controlMessageStreamId,
        Message.encodeUserControl (.pingResponse timestamp)⟩
        (.userControl (.pingResponse timestamp)) := ⟨rfl, rfl, rfl⟩
    exact succeeds_answer hcarries (by simp [Message.encodeUserControl, Message.encodeEvent,
      Bytes.ofUInt32, Chunk.maxMessageLength])
  · exact succeeds_pure

/-! ## What a message fails with -/

theorem heeds_setChunkSize (htag : payload.tag = .setChunkSize) :
    Heeds (Breaks payload) (obeyControl (Message.decode payload.tag payload.data)) := by
  obtain ⟨hshort, hwhole⟩ := Message.decode_setChunkSize payload.data
  rw [← htag] at hshort hwhole
  by_cases hlen : payload.data.length < 4
  · rw [hshort hlen]
    refine (heeds_congr fun error => ⟨?_, ?_⟩).mpr (heeds_fail (.control .unexpectedEndOfPayload))
    · rintro (⟨-, bad⟩ | ⟨-, whole, -⟩)
      · cases (hshort hlen).symm.trans bad
        rfl
      · omega
    · rintro rfl
      exact .malformed (by simp [htag]) (hshort hlen)
  · obtain ⟨size, hdecode, hsize⟩ := hwhole (Nat.le_of_not_lt hlen)
    have hlt : size.toNat < 2 ^ 31 := by
      rw [hsize]
      exact Nat.mod_lt _ (by decide)
    rw [hdecode]
    refine (heeds_congr fun error => ⟨?_, ?_⟩).mpr (heeds_setReadChunkSize hlt)
    · rintro (⟨-, bad⟩ | ⟨-, -, zero⟩)
      · cases hdecode.symm.trans bad
      · exact ⟨hsize.trans zero, rfl⟩
    · rintro ⟨hzero, rfl⟩
      exact .sizeZero htag (Nat.le_of_not_lt hlen) (hsize.symm.trans hzero)

theorem heeds_obeyControl (hcontrol : payload.tag.isProtocolControl = true) :
    Heeds (Breaks payload) (obeyControl (Message.decode payload.tag payload.data)) := by
  by_cases htag : payload.tag = .setChunkSize
  · exact heeds_setChunkSize htag
  cases hdecode : Message.decode payload.tag payload.data with
  | error error =>
    refine (heeds_congr fun other => ⟨?_, ?_⟩).mpr (heeds_fail (.control error))
    · rintro (⟨-, bad⟩ | ⟨tag, -, -⟩)
      · cases hdecode.symm.trans bad
        rfl
      · exact absurd tag htag
    · rintro rfl
      exact .malformed ((Message.isProtocolControl_iff _).mp hcontrol) hdecode
  | ok message =>
    have hother : ∀ size, message ≠ .setChunkSize size := by
      rintro size rfl
      exact htag (Session.tag_decode hdecode)
    exact (heeds_congr fun error => iff_of_false (harmless_of_decode hdecode htag error) id).mpr
      (succeeds_control hother)

theorem heeds_deliver (payload : Payload) : Heeds (Breaks payload) (deliver payload) := by
  rw [deliver_eq]
  split
  · next hcontrol => exact heeds_obeyControl hcontrol
  · next hcontrol =>
    have hharmless := harmless_of_tag (Bool.not_eq_true _ ▸ hcontrol)
    rw [heeds_congr fun error => iff_of_false (hharmless error) id]
    split
    · exact succeeds_answerPing _
    · exact succeeds_dispatch payload

theorem heeds_deliverAll (payloads : List Payload) :
    Heeds (Broken payloads) (deliverAll payloads) := by
  induction payloads with
  | nil => exact (heeds_congr fun error => iff_of_false nofun id).mpr succeeds_pure
  | cons payload rest ih =>
    exact (heeds_congr fun error => broken_cons_iff).mpr
      (heeds_then (heeds_deliver payload) ih (oblivious_deliver payload))

theorem deliverAll_singleton (payload : Payload) : deliverAll [payload] = deliver payload := by
  funext link
  rw [deliverAll, Transition.bind_apply]
  cases deliver payload link with
  | mk result t => cases result <;> rfl

/-- However it comes, a message is taken as its parts, one after the other. -/
theorem receive_eq (payload : Payload) : receive payload = deliverAll (parts payload) := by
  unfold receive parts
  split
  · cases Message.unpack payload <;> rfl
  · exact (deliverAll_singleton payload).symm

/-- A message fails with the error of the first of its parts that has one. -/
theorem heeds_receive (payload : Payload) : Heeds (Broken (parts payload)) (receive payload) := by
  rw [receive_eq]
  exact heeds_deliverAll _

end Link

end RtmpEndpoint
