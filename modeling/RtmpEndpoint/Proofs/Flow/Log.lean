import RtmpEndpoint.Proofs.Flow.Sending

/-!
# What happened to a queue

A log says what was queued, in order. A session sees little of its queue: whether it is open, how
much is unacknowledged and the chunk size. What it does depends on nothing else there, and so it
writes the same log on two queues that look alike, whatever they hold.
-/

namespace RtmpEndpoint.Flow

open Chunk (Size)

namespace SendQueue

/-- What happens to a queue. -/
inductive Entry where
  | raw (bytes : Bytes)
  | message (csid : UInt32) (payload : Payload)
  /-- A chunk size that takes effect after its announcement. -/
  | resized (bound : Size) (announcement : Payload)
  /-- A chunk size that was refused once its announcement had been split. Nothing is queued. -/
  | refused (announcement : Payload)
  /-- The peer has acknowledged bytes. Nothing is queued. -/
  | acknowledged (bytes : UInt32)

def Entry.apply (q : SendQueue) : Entry → SendQueue
  | raw bytes => { q with chunks := q.chunks ++ [⟨bytes, none⟩] }
  | message csid payload => q.queued csid payload
  | resized bound announcement => (q.queued Chunk.controlStreamId announcement).resized bound
  | refused announcement => q.compressed Chunk.controlStreamId announcement
  | acknowledged bytes => { q with counter := q.counter.acknowledge bytes }

/-- Whether the entry is anything else than an acknowledgement that was queued. -/
def Entry.matters : Entry → Bool
  | message _ payload => payload.tag ≠ .acknowledgement
  | _ => true

/-- The queue after everything in the log. -/
def replay (q : SendQueue) (log : List Entry) : SendQueue := log.foldl Entry.apply q

@[simp] theorem replay_nil (q : SendQueue) : q.replay [] = q := rfl

theorem replay_append (q : SendQueue) (log more : List Entry) :
    q.replay (log ++ more) = (q.replay log).replay more := List.foldl_append

/-- What a session sees of its queue. -/
structure Face where
  isOpen : Bool
  counter : WriteCounter
  maxSize : Size

def face (q : SendQueue) : Face := ⟨q.isOpen, q.counter, q.splitter.maxSize⟩

theorem isOpen_of_face {q r : SendQueue} (h : r.face = q.face) : r.isOpen = q.isOpen :=
  congrArg Face.isOpen h

theorem face_apply {q r : SendQueue} (h : r.face = q.face) (entry : Entry) :
    (entry.apply r).face = (entry.apply q).face := by
  simp only [face, Face.mk.injEq] at h
  obtain ⟨hopen, hcounter, hsize⟩ := h
  cases entry with
  | raw | message | refused | acknowledged =>
    simp only [Entry.apply, face, queued, compressed, Chunk.Splitter.afterMessage, hopen, hcounter,
      hsize]
  | resized => simp only [Entry.apply, face, queued, resized, hopen, hcounter]

/-- Queues that look alike do so after the same log. -/
theorem face_replay {q r : SendQueue} (h : r.face = q.face) (log : List Entry) :
    (r.replay log).face = (q.replay log).face := by
  induction log generalizing q r with
  | nil => exact h
  | cons entry log ih => exact ih (face_apply h entry)

theorem isOpen_apply (q : SendQueue) (entry : Entry) : (entry.apply q).isOpen = q.isOpen := by
  cases entry <;> rfl

/-- Nothing that is logged closes the queue. -/
theorem isOpen_replay (q : SendQueue) (log : List Entry) : (q.replay log).isOpen = q.isOpen := by
  induction log generalizing q with
  | nil => rfl
  | cons entry log ih => exact (ih _).trans (isOpen_apply q entry)

/-- Whether the action succeeds and what it logs depends on nothing but what a session sees of the
queue. How it numbers completions may. -/
def Logged {α : Type} (x : Transition SendQueue SendError α) : Prop :=
  ∀ q : SendQueue, q.isOpen = true →
    (∃ error log, ∀ r, r.face = q.face → x r = (.error error, r.replay log)) ∨
      ∃ log, ∀ r, r.face = q.face → ∃ answer, x r = (.ok answer, r.replay log)

theorem logged_sendRaw (bytes : Bytes) : Logged (sendRaw bytes) := by
  intro q hopen
  refine .inr ⟨[.raw bytes], ?_⟩
  intro r hface
  refine ⟨(), ?_⟩
  rw [sendRaw, if_pos (by rw [isOpen_of_face hface, hopen])]
  rfl

theorem logged_send (csid : UInt32) (payload : Payload) : Logged (send csid payload) := by
  intro q hopen
  by_cases hf : Chunk.Splitter.Fits csid payload
  · refine .inr ⟨[.message csid payload], ?_⟩
    intro r hface
    exact ⟨r.messages, send_of_fits hf (by rw [isOpen_of_face hface, hopen])⟩
  · obtain ⟨error, hsend⟩ := send_of_not_fits hf
    exact .inl ⟨.split error, [], fun r _ => hsend r⟩

theorem logged_setChunkSize (size : UInt32) (announcement : Payload) :
    Logged (setChunkSize size announcement) := by
  intro q hopen
  by_cases hf : Chunk.Splitter.Fits Chunk.controlStreamId announcement
  · cases hs : Size.ofNat? size.toNat with
    | none =>
      exact .inl ⟨.split (.invalidMaxChunkSize size), [.refused announcement],
        fun r _ => r.setChunkSize_of_none hf hs⟩
    | some bound =>
      refine .inr ⟨[.resized bound announcement], ?_⟩
      intro r hface
      exact ⟨r.messages, setChunkSize_of_fits hf hs (by rw [isOpen_of_face hface, hopen])⟩
  · obtain ⟨error, hset⟩ := setChunkSize_of_not_fits size hf
    exact .inl ⟨.split error, [], fun r _ => hset r⟩

end SendQueue

/-! ## States that have a queue -/

open SendQueue (Entry)

/-- A state with a queue in it. What is hidden in the state can be exchanged: the queue and some
counts beside it. -/
structure Layer (σ : Type) where
  Counts : Type
  queue : σ → SendQueue
  hide : Counts → SendQueue → σ → σ

namespace Layer

variable {σ α β ε : Type} (L : Layer σ)

/-- As long as the queue is open, the action answers the same from here and logs the same whatever
is hidden, provided that the queue looks the same. -/
def ObliviousAt (x : σ → α × σ) (s : σ) : Prop :=
  (L.queue s).isOpen = true →
    ∃ answer t log, (L.queue t).face = ((L.queue s).replay log).face ∧
      ∀ counts q, q.face = (L.queue s).face →
        x (L.hide counts q s) = (answer, L.hide counts (q.replay log) t)

/-- The action is oblivious of what is hidden. -/
def Oblivious (x : σ → α × σ) : Prop := ∀ s, L.ObliviousAt x s

variable {L} {s t : σ} {x : σ → α × σ}

/-- An action that goes on as another one does from a state with the same queue. -/
theorem ObliviousAt.of_eq {y : σ → α × σ} (hy : L.ObliviousAt y t) (hq : L.queue t = L.queue s)
    (h : ∀ counts q, x (L.hide counts q s) = y (L.hide counts q t)) : L.ObliviousAt x s := by
  intro hopen
  obtain ⟨answer, next, log, hface, hrun⟩ := hy (by rw [hq, hopen])
  refine ⟨answer, next, log, by rw [hface, hq], ?_⟩
  intro counts q hlook
  rw [h, hrun counts q (by rw [hlook, hq])]

/-- An action that leaves the queue alone and does not look at it. -/
theorem ObliviousAt.of_frame {answer : α} (hq : L.queue t = L.queue s)
    (h : ∀ counts q, x (L.hide counts q s) = (answer, L.hide counts q t)) : L.ObliviousAt x s :=
  fun _ => ⟨answer, t, [], congrArg SendQueue.face hq, fun counts q _ => h counts q⟩

/-- One action after another, which may depend on the answer of the first. -/
theorem ObliviousAt.andThen {f : α → σ → β × σ} (hx : L.ObliviousAt x s)
    (hf : ∀ answer, L.Oblivious (f answer)) : L.ObliviousAt (fun s => f (x s).1 (x s).2) s := by
  intro hopen
  obtain ⟨answer, next, log, hface, hrun⟩ := hx hopen
  have hstill : (L.queue next).isOpen = true := by
    rw [SendQueue.isOpen_of_face hface, SendQueue.isOpen_replay, hopen]
  obtain ⟨result, last, more, hface', hrun'⟩ := hf answer next hstill
  refine ⟨result, last, log ++ more, ?_, ?_⟩
  · rw [hface', SendQueue.replay_append]
    exact SendQueue.face_replay hface more
  · intro counts q hlook
    have hnext : (q.replay log).face = (L.queue next).face := by
      rw [hface]
      exact SendQueue.face_replay hlook log
    change f (x (L.hide counts q s)).1 (x (L.hide counts q s)).2 = _
    rw [hrun counts q hlook, hrun' counts (q.replay log) hnext, SendQueue.replay_append]

theorem oblivious_pure (a : α) : L.Oblivious (pure a : Transition σ ε α) :=
  fun _ => .of_frame rfl fun _ _ => rfl

theorem oblivious_bind {y : Transition σ ε α} {f : α → Transition σ ε β} (hy : L.Oblivious y)
    (hf : ∀ a, L.Oblivious (f a)) : L.Oblivious (y >>= f) := by
  intro s
  have hall : ∀ answer : Except ε α, L.Oblivious (fun s => match answer with
      | .ok a => f a s
      | .error e => ((.error e, s) : Except ε β × σ)) := by
    intro answer
    cases answer with
    | ok a => exact hf a
    | error e => exact fun _ => .of_frame rfl fun _ _ => rfl
  have hseq := (hy s).andThen hall
  apply hseq.of_eq rfl
  intro counts q
  rw [Transition.bind_apply]
  split <;> simp_all

/-- What comes after an action whose answer is not used. -/
theorem oblivious_then {y : Transition σ ε α} {z : Transition σ ε β}
    (hy : L.Oblivious (y >>= fun _ => pure () : Transition σ ε Unit)) (hz : L.Oblivious z) :
    L.Oblivious (y >>= fun _ => z) := by
  have hassoc : (y >>= fun _ => z)
      = (y >>= fun _ => pure () : Transition σ ε Unit) >>= fun _ => z := by
    funext s
    simp only [Transition.bind_apply]
    cases y s with
    | mk answer t => cases answer <;> rfl
  rw [hassoc]
  exact oblivious_bind hy fun _ => hz

end Layer

end RtmpEndpoint.Flow
