import RtmpEndpoint.Proofs.Session.Bookkeeping

/-!
# What stands under an id

A session keeps its message streams and its NetStreams in two tables, and both go by the same ids.
Here is said once what an operation does to the entries of one id. What becomes of them in a whole
procedure then depends on nothing but the list of the operations that it has carried out.
-/

namespace RtmpEndpoint.Session

open Application (Operation Procedure)

/-- The entries of one id in the two tables. -/
structure Slot where
  messages : Option MessageStream
  netStream : Option NetStream

def slot (id : UInt32) (s : Session) : Slot := ⟨s.messageStream? id, s.netStream? id⟩

namespace Slot

/-- Without its message stream. The control stream stays. -/
def removed (id : UInt32) (a : Slot) : Slot :=
  { a with messages := if id = controlMessageStreamId then a.messages else none }

/-- Without its NetStream, and if there was one, without its message stream. -/
def closed (id : UInt32) (a : Slot) : Slot :=
  match a.netStream with
  | none => a
  | some _ => { a.removed id with netStream := none }

/-- All that an operation can do to the entries of an id. It is handed out only if it has no message
stream. -/
inductive Moves (id : UInt32) : Operation → Slot → Slot → Prop
  | closed (a : Slot) : Moves id (.deleteNetStream id) a (a.closed id)
  | removed (a : Slot) : Moves id (.removeMessageStream id) a (a.removed id)
  | opened (a : Slot) (csid : UInt32) (unused : a.messages = none)
    (inRange : 3 ≤ csid.toNat ∧ csid.toNat ≤ 65599) :
    Moves id .createNetStream a ⟨some (.forNetStream id), some ⟨id, csid⟩⟩
  | added (a : Slot) (unused : a.messages = none) :
    Moves id .createMessageStream a ⟨some { id }, a.netStream⟩
  | kept (operation : Operation) (a : Slot) (notClosed : operation ≠ .deleteNetStream id)
    (notRemoved : operation ≠ .removeMessageStream id) : Moves id operation a a

/-- One operation after the other. In between, handlers may be registered on the message stream. -/
inductive Follows (id : UInt32) : List Operation → Slot → Slot → Prop
  | nil (a : Slot) : Follows id [] a a
  | cons {operation : Operation} {operations : List Operation} {a b c : Slot}
    (first : Moves id operation a b) (rest : Follows id operations b c) :
    Follows id (operation :: operations) a c
  | registered {operations : List Operation} {a c : Slot} {stream : MessageStream}
    (more : List (Message.Tag × Handler)) (present : a.messages = some stream)
    (rest : Follows id operations
      { a with messages := some { stream with handlers := more ++ stream.handlers } } c) :
    Follows id operations a c

variable {id : UInt32} {a b c : Slot} {operation : Operation} {operations later : List Operation}

theorem closed_of_none (h : a.netStream = none) : a.closed id = a := by
  simp only [Slot.closed, h]

theorem netStream_closed (id : UInt32) (a : Slot) : (a.closed id).netStream = none := by
  unfold Slot.closed
  split
  · assumption
  · rfl

theorem messages_closed (hid : id ≠ controlMessageStreamId) (h : a.netStream ≠ none) :
    (a.closed id).messages = none := by
  unfold Slot.closed
  split
  · next hnone => exact absurd hnone h
  · exact if_neg hid

theorem Moves.follows (h : Moves id operation a b) : Follows id [operation] a b := .cons h (.nil b)

theorem Follows.append (h : Follows id operations a b) (h' : Follows id later b c) :
    Follows id (operations ++ later) a c := by
  induction h with
  | nil a => exact h'
  | cons first _ ih => exact .cons first (ih h')
  | registered more present _ ih => exact .registered more present (ih h')

/-- The entries name the id under which they stand, the chunk stream is one that can be handed out,
and the control stream is there. -/
structure Grounded (id : UInt32) (a : Slot) : Prop where
  control : id = controlMessageStreamId → a.messages ≠ none
  messages : ∀ stream, a.messages = some stream → stream.id = id
  netStream : ∀ stream, a.netStream = some stream →
    stream.id = id ∧ 3 ≤ stream.chunkStreamId.toNat ∧ stream.chunkStreamId.toNat ≤ 65599

theorem Grounded.removed (h : a.Grounded id) : (a.removed id).Grounded id where
  control hcontrol := by
    rw [Slot.removed, if_pos hcontrol]
    exact h.control hcontrol
  messages stream hstream := by
    simp only [Slot.removed] at hstream
    split at hstream
    · exact h.messages stream hstream
    · cases hstream
  netStream := h.netStream

theorem Grounded.closed (h : a.Grounded id) : (a.closed id).Grounded id := by
  unfold Slot.closed
  split
  · exact h
  · exact ⟨h.removed.control, h.removed.messages, nofun⟩

theorem Moves.grounded (h : Moves id operation a b) (ha : a.Grounded id) : b.Grounded id := by
  cases h with
  | closed => exact ha.closed
  | removed => exact ha.removed
  | opened _ csid _ inRange =>
    refine ⟨nofun, fun stream hstream => ?_, fun stream hstream => ?_⟩
    · cases hstream
      rfl
    · cases hstream
      exact ⟨rfl, inRange⟩
  | added =>
    refine ⟨nofun, fun stream hstream => ?_, ha.netStream⟩
    cases hstream
    rfl
  | kept => exact ha

theorem Follows.grounded (h : Follows id operations a b) (ha : a.Grounded id) : b.Grounded id := by
  induction h with
  | nil a => exact ha
  | cons first _ ih => exact ih (first.grounded ha)
  | registered more present _ ih =>
    refine ih ⟨nofun, fun stream hstream => ?_, ha.netStream⟩
    cases hstream
    have hid := ha.messages _ present
    exact hid

end Slot

/-! ## Operations -/

variable {α : Type} {s t : Session} {id : UInt32}

theorem QueueOnly.slot {x : Session → α × Session} (h : QueueOnly x) (s : Session) (id : UInt32) :
    (x s).2.slot id = s.slot id := by
  obtain ⟨queue, hnext⟩ := h s
  rw [hnext]
  rfl

theorem slot_allocateChunkStream (s : Session) (id : UInt32) :
    (allocateChunkStream s).2.slot id = s.slot id := by
  cases hcsid : s.registry.chunkStreamIds.allocate with
  | none => simp only [allocateChunkStream, Registry.allocateChunkStream, hcsid]
  | some handed =>
    simp only [allocateChunkStream, Registry.allocateChunkStream, hcsid]
    rfl

theorem inRange_of_allocated {csid : UInt32} (h : allocateChunkStream s = (.ok csid, t)) :
    3 ≤ csid.toNat ∧ csid.toNat ≤ 65599 := by
  cases hcsid : s.registry.chunkStreamIds.allocate with
  | none =>
    simp only [allocateChunkStream, Registry.allocateChunkStream, hcsid] at h
    cases (Prod.mk.inj h).1
  | some handed =>
    simp only [allocateChunkStream, Registry.allocateChunkStream, hcsid] at h
    cases (Prod.mk.inj h).1
    have hlive := (ChunkStreamIds.isLive_allocate hcsid).2 handed.1
    exact ChunkStreamIds.inRange_of_isLive (hlive.mpr (.inl rfl))

theorem slot_removeMessageStream (other : UInt32) (s : Session) (id : UInt32) :
    (s.removeMessageStream other).2.slot id
      = if other = id then (s.slot id).removed id else s.slot id := by
  by_cases hcontrol : other = controlMessageStreamId
  · have hnext : (s.removeMessageStream other).2.slot id = s.slot id := by
      simp only [removeMessageStream, Registry.remove, if_pos hcontrol]
    rw [hnext]
    split
    · next heq => simp only [Slot.removed, heq.symm.trans hcontrol, if_true]
    · rfl
  · have hget := Registry.get?_remove (r := s.registry) hcontrol id
    have hslot : (s.removeMessageStream other).2.slot id
        = ⟨(s.registry.remove other).2.get? id, s.netStream? id⟩ := rfl
    rw [hslot, hget]
    by_cases heq : other = id
    · have hid : id ≠ controlMessageStreamId := heq ▸ hcontrol
      simp only [heq, if_true, Slot.removed, if_neg hid]
      rfl
    · simp only [if_neg heq]
      rfl

theorem slot_deleteNetStream (other : UInt32) (s : Session) (id : UInt32) :
    (s.deleteNetStream other).2.slot id
      = if other = id then (s.slot id).closed id else s.slot id := by
  cases hother : s.netStreams.get? other with
  | none =>
    have hclosed (heq : other = id) : (s.slot id).closed id = s.slot id :=
      Slot.closed_of_none (heq ▸ hother)
    simp only [deleteNetStream, hother]
    split
    · next heq => exact (hclosed heq).symm
    · rfl
  | some stream =>
    let erased : Session := { s with netStreams := s.netStreams.erase other }
    have hmessages := slot_removeMessageStream other erased id
    have hslot : (s.deleteNetStream other).2.slot id
        = (erased.removeMessageStream other).2.slot id := by
      simp only [deleteNetStream, hother]
      rfl
    have herased : erased.slot id
        = ⟨s.messageStream? id, if other = id then none else s.netStream? id⟩ :=
      congrArg _ (Table.get?_erase ..)
    rw [hslot, hmessages, herased]
    by_cases heq : other = id
    · have hsome : s.netStream? id = some stream := heq ▸ hother
      simp only [if_pos heq, Slot.closed, slot, hsome, Slot.removed]
    · simp only [if_neg heq, slot]

/-- An id that is handed out had no message stream, and the others keep theirs. -/
theorem slot_addMessageStream {build : UInt32 → MessageStream} {given : UInt32}
    (h : addMessageStream build s = (.ok given, t)) (id : UInt32) :
    t.netStreams = s.netStreams ∧ s.messageStream? given = none ∧
      t.messageStream? id = if given = id then some (build id) else s.messageStream? id := by
  cases hadd : s.registry.add build with
  | none =>
    simp only [addMessageStream, hadd] at h
    cases (Prod.mk.inj h).1
  | some added =>
    obtain ⟨fresh, registry⟩ := added
    simp only [addMessageStream, hadd, Prod.mk.injEq, Except.ok.injEq] at h
    obtain ⟨rfl, rfl⟩ := h
    obtain ⟨hunused, -, hget⟩ := Registry.add_some hadd
    refine ⟨rfl, hunused, (hget id).trans ?_⟩
    split
    · next heq => rw [heq]
    · rfl

theorem addMessageStream_error {build : UInt32 → MessageStream} {error : SessionError}
    (h : addMessageStream build s = (.error error, t)) : t = s := by
  cases hadd : s.registry.add build <;> simp only [addMessageStream, hadd] at h
  · exact (Prod.mk.inj h).2.symm
  · cases (Prod.mk.inj h).1

theorem moves_createMessageStream (id : UInt32) (s : Session) :
    Slot.Moves id .createMessageStream (s.slot id) ((createMessageStream s).2.slot id) := by
  cases hadd : createMessageStream s with
  | mk answer t =>
    cases answer with
    | error error =>
      rw [addMessageStream_error hadd]
      exact .kept _ _ nofun nofun
    | ok given =>
      obtain ⟨hstreams, hunused, hget⟩ := slot_addMessageStream hadd id
      have hslot : t.slot id = ⟨t.messageStream? id, s.netStream? id⟩ := by
        simp only [slot, netStream?, hstreams]
      rw [hslot, hget]
      split
      · next heq => exact .added _ (heq ▸ hunused)
      · exact .kept _ _ nofun nofun

/-- What `createNetStream` leaves when both ids were to be had. -/
theorem moves_putNetStream {given csid : UInt32} (hcsid : 3 ≤ csid.toNat ∧ csid.toNat ≤ 65599)
    (h : addMessageStream .forNetStream s = (.ok given, t)) (id : UInt32) :
    Slot.Moves id .createNetStream (s.slot id) ((t.putNetStream ⟨given, csid⟩).slot id) := by
  obtain ⟨hstreams, hunused, hget⟩ := slot_addMessageStream h id
  have hslot : (t.putNetStream ⟨given, csid⟩).slot id
      = ⟨t.messageStream? id, (t.netStreams.insert given ⟨given, csid⟩).get? id⟩ := by
    cases hold : t.netStreams.get? given <;> simp only [putNetStream, hold] <;> rfl
  rw [hslot, hget, hstreams, Table.get?_insert]
  by_cases heq : given = id
  · rw [if_pos heq, if_pos heq, heq]
    exact .opened _ csid (heq ▸ hunused) hcsid
  · simp only [if_neg heq]
    exact .kept _ _ (by simp) (by simp)

theorem moves_createNetStream (id : UInt32) (s : Session) :
    Slot.Moves id .createNetStream (s.slot id) ((createNetStream s).2.slot id) := by
  have hallocate := slot_allocateChunkStream s id
  cases ha : allocateChunkStream s with
  | mk answer t =>
    rw [ha] at hallocate
    rw [← hallocate]
    cases answer with
    | error error =>
      simp only [createNetStream, ha]
      exact .kept _ _ (by simp) (by simp)
    | ok csid =>
      cases hadd : addMessageStream .forNetStream t with
      | mk answer u =>
        simp only [createNetStream, ha, hadd]
        cases answer with
        | error error =>
          rw [addMessageStream_error hadd]
          exact .kept _ _ (by simp) (by simp)
        | ok given => exact moves_putNetStream (inRange_of_allocated ha) hadd id

theorem moves_perform (id : UInt32) (operation : Operation) (s : Session) :
    Slot.Moves id operation (s.slot id) ((s.perform operation).2.slot id) := by
  have hkept (h : (s.perform operation).2.slot id = s.slot id)
      (notClosed : operation ≠ .deleteNetStream id)
      (notRemoved : operation ≠ .removeMessageStream id) :
      Slot.Moves id operation (s.slot id) ((s.perform operation).2.slot id) := by
    rw [h]
    exact .kept _ _ notClosed notRemoved
  cases operation with
  | createNetStream => exact moves_createNetStream id s
  | createMessageStream => exact moves_createMessageStream id s
  | deleteNetStream other =>
    have hnext : (s.perform (.deleteNetStream other)).2.slot id = _ :=
      slot_deleteNetStream other s id
    by_cases heq : other = id
    · rw [hnext, if_pos heq, heq]
      exact .closed _
    · exact hkept (by rw [hnext, if_neg heq]) (by simpa using heq) nofun
  | removeMessageStream other =>
    have hnext : (s.perform (.removeMessageStream other)).2.slot id = _ :=
      slot_removeMessageStream other s id
    by_cases heq : other = id
    · rw [hnext, if_pos heq, heq]
      exact .removed _
    · exact hkept (by rw [hnext, if_neg heq]) nofun (by simpa using heq)
  | allocateChunkStream => exact hkept (slot_allocateChunkStream s id) nofun nofun
  | send | sendMessage | sendControl =>
    exact hkept ((queueOnly_unawaited (queueOnly_sendMessage _ _ _ _)).slot s id) nofun nofun
  | setWriteChunkSize size =>
    exact hkept ((queueOnly_unawaited (queueOnly_setWriteChunkSize size)).slot s id) nofun nofun
  | connectionId | isClosed | information | unacknowledgedBytes | writeChunkSize
  | messageStreamIds | liveChunkStreams | close | netStream | releaseChunkStream =>
    exact hkept rfl nofun nofun

/-! ## Procedures -/

/-- The operations that a procedure carries out, in their order. -/
def performed : Procedure α → Session → List Operation
  | .done _, _ => []
  | .perform operation next, s =>
    operation :: performed (next (s.perform operation).1) (s.perform operation).2

theorem follows_runProcedure (id : UInt32) (procedure : Procedure α) (s : Session) :
    Slot.Follows id (performed procedure s) (s.slot id) ((s.runProcedure procedure).2.slot id) := by
  induction procedure generalizing s with
  | done value => exact .nil _
  | perform operation next ih => exact .cons (moves_perform id operation s) (ih _ _)

end RtmpEndpoint.Session
