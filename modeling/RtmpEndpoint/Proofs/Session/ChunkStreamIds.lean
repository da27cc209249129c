import RtmpEndpoint.Proofs.Session.StreamIds
import RtmpEndpoint.Session.Basic

/-!
# Which chunk stream id is next

Chunk stream ids are handed out in order until each of them has been handed out once, whatever is
given back meanwhile. From then on it is always the smallest one that is not in use. What is in use
is told from the calls alone: an id that was handed out and has not been given back since.
-/

namespace RtmpEndpoint

namespace ChunkStreamIds

/-- A call about the chunk stream ids of a session. -/
inductive Request where
  | allocate
  | release (id : UInt32)

/-- What has come of a call. Nothing comes of an allocation that fails. -/
inductive Event where
  | issued (id : UInt32)
  | released (id : UInt32)

/-! What is said about the past is said about the events, the latest one first. -/

def issued (log : List Event) : List UInt32 :=
  log.filterMap fun
    | .issued id => some id
    | .released _ => none

/-- The ids that were handed out and have not been given back since. -/
def held : List Event → List UInt32
  | [] => []
  | .issued id :: log => id :: held log
  | .released id :: log => (held log).filter (· != id)

/-- The ids that a session hands out. -/
def InRange (id : UInt32) : Prop := 3 ≤ id.toNat ∧ id.toNat ≤ 65599

/-- The id is not in use, and it is the one to hand out. -/
structure Due (log : List Event) (id : UInt32) : Prop where
  inRange : InRange id
  unused : id ∉ held log
  /-- No id comes twice before each has come once. -/
  fresh : (∃ other, InRange other ∧ other ∉ issued log) → id ∉ issued log
  /-- After that the smallest one comes. -/
  least : (∀ other, InRange other → other ∈ issued log) →
    ∀ other, InRange other → other ∉ held log → id ≤ other

theorem issued_cons_issued (id : UInt32) (log : List Event) :
    issued (.issued id :: log) = id :: issued log := rfl

theorem issued_cons_released (id : UInt32) (log : List Event) :
    issued (.released id :: log) = issued log := rfl

/-! ## One call -/

variable {ids next : ChunkStreamIds} {id : UInt32} {log : List Event}

/-- The two ways to hand out an id, and the one not to. -/
theorem allocate_cases (ids : ChunkStreamIds) :
    (ids.next ≤ 65599 ∧ ∃ next, ids.allocate = some (UInt32.ofNat ids.next, next) ∧
      next.next = ids.next + 1) ∨
    (ids.next = 65600 ∧ ∃ id next, ids.allocate = some (id, next) ∧
      ids.free.ids.head? = some id ∧ next.next = ids.next) ∨
    (ids.next = 65600 ∧ ids.allocate = none ∧ ids.free.ids = []) := by
  have hle := ids.next_le
  by_cases hcounter : ids.next ≤ 65599
  · refine .inl ⟨hcounter, ?_⟩
    rw [allocate, dif_pos hcounter]
    exact ⟨_, rfl, rfl⟩
  · have hend : ids.next = 65600 := by omega
    refine .inr ?_
    rw [allocate, dif_neg hcounter]
    cases hhead : ids.free.ids.head? with
    | none => exact .inr ⟨hend, rfl, List.head?_eq_none_iff.mp hhead⟩
    | some id => exact .inl ⟨hend, id, _, rfl, rfl, rfl⟩

/-- Only when every id is live is there none to hand out. -/
theorem allocate_eq_none_iff :
    ids.allocate = none ↔ ∀ other, InRange other → ids.isLive other = true := by
  constructor
  · intro hnone other hother
    rcases allocate_cases ids with ⟨_, next', hnew, -⟩ | ⟨_, id', next', hold, -⟩ | ⟨hend, -, hfree⟩
    · cases hnew.symm.trans hnone
    · cases hold.symm.trans hnone
    · refine isLive_iff.mpr ⟨hother.1, by rw [hend]; exact Nat.lt_succ_of_le hother.2, ?_⟩
      rw [Bool.eq_false_iff, ne_eq, ← Table.mem_ids_iff, hfree]
      exact List.not_mem_nil
  · intro hall
    cases halloc : ids.allocate with
    | none => rfl
    | some handed =>
      obtain ⟨hunused, hnext⟩ := isLive_allocate halloc
      have hrange := inRange_of_isLive ((hnext handed.1).mpr (.inl rfl))
      exact absurd ((hall handed.1 hrange).symm.trans hunused) (by decide)

/-- An id that is given back at once was handed out in vain. -/
theorem isLive_release_allocate (h : ids.allocate = some (id, next)) (other : UInt32) :
    (next.release id).isLive other = ids.isLive other := by
  obtain ⟨hunused, hnext⟩ := isLive_allocate h
  rw [Bool.eq_iff_iff, isLive_release, hnext]
  constructor
  · rintro ⟨rfl | hlive, hne⟩
    · exact absurd rfl hne
    · exact hlive
  · intro hlive
    refine ⟨.inr hlive, ?_⟩
    rintro rfl
    exact absurd (hlive.symm.trans hunused) (by decide)

/-- What the ids say is what has happened to them. -/
structure Recorded (ids : ChunkStreamIds) (log : List Event) : Prop where
  held : ∀ id, id ∈ held log ↔ ids.isLive id = true
  nodup : (ChunkStreamIds.held log).Nodup
  issued : ∀ id, id ∈ issued log ↔ 3 ≤ id.toNat ∧ id.toNat < ids.next

theorem recorded_initial : Recorded initial [] where
  held id := by simp [ChunkStreamIds.held, isLive_initial]
  nodup := .nil
  issued id := by
    simp only [ChunkStreamIds.issued, List.filterMap_nil, List.not_mem_nil, initial, false_iff]
    omega

theorem toNat_next (h : ids.next ≤ 65599) : (UInt32.ofNat ids.next).toNat = ids.next :=
  UInt32.toNat_ofNat_of_lt' (Nat.lt_of_le_of_lt h (by decide))

namespace Recorded

theorem allocate (h : Recorded ids log) (halloc : ids.allocate = some (id, next)) :
    Recorded next (.issued id :: log) where
  held other := by
    rw [ChunkStreamIds.held, List.mem_cons, h.held, (isLive_allocate halloc).2]
  nodup := by
    refine List.nodup_cons.mpr ⟨?_, h.nodup⟩
    rw [h.held, (isLive_allocate halloc).1]
    decide
  issued other := by
    have hthree := ids.three_le_next
    rw [issued_cons_issued, List.mem_cons, h.issued]
    rcases allocate_cases ids with ⟨hle, next', hnew, hnext⟩ | ⟨_, id', next', hold, hhead, hnext⟩ |
      ⟨_, hnone, _⟩
    · cases hnew.symm.trans halloc
      have hid := toNat_next hle
      rw [hnext, ← UInt32.toNat_inj, hid]
      omega
    · cases hold.symm.trans halloc
      -- An id that was given back has been handed out before.
      have hrange := ids.free_lt id (List.mem_of_mem_head? hhead)
      rw [hnext]
      constructor
      · rintro (rfl | hother)
        · exact hrange
        · exact hother
      · exact .inr
    · cases hnone.symm.trans halloc

theorem release (h : Recorded ids log) (id : UInt32) :
    Recorded (ids.release id) (.released id :: log) where
  held other := by
    rw [ChunkStreamIds.held, List.mem_filter, h.held, isLive_release, bne_iff_ne]
  nodup := h.nodup.filter _
  issued other := by
    have hnext : (ids.release id).next = ids.next := by
      unfold ChunkStreamIds.release
      split <;> rfl
    rw [issued_cons_released, h.issued, hnext]

/-- All ids have been handed out when the counter is at its end, and not before. -/
theorem all_issued_iff (h : Recorded ids log) :
    (∀ other, InRange other → other ∈ ChunkStreamIds.issued log) ↔ ids.next = 65600 := by
  have hle := ids.next_le
  constructor
  · intro hall
    refine Decidable.byContradiction fun hne => ?_
    have hnext : ids.next ≤ 65599 := by omega
    have hid := toNat_next hnext
    have hmem := hall (UInt32.ofNat ids.next) ⟨by rw [hid]; exact ids.three_le_next, by omega⟩
    have hlt := ((h.issued _).mp hmem).2
    omega
  · intro hend other hrange
    exact (h.issued other).mpr ⟨hrange.1, by rw [hend]; exact Nat.lt_succ_of_le hrange.2⟩

/-- An id below the counter that is not in use was given back. -/
theorem mem_free (h : Recorded ids log) (hthree : 3 ≤ id.toNat) (hlt : id.toNat < ids.next)
    (hunused : id ∉ ChunkStreamIds.held log) : id ∈ ids.free.ids := by
  rw [h.held, isLive_iff] at hunused
  rw [Table.mem_ids_iff]
  cases hfree : ids.free.contains id with
  | true => rfl
  | false => exact absurd ⟨hthree, hlt, hfree⟩ hunused

theorem due (h : Recorded ids log) (halloc : ids.allocate = some (id, next)) : Due log id where
  inRange := inRange_of_isLive (((isLive_allocate halloc).2 id).mpr (.inl rfl))
  unused := by
    rw [h.held, (isLive_allocate halloc).1]
    decide
  fresh := by
    rintro ⟨missing, hmissing, hnot⟩
    rcases allocate_cases ids with ⟨hle, next', hnew, -⟩ | ⟨hend, -⟩ | ⟨hend, -⟩
    · cases hnew.symm.trans halloc
      rw [h.issued, toNat_next hle]
      omega
    · exact absurd (h.all_issued_iff.mpr hend missing hmissing) hnot
    · exact absurd (h.all_issued_iff.mpr hend missing hmissing) hnot
  least := by
    intro hall other hother hunused
    have hend := h.all_issued_iff.mp hall
    rcases allocate_cases ids with ⟨hle, -⟩ | ⟨_, id', next', hold, hhead, -⟩ | ⟨_, hnone, -⟩
    · omega
    · cases hold.symm.trans halloc
      have hlt : other.toNat < ids.next := by rw [hend]; exact Nat.lt_succ_of_le hother.2
      exact Table.le_of_head?_ids hhead (h.mem_free hother.1 hlt hunused)
    · cases hnone.symm.trans halloc

theorem allocate_eq_none_iff (h : Recorded ids log) :
    ids.allocate = none ↔ ∀ other, InRange other → other ∈ ChunkStreamIds.held log := by
  simp only [ChunkStreamIds.allocate_eq_none_iff, h.held]

end Recorded

end ChunkStreamIds

/-! ## All calls -/

namespace Session

open ChunkStreamIds (Request Event Recorded InRange Due)

/-- Carries out a request, and notes what has come of it. -/
def serve (a : Session × List Event) : Request → Session × List Event
  | .allocate =>
    match allocateChunkStream a.1 with
    | (.ok id, s) => (s, .issued id :: a.2)
    | (.error _, s) => (s, a.2)
  | .release id => (a.1.releaseChunkStream id, .released id :: a.2)

/-- The requests one after the other. -/
def serveAll (requests : List Request) (s : Session) : Session × List Event :=
  requests.foldl serve (s, [])

variable {s : Session} {log : List Event}

theorem allocateChunkStream_of_some {id : UInt32} {ids : ChunkStreamIds}
    (h : s.registry.chunkStreamIds.allocate = some (id, ids)) : allocateChunkStream s
      = (.ok id, { s with registry := { s.registry with chunkStreamIds := ids } }) := by
  simp only [allocateChunkStream, Registry.allocateChunkStream, h]

theorem allocateChunkStream_of_none (h : s.registry.chunkStreamIds.allocate = none) :
    allocateChunkStream s = (.error .chunkStreamIdsExhausted, s) := by
  simp only [allocateChunkStream, Registry.allocateChunkStream, h]

theorem recorded_serve (h : Recorded s.registry.chunkStreamIds log) (request : Request) :
    Recorded (serve (s, log) request).1.registry.chunkStreamIds (serve (s, log) request).2 := by
  cases request with
  | allocate =>
    cases halloc : s.registry.chunkStreamIds.allocate with
    | none =>
      simp only [serve, allocateChunkStream_of_none halloc]
      exact h
    | some handed =>
      simp only [serve, allocateChunkStream_of_some halloc]
      exact h.allocate halloc
  | release id => exact h.release id

theorem recorded_foldl_serve (h : Recorded s.registry.chunkStreamIds log)
    (requests : List Request) : Recorded (requests.foldl serve (s, log)).1.registry.chunkStreamIds
      (requests.foldl serve (s, log)).2 := by
  induction requests generalizing s log with
  | nil => exact h
  | cons request requests ih => exact ih (recorded_serve h request)

/-- After any requests to a new session, also for ids that were never handed out or that were given
back twice: as many ids are live as were handed out and not given back since. The next allocation
hands out the id that is due. It fails, and changes nothing, exactly when all ids are in use. -/
theorem chunk_stream_ids_in_turn (connectionId : Nat) (config : Config)
    (applications : Application.Applications) (queue : Flow.SendQueue) (requests : List Request) :
    let a := serveAll requests { connectionId, config, applications, queue }
    let s := a.1
    let held := ChunkStreamIds.held a.2
    held.Nodup ∧ s.registry.chunkStreamIds.live = held.length ∧
      ((∃ id, InRange id ∧ id ∉ held) → ∃ id t, allocateChunkStream s = (.ok id, t) ∧ Due a.2 id) ∧
      ((∀ id, InRange id → id ∈ held) ↔
        allocateChunkStream s = (.error .chunkStreamIdsExhausted, s)) := by
  intro a s held
  have h : Recorded s.registry.chunkStreamIds a.2 :=
    recorded_foldl_serve ChunkStreamIds.recorded_initial requests
  refine ⟨h.nodup, ChunkStreamIds.live_eq h.nodup h.held, ?_, ?_⟩
  · rintro ⟨id, hrange, hunused⟩
    cases halloc : s.registry.chunkStreamIds.allocate with
    | none => exact absurd (h.allocate_eq_none_iff.mp halloc id hrange) hunused
    | some handed => exact ⟨_, _, allocateChunkStream_of_some halloc, h.due halloc⟩
  · rw [← h.allocate_eq_none_iff]
    constructor
    · exact allocateChunkStream_of_none
    · intro hfails
      cases halloc : s.registry.chunkStreamIds.allocate with
      | none => rfl
      | some handed =>
        rw [allocateChunkStream_of_some halloc] at hfails
        cases (Prod.mk.inj hfails).1

end Session

end RtmpEndpoint
