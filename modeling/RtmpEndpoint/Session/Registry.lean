import RtmpEndpoint.Session.Error
import RtmpEndpoint.Table

/-!
# The stream registry

Chunk stream ids and message stream ids come from two counters. A chunk stream id that was given
back is only used again once the counter has passed the largest id; a message stream id is used
again at once, the smallest first. So an id is never handed out while its stream is alive.
-/

namespace RtmpEndpoint

/-- The chunk stream ids of a session. -/
structure ChunkStreamIds where
  /-- The smallest id that was never handed out. -/
  next : Nat
  /-- The ids that were handed out and given back. -/
  free : IdSet
  next_le : next ≤ 65600
  three_le_next : 3 ≤ next
  free_lt : ∀ id ∈ free.ids, 3 ≤ id.toNat ∧ id.toNat < next

namespace ChunkStreamIds

/-- The ids 0 to 2 are never handed out. -/
def initial : ChunkStreamIds :=
  ⟨3, .empty, by decide, by decide, fun _ h => absurd h List.not_mem_nil⟩

def isLive (ids : ChunkStreamIds) (id : UInt32) : Bool :=
  3 ≤ id.toNat && decide (id.toNat < ids.next) && !ids.free.contains id

/-- How many ids are handed out. -/
def live (ids : ChunkStreamIds) : Nat := ids.next - 3 - ids.free.size

/-- The next id of the counter, or the smallest one given back when the counter is exhausted. -/
def allocate (ids : ChunkStreamIds) : Option (UInt32 × ChunkStreamIds) :=
  if h : ids.next ≤ 65599 then
    some (UInt32.ofNat ids.next,
      { ids with
        next := ids.next + 1
        next_le := Nat.succ_le_succ h
        three_le_next := Nat.le_succ_of_le ids.three_le_next
        free_lt := fun id hid => (ids.free_lt id hid).imp_right Nat.lt_succ_of_lt })
  else match ids.free.ids.head? with
    | none => none
    | some id =>
      some (id,
        { ids with
          free := ids.free.erase id
          free_lt := fun other h => ids.free_lt other (Table.mem_ids_of_mem_erase h) })

/-- Gives an id back. One that is not handed out is left alone. -/
def release (ids : ChunkStreamIds) (id : UInt32) : ChunkStreamIds :=
  if h : 3 ≤ id.toNat ∧ id.toNat < ids.next then
    { ids with
      free := ids.free.insert id ()
      free_lt := fun other hother =>
        (Table.mem_ids_insert.1 hother).elim (fun heq => heq ▸ h) (ids.free_lt other) }
  else ids

end ChunkStreamIds

/-- The message stream that carries connection commands and protocol control. -/
def controlMessageStreamId : UInt32 := 0

structure Registry (α : Type) where
  chunkStreamIds : ChunkStreamIds := .initial
  /-- The smallest message stream id that the counter has not handed out. -/
  next : Nat := 1
  /-- The message stream ids that were given back. -/
  free : IdSet := .empty
  streams : Table α := .empty

namespace Registry

variable {α : Type}

/-- The counter ends before the largest id. -/
def endOfIds : Nat := 0xffffffff

/-- The first id from `next` on without a stream. -/
def firstUnused (streams : Table α) (next : Nat) : Option Nat :=
  if _h : next < endOfIds then
    if streams.contains (UInt32.ofNat next) then firstUnused streams (next + 1) else some next
  else none
termination_by endOfIds - next

/-- The smallest id given back that has no stream. Smaller ones that have got a stream otherwise
are forgotten, as is every id that the counter passes over. -/
def allocate (r : Registry α) : Option (UInt32 × Registry α) :=
  match r.free.ids.find? (fun id => !r.streams.contains id) with
  | some id => some (id, { r with free := r.free.restrict (id < ·) })
  | none =>
    match firstUnused r.streams r.next with
    | some n => some (UInt32.ofNat n, { r with free := .empty, next := n + 1 })
    | none => none

/-- Stores the stream that `build` makes for a new id. -/
def add (r : Registry α) (build : UInt32 → α) : Option (UInt32 × Registry α) :=
  match r.allocate with
  | some (id, r) => some (id, { r with streams := r.streams.insert id (build id) })
  | none => none

/-- Stores a stream under an id of the caller's choice. -/
def insert (r : Registry α) (id : UInt32) (stream : α) : Registry α :=
  { r with streams := r.streams.insert id stream }

def get? (r : Registry α) (id : UInt32) : Option α := r.streams.get? id

/-- Removes a stream and gives its id back. The control stream stays. -/
def remove (r : Registry α) (id : UInt32) : Option α × Registry α :=
  if id = controlMessageStreamId then (none, r)
  else match r.streams.get? id with
    | none => (none, r)
    | some stream =>
      (some stream, { r with streams := r.streams.erase id, free := r.free.insert id () })

/-- Removes every stream. Their ids are not given back. -/
def clear (r : Registry α) : Registry α := { r with streams := .empty }

def allocateChunkStream (r : Registry α) : Option (UInt32 × Registry α) :=
  match r.chunkStreamIds.allocate with
  | some (id, chunkStreamIds) => some (id, { r with chunkStreamIds })
  | none => none

def releaseChunkStream (r : Registry α) (id : UInt32) : Registry α :=
  { r with chunkStreamIds := r.chunkStreamIds.release id }

end Registry

end RtmpEndpoint
