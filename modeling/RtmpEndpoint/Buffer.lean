import RtmpEndpoint.Bytes

/-!
# Buffers

Bytes that come piece by piece. A buffer keeps the pieces apart and their length beside them, so
that a new piece does not touch the ones before it. They are joined when the bytes are asked for.
-/

namespace RtmpEndpoint

structure Buffer where
  /-- The last one first. -/
  pieces : List Bytes
  size : Nat
  size_eq : size = pieces.flatten.length

namespace Buffer

def empty : Buffer := ⟨[], 0, rfl⟩

def push (b : Buffer) (piece : Bytes) : Buffer where
  pieces := piece :: b.pieces
  size := piece.length + b.size
  size_eq := by simp [b.size_eq]

/-- What has come, in order. A single piece is not copied. -/
def bytes (b : Buffer) : Bytes :=
  match b.pieces with
  | [piece] => piece
  | pieces => pieces.reverse.flatten

theorem bytes_eq (b : Buffer) : b.bytes = b.pieces.reverse.flatten := by
  unfold bytes
  split <;> simp_all

@[simp] theorem length_bytes (b : Buffer) : b.bytes.length = b.size := by
  simp [bytes_eq, b.size_eq, List.length_flatten]

@[simp] theorem bytes_push (b : Buffer) (piece : Bytes) :
    (b.push piece).bytes = b.bytes ++ piece := by
  simp [bytes_eq, push]

/-- Takes bytes off the front. -/
def drop (b : Buffer) (count : Nat) : Buffer where
  pieces := [b.bytes.drop count]
  size := b.size - count
  size_eq := by simp

@[simp] theorem bytes_drop (b : Buffer) (count : Nat) :
    (b.drop count).bytes = b.bytes.drop count := rfl

@[simp] theorem size_drop (b : Buffer) (count : Nat) : (b.drop count).size = b.size - count := rfl

end Buffer

end RtmpEndpoint
