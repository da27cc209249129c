/-!
# Timestamps

Message timestamps count milliseconds in 32 bits and wrap around. Two timestamps are compared by
the shorter way round: one is ahead when it is reached by going forward less than half the circle.
-/

namespace RtmpEndpoint

structure Timestamp where
  ms : UInt32
  deriving DecidableEq, Repr, Inhabited

namespace Timestamp

def zero : Timestamp := ⟨0⟩

def advance (t : Timestamp) (ms : UInt32) : Timestamp := ⟨t.ms + ms⟩
def rewind (t : Timestamp) (ms : UInt32) : Timestamp := ⟨t.ms - ms⟩

/-- Milliseconds from `earlier` to `t`, going forward. -/
def since (t earlier : Timestamp) : UInt32 := t.ms - earlier.ms

/-- Where `a` stands relative to `b`. A distance of exactly half the circle counts as ahead. -/
def order (a b : Timestamp) : Ordering :=
  if a = b then .eq
  else if b.since a < 0x80000000 then .lt
  else .gt

/-- Whether `a` is behind `b`. -/
def isBefore (a b : Timestamp) : Bool := a.order b == .lt

def text (t : Timestamp) : String := toString t.ms.toNat ++ "ms"

@[simp] theorem advance_since (t earlier : Timestamp) : earlier.advance (t.since earlier) = t := by
  obtain ⟨x⟩ := t
  obtain ⟨y⟩ := earlier
  simp only [advance, since, mk.injEq]
  rw [UInt32.add_comm, UInt32.sub_add_cancel]

@[simp] theorem order_self (t : Timestamp) : t.order t = .eq := by simp [order]

theorem order_eq_iff {a b : Timestamp} : a.order b = .eq ↔ a = b := by
  unfold order
  split
  · simp_all
  · split <;> simp_all

end Timestamp

end RtmpEndpoint
