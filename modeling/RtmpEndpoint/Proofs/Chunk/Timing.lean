import RtmpEndpoint.Chunk.Splitter

/-!
# Which of two timestamps is ahead

Timestamps wrap around, and of two of them the one ahead is the one that is reached by going forward
less than half way round. That tells any two timestamps apart but those that are half way round from
each other: each of these counts as ahead of the other, so the comparison is no order. A splitter
takes such a timestamp for a later one, whichever of the two came first.
-/

namespace RtmpEndpoint

namespace Timestamp

variable {a b : Timestamp}

/-- Half of all the milliseconds there are lie between the two, whichever way one goes. -/
def Opposite (a b : Timestamp) : Prop := b.since a = 0x80000000

/-- Milliseconds half way round. -/
def half : Nat := 0x80000000

/-! ## The distance -/

theorem toNat_since (a b : Timestamp) :
    (b.since a).toNat = (2 * half - a.ms.toNat + b.ms.toNat) % (2 * half) :=
  UInt32.toNat_sub b.ms a.ms

theorem opposite_iff : a.Opposite b ↔ (b.since a).toNat = half := UInt32.toNat_inj.symm

theorem since_eq_zero_iff : (b.since a).toNat = 0 ↔ a = b := by
  constructor
  · intro hzero
    have hback := advance_since b a
    rw [UInt32.toNat_inj.mp (hzero.trans UInt32.toNat_zero.symm)] at hback
    simpa [advance] using hback
  · rintro rfl
    simp [since]

/-- The way from one timestamp to another and the way back make one round. -/
theorem since_add_since (h : a ≠ b) : (b.since a).toNat + (a.since b).toNat = 2 * half := by
  have hne : (b.since a).toNat ≠ 0 := mt since_eq_zero_iff.mp h
  have ha : a.ms.toNat < 2 * half := a.ms.toNat_lt
  have hb : b.ms.toNat < 2 * half := b.ms.toNat_lt
  rw [toNat_since] at hne ⊢
  rw [toNat_since]
  unfold half at *
  omega

/-! ## The order -/

/-- How two timestamps stand to each other, by the way from the first to the second, and what comes
of comparing them both ways. -/
inductive Standing (distance : Nat) : Ordering → Ordering → Prop where
  | same (h : distance = 0) : Standing distance .eq .eq
  | behind (pos : 0 < distance) (near : distance < half) : Standing distance .lt .gt
  | ahead (far : half < distance) : Standing distance .gt .lt
  /-- Each of the two is ahead of the other. -/
  | opposite (h : distance = half) : Standing distance .gt .gt

namespace Standing

variable {distance : Nat} {forth back : Ordering}

theorem swap_iff (h : Standing distance forth back) : back = forth.swap ↔ distance ≠ half := by
  cases h with
  | same h => simp [h, half]
  | behind pos near => simp [Nat.ne_of_lt near]
  | ahead far => simp [Nat.ne_of_gt far]
  | opposite h => simp [h]

theorem both_gt_iff (h : Standing distance forth back) :
    forth = .gt ∧ back = .gt ↔ distance = half := by
  cases h with
  | same h => simp [h, half]
  | behind pos near => simp [Nat.ne_of_lt near]
  | ahead far => simp [Nat.ne_of_gt far]
  | opposite h => simp [h]

theorem lt_iff (h : Standing distance forth back) :
    (forth = .lt ↔ 0 < distance ∧ distance < half) ∧ (back = .lt ↔ half < distance) := by
  cases h with
  | same h => simp [h]
  | behind pos near => simp [pos, near, Nat.le_of_lt near]
  | ahead far => simp [far, Nat.le_of_lt far]
  | opposite h => simp [h]

end Standing

theorem order_of_ne (h : a ≠ b) :
    a.order b = if (b.since a).toNat < half then .lt else .gt := by
  rw [order, if_neg h]
  rfl

theorem standing (a b : Timestamp) : Standing (b.since a).toNat (a.order b) (b.order a) := by
  by_cases h : a = b
  · subst h
    rw [order_self]
    exact .same (since_eq_zero_iff.mpr rfl)
  · have hround := since_add_since h
    have hpos : 0 < (b.since a).toNat := Nat.pos_of_ne_zero (mt since_eq_zero_iff.mp h)
    rw [order_of_ne h, order_of_ne (Ne.symm h)]
    rcases Nat.lt_trichotomy (b.since a).toNat half with hnear | hopposite | hfar
    · rw [if_pos hnear, if_neg (by omega)]
      exact .behind hpos hnear
    · rw [if_neg (by omega), if_neg (by omega)]
      exact .opposite hopposite
    · rw [if_neg (by omega), if_pos (by omega)]
      exact .ahead hfar

/-- A timestamp is before another if going forward to that one is less than half way round. -/
theorem isBefore_iff (a b : Timestamp) :
    (a.isBefore b = true ↔ 0 < (b.since a).toNat ∧ (b.since a).toNat < half) ∧
      (b.isBefore a = true ↔ half < (b.since a).toNat) := by
  rw [isBefore, isBefore, beq_iff_eq, beq_iff_eq]
  exact (standing a b).lt_iff

/-- One of the two is before the other, and not the other way round. -/
theorem isBefore_ne_iff (a b : Timestamp) :
    a.isBefore b ≠ b.isBefore a ↔ a ≠ b ∧ ¬ a.Opposite b := by
  obtain ⟨hforth, hback⟩ := isBefore_iff a b
  rw [Ne, Bool.eq_iff_iff, hforth, hback, opposite_iff, Ne, ← since_eq_zero_iff]
  omega

end Timestamp

namespace Chunk.Splitter

/-- A header is left whole if it has to name another message stream or to go back in time. -/
theorem format_eq_type0_iff (previous : Header) (payload : Payload) :
    (format (some previous) payload).1 = .type0 ↔ previous.streamId ≠ payload.streamId ∨
      payload.timestamp.isBefore previous.timestamp = true := by
  unfold format
  dsimp only
  split
  · next h => simp [h]
  · next h =>
    simp only [h, iff_false]
    split
    · simp
    · split <;> simp

end Chunk.Splitter

namespace Timestamp

/-- Comparing two timestamps tells which one is ahead, and comparing them the other way round tells
the same, unless they are opposite: then each is ahead of the other and none behind. So a splitter
takes a message for an earlier one than the last if it is more than half way ahead, and for a later
one up to there. -/
theorem ahead_unless_opposite (a b : Timestamp) :
    (a.order b = .eq ↔ a = b) ∧
    (b.order a = (a.order b).swap ↔ ¬ a.Opposite b) ∧
    (a.isBefore b ≠ b.isBefore a ↔ a ≠ b ∧ ¬ a.Opposite b) ∧
    (a.order b = .gt ∧ b.order a = .gt ↔ a.Opposite b) ∧
    ∀ (previous : Chunk.Header) (payload : Payload),
      (Chunk.Splitter.format (some previous) payload).1 = .type0 ↔
        previous.streamId ≠ payload.streamId ∨
          half < (payload.timestamp.since previous.timestamp).toNat := by
  have hstanding := standing a b
  refine ⟨order_eq_iff, ?_, isBefore_ne_iff a b, ?_, fun previous payload => ?_⟩
  · rw [opposite_iff]
    exact hstanding.swap_iff
  · rw [opposite_iff]
    exact hstanding.both_gt_iff
  · rw [Chunk.Splitter.format_eq_type0_iff, (isBefore_iff _ _).2]

/-- These two are different, and each of them is ahead of the other. -/
theorem ahead_of_each_other :
    ¬ (∀ a b : Timestamp, b.order a = (a.order b).swap) ∧
      ¬ ∀ a b : Timestamp, a ≠ b → a.isBefore b ≠ b.isBefore a :=
  ⟨fun h => absurd (h ⟨0⟩ ⟨0x80000000⟩) (by decide),
    fun h => absurd (h ⟨0⟩ ⟨0x80000000⟩ (by decide)) (by decide)⟩

end Timestamp

end RtmpEndpoint
