import RtmpEndpoint.Flow.Window

/-!
# When received bytes are acknowledged

A window counts all bytes from the start, also before its size is set. With a size set, an
acknowledgement is due as soon as the total has reached a multiple of the size that no
acknowledgement has reached before. How the bytes come in batches makes no difference to that.
-/

namespace RtmpEndpoint.Flow.Window

/-- What happens to a window. -/
inductive Event where
  | receive (bytes : Nat)
  | setReadSize (size : UInt32)
  | bandwidth (size : UInt32) (limit : BandwidthLimit)

/-- Bytes that were counted at once, and the acknowledgement that was due then. -/
structure Batch where
  bytes : Nat
  due : Option UInt32

/-- All bytes of the batches. -/
def total : List Batch → Nat
  | [] => 0
  | batch :: earlier => total earlier + batch.bytes

/-- The total when an acknowledgement was last due. -/
def acknowledged : List Batch → Nat
  | [] => 0
  | batch :: earlier =>
    if batch.due.isSome then total earlier + batch.bytes else acknowledged earlier

/-- How many of the batches acknowledge that `count` bytes have come. The first acknowledgement that
is due when they have does so. -/
def timesAcknowledged (count : Nat) : List Batch → Nat
  | [] => 0
  | batch :: earlier =>
    if batch.due.isSome ∧ acknowledged earlier < count ∧ count ≤ total earlier + batch.bytes then
      timesAcknowledged count earlier + 1
    else timesAcknowledged count earlier

/-- A window with the batches that it has counted, the last one first. -/
structure Ledger where
  window : Window := {}
  batches : List Batch := []

namespace Ledger

def receive (bytes : Nat) (l : Ledger) : Ledger :=
  let (due, window) := l.window.record bytes
  ⟨window, ⟨bytes, due⟩ :: l.batches⟩

def after (l : Ledger) : Event → Ledger
  | .receive bytes => l.receive bytes
  | .setReadSize size => { l with window := l.window.setReadSize size }
  | .bandwidth size limit =>
    { l with window := (l.window.applyBandwidth size limit).getD l.window }

/-- A new window after all of the events. -/
def afterAll (events : List Event) : Ledger := events.foldl after {}

end Ledger

/-- The read window is never set to anything but `size`. It may be set at any time, and turned off
and on again. -/
def Event.Only (size : UInt32) : Event → Prop
  | setReadSize other => other = 0 ∨ other = size
  | _ => True

variable {l : Ledger} {size : UInt32} {bytes : Nat}

/-! ## Batches -/

theorem acknowledged_le_total (batches : List Batch) : acknowledged batches ≤ total batches := by
  induction batches with
  | nil => exact Nat.le_refl 0
  | cons batch earlier ih =>
    simp only [acknowledged, total]
    split
    · exact Nat.le_refl _
    · omega

/-- Acknowledgements follow each other without a gap, and none goes back. -/
theorem timesAcknowledged_eq {count : Nat} (h : 0 < count) (batches : List Batch) :
    timesAcknowledged count batches = if count ≤ acknowledged batches then 1 else 0 := by
  induction batches with
  | nil => exact (if_neg (Nat.not_le.mpr h)).symm
  | cons batch earlier ih =>
    have hle := acknowledged_le_total earlier
    simp only [timesAcknowledged, acknowledged, ih]
    by_cases hdue : batch.due.isSome = true
    · simp only [hdue, true_and, if_true]
      split <;> split <;> split <;> omega
    · simp only [hdue, false_and, if_false, Bool.false_eq_true]

theorem acknowledged_div_le (batches : List Batch) (bytes size : Nat) :
    acknowledged batches / size ≤ (total batches + bytes) / size :=
  Nat.div_le_div_right (Nat.le_trans (acknowledged_le_total batches) (Nat.le_add_right ..))

/-! ## One batch -/

theorem toUInt32_eq {n : UInt64} {m : Nat} (h : n.toNat = m) : n.toUInt32 = UInt32.ofNat m := by
  rw [← UInt32.toNat_inj, UInt64.toNat_toUInt32, UInt32.toNat_ofNat', h]

theorem toNat_add_ofNat {n : UInt64} (h : n.toNat + bytes < UInt64.size) :
    (n + UInt64.ofNat bytes).toNat = n.toNat + bytes := by
  have hbytes : (UInt64.ofNat bytes).toNat = bytes :=
    UInt64.toNat_ofNat_of_lt' (Nat.lt_of_le_of_lt (Nat.le_add_left ..) h)
  rw [UInt64.toNat_add, hbytes]
  exact Nat.mod_eq_of_lt h

/-- What is kept as unacknowledged has come since the last multiple of the size that was
acknowledged. -/
structure Ledger.Balanced (size : UInt32) (l : Ledger) : Prop where
  readSize : l.window.readSize = none ∨ l.window.readSize = some size
  received : l.window.received.toNat = total l.batches
  unacknowledged : l.window.unacknowledged.toNat
    + size.toNat * (acknowledged l.batches / size.toNat) = total l.batches

theorem balanced_new (size : UInt32) : Ledger.Balanced size {} :=
  ⟨.inl rfl, rfl, by simp [acknowledged, total]⟩

namespace Ledger.Balanced

theorem received_count (h : l.Balanced size) (hbound : total l.batches + bytes < UInt64.size) :
    (l.window.count bytes).received.toNat = total l.batches + bytes := by
  have hsum : l.window.received.toNat + bytes < UInt64.size := by rw [h.received]; exact hbound
  rw [count, toNat_add_ofNat hsum, h.received]

theorem unacknowledged_count (h : l.Balanced size)
    (hbound : total l.batches + bytes < UInt64.size) :
    (l.window.count bytes).unacknowledged.toNat
      + size.toNat * (acknowledged l.batches / size.toNat) = total l.batches + bytes := by
  have hkept := h.unacknowledged
  have hsum : l.window.unacknowledged.toNat + bytes < UInt64.size := by omega
  rw [count, toNat_add_ofNat hsum]
  omega

/-- The window is full when the total has reached the next multiple. -/
theorem full_iff (h : l.Balanced size) (hpos : size ≠ 0)
    (hbound : total l.batches + bytes < UInt64.size) :
    ¬ (l.window.count bytes).unacknowledged < size.toUInt64 ↔
      acknowledged l.batches / size.toNat < (total l.batches + bytes) / size.toNat := by
  have hsize : 0 < size.toNat := Nat.pos_of_ne_zero fun hzero => hpos (UInt32.toNat_inj.mp hzero)
  have hcount := h.unacknowledged_count hbound
  rw [UInt64.lt_iff_toNat_lt, UInt32.toNat_toUInt64, ← Nat.succ_le_iff (n := _ / _),
    Nat.le_div_iff_mul_le hsize, Nat.succ_mul, Nat.mul_comm _ size.toNat]
  omega

/-- An acknowledgement is due exactly when the total has reached a new multiple, and then only the
remainder is kept. -/
theorem record_eq (h : l.Balanced size) (hpos : size ≠ 0)
    (hset : l.window.readSize = some size) (hbound : total l.batches + bytes < UInt64.size) :
    let sum := total l.batches + bytes
    ((l.window.record bytes).1 =
      if acknowledged l.batches / size.toNat < sum / size.toNat then some (UInt32.ofNat sum)
      else none) ∧
    (l.window.record bytes).2.unacknowledged.toNat = sum % size.toNat := by
  intro sum
  have hcount := h.unacknowledged_count hbound
  have hreceived := h.received_count hbound
  have hfull := h.full_iff hpos hbound
  have hwindow : (l.window.count bytes).readSize = some size := hset
  have hmono : acknowledged l.batches / size.toNat ≤ sum / size.toNat :=
    acknowledged_div_le l.batches bytes size.toNat
  have hparts := Nat.mod_add_div sum size.toNat
  simp only [record, hwindow]
  by_cases hless : (l.window.count bytes).unacknowledged < size.toUInt64
  · have hsame : ¬ acknowledged l.batches / size.toNat < sum / size.toNat :=
      fun hnew => hfull.mpr hnew hless
    have heq := Nat.le_antisymm hmono (Nat.le_of_not_lt hsame)
    rw [if_pos hless, if_neg hsame]
    refine ⟨rfl, ?_⟩
    rw [heq] at hcount
    simp only
    omega
  · rw [if_neg hless, if_pos (hfull.mp hless)]
    refine ⟨congrArg some (toUInt32_eq hreceived), ?_⟩
    simp only [UInt64.toNat_mod, UInt32.toNat_toUInt64]
    rw [← Nat.add_mul_mod_self_left _ _ (acknowledged l.batches / size.toNat), hcount]

/-- After a batch no multiple is left that the total has reached and no acknowledgement has. -/
theorem quotient_receive (h : l.Balanced size) (hpos : size ≠ 0)
    (hset : l.window.readSize = some size) (hbound : total l.batches + bytes < UInt64.size) :
    acknowledged (l.receive bytes).batches / size.toNat
      = (total l.batches + bytes) / size.toNat := by
  have hdue := (h.record_eq hpos hset hbound).1
  simp only [Ledger.receive, acknowledged, hdue]
  by_cases hnew : acknowledged l.batches / size.toNat < (total l.batches + bytes) / size.toNat
  · simp only [hnew, if_true, Option.isSome_some]
  · simp only [hnew, if_false, Option.isSome_none, Bool.false_eq_true]
    exact Nat.le_antisymm (acknowledged_div_le ..) (Nat.le_of_not_lt hnew)

end Ledger.Balanced

/-! ## Runs -/

/-- Nothing is due, or the window is full and only the remainder is kept. -/
theorem record_cases (w : Window) (bytes : Nat) :
    w.record bytes = (none, w.count bytes) ∨
      ∃ size, w.readSize = some size ∧ size.toUInt64 ≤ (w.count bytes).unacknowledged ∧
        w.record bytes = (some (w.count bytes).received.toUInt32, { w.count bytes with
          unacknowledged := (w.count bytes).unacknowledged % size.toUInt64 }) := by
  have hsame : (w.count bytes).readSize = w.readSize := rfl
  cases hset : w.readSize with
  | none => exact .inl (by simp only [record, hsame, hset])
  | some size =>
    by_cases hless : (w.count bytes).unacknowledged < size.toUInt64
    · exact .inl (by simp only [record, hsame, hset, hless, if_true])
    · refine .inr ⟨size, rfl, UInt64.not_lt.mp hless, ?_⟩
      simp only [record, hsame, hset, hless, if_false]

theorem readSize_record (w : Window) (bytes : Nat) : (w.record bytes).2.readSize = w.readSize := by
  rcases record_cases w bytes with h | ⟨size, -, -, h⟩ <;> rw [h] <;> rfl

theorem received_record (w : Window) (bytes : Nat) :
    (w.record bytes).2.received = (w.count bytes).received := by
  rcases record_cases w bytes with h | ⟨size, -, -, h⟩ <;> rw [h]

/-- Without a size everything is kept and nothing is due. -/
theorem record_of_none {w : Window} (h : w.readSize = none) (bytes : Nat) :
    w.record bytes = (none, w.count bytes) := by
  simp only [record, count, h]

theorem Ledger.Balanced.receive (h : l.Balanced size) (hpos : size ≠ 0)
    (hbound : total l.batches + bytes < UInt64.size) : (l.receive bytes).Balanced size where
  readSize := by
    rcases h.readSize with hset | hset
    · exact .inl ((readSize_record l.window bytes).trans hset)
    · exact .inr ((readSize_record l.window bytes).trans hset)
  received := (congrArg UInt64.toNat (received_record l.window bytes)).trans
    (h.received_count hbound)
  unacknowledged := by
    rcases h.readSize with hset | hset
    · simp only [Ledger.receive, record_of_none hset, acknowledged, total, Option.isSome_none,
        Bool.false_eq_true, if_false]
      exact h.unacknowledged_count hbound
    · have hkept := (h.record_eq hpos hset hbound).2
      rw [h.quotient_receive hpos hset hbound]
      simp only [Ledger.receive, total, hkept]
      exact Nat.mod_add_div _ _

theorem total_le_after (l : Ledger) (event : Event) :
    total l.batches ≤ total (l.after event).batches := by
  cases event with
  | receive bytes => exact Nat.le_add_right ..
  | setReadSize | bandwidth => exact Nat.le_refl _

theorem Ledger.Balanced.after {event : Event} (h : l.Balanced size) (hpos : size ≠ 0)
    (honly : event.Only size) (hbound : total (l.after event).batches < UInt64.size) :
    (l.after event).Balanced size := by
  cases event with
  | receive bytes => exact h.receive hpos hbound
  | setReadSize other =>
    refine ⟨?_, h.received, h.unacknowledged⟩
    rcases honly with rfl | rfl
    · exact .inl rfl
    · exact .inr (if_neg hpos)
  | bandwidth other limit =>
    simp only [Ledger.after, applyBandwidth]
    split
    · exact ⟨h.readSize, h.received, h.unacknowledged⟩
    · exact h

theorem total_le_foldl (events : List Event) (l : Ledger) :
    total l.batches ≤ total (events.foldl Ledger.after l).batches := by
  induction events generalizing l with
  | nil => exact Nat.le_refl _
  | cons event events ih => exact Nat.le_trans (total_le_after l event) (ih (l.after event))

theorem Ledger.Balanced.foldl {events : List Event} (h : l.Balanced size) (hpos : size ≠ 0)
    (honly : ∀ event ∈ events, event.Only size)
    (hbound : total (events.foldl Ledger.after l).batches < UInt64.size) :
    (events.foldl Ledger.after l).Balanced size := by
  induction events generalizing l with
  | nil => exact h
  | cons event events ih =>
    obtain ⟨hfirst, hrest⟩ := List.forall_mem_cons.mp honly
    have hnext : total (l.after event).batches < UInt64.size :=
      Nat.lt_of_le_of_lt (total_le_foldl events _) hbound
    exact ih (h.after hpos hfirst hnext) hrest hbound

/-- While the window is set, whatever was counted before and however it is batched, what is kept is
the remainder of the total, and an acknowledgement of the total is due exactly when the total has
reached a multiple that it had not reached at the last acknowledgement. So each multiple that the
total has reached is acknowledged once. -/
theorem due_at_each_multiple {size : UInt32} (hpos : size ≠ 0) {events : List Event}
    (honly : ∀ event ∈ events, event.Only size)
    (hset : (Ledger.afterAll events).window.readSize = some size) {bytes : Nat}
    (hbound : total (Ledger.afterAll events).batches + bytes < UInt64.size) :
    let ledger := Ledger.afterAll events
    let answer := ledger.window.record bytes
    let sum := total ledger.batches + bytes
    answer.2.unacknowledged.toNat = sum % size.toNat ∧
      answer.1 = (if acknowledged ledger.batches / size.toNat < sum / size.toNat then
        some (UInt32.ofNat sum) else none) ∧
      ∀ k, 0 < k → k * size.toNat ≤ sum →
        timesAcknowledged (k * size.toNat) (ledger.receive bytes).batches = 1 := by
  intro ledger answer sum
  have hsize : 0 < size.toNat := Nat.pos_of_ne_zero fun hzero => hpos (UInt32.toNat_inj.mp hzero)
  have hbefore : total ledger.batches < UInt64.size :=
    Nat.lt_of_le_of_lt (Nat.le_add_right ..) hbound
  have hbalanced : ledger.Balanced size := (balanced_new size).foldl hpos honly hbefore
  obtain ⟨hdue, hkept⟩ := hbalanced.record_eq hpos hset hbound
  refine ⟨hkept, hdue, ?_⟩
  intro k hk hreached
  have hlast : k ≤ acknowledged (ledger.receive bytes).batches / size.toNat := by
    rw [hbalanced.quotient_receive hpos hset hbound]
    exact (Nat.le_div_iff_mul_le hsize).mpr hreached
  rw [timesAcknowledged_eq (Nat.mul_pos hk hsize),
    if_pos ((Nat.le_div_iff_mul_le hsize).mp hlast)]

/-- Bytes before the window is set, and a batch that fills several windows at once. -/
def lateWindow : List Event :=
  [.receive 250, .setReadSize 100, .receive 40, .receive 5, .bandwidth 7 .soft]

theorem due_at_each_multiple_lateWindow :
    (∀ event ∈ lateWindow, event.Only 100) ∧
      (Ledger.afterAll lateWindow).window.readSize = some 100 ∧
      ((Ledger.afterAll lateWindow).window.record 330).1 = some 625 ∧
      ((Ledger.afterAll lateWindow).window.record 330).2.unacknowledged.toNat = 25 ∧
      timesAcknowledged 500 ((Ledger.afterAll lateWindow).receive 330).batches = 1 := by
  have honly : ∀ event ∈ lateWindow, event.Only 100 := by simp [lateWindow, Event.Only]
  have hset : (Ledger.afterAll lateWindow).window.readSize = some 100 := by decide
  have htotal : total (Ledger.afterAll lateWindow).batches = 295 := by decide
  have hacknowledged : acknowledged (Ledger.afterAll lateWindow).batches = 290 := by decide
  have hbound : total (Ledger.afterAll lateWindow).batches + 330 < UInt64.size := by decide
  obtain ⟨hkept, hdue, htimes⟩ := due_at_each_multiple (by decide) honly hset hbound
  rw [htotal, hacknowledged] at hdue
  rw [htotal] at hkept
  exact ⟨honly, hset, hdue, hkept, htimes 5 (by decide) (by rw [htotal]; decide)⟩

end RtmpEndpoint.Flow.Window
