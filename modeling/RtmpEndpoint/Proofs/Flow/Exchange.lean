import RtmpEndpoint.Proofs.Flow.Acknowledging

/-!
# Both ends of a window

One endpoint writes and counts what it has written, the other one counts what it receives and
acknowledges it. The number of an acknowledgement is a total, and the sender takes it off its count
whole. So the count is right after the first acknowledgement; after a later one it misses what was
acknowledged before, unless nothing is left to acknowledge.
-/

namespace RtmpEndpoint.Flow

/-- What one endpoint writes and the other one acknowledges. -/
structure Exchange where
  /-- What the sender holds as unacknowledged. -/
  counter : WriteCounter := {}
  /-- The window of the receiver. -/
  window : Window := {}
  written : Nat := 0
  received : Nat := 0
  /-- The acknowledgements on their way, oldest first. -/
  underway : List UInt32 := []
  /-- The acknowledgement that the sender has applied last. -/
  applied : Option UInt32 := none
  deriving DecidableEq, Repr

namespace Exchange

inductive Move where
  | write (bytes : Nat)
  /-- Some of what was written comes in. -/
  | receive (bytes : Nat)
  /-- The receiver is told its window. -/
  | setReadSize (size : UInt32)
  /-- The oldest acknowledgement comes in. -/
  | deliver

def write (bytes : Nat) (e : Exchange) : Exchange :=
  { e with counter := e.counter.add bytes, written := e.written + bytes }

def receive (bytes : Nat) (e : Exchange) : Exchange :=
  let (due, window) := e.window.record bytes
  { e with window, received := e.received + bytes, underway := e.underway ++ due.toList }

def setReadSize (size : UInt32) (e : Exchange) : Exchange :=
  { e with window := e.window.setReadSize size }

def apply (number : UInt32) (later : List UInt32) (e : Exchange) : Exchange :=
  { e with counter := e.counter.acknowledge number, underway := later, applied := some number }

def move (e : Exchange) : Move → Option Exchange
  | .write bytes => some (e.write bytes)
  | .receive bytes => if e.received + bytes ≤ e.written then some (e.receive bytes) else none
  | .setReadSize size => some (e.setReadSize size)
  | .deliver =>
    match e.underway with
    | [] => none
    | number :: later => some (e.apply number later)

/-- The moves one after the other, if each of them can be made. -/
def run (moves : List Move) : Option Exchange := moves.foldlM move {}

variable {d e : Exchange} {bytes : Nat} {number : UInt32} {later : List UInt32}

/-! ## Counting -/

theorem bytes_add {c : WriteCounter} (h : c.bytes.toNat + bytes < UInt64.size) :
    (c.add bytes).bytes.toNat = c.bytes.toNat + bytes := Window.toNat_add_ofNat h

/-- What was acknowledged last. -/
def settled (e : Exchange) : Nat := e.applied.elim 0 (·.toNat)

/-- Acknowledgements are for bytes that were received, and the sender holds no more as
unacknowledged than is. -/
structure Consistent (e : Exchange) : Prop where
  received_le : e.received ≤ e.written
  readSize : e.window.readSize ≠ some 0
  received : e.window.received.toNat = e.received
  unacknowledged_le : e.window.unacknowledged.toNat ≤ e.received
  underway : ∀ number ∈ e.underway, 0 < number.toNat ∧ number.toNat ≤ e.received
  applied : ∀ number, e.applied = some number → 0 < number.toNat ∧ number.toNat ≤ e.received
  counter_le : e.counter.bytes.toNat ≤ e.written - e.settled
  counter_eq : e.applied = none → e.counter.bytes.toNat = e.written

theorem consistent_new : Consistent {} :=
  ⟨Nat.le_refl 0, by decide, rfl, Nat.le_refl 0, by simp, by simp, Nat.le_refl 0, fun _ => rfl⟩

theorem Consistent.settled_le (h : e.Consistent) : e.settled ≤ e.received := by
  unfold settled
  cases happlied : e.applied with
  | none => exact Nat.zero_le _
  | some number => exact (h.applied number happlied).2

/-! ## Moves -/

theorem Consistent.write (h : e.Consistent) (hbound : e.written + bytes < UInt32.size) :
    (e.write bytes).Consistent := by
  have hcounter := h.counter_le
  have hsettled := h.settled_le
  have hreceived := h.received_le
  have hadd : (e.counter.add bytes).bytes.toNat = e.counter.bytes.toNat + bytes :=
    bytes_add (Nat.lt_of_le_of_lt (by omega) (Nat.lt_trans hbound (by decide)))
  refine ⟨Nat.le_trans hreceived (Nat.le_add_right ..), h.readSize, h.received,
    h.unacknowledged_le, h.underway, h.applied, ?_, ?_⟩
  · change (e.counter.add bytes).bytes.toNat ≤ e.written + bytes - e.settled
    omega
  · intro hnone
    exact hadd.trans (congrArg (· + bytes) (h.counter_eq hnone))

/-- What is counted together comes to the total, and an acknowledgement that is due is for the
total. -/
theorem Consistent.record (h : e.Consistent) (hbound : e.received + bytes < UInt32.size) :
    (e.window.record bytes).2.received.toNat = e.received + bytes ∧
      (e.window.record bytes).2.unacknowledged.toNat ≤ e.received + bytes ∧
      ∀ number, (e.window.record bytes).1 = some number →
        0 < number.toNat ∧ number.toNat = e.received + bytes := by
  have hlarge : e.received + bytes < UInt64.size := Nat.lt_trans hbound (by decide)
  have hunacknowledged := h.unacknowledged_le
  have hreceived : (e.window.count bytes).received.toNat = e.received + bytes := by
    rw [Window.count, Window.toNat_add_ofNat (by rw [h.received]; exact hlarge), h.received]
  have hcounted : (e.window.count bytes).unacknowledged.toNat ≤ e.received + bytes := by
    rw [Window.count, Window.toNat_add_ofNat (by omega)]
    omega
  rcases Window.record_cases e.window bytes with hnone | ⟨size, hset, hfull, hdue⟩
  · rw [hnone]
    exact ⟨hreceived, hcounted, fun number hnumber => by cases hnumber⟩
  · have hpos : 0 < size.toNat := Nat.pos_of_ne_zero fun hzero =>
      h.readSize (hset.trans (congrArg some (UInt32.toNat_inj.mp hzero)))
    rw [UInt64.le_iff_toNat_le, UInt32.toNat_toUInt64] at hfull
    rw [hdue]
    refine ⟨hreceived, ?_, ?_⟩
    · exact Nat.le_trans (UInt64.toNat_mod .. ▸ Nat.mod_le ..) hcounted
    · intro number hnumber
      rw [← Option.some.inj hnumber, Window.toUInt32_eq hreceived,
        UInt32.toNat_ofNat_of_lt' hbound]
      exact ⟨by omega, rfl⟩

theorem Consistent.receive (h : e.Consistent) (hbound : e.written < UInt32.size)
    (hle : e.received + bytes ≤ e.written) :
    (e.receive bytes).Consistent := by
  obtain ⟨hreceived, hunacknowledged, hdue⟩ := h.record (Nat.lt_of_le_of_lt hle hbound)
  refine ⟨hle, ?_, hreceived, hunacknowledged, ?_, ?_, h.counter_le, h.counter_eq⟩
  · exact fun hzero => h.readSize ((Window.readSize_record e.window bytes).symm.trans hzero)
  · intro number hmem
    rcases List.mem_append.mp hmem with hold | hnew
    · obtain ⟨hpos, hreached⟩ := h.underway number hold
      exact ⟨hpos, Nat.le_trans hreached (Nat.le_add_right ..)⟩
    · obtain ⟨hpos, htotal⟩ := hdue number (Option.mem_toList.mp hnew)
      exact ⟨hpos, Nat.le_of_eq htotal⟩
  · intro number happlied
    obtain ⟨hpos, hreached⟩ := h.applied number happlied
    exact ⟨hpos, Nat.le_trans hreached (Nat.le_add_right ..)⟩

theorem Consistent.setReadSize (h : e.Consistent) (size : UInt32) :
    (e.setReadSize size).Consistent := by
  refine ⟨h.received_le, ?_, h.received, h.unacknowledged_le, h.underway, h.applied, h.counter_le,
    h.counter_eq⟩
  simp only [Exchange.setReadSize, Window.setReadSize]
  split
  · simp
  · next hne => exact fun hzero => hne (Option.some.inj hzero)

/-- What was acknowledged before has been taken off already, and is in the number once more. -/
theorem Consistent.acknowledge_le (h : e.Consistent) (number : UInt32) :
    (e.counter.acknowledge number).bytes.toNat ≤ e.written - e.settled - number.toNat := by
  rw [WriteCounter.toNat_acknowledge]
  exact Nat.sub_le_sub_right h.counter_le _

theorem Consistent.apply (h : e.Consistent) (hnext : e.underway = number :: later) :
    (e.apply number later).Consistent := by
  have hcounter := h.acknowledge_le number
  have hunderway := h.underway
  rw [hnext] at hunderway
  obtain ⟨hfirst, hlater⟩ := List.forall_mem_cons.mp hunderway
  refine ⟨h.received_le, h.readSize, h.received, h.unacknowledged_le, hlater, ?_, ?_, ?_⟩
  · intro other hother
    rw [← Option.some.inj hother]
    exact hfirst
  · change (e.counter.acknowledge number).bytes.toNat ≤ e.written - number.toNat
    omega
  · intro hnone
    cases hnone

/-! ## Runs -/

theorem move_cases {move : Move} (h : d.move move = some e) :
    (∃ bytes, e = d.write bytes) ∨
      (∃ bytes, d.received + bytes ≤ d.written ∧ e = d.receive bytes) ∨
      (∃ size, e = d.setReadSize size) ∨
      ∃ number later, d.underway = number :: later ∧ e = d.apply number later := by
  cases move with
  | write bytes => exact .inl ⟨bytes, (Option.some.inj h).symm⟩
  | receive bytes =>
    obtain ⟨hle, heq⟩ := Option.ite_none_right_eq_some.mp h
    exact .inr (.inl ⟨bytes, hle, (Option.some.inj heq).symm⟩)
  | setReadSize size => exact .inr (.inr (.inl ⟨size, (Option.some.inj h).symm⟩))
  | deliver =>
    cases hnext : d.underway with
    | nil => simp only [move, hnext, reduceCtorEq] at h
    | cons number later =>
      simp only [move, hnext, Option.some.injEq] at h
      exact .inr (.inr (.inr ⟨number, later, rfl, h.symm⟩))

theorem written_le_move {move : Move} (h : d.move move = some e) : d.written ≤ e.written := by
  rcases move_cases h with ⟨bytes, rfl⟩ | ⟨bytes, -, rfl⟩ | ⟨size, rfl⟩ | ⟨number, later, -, rfl⟩
  · exact Nat.le_add_right ..
  all_goals exact Nat.le_refl _

theorem Consistent.move {move : Move} (h : d.Consistent) (hmove : d.move move = some e)
    (hbound : e.written < UInt32.size) : e.Consistent := by
  rcases move_cases hmove with
    ⟨bytes, rfl⟩ | ⟨bytes, hle, rfl⟩ | ⟨size, rfl⟩ | ⟨number, later, hnext, rfl⟩
  · exact h.write hbound
  · exact h.receive hbound hle
  · exact h.setReadSize size
  · exact h.apply hnext

theorem written_le_foldlM {moves : List Move} (h : moves.foldlM Exchange.move d = some e) :
    d.written ≤ e.written := by
  induction moves generalizing d with
  | nil =>
    cases h
    exact Nat.le_refl _
  | cons move moves ih =>
    obtain ⟨c, hmove, hrest⟩ := Option.bind_eq_some_iff.mp h
    exact Nat.le_trans (written_le_move hmove) (ih hrest)

theorem Consistent.foldlM {moves : List Move} (h : d.Consistent)
    (hrun : moves.foldlM Exchange.move d = some e) (hbound : e.written < UInt32.size) :
    e.Consistent := by
  induction moves generalizing d with
  | nil =>
    cases hrun
    exact h
  | cons move moves ih =>
    obtain ⟨c, hmove, hrest⟩ := Option.bind_eq_some_iff.mp hrun
    exact ih (h.move hmove (Nat.lt_of_le_of_lt (written_le_foldlM hrest) hbound)) hrest

/-- What the sender holds as unacknowledged right after an acknowledgement. It is what was written
and not acknowledged if the acknowledgement is the first one, or if nothing is left to acknowledge.
In all other cases it is too little, by as much as was acknowledged before or down to zero. -/
theorem counter_after_delivery {moves : List Move} (hrun : run moves = some d)
    (hdeliver : d.move .deliver = some e) (hbound : d.written < UInt32.size) :
    ∃ number, d.underway.head? = some number ∧ e.applied = some number ∧
      number.toNat ≤ e.written ∧
      e.counter.bytes.toNat ≤ e.written - d.settled - number.toNat ∧
      (e.counter.bytes.toNat = e.written - number.toNat ↔
        d.applied = none ∨ number.toNat = e.written) := by
  have hd : d.Consistent := consistent_new.foldlM hrun hbound
  cases hnext : d.underway with
  | nil => simp only [move, hnext, reduceCtorEq] at hdeliver
  | cons number later =>
    simp only [move, hnext, Option.some.injEq] at hdeliver
    subst hdeliver
    have hle : number.toNat ≤ d.written :=
      Nat.le_trans (hd.underway number (by rw [hnext]; exact List.mem_cons_self)).2 hd.received_le
    have hcounter := hd.acknowledge_le number
    refine ⟨number, rfl, rfl, hle, hcounter, ?_⟩
    change (d.counter.acknowledge number).bytes.toNat = d.written - number.toNat ↔
      d.applied = none ∨ number.toNat = d.written
    constructor
    · intro heq
      cases happlied : d.applied with
      | none => exact .inl rfl
      | some last =>
        have hpos := (hd.applied last happlied).1
        have hsettled : d.settled = last.toNat := by rw [settled, happlied]; rfl
        exact .inr (by omega)
    · rintro (hnone | hall)
      · rw [WriteCounter.toNat_acknowledge, hd.counter_eq hnone]
      · omega

/-- Two windows of 100 bytes come in, and 50 more bytes are written before the second one is
acknowledged. -/
def twoWindows : List Move :=
  [.setReadSize 100, .write 100, .receive 100, .deliver, .write 150, .receive 100]

/-- What they come to, with the second acknowledgement on its way. -/
def secondUnderway : Exchange where
  counter := ⟨150⟩
  window := { readSize := some 100, received := 200 }
  written := 250
  received := 200
  underway := [200]
  applied := some 100

theorem counter_after_delivery_twoWindows :
    run twoWindows = some secondUnderway ∧
      secondUnderway.move .deliver = some (secondUnderway.apply 200 []) ∧
      (secondUnderway.apply 200 []).counter.bytes.toNat ≠ 250 - 200 := by
  have hrun : run twoWindows = some secondUnderway := by decide
  have hdeliver : secondUnderway.move .deliver = some (secondUnderway.apply 200 []) := rfl
  obtain ⟨number, hnumber, -, -, -, hiff⟩ := counter_after_delivery hrun hdeliver (by decide)
  cases hnumber
  exact ⟨hrun, hdeliver, fun heq => absurd (hiff.mp heq) (by decide)⟩

/-- The sender holds nothing as unacknowledged although 50 bytes are. -/
theorem second_acknowledgement_takes_too_much :
    ∃ e, run (twoWindows ++ [.deliver]) = some e ∧ e.written = 250 ∧ e.applied = some 200 ∧
      e.counter.bytes.toNat = 0 ∧ e.counter.bytes.toNat ≠ 250 - 200 :=
  ⟨secondUnderway.apply 200 [], by decide, rfl, rfl, by decide, by decide⟩

end Exchange

end RtmpEndpoint.Flow
