import RtmpEndpoint.Message.Basic

/-!
# Acknowledgement windows

Each side of a connection tells the other how much it has received once as much as a window has
come in, and keeps count of what it has written beyond the last acknowledgement. Counts have 64
bits, sequence numbers 32.
-/

namespace RtmpEndpoint.Flow

/-- Bytes written to the socket that the peer has not acknowledged. -/
structure WriteCounter where
  bytes : UInt64 := 0
  deriving DecidableEq, Repr

namespace WriteCounter

def add (counter : WriteCounter) (count : Nat) : WriteCounter :=
  ⟨counter.bytes + UInt64.ofNat count⟩

/-- Takes off what the peer acknowledges, down to zero. -/
def acknowledge (counter : WriteCounter) (bytes : UInt32) : WriteCounter :=
  if bytes.toUInt64 ≤ counter.bytes then ⟨counter.bytes - bytes.toUInt64⟩ else ⟨0⟩

theorem toNat_add_le (counter : WriteCounter) (count : Nat) :
    (counter.add count).bytes.toNat ≤ counter.bytes.toNat + count := by
  rw [add, UInt64.toNat_add, UInt64.toNat_ofNat']
  exact Nat.le_trans (Nat.mod_le _ _) (Nat.add_le_add_left (Nat.mod_le _ _) _)

theorem toNat_acknowledge (counter : WriteCounter) (bytes : UInt32) :
    (counter.acknowledge bytes).bytes.toNat = counter.bytes.toNat - bytes.toNat := by
  unfold acknowledge
  split
  · next hle => rw [UInt64.toNat_sub_of_le _ _ hle, UInt32.toNat_toUInt64]
  · next hlt =>
    rw [UInt64.le_iff_toNat_le, UInt32.toNat_toUInt64] at hlt
    simp only [UInt64.toNat_zero]
    omega

end WriteCounter

structure Window where
  /-- How much is received between acknowledgements. -/
  readSize : Option UInt32 := none
  /-- How much may be written between acknowledgements. -/
  writeSize : Option UInt32 := none
  /-- What has been received since the last multiple of the read window. -/
  unacknowledged : UInt64 := 0
  received : UInt64 := 0
  /-- The limit type that the write window was last set with. -/
  limit : Option BandwidthLimit := none
  deriving DecidableEq, Repr

namespace Window

/-- A window of zero turns acknowledgements off. -/
def setReadSize (w : Window) (size : UInt32) : Window :=
  { w with readSize := if size = 0 then none else some size }

def count (w : Window) (bytes : Nat) : Window :=
  { w with
    received := w.received + UInt64.ofNat bytes
    unacknowledged := w.unacknowledged + UInt64.ofNat bytes }

/-- Counts received bytes. When the window is full, the total so far is due as an acknowledgement
and what goes past the window stays counted. -/
def record (w : Window) (bytes : Nat) : Option UInt32 × Window :=
  let w := w.count bytes
  match w.readSize with
  | none => (none, w)
  | some size =>
    if w.unacknowledged < size.toUInt64 then (none, w)
    else (some w.received.toUInt32, { w with unacknowledged := w.unacknowledged % size.toUInt64 })

/-- Whether the peer may set the write window to `size`. A soft limit only lowers it, and a dynamic
one only follows a hard one. -/
def accepts (w : Window) (size : UInt32) : BandwidthLimit → Bool
  | .soft => w.writeSize.all (size ≤ ·)
  | .dynamic => w.limit.all (· == .hard)
  | .hard => true

/-- Sets the write window, unless the limit forbids it. -/
def applyBandwidth (w : Window) (size : UInt32) (limit : BandwidthLimit) : Option Window :=
  if w.accepts size limit then some { w with writeSize := some size, limit := some limit }
  else none

end Window

end RtmpEndpoint.Flow
