/-!
# Bytes

Everything on the wire is a list of bytes. Numbers of a fixed width are written in base 256, most
significant byte first unless a name says otherwise.
-/

namespace RtmpEndpoint

abbrev Bytes := List UInt8

namespace Bytes

/-- The number that the bytes spell in base 256, most significant byte first. -/
def toNat (bytes : Bytes) : Nat := bytes.foldl (fun n b => 256 * n + b.toNat) 0

/-- The last `width` digits of `n` in base 256, most significant first. -/
def ofNat : Nat → Nat → Bytes
  | 0, _ => []
  | width + 1, n => UInt8.ofNat (n >>> (8 * width)) :: ofNat width n

@[simp] theorem toNat_nil : toNat [] = 0 := rfl
@[simp] theorem ofNat_zero (n : Nat) : ofNat 0 n = [] := rfl
@[simp] theorem length_ofNat (width n : Nat) : (ofNat width n).length = width := by
  induction width <;> simp_all [ofNat]

theorem shiftLeft_digit (n digit width : Nat) :
    (256 * n + digit) <<< (8 * width) = n <<< (8 * (width + 1)) + digit <<< (8 * width) := by
  rw [Nat.mul_succ, Nat.add_comm _ 8, Nat.shiftLeft_add]
  simp only [Nat.shiftLeft_eq]
  rw [Nat.add_mul, Nat.mul_comm 256 n]

theorem foldl_digits (bytes : Bytes) (start : Nat) :
    bytes.foldl (fun n b => 256 * n + b.toNat) start
      = start <<< (8 * bytes.length) + toNat bytes := by
  induction bytes generalizing start with
  | nil => rfl
  | cons b rest ih =>
    simp only [toNat, List.foldl_cons, List.length_cons]
    rw [ih (256 * start + b.toNat), ih (256 * 0 + b.toNat), shiftLeft_digit, shiftLeft_digit,
      Nat.zero_shiftLeft]
    omega

/-- The leading byte counts whole multiples of what the others can hold. -/
theorem toNat_cons (b : UInt8) (rest : Bytes) :
    toNat (b :: rest) = b.toNat <<< (8 * rest.length) + toNat rest := by
  rw [toNat, List.foldl_cons, foldl_digits, Nat.mul_zero, Nat.zero_add]

/-- Reading back what was written loses only what did not fit the width. -/
theorem toNat_ofNat (width n : Nat) : toNat (ofNat width n) = n % (1 <<< (8 * width)) := by
  induction width with
  | zero => exact (Nat.mod_one n).symm
  | succ width ih =>
    have hbyte : (UInt8.ofNat (n >>> (8 * width))).toNat = n >>> (8 * width) % 256 := by simp
    have hbound : 1 <<< (8 * (width + 1)) = 1 <<< (8 * width) * 256 := by
      rw [Nat.mul_succ, Nat.shiftLeft_add, Nat.shiftLeft_eq _ 8]
    rw [ofNat, toNat_cons, ih, length_ofNat, hbyte, hbound, Nat.mod_mul]
    simp only [Nat.shiftRight_eq_div_pow, Nat.shiftLeft_eq, Nat.one_mul]
    rw [Nat.mul_comm, Nat.add_comm]

/-- Digits in base 256 spell less than the next power. -/
theorem toNat_lt (bytes : Bytes) : toNat bytes < 1 <<< (8 * bytes.length) := by
  induction bytes with
  | nil => decide
  | cons b rest ih =>
    have hb : b.toNat < 256 := b.toNat_lt
    rw [toNat_cons, List.length_cons, Nat.mul_succ, Nat.shiftLeft_add]
    simp only [Nat.shiftLeft_eq, Nat.one_mul] at ih ⊢
    calc b.toNat * 2 ^ (8 * rest.length) + toNat rest
        < b.toNat * 2 ^ (8 * rest.length) + 2 ^ (8 * rest.length) := Nat.add_lt_add_left ih _
      _ = (b.toNat + 1) * 2 ^ (8 * rest.length) := (Nat.succ_mul ..).symm
      _ ≤ 2 ^ 8 * 2 ^ (8 * rest.length) := Nat.mul_le_mul_right _ hb
      _ = 2 ^ (8 * rest.length) * 2 ^ 8 := Nat.mul_comm ..

/-- Bytes of the same length that spell the same number are the same. -/
theorem eq_of_toNat_eq {bytes other : Bytes} (hlength : bytes.length = other.length)
    (h : toNat bytes = toNat other) : bytes = other := by
  induction bytes generalizing other with
  | nil => exact (List.length_eq_zero_iff.mp hlength.symm).symm
  | cons b rest ih =>
    cases other with
    | nil => cases hlength
    | cons b' rest' =>
      have hlength : rest.length = rest'.length := Nat.succ.inj hlength
      have hlt := toNat_lt rest
      have hlt' := toNat_lt rest'
      rw [toNat_cons, toNat_cons, ← hlength] at h
      rw [← hlength] at hlt'
      simp only [Nat.shiftLeft_eq, Nat.one_mul] at h hlt hlt'
      have hfirst : b.toNat = b'.toNat := by
        have hpos : 0 < 2 ^ (8 * rest.length) := Nat.two_pow_pos _
        have hdiv := congrArg (· / 2 ^ (8 * rest.length)) h
        simpa only [Nat.mul_comm _ (2 ^ _), Nat.mul_add_div hpos, Nat.div_eq_of_lt hlt,
          Nat.div_eq_of_lt hlt', Nat.add_zero] using hdiv
      rw [UInt8.toNat_inj.mp hfirst, ih hlength (by rw [hfirst] at h; omega)]

/-- A number in as many bytes as it came in. -/
theorem ofNat_toNat {width : Nat} {bytes : Bytes} (h : bytes.length = width) :
    ofNat width (toNat bytes) = bytes := by
  subst h
  apply eq_of_toNat_eq (length_ofNat ..)
  rw [toNat_ofNat, Nat.mod_eq_of_lt (toNat_lt bytes)]

/-- The first `n` bytes and the rest, when there are that many. -/
def split? (n : Nat) (bytes : Bytes) : Option (Bytes × Bytes) :=
  if (bytes.take n).length = n then some (bytes.take n, bytes.drop n) else none

theorem split?_eq_some_iff {n : Nat} {bytes front rest : Bytes} :
    split? n bytes = some (front, rest) ↔ bytes = front ++ rest ∧ front.length = n := by
  unfold split?
  constructor
  · intro h
    split at h
    · next hn =>
      obtain ⟨rfl, rfl⟩ := Prod.mk.inj (Option.some.inj h)
      exact ⟨(List.take_append_drop n bytes).symm, hn⟩
    · simp at h
  · rintro ⟨rfl, rfl⟩
    simp

/-- A split is the same when more bytes follow. -/
theorem split?_append {n : Nat} {bytes front rest : Bytes}
    (h : split? n bytes = some (front, rest)) (more : Bytes) :
    split? n (bytes ++ more) = some (front, rest ++ more) := by
  obtain ⟨rfl, hlen⟩ := split?_eq_some_iff.mp h
  exact split?_eq_some_iff.mpr ⟨List.append_assoc .., hlen⟩

theorem split?_eq_none_iff {n : Nat} {bytes : Bytes} :
    split? n bytes = none ↔ bytes.length < n := by
  simp only [split?, List.length_take]
  split <;> simp <;> omega

theorem split?_of_le {n : Nat} {bytes : Bytes} (h : n ≤ bytes.length) :
    split? n bytes = some (bytes.take n, bytes.drop n) := by
  simp [split?, h]

/-- What a split leaves is shorter by what it took. -/
theorem length_of_split? {n : Nat} {bytes front rest : Bytes}
    (h : split? n bytes = some (front, rest)) : n + rest.length = bytes.length := by
  obtain ⟨rfl, rfl⟩ := split?_eq_some_iff.1 h
  simp

/-- A number of `width` bytes and what follows it. -/
def number? (width : Nat) (bytes : Bytes) : Option (Nat × Bytes) :=
  (split? width bytes).map fun (front, rest) => (front.toNat, rest)

/-- A number is read back in front of anything. -/
theorem number?_ofNat {width n : Nat} (h : n < 1 <<< (8 * width)) (rest : Bytes) :
    number? width (ofNat width n ++ rest) = some (n, rest) := by
  have hsplit : split? width (ofNat width n ++ rest) = some (ofNat width n, rest) :=
    split?_eq_some_iff.mpr ⟨rfl, length_ofNat width n⟩
  simp only [number?, hsplit, Option.map_some, toNat_ofNat, Nat.mod_eq_of_lt h]

def ofUInt32 (n : UInt32) : Bytes := ofNat 4 n.toNat
def ofUInt64 (n : UInt64) : Bytes := ofNat 8 n.toNat

/-- Four bytes, least significant first: the order of the message stream id in a chunk header. -/
def ofUInt32Reversed (n : UInt32) : Bytes := (ofUInt32 n).reverse

end Bytes

end RtmpEndpoint
