/-!
# Binary64

AMF0 numbers and transaction ids are IEEE 754 doubles that are carried bit for bit, so a number is
its word. The few operations the endpoint needs are computed on the fields of the word.
-/

namespace RtmpEndpoint

structure Binary64 where
  bits : UInt64
  deriving DecidableEq, Repr, Inhabited

namespace Binary64

/-- The word without its sign. -/
def magnitude (x : Binary64) : Nat := x.bits.toNat % (1 <<< 63)
def isNegative (x : Binary64) : Bool := 1 <<< 63 ≤ x.bits.toNat
/-- The eleven exponent bits, with bias 1023. -/
def biasedExponent (x : Binary64) : Nat := x.magnitude >>> 52
def fraction (x : Binary64) : Nat := x.magnitude % (1 <<< 52)

def isNaN (x : Binary64) : Bool := 2047 <<< 52 < x.magnitude

/-- Zero of either sign. -/
def isZero (x : Binary64) : Bool := x.magnitude = 0

def zero : Binary64 := ⟨0⟩

/-- IEEE equality: no NaN equals anything and the two zeros are equal. -/
def eq (x y : Binary64) : Bool :=
  !x.isNaN && !y.isNaN && (x == y || (x.isZero && y.isZero))

/-- The nearest double to `n`, an exact tie going to the even significand. A carry out of the
significand lands in the exponent, where it belongs. -/
def ofNat (n : Nat) : Binary64 :=
  if n = 0 then zero
  else
    let e := n.log2
    let significand :=
      if e ≤ 52 then n <<< (52 - e)
      else
        let unit := 1 <<< (e - 52)
        let q := n / unit
        let r := 2 * (n % unit)
        if unit < r ∨ (r = unit ∧ q % 2 = 1) then q + 1 else q
    ⟨UInt64.ofNat ((e + 1022) <<< 52 + significand)⟩

/-- Truncates toward zero and clamps to the range of the result; a NaN gives zero. -/
def toUInt32 (x : Binary64) : UInt32 :=
  if x.isNaN || x.isNegative || x.biasedExponent < 1023 then 0
  else
    let e := x.biasedExponent - 1023
    if 32 ≤ e then 0xffffffff
    else UInt32.ofNat ((1 <<< 52 + x.fraction) >>> (52 - e))

example : ofNat 31 = ⟨0x403f000000000000⟩ := by decide
example : ofNat (1 <<< 53 + 1) = ⟨0x4340000000000000⟩ := by decide
example : (⟨0x4004000000000000⟩ : Binary64).toUInt32 = 2 := by decide

end Binary64

end RtmpEndpoint
