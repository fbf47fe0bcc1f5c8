import TopologyPinning.Python.Builtins

/-!
# Python floats and `time.sleep`

`argparse` gives the monitor's granularity as a Python `float` (`type=float`): a finite
binary64 value, an infinity (`inf`, `1e400`) or NaN (`nan`). `PyFloat` holds one; a finite
value is `mantissa * 2 ^ exponent` within the bounds of the format (`Binary64`), so that
only values a `float` can hold can be built.

`timeSleep` is `time.sleep(secs)` for the outcome the monitor depends on: the exception
it raises, if any. CPython 3.11 first converts the seconds to nanoseconds
(`_PyTime_FromSecondsObject` with `_PyTime_ROUND_TIMEOUT`): NaN raises `ValueError`; the
product `secs * 1e9` is rounded to binary64, then away from zero (`sleepNs`), and a count
outside the signed 64-bit range raises `OverflowError`; a negative count raises
`ValueError`. It then sleeps until the deadline `clock + ns` of the monotonic clock, and
`clock_nanosleep` fails with `EINVAL`, an `OSError`, when that sum leaves the 64-bit range.
-/

set_option autoImplicit false

namespace TopologyPinning.Python

/-- A finite binary64 value `mantissa * 2 ^ exponent`: a significand of 53 bits, and an
exponent from the least subnormal to the largest finite value. -/
structure Binary64 where
  mantissa : Int
  exponent : Int
  mantissa_lt : mantissa.natAbs < 2 ^ 53
  exponent_ge : -1074 ≤ exponent
  exponent_le : exponent ≤ 971
  deriving DecidableEq

/-- A Python `float`. -/
inductive PyFloat where
  | finite (x : Binary64)
  | posInf
  | negInf
  | nan
  deriving DecidableEq

/-- `x <= 0`, which is false for NaN, as every comparison with it. -/
def PyFloat.leZero : PyFloat → Bool
  | .finite x => x.mantissa ≤ 0
  | .posInf => false
  | .negInf => true
  | .nan => false

/-- How many low bits of `n < 2 ^ 83` lie beyond a 53-bit significand. -/
def excessBits (n : Nat) : Nat :=
  ((List.range 30).filter fun s => 2 ^ (53 + s) ≤ n).length

/-- `n / 2 ^ s` rounded to the nearest integer, ties to even. -/
def roundShift (n s : Nat) : Nat :=
  if 2 * (n % 2 ^ s) > 2 ^ s ∨ (2 * (n % 2 ^ s) = 2 ^ s ∧ n / 2 ^ s % 2 = 1) then n / 2 ^ s + 1
  else n / 2 ^ s

/-- `abs(secs) * 1e9` as CPython computes it, in whole nanoseconds: the product of
`|mantissa| * 10 ^ 9 < 2 ^ 83` and `2 ^ exponent` rounded to 53 significant bits, to
nearest with ties to even, then up. -/
def sleepNs (x : Binary64) : Nat :=
  let n := x.mantissa.natAbs * 10 ^ 9
  let s := excessBits n
  let e : Int := s + x.exponent
  if 0 ≤ e then roundShift n s * 2 ^ e.toNat
  else (roundShift n s + 2 ^ (-e).toNat - 1) / 2 ^ (-e).toNat

/-- `time.sleep(secs)` started when the monotonic clock reads `clock` nanoseconds: the
exception it raises, if any. -/
def timeSleep (secs : PyFloat) (clock : Nat) : Option PyExc :=
  match secs with
  | .nan => some .valueError
  | .posInf | .negInf => some .overflowError
  | .finite x =>
    if x.mantissa < 0 then
      if 2 ^ 63 < sleepNs x then some .overflowError else some .valueError
    else if 2 ^ 63 ≤ sleepNs x then some .overflowError
    else if 2 ^ 63 ≤ clock + sleepNs x then some .osError
    else none

/-- One second; `0.1` seconds (the double nearest to it); `1e10` seconds; and the doubles on
either side of the overflow bound, `9223372036.854774` and `9223372036.854776` seconds, the
first failing in `clock_nanosleep` once the monotonic clock reads `23936802972498` (as
measured on CPython 3.11). -/
example : sleepNs ⟨1, 0, by decide, by decide, by decide⟩ = 10 ^ 9 ∧
    sleepNs ⟨3602879701896397, -55, by decide, by decide, by decide⟩ = 100000000 ∧
    timeSleep (.finite ⟨9765625, 10, by decide, by decide, by decide⟩) 0 = some .overflowError ∧
    timeSleep (.finite ⟨4835703278458516, -19, by decide, by decide, by decide⟩) 0 = none ∧
    timeSleep (.finite ⟨4835703278458516, -19, by decide, by decide, by decide⟩) 23936802972498 =
      some .osError ∧
    timeSleep (.finite ⟨4835703278458517, -19, by decide, by decide, by decide⟩) 0 =
      some .overflowError := by
  decide

end TopologyPinning.Python
