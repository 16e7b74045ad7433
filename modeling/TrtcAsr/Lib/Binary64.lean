/-
  IEEE 754 binary64 numbers as bit patterns.

  A finite number is an integer multiple of 2^-1074 (`scaled`), which makes
  comparison and truncation exact.
-/
import Mathlib.Data.Nat.Log
import TrtcAsr.Lib.Bytes

namespace TrtcAsr

/-- A binary64 number, by its 64 bits. -/
structure Binary64 where
  bits : UInt64
  deriving DecidableEq, Repr

namespace Binary64

def negative (x : Binary64) : Bool := decide (2 ^ 63 ≤ x.bits.toNat)

def exponent (x : Binary64) : ℕ := x.bits.toNat / 2 ^ 52 % 2 ^ 11

def fraction (x : Binary64) : ℕ := x.bits.toNat % 2 ^ 52

/-- Neither an infinity nor a NaN. -/
def isFinite (x : Binary64) : Bool := decide (x.exponent ≠ 2047)

/-- The value of a finite number, as a multiple of 2^-1074. -/
def scaled (x : Binary64) : ℤ :=
  let m := if x.exponent = 0 then x.fraction else (2 ^ 52 + x.fraction) * 2 ^ (x.exponent - 1)
  if x.negative then -(m : ℤ) else m

/-- `n ≤ x ≤ m` for a finite `x` and integers `n` and `m`. -/
def within (n m : ℤ) (x : Binary64) : Bool :=
  x.isFinite && decide (n * 2 ^ 1074 ≤ x.scaled) && decide (x.scaled ≤ m * 2 ^ 1074)

/-- The integer part, rounded towards zero. -/
def trunc (x : Binary64) : Option ℤ :=
  if x.isFinite then some (x.scaled.tdiv (2 ^ 1074)) else none

/-- The number 0.0. -/
def zero : Binary64 := ⟨0⟩

/-- The nearest number to an integer, half to even. -/
def ofInt (n : ℤ) : Binary64 :=
  if n = 0 then zero
  else
    let m := n.natAbs
    let e := m.log2
    let m' :=
      if e ≤ 52 then m * 2 ^ (52 - e)
      else
        let q := m / 2 ^ (e - 52)
        let r := m % 2 ^ (e - 52)
        if 2 ^ (e - 53) < r ∨ r = 2 ^ (e - 53) ∧ q % 2 = 1 then q + 1 else q
    -- a carry out of the fraction goes to the exponent
    let bits := (e + 1022) * 2 ^ 52 + m'
    ⟨UInt64.ofNat (if n < 0 then 2 ^ 63 + bits else bits)⟩

/-- `printf("%.df")`: `d` decimals, the exact value rounded half to even. -/
def toFixed (d : ℕ) (x : Binary64) : Bytes :=
  let sign := if x.negative then "-" else ""
  if x.isFinite then
    let n := x.scaled.natAbs * 10 ^ d
    let q := n / 2 ^ 1074
    let r := n % 2 ^ 1074
    let q := if 2 ^ 1073 < r ∨ r = 2 ^ 1073 ∧ q % 2 = 1 then q + 1 else q
    let decimals := toString (q % 10 ^ d)
    ascii (sign ++ toString (q / 10 ^ d) ++ "." ++
      "".pushn '0' (d - decimals.length) ++ decimals)
  else ascii (sign ++ if x.fraction = 0 then "inf" else "nan")

/-- `printf("%f")`: six decimals. -/
def toFixed6 (x : Binary64) : Bytes := x.toFixed 6

/-- `printf("%g")`: at most six significant digits, the exact value rounded half to even, without
    trailing zeros. -/
def toGeneral (x : Binary64) : Bytes :=
  let sign := if x.negative then "-" else ""
  let a := x.scaled.natAbs
  if ¬ x.isFinite then ascii (sign ++ if x.fraction = 0 then "inf" else "nan")
  else if a = 0 then ascii (sign ++ "0")
  else
    -- 10^e is the largest power of ten that is not above the number
    let e : ℤ := if 2 ^ 1074 ≤ a then Nat.log 10 (a / 2 ^ 1074)
      else -(Nat.clog 10 ((2 ^ 1074 + a - 1) / a) : ℤ)
    let n := a * 10 ^ (5 - e).toNat
    let d := 2 ^ 1074 * 10 ^ (e - 5).toNat
    let q := n / d
    let r := n % d
    let q := if d < 2 * r ∨ 2 * r = d ∧ q % 2 = 1 then q + 1 else q
    -- rounding up to 10^6 makes it the next power
    let e := if q = 10 ^ 6 then e + 1 else e
    let q := if q = 10 ^ 6 then 10 ^ 5 else q
    let significant := ((Nat.toDigits 10 q).reverse.dropWhile (· = '0')).reverse
    let point (decimals : List Char) := if decimals = [] then [] else '.' :: decimals
    let text :=
      if e < -4 ∨ 6 ≤ e then
        let exponent := Nat.toDigits 10 e.natAbs
        significant.take 1 ++ point (significant.drop 1) ++ ['e', if e < 0 then '-' else '+'] ++
          List.replicate (2 - exponent.length) '0' ++ exponent
      else if e < 0 then ['0', '.'] ++ List.replicate (-e - 1).toNat '0' ++ significant
      else
        significant.take (e.toNat + 1) ++
          List.replicate (e.toNat + 1 - significant.length) '0' ++
          point (significant.drop (e.toNat + 1))
    ascii (sign ++ String.ofList text)

end Binary64

end TrtcAsr
