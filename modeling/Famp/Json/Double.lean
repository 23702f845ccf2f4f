import Famp.Json.Value

/-!
# Numbers as doubles

The double that a JSON number stands for, by its bits: an integer is rounded to
the nearest double, a tie to the even one.  `Number.canonical` is the number that
a reader makes of the shortest text of that double, in the range where a double
is written without an exponent: an integer where the double is whole, and the
double itself otherwise.
-/

set_option autoImplicit false

namespace Famp.Json

abbrev Double := UInt64

namespace Double

/-- The bits of the double nearest to `n`.  The leading bit of the significand is
not stored; here it carries one into the exponent. -/
def bitsOfNat (n : Nat) : Nat :=
  if n = 0 then 0
  else if n.log2 ≤ 52 then (1022 + n.log2) * 2 ^ 52 + n * 2 ^ (52 - n.log2)
  else
    let unit := 2 ^ (n.log2 - 52)
    let below := n / unit
    let rest := n % unit
    (1022 + n.log2) * 2 ^ 52 +
      if unit < 2 * rest ∨ (unit = 2 * rest ∧ below % 2 = 1) then below + 1 else below

/-- The whole number up to `2 ^ 53` of a double without sign. -/
def wholeOfBits (bits : Nat) : Option Nat :=
  let exponent := bits / 2 ^ 52
  let significand := 2 ^ 52 + bits % 2 ^ 52
  if bits = 0 then some 0
  else if 1023 ≤ exponent ∧ exponent ≤ 1075 ∧ significand % 2 ^ (1075 - exponent) = 0 then
    some (significand / 2 ^ (1075 - exponent))
  else if bits = 1076 * 2 ^ 52 then some (2 ^ 53)
  else none

theorem wholeOfBits_bitsOfNat {n : Nat} (small : n ≤ 2 ^ 53) :
    wholeOfBits (bitsOfNat n) = some n ∧ bitsOfNat n < 2 ^ 63 := by
  by_cases zero : n = 0
  · subst zero
    decide
  by_cases top : n = 2 ^ 53
  · subst top
    decide +kernel
  have low : 2 ^ n.log2 ≤ n := Nat.log2_self_le zero
  have high : n < 2 ^ (n.log2 + 1) := Nat.lt_log2_self
  have short : n.log2 ≤ 52 := by
    have below : n.log2 < 53 := (Nat.log2_lt zero).mpr (by omega)
    omega
  have whole : n.log2 + (52 - n.log2) = 52 := by omega
  have least : 2 ^ 52 ≤ n * 2 ^ (52 - n.log2) := by
    calc 2 ^ 52 = 2 ^ n.log2 * 2 ^ (52 - n.log2) := by rw [← pow_add, whole]
      _ ≤ n * 2 ^ (52 - n.log2) := Nat.mul_le_mul_right _ low
  have most : n * 2 ^ (52 - n.log2) < 2 ^ 53 := by
    calc n * 2 ^ (52 - n.log2) < 2 ^ (n.log2 + 1) * 2 ^ (52 - n.log2) :=
          Nat.mul_lt_mul_of_pos_right high (Nat.two_pow_pos _)
      _ = 2 ^ 53 := by rw [← pow_add]; congr 1; omega
  have bits : bitsOfNat n = (1022 + n.log2) * 2 ^ 52 + n * 2 ^ (52 - n.log2) := by
    rw [bitsOfNat, if_neg zero, if_pos short]
  have exponent : bitsOfNat n / 2 ^ 52 = 1023 + n.log2 := by omega
  have significand : 2 ^ 52 + bitsOfNat n % 2 ^ 52 = n * 2 ^ (52 - n.log2) := by omega
  have scale : 1075 - (1023 + n.log2) = 52 - n.log2 := by omega
  refine ⟨?_, by omega⟩
  simp only [wholeOfBits, exponent, significand, scale]
  rw [if_neg (by omega), if_pos ⟨by omega, by omega, Nat.mul_mod_left _ _⟩,
    Nat.mul_div_cancel _ (Nat.two_pow_pos _)]

theorem wholeOfBits_le {bits n : Nat} (whole : wholeOfBits bits = some n) : n ≤ 2 ^ 53 := by
  simp only [wholeOfBits] at whole
  split at whole
  · cases whole
    exact Nat.zero_le _
  · split at whole
    · cases whole
      exact (Nat.div_le_self _ _).trans (by omega)
    · split at whole
      · exact (Option.some.inj whole).ge
      · cases whole

theorem mod_of_dvd {unit : Nat} (divides : unit ∣ 2 ^ 52) (bits : Nat) :
    (2 ^ 52 + bits % 2 ^ 52) % unit = bits % unit := by
  rw [Nat.add_mod, Nat.mod_eq_zero_of_dvd divides, zero_add, Nat.mod_mod, Nat.mod_mod_of_dvd _ divides]

theorem wholeOfBits_eq_none {bits : Nat} (bounded : bits < 2 ^ 63)
    (fractional : (bits / 2 ^ 52 < 1023 ∧ bits ≠ 0) ∨
      (1023 ≤ bits / 2 ^ 52 ∧ bits / 2 ^ 52 < 1075 ∧ bits % 2 ^ (1075 - bits / 2 ^ 52) ≠ 0)) :
    wholeOfBits bits = none := by
  simp only [wholeOfBits]
  rcases fractional with ⟨small, nonzero⟩ | ⟨least, most, rest⟩
  · rw [if_neg nonzero, if_neg (by omega), if_neg (by omega)]
  · have nonzero : bits ≠ 0 := by
      rintro rfl
      exact rest (Nat.zero_mod _)
    have same := mod_of_dvd (Nat.pow_dvd_pow 2 (by omega) : 2 ^ (1075 - bits / 2 ^ 52) ∣ 2 ^ 52) bits
    rw [if_neg nonzero, if_neg (fun whole => rest (same ▸ whole.2.2)), if_neg (by omega)]

/-- Not infinite and not a NaN. -/
def isFinite (bits : Double) : Bool := decide (bits.toNat / 2 ^ 52 % 2 ^ 11 ≠ 2047)

/-- The value of a double: a number that is not finite is written as null. -/
def toValue (bits : Double) : Value :=
  if bits.isFinite then ⟨.num (.float bits), rfl⟩ else .null

end Double

namespace Number

def toDouble : Number → Double
  | .int value =>
    UInt64.ofNat (if value < 0 then 2 ^ 63 + Double.bitsOfNat value.natAbs
      else Double.bitsOfNat value.natAbs)
  | .float bits => bits

def asDouble (number : Number) : Number := .float number.toDouble

def canonical (number : Number) : Number :=
  match Double.wholeOfBits (number.toDouble.toNat % 2 ^ 63) with
  | some whole => .int (if 2 ^ 63 ≤ number.toDouble.toNat then -(whole : Int) else whole)
  | none => .float number.toDouble

theorem canonical_asDouble (number : Number) : number.asDouble.canonical = number.canonical := rfl

theorem toDouble_int {value : Int} (small : value.natAbs ≤ 2 ^ 53) :
    (Number.int value).toDouble.toNat =
      if value < 0 then 2 ^ 63 + Double.bitsOfNat value.natAbs
      else Double.bitsOfNat value.natAbs := by
  have bound := (Double.wholeOfBits_bitsOfNat small).2
  simp only [toDouble]
  refine Nat.mod_eq_of_lt ?_
  split <;> omega

theorem canonical_of_exact (number : Number) (exact : number.Exact) : number.canonical = number := by
  cases number with
  | int value =>
    have small : value.natAbs ≤ 2 ^ 53 := exact
    obtain ⟨whole, bound⟩ := Double.wholeOfBits_bitsOfNat small
    have bits := toDouble_int small
    have magnitude : (Number.int value).toDouble.toNat % 2 ^ 63 =
        Double.bitsOfNat value.natAbs := by
      rw [bits]
      split <;> omega
    simp only [canonical, magnitude, whole]
    by_cases negative : value < 0
    · rw [if_pos negative] at bits
      rw [if_pos (by omega)]
      congr 1
      omega
    · rw [if_neg negative] at bits
      rw [if_neg (by omega)]
      congr 1
      omega
  | float bits =>
    have bounded : bits.toNat < 2 ^ 64 := bits.toNat_lt
    have exponent : bits.toNat % 2 ^ 63 / 2 ^ 52 = bits.toNat / 2 ^ 52 % 2 ^ 11 := by omega
    have fractional : Double.wholeOfBits (bits.toNat % 2 ^ 63) = none := by
      refine Double.wholeOfBits_eq_none (Nat.mod_lt _ (by decide)) ?_
      rw [exponent]
      simp only [Exact] at exact
      rcases exact with below | ⟨least, most, rest⟩
      · exact .inl below
      · refine .inr ⟨least, most, ?_⟩
        rwa [Nat.mod_mod_of_dvd _ (Nat.pow_dvd_pow 2 (by omega))]
    simp only [canonical, toDouble, fractional]

theorem canonical_idem (number : Number) : number.canonical.canonical = number.canonical := by
  cases whole : Double.wholeOfBits (number.toDouble.toNat % 2 ^ 63) with
  | none =>
    have same : number.canonical = .float number.toDouble := by simp only [canonical, whole]
    rw [same, ← asDouble, canonical_asDouble, same, asDouble]
  | some n =>
    have small := Double.wholeOfBits_le whole
    have exact : number.canonical.Exact := by
      simp only [canonical, whole, Exact]
      split <;> omega
    exact canonical_of_exact _ exact

end Number

end Famp.Json
