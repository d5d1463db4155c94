import Mathlib.Data.Nat.Log
import Mathlib.Tactic.IntervalCases

/-!
# Numerals of fixed width

A natural number written in a base of at most sixteen with a given number of digits, the most significant first. Reading
a numeral gives the number back, up to what does not fit its width, and two numerals side by side are one numeral.
-/

namespace Library

/-- The value of a hexadecimal digit. -/
def hexValue (c : Char) : Option Nat :=
  if '0' ≤ c ∧ c ≤ '9' then some (c.toNat - '0'.toNat)
  else if 'a' ≤ c ∧ c ≤ 'f' then some (c.toNat - 'a'.toNat + 10)
  else if 'A' ≤ c ∧ c ≤ 'F' then some (c.toNat - 'A'.toNat + 10)
  else none

def numeral (base : Nat) : Nat → Nat → List Char
  | 0, _ => []
  | width + 1, n => numeral base width (n / base) ++ [Nat.digitChar (n % base)]

def readDigit (base value : Nat) (c : Char) : Option Nat :=
  ((hexValue c).filter (· < base)).map (value * base + ·)

def readNumeral (base : Nat) (digits : List Char) : Option Nat := digits.foldlM (readDigit base) 0

lemma hexValue_digitChar {d : Nat} (h : d < 16) : hexValue (Nat.digitChar d) = some d := by
  interval_cases d <;> rfl

lemma length_numeral (base width n : Nat) : (numeral base width n).length = width := by
  induction width generalizing n with
  | zero => rfl
  | succ width ih => simp [numeral, ih]

lemma numeral_append (base width width' n : Nat) :
    numeral base width (n / base ^ width') ++ numeral base width' n = numeral base (width + width') n := by
  induction width' generalizing n with
  | zero => simp [numeral]
  | succ width' ih =>
    rw [numeral, ← List.append_assoc, Nat.pow_succ', ← Nat.div_div_eq_div_mul, ih]
    rfl

section Base

variable {base : Nat} (hpos : 0 < base) (hbase : base ≤ 16)

include hpos hbase

lemma not_mem_numeral {c : Char} (hc : hexValue c = none) (width n : Nat) : c ∉ numeral base width n := by
  induction width generalizing n with
  | zero => exact List.not_mem_nil
  | succ width ih =>
    intro h
    rcases List.mem_append.mp h with h | h
    · exact ih _ h
    · rw [List.mem_singleton.mp h, hexValue_digitChar ((Nat.mod_lt n hpos).trans_le hbase)] at hc
      cases hc

lemma readDigit_digitChar (value n : Nat) :
    readDigit base value (Nat.digitChar (n % base)) = some (value * base + n % base) := by
  have hlt : n % base < base := Nat.mod_lt n hpos
  simp [readDigit, hexValue_digitChar (hlt.trans_le hbase), hlt]

lemma readNumeral_numeral (width n : Nat) : readNumeral base (numeral base width n) = some (n % base ^ width) := by
  induction width generalizing n with
  | zero => simp [numeral, readNumeral, Nat.mod_one]
  | succ width ih =>
    have hread := ih (n / base)
    rw [readNumeral] at hread ⊢
    rw [numeral, List.foldlM_append, hread, Option.bind_eq_bind, Option.bind_some, List.foldlM_cons,
      readDigit_digitChar hpos hbase]
    have hmod : n / base % base ^ width * base + n % base = n % base ^ (width + 1) := by
      rw [Nat.pow_succ', Nat.mod_mul, Nat.add_comm, Nat.mul_comm]
    rw [hmod]
    rfl

lemma readNumeral_of_lt {width n : Nat} (h : n < base ^ width) : readNumeral base (numeral base width n) = some n := by
  rw [readNumeral_numeral hpos hbase, Nat.mod_eq_of_lt h]

end Base

end Library
