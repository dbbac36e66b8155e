import Blueprint.Text.Numeral

/-!
# Decimal numbers

A `Decimal` is a number as it is written with a point or an exponent: its digits, and the power of
ten that they are multiplied by. It is read as the nearest number of double precision. The large
ones have none, and `Decimal.overflows` finds them without the powers of ten that large exponents
stand for.
-/

namespace Blueprint.Toml

-- Powers are those of the core library in every context.
attribute [local instance (high)] instPowNat

structure Decimal where
  /-- The digits before and behind the point. -/
  digits : List Char
  /-- The power of ten that the digits are multiplied by. -/
  exponent : Int
  deriving DecidableEq

/-- The least number without a nearest number of double precision. It lies halfway between the
largest of those and the next power of two. -/
def overflowBound : Nat := 2 ^ (1024 : Nat) - 2 ^ (970 : Nat)

namespace Decimal

/-- The digits from the first that is not zero. -/
def significant (d : Decimal) : List Char := d.digits.dropWhile (· == '0')

/-- Whether the number reaches the bound, compared in whole numbers. -/
def reachesBound (d : Decimal) : Bool :=
  overflowBound * 10 ^ (-d.exponent).toNat ≤ Text.digitsValue d.significant * 10 ^ d.exponent.toNat

/-- Whether the number is too large for double precision. The bound has 309 digits, so only a number
with as many digits before its point needs to be compared with it. -/
def overflows (d : Decimal) : Bool :=
  let places : Int := d.significant.length + d.exponent
  if d.significant.isEmpty || places < 309 then false
  else if 309 < places then true
  else d.reachesBound

theorem mul_pow_lt_of_digits {v b k p x y : Nat} (hv : v < 10 ^ k) (hb : 10 ^ p ≤ b)
    (h : k + x ≤ p + y) : v * 10 ^ x < b * 10 ^ y :=
  calc v * 10 ^ x < 10 ^ k * 10 ^ x := Nat.mul_lt_mul_of_pos_right hv (Nat.pow_pos (by decide))
    _ = 10 ^ (k + x) := (Nat.pow_add ..).symm
    _ ≤ 10 ^ (p + y) := Nat.pow_le_pow_right (by decide) h
    _ = 10 ^ p * 10 ^ y := Nat.pow_add ..
    _ ≤ b * 10 ^ y := Nat.mul_le_mul_right _ hb

theorem mul_pow_le_of_digits {v b k p x y : Nat} (hv : 10 ^ k ≤ v) (hb : b ≤ 10 ^ p)
    (h : p + y ≤ k + x) : b * 10 ^ y ≤ v * 10 ^ x :=
  calc b * 10 ^ y ≤ 10 ^ p * 10 ^ y := Nat.mul_le_mul_right _ hb
    _ = 10 ^ (p + y) := (Nat.pow_add ..).symm
    _ ≤ 10 ^ (k + x) := Nat.pow_le_pow_right (by decide) h
    _ = 10 ^ k * 10 ^ x := Nat.pow_add ..
    _ ≤ v * 10 ^ x := Nat.mul_le_mul_right _ hv

theorem digitsValue_significant_lt {d : Decimal} (h : ∀ c ∈ d.digits, c.isDigit) :
    Text.digitsValue d.significant < 10 ^ d.significant.length :=
  Text.digitsValue_lt fun c hc => h c ((List.dropWhile_sublist _).subset hc)

theorem pow_le_digitsValue_significant {d : Decimal} (h : ∀ c ∈ d.digits, c.isDigit)
    (hs : d.significant ≠ []) :
    10 ^ (d.significant.length - 1) ≤ Text.digitsValue d.significant := by
  cases e : d.significant with
  | nil => exact absurd e hs
  | cons c cs =>
    have hz : ¬ (c == '0') = true := by
      have := List.head_dropWhile_not (· == '0') (l := d.digits) hs
      simpa [← significant.eq_def, e] using this
    have hm : c ∈ d.significant := e ▸ List.mem_cons_self
    have hd := h c ((List.dropWhile_sublist _).subset hm)
    have hc : 1 ≤ c.toNat - '0'.toNat := by
      simp only [Char.isDigit, Bool.and_eq_true, decide_eq_true_eq, UInt32.le_iff_toNat_le,
        ge_iff_le] at hd
      have h0 : '0'.toNat = 48 := rfl
      have hv : c.toNat = c.val.toNat := rfl
      have hne : c.toNat ≠ 48 := fun he => hz (by simpa using Char.toNat_inj.1 (he.trans h0.symm))
      have h0' : '0'.val.toNat = 48 := rfl
      omega
    have := Nat.mul_le_mul_right (10 ^ cs.length) hc
    rw [Text.digitsValue_cons, List.length_cons]
    simp only [Nat.add_sub_cancel]
    omega

theorem overflowBound_pos : 0 < overflowBound := by decide +kernel

theorem pow_le_overflowBound : 10 ^ (308 : Nat) ≤ overflowBound := by decide +kernel

theorem overflowBound_le_pow : overflowBound ≤ 10 ^ (309 : Nat) := by decide +kernel

/-- The look at the number of digits changes no answer. -/
theorem overflows_eq_reachesBound {d : Decimal} (h : ∀ c ∈ d.digits, c.isDigit) :
    d.overflows = d.reachesBound := by
  have hlt := digitsValue_significant_lt h
  have hle := pow_le_digitsValue_significant h
  unfold overflows reachesBound
  dsimp only
  split
  · next hp =>
    refine (decide_eq_false (Nat.not_le.2 ?_)).symm
    rcases Bool.or_eq_true_iff.1 hp with hs | hp
    · rw [List.isEmpty_iff.1 hs, Text.digitsValue, List.foldl_nil, Nat.zero_mul]
      exact Nat.mul_pos overflowBound_pos (Nat.pow_pos (by decide))
    · have := of_decide_eq_true hp
      exact mul_pow_lt_of_digits hlt pow_le_overflowBound (by omega)
  · next hp =>
    split
    · next hq =>
      have hs : d.significant ≠ [] := by
        intro hs
        simp [hs] at hp
      refine (decide_eq_true ?_).symm
      exact mul_pow_le_of_digits (hle hs) overflowBound_le_pow (by omega)
    · rfl

end Decimal

end Blueprint.Toml
