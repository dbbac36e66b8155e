/-!
# Decimal numerals

Reading and padding of decimal numbers. Numbers of the language are bounded: a numeral whose value
does not fit its bound is not read at all.
-/

namespace Blueprint.Text

-- Powers are those of the core library in every context.
attribute [local instance (high)] instPowNat

/-- The least number too large for a count such as a length or a limit. -/
def countBound : Nat := 2 ^ (32 : Nat)

/-- The least number too large for an amount of time. -/
def amountBound : Nat := 2 ^ (64 : Nat)

/-- The least number too large for an integer literal. -/
def integerBound : Nat := 2 ^ (63 : Nat)

/-- The value of a list of decimal digits, most significant first. -/
def digitsValue (digits : List Char) : Nat :=
  digits.foldl (fun n c => 10 * n + (c.toNat - '0'.toNat)) 0

theorem foldl_digits (n : Nat) (digits : List Char) :
    digits.foldl (fun n c => 10 * n + (c.toNat - '0'.toNat)) n =
      n * 10 ^ digits.length + digitsValue digits := by
  induction digits generalizing n with
  | nil => simp [digitsValue]
  | cons c cs ih =>
    rw [digitsValue, List.foldl_cons, List.foldl_cons, ih, ih, List.length_cons, Nat.pow_succ]
    grind

/-- A digit counts as often as the digits behind it can take on values. -/
theorem digitsValue_cons (c : Char) (cs : List Char) :
    digitsValue (c :: cs) = (c.toNat - '0'.toNat) * 10 ^ cs.length + digitsValue cs := by
  rw [digitsValue, List.foldl_cons, foldl_digits]
  simp

theorem digitsValue_lt {digits : List Char} (h : ∀ c ∈ digits, c.isDigit) :
    digitsValue digits < 10 ^ digits.length := by
  induction digits with
  | nil => simp [digitsValue]
  | cons c cs ih =>
    have hc : c.toNat - '0'.toNat ≤ 9 := by
      have := h c List.mem_cons_self
      simp only [Char.isDigit, Bool.and_eq_true, decide_eq_true_eq, UInt32.le_iff_toNat_le,
        ge_iff_le] at this
      have h9 : '9'.val.toNat = 57 := rfl
      have h0 : '0'.toNat = 48 := rfl
      have hv : c.toNat = c.val.toNat := rfl
      omega
    have hcs := ih fun d hd => h d (List.mem_cons_of_mem c hd)
    have := Nat.mul_le_mul_right (10 ^ cs.length) hc
    rw [digitsValue_cons, List.length_cons, Nat.pow_succ]
    omega

/-- The value of a decimal numeral, provided it has a digit, digits only and a value below
`bound`. -/
def natural? (bound : Nat) (digits : List Char) : Option Nat :=
  if digits.isEmpty || !digits.all Char.isDigit then none
  else if digitsValue digits < bound then some (digitsValue digits) else none

/-- The text with blanks before it, up to the given width. -/
def padLeft (width : Nat) (s : String) : String :=
  String.ofList (List.replicate (width - s.length) ' ') ++ s

end Blueprint.Text
