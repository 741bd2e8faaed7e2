/-!
# Powers

The powers of the two bases in which numbers are written here.
-/

namespace LiveTable

/-- A power of two. -/
def pow2 (n : Nat) : Nat := Nat.pow 2 n

/-- A power of ten. -/
def pow10 (n : Nat) : Nat := Nat.pow 10 n

theorem pow2_succ (n : Nat) : pow2 (n + 1) = 2 * pow2 n := Nat.mul_comm ..

theorem pow10_succ (n : Nat) : pow10 (n + 1) = 10 * pow10 n := Nat.mul_comm ..

theorem pow2_pos (n : Nat) : 0 < pow2 n := by
  induction n with
  | zero => decide
  | succ n ih => rw [pow2_succ]; omega

theorem pow10_pos (n : Nat) : 0 < pow10 n := by
  induction n with
  | zero => decide
  | succ n ih => rw [pow10_succ]; omega

end LiveTable
