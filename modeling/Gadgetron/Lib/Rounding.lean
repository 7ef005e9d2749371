import Mathlib.Data.Int.Log
import Mathlib.Data.Rat.Floor
import Mathlib.Tactic.Linarith
import Mathlib.Tactic.Ring

/-!
# Rounding to a number of significant bits

`roundTo p` is the nearest number with `p` significant bits, ties going to the even one; exponents
are not bounded.
-/

namespace Lib

def roundHalfEven (x : ℚ) : ℤ :=
  if x - ⌊x⌋ < 1 / 2 then ⌊x⌋
  else if 1 / 2 < x - ⌊x⌋ then ⌊x⌋ + 1
  else if ⌊x⌋ % 2 = 0 then ⌊x⌋
  else ⌊x⌋ + 1

/-- The distance of the numbers with `p` significant bits around `x`. -/
def lastPlace (p : ℕ) (x : ℚ) : ℚ := 2 ^ (Int.log 2 x + 1 - p)

def roundTo (p : ℕ) (x : ℚ) : ℚ := roundHalfEven (x / lastPlace p x) * lastPlace p x

variable {p : ℕ} {x : ℚ}

theorem abs_roundHalfEven_sub_le (x : ℚ) : |(roundHalfEven x : ℚ) - x| ≤ 1 / 2 := by
  have hfloor := Int.floor_le x
  have hlt := Int.lt_floor_add_one x
  unfold roundHalfEven
  split_ifs with hlow hhigh heven
  · rw [abs_le]
    constructor <;> linarith
  · rw [abs_le]
    push_cast
    constructor <;> linarith
  · rw [abs_le]
    constructor <;> linarith
  · rw [abs_le]
    push_cast
    constructor <;> linarith

theorem roundHalfEven_intCast (n : ℤ) : roundHalfEven n = n := by
  unfold roundHalfEven
  rw [Int.floor_intCast, sub_self, if_pos (by norm_num)]

theorem lastPlace_pos (p : ℕ) (x : ℚ) : 0 < lastPlace p x := by
  unfold lastPlace
  exact zpow_pos (by norm_num) _

theorem abs_roundTo_sub_le (p : ℕ) (x : ℚ) : |roundTo p x - x| ≤ lastPlace p x / 2 := by
  have hpos := lastPlace_pos p x
  have hround := abs_roundHalfEven_sub_le (x / lastPlace p x)
  have heq : roundTo p x - x =
      ((roundHalfEven (x / lastPlace p x) : ℚ) - x / lastPlace p x) * lastPlace p x := by
    unfold roundTo
    rw [sub_mul, div_mul_cancel₀ x hpos.ne']
  rw [heq, abs_mul, abs_of_pos hpos]
  calc |(roundHalfEven (x / lastPlace p x) : ℚ) - x / lastPlace p x| * lastPlace p x
      ≤ 1 / 2 * lastPlace p x := mul_le_mul_of_nonneg_right hround hpos.le
    _ = lastPlace p x / 2 := by ring

theorem roundTo_of_eq_mul {n : ℤ} (h : x = n * lastPlace p x) : roundTo p x = x := by
  have hdiv : x / lastPlace p x = n := by
    rw [div_eq_iff (lastPlace_pos p x).ne']
    exact h
  unfold roundTo
  rw [hdiv, roundHalfEven_intCast]
  exact h.symm

theorem log_natCast_mul_zpow {n : ℕ} (hn : 0 < n) (k : ℤ) :
    Int.log 2 ((n : ℚ) * 2 ^ k) = Nat.log 2 n + k := by
  have hn' : (0 : ℚ) < n := Nat.cast_pos.2 hn
  have hk : (0 : ℚ) < 2 ^ k := zpow_pos (by norm_num) k
  have hlow : ((2 : ℕ) : ℚ) ^ (Nat.log 2 n + k) ≤ n * 2 ^ k := by
    rw [Nat.cast_ofNat, zpow_add₀ (by norm_num), zpow_natCast]
    exact mul_le_mul_of_nonneg_right (by exact_mod_cast Nat.pow_log_le_self 2 hn.ne') hk.le
  have hhigh : (n : ℚ) * 2 ^ k < ((2 : ℕ) : ℚ) ^ (Nat.log 2 n + k + 1) := by
    rw [Nat.cast_ofNat, show (Nat.log 2 n + k + 1 : ℤ) = ((Nat.log 2 n + 1 : ℕ) : ℤ) + k by
      push_cast; ring, zpow_add₀ (by norm_num), zpow_natCast]
    exact mul_lt_mul_of_pos_right (by exact_mod_cast Nat.lt_pow_succ_log_self (by decide) n) hk
  have hle := (Int.zpow_le_iff_le_log (by decide) (mul_pos hn' hk)).1 hlow
  have hlt := (Int.lt_zpow_iff_log_lt (by decide) (mul_pos hn' hk)).1 hhigh
  omega

theorem roundTo_natCast_mul_zpow {n : ℕ} (hp : 0 < p) (hn : 0 < n) (hle : n ≤ 2 ^ p) (k : ℤ) :
    roundTo p (n * 2 ^ k) = n * 2 ^ k := by
  have hplace : lastPlace p ((n : ℚ) * 2 ^ k) = 2 ^ (Nat.log 2 n + 1 - p + k : ℤ) := by
    unfold lastPlace
    rw [log_natCast_mul_zpow hn]
    congr 1
    ring
  rcases hle.lt_or_eq with hlt | rfl
  · have hlog : Nat.log 2 n < p := Nat.log_lt_of_lt_pow hn.ne' hlt
    refine roundTo_of_eq_mul (n := n * 2 ^ (p - 1 - Nat.log 2 n)) ?_
    rw [hplace]
    push_cast
    rw [mul_assoc, ← zpow_natCast, ← zpow_add₀ (by norm_num)]
    congr 2
    omega
  · refine roundTo_of_eq_mul (n := 2 ^ (p - 1)) ?_
    rw [hplace, Nat.log_pow (by decide)]
    push_cast
    rw [← zpow_natCast, ← zpow_natCast, ← zpow_add₀ (by norm_num), ← zpow_add₀ (by norm_num)]
    congr 1
    omega

theorem lastPlace_le_of_lt_one (hpos : 0 < x) (hlt : x < 1) : lastPlace p x ≤ 2 ^ (-(p : ℤ)) := by
  have hlog : Int.log 2 x < 0 := (Int.lt_zpow_iff_log_lt (by decide) hpos).1 (by simpa using hlt)
  unfold lastPlace
  exact zpow_le_zpow_right₀ (by norm_num) (by omega)

theorem abs_roundTo_sub_le_of_le_one (hp : 0 < p) (hpos : 0 < x) (hle : x ≤ 1) :
    |roundTo p x - x| ≤ 2 ^ (-(p : ℤ)) / 2 := by
  rcases hle.lt_or_eq with hlt | rfl
  · have hplace := lastPlace_le_of_lt_one (p := p) hpos hlt
    exact (abs_roundTo_sub_le p x).trans (by linarith)
  · have hone : roundTo p 1 = 1 := by
      simpa using roundTo_natCast_mul_zpow hp Nat.one_pos Nat.one_le_two_pow 0
    rw [hone, sub_self, abs_zero]
    exact (half_pos (zpow_pos (by norm_num) _)).le

theorem roundTo_div_lt_roundTo_div {m n d : ℕ} (hp : 0 < p) (hm : 0 < m) (hmn : m < n)
    (hnd : n ≤ d) (hd : d ≤ 2 ^ p) : roundTo p ((m : ℚ) / d) < roundTo p ((n : ℚ) / d) := by
  have hd' : (0 : ℚ) < d := Nat.cast_pos.2 (by omega)
  have hstep : (m : ℚ) / d + 1 / d ≤ n / d := by
    rw [← add_div]
    exact div_le_div_of_nonneg_right (by exact_mod_cast hmn) hd'.le
  rcases hd.lt_or_eq with hlt | rfl
  · have hunit : (2 : ℚ) ^ (-(p : ℤ)) < 1 / d := by
      rw [zpow_neg, zpow_natCast, ← one_div]
      exact one_div_lt_one_div_of_lt hd' (by exact_mod_cast hlt)
    have hround := fun {k : ℕ} (hk : 0 < k) (hkd : k ≤ d) =>
      abs_le.1 (abs_roundTo_sub_le_of_le_one hp (div_pos (Nat.cast_pos.2 hk) hd')
        (div_le_one_of_le₀ (by exact_mod_cast hkd) hd'.le))
    have hleft := (hround hm (hmn.le.trans hnd)).2
    have hright := (hround (hm.trans hmn) hnd).1
    linarith
  · have hexact : ∀ {k : ℕ}, 0 < k → k ≤ 2 ^ p →
        roundTo p ((k : ℚ) / (2 ^ p : ℕ)) = k / (2 ^ p : ℕ) := by
      intro k hk hkp
      have hdiv : (k : ℚ) / (2 ^ p : ℕ) = k * 2 ^ (-(p : ℤ)) := by
        rw [zpow_neg, zpow_natCast, div_eq_mul_inv]
        push_cast
        rfl
      rw [hdiv]
      exact roundTo_natCast_mul_zpow hp hk hkp _
    rw [hexact hm (hmn.le.trans hnd), hexact (hm.trans hmn) hnd]
    exact div_lt_div_of_pos_right (by exact_mod_cast hmn) hd'

end Lib
