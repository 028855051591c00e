import Mathlib.Tactic.Ring
import PromptAudit.Number.Double

namespace PromptAudit.Number

theorem div_le_roundHalfEven (num den : Nat) : num / den ≤ roundHalfEven num den := by
  unfold roundHalfEven
  split <;> omega

theorem roundHalfEven_le (num den : Nat) : roundHalfEven num den ≤ num / den + 1 := by
  unfold roundHalfEven
  split <;> omega

/-- A quotient is rounded below an even number when it is not yet half way from the number before,
since a half is rounded up to the even number. -/
theorem roundHalfEven_lt_iff {num den bound : Nat} (hden : 0 < den) (pos : 0 < bound)
    (even : bound % 2 = 0) : roundHalfEven num den < bound ↔ 2 * num < den * (2 * bound - 1) := by
  have parts : den * (num / den) + num % den = num := Nat.div_add_mod num den
  have small : num % den < den := Nat.mod_lt num hden
  have wide : den * (2 * bound - 1) + den = 2 * (den * bound) := by
    rw [← Nat.mul_succ, Nat.succ_eq_add_one, show 2 * bound - 1 + 1 = 2 * bound by omega]
    ring
  rcases Nat.lt_trichotomy (num / den + 1) bound with below | last | above
  · have room : den * (num / den + 1) + den ≤ den * bound := by
      rw [← Nat.mul_succ]
      exact Nat.mul_le_mul_left den below
    have := roundHalfEven_le num den
    rw [Nat.mul_succ] at room
    omega
  · have odd : num / den % 2 = 1 := by omega
    have next : den * bound = den * (num / den) + den := by rw [← last, Nat.mul_succ]
    rw [roundHalfEven, odd]
    split <;> omega
  · have full : den * bound ≤ den * (num / den) := Nat.mul_le_mul_left den (by omega)
    have := div_le_roundHalfEven num den
    omega

namespace Double

/-- The least integer that has no nearest binary64 number: it lies half way between the greatest
of them and the next power of two. -/
def limit : Nat := 2 ^ 1024 - 2 ^ 970

theorem log2_mul_two_pow {n : Nat} (h : n ≠ 0) (k : Nat) : (n * 2 ^ k).log2 = n.log2 + k := by
  have low : 2 ^ n.log2 ≤ n := Nat.log2_self_le h
  have high : n < 2 ^ (n.log2 + 1) := Nat.lt_log2_self
  have pos : 0 < 2 ^ k := Nat.two_pow_pos k
  rw [Nat.log2_eq_iff (Nat.mul_ne_zero h (Nat.ne_of_gt pos)), Nat.pow_add,
    show n.log2 + k + 1 = n.log2 + 1 + k by omega, Nat.pow_add _ (n.log2 + 1)]
  exact ⟨Nat.mul_le_mul_right _ low, Nat.mul_lt_mul_of_pos_right high pos⟩

theorem kept_places {n : Nat} (h : n ≠ 0) (a b : Nat) :
    2 ^ a ≤ n * 2 ^ (a + b) / 2 ^ (n.log2 + b) ∧
      n * 2 ^ (a + b) / 2 ^ (n.log2 + b) < 2 ^ (a + 1) := by
  have low : 2 ^ n.log2 ≤ n := Nat.log2_self_le h
  have high : n < 2 ^ (n.log2 + 1) := Nat.lt_log2_self
  have shift (c : Nat) : 2 ^ (a + c) * 2 ^ (n.log2 + b) = 2 ^ (n.log2 + c) * 2 ^ (a + b) := by
    rw [← Nat.pow_add, ← Nat.pow_add]
    congr 1
    omega
  have pos : 0 < 2 ^ (n.log2 + b) := Nat.two_pow_pos _
  constructor
  · rw [Nat.le_div_iff_mul_le pos]
    exact (shift 0).trans_le (Nat.mul_le_mul_right _ low)
  · rw [Nat.div_lt_iff_lt_mul pos, shift 1]
    exact Nat.mul_lt_mul_of_pos_right high (Nat.two_pow_pos _)

/-- A number of `a + c + 2` places lies less than half a place below the power of two above it
exactly when its first `a + 2` places are all ones. -/
theorem half_place_iff (n a b c : Nat) :
    2 * (n * 2 ^ (a + b)) < 2 ^ (c + a + 1 + b) * (2 * 2 ^ (a + 1) - 1) ↔
      n < 2 ^ (c + a + 2) - 2 ^ c := by
  have places : 2 ^ (c + a + 1 + b) * (2 * 2 ^ (a + 1) - 1) =
      2 * ((2 ^ (c + a + 2) - 2 ^ c) * 2 ^ (a + b)) := by
    rw [Nat.mul_sub, Nat.sub_mul, Nat.mul_sub]
    congr 1 <;> ring
  rw [places, Nat.mul_lt_mul_left Nat.two_pos, Nat.mul_lt_mul_right (Nat.two_pow_pos _)]

theorem limit_eq {c : Nat} (h : c = 970) : limit = 2 ^ (c + 52 + 2) - 2 ^ c := by
  unfold limit
  rw [show 1024 = c + 52 + 2 by omega, show 970 = c from h.symm]

theorem unit_eq {b : Nat} (h : b = 1022) : unit = 2 ^ (52 + b) := by
  unfold unit
  rw [show 1074 = 52 + b by omega, Nat.pow_eq]

theorem nearest_one {n b : Nat} (h : n ≠ 0) (hb : b = 1022) :
    nearest n 1 = min infinite ((n.log2 + b) * 2 ^ 52 +
      roundHalfEven (n * 2 ^ (52 + b)) (2 ^ (n.log2 + b))) := by
  have least : unit = 2 ^ (52 + b) := unit_eq hb
  have places : (n * unit / 1).log2 - 52 = n.log2 + b := by
    rw [Nat.div_one, least, log2_mul_two_pow h]
    omega
  rw [nearest, places, Nat.one_mul, least]
  rfl

/-- An integer has a nearest binary64 number exactly when it lies below the limit. -/
theorem nearest_lt_infinite_iff (n : Nat) : nearest n 1 < infinite ↔ n < limit := by
  obtain ⟨b, hb⟩ : ∃ b, b = 1022 := ⟨_, rfl⟩
  obtain ⟨c, hc⟩ : ∃ c, c = 970 := ⟨_, rfl⟩
  have half : 2 ^ (c + 52 + 1) ≤ 2 ^ (c + 52 + 2) - 2 ^ c := by
    have gap : 2 ^ c ≤ 2 ^ (c + 52 + 1) := Nat.pow_le_pow_right (by omega) (by omega)
    rw [Nat.pow_succ 2 (c + 52 + 1)]
    omega
  rw [limit_eq hc]
  by_cases zero : n = 0
  · subst zero
    exact iff_of_true (by decide +kernel) ((Nat.two_pow_pos _).trans_le half)
  obtain ⟨least, greatest⟩ := kept_places zero 52 b
  have up := div_le_roundHalfEven (n * 2 ^ (52 + b)) (2 ^ (n.log2 + b))
  have down := roundHalfEven_le (n * 2 ^ (52 + b)) (2 ^ (n.log2 + b))
  have carry := @roundHalfEven_lt_iff (n * 2 ^ (52 + b)) (2 ^ (n.log2 + b)) (2 ^ (52 + 1))
    (Nat.two_pow_pos _) (by decide) (by decide)
  rw [nearest_one zero hb, show infinite = 2047 * 2 ^ 52 from rfl]
  generalize roundHalfEven (n * 2 ^ (52 + b)) (2 ^ (n.log2 + b)) = rounded at *
  rcases Nat.lt_trichotomy n.log2 (c + 52 + 1) with below | last | above
  · have inside : n < 2 ^ (c + 52 + 1) := by
      have high : n < 2 ^ (n.log2 + 1) := Nat.lt_log2_self
      exact high.trans_le (Nat.pow_le_pow_right (by omega) below)
    exact iff_of_true (by omega) (inside.trans_le half)
  · rw [last, half_place_iff] at carry
    omega
  · have outside : 2 ^ (c + 52 + 2) ≤ n := by
      have low : 2 ^ n.log2 ≤ n := Nat.log2_self_le zero
      exact (Nat.pow_le_pow_right (by omega) above).trans low
    exact iff_of_false (by omega) (Nat.not_lt_of_le ((Nat.sub_le _ _).trans outside))

end Double

end PromptAudit.Number
