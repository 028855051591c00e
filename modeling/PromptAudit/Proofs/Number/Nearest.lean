import Mathlib.Data.Nat.Dist
import PromptAudit.Proofs.Number.Range

namespace PromptAudit.Number

section Rounding

variable {num den : Nat}

/-- The two multiples around a number, and which of them rounding takes. -/
theorem roundHalfEven_cases (hden : 0 < den) : ∃ rest < den, num = num / den * den + rest ∧
    (roundHalfEven num den = num / den ∧ (2 * rest < den ∨ 2 * rest = den ∧ num / den % 2 = 0) ∨
      roundHalfEven num den = num / den + 1 ∧
        (den < 2 * rest ∨ 2 * rest = den ∧ num / den % 2 = 1)) := by
  have parts : num = num / den * den + num % den := by
    rw [Nat.mul_comm]
    exact (Nat.div_add_mod num den).symm
  refine ⟨num % den, Nat.mod_lt num hden, parts, ?_⟩
  rw [roundHalfEven]
  split
  · rename_i down
    exact .inl ⟨rfl, down⟩
  · rename_i up
    exact .inr ⟨rfl, by omega⟩

/-- No multiple is nearer than the rounded one, and where another one is as near the rounded one is
even. -/
theorem roundHalfEven_nearest (hden : 0 < den) (k : Nat) :
    Nat.dist (roundHalfEven num den * den) num ≤ Nat.dist (k * den) num ∧
    (Nat.dist (k * den) num = Nat.dist (roundHalfEven num den * den) num →
      k ≠ roundHalfEven num den → roundHalfEven num den % 2 = 0) := by
  obtain ⟨rest, small, parts, rounds⟩ := @roundHalfEven_cases num den hden
  generalize num / den = q at parts rounds
  generalize roundHalfEven num den = r at rounds ⊢
  have next : (q + 1) * den = q * den + den := Nat.succ_mul q den
  have apart : k = q ∨ k = q + 1 ∨ (k + 1) * den ≤ q * den ∨ (q + 1 + 1) * den ≤ k * den := by
    rcases Nat.lt_trichotomy k q with below | same | above
    · exact .inr (.inr (.inl (Nat.mul_le_mul_right den below)))
    · exact .inl same
    · rcases Nat.eq_or_lt_of_le above with same | far
      · exact .inr (.inl same.symm)
      · exact .inr (.inr (.inr (Nat.mul_le_mul_right den far)))
  rw [Nat.succ_mul k, Nat.succ_mul (q + 1)] at apart
  simp only [Nat.dist]
  rcases rounds with ⟨rfl, down⟩ | ⟨rfl, up⟩ <;>
    rcases apart with rfl | rfl | below | above <;> omega

end Rounding

namespace Double

/-- The finite number nearest to an integer: none is nearer, and where another one is as near its
own last bit is zero. -/
structure IsNearest (d : Double) (n : Nat) : Prop where
  positive : d.negative = false
  finite : d.magnitude < infinite
  least (e : Double) (finite : e.magnitude < infinite) :
    Nat.dist d.units (n * unit) ≤ Nat.dist e.units (n * unit)
  even (e : Double) (finite : e.magnitude < infinite) (other : e.units ≠ d.units)
    (same : Nat.dist e.units (n * unit) = Nat.dist d.units (n * unit)) : d.magnitude % 2 = 0

variable {negative : Bool}

theorem units_of_exponent {e f : Nat} (h : f < 2 ^ 52) :
    units ⟨negative, (e + 1) * 2 ^ 52 + f⟩ = (2 ^ 52 + f) * 2 ^ e := by
  have exponent : ((e + 1) * 2 ^ 52 + f) / 2 ^ 52 = e + 1 := by omega
  have fraction : ((e + 1) * 2 ^ 52 + f) % 2 ^ 52 = f := by omega
  simp only [units, significand, scale, Nat.pow_eq, exponent, fraction, Nat.add_sub_cancel,
    Nat.add_comm f]
  rw [if_neg (Nat.succ_ne_zero e)]

/-- Numbers of 53 places are counted through, a carry into the next power of two included. -/
theorem units_of_places {s r : Nat} (low : 2 ^ 52 ≤ r) (high : r ≤ 2 ^ 53) :
    units ⟨negative, s * 2 ^ 52 + r⟩ = r * 2 ^ s := by
  rcases Nat.lt_or_eq_of_le high with inside | carry
  · have split : s * 2 ^ 52 + r = (s + 1) * 2 ^ 52 + (r - 2 ^ 52) := by omega
    rw [split, units_of_exponent (by omega), Nat.add_sub_cancel' low]
  · have split : s * 2 ^ 52 + r = (s + 1 + 1) * 2 ^ 52 + 0 := by omega
    rw [split, units_of_exponent (by decide), carry, Nat.pow_succ 2 s]
    omega

/-- Every number is on the grid of a power of two or lies below the numbers of 53 places on it. -/
theorem units_on_grid (d : Double) (s : Nat) :
    (∃ k, d.units = k * 2 ^ s) ∨ d.units < 2 ^ 52 * 2 ^ s := by
  have places : d.significand < 2 ^ 53 := by
    simp only [significand, Nat.pow_eq]
    split <;> omega
  rcases Nat.lt_or_ge d.scale s with below | above
  · refine .inr ?_
    have wide : 2 ^ 53 * 2 ^ d.scale ≤ 2 ^ 52 * 2 ^ s := by
      rw [← Nat.pow_add, ← Nat.pow_add]
      exact Nat.pow_le_pow_right Nat.two_pos (by omega)
    exact Nat.lt_of_lt_of_le (Nat.mul_lt_mul_of_pos_right places (Nat.two_pow_pos _)) wide
  · refine .inl ⟨d.significand * 2 ^ (d.scale - s), ?_⟩
    rw [units, Nat.mul_assoc, ← Nat.pow_add, Nat.sub_add_cancel above]
    rfl

/-- The number nearest to an integer is found where there is one. -/
theorem isNearest_nearest {n : Nat} (inRange : nearest n 1 < infinite) :
    IsNearest ⟨false, nearest n 1⟩ n := by
  by_cases zero : n = 0
  · subst zero
    have none : nearest 0 1 = 0 := by decide +kernel
    rw [none]
    have empty : units ⟨false, 0⟩ = 0 := by decide
    refine ⟨rfl, by decide, fun e _ => ?_, fun e _ other same => rfl⟩
    rw [empty, Nat.zero_mul, Nat.dist_self]
    exact Nat.zero_le _
  obtain ⟨b, hb⟩ : ∃ b, b = 1022 := ⟨_, rfl⟩
  have least : unit = 2 ^ (52 + b) := unit_eq hb
  obtain ⟨low, high⟩ := kept_places zero 52 b
  rw [nearest_one zero hb] at inRange ⊢
  generalize 2 ^ (52 + b) = one at *
  generalize n.log2 + b = s at *
  have pos : 0 < 2 ^ s := Nat.two_pow_pos s
  have up := div_le_roundHalfEven (n * one) (2 ^ s)
  have down := roundHalfEven_le (n * one) (2 ^ s)
  have whole : 2 ^ 52 * 2 ^ s ≤ n * one :=
    (Nat.mul_le_mul_right _ low).trans (Nat.div_mul_le_self _ _)
  have bits : min infinite (s * 2 ^ 52 + roundHalfEven (n * one) (2 ^ s)) =
      s * 2 ^ 52 + roundHalfEven (n * one) (2 ^ s) := by omega
  rw [bits] at inRange ⊢
  have value : units ⟨false, s * 2 ^ 52 + roundHalfEven (n * one) (2 ^ s)⟩ =
      roundHalfEven (n * one) (2 ^ s) * 2 ^ s := units_of_places (by omega) (by omega)
  have nearer (e : Double) : (∃ k, e.units = k * 2 ^ s) ∨
      Nat.dist (roundHalfEven (n * one) (2 ^ s) * 2 ^ s) (n * one) <
        Nat.dist e.units (n * one) := by
    refine (units_on_grid e s).imp_right fun below => ?_
    have bound := (@roundHalfEven_nearest (n * one) _ pos (2 ^ 52)).1
    simp only [Nat.dist] at bound ⊢
    omega
  refine ⟨rfl, inRange, fun e _ => ?_, fun e _ other same => ?_⟩ <;>
    rw [value, least] at * <;> rcases nearer e with ⟨k, grid⟩ | far
  · rw [grid]
    exact (roundHalfEven_nearest pos k).1
  · exact Nat.le_of_lt far
  · rw [grid] at other same
    have rounded := (roundHalfEven_nearest pos k).2 same fun equal => other (by rw [equal])
    show (s * 2 ^ 52 + roundHalfEven (n * one) (2 ^ s)) % 2 = 0
    omega
  · omega

end Double

end PromptAudit.Number
