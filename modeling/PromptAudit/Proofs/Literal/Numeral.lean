import PromptAudit.Literal.Numeral
import PromptAudit.Proofs.Number.Range

namespace PromptAudit

open Number

/-- The integer that digits stand for: in the prefixed form, or else as an octal number. -/
inductive StandsFor (digits : Text) (n : Int) : Prop
  | prefixed (reads : signed? prefixedValue? digits = some n)
  | octal (unread : signed? prefixedValue? digits = none)
      (reads : signed? octalValue? digits = some n)

theorem Worth.ofInt_eq_tooLarge_iff {n : Int} :
    ofInt n = .tooLarge ↔ Double.limit ≤ n.natAbs := by
  rw [ofInt, ← Nat.not_lt, ← Double.nearest_lt_infinite_iff]
  split
  · rename_i near
    exact iff_of_false (fun bad => by cases bad) (fun far => far near)
  · rename_i far
    exact iff_of_true rfl far

theorem Worth.ofInteger_of_standsFor {digits : Text} {n : Int} (stands : StandsFor digits n) :
    ofInteger digits = ofInt n := by
  unfold ofInteger
  cases stands with
  | prefixed reads => rw [reads]
  | octal unread reads => rw [unread, reads]

/-- An integer literal has the worth of the integer that it stands for. -/
theorem Worth.ofInteger_eq_iff {digits : Text} {w : Worth} (read : w ≠ .none) :
    ofInteger digits = w ↔ ∃ n, StandsFor digits n ∧ ofInt n = w := by
  constructor
  · intro worth
    unfold ofInteger at worth
    split at worth
    · rename_i n reads
      exact ⟨n, .prefixed reads, worth⟩
    · rename_i unread
      split at worth
      · rename_i n reads
        exact ⟨n, .octal unread reads, worth⟩
      · exact absurd worth.symm read
  · intro stands
    obtain ⟨n, stands, worth⟩ := stands
    rw [ofInteger_of_standsFor stands, worth]

theorem Worth.ofInteger_eq_tooLarge_iff {digits : Text} :
    ofInteger digits = .tooLarge ↔ ∃ n, StandsFor digits n ∧ Double.limit ≤ n.natAbs := by
  rw [ofInteger_eq_iff (by decide)]
  simp only [ofInt_eq_tooLarge_iff]

theorem Worth.ofInt_natCast_eq_number_iff {n : Nat} {v : Double} :
    ofInt n = .number v ↔ n < Double.limit ∧ v = ⟨false, Double.nearest n 1⟩ := by
  rw [ofInt, ← Double.nearest_lt_infinite_iff, Int.natAbs_natCast]
  split
  · rename_i near
    have positive : decide ((n : Int) < 0) = false := decide_eq_false (by omega)
    simp [near, positive, eq_comm]
  · rename_i far
    exact iff_of_false (fun bad => by cases bad) (fun near => far near.1)

theorem Worth.neg_eq_tooLarge_iff {w : Worth} : w.neg = .tooLarge ↔ w = .tooLarge := by
  cases w <;> simp [neg]

theorem Worth.ofFloat_ne_tooLarge (text : Text) : ofFloat text ≠ .tooLarge := by
  unfold ofFloat
  split <;> exact fun bad => by cases bad

namespace Tree

/-- A sign is read off the text, and what it turns is the worth of the operand. -/
theorem worth_of_unary {t : Tree} {i : Nat} (type : t.type i = "unary") :
    t.worth i =
      (((t.field i "operand").map t.worth).map fun worth =>
        if (t.text i).head? = some '-' then worth.neg else .none).getD .none := by
  rw [worth, if_pos type]
  split <;> rename_i field <;> rw [field] <;> rfl

theorem worth_of_minus {t : Tree} {i operand : Nat} (type : t.type i = "unary")
    (sign : (t.text i).head? = some '-') (field : t.field i "operand" = some operand) :
    t.worth i = (t.worth operand).neg := by
  rw [worth_of_unary type, field, Option.map_some, Option.map_some, if_pos sign, Option.getD_some]

variable (t : Tree)

/-- An integer literal, with minus signs before it or not, that has no nearest binary64 number.
Underscores between the digits do not count. -/
inductive TooLarge : Nat → Prop
  | integer {i : Nat} {n : Int} (type : t.type i = "integer")
      (stands : StandsFor ((t.text i).filter (· != '_')) n) (large : Double.limit ≤ n.natAbs) :
      TooLarge i
  | unary {i operand : Nat} (type : t.type i = "unary") (field : t.field i "operand" = some operand)
      (minus : (t.text i).head? = some '-') (large : TooLarge operand) : TooLarge i

theorem worth_eq_tooLarge_iff {i : Nat} : t.worth i = .tooLarge ↔ t.TooLarge i := by
  constructor
  · intro worth
    fun_induction t.worth i with
    | case1 i type none => cases worth
    | case2 i type operand field minus ih =>
      exact .unary type field minus (ih (Worth.neg_eq_tooLarge_iff.mp worth))
    | case3 i type operand field plain => cases worth
    | case4 i unary digits type => exact absurd worth (Worth.ofFloat_ne_tooLarge _)
    | case5 i unary digits float type =>
      obtain ⟨n, stands, large⟩ := Worth.ofInteger_eq_tooLarge_iff.mp worth
      exact .integer type stands large
    | case6 i unary float integer => cases worth
  · intro large
    induction large with
    | integer type stands large =>
      rw [worth, type]
      simp only [String.reduceEq, if_false, if_true]
      exact Worth.ofInteger_eq_tooLarge_iff.mpr ⟨_, stands, large⟩
    | unary type field minus _ ih =>
      rw [worth_of_minus type minus field]
      exact Worth.neg_eq_tooLarge_iff.mpr ih

end Tree

end PromptAudit
