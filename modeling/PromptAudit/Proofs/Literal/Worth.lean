import Mathlib.Logic.Function.Iterate
import PromptAudit.Proofs.Literal.Integer
import PromptAudit.Proofs.Tree.Sketch

namespace PromptAudit

open Number

theorem Worth.neg_eq_number_iff {w : Worth} {v : Double} :
    w.neg = .number v ↔ ∃ d, w = .number d ∧ v = d.neg := by
  cases w <;> simp [neg, eq_comm]

theorem Worth.iterate_neg_eq_number_iff {w : Worth} {v : Double} {k : Nat} :
    neg^[k] w = .number v ↔ ∃ d, w = .number d ∧ v = Double.neg^[k] d := by
  induction k generalizing v with
  | zero => simp
  | succ k ih =>
    simp only [Function.iterate_succ_apply', neg_eq_number_iff, ih]
    constructor
    · intro turned
      obtain ⟨u, ⟨d, worth, rfl⟩, rfl⟩ := turned
      exact ⟨d, worth, rfl⟩
    · intro turned
      obtain ⟨d, worth, rfl⟩ := turned
      exact ⟨_, ⟨d, worth, rfl⟩, rfl⟩

namespace Tree

/-- A literal behind minus signs, each of which has a node of its own around what follows. -/
inductive Negated (t : Tree) (literal : Nat) : Nat → Nat → Prop
  | bare : Negated t literal 0 literal
  | minus {k i operand : Nat} (type : t.type i = "unary") (sign : (t.text i).head? = some '-')
      (field : t.field i "operand" = some operand) (rest : Negated t literal k operand) :
      Negated t literal (k + 1) i

variable {t : Tree} {i j k n : Nat}

theorem worth_of_negated (negated : t.Negated j k i) : t.worth i = Worth.neg^[k] (t.worth j) := by
  induction negated with
  | bare => rfl
  | minus type sign field _ ih =>
    rw [worth_of_minus type sign field, ih, Function.iterate_succ_apply']

theorem worth_of_integer (type : t.type j = "integer") :
    t.worth j = Worth.ofInteger (withoutUnderscores (t.text j)) := by
  rw [worth, type]
  simp only [String.reduceEq, if_false, if_true]
  rfl

theorem worth_of_other_sign (type : t.type i = "unary") (sign : (t.text i).head? ≠ some '-') :
    t.worth i = .none := by
  rw [worth_of_unary type]
  cases t.field i "operand" with
  | none => rfl
  | some operand => rw [Option.map_some, Option.map_some, if_neg sign, Option.getD_some]

theorem worth_of_negated_eq_number_iff (negated : t.Negated j k i)
    (isInteger : t.type j = "integer") (denotes : Denotes (t.text j) n) {v : Double} :
    t.worth i = .number v ↔ ¬ MarksTen (t.text j) ∧ n < Double.limit ∧
      v = Double.neg^[k] ⟨false, Double.nearest n 1⟩ := by
  rw [worth_of_negated negated, worth_of_integer isInteger, Worth.iterate_neg_eq_number_iff]
  simp only [ofInteger_of_denotes denotes]
  constructor
  · intro turned
    obtain ⟨d, ⟨other, inRange, rfl⟩, rfl⟩ := turned
    exact ⟨other, inRange, rfl⟩
  · intro turned
    obtain ⟨other, inRange, rfl⟩ := turned
    exact ⟨_, ⟨other, inRange, rfl⟩, rfl⟩

/-- The worth of an integer literal behind minus signs is the number nearest to the integer that it
denotes, turned once for each of them. It has one when the integer is below the limit and the
literal does not name the base ten. Where the first reader refuses an unmarked decimal literal the
second one never gives it a worth, and a sign other than a minus leaves none. -/
theorem integer_worth_nearest (t : Tree) :
    (∀ i j k n, t.Negated j k i → t.type j = "integer" → Denotes (t.text j) n →
      (∀ v, t.worth i = .number v → ∃ d, d.IsNearest n ∧ v = Double.neg^[k] d) ∧
      ((∃ v, t.worth i = .number v) ↔ ¬ MarksTen (t.text j) ∧ n < Double.limit) ∧
      (Unmarked (t.text j) n →
        signed? prefixedValue? (withoutUnderscores (t.text j)) = none →
          ∀ v, t.worth i ≠ .number v)) ∧
    ∀ u, t.type u = "unary" → (t.text u).head? ≠ some '-' → t.worth u = .none := by
  refine ⟨fun i j k n negated isInteger denotes => ?_, fun u type sign =>
    worth_of_other_sign type sign⟩
  have worth {v : Double} := worth_of_negated_eq_number_iff (v := v) negated isInteger denotes
  refine ⟨fun v known => ?_, ?_, fun unmarked refused v known => ?_⟩
  · obtain ⟨-, inRange, rfl⟩ := worth.mp known
    exact ⟨_, Double.isNearest_nearest ((Double.nearest_lt_infinite_iff n).mpr inRange), rfl⟩
  · constructor
    · intro known
      obtain ⟨v, known⟩ := known
      obtain ⟨other, inRange, -⟩ := worth.mp known
      exact ⟨other, inRange⟩
    · intro read
      exact ⟨_, worth.mpr ⟨read.1, read.2, rfl⟩⟩
  · obtain ⟨filled, ordinary⟩ := ordinary_of_denotes denotes
    rw [signed?_of_ordinary ordinary filled, Option.map_eq_none_iff] at refused
    exact Nat.not_lt_of_le (limit_le_of_unread unmarked refused) (worth.mp known).2.1

open Shape (plain held)
open Forest (leaf only)

/-- The literal `-0_17`, octal by its leading zero. -/
def minusOctal : Tree where
  source := Text.encode "-0_17\n".toList
  root := plain "program" 0 6
  children := only (plain "unary" 0 5) <| leaf (held "operand" "integer" 1 5) .none
  broken := false

theorem minusOctal_worth :
    minusOctal.Negated 2 1 1 ∧ minusOctal.type 2 = "integer" ∧ Denotes (minusOctal.text 2) 15 ∧
    ∃ v d : Double, minusOctal.worth 1 = .number v ∧ d.IsNearest 15 ∧ v = d.neg := by
  have negated : minusOctal.Negated 2 1 1 :=
    .minus (by decide +kernel) (by decide +kernel) (by decide +kernel) .bare
  have isInteger : minusOctal.type 2 = "integer" := by decide +kernel
  have text : minusOctal.text 2 = "0_17".toList := by decide +kernel
  have grouped : Grouped 8 "0_17".toList [0, 1, 7] :=
    .spaced (by decide) (by decide) <| .next (by decide) (by decide) <|
      .single (by decide) (by decide)
  have denotes : Denotes (minusOctal.text 2) 15 := text ▸ .octal grouped (by decide)
  obtain ⟨nearest, known, -⟩ :=
    (integer_worth_nearest minusOctal).1 _ _ _ _ negated isInteger denotes
  have inRange : 15 < Double.limit :=
    (Double.nearest_lt_infinite_iff 15).mp (by decide +kernel)
  obtain ⟨v, worth⟩ := known.mpr ⟨by decide +kernel, inRange⟩
  obtain ⟨d, isNearest, turned⟩ := nearest v worth
  exact ⟨negated, isInteger, denotes, v, d, worth, isNearest, turned⟩

end Tree

end PromptAudit
