import Mathlib.Data.List.Forall2
import PromptAudit.Proofs.Literal.Numeral
import PromptAudit.Proofs.Number.Decimal
import PromptAudit.Proofs.Number.Nearest

namespace PromptAudit.Number

open Text

/-- A figure, or a letter small or capital, and the digit that it stands for. -/
def Figure (c : Char) (d : Nat) : Prop := c = Nat.digitChar d ∨ c = (Nat.digitChar d).toUpper

instance (c : Char) (d : Nat) : Decidable (Figure c d) :=
  inferInstanceAs (Decidable (c = Nat.digitChar d ∨ c = (Nat.digitChar d).toUpper))

/-- Digits of a base, between any two of which one underscore may stand. -/
inductive Grouped (base : Nat) : Text → List Nat → Prop
  | single {c : Char} {d : Nat} (figure : Figure c d) (small : d < base) : Grouped base [c] [d]
  | next {c : Char} {d : Nat} {t : Text} {values : List Nat} (figure : Figure c d)
      (small : d < base) (rest : Grouped base t values) : Grouped base (c :: t) (d :: values)
  | spaced {c : Char} {d : Nat} {t : Text} {values : List Nat} (figure : Figure c d)
      (small : d < base) (rest : Grouped base t values) : Grouped base (c :: '_' :: t) (d :: values)

/-- The letters that mark the base of a literal when they stand behind a zero. -/
inductive Marks : Char → Nat → Prop
  | hexadecimal {c : Char} (letter : c = 'x' ∨ c = 'X') : Marks c 16
  | decimal {c : Char} (letter : c = 'd' ∨ c = 'D') : Marks c 10
  | octal {c : Char} (letter : c = 'o' ∨ c = 'O') : Marks c 8
  | binary {c : Char} (letter : c = 'b' ∨ c = 'B') : Marks c 2

/-- A decimal literal without a mark starts with a zero only if it is a zero. -/
inductive Unmarked : Text → Nat → Prop
  | zero : Unmarked ['0'] 0
  | digits {t : Text} {d : Nat} {values : List Nat} (grouped : Grouped 10 t (d :: values))
      (leads : d ≠ 0) : Unmarked t (Nat.ofDigits 10 (d :: values).reverse)

/-- The integer that a literal denotes in Ruby. Behind a zero digits are octal. -/
inductive Denotes : Text → Nat → Prop
  | decimal {t : Text} {n : Nat} (unmarked : Unmarked t n) : Denotes t n
  | octal {t : Text} {values : List Nat} (grouped : Grouped 8 t (0 :: values))
      (more : values ≠ []) : Denotes t (Nat.ofDigits 8 (0 :: values).reverse)
  | marked {c : Char} {base : Nat} {t : Text} {values : List Nat} (marks : Marks c base)
      (grouped : Grouped base t values) : Denotes ('0' :: c :: t) (Nat.ofDigits base values.reverse)

/-- The literal names its base ten, which the readers do not know. -/
def MarksTen (t : Text) : Prop := t[1]? = some 'd' ∨ t[1]? = some 'D'

instance (t : Text) : Decidable (MarksTen t) :=
  inferInstanceAs (Decidable (t[1]? = some 'd' ∨ t[1]? = some 'D'))

def withoutUnderscores (t : Text) : Text := t.filter (· != '_')

/-- A character that reading a number leaves as it is: no margin, no digit of another script and no
sign. -/
structure Ordinary (c : Char) : Prop where
  solid : isMargin c = false
  common : plainDigit c = c
  unsigned : c ≠ '-' ∧ c ≠ '+'

instance (c : Char) : Decidable (Ordinary c) :=
  decidable_of_iff (isMargin c = false ∧ plainDigit c = c ∧ c ≠ '-' ∧ c ≠ '+')
    ⟨fun h => ⟨h.1, h.2.1, h.2.2⟩, fun h => ⟨h.solid, h.common, h.unsigned⟩⟩

/-- The figures of digits in order, all of them below the base. -/
abbrev Figures (base : Nat) : Text → List Nat → Prop :=
  List.Forall₂ fun c d => Figure c d ∧ d < base

variable {base d n : Nat} {c : Char} {t : Text} {values : List Nat}

theorem figure_facts (figure : Figure c d) (small : d < 16) :
    digitValue c = d ∧ Ordinary c ∧ c ≠ '_' := by
  have smalls : ∀ d < 16, digitValue (Nat.digitChar d) = d ∧ Ordinary (Nat.digitChar d) ∧
      Nat.digitChar d ≠ '_' := by decide +kernel
  have capitals : ∀ d < 16, digitValue (Nat.digitChar d).toUpper = d ∧
      Ordinary (Nat.digitChar d).toUpper ∧ (Nat.digitChar d).toUpper ≠ '_' := by decide +kernel
  rcases figure with rfl | rfl
  · exact smalls d small
  · exact capitals d small

theorem withoutUnderscores_cons (other : c ≠ '_') (t : Text) :
    withoutUnderscores (c :: t) = c :: withoutUnderscores t :=
  List.filter_cons_of_pos (bne_iff_ne.mpr other)

theorem withoutUnderscores_underscore (t : Text) :
    withoutUnderscores ('_' :: t) = withoutUnderscores t := rfl

theorem Grouped.figures (grouped : Grouped base t values) (known : base ≤ 16) :
    Figures base (withoutUnderscores t) values ∧ values ≠ [] := by
  have kept {c : Char} {d : Nat} (figure : Figure c d) (small : d < base) : c ≠ '_' :=
    (figure_facts figure (small.trans_le known)).2.2
  induction grouped with
  | single figure small =>
    rw [withoutUnderscores_cons (kept figure small)]
    exact ⟨.cons ⟨figure, small⟩ .nil, List.cons_ne_nil _ _⟩
  | next figure small _ ih =>
    rw [withoutUnderscores_cons (kept figure small)]
    exact ⟨.cons ⟨figure, small⟩ ih.1, List.cons_ne_nil _ _⟩
  | spaced figure small _ ih =>
    rw [withoutUnderscores_cons (kept figure small), withoutUnderscores_underscore]
    exact ⟨.cons ⟨figure, small⟩ ih.1, List.cons_ne_nil _ _⟩

theorem map_digitValue_of_figures (figures : Figures base t values) (known : base ≤ 16) :
    t.map digitValue = values := by
  induction figures with
  | nil => rfl
  | cons first _ ih =>
    rw [List.map_cons, (figure_facts first.1 (first.2.trans_le known)).1, ih]

theorem small_of_figures (figures : Figures base t values) : ∀ d ∈ values, d < base := by
  induction figures with
  | nil => exact List.forall_mem_nil _
  | cons first _ ih => exact List.forall_mem_cons.mpr ⟨first.2, ih⟩

theorem ordinary_of_figures (figures : Figures base t values) (known : base ≤ 16) :
    ∀ c ∈ t, Ordinary c := by
  induction figures with
  | nil => exact List.forall_mem_nil _
  | cons first _ ih =>
    exact List.forall_mem_cons.mpr ⟨(figure_facts first.1 (first.2.trans_le known)).2.1, ih⟩

/-- Text of ordinary characters is read as it stands, and as no negative number. -/
theorem signed?_of_ordinary {value? : Text → Option Nat} (ordinary : ∀ c ∈ t, Ordinary c)
    (filled : t ≠ []) : signed? value? t = (value? t).map fun n : Nat => (n : Int) := by
  have margins : core ([] ++ t ++ []) = t :=
    core_append (List.forall_mem_nil _) (fun c listed => (ordinary c listed).solid) filled
      (List.forall_mem_nil _)
  rw [List.nil_append, List.append_nil] at margins
  have plain : t.map plainDigit = t := by
    conv_rhs => rw [← List.map_id t]
    exact List.map_congr_left fun c listed => (ordinary c listed).common
  obtain ⟨c, rest, rfl⟩ := List.exists_cons_of_ne_nil filled
  obtain ⟨minus, plus⟩ := (ordinary c List.mem_cons_self).unsigned
  rw [signed?, bare_eq, margins, plain,
    splitSign_of_ne (by simpa using minus) (by simpa using plus)]
  dsimp only
  cases value? (c :: rest) <;> rfl

/-- Digits alone are decimal, and behind a zero they are read for zero only. -/
theorem prefixedValue?_of_digits (small : ∀ c ∈ t, digitValue c < 10) :
    prefixedValue? t =
      if t.head? = some '0' then (decimalValue? t).filter (· = 0) else decimalValue? t := by
  have plain {c : Char} {rest : Text} (shape : t = '0' :: c :: rest) : digitValue c < 10 :=
    small c (by rw [shape]; exact .tail _ (.head _))
  unfold prefixedValue?
  split
  · exact absurd (plain rfl) (by decide)
  · exact absurd (plain rfl) (by decide)
  · exact absurd (plain rfl) (by decide)
  · exact absurd (plain rfl) (by decide)
  · exact absurd (plain rfl) (by decide)
  · exact absurd (plain rfl) (by decide)
  · rfl
  · rename_i first
    rw [if_neg fun zero => ?_]
    obtain ⟨rest, rfl⟩ := List.head?_eq_some_iff.mp zero
    exact first rest rfl

theorem octalValue?_of_digits (small : ∀ c ∈ t, digitValue c < 10) :
    octalValue? t = digitsValue? 8 t := by
  have plain {c : Char} {rest : Text} (shape : t = '0' :: c :: rest) : digitValue c < 10 :=
    small c (by rw [shape]; exact .tail _ (.head _))
  unfold octalValue?
  split
  · exact absurd (plain rfl) (by decide)
  · exact absurd (plain rfl) (by decide)
  · rfl

/-- Behind a mark the digits of its base are read. -/
theorem prefixedValue?_of_marks (marks : Marks c base) (other : base ≠ 10) (digits : Text) :
    prefixedValue? ('0' :: c :: digits) = digitsValue? base digits := by
  cases marks with
  | decimal => exact absurd rfl other
  | hexadecimal letter => rcases letter with rfl | rfl <;> rfl
  | octal letter => rcases letter with rfl | rfl <;> rfl
  | binary letter => rcases letter with rfl | rfl <;> rfl

theorem digitsValue?_eq_none (listed : c ∈ t) (large : base ≤ digitValue c) :
    digitsValue? base t = none :=
  Option.eq_none_iff_forall_ne_some.mpr fun _ reads =>
    Nat.not_lt_of_le large ((digitsValue?_eq_some_iff.mp reads).1.2 c listed)

/-- The mark of the base ten is no digit, and no reader knows it. -/
theorem readers_of_marksTen (letter : c = 'd' ∨ c = 'D') (digits : Text) :
    prefixedValue? ('0' :: c :: digits) = none ∧ octalValue? ('0' :: c :: digits) = none := by
  have unread {base : Nat} (small : base ≤ 13) : digitsValue? base ('0' :: c :: digits) = none := by
    refine digitsValue?_eq_none (.tail _ (.head _)) ?_
    rcases letter with rfl | rfl <;> exact small
  have decimal : decimalValue? ('0' :: c :: digits) = none := by
    rw [decimalValue?, unread (by decide), ite_self]
  constructor
  · have first : prefixedValue? ('0' :: c :: digits) =
        (decimalValue? ('0' :: c :: digits)).filter (· = 0) := by
      rcases letter with rfl | rfl <;> rfl
    rw [first, decimal]
    rfl
  · have first : octalValue? ('0' :: c :: digits) = digitsValue? 8 ('0' :: c :: digits) := by
      rcases letter with rfl | rfl <;> rfl
    rw [first, unread (by decide)]

theorem digitsValue?_of_figures (figures : Figures base t values) (known : base ≤ 16)
    (filled : values ≠ []) :
    digitsValue? base t = some (Nat.ofDigits base values.reverse) := by
  have same := map_digitValue_of_figures figures known
  refine digitsValue?_eq_some_iff.mpr ⟨⟨?_, fun c listed => ?_⟩, by rw [same]⟩
  · rintro rfl
    exact filled same.symm
  · refine small_of_figures figures _ ?_
    rw [← same]
    exact List.mem_map_of_mem listed

theorem decimal_of_figures (figures : Figures base t values) (known : base ≤ 10) :
    ∀ c ∈ t, digitValue c < 10 := by
  intro c listed
  have same := map_digitValue_of_figures figures (known.trans (by decide))
  have small := small_of_figures figures (digitValue c) (same ▸ List.mem_map_of_mem listed)
  exact small.trans_le known

/-- A number with more places than are read has no nearest binary64 number. -/
theorem limit_le_ofDigits (wide : 8 ≤ base) (leads : d ≠ 0) (long : digitLimit ≤ values.length) :
    Double.limit ≤ Nat.ofDigits base (d :: values).reverse := by
  obtain ⟨c, hc⟩ : ∃ c, c = 970 := ⟨_, rfl⟩
  have places : c + 52 + 2 ≤ 3 * values.length := by
    rw [digitLimit] at long
    omega
  calc Double.limit = 2 ^ (c + 52 + 2) - 2 ^ c := Double.limit_eq hc
    _ ≤ 2 ^ (c + 52 + 2) := Nat.sub_le _ _
    _ ≤ 2 ^ (3 * values.length) := Nat.pow_le_pow_right Nat.two_pos places
    _ = 8 ^ values.length := Nat.pow_mul 2 3 values.length
    _ ≤ base ^ values.length := Nat.pow_le_pow_left wide _
    _ ≤ base ^ values.length * d := Nat.le_mul_of_pos_right _ (Nat.pos_of_ne_zero leads)
    _ ≤ Nat.ofDigits base (d :: values).reverse := by
      rw [Nat.ofDigits_reverse_cons]
      exact Nat.le_add_left _ _

section Unmarked

variable (figures : Figures 10 t (d :: values)) (leads : d ≠ 0)
include figures leads

theorem prefixedValue?_of_unmarked :
    prefixedValue? t = if t.length ≤ digitLimit then
      some (Nat.ofDigits 10 (d :: values).reverse) else none := by
  have first : t.head? ≠ some '0' := fun zero => by
    obtain ⟨rest, rfl⟩ := List.head?_eq_some_iff.mp zero
    have same := map_digitValue_of_figures figures (by decide)
    exact leads (List.cons_eq_cons.mp same).1.symm
  rw [prefixedValue?_of_digits (decimal_of_figures figures (Nat.le_refl 10)), if_neg first,
    decimalValue?, digitsValue?_of_figures figures (by decide) (List.cons_ne_nil _ _)]

/-- Read as octal, a decimal literal that is too long for the reader is too large as well. -/
theorem limit_le_of_octalValue? (long : ¬ t.length ≤ digitLimit) {m : Nat}
    (reads : octalValue? t = some m) : Double.limit ≤ m := by
  rw [octalValue?_of_digits (decimal_of_figures figures (Nat.le_refl 10)),
    digitsValue?_eq_some_iff] at reads
  obtain ⟨-, rfl⟩ := reads
  rw [map_digitValue_of_figures figures (by decide)]
  rw [figures.length_eq, List.length_cons] at long
  exact limit_le_ofDigits (Nat.le_refl 8) leads (by omega)

end Unmarked

section Octal

variable (figures : Figures 8 t (0 :: values))
include figures

theorem octalValue?_of_octal : octalValue? t = some (Nat.ofDigits 8 (0 :: values).reverse) := by
  rw [octalValue?_of_digits (decimal_of_figures figures (by decide)),
    digitsValue?_of_figures figures (by decide) (List.cons_ne_nil _ _)]

/-- Behind a zero the first reader takes nothing but a zero. -/
theorem eq_of_prefixedValue?_octal {m : Nat} (reads : prefixedValue? t = some m) :
    m = Nat.ofDigits 8 (0 :: values).reverse := by
  have first : t.head? = some '0' := by
    cases figures with
    | cons zero _ => rcases zero.1 with rfl | rfl <;> rfl
  rw [prefixedValue?_of_digits (decimal_of_figures figures (by decide)), if_pos first] at reads
  obtain ⟨decimal, zero⟩ := Option.filter_eq_some_iff.mp reads
  rw [decimalValue?] at decimal
  split at decimal
  · obtain ⟨-, value⟩ := digitsValue?_eq_some_iff.mp decimal
    rw [map_digitValue_of_figures figures (by decide)] at value
    have less : Nat.ofDigits 8 (0 :: values).reverse ≤ Nat.ofDigits 10 (0 :: values).reverse :=
      Nat.ofDigits_monotone _ (by decide)
    have zero : m = 0 := by simpa using zero
    omega
  · cases decimal

end Octal

theorem ordinary_of_marks (marks : Marks c base) : Ordinary c ∧ c ≠ '_' ∧ base ≤ 16 := by
  cases marks with
  | hexadecimal letter => rcases letter with rfl | rfl <;> decide
  | decimal letter => rcases letter with rfl | rfl <;> decide
  | octal letter => rcases letter with rfl | rfl <;> decide
  | binary letter => rcases letter with rfl | rfl <;> decide

theorem withoutUnderscores_marked (marks : Marks c base) (t : Text) :
    withoutUnderscores ('0' :: c :: t) = '0' :: c :: withoutUnderscores t := by
  rw [withoutUnderscores_cons (by decide), withoutUnderscores_cons (ordinary_of_marks marks).2.1]

theorem Unmarked.cases (unmarked : Unmarked t n) : t = ['0'] ∧ n = 0 ∨
    ∃ d values, Figures 10 (withoutUnderscores t) (d :: values) ∧ d ≠ 0 ∧
      n = Nat.ofDigits 10 (d :: values).reverse := by
  cases unmarked with
  | zero => exact .inl ⟨rfl, rfl⟩
  | digits grouped leads =>
    exact .inr ⟨_, _, (grouped.figures (by decide)).1, leads, rfl⟩

theorem ordinary_zero : Ordinary '0' := by decide

/-- Without its underscores a literal is read as it stands. -/
theorem ordinary_of_denotes (denotes : Denotes t n) :
    withoutUnderscores t ≠ [] ∧ ∀ c ∈ withoutUnderscores t, Ordinary c := by
  have filled {base : Nat} {t : Text} {d : Nat} {values : List Nat}
      (figures : Figures base t (d :: values)) : t ≠ [] := by
    rintro rfl
    cases figures
  cases denotes with
  | decimal unmarked =>
    rcases unmarked.cases with ⟨rfl, rfl⟩ | ⟨d, values, figures, -, -⟩
    · exact ⟨List.cons_ne_nil _ _, List.forall_mem_singleton.mpr ordinary_zero⟩
    · exact ⟨filled figures, ordinary_of_figures figures (by decide)⟩
  | octal grouped _ =>
    obtain ⟨figures, -⟩ := grouped.figures (by decide)
    exact ⟨filled figures, ordinary_of_figures figures (by decide)⟩
  | marked marks grouped =>
    obtain ⟨ordinary, -, known⟩ := ordinary_of_marks marks
    rw [withoutUnderscores_marked marks]
    refine ⟨List.cons_ne_nil _ _, List.forall_mem_cons.mpr ⟨ordinary_zero, ?_⟩⟩
    exact List.forall_mem_cons.mpr
      ⟨ordinary, ordinary_of_figures (grouped.figures known).1 known⟩

/-- What the first reader takes a literal for is the integer that it denotes. -/
theorem eq_of_prefixedValue? (denotes : Denotes t n) {m : Nat}
    (reads : prefixedValue? (withoutUnderscores t) = some m) : m = n := by
  cases denotes with
  | decimal unmarked =>
    rcases unmarked.cases with ⟨rfl, rfl⟩ | ⟨d, values, figures, leads, rfl⟩
    · exact (Option.some.inj reads).symm
    · rw [prefixedValue?_of_unmarked figures leads] at reads
      split at reads
      · exact (Option.some.inj reads).symm
      · cases reads
  | octal grouped _ => exact eq_of_prefixedValue?_octal (grouped.figures (by decide)).1 reads
  | @marked c base t values marks grouped =>
    obtain ⟨-, -, known⟩ := ordinary_of_marks marks
    obtain ⟨figures, filled⟩ := grouped.figures known
    rw [withoutUnderscores_marked marks] at reads
    by_cases ten : base = 10
    · subst ten
      cases marks with
      | decimal letter =>
        rw [(readers_of_marksTen letter _).1] at reads
        cases reads
    · rw [prefixedValue?_of_marks marks ten, digitsValue?_of_figures figures known filled] at reads
      exact (Option.some.inj reads).symm

/-- What the second reader takes a literal for that the first one refuses is the integer that it
denotes, or too large. -/
theorem eq_of_octalValue? (denotes : Denotes t n) {m : Nat}
    (unread : prefixedValue? (withoutUnderscores t) = none)
    (reads : octalValue? (withoutUnderscores t) = some m) : m = n ∨ Double.limit ≤ m := by
  cases denotes with
  | decimal unmarked =>
    rcases unmarked.cases with ⟨rfl, rfl⟩ | ⟨d, values, figures, leads, rfl⟩
    · cases unread
    · rw [prefixedValue?_of_unmarked figures leads] at unread
      split at unread
      · cases unread
      · rename_i long
        exact .inr (limit_le_of_octalValue? figures leads long reads)
  | octal grouped _ =>
    rw [octalValue?_of_octal (grouped.figures (by decide)).1] at reads
    exact .inl (Option.some.inj reads).symm
  | @marked c base t values marks grouped =>
    obtain ⟨-, -, known⟩ := ordinary_of_marks marks
    obtain ⟨figures, filled⟩ := grouped.figures known
    rw [withoutUnderscores_marked marks] at unread reads
    by_cases ten : base = 10
    · subst ten
      cases marks with
      | decimal letter =>
        rw [(readers_of_marksTen letter _).2] at reads
        cases reads
    · rw [prefixedValue?_of_marks marks ten, digitsValue?_of_figures figures known filled] at unread
      cases unread

/-- An unmarked decimal literal that the first reader refuses is too large. -/
theorem limit_le_of_unread (unmarked : Unmarked t n)
    (unread : prefixedValue? (withoutUnderscores t) = none) : Double.limit ≤ n := by
  rcases unmarked.cases with ⟨rfl, rfl⟩ | ⟨d, values, figures, leads, rfl⟩
  · cases unread
  · rw [prefixedValue?_of_unmarked figures leads] at unread
    split at unread
    · cases unread
    · rename_i long
      rw [figures.length_eq, List.length_cons] at long
      exact limit_le_ofDigits (by decide) leads (by omega)

/-- A literal below the limit that does not name the base ten is read by the first or else by the
second reader. -/
theorem reads_of_denotes (denotes : Denotes t n) (other : ¬ MarksTen t)
    (inRange : n < Double.limit) :
    prefixedValue? (withoutUnderscores t) = some n ∨
      prefixedValue? (withoutUnderscores t) = none ∧
        octalValue? (withoutUnderscores t) = some n := by
  cases denotes with
  | decimal unmarked =>
    cases first : prefixedValue? (withoutUnderscores t) with
    | none => exact absurd inRange (Nat.not_lt_of_le (limit_le_of_unread unmarked first))
    | some m => exact .inl (by rw [eq_of_prefixedValue? (.decimal unmarked) first])
  | octal grouped _ =>
    have figures := (grouped.figures (by decide)).1
    cases first : prefixedValue? (withoutUnderscores t) with
    | none => exact .inr ⟨rfl, octalValue?_of_octal figures⟩
    | some m => exact .inl (by rw [eq_of_prefixedValue?_octal figures first])
  | @marked c base t values marks grouped =>
    obtain ⟨-, -, known⟩ := ordinary_of_marks marks
    obtain ⟨figures, filled⟩ := grouped.figures known
    by_cases ten : base = 10
    · subst ten
      cases marks with
      | decimal letter => exact absurd (letter.imp (congrArg some) (congrArg some)) other
    · refine .inl ?_
      rw [withoutUnderscores_marked marks, prefixedValue?_of_marks marks ten,
        digitsValue?_of_figures figures known filled]

/-- The letter that names the base ten is no decimal digit. -/
theorem not_marksTen_of_figures (figures : Figures base (withoutUnderscores t) values)
    (known : base ≤ 10) : ¬ MarksTen t := by
  intro ten
  have large : ∃ c ∈ withoutUnderscores t, 10 ≤ digitValue c := by
    rcases ten with letter | letter
    · exact ⟨'d', List.mem_filter.mpr ⟨List.mem_of_getElem? letter, by decide⟩, by decide⟩
    · exact ⟨'D', List.mem_filter.mpr ⟨List.mem_of_getElem? letter, by decide⟩, by decide⟩
  obtain ⟨c, listed, large⟩ := large
  exact Nat.not_lt_of_le large (decimal_of_figures figures known c listed)

theorem unread_of_marksTen (denotes : Denotes t n) (ten : MarksTen t) :
    prefixedValue? (withoutUnderscores t) = none ∧ octalValue? (withoutUnderscores t) = none := by
  cases denotes with
  | decimal unmarked =>
    rcases unmarked.cases with ⟨rfl, rfl⟩ | ⟨d, values, figures, -, -⟩
    · exact absurd ten (by decide)
    · exact absurd ten (not_marksTen_of_figures figures (Nat.le_refl 10))
  | octal grouped _ =>
    exact absurd ten (not_marksTen_of_figures (grouped.figures (by decide)).1 (by decide))
  | marked marks _ =>
    rw [withoutUnderscores_marked marks]
    exact readers_of_marksTen (ten.imp Option.some.inj Option.some.inj) _

/-- A literal stands for the integer that it denotes, for one that is too large, or for none. -/
theorem eq_of_standsFor (denotes : Denotes t n) {m : Int}
    (stands : StandsFor (withoutUnderscores t) m) :
    ¬ MarksTen t ∧ (m = n ∨ Double.limit ≤ m.natAbs) := by
  obtain ⟨filled, ordinary⟩ := ordinary_of_denotes denotes
  cases stands with
  | prefixed reads =>
    rw [signed?_of_ordinary ordinary filled] at reads
    obtain ⟨k, value, rfl⟩ := Option.map_eq_some_iff.mp reads
    refine ⟨fun ten => ?_, .inl (by rw [eq_of_prefixedValue? denotes value])⟩
    rw [(unread_of_marksTen denotes ten).1] at value
    cases value
  | octal unread reads =>
    rw [signed?_of_ordinary ordinary filled] at unread reads
    obtain ⟨k, value, rfl⟩ := Option.map_eq_some_iff.mp reads
    refine ⟨fun ten => ?_, ?_⟩
    · rw [(unread_of_marksTen denotes ten).2] at value
      cases value
    · rw [Int.natAbs_natCast]
      exact (eq_of_octalValue? denotes (Option.map_eq_none_iff.mp unread) value).imp_left
        (congrArg Int.ofNat)

theorem standsFor_of_denotes (denotes : Denotes t n) (other : ¬ MarksTen t)
    (inRange : n < Double.limit) : StandsFor (withoutUnderscores t) n := by
  obtain ⟨filled, ordinary⟩ := ordinary_of_denotes denotes
  rcases reads_of_denotes denotes other inRange with reads | ⟨unread, reads⟩
  · exact .prefixed (by rw [signed?_of_ordinary ordinary filled, reads]; rfl)
  · refine .octal ?_ ?_
    · rw [signed?_of_ordinary ordinary filled, unread]
      rfl
    · rw [signed?_of_ordinary ordinary filled, reads]
      rfl

theorem ofInteger_of_denotes (denotes : Denotes t n) {v : Double} :
    Worth.ofInteger (withoutUnderscores t) = .number v ↔
      ¬ MarksTen t ∧ n < Double.limit ∧ v = ⟨false, Double.nearest n 1⟩ := by
  rw [Worth.ofInteger_eq_iff (fun bad => by cases bad)]
  constructor
  · intro worth
    obtain ⟨m, stands, worth⟩ := worth
    obtain ⟨other, rfl | large⟩ := eq_of_standsFor denotes stands
    · exact ⟨other, Worth.ofInt_natCast_eq_number_iff.mp worth⟩
    · rw [Worth.ofInt_eq_tooLarge_iff.mpr large] at worth
      cases worth
  · intro read
    obtain ⟨other, inRange, value⟩ := read
    exact ⟨n, standsFor_of_denotes denotes other inRange,
      Worth.ofInt_natCast_eq_number_iff.mpr ⟨inRange, value⟩⟩

end PromptAudit.Number
