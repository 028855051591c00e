import Mathlib.Data.List.DropRight
import Mathlib.Data.Nat.Digits.Defs
import Mathlib.Tactic.IntervalCases
import PromptAudit.Number.Reading

namespace PromptAudit.Number

open Text

/-- Decimal digits, of whatever scripts and no more than the limit, and the number they write. -/
def Writes (digits : Text) (n : Nat) : Prop :=
  ∃ values : List Nat, digits.map digit? = values.map some ∧ values ≠ [] ∧
    values.length ≤ digitLimit ∧ Nat.ofDigits 10 values.reverse = n

/-- A sign, or none, and what it makes of a number. -/
inductive Signs : Text → Nat → Int → Prop
  | none (n : Nat) : Signs [] n n
  | plus (n : Nat) : Signs ['+'] n n
  | minus (n : Nat) : Signs ['-'] n (-n)

/-- A text that spells a decimal integer: margins of white space, and between them digits that a
sign may stand before. -/
inductive Spells : Text → Int → Prop
  | between {left sign digits right : Text} {k : Nat} {n : Int}
      (before : ∀ c ∈ left, isMargin c = true) (signs : Signs sign k n) (writes : Writes digits k)
      (after : ∀ c ∈ right, isMargin c = true) : Spells (left ++ (sign ++ digits) ++ right) n

section Digits

variable {c : Char} {d : Nat}

/-- A digit of any script in its ASCII form. -/
def plainDigit (c : Char) : Char :=
  match digit? c with
  | some d => Char.ofNat (48 + d)
  | none => c

theorem place_of_digit (digit : digit? c = some d) :
    d ≤ 9 ∧ ∃ start ∈ zeros, c.toNat = start + d := by
  obtain ⟨start, found, rfl⟩ := Option.map_eq_some_iff.mp digit
  have inside : start ≤ c.toNat ∧ c.toNat ≤ start + 9 := by simpa using List.find?_some found
  exact ⟨by omega, start, List.mem_of_find?_eq_some found, by omega⟩

/-- No script has its digits among the white space. -/
theorem isMargin_of_digit (digit : digit? c = some d) : isMargin c = false := by
  have apart : ∀ start ∈ zeros, ∀ run ∈ blankRuns, run.2 < start ∨ start + 9 < run.1 := by decide
  obtain ⟨small, start, listed, place⟩ := place_of_digit digit
  have visible : isBlank c = false := by
    rw [isBlank, within, List.any_eq_false]
    intro run among inside
    have split := apart start listed run among
    simp only [Bool.and_eq_true, decide_eq_true_eq] at inside
    omega
  rw [isMargin, visible, Bool.false_and]

/-- The digits of the first script are the ASCII ones. -/
theorem digit?_of_isDigit (digit : c.isDigit = true) : ∃ d, digit? c = some d := by
  have inside : 48 ≤ c.toNat ∧ c.toNat ≤ 48 + 9 := by
    simpa [Char.isDigit, UInt32.le_iff_toNat_le] using digit
  refine ⟨c.toNat - 48, ?_⟩
  rw [digit?, zeros, List.find?_cons_of_pos (by simpa using inside), Option.map_some]

theorem plainDigit_of_digit (digit : digit? c = some d) : plainDigit c = Char.ofNat (48 + d) := by
  rw [plainDigit, digit]

theorem plainDigit_of_none (none : digit? c = none) : plainDigit c = c := by
  rw [plainDigit, none]

theorem digitValue_plainDigit (digit : digit? c = some d) : digitValue (plainDigit c) = d := by
  obtain ⟨small, -⟩ := place_of_digit digit
  rw [plainDigit_of_digit digit]
  interval_cases d <;> rfl

/-- Below ten there are only digits, for letters count on from there. -/
theorem isDigit_of_digitValue_lt (small : digitValue c < 10) : c.isDigit = true := by
  by_contra other
  rw [digitValue, if_neg other] at small
  split at small
  · rename_i letter
    simp only [Bool.and_eq_true, decide_eq_true_eq, Char.le_def, UInt32.le_iff_toNat_le] at letter
    have start : 97 ≤ c.toNat := letter.1
    omega
  · split at small
    · rename_i letter
      simp only [Bool.and_eq_true, decide_eq_true_eq, Char.le_def, UInt32.le_iff_toNat_le] at letter
      have start : 65 ≤ c.toNat := letter.1
      omega
    · omega

theorem digit?_of_digitValue_lt (small : digitValue (plainDigit c) < 10) :
    digit? c = some (digitValue (plainDigit c)) := by
  cases digit : digit? c with
  | some d => rw [digitValue_plainDigit digit]
  | none =>
    rw [plainDigit_of_none digit] at small
    obtain ⟨d, found⟩ := digit?_of_isDigit (isDigit_of_digitValue_lt small)
    rw [digit] at found
    cases found

theorem isMargin_plainDigit (c : Char) : isMargin (plainDigit c) = isMargin c := by
  cases digit : digit? c with
  | none => rw [plainDigit_of_none digit]
  | some d =>
    obtain ⟨small, -⟩ := place_of_digit digit
    rw [plainDigit_of_digit digit, isMargin_of_digit digit]
    interval_cases d <;> decide

theorem plainDigit_eq_iff {sign : Char} (noDigit : digit? sign = none) :
    plainDigit c = sign ↔ c = sign := by
  constructor
  · rintro rfl
    cases digit : digit? c with
    | none => exact (plainDigit_of_none digit).symm
    | some d =>
      obtain ⟨small, -⟩ := place_of_digit digit
      rw [plainDigit_of_digit digit] at noDigit
      interval_cases d <;> cases noDigit
  · rintro rfl
    exact plainDigit_of_none noDigit

end Digits

theorem foldl_eq_ofDigits (base : Nat) (values : List Nat) :
    values.foldl (fun n d => n * base + d) 0 = Nat.ofDigits base values.reverse := by
  rw [Nat.ofDigits_eq_foldr, List.foldr_reverse]
  simp only [Nat.cast_id, Nat.mul_comm, Nat.add_comm]

/-- A run of digits of a base is read as the number that they write. -/
theorem digitsValue?_eq_some_iff {base n : Nat} {t : Text} : digitsValue? base t = some n ↔
    (t ≠ [] ∧ ∀ c ∈ t, digitValue c < base) ∧
      Nat.ofDigits base (t.map digitValue).reverse = n := by
  have shape : (!t.isEmpty && t.all (digitValue · < base)) = true ↔
      t ≠ [] ∧ ∀ c ∈ t, digitValue c < base := by
    simp
  rw [digitsValue?, ← foldl_eq_ofDigits, List.foldl_map]
  split
  · rename_i shaped
    rw [Option.some.injEq]
    exact ⟨fun same => ⟨shape.mp shaped, same⟩, fun reads => reads.2⟩
  · rename_i misshapen
    exact ⟨fun reads => (by cases reads), fun reads => absurd (shape.mpr reads.1) misshapen⟩

theorem digit_of_writes {digits : Text} {k : Nat} (writes : Writes digits k) :
    digits ≠ [] ∧ ∀ c ∈ digits, ∃ d, digit? c = some d := by
  obtain ⟨values, digit, nonempty, -⟩ := writes
  refine ⟨fun empty => nonempty (by simpa [empty] using digit.symm), fun c listed => ?_⟩
  have among := List.mem_map_of_mem (f := digit?) listed
  rw [digit] at among
  obtain ⟨d, -, same⟩ := List.mem_map.mp among
  exact ⟨d, same.symm⟩

/-- The value of a digit as it is read in the common form. -/
def plainValue (c : Char) : Nat := digitValue (plainDigit c)

theorem decimalValue?_plain_iff {digits : Text} {n : Nat} :
    decimalValue? (digits.map plainDigit) = some n ↔
      digits.length ≤ digitLimit ∧ (digits ≠ [] ∧ ∀ c ∈ digits, plainValue c < 10) ∧
        Nat.ofDigits 10 (digits.map plainValue).reverse = n := by
  have values : (digits.map plainDigit).map digitValue = digits.map plainValue := List.map_map
  rw [decimalValue?, List.length_map]
  split
  · rename_i short
    rw [digitsValue?_eq_some_iff, values]
    simp [plainValue, short]
  · rename_i long
    exact ⟨fun reads => (by cases reads), fun reads => absurd reads.1 long⟩

theorem decimalValue?_eq_some_iff {digits : Text} {n : Nat} :
    decimalValue? (digits.map plainDigit) = some n ↔ Writes digits n := by
  rw [decimalValue?_plain_iff]
  constructor
  · rintro ⟨short, ⟨nonempty, small⟩, value⟩
    refine ⟨digits.map plainValue, ?_, by simpa using nonempty, by rwa [List.length_map], value⟩
    rw [List.map_map]
    exact List.map_congr_left fun c listed => digit?_of_digitValue_lt (small c listed)
  · intro writes
    obtain ⟨nonempty, digit⟩ := digit_of_writes writes
    have known (c : Char) (listed : c ∈ digits) : digit? c = some (plainValue c) := by
      obtain ⟨d, found⟩ := digit c listed
      rw [plainValue, found, digitValue_plainDigit found]
    have small (c : Char) (listed : c ∈ digits) : plainValue c < 10 :=
      Nat.lt_succ_of_le (place_of_digit (known c listed)).1
    obtain ⟨values, listed, -, short, value⟩ := writes
    obtain rfl : values = digits.map plainValue := by
      refine (List.map_inj_right fun _ _ => Option.some.inj).mp ?_
      rw [← listed, List.map_map]
      exact List.map_congr_left known
    rw [List.length_map] at short
    exact ⟨short, ⟨nonempty, small⟩, value⟩

/-- A text without its margins. -/
def core (t : Text) : Text := ((t.dropWhile isMargin).reverse.dropWhile isMargin).reverse

theorem exists_margins (t : Text) : ∃ left right, (∀ c ∈ left, isMargin c = true) ∧
    (∀ c ∈ right, isMargin c = true) ∧ t = left ++ core t ++ right := by
  have tail : core t ++ (t.dropWhile isMargin).rtakeWhile isMargin = t.dropWhile isMargin :=
    List.rdropWhile_append_rtakeWhile ..
  refine ⟨t.takeWhile isMargin, (t.dropWhile isMargin).rtakeWhile isMargin,
    List.all_eq_true.mp List.all_takeWhile, fun c => List.mem_rtakeWhile_imp, ?_⟩
  rw [List.append_assoc, tail, List.takeWhile_append_dropWhile]

theorem dropWhile_append_solid {margin solid rest : Text} (blank : ∀ c ∈ margin, isMargin c = true)
    (filled : ∀ c ∈ solid, isMargin c = false) (nonempty : solid ≠ []) :
    (margin ++ (solid ++ rest)).dropWhile isMargin = solid ++ rest := by
  obtain ⟨c, more, rfl⟩ := List.exists_cons_of_ne_nil nonempty
  rw [List.dropWhile_append_of_pos blank, List.cons_append, List.dropWhile_cons_of_neg]
  rw [filled c List.mem_cons_self]
  exact Bool.false_ne_true

theorem core_append {left solid right : Text} (before : ∀ c ∈ left, isMargin c = true)
    (filled : ∀ c ∈ solid, isMargin c = false) (nonempty : solid ≠ [])
    (after : ∀ c ∈ right, isMargin c = true) : core (left ++ solid ++ right) = solid := by
  have back : (right.reverse ++ (solid.reverse ++ [])).dropWhile isMargin = solid.reverse ++ [] :=
    dropWhile_append_solid (fun c listed => after c (List.mem_reverse.mp listed))
      (fun c listed => filled c (List.mem_reverse.mp listed)) (by simpa using nonempty)
  rw [core, List.append_assoc, dropWhile_append_solid before filled nonempty, List.reverse_append,
    ← List.append_nil solid.reverse, back, List.append_nil, List.reverse_reverse]

/-- Bringing digits in one form leaves the margins where they are. -/
theorem bare_eq (t : Text) : bare t = (core t).map plainDigit := by
  have same : isMargin ∘ plainDigit = isMargin := funext isMargin_plainDigit
  have plain : plainDigits t = t.map plainDigit := rfl
  rw [bare, core, plain, List.dropWhile_map, same, ← List.map_reverse, List.dropWhile_map, same,
    ← List.map_reverse]

theorem splitSign_of_ne {t : Text} (minus : t.head? ≠ some '-') (plus : t.head? ≠ some '+') :
    splitSign t = (false, t) := by
  unfold splitSign
  split
  · exact absurd rfl minus
  · exact absurd rfl plus
  · rfl

theorem plainDigit_minus : plainDigit '-' = '-' := plainDigit_of_none (by decide)

theorem plainDigit_plus : plainDigit '+' = '+' := plainDigit_of_none (by decide)

/-- Every text divides into a sign, or none, and a rest, and this is how it is taken apart. -/
theorem exists_signs (t : Text) : ∃ (sign rest : Text) (negative : Bool), t = sign ++ rest ∧
    splitSign (t.map plainDigit) = (negative, rest.map plainDigit) ∧
    ∀ k : Nat, Signs sign k (if negative then -(k : Int) else k) := by
  by_cases minus : t.head? = some '-'
  · obtain ⟨rest, rfl⟩ := List.head?_eq_some_iff.mp minus
    refine ⟨['-'], rest, true, rfl, ?_, .minus⟩
    rw [List.map_cons, plainDigit_minus, splitSign]
  by_cases plus : t.head? = some '+'
  · obtain ⟨rest, rfl⟩ := List.head?_eq_some_iff.mp plus
    refine ⟨['+'], rest, false, rfl, ?_, .plus⟩
    rw [List.map_cons, plainDigit_plus, splitSign]
  refine ⟨[], t, false, rfl, splitSign_of_ne ?_ ?_, .none⟩
  · rw [List.head?_map]
    simpa [plainDigit_eq_iff (c := _) (show digit? '-' = none by decide)] using minus
  · rw [List.head?_map]
    simpa [plainDigit_eq_iff (c := _) (show digit? '+' = none by decide)] using plus

theorem splitSign_of_signs {sign digits : Text} {k : Nat} {n : Int} (signs : Signs sign k n)
    (writes : Writes digits k) : ∃ negative : Bool, (if negative then -(k : Int) else k) = n ∧
      splitSign ((sign ++ digits).map plainDigit) = (negative, digits.map plainDigit) := by
  cases signs with
  | plus => exact ⟨false, rfl, by rw [List.cons_append, List.map_cons, plainDigit_plus]; rfl⟩
  | minus => exact ⟨true, rfl, by rw [List.cons_append, List.map_cons, plainDigit_minus]; rfl⟩
  | none =>
    obtain ⟨nonempty, digit⟩ := digit_of_writes writes
    obtain ⟨c, more, rfl⟩ := List.exists_cons_of_ne_nil nonempty
    obtain ⟨d, known⟩ := digit c List.mem_cons_self
    have unsigned (s : Char) (noDigit : digit? s = Option.none) :
        ((c :: more).map plainDigit).head? ≠ some s := by
      rw [List.map_cons, List.head?_cons, ne_eq, Option.some.injEq, plainDigit_eq_iff noDigit]
      rintro rfl
      rw [noDigit] at known
      cases known
    exact ⟨false, rfl, splitSign_of_ne (unsigned '-' (by decide)) (unsigned '+' (by decide))⟩

theorem isMargin_of_signs {sign : Text} {k : Nat} {n : Int} (signs : Signs sign k n) :
    ∀ c ∈ sign, isMargin c = false := by
  cases signs with
  | none => exact List.forall_mem_nil _
  | plus => exact List.forall_mem_singleton.mpr rfl
  | minus => exact List.forall_mem_singleton.mpr rfl

theorem decimalInt?_eq (t : Text) : decimalInt? t =
    (decimalValue? (splitSign ((core t).map plainDigit)).2).map fun k : Nat =>
      if (splitSign ((core t).map plainDigit)).1 then -(k : Int) else k := by
  unfold decimalInt? signed?
  rw [bare_eq]
  dsimp only
  cases decimalValue? (splitSign ((core t).map plainDigit)).2 <;> rfl

/-- Reading a decimal integer accepts just the texts that spell one. -/
theorem decimalInt?_eq_some_iff {t : Text} {n : Int} : decimalInt? t = some n ↔ Spells t n := by
  rw [decimalInt?_eq]
  constructor
  · intro reads
    obtain ⟨sign, digits, negative, whole, split, signs⟩ := exists_signs (core t)
    obtain ⟨left, right, before, after, margins⟩ := exists_margins t
    rw [split] at reads
    obtain ⟨k, value, rfl⟩ := Option.map_eq_some_iff.mp reads
    rw [margins, whole]
    exact .between before (signs k) (decimalValue?_eq_some_iff.mp value) after
  · rintro @⟨left, sign, digits, right, k, n, before, signs, writes, after⟩
    obtain ⟨nonempty, digit⟩ := digit_of_writes writes
    have filled : ∀ c ∈ sign ++ digits, isMargin c = false := fun c listed =>
      (List.mem_append.mp listed).elim (isMargin_of_signs signs c) fun among =>
        isMargin_of_digit (digit c among).choose_spec
    obtain ⟨negative, rfl, split⟩ := splitSign_of_signs signs writes
    rw [core_append before filled (List.append_ne_nil_of_right_ne_nil _ nonempty) after, split]
    exact Option.map_eq_some_iff.mpr ⟨k, decimalValue?_eq_some_iff.mpr writes, rfl⟩

end PromptAudit.Number
