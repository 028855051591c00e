import Mathlib.Data.List.TakeWhile
import PromptAudit.Text.Basic

namespace PromptAudit.Text

/-- A pattern for the start of a text. A run takes as many characters as it can and then gives
them back one by one; an option is tried before it is left out. A group remembers what it took,
and an echo takes the same once more. -/
inductive Pattern
  | one (admits : Char → Bool)
  | run (admits : Char → Bool)
  | option (p : Pattern)
  | both (first second : Pattern)
  | group (number : Nat) (p : Pattern)
  | echo (number : Nat)

/-- How far a pattern has come: the text behind what it took, and what its groups remember. -/
structure Reading where
  rest : Text
  groups : List (Nat × Text) := []

def Reading.group (r : Reading) (number : Nat) : Option Text := r.groups.lookup number

@[simp] theorem Reading.group_cons_self (rest : Text) (number : Nat) (taken : Text)
    (groups : List (Nat × Text)) :
    Reading.group ⟨rest, (number, taken) :: groups⟩ number = some taken :=
  List.lookup_cons_self

/-- What a run of one or more characters can leave, the least first. -/
def leavings (admits : Char → Bool) : Text → List Text
  | [] => []
  | c :: r => if admits c then leavings admits r ++ [r] else []

/-- What a group took is what lies before the text that it left. -/
def Reading.remember (number : Nat) (start : Text) (r : Reading) : Reading :=
  { r with groups := (number, start.take (start.length - r.rest.length)) :: r.groups }

namespace Pattern

/-- All ways to read the pattern, in the order in which they are tried. -/
def readings : Pattern → Reading → List Reading
  | one admits, r => match r.rest with
    | [] => []
    | c :: rest => if admits c then [{ r with rest }] else []
  | run admits, r => (leavings admits r.rest).map fun rest => { r with rest }
  | option p, r => p.readings r ++ [r]
  | both p q, r => (p.readings r).flatMap q.readings
  | group number p, r => (p.readings r).map (Reading.remember number r.rest)
  | echo number, r => match r.group number with
    | none => []
    | some t => if t.isPrefixOf r.rest then [{ r with rest := r.rest.drop t.length }] else []

/-- A match at the start of a text is the first way that works. -/
def first (p : Pattern) (s : Text) : Option Reading := (p.readings ⟨s, []⟩).head?

/-- The matches in a text, from left to right. The search for the next one starts behind the
characters that the last one took, of which `taken` are still to be passed. -/
def searchFrom (p : Pattern) : (taken : Nat) → Text → List Reading
  | _, [] => []
  | taken + 1, _ :: r => searchFrom p taken r
  | 0, c :: r => match p.first (c :: r) with
    | some m => m :: searchFrom p (r.length - m.rest.length) r
    | none => searchFrom p 0 r

def search (p : Pattern) (s : Text) : List Reading := p.searchFrom 0 s

/-- All characters that the pattern names are of a kind. -/
def Within (kind : Char → Prop) : Pattern → Prop
  | one admits | run admits => ∀ c, admits c = true → kind c
  | option p | group _ p => p.Within kind
  | both p q => p.Within kind ∧ q.Within kind
  | echo _ => True

end Pattern

section Leavings

variable {admits : Char → Bool} {c : Char} {s r : Text}

theorem leavings_of_not (h : admits c = false) : leavings admits (c :: s) = [] := by
  rw [leavings, h]
  rfl

/-- A run that starts leaves first what stands behind the last character that it admits; what it
leaves after giving some back starts with a character that it admits. -/
theorem exists_leavings (h : admits c = true) :
    ∃ others, leavings admits (c :: s) = s.dropWhile admits :: others ∧
      ∀ r ∈ others, ∃ d t, r = d :: t ∧ admits d = true := by
  induction s generalizing c with
  | nil => exact ⟨[], by simp [leavings, h], by simp⟩
  | cons d s ih =>
    rw [leavings, if_pos h]
    by_cases goesOn : admits d = true
    · obtain ⟨others, least, start⟩ := ih goesOn
      refine ⟨others ++ [d :: s], ?_, ?_⟩
      · rw [least, List.dropWhile_cons_of_pos goesOn, List.cons_append]
      · intro r left
        rcases List.mem_append.mp left with earlier | last
        · exact start r earlier
        · exact ⟨d, s, List.mem_singleton.mp last, goesOn⟩
    · refine ⟨[], ?_, by simp⟩
      rw [leavings_of_not (eq_false_of_ne_true goesOn), List.dropWhile_cons_of_neg goesOn,
        List.nil_append]

theorem mem_leavings_iff : r ∈ leavings admits s ↔
    ∃ w, w ≠ [] ∧ (∀ c ∈ w, admits c = true) ∧ s = w ++ r := by
  induction s with
  | nil =>
    refine iff_of_false List.not_mem_nil fun ⟨w, taken, _, split⟩ => ?_
    exact taken (List.append_eq_nil_iff.mp split.symm).1
  | cons c s ih =>
    by_cases h : admits c = true
    · rw [leavings, if_pos h, List.mem_append, ih, List.mem_singleton]
      constructor
      · rintro (⟨w, -, all, rfl⟩ | rfl)
        · exact ⟨c :: w, List.cons_ne_nil _ _, List.forall_mem_cons.mpr ⟨h, all⟩, rfl⟩
        · exact ⟨[c], List.cons_ne_nil _ _, by simpa using h, rfl⟩
      · rintro ⟨w, taken, all, split⟩
        obtain ⟨d, w, rfl⟩ := List.exists_cons_of_ne_nil taken
        obtain ⟨rfl, behind⟩ := List.cons_eq_cons.mp split
        cases w with
        | nil => exact .inr behind.symm
        | cons e w =>
          exact .inl ⟨e :: w, List.cons_ne_nil _ _, (List.forall_mem_cons.mp all).2, behind⟩
    · rw [leavings_of_not (eq_false_of_ne_true h)]
      refine iff_of_false List.not_mem_nil fun ⟨w, taken, all, split⟩ => ?_
      obtain ⟨d, w, rfl⟩ := List.exists_cons_of_ne_nil taken
      obtain ⟨rfl, -⟩ := List.cons_eq_cons.mp split
      exact h (all c List.mem_cons_self)

end Leavings

namespace Pattern

/-- What a pattern takes, and what its groups remember, consists of characters that it names. -/
theorem taken_within {kind : Char → Prop} {p : Pattern} (named : p.Within kind) {r m : Reading}
    (known : ∀ g ∈ r.groups, ∀ c ∈ g.2, kind c) (read : m ∈ p.readings r) :
    (∃ w, r.rest = w ++ m.rest ∧ ∀ c ∈ w, kind c) ∧ ∀ g ∈ m.groups, ∀ c ∈ g.2, kind c := by
  induction p generalizing r m with
  | one admits =>
    simp only [readings] at read
    split at read
    · cases read
    · rename_i c rest split
      split at read
      · rename_i admitted
        cases List.mem_singleton.mp read
        exact ⟨⟨[c], split, by simpa using named c admitted⟩, known⟩
      · cases read
  | run admits =>
    obtain ⟨rest, left, rfl⟩ := List.mem_map.mp read
    obtain ⟨w, -, all, split⟩ := mem_leavings_iff.mp left
    exact ⟨⟨w, split, fun c inside => named c (all c inside)⟩, known⟩
  | option p ih =>
    rcases List.mem_append.mp read with taken | leftOut
    · exact ih named known taken
    · cases List.mem_singleton.mp leftOut
      exact ⟨⟨[], rfl, by simp⟩, known⟩
  | both p q ihp ihq =>
    obtain ⟨middle, begun, ended⟩ := List.mem_flatMap.mp read
    obtain ⟨⟨v, before, vKind⟩, known⟩ := ihp named.1 known begun
    obtain ⟨⟨w, behind, wKind⟩, known⟩ := ihq named.2 known ended
    refine ⟨⟨v ++ w, by rw [before, behind, List.append_assoc], fun c inside => ?_⟩, known⟩
    exact (List.mem_append.mp inside).elim (vKind c) (wKind c)
  | group number p ih =>
    obtain ⟨inner, inside, rfl⟩ := List.mem_map.mp read
    obtain ⟨⟨w, split, wKind⟩, known⟩ := ih named known inside
    refine ⟨⟨w, split, wKind⟩, fun g remembered => ?_⟩
    rcases List.mem_cons.mp remembered with rfl | earlier
    · have took : r.rest.take (r.rest.length - inner.rest.length) = w := by
        rw [split, List.length_append, Nat.add_sub_cancel, List.take_left]
      rw [took]
      exact wKind
    · exact known g earlier
  | echo number =>
    simp only [readings] at read
    split at read
    · cases read
    · rename_i t remembered
      split at read
      · rename_i again
        cases List.mem_singleton.mp read
        obtain ⟨behind, split⟩ := List.isPrefixOf_iff_prefix.mp again
        refine ⟨⟨t, ?_, ?_⟩, known⟩
        · rw [← split, List.drop_left]
        · obtain ⟨before, behind, groups, -⟩ := List.lookup_eq_some_iff.mp remembered
          exact known (number, t) (by simp [groups])
      · cases read

theorem searchFrom_append (p : Pattern) (taken s : Text) :
    p.searchFrom taken.length (taken ++ s) = p.searchFrom 0 s := by
  induction taken with
  | nil => rfl
  | cons c taken ih => rw [List.length_cons, List.cons_append, searchFrom, ih]

section Search

variable {p : Pattern} {c : Char}

theorem search_of_none {s : Text} (read : p.first (c :: s) = none) :
    p.search (c :: s) = p.search s := by
  rw [search, searchFrom, read]
  rfl

/-- Behind a match the search goes on with what the match left. -/
theorem search_of_first {taken : Text} {m : Reading}
    (read : p.first (c :: (taken ++ m.rest)) = some m) :
    p.search (c :: (taken ++ m.rest)) = m :: p.search m.rest := by
  have passed : (taken ++ m.rest).length - m.rest.length = taken.length := by
    rw [List.length_append, Nat.add_sub_cancel]
  rw [search, searchFrom, read]
  simp only [passed, searchFrom_append]
  rfl

end Search

end Pattern

end PromptAudit.Text
