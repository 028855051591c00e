import Mathlib.Data.List.Forall2

namespace PromptAudit

variable {α β γ δ : Type} {r : α → β → Prop} {s : γ → δ → Prop} {xs : List α} {ys : List β}

theorem matching_mem (matched : List.Forall₂ r xs ys) :
    List.Forall₂ (fun x y => r x y ∧ x ∈ xs ∧ y ∈ ys) xs ys := by
  obtain ⟨length, each⟩ := List.forall₂_iff_zip.mp matched
  exact List.forall₂_iff_zip.mpr ⟨length, fun paired => ⟨each paired, List.of_mem_zip paired⟩⟩

theorem exists_left_of_matching (matched : List.Forall₂ r xs ys) {y : β} (listed : y ∈ ys) :
    ∃ x ∈ xs, r x y := by
  induction matched with
  | nil => exact absurd listed List.not_mem_nil
  | @cons x z _ _ first _ ih =>
    rcases List.mem_cons.mp listed with rfl | later
    · exact ⟨x, List.mem_cons_self, first⟩
    · obtain ⟨w, inside, related⟩ := ih later
      exact ⟨w, List.mem_cons_of_mem _ inside, related⟩

theorem exists_right_of_matching (matched : List.Forall₂ r xs ys) {x : α} (listed : x ∈ xs) :
    ∃ y ∈ ys, r x y :=
  exists_left_of_matching (r := fun y x => r x y) matched.flip listed

/-- What members that match agree on, lists of them agree on. -/
theorem map_eq_of_matching {f : α → γ} {g : β → γ} (alike : ∀ x y, r x y → f x = g y)
    (matched : List.Forall₂ r xs ys) : xs.map f = ys.map g := by
  induction matched with
  | nil => rfl
  | cons first _ ih => rw [List.map_cons, List.map_cons, alike _ _ first, ih]

theorem flatMap_eq_of_matching {f : α → List γ} {g : β → List γ} (alike : ∀ x y, r x y → f x = g y)
    (matched : List.Forall₂ r xs ys) : xs.flatMap f = ys.flatMap g := by
  rw [List.flatMap_def, List.flatMap_def, map_eq_of_matching alike matched]

theorem filterMap_eq_of_matching {f : α → Option γ} {g : β → Option γ}
    (alike : ∀ x y, r x y → f x = g y) (matched : List.Forall₂ r xs ys) :
    xs.filterMap f = ys.filterMap g := by
  have mapped := congrArg (List.filterMap id) (map_eq_of_matching alike matched)
  simpa only [List.filterMap_map, Function.id_comp] using mapped

theorem any_eq_of_matching {p : α → Bool} {q : β → Bool} (alike : ∀ x y, r x y → p x = q y)
    (matched : List.Forall₂ r xs ys) : xs.any p = ys.any q := by
  have mapped := congrArg (List.any · id) (map_eq_of_matching alike matched)
  simpa using mapped

theorem filter_matching {p : α → Bool} {q : β → Bool} (alike : ∀ x y, r x y → p x = q y)
    (matched : List.Forall₂ r xs ys) : List.Forall₂ r (xs.filter p) (ys.filter q) :=
  List.rel_filter (fun _ _ h => Bool.eq_iff_iff.mp (alike _ _ h)) matched

/-- The first members that count match. -/
theorem find?_matching {p : α → Bool} {q : β → Bool} (alike : ∀ x y, r x y → p x = q y)
    (matched : List.Forall₂ r xs ys) : Option.Rel r (xs.find? p) (ys.find? q) := by
  induction matched with
  | nil => exact .none
  | @cons x y _ _ first _ ih =>
    rw [List.find?_cons, List.find?_cons, alike x y first]
    cases q y with
    | true => exact .some first
    | false => exact ih

/-- Two tables with the same keys in the same order give values that match. -/
theorem lookup_matching [BEq γ] {ps : List (γ × α)} {qs : List (γ × β)}
    (matched : List.Forall₂ (fun p q => p.1 = q.1 ∧ r p.2 q.2) ps qs) (key : γ) :
    Option.Rel r (ps.lookup key) (qs.lookup key) := by
  induction matched with
  | nil => exact .none
  | @cons p q _ _ first _ ih =>
    rw [List.lookup_cons, List.lookup_cons, first.1]
    cases key == q.1 with
    | true => exact .some first.2
    | false => exact ih

theorem matching_some {o : Option α} {p : Option β} (matched : Option.Rel r o p) :
    Option.Rel (fun x y => r x y ∧ o = some x ∧ p = some y) o p := by
  cases matched with
  | none => exact .none
  | some h => exact .some ⟨h, rfl, rfl⟩

theorem imp_matching {w : α → β → Prop} {o : Option α} {p : Option β}
    (weaker : ∀ x y, r x y → w x y) (matched : Option.Rel r o p) : Option.Rel w o p := by
  cases matched with
  | none => exact .none
  | some h => exact .some (weaker _ _ h)

theorem bind_matching {o : Option α} {p : Option β} {f : α → Option γ} {g : β → Option δ}
    (matched : Option.Rel r o p) (alike : ∀ x y, r x y → Option.Rel s (f x) (g y)) :
    Option.Rel s (o.bind f) (p.bind g) := by
  cases matched with
  | none => exact .none
  | some h => exact alike _ _ h

theorem filter_some_matching {o : Option α} {p : Option β} {f : α → Bool} {g : β → Bool}
    (matched : Option.Rel r o p) (alike : ∀ x y, r x y → f x = g y) :
    Option.Rel r (o.filter f) (p.filter g) := by
  cases matched with
  | none => exact .none
  | @some x y h =>
    rw [Option.filter_some, Option.filter_some, alike x y h]
    cases g y with
    | true => exact .some h
    | false => exact .none

theorem isSome_eq_of_matching {o : Option α} {p : Option β} (matched : Option.Rel r o p) :
    o.isSome = p.isSome := by
  cases matched <;> rfl

theorem bind_eq_of_matching {o : Option α} {p : Option β} {f : α → Option γ} {g : β → Option γ}
    (matched : Option.Rel r o p) (alike : ∀ x y, r x y → f x = g y) : o.bind f = p.bind g := by
  cases matched with
  | none => rfl
  | some h => exact alike _ _ h

end PromptAudit
