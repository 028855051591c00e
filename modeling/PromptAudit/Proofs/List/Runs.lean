import Mathlib.Data.List.Forall2

namespace PromptAudit

variable {α β γ ε : Type} {f : α → Except ε β} {l : List α}

/-- To run through lists one after the other is to run through the list of all. -/
theorem mapM_flatMap {f : α → Except ε (List β)} {g : α → List γ} {h : γ → Except ε β}
    (each : ∀ a, f a = (g a).mapM h) (l : List α) :
    (l.mapM f).map List.flatten = (l.flatMap g).mapM h := by
  induction l with
  | nil => rfl
  | cons a rest ih =>
    rw [List.mapM_cons, List.flatMap_cons, List.mapM_append, ← ih, ← each]
    cases f a with
    | error stop => rfl
    | ok bs =>
      cases rest.mapM f with
      | error stop => rfl
      | ok bss => rfl

/-- A run returns when nothing in the list stops it. -/
theorem mapM_eq_ok_iff {found : List β} : l.mapM f = .ok found ↔ l.map f = found.map .ok := by
  induction l generalizing found with
  | nil => cases found <;> simp [pure, Except.pure]
  | cons a rest ih =>
    rw [List.mapM_cons, List.map_cons]
    cases f a with
    | error stop => cases found <;> simp [bind, Except.bind]
    | ok b =>
      cases run : rest.mapM f with
      | error stop => cases found <;> simp [bind, Except.bind, run, ← ih]
      | ok bs => cases found <;> simp [bind, Except.bind, pure, Except.pure, run, ← ih]

theorem mapM_eq_ok_iff_forall₂ {found : List β} :
    l.mapM f = .ok found ↔ List.Forall₂ (fun a b => f a = .ok b) l found := by
  rw [mapM_eq_ok_iff, ← List.forall₂_eq_eq_eq, List.forall₂_map_left_iff,
    List.forall₂_map_right_iff]

/-- A run is stopped by the first in the list that stops it. -/
theorem mapM_eq_error_iff {stop : ε} :
    l.mapM f = .error stop ↔ ∃ front a back, l = front ++ a :: back ∧ f a = .error stop ∧
      ∀ first ∈ front, ∃ b, f first = .ok b := by
  induction l with
  | nil => simp [pure, Except.pure]
  | cons a rest ih =>
    rw [List.mapM_cons]
    cases here : f a with
    | error why =>
      simp only [bind, Except.bind]
      constructor
      · intro same
        cases same
        exact ⟨[], a, rest, rfl, here, by simp⟩
      · intro h
        obtain ⟨front, other, back, split, stops, clear⟩ := h
        cases front with
        | nil =>
          cases split
          rw [Except.error.inj (here.symm.trans stops)]
        | cons head front =>
          cases split
          obtain ⟨b, fine⟩ := clear _ List.mem_cons_self
          cases here.symm.trans fine
    | ok b =>
      have onward : (do let bs ← rest.mapM f; pure (b :: bs)) = .error stop ↔
          rest.mapM f = .error stop := by
        cases rest.mapM f <;> simp [bind, Except.bind, pure, Except.pure]
      refine onward.trans (ih.trans ⟨?_, ?_⟩)
      · intro h
        obtain ⟨front, other, back, rfl, stops, clear⟩ := h
        exact ⟨a :: front, other, back, rfl, stops, List.forall_mem_cons.mpr ⟨⟨b, here⟩, clear⟩⟩
      · intro h
        obtain ⟨front, other, back, split, stops, clear⟩ := h
        cases front with
        | nil =>
          cases split
          cases here.symm.trans stops
        | cons head front =>
          cases split
          exact ⟨front, other, back, rfl, stops, (List.forall_mem_cons.mp clear).2⟩

end PromptAudit
