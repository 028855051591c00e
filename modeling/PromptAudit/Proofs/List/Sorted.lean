import Mathlib.Data.List.Pairwise
import Mathlib.Data.List.Perm.Basic

namespace PromptAudit

variable {α β : Type}

/-- Sorting by a number keeps what order there was among elements with the same number. -/
theorem mergeSort_pairwise {f : α → Nat} {r : α → α → Prop} {l : List α} (h : l.Pairwise r) :
    (l.mergeSort fun a b => f a ≤ f b).Pairwise fun a b => f a < f b ∨ f a = f b ∧ r a b := by
  let sorted := l.mergeSort fun a b => f a ≤ f b
  have trans (a b c : α) (hab : decide (f a ≤ f b) = true) (hbc : decide (f b ≤ f c) = true) :
      decide (f a ≤ f c) = true := by
    simp only [decide_eq_true_eq] at *
    omega
  have total (a b : α) : (decide (f a ≤ f b) || decide (f b ≤ f a)) = true := by
    simp only [Bool.or_eq_true, decide_eq_true_eq]
    omega
  have ascending : sorted.Pairwise fun a b => decide (f a ≤ f b) = true :=
    List.pairwise_mergeSort trans total l
  have level (n : Nat) : sorted.filter (f · = n) = l.filter (f · = n) := by
    have flat : (l.filter (f · = n)).Pairwise fun a b => decide (f a ≤ f b) = true := by
      apply List.pairwise_of_forall_mem_list
      intro a ha b hb
      have ha : f a = n := by simpa using (List.mem_filter.mp ha).2
      have hb : f b = n := by simpa using (List.mem_filter.mp hb).2
      simp [ha, hb]
    have kept : (l.filter (f · = n)).Sublist sorted :=
      List.sublist_mergeSort trans total flat List.filter_sublist
    have inner := kept.filter (f · = n)
    rw [List.filter_filter] at inner
    simp only [Bool.and_self] at inner
    exact (inner.eq_of_length ((List.mergeSort_perm l _).filter _).length_eq.symm).symm
  rw [List.pairwise_iff_forall_sublist] at ascending h ⊢
  intro a b hab
  have le : f a ≤ f b := by simpa using ascending hab
  rcases Nat.lt_or_eq_of_le le with lt | eq
  · exact .inl lt
  · have both := hab.filter (f · = f b)
    rw [level] at both
    simp only [eq, decide_true, List.filter_cons_of_pos, List.filter_nil] at both
    exact .inr ⟨eq, h (both.trans List.filter_sublist)⟩

theorem pairwise_zip {r : α → α → Prop} {s : β → β → Prop} {xs : List α} {ys : List β}
    (hx : xs.Pairwise r) (hy : ys.Pairwise s) :
    (xs.zip ys).Pairwise fun p q => r p.1 q.1 ∧ s p.2 q.2 := by
  induction xs generalizing ys with
  | nil => simp
  | cons x xs ih =>
    cases ys with
    | nil => simp
    | cons y ys =>
      obtain ⟨hx, hxs⟩ := List.pairwise_cons.mp hx
      obtain ⟨hy, hys⟩ := List.pairwise_cons.mp hy
      refine List.pairwise_cons.mpr ⟨?_, ih hxs hys⟩
      intro p hp
      obtain ⟨h1, h2⟩ := List.of_mem_zip hp
      exact ⟨hx _ h1, hy _ h2⟩

theorem related_of_pairwise {r : α → α → Prop} {l : List α} (h : l.Pairwise r) {a b : α}
    (ha : a ∈ l) (hb : b ∈ l) : a = b ∨ r a b ∨ r b a := by
  induction l with
  | nil => exact absurd ha List.not_mem_nil
  | cons c l ih =>
    obtain ⟨first, rest⟩ := List.pairwise_cons.mp h
    rcases List.mem_cons.mp ha with rfl | ha' <;> rcases List.mem_cons.mp hb with rfl | hb'
    · exact .inl rfl
    · exact .inr (.inl (first b hb'))
    · exact .inr (.inr (first a ha'))
    · exact ih rest ha' hb'

/-- What comes first of its kind in an ordered list is what the others of its kind come after. -/
theorem exists_first_iff_of_pairwise {r : α → α → Prop} (asymm : ∀ a b, r a b → ¬ r b a)
    {l : List α} (h : l.Pairwise r) {p q : α → Prop} :
    (∃ front a back, l = front ++ a :: back ∧ p a ∧ ∀ b ∈ front, ¬ q b) ↔
      ∃ a ∈ l, p a ∧ ∀ b ∈ l, q b → b = a ∨ r a b := by
  constructor
  · intro first
    obtain ⟨front, a, back, rfl, ha, clear⟩ := first
    refine ⟨a, List.mem_append_cons_self, ha, fun b hb hq => ?_⟩
    rcases List.mem_append.mp hb with early | late
    · exact (clear b early hq).elim
    · exact (List.mem_cons.mp late).imp_right
        ((List.pairwise_cons.mp (List.pairwise_append.mp h).2.1).1 b)
  · intro least
    obtain ⟨a, listed, ha, after⟩ := least
    obtain ⟨front, back, rfl⟩ := List.append_of_mem listed
    refine ⟨front, a, back, rfl, ha, fun b early hq => ?_⟩
    have before : r b a := (List.pairwise_append.mp h).2.2 b early a List.mem_cons_self
    rcases after b (List.mem_append_left _ early) hq with rfl | behind
    · exact asymm b b before before
    · exact asymm b a before behind

/-- In an ascending list the first element that passes is the least one that does. -/
theorem find?_eq_some_iff_of_pairwise {l : List Nat} (h : l.Pairwise (· < ·)) {p : Nat → Bool}
    {a : Nat} : l.find? p = some a ↔ a ∈ l ∧ p a = true ∧ ∀ b ∈ l, p b = true → a ≤ b := by
  have first := exists_first_iff_of_pairwise (p := fun b => a = b ∧ p b = true)
    (q := fun b => p b = true) (fun _ _ => Nat.lt_asymm) h
  have least (b : Nat) : b = a ∨ a < b ↔ a ≤ b := by omega
  rw [List.find?_eq_some_iff_append]
  constructor
  · intro found
    obtain ⟨passes, front, back, rfl, clear⟩ := found
    obtain ⟨b, listed, ⟨rfl, -⟩, after⟩ :=
      first.mp ⟨front, a, back, rfl, ⟨rfl, passes⟩, fun b early => by simpa using clear b early⟩
    exact ⟨listed, passes, fun b hb passed => (least b).mp (after b hb passed)⟩
  · intro below
    obtain ⟨listed, passes, below⟩ := below
    obtain ⟨front, b, back, split, ⟨rfl, -⟩, clear⟩ := first.mpr
      ⟨a, listed, ⟨rfl, passes⟩, fun b hb passed => (least b).mpr (below b hb passed)⟩
    exact ⟨passes, front, back, split, fun b early => by simpa using clear b early⟩

/-- The place of an element in a sorted list is the number of elements before it. -/
theorem getElem?_countP {r : α → α → Prop} [DecidableRel r] (asymm : ∀ a b, r a b → ¬ r b a)
    {l : List α} (h : l.Pairwise r) {x : α} (hx : x ∈ l) :
    l[l.countP (r · x)]? = some x := by
  induction l with
  | nil => exact absurd hx List.not_mem_nil
  | cons a l ih =>
    obtain ⟨first, rest⟩ := List.pairwise_cons.mp h
    rcases List.mem_cons.mp hx with same | later
    · subst same
      have none : (x :: l).countP (r · x) = 0 := by
        rw [List.countP_eq_zero]
        intro b hb
        rcases List.mem_cons.mp hb with same | later
        · subst same
          simpa using fun bad => asymm _ _ bad bad
        · simpa using asymm _ _ (first b later)
      rw [none, List.getElem?_cons_zero]
    · rw [List.countP_cons_of_pos (by simpa using first x later), List.getElem?_cons_succ]
      exact ih rest later

/-- Where no two pairs share their first part, looking for one finds its only partner. -/
theorem find?_fst_eq_some_iff [DecidableEq α] {l : List (α × β)} (h : (l.map Prod.fst).Nodup)
    {a : α} {b : β} : (l.find? fun p => p.1 = a).map Prod.snd = some b ↔ (a, b) ∈ l := by
  constructor
  · intro found
    obtain ⟨p, hp, rfl⟩ := Option.map_eq_some_iff.mp found
    have same : p.1 = a := by simpa using List.find?_some hp
    exact same ▸ List.mem_of_find?_eq_some hp
  · intro hab
    induction l with
    | nil => exact absurd hab List.not_mem_nil
    | cons p l ih =>
      obtain ⟨fresh, distinct⟩ := List.nodup_cons.mp h
      rcases List.mem_cons.mp hab with same | later
      · subst same
        simp
      · have other : p.1 ≠ a := fun bad => fresh (bad ▸ List.mem_map_of_mem later)
        simpa [other] using ih distinct later

/-- A list falls apart into the parts that share a key. -/
theorem perm_flatMap_filter [DecidableEq β] (key : α → β) {keys : List β} (distinct : keys.Nodup)
    {l : List α} (all : ∀ a ∈ l, key a ∈ keys) :
    (keys.flatMap fun k => l.filter (key · = k)).Perm l := by
  induction keys generalizing l with
  | nil =>
    have empty : l = [] := List.eq_nil_iff_forall_not_mem.mpr fun a ha =>
      List.not_mem_nil (all a ha)
    simp [empty]
  | cons k keys ih =>
    obtain ⟨fresh, distinct⟩ := List.nodup_cons.mp distinct
    let others := l.filter fun a => !decide (key a = k)
    have kept : ∀ a ∈ others, key a ∈ keys := by
      intro a ha
      obtain ⟨ha, hk⟩ := List.mem_filter.mp ha
      rcases List.mem_cons.mp (all a ha) with same | other
      · simp [same] at hk
      · exact other
    have parts : keys.flatMap (fun j => l.filter (key · = j)) =
        keys.flatMap fun j => others.filter (key · = j) := by
      apply List.flatMap_congr
      intro j hj
      rw [List.filter_filter]
      apply List.filter_congr
      intro a _
      by_cases same : key a = j
      · have : key a ≠ k := fun bad => fresh (bad ▸ same ▸ hj)
        simp [same, same ▸ this]
      · simp [same]
    rw [List.flatMap_cons, parts]
    exact ((ih distinct kept).append_left _).trans (List.filter_append_perm _ _)

end PromptAudit
