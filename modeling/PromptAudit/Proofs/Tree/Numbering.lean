import Mathlib.Data.List.Flatten
import PromptAudit.Proofs.Tree.Enclosure

namespace PromptAudit.Tree

/-- A row of trees has its nodes in a tree, numbered from `first` on. -/
inductive Stands (t : Tree) : Option Nat → Nat → Forest → Prop
  | none {parent : Option Nat} {first : Nat} : Stands t parent first .none
  | more {parent : Option Nat} {first : Nat} {shape : Shape} {children rest : Forest}
      (root : t.entry first = ⟨shape, parent, children.roots (first + 1)⟩)
      (below : Stands t (some first) (first + 1) children)
      (after : Stands t parent (first + 1 + children.size) rest) :
      Stands t parent first (.more shape children rest)

variable (t : Tree)

private theorem stands_of_entries (f : Forest) (parent : Option Nat) (first : Nat)
    (listed : ∀ k e, (f.entries parent first)[k]? = some e → t.entry (first + k) = e) :
    t.Stands parent first f := by
  induction f generalizing parent first with
  | none => exact .none
  | more shape children rest ihc ihr =>
    refine .more (listed 0 _ rfl) (ihc _ _ ?_) (ihr _ _ ?_)
    · intro k e hk
      have inside := (List.getElem?_eq_some_iff.mp hk).1
      have place := listed (k + 1) e (by
        rw [Forest.entries, List.getElem?_cons_succ, List.getElem?_append_left inside, hk])
      rw [← place]
      congr 1
      omega
    · intro k e hk
      have place := listed (children.size + k + 1) e (by
        rw [Forest.entries, List.getElem?_cons_succ,
          List.getElem?_append_right (by rw [Forest.length_entries]; omega),
          Forest.length_entries, Nat.add_sub_cancel_left, hk])
      rw [← place]
      congr 1
      omega

theorem stands : t.Stands none 0 (.more t.root t.children .none) := by
  refine t.stands_of_entries _ _ _ fun k e hk => ?_
  rw [← List.getElem?_toArray, ← t.entries_eq] at hk
  rw [entry, Array.getD_eq_getD_getElem?, Nat.zero_add, hk, Option.getD_some]

theorem size_eq : t.size = 1 + t.children.size := by
  rw [size, t.entries_eq, List.size_toArray, Forest.length_entries, Forest.size, Forest.size]
  omega

variable {t}

theorem Stands.exists_below {parent : Option Nat} {first : Nat} {f : Forest}
    (h : t.Stands parent first f) {i : Nat} (low : first ≤ i) (high : i < first + f.size) :
    ∃ c : Forest, t.childrenOf i = c.roots (i + 1) ∧ t.Stands (some i) (i + 1) c := by
  induction h with
  | none => exact absurd high (by simp only [Forest.size]; omega)
  | @more parent first shape children rest root below after ihc ihr =>
    simp only [Forest.size] at high
    rcases Nat.lt_or_ge i (first + 1) with here | later
    · have same : i = first := by omega
      subst same
      exact ⟨children, congrArg Entry.children root, below⟩
    · rcases Nat.lt_or_ge i (first + 1 + children.size) with inside | behind
      · exact ihc later inside
      · exact ihr behind (by omega)

theorem Stands.parent_of_mem_roots {parent : Option Nat} {first : Nat} {f : Forest}
    (h : t.Stands parent first f) {i : Nat} (root : i ∈ f.roots first) : t.parent i = parent := by
  induction h with
  | none => exact absurd root List.not_mem_nil
  | more entry below after _ ihr =>
    rcases List.mem_cons.mp root with same | later
    · exact same ▸ congrArg Entry.parent entry
    · exact ihr later

/-- A node whose parent is known is a root of the row, or is listed below that parent. -/
theorem Stands.mem_of_parent {parent : Option Nat} {first : Nat} {f : Forest}
    (h : t.Stands parent first f) {i p : Nat} (low : first ≤ i) (high : i < first + f.size)
    (up : t.parent i = some p) : i ∈ f.roots first ∧ parent = some p ∨ i ∈ t.childrenOf p := by
  induction h with
  | none => exact absurd high (by simp only [Forest.size]; omega)
  | @more parent first shape children rest root below after ihc ihr =>
    simp only [Forest.size] at high
    rcases Nat.lt_or_ge i (first + 1) with here | later
    · have same : i = first := by omega
      subst same
      exact .inl ⟨List.mem_cons_self, (congrArg Entry.parent root).symm.trans up⟩
    · rcases Nat.lt_or_ge i (first + 1 + children.size) with inside | behind
      · rcases ihc later inside with ⟨child, same⟩ | child
        · have listed : t.childrenOf first = children.roots (first + 1) :=
            congrArg Entry.children root
          rw [← listed, Option.some.inj same] at child
          exact .inr child
        · exact .inr child
      · rcases ihr behind (by omega) with ⟨sibling, same⟩ | child
        · exact .inl ⟨List.mem_cons_of_mem _ sibling, same⟩
        · exact .inr child

theorem entry_of_size_le {i : Nat} (outside : t.size ≤ i) : t.entry i = nowhere := by
  rw [entry, Array.getD_eq_getD_getElem?, Array.getElem?_eq_none outside, Option.getD_none]

theorem lt_size_of_type {i : Nat} (h : t.type i ≠ "") : i < t.size :=
  Nat.lt_of_not_le fun outside => h (by rw [type, entry_of_size_le outside, nowhere])

theorem lt_size_of_isString {i : Nat} (isString : (t.kind i).isString = true) : i < t.size := by
  refine t.lt_size_of_type fun nameless => ?_
  rw [kind, nameless] at isString
  cases isString

theorem lt_size_of_parent {i p : Nat} (up : t.parent i = some p) : i < t.size := by
  refine Nat.lt_of_not_le fun outside => ?_
  simp [parent, entry_of_size_le outside, nowhere] at up

variable (t)

theorem exists_stands_below (i : Nat) :
    ∃ c : Forest, t.childrenOf i = c.roots (i + 1) ∧ t.Stands (some i) (i + 1) c := by
  by_cases inside : i < t.size
  · rw [size_eq] at inside
    exact t.stands.exists_below (Nat.zero_le i) (by simp only [Forest.size]; omega)
  · refine ⟨.none, List.eq_nil_iff_forall_not_mem.mpr fun c child => ?_, .none⟩
    have := t.bounds_of_mem_childrenOf child
    omega

theorem mem_childrenOf_iff {i p : Nat} : i ∈ t.childrenOf p ↔ t.parent i = some p := by
  constructor
  · intro child
    obtain ⟨c, children, below⟩ := t.exists_stands_below p
    exact below.parent_of_mem_roots (children ▸ child)
  · intro up
    have inside := lt_size_of_parent up
    rw [size_eq] at inside
    rcases t.stands.mem_of_parent (Nat.zero_le i) (by simp only [Forest.size]; omega) up with
      ⟨-, top⟩ | child
    · cases top
    · exact child

/-- The numbers of a row from `first` on, looking into a tree only where `enters` allows it. -/
def Forest.walk (enters : Nat → Bool) (first : Nat) : Forest → List Nat
  | .none => []
  | .more _ children rest =>
      first :: ((if enters first then children.walk enters (first + 1) else []) ++
        rest.walk enters (first + 1 + children.size))

theorem Forest.mem_walk_bounds (enters : Nat → Bool) (f : Forest) (first : Nat) {i : Nat}
    (h : i ∈ f.walk enters first) : first ≤ i ∧ i < first + f.size := by
  induction f generalizing first with
  | none => exact absurd h List.not_mem_nil
  | more shape children rest ihc ihr =>
    simp only [walk, size, List.mem_cons, List.mem_append] at h ⊢
    rcases h with rfl | inside | behind
    · omega
    · split at inside
      · have := ihc _ inside
        omega
      · exact absurd inside List.not_mem_nil
    · have := ihr _ behind
      omega

theorem Forest.walk_pairwise (enters : Nat → Bool) (f : Forest) (first : Nat) :
    (f.walk enters first).Pairwise (· < ·) := by
  induction f generalizing first with
  | none => exact .nil
  | more shape children rest ihc ihr =>
    have inner : (if enters first then children.walk enters (first + 1) else []).Pairwise (· < ·) := by
      split
      · exact ihc _
      · exact .nil
    have bounds {i : Nat} (h : i ∈ if enters first then children.walk enters (first + 1) else []) :
        first < i ∧ i < first + 1 + children.size := by
      split at h
      · have := children.mem_walk_bounds enters _ h
        omega
      · exact absurd h List.not_mem_nil
    refine List.pairwise_cons.mpr ⟨?_, List.pairwise_append.mpr ⟨inner, ihr _, ?_⟩⟩
    · intro i hi
      rcases List.mem_append.mp hi with inside | behind
      · exact (bounds inside).1
      · have := rest.mem_walk_bounds enters _ behind
        omega
    · intro i inside j behind
      have low := bounds inside
      have high := rest.mem_walk_bounds enters _ behind
      omega

theorem inside_eq (enters : Nat → Bool) (i : Nat) :
    t.inside enters i =
      (t.childrenOf i).flatMap fun c => c :: if enters c then t.inside enters c else [] := by
  rw [inside, List.flatMap_subtype fun c _ => rfl, List.unattach_attach]

variable {t}

theorem Stands.flatMap_inside {parent : Option Nat} {first : Nat} {f : Forest}
    (h : t.Stands parent first f) (enters : Nat → Bool) :
    ((f.roots first).flatMap fun c => c :: if enters c then t.inside enters c else []) =
      f.walk enters first := by
  induction h with
  | none => rfl
  | @more parent first shape children rest root below after ihc ihr =>
    have inner : t.inside enters first = children.walk enters (first + 1) := by
      rw [inside_eq, show t.childrenOf first = children.roots (first + 1) from
        congrArg Entry.children root, ihc]
    rw [Forest.roots, List.flatMap_cons, ihr, inner, Forest.walk, List.cons_append]

variable (t)

/-- A walk into a node meets the nodes in document order, each of them once. -/
theorem inside_pairwise (enters : Nat → Bool) (i : Nat) :
    (t.inside enters i).Pairwise (· < ·) := by
  obtain ⟨c, children, below⟩ := t.exists_stands_below i
  rw [inside_eq, children, below.flatMap_inside]
  exact c.walk_pairwise enters _

theorem descendants_pairwise (i : Nat) : (t.descendants i).Pairwise (· < ·) := t.inside_pairwise _ i

/-- Nodes picked out of each child and what is below it are picked in document order. -/
theorem flatMap_childrenOf_sublist {pick : Nat → List Nat}
    (picks : ∀ c, (pick c).Sublist (c :: t.descendants c)) (i : Nat) :
    ((t.childrenOf i).flatMap pick).Sublist (t.descendants i) := by
  rw [descendants, inside_eq]
  exact .flatMap_right _ fun c _ => picks c

theorem childrenOf_sublist (i : Nat) : (t.childrenOf i).Sublist (t.descendants i) := by
  have each : (t.childrenOf i).flatMap (fun c => [c]) = t.childrenOf i := List.flatMap_singleton' _
  rw [← each]
  exact t.flatMap_childrenOf_sublist (fun c => .cons_cons c (List.nil_sublist _)) i

/-- A node lies somewhere below another one. -/
def Below (i s : Nat) : Prop := Relation.TransGen t.Under i s

variable {t}

theorem Below.lt {i s : Nat} (h : t.Below i s) : s < i := by
  induction h with
  | single up => exact t.parent_lt up
  | tail _ up ih => exact Nat.lt_trans (t.parent_lt up) ih

theorem lt_size_of_below {i s : Nat} (below : t.Below i s) : i < t.size := by
  obtain ⟨p, up, -⟩ := Relation.TransGen.head'_iff.mp below
  exact lt_size_of_parent up

theorem below_iff_of_parent {i p s : Nat} (up : t.parent i = some p) :
    t.Below i s ↔ s = p ∨ t.Below p s := by
  rw [Below, ← mem_ancestors_iff, t.ancestors_of_parent up, List.mem_cons, mem_ancestors_iff]
  rfl

theorem not_below_of_no_parent {i s : Nat} (top : t.parent i = none) : ¬ t.Below i s := by
  rw [Below, ← mem_ancestors_iff, t.ancestors_of_no_parent top]
  exact List.not_mem_nil

theorem Below.comparable {i a b : Nat} (ha : t.Below i a) (hb : t.Below i b) :
    a = b ∨ t.Below a b ∨ t.Below b a := by
  have unique : Relator.RightUnique t.Under := fun _ _ _ h k => Option.some.inj (h.symm.trans k)
  rcases Relation.ReflTransGen.total_of_right_unique unique ha.to_reflTransGen hb.to_reflTransGen
    with up | up <;> rcases Relation.reflTransGen_iff_eq_or_transGen.mp up with same | far
  · exact .inl same.symm
  · exact .inr (.inl far)
  · exact .inl same
  · exact .inr (.inr far)

/-- A walk into a node meets what lies below it and is not shut off in between. -/
theorem mem_inside_iff {enters : Nat → Bool} {s i : Nat} :
    i ∈ t.inside enters s ↔
      t.Below i s ∧ ∀ m, t.Below i m → t.Below m s → enters m = true := by
  induction h : t.size - s using Nat.strongRecOn generalizing s with
  | ind n ih =>
    subst h
    rw [inside_eq, List.mem_flatMap]
    constructor
    · intro met
      obtain ⟨c, child, met⟩ := met
      have bounds := t.bounds_of_mem_childrenOf child
      have up : t.parent c = some s := t.mem_childrenOf_iff.mp child
      have nothing {m : Nat} (low : t.Below c m) (high : t.Below m s) : False := by
        rcases (below_iff_of_parent up).mp low with rfl | far
        · exact Nat.lt_irrefl _ high.lt
        · exact Nat.lt_asymm high.lt far.lt
      rcases List.mem_cons.mp met with rfl | met
      · exact ⟨.single up, fun m low high => (nothing low high).elim⟩
      · split at met
        · rename_i entrance
          obtain ⟨low, entered⟩ := (ih _ (by omega) rfl).mp met
          refine ⟨.tail low up, fun m inner outer => ?_⟩
          rcases low.comparable inner with rfl | below | below
          · exact entrance
          · exact (nothing below outer).elim
          · exact entered m inner below
        · exact absurd met List.not_mem_nil
    · intro lies
      obtain ⟨low, entered⟩ := lies
      obtain ⟨c, far, up⟩ := Relation.TransGen.tail'_iff.mp low
      have child : c ∈ t.childrenOf s := t.mem_childrenOf_iff.mpr up
      have bounds := t.bounds_of_mem_childrenOf child
      refine ⟨c, child, ?_⟩
      rcases Relation.reflTransGen_iff_eq_or_transGen.mp far with rfl | below
      · exact List.mem_cons_self
      · have inner : i ∈ t.inside enters c :=
          (ih _ (by omega) rfl).mpr ⟨below, fun m h k => entered m h (.tail k up)⟩
        rw [if_pos (entered c below (.single up))]
        exact List.mem_cons_of_mem _ inner

theorem mem_descendants_iff {s i : Nat} : i ∈ t.descendants s ↔ t.Below i s := by
  rw [descendants, mem_inside_iff]
  exact and_iff_left fun _ _ _ => rfl

end PromptAudit.Tree
