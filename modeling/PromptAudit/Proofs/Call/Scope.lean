import PromptAudit.Call.Region
import PromptAudit.Proofs.Tree.Numbering

namespace PromptAudit.Tree

variable (t : Tree)

/-- No method, class or module starts between a node and one around it. -/
def Unparted (i s : Nat) : Prop :=
  ∀ m, t.Below i m → t.Below m s → t.opensScope m = false

/-- The scope of a node: the nearest method, class, module or program around it. Where there is
none it is the topmost node, which may be the node itself. -/
inductive ScopeOf (i : Nat) : Nat → Prop
  | nearest {s : Nat} (around : t.Below i s) (opens : t.opensScope s = true)
      (first : t.Unparted i s) : ScopeOf i s
  | topmost {s : Nat} (around : t.Below i s) (top : t.parent s = none)
      (closed : ∀ m, t.Below i m → t.opensScope m = false) : ScopeOf i s
  | alone (top : t.parent i = none) : ScopeOf i i

/-- The region of a scope: what lies below it, at the top level without the insides of methods,
classes and modules. -/
structure InRegion (s i : Nat) : Prop where
  below : t.Below i s
  unparted : t.type s = "program" → t.Unparted i s

variable {t}

theorem enclosingScope_of_parent {i p : Nat} (up : t.parent i = some p) :
    t.enclosingScope i = if t.opensScope p = true then p else t.enclosingScope p := by
  simp only [enclosingScope, t.ancestors_of_parent up, List.find?_cons, List.getLastD_cons]
  split <;> rename_i h <;> simp [h]

theorem enclosingScope_of_no_parent {i : Nat} (top : t.parent i = none) :
    t.enclosingScope i = i := by
  simp [enclosingScope, t.ancestors_of_no_parent top]

theorem scopeOf_enclosingScope (i : Nat) : t.ScopeOf i (t.enclosingScope i) := by
  induction i using Nat.strongRecOn with
  | ind i ih =>
    cases up : t.parent i with
    | none =>
      rw [enclosingScope_of_no_parent up]
      exact .alone up
    | some p =>
      have step : t.Below i p := .single up
      rw [enclosingScope_of_parent up]
      split
      · rename_i opens
        refine .nearest step opens fun m low high => ?_
        rcases (below_iff_of_parent up).mp low with rfl | far
        · exact absurd high.lt (Nat.lt_irrefl _)
        · exact absurd high.lt (Nat.lt_asymm far.lt)
      · rename_i shut
        have shut : t.opensScope p = false := eq_false_of_ne_true shut
        have outer := ih p (t.parent_lt up)
        generalize t.enclosingScope p = s at outer ⊢
        cases outer with
        | nearest around opens first =>
          refine .nearest (.head up around) opens fun m low high => ?_
          rcases (below_iff_of_parent up).mp low with rfl | far
          · exact shut
          · exact first m far high
        | topmost around top closed =>
          refine .topmost (.head up around) top fun m low => ?_
          rcases (below_iff_of_parent up).mp low with rfl | far
          · exact shut
          · exact closed m far
        | alone top =>
          refine .topmost step top fun m low => ?_
          rcases (below_iff_of_parent up).mp low with rfl | far
          · exact shut
          · exact absurd far (not_below_of_no_parent top)

theorem ScopeOf.unique {i s r : Nat} (hs : t.ScopeOf i s) (hr : t.ScopeOf i r) : s = r := by
  cases hs with
  | nearest around opens first =>
    cases hr with
    | nearest around' opens' first' =>
      rcases around.comparable around' with same | under | above
      · exact same
      · exact absurd opens (by simp [first' s around under])
      · exact absurd opens' (by simp [first r around' above])
    | topmost around' top closed => exact absurd opens (by simp [closed s around])
    | alone top => exact absurd around (not_below_of_no_parent top)
  | topmost around top closed =>
    cases hr with
    | nearest around' opens' first' => exact absurd opens' (by simp [closed r around'])
    | topmost around' top' closed' =>
      rcases around.comparable around' with same | under | above
      · exact same
      · exact absurd under (not_below_of_no_parent top)
      · exact absurd above (not_below_of_no_parent top')
    | alone top' => exact absurd around (not_below_of_no_parent top')
  | alone top =>
    cases hr with
    | nearest around' _ _ => exact absurd around' (not_below_of_no_parent top)
    | topmost around' _ _ => exact absurd around' (not_below_of_no_parent top)
    | alone _ => rfl

theorem scopeOf_iff {i s : Nat} : t.ScopeOf i s ↔ s = t.enclosingScope i :=
  ⟨fun h => h.unique (scopeOf_enclosingScope i), fun h => h ▸ scopeOf_enclosingScope i⟩

/-- What lies in a scope without another one between has that scope. -/
theorem ScopeOf.of_unparted {i s b : Nat} (scope : t.ScopeOf i s) (below : t.Below b s)
    (unparted : t.Unparted b s) : t.ScopeOf b s := by
  by_cases opens : t.opensScope s = true
  · exact .nearest below opens unparted
  · have shut : t.opensScope s = false := eq_false_of_ne_true opens
    have top : t.parent s = none := by
      cases scope with
      | nearest _ opens' _ => exact absurd opens' opens
      | topmost _ top _ => exact top
      | alone top => exact top
    refine .topmost below top fun m low => ?_
    rcases low.comparable below with rfl | under | above
    · exact shut
    · exact unparted m low under
    · exact absurd above (not_below_of_no_parent top)

theorem mem_scopeNodes_iff {s i : Nat} : i ∈ t.scopeNodes s ↔ t.InRegion s i := by
  unfold scopeNodes
  split
  · rename_i program
    rw [mem_inside_iff]
    constructor
    · intro h
      exact ⟨h.1, fun _ m low high => by simpa using h.2 m low high⟩
    · intro h
      exact ⟨h.below, fun m low high => by simpa using h.unparted program m low high⟩
  · rename_i other
    rw [mem_descendants_iff]
    exact ⟨fun below => ⟨below, fun program => absurd program other⟩, InRegion.below⟩

theorem scopeNodes_pairwise (s : Nat) : (t.scopeNodes s).Pairwise (· < ·) := by
  unfold scopeNodes
  split
  · exact t.inside_pairwise _ s
  · exact t.inside_pairwise _ s

end PromptAudit.Tree
