import PromptAudit.Call.Basic
import PromptAudit.Proofs.Call.Keyword
import PromptAudit.Proofs.List.Matching
import PromptAudit.Proofs.Literal.Numeral
import PromptAudit.Proofs.Tree.Numbering

namespace PromptAudit.Tree

variable {t u : Tree} {r : Nat → Nat → Prop} {i j : Nat}

/-- Nodes that match show the same: a type, a field, a text, children and a heredoc body that match
again. Where they stand does not matter. -/
structure Copying (t u : Tree) (r : Nat → Nat → Prop) : Prop where
  type {i j : Nat} (h : r i j) : t.type i = u.type j
  held {i j : Nat} (h : r i j) : (t.entry i).shape.field = (u.entry j).shape.field
  text {i j : Nat} (h : r i j) : t.text i = u.text j
  children {i j : Nat} (h : r i j) : List.Forall₂ r (t.childrenOf i) (u.childrenOf j)
  body {i j : Nat} (h : r i j) : Option.Rel r (t.heredocBody i) (u.heredocBody j)

/-- Nodes in a row and a copy of them. -/
def Copies (t u : Tree) (ps qs : List Nat) : Prop := ∃ r, t.Copying u r ∧ List.Forall₂ r ps qs

/-- A copying of nodes that are also of the same kind. -/
structure Kindred (t u : Tree) (r : Nat → Nat → Prop) : Prop extends t.Copying u r where
  kind {i j : Nat} (h : r i j) : t.kind i = u.kind j

theorem type_of_heredocBody {body : Nat} (paired : t.heredocBody i = some body) :
    t.type body = "heredoc_body" := by
  obtain ⟨pair, first, rfl⟩ := Option.map_eq_some_iff.mp paired
  obtain ⟨-, listed⟩ := List.of_mem_zip (List.mem_of_find?_eq_some first)
  have filtered := List.mem_mergeSort.mp listed
  exact of_decide_eq_true (List.mem_filter.mp filtered).2

/-- A block of nodes that stands again in another tree, so many numbers later, is copied there. -/
theorem copying_of_shift {block : List Nat} {shift : Nat}
    (shows : ∀ i ∈ block, t.type i = u.type (i + shift) ∧
      (t.entry i).shape.field = (u.entry (i + shift)).shape.field ∧
      t.text i = u.text (i + shift) ∧
      (t.childrenOf i).map (· + shift) = u.childrenOf (i + shift) ∧
      (t.heredocBody i).map (· + shift) = u.heredocBody (i + shift))
    (closed : ∀ i ∈ block, ∀ c ∈ t.childrenOf i ++ (t.heredocBody i).toList, c ∈ block) :
    t.Copying u fun i j => i ∈ block ∧ j = i + shift := by
  constructor <;> rintro i j ⟨inside, rfl⟩ <;> obtain ⟨type, held, text, children, body⟩ := shows i inside
  · exact type
  · exact held
  · exact text
  · rw [← children, List.forall₂_map_right_iff]
    refine List.forall₂_same.mpr fun c listed => ⟨closed i inside c ?_, rfl⟩
    exact List.mem_append_left _ listed
  · rw [← body]
    cases paired : t.heredocBody i with
    | none => exact .none
    | some b =>
      refine .some ⟨closed i inside b ?_, rfl⟩
      simp [paired]

namespace Copying

variable (copying : t.Copying u r)

include copying

/-- A string is of another kind inside a chain of strings, and only a string is. -/
theorem kind_eq (h : r i j)
    (place : t.type i = "string" → (t.parent i).any (t.type · = "chained_string") =
      (u.parent j).any (u.type · = "chained_string")) : t.kind i = u.kind j := by
  have live : (t.childrenOf i).any (t.type · = "interpolation") =
      (u.childrenOf j).any (u.type · = "interpolation") :=
    any_eq_of_matching (fun c d related => by rw [copying.type related]) (copying.children h)
  unfold kind
  rw [live, ← copying.type h]
  split
  · rename_i isString
    rw [place isString]
  · rfl

theorem kind_eq_of_children (h : r i j) :
    List.Forall₂ (fun c d => r c d ∧ t.kind c = u.kind d) (t.childrenOf i) (u.childrenOf j) := by
  refine (matching_mem (copying.children h)).imp fun c d matched => ?_
  obtain ⟨related, inside, within⟩ := matched
  refine ⟨related, copying.kind_eq related fun _ => ?_⟩
  rw [t.mem_childrenOf_iff.mp inside, u.mem_childrenOf_iff.mp within]
  simp only [Option.any_some, copying.type h]

/-- The nodes that match and are of the same kind are a copying, too. -/
theorem kindred : t.Kindred u fun i j => r i j ∧ t.kind i = u.kind j where
  type h := copying.type h.1
  held h := copying.held h.1
  text h := copying.text h.1
  children h := copying.kind_eq_of_children h.1
  body h := by
    refine imp_matching (fun b c matched => ?_) (matching_some (copying.body h.1))
    obtain ⟨related, paired, -⟩ := matched
    refine ⟨related, copying.kind_eq related fun isString => ?_⟩
    rw [type_of_heredocBody paired] at isString
    exact absurd isString (by decide)
  kind h := h.2

end Copying

namespace Kindred

variable (kin : t.Kindred u r)

include kin

theorem field (h : r i j) (name : String) : Option.Rel r (t.field i name) (u.field j name) :=
  find?_matching (fun c d related => by rw [kin.held related]) (kin.children h)

theorem partText_eq (h : r i j) : t.partText i = u.partText j := by
  rw [partText, partText, kin.type h, kin.text h]

theorem isContent_eq (h : r i j) : t.isContent i = u.isContent j := by
  rw [isContent, isContent, kin.type h]

theorem stringPart_eq (h : r i j) : t.stringPart i = u.stringPart j := by
  rw [stringPart, stringPart, kin.type h, kin.text h, kin.isContent_eq h, kin.partText_eq h]

theorem heredocPart_eq (h : r i j) : t.heredocPart i = u.heredocPart j := by
  rw [heredocPart, heredocPart, kin.type h, kin.text h, kin.partText_eq h]

theorem heredocWording_eq (h : r i j) : t.heredocWording i = u.heredocWording j := by
  have parts (b c : Nat) (related : r b c) :
      (t.childrenOf b).flatMap t.heredocPart = (u.childrenOf c).flatMap u.heredocPart :=
    flatMap_eq_of_matching (fun _ _ => kin.heredocPart_eq) (kin.children related)
  have paired := kin.body h
  unfold heredocWording
  rw [kin.text h]
  generalize t.heredocBody i = o, u.heredocBody j = p at paired
  cases paired with
  | none => rfl
  | some related => simp only [parts _ _ related]

theorem stringWording_eq (h : r i j) : t.stringWording i = u.stringWording j :=
  flatMap_eq_of_matching (fun _ _ => kin.stringPart_eq) (kin.children h)

theorem chainWording_eq (h : r i j) : t.chainWording i = u.chainWording j := by
  have strings := filter_matching (p := (t.type · = "string")) (q := (u.type · = "string"))
    (fun c d related => by rw [kin.type related]) (kin.children h)
  exact flatMap_eq_of_matching (fun _ _ => kin.stringWording_eq) strings

theorem rawWording_eq (h : r i j) : t.rawWording i = u.rawWording j := by
  have contents := filter_matching (fun _ _ related => kin.isContent_eq related) (kin.children h)
  have literal : ((t.childrenOf i).filter t.isContent).flatMap t.partText =
      ((u.childrenOf j).filter u.isContent).flatMap u.partText :=
    flatMap_eq_of_matching (fun _ _ => kin.partText_eq) contents
  rw [rawWording, rawWording, kin.kind h, kin.type h, literal, kin.chainWording_eq h,
    kin.heredocWording_eq h, kin.stringWording_eq h]

theorem wording_eq (h : r i j) : t.wording i = u.wording j := by
  rw [wording, wording, kin.kind h, kin.rawWording_eq h]

theorem fixedText_eq (h : r i j) : t.fixedText i = u.fixedText j := by
  rw [fixedText, fixedText, kin.wording_eq h]

theorem pairKey_eq (h : r i j) : t.pairKey i = u.pairKey j := by
  rw [pairKey, pairKey, kin.kind h]
  congr 1
  refine bind_eq_of_matching (kin.field h "key") fun c d related => ?_
  rw [kin.type related, kin.text related, kin.wording_eq related]

theorem pairValue (h : r i j) : Option.Rel r (t.pairValue i) (u.pairValue j) := by
  rw [Tree.pairValue, Tree.pairValue, kin.kind h]
  split
  · exact kin.field h "value"
  · exact .none

theorem isSplat_eq (h : r i j) : t.isSplat i = u.isSplat j := by
  rw [isSplat, isSplat, kin.type h]

theorem worth_eq {i j : Nat} (h : r i j) : t.worth i = u.worth j := by
  by_cases type : t.type i = "unary"
  · have operands : (t.field i "operand").map t.worth = (u.field j "operand").map u.worth := by
      have matched := matching_some (kin.field h "operand")
      generalize left : t.field i "operand" = o, u.field j "operand" = p at matched
      cases matched with
      | none => rfl
      | some related =>
        have further := t.bounds_of_mem_childrenOf (t.mem_childrenOf_of_field left)
        exact congrArg some (worth_eq related.1)
    rw [worth_of_unary type, worth_of_unary (kin.type h ▸ type), kin.text h, operands]
  · rw [worth, worth, ← kin.type h, kin.text h, if_neg type, if_neg type]
termination_by t.size - i

theorem entryOf (h : r i j) :
    Option.Rel (fun p q => p.1 = q.1 ∧ r p.2 q.2) (t.entryOf i) (u.entryOf j) := by
  have values := kin.pairValue h
  unfold Tree.entryOf
  rw [kin.pairKey_eq h]
  generalize t.pairValue i = o, u.pairValue j = p at values
  cases u.pairKey j with
  | none => exact .none
  | some key =>
    cases values with
    | none => exact .none
    | some related => exact .some ⟨rfl, related⟩

end Kindred

end PromptAudit.Tree
