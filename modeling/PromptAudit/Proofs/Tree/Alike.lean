import PromptAudit.Proofs.Call.Scope
import PromptAudit.Proofs.Tree.Copy
import PromptAudit.Rule.Basic

namespace PromptAudit.Tree

/-- Two trees that rules cannot tell apart. Nodes with the same number show the same, start in the
same order, and start on lines that read the same; the offsets themselves may differ. -/
structure Alike (t u : Tree) : Prop where
  size : t.size = u.size
  type : t.type = u.type
  held : ∀ i, (t.entry i).shape.field = (u.entry i).shape.field
  text : t.text = u.text
  parent : t.parent = u.parent
  children : t.childrenOf = u.childrenOf
  body : t.heredocBody = u.heredocBody
  order {i j : Nat} (hi : i < t.size) (hj : j < t.size) :
    t.start i < t.start j ↔ u.start i < u.start j
  line {i : Nat} (hi : i < t.size) : t.lineAt (t.start i) = u.lineAt (u.start i)

/-- The nodes of a node's scope, and the node itself if there are any, are in the tree. -/
theorem lt_size_of_inRegion {t : Tree} {i k : Nat} (inside : t.InRegion (t.enclosingScope i) k) :
    i < t.size ∧ k < t.size := by
  have high := lt_size_of_below inside.below
  have scope := t.scopeOf_enclosingScope i
  have later := inside.below.lt
  generalize t.enclosingScope i = s at scope later
  cases scope with
  | nearest around => exact ⟨lt_size_of_below around, high⟩
  | topmost around => exact ⟨lt_size_of_below around, high⟩
  | alone => exact ⟨Nat.lt_trans later high, high⟩

theorem constantPath_eq (t : Tree) (i : Nat) :
    t.constantPath i =
      if t.type i = "constant" then some [t.text i]
      else if t.type i = "scope_resolution" then
        (t.field i "name").bind fun name =>
          if t.type name = "constant" then
            match t.field i "scope" with
            | none => some [t.text name]
            | some scope => (t.constantPath scope).map (· ++ [t.text name])
          else none
      else none := by
  rw [constantPath]
  cases t.field i "name" with
  | none => rfl
  | some name =>
    refine if_congr Iff.rfl rfl (if_congr Iff.rfl (if_congr Iff.rfl ?_ rfl) rfl)
    split <;> rename_i field <;> rw [field]

namespace Alike

variable {t u : Tree} {policy : Policy} (alike : t.Alike u)

include alike

theorem field : t.field = u.field := by
  funext i name
  simp only [Tree.field, alike.children, alike.held]

theorem kind : t.kind = u.kind := by
  funext i
  simp only [Tree.kind, alike.type, alike.parent, alike.children]

theorem kindred : t.Kindred u Eq where
  type same := same ▸ congrFun alike.type _
  held same := same ▸ alike.held _
  text same := same ▸ congrFun alike.text _
  children same := by
    rw [same, alike.children, List.forall₂_eq_eq_eq]
  body same := by
    rw [same, alike.body]
    cases u.heredocBody _ with
    | none => exact .none
    | some body => exact .some rfl
  kind same := same ▸ congrFun alike.kind _

theorem wording : t.wording = u.wording := funext fun _ => alike.kindred.wording_eq rfl

theorem fixedText : t.fixedText = u.fixedText := funext fun _ => alike.kindred.fixedText_eq rfl

theorem visibleText : t.visibleText = u.visibleText := by
  funext i
  simp only [Tree.visibleText, alike.fixedText]

theorem pairKey : t.pairKey = u.pairKey := funext fun _ => alike.kindred.pairKey_eq rfl

theorem pairValue : t.pairValue = u.pairValue := by
  funext i
  simp only [Tree.pairValue, alike.kind, alike.field]

theorem isSystemPair : t.isSystemPair = u.isSystemPair := by
  funext i
  simp only [Tree.isSystemPair, alike.kind, alike.pairKey]

theorem worth : t.worth = u.worth := funext fun _ => alike.kindred.worth_eq rfl

theorem ancestors : t.ancestors = u.ancestors := by
  funext i
  induction i using Nat.strongRecOn with
  | ind i ih =>
    rw [t.ancestors_eq, u.ancestors_eq, alike.parent]
    cases up : u.parent i with
    | none => rfl
    | some p =>
      dsimp only
      rw [ih p (u.parent_lt up)]

theorem inside (enters : Nat → Bool) : t.inside enters = u.inside enters := by
  funext i
  induction h : t.size - i using Nat.strongRecOn generalizing i with
  | ind n ih =>
    subst h
    rw [t.inside_eq, u.inside_eq, ← alike.children]
    refine List.flatMap_congr fun c child => ?_
    have bounds := t.bounds_of_mem_childrenOf child
    rw [ih (t.size - c) (by omega) c rfl]

theorem descendants : t.descendants = u.descendants := alike.inside _

theorem opensScope : t.opensScope = u.opensScope := by
  funext i
  simp only [Tree.opensScope, alike.type]

theorem enclosingScope : t.enclosingScope = u.enclosingScope := by
  funext i
  simp only [Tree.enclosingScope, alike.ancestors, alike.opensScope]

theorem scopeNodes : t.scopeNodes = u.scopeNodes := by
  funext i
  simp only [Tree.scopeNodes, alike.type, alike.opensScope, alike.inside, alike.descendants]

theorem inPromptScope : t.inPromptScope = u.inPromptScope := by
  have name : t.definitionName = u.definitionName := by
    funext i
    simp only [Tree.definitionName, alike.kind, alike.type, alike.field, alike.text]
  have prompts : t.namesPrompt = u.namesPrompt := by
    funext i
    simp only [Tree.namesPrompt, name]
  funext i
  simp only [Tree.inPromptScope, prompts, alike.ancestors]

theorem constantPath (i : Nat) : t.constantPath i = u.constantPath i := by
  rw [t.constantPath_eq, u.constantPath_eq, alike.type, alike.text, alike.field]
  cases scope : u.field i "scope" with
  | none => rfl
  | some s =>
    have held : t.field i "scope" = some s := by rw [alike.field, scope]
    have further := t.bounds_of_mem_childrenOf (t.mem_childrenOf_of_field held)
    dsimp only
    rw [constantPath s]
termination_by t.size - i

theorem constructsClient : t.constructsClient policy = u.constructsClient policy := by
  funext i
  simp only [Tree.constructsClient, alike.kind, alike.field, alike.text,
    funext alike.constantPath]

theorem isAssignment : t.isAssignment = u.isAssignment := by
  funext i
  simp only [Tree.isAssignment, alike.type]

theorem clientAssignment : t.clientAssignment policy = u.clientAssignment policy := by
  have assigns : t.assignsClient policy = u.assignsClient policy := by
    funext i
    simp only [Tree.assignsClient, alike.isAssignment, alike.field, alike.constructsClient]
  funext i
  simp only [Tree.clientAssignment, alike.scopeNodes, alike.enclosingScope, assigns]

theorem binds {i k : Nat} (hi : i < t.size) (hk : k < t.size) (name : Text) :
    t.binds name (t.start i) k = u.binds name (u.start i) k := by
  have named : t.isNamed name = u.isNamed name := by
    funext j
    simp only [Tree.isNamed, alike.type, alike.text]
  simp only [Tree.binds, Tree.isParameterList, alike.isAssignment, alike.field, alike.type, named,
    alike.descendants, alike.order hk hi]

/-- Only the order of the assignment and the use of a name matters, not how far they are apart. -/
theorem isLocal : t.isLocal = u.isLocal := by
  funext i
  have nodes : u.scopeNodes (u.enclosingScope i) = t.scopeNodes (t.enclosingScope i) := by
    rw [alike.scopeNodes, alike.enclosingScope]
  rw [Tree.isLocal, Tree.isLocal, nodes, ← alike.text, Bool.eq_iff_iff, List.any_eq_true,
    List.any_eq_true]
  refine exists_congr fun k => and_congr_right fun member => ?_
  obtain ⟨hi, hk⟩ := lt_size_of_inRegion (mem_scopeNodes_iff.mp member)
  rw [alike.binds hi hk]

theorem receiver : t.receiver policy = u.receiver policy := by
  have telling : t.hasTellingName policy = u.hasTellingName policy := by
    funext i
    simp only [Tree.hasTellingName, alike.text]
  have variable_eq : t.isVariable = u.isVariable := by
    funext i
    simp only [Tree.isVariable, alike.type]
  have resolves : t.resolve policy = u.resolve policy := by
    funext i
    rw [Tree.resolve, Tree.resolve, variable_eq, alike.constructsClient, alike.clientAssignment,
      alike.type, alike.isLocal, telling]
  funext node
  simp only [Tree.receiver, resolves]

theorem entryOf : t.entryOf = u.entryOf := by
  funext i
  simp only [Tree.entryOf, alike.pairKey, alike.pairValue]

theorem hasSplat : t.hasSplat = u.hasSplat := by
  have splat : t.isSplat = u.isSplat := by
    funext i
    simp only [Tree.isSplat, alike.type]
  funext i
  simp only [Tree.hasSplat, splat, alike.children, alike.type]

theorem hashKeywords : t.hashKeywords = u.hashKeywords := by
  funext i
  simp only [Tree.hashKeywords, alike.children, alike.entryOf]

theorem call : t.call policy = u.call policy := by
  have added : t.withArgument = u.withArgument := by
    funext ks i
    simp only [Tree.withArgument, alike.kind, alike.type, alike.entryOf, alike.hashKeywords]
  have keywords : t.argumentKeywords = u.argumentKeywords := by
    funext i
    simp only [Tree.argumentKeywords, alike.children, added]
  funext i
  simp only [Tree.call, alike.kind, alike.field, alike.text, alike.receiver, keywords,
    alike.hasSplat]

theorem clientCall (methods : List Text) :
    t.clientCall policy methods = u.clientCall policy methods := by
  funext i
  simp only [Tree.clientCall, alike.call]

theorem keywordValue : t.keywordValue = u.keywordValue := by
  have nested : t.nestedKeywords = u.nestedKeywords := by
    funext c key
    simp only [Tree.nestedKeywords, alike.type, alike.hashKeywords]
  funext c nest key
  simp only [Tree.keywordValue, nested]

theorem keywordsComplete : t.keywordsComplete = u.keywordsComplete := by
  funext c nest
  simp only [Tree.keywordsComplete, alike.hasSplat]

theorem describeCall : t.describeCall = u.describeCall := by
  funext c
  simp only [Tree.describeCall, alike.field, alike.text, funext alike.constantPath]

theorem messageContent : t.messageContent = u.messageContent := by
  funext i
  have texts : t.messageTexts i = u.messageTexts i := by
    simp only [Tree.messageTexts, alike.children, alike.type, alike.pairKey, alike.pairValue,
      alike.fixedText]
  simp only [Tree.messageContent, alike.type, texts]

/-- A tag is read off the node's own text, or off the line where it starts. -/
theorem isTagged {i : Nat} (hi : i < t.size) (tag : Text) : t.isTagged i tag = u.isTagged i tag := by
  have own : t.heredocTag i = u.heredocTag i := by
    simp only [Tree.heredocTag, alike.type, alike.text]
  rw [Tree.isTagged, Tree.isTagged, own, alike.line hi]

end Alike

end PromptAudit.Tree
