import PromptAudit.Proofs.Audit.Alone
import PromptAudit.Proofs.Text.Trim
import PromptAudit.Proofs.Tree.Sketch

namespace PromptAudit

namespace Rule

open Audit

theorem visibleLines_of_blank {content : Text} (h : Text.blank content = true) :
    visibleLines content = [] := by
  refine List.filter_eq_nil_iff.mpr fun line listed => ?_
  obtain ⟨piece, inside, rfl⟩ := List.mem_map.mp listed
  rw [Text.trim_of_blank (Text.blank_of_mem_pieces (Text.blank_readLineFeeds h) inside)]
  decide

theorem not_blank_of_hasMiddleSection {content : Text} (h : hasMiddleSection content = true) :
    Text.blank content = false := by
  refine eq_false_of_ne_true fun blank => ?_
  rw [hasMiddleSection, visibleLines_of_blank blank] at h
  cases h

def sectionMessage : Text :=
  "Labeled sections (### text) should appear at the beginning or end, not in the middle".toList

/-- Where a finding about a text may be anchored: at the text itself, or at the `system:` pair whose
value it is. -/
inductive Anchors (t : Tree) (s : Nat) : Nat → Prop
  | own : Anchors t s s
  | pair {p : Nat} (system : t.isSystemPair p = true) (value : t.pairValue p = some s) :
      Anchors t s p

/-- A text that stands under no `system:` pair, or is itself the value of one. -/
inductive Covered (t : Tree) (s : Nat) : Prop
  | apart (free : ∀ p, t.Below s p → t.isSystemPair p = false)
  | value {p : Nat} (system : t.isSystemPair p = true) (value : t.pairValue p = some s)

variable {path : Option Text} {policy : Policy} {t : Tree} {m : Meter} {s p : Nat}

theorem findingsAt_sections (i : Nat) :
    findingsAt path policy t m [sections] i =
      if sections.triggers.contains (t.kind i) then
        ((sectionComplaint ⟨t, policy, i⟩).map fun message =>
          ⟨.sectionPlacement, message, t.span i, path⟩).toList
      else [] := by
  unfold findingsAt
  split <;> rename_i triggers
  · rw [List.filter_cons, if_pos triggers, List.filter_nil, List.filterMap_cons]
    cases h : sectionComplaint ⟨t, policy, i⟩ with
    | none => simp [findingAlone, findingOf, sections, Check.pure, h]
    | some message => simp [findingAlone, findingOf, sections, Check.pure, h]
  · rw [List.filter_cons, if_neg triggers]
    rfl

theorem kind_of_isSystemPair (system : t.isSystemPair p = true) : t.kind p = .pair := by
  simp only [Tree.isSystemPair, Bool.and_eq_true, decide_eq_true_eq] at system
  exact system.1

theorem parent_of_pairValue (value : t.pairValue p = some s) : t.parent s = some p := by
  unfold Tree.pairValue at value
  split at value
  · exact t.mem_childrenOf_iff.mp (t.mem_childrenOf_of_field value)
  · cases value

theorem not_pair_of_isString (isString : (t.kind s).isString = true) : t.kind s ≠ .pair := by
  intro pair
  rw [pair] at isString
  cases isString

/-- A string is no definition, so it is in prompt code when what holds it is. -/
theorem inPromptScope_of_parent (isString : (t.kind s).isString = true) (up : t.parent s = some p) :
    t.inPromptScope s = t.inPromptScope p := by
  have nameless : t.namesPrompt s = false := by
    unfold Tree.namesPrompt Tree.definitionName
    rw [if_neg fun definition => ?_]
    · rfl
    · rw [definition] at isString
      cases isString
  rw [Tree.inPromptScope, Tree.inPromptScope, t.ancestors_of_parent up, nameless, List.any_cons,
    Bool.false_or]

theorem sectionComplaint_of_target {v : Visit} {content : Text} (target : sectionTarget v = some s)
    (scope : v.tree.inPromptScope v.node = true) (reads : v.tree.fixedText s = some content)
    (middle : hasMiddleSection content = true) : sectionComplaint v = some sectionMessage := by
  have visible : v.tree.visibleText s = some content := by
    rw [Tree.visibleText, reads, Option.filter_some, not_blank_of_hasMiddleSection middle]
    rfl
  rw [sectionComplaint, if_pos scope, target, Option.bind_some, visible, Option.filter_some, middle]
  rfl

theorem sectionComplaint_of_no_target {v : Visit} (target : sectionTarget v = none) :
    sectionComplaint v = none := by
  rw [sectionComplaint, target]
  simp

theorem sectionTarget_of_pair (system : t.isSystemPair p = true) (value : t.pairValue p = some s) :
    sectionTarget ⟨t, policy, p⟩ = some s := by
  simp only [sectionTarget, kind_of_isSystemPair system, system, value, if_pos]

theorem sectionTarget_of_string (isString : (t.kind s).isString = true) :
    sectionTarget ⟨t, policy, s⟩ =
      if (t.ancestors s).any t.isSystemPair then none else some s := by
  simp only [sectionTarget, not_pair_of_isString isString, if_neg, not_false_eq_true]

/-- Under a `system:` pair a string is not looked at by itself. -/
theorem findingsAt_under_pair (isString : (t.kind s).isString = true) (below : t.Below s p)
    (system : t.isSystemPair p = true) : findingsAt path policy t m [sections] s = [] := by
  have under : (t.ancestors s).any t.isSystemPair = true :=
    List.any_eq_true.mpr ⟨p, t.mem_ancestors_iff.mpr below, system⟩
  have target : sectionTarget ⟨t, policy, s⟩ = none := by
    rw [sectionTarget_of_string isString, if_pos under]
  rw [findingsAt_sections, sectionComplaint_of_no_target target]
  simp

theorem findingsAt_of_target {i : Nat} {content : Text}
    (triggers : sections.triggers.contains (t.kind i) = true)
    (target : sectionTarget ⟨t, policy, i⟩ = some s) (scope : t.inPromptScope i = true)
    (reads : t.fixedText s = some content) (middle : hasMiddleSection content = true) :
    findingsAt path policy t m [sections] i =
      [⟨.sectionPlacement, sectionMessage, t.span i, path⟩] := by
  rw [findingsAt_sections, if_pos triggers, sectionComplaint_of_target target scope reads middle]
  rfl

theorem triggers_of_isString (isString : (t.kind s).isString = true) :
    sections.triggers.contains (t.kind s) = true := by
  cases h : t.kind s <;> rw [h] at isString <;> first | rfl | cases isString

theorem mem_nodes_of_parent (up : t.parent s = some p) : p ∈ t.nodes :=
  List.mem_range.mpr ((t.parent_lt up).trans (t.lt_size_of_parent up))

theorem below_of_pairValue (value : t.pairValue p = some s) : t.Below s p :=
  .single (parent_of_pairValue value)

/-- Of the nodes a finding about a text may be anchored at, one has it when the text is covered. -/
theorem exists_anchor {content : Text} (isString : (t.kind s).isString = true)
    (scope : t.inPromptScope s = true) (reads : t.fixedText s = some content)
    (middle : hasMiddleSection content = true) (covered : Covered t s) :
    ∃ i ∈ t.nodes, Anchors t s i ∧
      findingsAt path policy t m [sections] i =
        [⟨.sectionPlacement, sectionMessage, t.span i, path⟩] ∧
      ∀ j, Anchors t s j → j ≠ i → findingsAt path policy t m [sections] j = [] := by
  cases covered with
  | apart free =>
    have alone : ¬ (t.ancestors s).any t.isSystemPair = true := fun above => by
      obtain ⟨p, listed, system⟩ := List.any_eq_true.mp above
      rw [free p (t.mem_ancestors_iff.mp listed)] at system
      cases system
    have target : sectionTarget ⟨t, policy, s⟩ = some s := by
      rw [sectionTarget_of_string isString, if_neg alone]
    refine ⟨s, List.mem_range.mpr (t.lt_size_of_isString isString), .own,
      findingsAt_of_target (triggers_of_isString isString) target scope reads middle, ?_⟩
    intro j anchor apart
    cases anchor with
    | own => exact absurd rfl apart
    | pair system value =>
      rw [free j (below_of_pairValue value)] at system
      cases system
  | @value p system value =>
    have up : t.parent s = some p := parent_of_pairValue value
    have triggers : sections.triggers.contains (t.kind p) = true := by
      rw [kind_of_isSystemPair system]
      rfl
    refine ⟨p, mem_nodes_of_parent up, .pair system value,
      findingsAt_of_target triggers (sectionTarget_of_pair system value)
        ((inPromptScope_of_parent isString up).symm.trans scope) reads middle, ?_⟩
    intro j anchor apart
    cases anchor with
    | own => exact findingsAt_under_pair isString (below_of_pairValue value) system
    | pair _ other =>
      exact absurd (Option.some.inj ((parent_of_pairValue other).symm.trans up)) apart

/-- Where a text stands under a `system:` pair and is the value of none, nothing is found. -/
theorem findingsAt_of_not_covered (isString : (t.kind s).isString = true) (lost : ¬ Covered t s)
    {j : Nat} (anchor : Anchors t s j) : findingsAt path policy t m [sections] j = [] := by
  cases anchor with
  | own =>
    have under : ∃ p, t.Below s p ∧ t.isSystemPair p = true := by
      by_contra none
      exact lost (.apart fun p below => eq_false_of_ne_true fun system => none ⟨p, below, system⟩)
    obtain ⟨p, below, system⟩ := under
    exact findingsAt_under_pair isString below system
  | pair system value => exact absurd (.value system value) lost

/-- A look at a whole unit for sections in the middle gives one finding about a text with such a
section that stands under no `system:` pair or is the value of one, at the text or at the pair. It
gives none about a text that stands deeper under a `system:` pair. -/
theorem inspect_sections_covered (path : Option Text) (policy : Policy) (t : Tree) (m : Meter)
    {s : Nat} {content : Text} (isString : (t.kind s).isString = true)
    (scope : t.inPromptScope s = true) (reads : t.fixedText s = some content)
    (middle : hasMiddleSection content = true) :
    ∃ done, inspect [sections] path policy m t = .ok done ∧
      done.findings = t.nodes.flatMap (findingsAt path policy t m [sections]) ∧
      (Covered t s → ∃ i ∈ t.nodes, Anchors t s i ∧
        findingsAt path policy t m [sections] i =
          [⟨.sectionPlacement, sectionMessage, t.span i, path⟩] ∧
        ∀ j, Anchors t s j → j ≠ i → findingsAt path policy t m [sections] j = []) ∧
      (¬ Covered t s → ∀ j, Anchors t s j → findingsAt path policy t m [sections] j = []) := by
  have registered : ∀ rule ∈ [sections], rule ∈ Rule.all := by simp [Rule.all]
  have sound : ∀ visit ∈ visits [sections] t, ∀ n,
      ∃ outcome, visit.2.check ⟨t, policy, visit.1⟩ n = .ok outcome := by
    intro visit hv n
    obtain ⟨-, selected, -⟩ := mem_visits.mp hv
    rw [List.mem_singleton.mp selected]
    exact ⟨_, rfl⟩
  obtain ⟨done, ran⟩ := (inspect_ok_iff registered).mpr sound
  exact ⟨done, ran, (findings_of_inspect registered ran rfl).trans filterMap_visits,
    exists_anchor isString scope reads middle,
    fun lost _ anchor => findingsAt_of_not_covered isString lost anchor⟩

open Tree.Shape (plain held)
open Tree.Forest (leaf only)

/-- The seven lines of a text with a label on the fourth. -/
def titledLines : String := "a\nb\nc\n### d\ne\nf\ng"

/-- A text with a label in its middle as the value of a `system:` pair. Its node is `7`. -/
def titled : Tree :=
  Tree.promptMethod ("\"" ++ titledLines ++ "\"") <|
    only (held "value" "string" 22 41) <| leaf (plain "string_content" 23 40) .none

theorem titled_found :
    (titled.kind 7).isString = true ∧ titled.inPromptScope 7 = true ∧
    titled.fixedText 7 = some titledLines.toList ∧
    hasMiddleSection titledLines.toList = true ∧
    Covered titled 7 ∧
    ∃ done, inspect [sections] none .standard (.ofEncoding []) titled = .ok done ∧
      ∃ i ∈ titled.nodes, Anchors titled 7 i ∧
        findingsAt none .standard titled (.ofEncoding []) [sections] i =
          [⟨.sectionPlacement, sectionMessage, titled.span i, none⟩] := by
  have isString : (titled.kind 7).isString = true := by decide +kernel
  have scope : titled.inPromptScope 7 = true := by decide +kernel
  have reads : titled.fixedText 7 = some titledLines.toList := by decide +kernel
  have middle : hasMiddleSection titledLines.toList = true := by decide +kernel
  have covered : Covered titled 7 := .value (p := 5) (by decide +kernel) (by decide +kernel)
  obtain ⟨done, ran, -, found, -⟩ :=
    inspect_sections_covered none .standard titled (.ofEncoding [])
      isString scope reads middle
  obtain ⟨i, listed, anchor, once, -⟩ := found covered
  exact ⟨isString, scope, reads, middle, covered, done, ran, i, listed, anchor, once⟩

/-- The same text in an array that is the value of the pair. Its node is `8`. -/
def listed : Tree :=
  Tree.promptMethod ("[\"" ++ titledLines ++ "\"]") <|
    only (held "value" "array" 22 43) <|
    only (plain "string" 23 42) <| leaf (plain "string_content" 24 41) .none

/-- The text in the array has a label in its middle, and a look at the whole unit finds nothing. -/
theorem listed_not_found :
    (listed.kind 8).isString = true ∧ listed.inPromptScope 8 = true ∧
    (listed.fixedText 8).any hasMiddleSection = true ∧
    ((inspect [sections] none .standard (.ofEncoding []) listed).toOption.map
      fun done => done.findings) = some [] := by
  decide +kernel

end Rule

end PromptAudit
