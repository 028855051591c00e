import Mathlib.Data.List.Dedup
import Mathlib.Data.List.Permutation
import PromptAudit.Proofs.List.Sorted
import PromptAudit.Proofs.Tree.Enclosure
import PromptAudit.Proofs.Tree.Sketch
import PromptAudit.Tree.Heredoc

namespace PromptAudit.Tree

variable (t : Tree)

/-- One node starts before another; of two that start together the one listed first does. -/
def Before (i j : Nat) : Prop := t.start i < t.start j ∨ t.start i = t.start j ∧ i < j

instance : DecidableRel t.Before := fun _ _ => inferInstanceAs (Decidable (_ ∨ _))

theorem before_asymm (i j : Nat) (h : t.Before i j) : ¬ t.Before j i := by
  unfold Before at *
  omega

theorem before_irrefl (i : Nat) : ¬ t.Before i i := fun h => t.before_asymm i i h h

theorem before_total (i j : Nat) : i = j ∨ t.Before i j ∨ t.Before j i := by
  unfold Before
  omega

theorem byStart_pairwise (type : String) : (t.byStart type).Pairwise t.Before := by
  have listed : (t.nodes.filter (t.type · = type)).Pairwise (· < ·) :=
    List.pairwise_lt_range.filter _
  exact mergeSort_pairwise listed

theorem byStart_nodup (type : String) : (t.byStart type).Nodup :=
  (t.byStart_pairwise type).imp fun {a b} (h : t.Before a b) (same : a = b) =>
    t.before_irrefl b (same ▸ h)

/-- The nearest heredoc body around a node. Nodes with the same one stand in one region. -/
def region (i : Nat) : Option Nat := (t.ancestors i).find? (t.type · = "heredoc_body")

/-- The heredocs that open in a region. -/
def openings (r : Option Nat) : List Nat :=
  (t.byStart "heredoc_beginning").filter (t.region · = r)

/-- The heredoc bodies that stand in a region. -/
def bodies (r : Option Nat) : List Nat := (t.byStart "heredoc_body").filter (t.region · = r)

/-- The openings of a region with its bodies, each with the one at its place. -/
def regionPairs (r : Option Nat) : List (Nat × Nat) := (t.openings r).zip (t.bodies r)

theorem heredocs_pairwise :
    t.heredocs.Pairwise fun p q => t.Before p.1 q.1 ∧ t.Before p.2 q.2 :=
  pairwise_zip (t.byStart_pairwise _) (t.byStart_pairwise _)

theorem regionPairs_pairwise (r : Option Nat) :
    (t.regionPairs r).Pairwise fun p q => t.Before p.1 q.1 ∧ t.Before p.2 q.2 :=
  pairwise_zip ((t.byStart_pairwise _).filter _) ((t.byStart_pairwise _).filter _)

theorem heredocBody_eq_some_iff {o b : Nat} :
    t.heredocBody o = some b ↔ (o, b) ∈ t.heredocs := by
  apply find?_fst_eq_some_iff
  rw [List.Nodup, List.pairwise_map]
  exact t.heredocs_pairwise.imp fun {p q} h (same : p.1 = q.1) => t.before_irrefl q.1 (same ▸ h.1)

/-- In a list that two orders sort at once, the one order follows the other. -/
private theorem before_snd_of_fst {l : List (Nat × Nat)}
    (h : l.Pairwise fun p q => t.Before p.1 q.1 ∧ t.Before p.2 q.2) {p q : Nat × Nat}
    (hp : p ∈ l) (hq : q ∈ l) (before : t.Before p.1 q.1) : t.Before p.2 q.2 := by
  rcases related_of_pairwise h hp hq with same | rel | rel
  · exact absurd (same ▸ before) (t.before_irrefl q.1)
  · exact rel.2
  · exact absurd rel.1 (t.before_asymm _ _ before)

/-- Every region has as many bodies as openings. -/
def Balanced : Prop := ∀ r, (t.openings r).length = (t.bodies r).length

/-- The bodies of a region start behind the openings that they stand for. -/
def BodiesFollow : Prop := ∀ r, ∀ p ∈ t.regionPairs r, t.stop p.1 ≤ t.start p.2

/-- Every opening has the body at its place in its own region. -/
def PairsByRegion : Prop := ∀ r, ∀ p ∈ t.regionPairs r, t.heredocBody p.1 = some p.2

/-- Two heredocs of different regions have their bodies in the order in which they open. -/
def KeepsTurns : Prop :=
  ∀ r s, r ≠ s → ∀ p ∈ t.regionPairs r, ∀ q ∈ t.regionPairs s, t.Before p.1 q.1 → t.Before p.2 q.2

/-- The pairs of all regions. -/
private def allPairs : List (Nat × Nat) :=
  ((t.byStart "heredoc_beginning").map t.region).dedup.flatMap t.regionPairs

private theorem mem_allPairs {p : Nat × Nat} : p ∈ t.allPairs ↔ ∃ r, p ∈ t.regionPairs r := by
  simp only [allPairs, List.mem_flatMap, List.mem_dedup, List.mem_map]
  constructor
  · intro listed
    obtain ⟨r, -, hp⟩ := listed
    exact ⟨r, hp⟩
  · intro paired
    obtain ⟨r, hp⟩ := paired
    obtain ⟨opening, -⟩ := List.of_mem_zip hp
    obtain ⟨listed, inRegion⟩ := List.mem_filter.mp opening
    exact ⟨r, ⟨p.1, listed, by simpa using inRegion⟩, hp⟩

private theorem map_fst_allPairs (h : t.Balanced) :
    (t.allPairs.map Prod.fst).Perm (t.byStart "heredoc_beginning") := by
  have parts : t.allPairs.map Prod.fst =
      ((t.byStart "heredoc_beginning").map t.region).dedup.flatMap t.openings := by
    rw [allPairs, List.map_flatMap]
    exact List.flatMap_congr fun r _ => List.map_fst_zip (Nat.le_of_eq (h r))
  rw [parts]
  exact perm_flatMap_filter t.region (List.nodup_dedup _) fun o ho =>
    List.mem_dedup.mpr (List.mem_map_of_mem ho)

private theorem map_snd_allPairs (h : t.Balanced) :
    (t.allPairs.map Prod.snd).Perm (t.byStart "heredoc_body") := by
  have parts : t.allPairs.map Prod.snd =
      ((t.byStart "heredoc_beginning").map t.region).dedup.flatMap t.bodies := by
    rw [allPairs, List.map_flatMap]
    exact List.flatMap_congr fun r _ => List.map_snd_zip (Nat.le_of_eq (h r).symm)
  rw [parts]
  refine perm_flatMap_filter t.region (List.nodup_dedup _) fun b hb => ?_
  have some : 0 < (t.bodies (t.region b)).length :=
    List.length_pos_of_mem (List.mem_filter.mpr ⟨hb, by simp⟩)
  rw [← h] at some
  obtain ⟨o, ho⟩ := List.exists_mem_of_length_pos some
  obtain ⟨listed, same⟩ := List.mem_filter.mp ho
  exact List.mem_dedup.mpr (List.mem_map.mpr ⟨o, listed, by simpa using same⟩)

/-- Where regions keep their turns, the order of two openings is that of their bodies. -/
private theorem before_iff_of_keepsTurns (h : t.Balanced) (turns : t.KeepsTurns) {p q : Nat × Nat}
    (hp : p ∈ t.allPairs) (hq : q ∈ t.allPairs) :
    t.Before p.1 q.1 ↔ t.Before p.2 q.2 := by
  have forward {p q : Nat × Nat} (hp : p ∈ t.allPairs) (hq : q ∈ t.allPairs)
      (before : t.Before p.1 q.1) : t.Before p.2 q.2 := by
    obtain ⟨r, hp⟩ := t.mem_allPairs.mp hp
    obtain ⟨s, hq⟩ := t.mem_allPairs.mp hq
    by_cases same : r = s
    · subst same
      exact t.before_snd_of_fst (t.regionPairs_pairwise r) hp hq before
    · exact turns r s same p hp q hq before
  refine ⟨forward hp hq, fun after => ?_⟩
  rcases t.before_total p.1 q.1 with same | before | before
  · have distinct : (t.allPairs.map Prod.fst).Nodup :=
      (t.map_fst_allPairs h).nodup_iff.mpr (t.byStart_nodup _)
    have same : p = q := List.inj_on_of_nodup_map distinct hp hq same
    exact absurd (same ▸ after) (t.before_irrefl q.2)
  · exact before
  · exact absurd (forward hq hp before) (t.before_asymm _ _ after)

/-- An opening and its body have the same place among all openings and all bodies. -/
private theorem countP_eq_of_keepsTurns (h : t.Balanced) (turns : t.KeepsTurns) {p : Nat × Nat}
    (hp : p ∈ t.allPairs) :
    (t.byStart "heredoc_beginning").countP (t.Before · p.1) =
      (t.byStart "heredoc_body").countP (t.Before · p.2) := by
  calc (t.byStart "heredoc_beginning").countP (t.Before · p.1)
      = t.allPairs.countP fun q => t.Before q.1 p.1 := by
        rw [← (t.map_fst_allPairs h).countP_eq, List.countP_map]
        rfl
    _ = t.allPairs.countP fun q => t.Before q.2 p.2 := by
        apply List.countP_congr
        intro q hq
        simpa using t.before_iff_of_keepsTurns h turns hq hp
    _ = (t.byStart "heredoc_body").countP (t.Before · p.2) := by
        rw [← (t.map_snd_allPairs h).countP_eq, List.countP_map]
        rfl

theorem heredocBody_of_keepsTurns (h : t.Balanced) (turns : t.KeepsTurns) {r : Option Nat}
    {p : Nat × Nat} (hp : p ∈ t.regionPairs r) : t.heredocBody p.1 = some p.2 := by
  have listed : p ∈ t.allPairs := t.mem_allPairs.mpr ⟨r, hp⟩
  obtain ⟨opening, body⟩ := List.of_mem_zip hp
  have first := getElem?_countP t.before_asymm (t.byStart_pairwise "heredoc_beginning")
    (List.mem_filter.mp opening).1
  have second := getElem?_countP t.before_asymm (t.byStart_pairwise "heredoc_body")
    (List.mem_filter.mp body).1
  rw [← t.countP_eq_of_keepsTurns h turns listed] at second
  rw [heredocBody_eq_some_iff]
  exact List.mem_of_getElem? (List.getElem?_zip_eq_some.mpr ⟨first, second⟩)

/-- Where every region has as many bodies as openings, the bodies go region by region in the order
of the openings exactly when no heredoc of another region opens later than a heredoc and still has
its body earlier. -/
theorem pairsByRegion_iff (h : t.Balanced) : t.PairsByRegion ↔ t.KeepsTurns := by
  constructor
  · intro paired r s _ p hp q hq before
    exact t.before_snd_of_fst t.heredocs_pairwise (t.heredocBody_eq_some_iff.mp (paired r p hp))
      (t.heredocBody_eq_some_iff.mp (paired s q hq)) before
  · intro turns r p hp
    exact t.heredocBody_of_keepsTurns h turns hp

/-- The regions where a heredoc opens or a body stands. The others hold for what is said of pairs. -/
def regions : List (Option Nat) :=
  (t.byStart "heredoc_beginning" ++ t.byStart "heredoc_body").map t.region

private theorem openings_of_not_mem_regions {r : Option Nat} (h : r ∉ t.regions) : t.openings r = [] := by
  rw [openings, List.filter_eq_nil_iff]
  intro o ho same
  exact h (List.mem_map.mpr ⟨o, List.mem_append_left _ ho, by simpa using same⟩)

private theorem bodies_of_not_mem_regions {r : Option Nat} (h : r ∉ t.regions) : t.bodies r = [] := by
  rw [bodies, List.filter_eq_nil_iff]
  intro b hb same
  exact h (List.mem_map.mpr ⟨b, List.mem_append_right _ hb, by simpa using same⟩)

theorem mem_regions_of_mem_regionPairs {r : Option Nat} {p : Nat × Nat}
    (hp : p ∈ t.regionPairs r) : r ∈ t.regions := by
  by_contra outside
  rw [regionPairs, t.openings_of_not_mem_regions outside, List.zip_nil_left] at hp
  exact List.not_mem_nil hp

theorem balanced_iff :
    t.Balanced ↔ ∀ r ∈ t.regions, (t.openings r).length = (t.bodies r).length := by
  refine ⟨fun h r _ => h r, fun h r => ?_⟩
  by_cases inside : r ∈ t.regions
  · exact h r inside
  · rw [t.openings_of_not_mem_regions inside, t.bodies_of_not_mem_regions inside]

open Shape (plain held)
open Forest (leaf only)

/-- The body of a heredoc `A` that holds the call `bar(<<C)` and the body of `C`. -/
private def nestedBody (first : Nat) (rest : Forest) : Forest :=
  .more (plain "heredoc_body" first (first + 23))
    (leaf (plain "heredoc_content" first (first + 1)) <|
      .more (plain "interpolation" (first + 1) (first + 21))
        (.more (plain "call" (first + 3) (first + 11))
          (leaf (held "method" "identifier" (first + 3) (first + 6)) <|
            only (held "arguments" "argument_list" (first + 6) (first + 11))
              (leaf (plain "heredoc_beginning" (first + 7) (first + 10)) .none)) <|
          only (plain "heredoc_body" (first + 11) (first + 19))
            (leaf (plain "heredoc_content" (first + 11) (first + 18)) <|
              leaf (plain "heredoc_end" (first + 18) (first + 19)) .none)) <|
      leaf (plain "heredoc_content" (first + 21) (first + 22)) <|
      leaf (plain "heredoc_end" (first + 22) (first + 23)) .none) rest

/-- The call `foo(<<A)`, where the body of `A` holds a call with another heredoc `C`. -/
def inTurn : Tree where
  source := Text.encode "foo(<<A)\n#\x7bbar(<<C)\ninner\nC\n\x7d\nA\n".toList
  root := plain "program" 0 32
  children :=
    .more (plain "call" 0 8)
      (leaf (held "method" "identifier" 0 3) <|
        only (held "arguments" "argument_list" 3 8) (leaf (plain "heredoc_beginning" 4 7) .none)) <|
    nestedBody 8 .none
  broken := false

theorem inTurn_pairsByRegion : inTurn.Balanced ∧ inTurn.KeepsTurns ∧ inTurn.PairsByRegion := by
  have regions : inTurn.regions = [none, some 5, none, some 5] := by cbv
  have outer : inTurn.regionPairs none = [(4, 5)] := by cbv
  have inner : inTurn.regionPairs (some 5) = [(11, 12)] := by cbv
  have known {r : Option Nat} {p : Nat × Nat} (hp : p ∈ inTurn.regionPairs r) :
      r = none ∨ r = some 5 := by
    have listed := inTurn.mem_regions_of_mem_regionPairs hp
    rw [regions] at listed
    grind
  have balanced : inTurn.Balanced := by
    rw [balanced_iff, regions]
    have outerLengths : (inTurn.openings none).length = (inTurn.bodies none).length := by cbv
    have innerLengths : (inTurn.openings (some 5)).length = (inTurn.bodies (some 5)).length := by
      cbv
    simp [outerLengths, innerLengths]
  have turns : inTurn.KeepsTurns := by
    intro r s different p hp q hq before
    have first : inTurn.Before 5 12 := .inl (by decide_cbv)
    have last : ¬ inTurn.Before 11 4 := by decide_cbv
    rcases known hp with rfl | rfl <;> rcases known hq with rfl | rfl
    · exact absurd rfl different
    · rw [outer, List.mem_singleton] at hp
      rw [inner, List.mem_singleton] at hq
      subst hp hq
      exact first
    · rw [inner, List.mem_singleton] at hp
      rw [outer, List.mem_singleton] at hq
      subst hp hq
      exact absurd before last
    · exact absurd rfl different
  exact ⟨balanced, turns, (inTurn.pairsByRegion_iff balanced).mpr turns⟩

/-- The call `foo(<<A, <<B)`, where the body of `A` holds a call with a third heredoc `C`. -/
def overtaken : Tree where
  source := Text.encode "foo(<<A, <<B)\n#\x7bbar(<<C)\ninner\nC\n\x7d\nA\ntext\nB\n".toList
  root := plain "program" 0 44
  children :=
    .more (plain "call" 0 13)
      (leaf (held "method" "identifier" 0 3) <|
        only (held "arguments" "argument_list" 3 13)
          (leaf (plain "heredoc_beginning" 4 7) <| leaf (plain "heredoc_beginning" 9 12) .none)) <|
    nestedBody 13 <|
    only (plain "heredoc_body" 36 43)
      (leaf (plain "heredoc_content" 36 42) <| leaf (plain "heredoc_end" 42 43) .none)
  broken := false

/-- When `C` opens, `B` still waits for its body, and it is given the body of `C`. -/
theorem overtaken_not_pairsByRegion :
    overtaken.Balanced ∧ overtaken.BodiesFollow ∧ (5, 18) ∈ overtaken.regionPairs none ∧
      overtaken.heredocBody 5 = some 13 ∧ ¬ overtaken.PairsByRegion := by
  have regions : overtaken.regions = [none, none, some 6, none, some 6, none] := by cbv
  have outer : overtaken.regionPairs none = [(4, 6), (5, 18)] := by cbv
  have inner : overtaken.regionPairs (some 6) = [(12, 13)] := by cbv
  have sorted : overtaken.heredocs = [(4, 6), (5, 13), (12, 18)] := by cbv
  have given : overtaken.heredocBody 5 = some 13 :=
    overtaken.heredocBody_eq_some_iff.mpr (by simp [sorted])
  have own : (5, 18) ∈ overtaken.regionPairs none := by simp [outer]
  refine ⟨?_, ?_, own, given, ?_⟩
  · rw [balanced_iff, regions]
    have outerLengths : (overtaken.openings none).length = (overtaken.bodies none).length := by cbv
    have innerLengths :
        (overtaken.openings (some 6)).length = (overtaken.bodies (some 6)).length := by cbv
    simp [outerLengths, innerLengths]
  · intro r p hp
    have listed := overtaken.mem_regions_of_mem_regionPairs hp
    rw [regions] at listed
    have first : overtaken.stop 4 ≤ overtaken.start 6 := by decide_cbv
    have second : overtaken.stop 5 ≤ overtaken.start 18 := by decide_cbv
    have third : overtaken.stop 12 ≤ overtaken.start 13 := by decide_cbv
    have known : r = none ∨ r = some 6 := by grind
    rcases known with rfl | rfl
    · rw [outer] at hp
      simp only [List.mem_cons, List.not_mem_nil, or_false] at hp
      rcases hp with rfl | rfl
      · exact first
      · exact second
    · rw [inner, List.mem_singleton] at hp
      subst hp
      exact third
  · intro paired
    have bad := paired none (5, 18) own
    rw [given] at bad
    cases bad

end PromptAudit.Tree
