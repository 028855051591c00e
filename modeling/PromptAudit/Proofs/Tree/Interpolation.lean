import PromptAudit.Proofs.Wording.Live
import PromptAudit.Wording.Basic

namespace PromptAudit.Tree

open Wording

variable (t : Tree)

/-- A string of several parts: a heredoc, a chain of strings, or a string outside a chain that
has an interpolation. -/
inductive IsComposite (i : Nat) : Prop
  | heredoc (type : t.type i = "heredoc_beginning")
  | chain (type : t.type i = "chained_string")
  | string {c : Nat} (type : t.type i = "string")
      (alone : ∀ p, t.parent i = some p → t.type p ≠ "chained_string")
      (child : c ∈ t.childrenOf i) (interpolation : t.type c = "interpolation")

/-- An interpolation stands in a string, in a string of a chain, or in the body of a heredoc. -/
inductive Interpolates (i : Nat) : Prop
  | string {c : Nat} (type : t.type i = "string") (child : c ∈ t.childrenOf i)
      (interpolation : t.type c = "interpolation")
  | chain {s c : Nat} (type : t.type i = "chained_string") (link : s ∈ t.childrenOf i)
      (string : t.type s = "string") (child : c ∈ t.childrenOf s)
      (interpolation : t.type c = "interpolation")
  | heredoc {b c : Nat} (type : t.type i = "heredoc_beginning") (body : t.heredocBody i = some b)
      (child : c ∈ t.childrenOf b) (interpolation : t.type c = "interpolation")

def interpolations (i : Nat) : List Nat := (t.childrenOf i).filter (t.type · = "interpolation")

@[simp] theorem mem_interpolations {i c : Nat} :
    c ∈ t.interpolations i ↔ c ∈ t.childrenOf i ∧ t.type c = "interpolation" := by
  simp [interpolations]

theorem kind_eq_composite_iff {i : Nat} : t.kind i = .composite ↔ t.IsComposite i := by
  constructor
  · intro h
    unfold kind at h
    split at h
    · rename_i type
      split at h
      · cases h
      · rename_i alone
        split at h
        · rename_i child
          obtain ⟨c, hc, interpolation⟩ := List.any_eq_true.mp child
          refine .string type ?_ hc (by simpa using interpolation)
          intro p up chained
          exact alone (by simp [up, chained])
        · cases h
    · split at h
      · rename_i type
        rcases (Bool.or_eq_true _ _).mp type with type | type
        · exact .chain (by simpa using type)
        · exact .heredoc (by simpa using type)
      · split at h
        · cases h
        · split at h
          · cases h
          · split at h
            · cases h
            · split at h <;> cases h
  · intro composite
    cases composite with
    | heredoc type => simp [kind, type]
    | chain type => simp [kind, type]
    | string type alone child interpolation =>
      have unchained : (t.parent i).any (t.type · = "chained_string") = false := by
        cases up : t.parent i with
        | none => rfl
        | some p => simpa using alone p up
      have interpolated : (t.childrenOf i).any (t.type · = "interpolation") = true :=
        List.any_eq_true.mpr ⟨_, child, by simpa using interpolation⟩
      simp [kind, type, unchained, interpolated]

theorem sources_stringWording (i : Nat) :
    sources (t.stringWording i) = (t.interpolations i).map t.text := by
  unfold stringWording interpolations
  induction t.childrenOf i with
  | nil => rfl
  | cons c rest ih =>
    rw [List.flatMap_cons, sources_append, ih]
    by_cases h : t.type c = "interpolation"
    · simp [stringPart, h, sources, Fragment.source?]
    · have none : sources (t.stringPart c) = [] := by
        simp only [stringPart, h, if_false]
        split <;> rfl
      simp [none, h]

theorem sources_chainWording (i : Nat) :
    sources (t.chainWording i) =
      (((t.childrenOf i).filter (t.type · = "string")).flatMap t.interpolations).map t.text := by
  unfold chainWording
  induction (t.childrenOf i).filter (t.type · = "string") with
  | nil => rfl
  | cons s rest ih =>
    rw [List.flatMap_cons, sources_append, sources_stringWording, ih, List.flatMap_cons,
      List.map_append]

theorem pieceSources_heredocParts (b : Nat) :
    pieceSources ((t.childrenOf b).flatMap t.heredocPart) = (t.interpolations b).map t.text := by
  unfold interpolations
  induction t.childrenOf b with
  | nil => rfl
  | cons c rest ih =>
    rw [List.flatMap_cons, pieceSources_append, ih]
    by_cases h : t.type c = "interpolation"
    · simp [heredocPart, h, pieceSources, Piece.source?]
    · have none : pieceSources (t.heredocPart c) = [] := by
        simp only [heredocPart, h, if_false]
        split
        · rfl
        · split <;> rfl
      simp [none, h]

/-- Neither the first line feed nor the terminator nor the common indentation takes an
interpolation along. -/
theorem sources_heredocWording (i : Nat) :
    sources (t.heredocWording i) =
      ((t.heredocBody i).toList.flatMap t.interpolations).map t.text := by
  unfold heredocWording
  cases t.heredocBody i with
  | none => rfl
  | some b => simp [sources_ofHeredoc, pieceSources_heredocParts]

/-- The interpolations that a composite string is read with. -/
def liveNodes (i : Nat) : List Nat :=
  if t.type i = "chained_string" then
    ((t.childrenOf i).filter (t.type · = "string")).flatMap t.interpolations
  else if t.type i = "heredoc_beginning" then (t.heredocBody i).toList.flatMap t.interpolations
  else t.interpolations i

theorem sources_rawWording {i : Nat} (h : t.kind i = .composite) :
    sources (t.rawWording i) = (t.liveNodes i).map t.text := by
  simp only [rawWording, h, liveNodes]
  split
  · exact t.sources_chainWording i
  · split
    · exact t.sources_heredocWording i
    · exact t.sources_stringWording i

theorem exists_mem_liveNodes_iff {i : Nat} (h : t.IsComposite i) :
    (∃ c, c ∈ t.liveNodes i) ↔ t.Interpolates i := by
  constructor
  · intro live
    obtain ⟨c, hc⟩ := live
    cases h with
    | heredoc type =>
      simp only [liveNodes, type, String.reduceEq, if_false, if_true, List.mem_flatMap,
        Option.mem_toList, mem_interpolations] at hc
      obtain ⟨b, body, child, interpolation⟩ := hc
      exact .heredoc type body child interpolation
    | chain type =>
      simp only [liveNodes, type, if_true, List.mem_flatMap, List.mem_filter,
        decide_eq_true_eq, mem_interpolations] at hc
      obtain ⟨s, ⟨link, string⟩, child, interpolation⟩ := hc
      exact .chain type link string child interpolation
    | string type =>
      simp only [liveNodes, type, String.reduceEq, if_false, mem_interpolations] at hc
      exact .string type hc.1 hc.2
  · intro stands
    cases stands with
    | @string c type child interpolation =>
      exact ⟨c, by simp [liveNodes, type, child, interpolation]⟩
    | @chain s c type link string child interpolation =>
      refine ⟨c, ?_⟩
      simp only [liveNodes, type, if_true, List.mem_flatMap, List.mem_filter, decide_eq_true_eq,
        mem_interpolations]
      exact ⟨s, ⟨link, string⟩, child, interpolation⟩
    | @heredoc b c type body child interpolation =>
      exact ⟨c, by simp [liveNodes, type, body, child, interpolation]⟩

/-- What a composite string says is live exactly when an interpolation stands in it. -/
theorem hasLive_rawWording_iff {i : Nat} (h : t.IsComposite i) :
    hasLive (t.rawWording i) = true ↔ t.Interpolates i := by
  rw [hasLive_iff, t.sources_rawWording (t.kind_eq_composite_iff.mpr h), ne_eq,
    List.map_eq_nil_iff, ← t.exists_mem_liveNodes_iff h]
  exact ⟨List.exists_mem_of_ne_nil _, fun ⟨_, hc⟩ => List.ne_nil_of_mem hc⟩

/-- A wording with an interpolation is never taken for a blank one. -/
theorem any_hasLive_wording {i : Nat} (h : t.kind i = .composite) :
    (t.wording i).any hasLive = hasLive (t.rawWording i) := by
  have isString : (t.kind i).isString = true := by rw [h]; rfl
  cases live : hasLive (t.rawWording i) with
  | true => simp [wording, isString, live]
  | false =>
    simp only [wording, isString, live, if_true, Bool.not_false, Bool.true_and]
    split
    · rfl
    · exact live

end PromptAudit.Tree
