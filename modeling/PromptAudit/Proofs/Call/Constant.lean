import PromptAudit.Proofs.Call.Receiver
import PromptAudit.Proofs.Text.Segments
import PromptAudit.Proofs.Tree.Alike
import PromptAudit.Proofs.Tree.Sketch

namespace PromptAudit.Tree

variable (t : Tree)

/-- A reference made of constants only, with or without a double colon before the first, and the
constants' names in order. -/
inductive Refers : Nat → List Text → Prop
  | constant {i : Nat} (type : t.type i = "constant") : Refers i [t.text i]
  | top {i name : Nat} (type : t.type i = "scope_resolution") (field : t.field i "name" = some name)
      (constant : t.type name = "constant") (first : t.field i "scope" = none) :
      Refers i [t.text name]
  | within {i name scope : Nat} {path : List Text} (type : t.type i = "scope_resolution")
      (field : t.field i "name" = some name) (constant : t.type name = "constant")
      (under : t.field i "scope" = some scope) (outer : Refers scope path) :
      Refers i (path ++ [t.text name])

/-- A reference of which some part is no constant. -/
inductive Foreign : Nat → Prop
  | other {i : Nat} (single : t.type i ≠ "constant") (chained : t.type i ≠ "scope_resolution") :
      Foreign i
  | nameless {i : Nat} (type : t.type i = "scope_resolution") (field : t.field i "name" = none) :
      Foreign i
  | name {i name : Nat} (type : t.type i = "scope_resolution")
      (field : t.field i "name" = some name) (other : t.type name ≠ "constant") : Foreign i
  | within {i scope : Nat} (type : t.type i = "scope_resolution")
      (under : t.field i "scope" = some scope) (outer : Foreign scope) : Foreign i

/-- A call of `new` on a receiver. -/
structure Instantiates (i receiver : Nat) : Prop where
  isCall : t.kind i = .call
  method : ∃ method, t.field i "method" = some method ∧ t.text method = "new".toList
  receiver : t.field i "receiver" = some receiver

variable {t} {policy : Policy} {i receiver : Nat} {path : List Text}

theorem constantPath_of_refers (refers : t.Refers i path) : t.constantPath i = some path := by
  induction refers with
  | constant type => rw [constantPath_eq, if_pos type]
  | top type field constant first =>
    rw [constantPath_eq, type, field, Option.bind_some, if_pos constant, first]
    rfl
  | within type field constant under _ ih =>
    rw [constantPath_eq, type, field, Option.bind_some, if_pos constant, under]
    simp only [String.reduceEq, if_false, if_true, ih, Option.map_some]

theorem constantPath_of_foreign (foreign : t.Foreign i) : t.constantPath i = none := by
  induction foreign with
  | other single chained => rw [constantPath_eq, if_neg single, if_neg chained]
  | nameless type field =>
    rw [constantPath_eq, type, field]
    rfl
  | name type field other =>
    rw [constantPath_eq, type, field, Option.bind_some, if_neg other]
    rfl
  | @within i scope type under _ ih =>
    rw [constantPath_eq, type, under]
    cases t.field i "name" <;> simp [ih]

/-- Every reference is made of constants only or has a part that is none. -/
theorem refers_or_foreign (i : Nat) : (∃ path, t.Refers i path) ∨ t.Foreign i := by
  fun_induction t.constantPath i with
  | case1 i type => exact .inl ⟨_, .constant type⟩
  | case2 i single chained nameless => exact .inr (.nameless chained nameless)
  | case3 i single chained name field constant first =>
    exact .inl ⟨_, .top chained field constant first⟩
  | case4 i single chained name field constant scope under ih =>
    rcases ih with ⟨path, outer⟩ | outer
    · exact .inl ⟨_, .within chained field constant under outer⟩
    · exact .inr (.within chained under outer)
  | case5 i single chained name field other => exact .inr (.name chained field other)
  | case6 i single chained => exact .inr (.other single chained)

theorem constructsClient_of_instantiates (new : t.Instantiates i receiver) :
    t.constructsClient policy i = true ↔
      ∃ path, t.constantPath receiver = some path ∧ path ∈ policy.clientPaths := by
  rw [constructsClient_iff]
  constructor
  · intro constructs
    obtain ⟨-, -, target, path, field, reads, listed⟩ := constructs
    rw [new.receiver, Option.some.injEq] at field
    subst field
    exact ⟨path, reads, listed⟩
  · intro constructs
    obtain ⟨path, reads, listed⟩ := constructs
    exact ⟨new.isCall, new.method, receiver, path, new.receiver, reads, listed⟩

theorem mem_clientPaths_iff :
    path ∈ policy.clientPaths ↔ ∃ name ∈ policy.clientTypes, Text.Matches name path := by
  simp only [Policy.clientPaths, List.mem_map, Text.matches_iff]

/-- A client is constructed by `new` on a reference made of constants only that has the segments of
a client type; a reference with any other part constructs none. A client type that is written from
its segments is met by just these, by no more and no fewer of them. A blank one is met by no
reference that shows anything, and one made of colons alone by none at all. -/
theorem client_types_match_exactly (new : t.Instantiates i receiver) :
    ((∃ path, t.Refers receiver path) ∨ t.Foreign receiver) ∧
    (t.Foreign receiver → t.constructsClient policy i = false) ∧
    ∀ path, t.Refers receiver path →
      (t.constructsClient policy i = true ↔
        ∃ name ∈ policy.clientTypes, Text.Matches name path) ∧
      (∀ segments name, Text.Qualified segments name → (∀ s ∈ segments, Text.IsSegment s) →
        (Text.Matches name path ↔ path = segments)) ∧
      (∀ name, Text.blank name = true → Text.Matches name path →
        ∀ s ∈ path, Text.blank s = true) ∧
      ((∀ s ∈ path, Text.IsSegment s) →
        ∀ name, (∀ c ∈ name, c = ':') → ¬ Text.Matches name path) := by
  refine ⟨refers_or_foreign receiver, fun foreign => ?_, fun path refers => ?_⟩
  · refine eq_false_of_ne_true fun constructs => ?_
    obtain ⟨path, reads, -⟩ := (constructsClient_of_instantiates new).mp constructs
    rw [constantPath_of_foreign foreign] at reads
    cases reads
  have reads : t.constantPath receiver = some path := constantPath_of_refers refers
  have constructs : t.constructsClient policy i = true ↔ path ∈ policy.clientPaths := by
    rw [constructsClient_of_instantiates new, reads]
    simp only [Option.some.injEq, exists_eq_left']
  refine ⟨constructs.trans mem_clientPaths_iff, fun segments name written single => ?_,
    fun name blank met s listed => ?_, fun single name colons met => ?_⟩
  · rw [Text.matches_iff, Text.segments_of_qualified single written, eq_comm]
  · exact List.all_eq_true.mpr fun c inside =>
      List.all_eq_true.mp blank c (Text.mem_of_matches met listed inside)
  · obtain ⟨s, listed⟩ := List.exists_mem_of_ne_nil path (constantPath_ne_nil reads)
    obtain ⟨filled, free⟩ := single s listed
    obtain ⟨c, inside⟩ := List.exists_mem_of_ne_nil s filled
    rw [colons c (Text.mem_of_matches met listed inside)] at inside
    exact free inside

open Shape (plain held)
open Forest (leaf only)

/-- The call `::AI::Client.new`. -/
def rooted : Tree where
  source := Text.encode "::AI::Client.new\n".toList
  root := plain "program" 0 17
  children :=
    only (plain "call" 0 16) <|
      .more (held "receiver" "scope_resolution" 0 12)
        (.more (held "scope" "scope_resolution" 0 4) (leaf (held "name" "constant" 2 4) .none) <|
          leaf (held "name" "constant" 6 12) .none) <|
      leaf (held "method" "identifier" 13 16) .none
  broken := false

/-- The reference meets a client type with just its segments, whatever blank ones stand beside it,
and it meets no beginning, continuation or end of its path. -/
theorem rooted_constructs :
    rooted.Instantiates 1 2 ∧ rooted.Refers 2 (["AI", "Client"].map String.toList) ∧
    rooted.constructsClient
      { Policy.standard with clientTypes := ["", "::", "AI::Client"].map String.toList } 1 = true ∧
    rooted.constructsClient
      { Policy.standard with
        clientTypes := ["AI", "AI::Client::V2", "::Client"].map String.toList } 1 = false := by
  have new : rooted.Instantiates 1 2 :=
    ⟨by decide +kernel, ⟨6, by decide +kernel, by decide +kernel⟩, by decide +kernel⟩
  have texts : rooted.text 4 = "AI".toList ∧ rooted.text 5 = "Client".toList := by decide +kernel
  have outer : rooted.Refers 3 [rooted.text 4] :=
    .top (by decide +kernel) (by decide +kernel) (by decide +kernel) (by decide +kernel)
  have refers : rooted.Refers 2 ([rooted.text 4] ++ [rooted.text 5]) :=
    .within (by decide +kernel) (by decide +kernel) (by decide +kernel) (by decide +kernel) outer
  rw [texts.1, texts.2] at refers
  refine ⟨new, refers, ?_, ?_⟩
  · obtain ⟨-, -, meets⟩ := client_types_match_exactly new
    refine (meets _ refers).1.mpr ⟨"AI::Client".toList, by decide, Text.matches_iff.mpr ?_⟩
    decide +kernel
  · obtain ⟨-, -, meets⟩ := client_types_match_exactly new
    obtain ⟨constructs, written, -⟩ := meets _ refers
    refine eq_false_of_ne_true fun built => ?_
    obtain ⟨name, listed, met⟩ := constructs.mp built
    rcases List.mem_cons.mp listed with rfl | listed
    · exact absurd ((written ["AI".toList] _ .relative (by decide)).mp met) (by decide)
    rcases List.mem_cons.mp listed with rfl | listed
    · exact absurd ((written (["AI", "Client", "V2"].map String.toList) _ .relative
        (by decide)).mp met) (by decide)
    · rw [List.mem_singleton.mp listed] at met
      exact absurd ((written ["Client".toList] _ .top (by decide)).mp met) (by decide)

end PromptAudit.Tree
