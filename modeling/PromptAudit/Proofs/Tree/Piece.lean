import PromptAudit.Proofs.Tree.Body
import PromptAudit.Proofs.Tree.Copy
import PromptAudit.Proofs.Tree.Pairing

namespace PromptAudit.Tree

open Wording

variable (t : Tree)

/-- Written text or an escape in the body of a heredoc. -/
def isBodyText (c : Nat) : Bool := t.type c = "heredoc_content" || t.type c = "escape_sequence"

def isInterpolation (c : Nat) : Bool := t.type c = "interpolation"

def stringParts (i : Nat) : List Nat :=
  (t.childrenOf i).filter fun c => t.isInterpolation c || t.isContent c

def bodyParts (b : Nat) : List Nat :=
  (t.childrenOf b).filter fun c => t.isInterpolation c || t.isBodyText c

/-- The nodes that a string node is read from, in order: content and interpolations of the string,
of the strings of a chain, or of the body of a heredoc. -/
def parts (i : Nat) : List Nat :=
  if t.type i = "chained_string" then
    ((t.childrenOf i).filter (t.type · = "string")).flatMap t.stringParts
  else if t.type i = "heredoc_beginning" then (t.heredocBody i).toList.flatMap t.bodyParts
  else if (t.kind i).isString then t.stringParts i
  else []

/-- The parts of a string node that hold text of its own. -/
def pieces (i : Nat) : List Nat := (t.parts i).filter fun c => !t.isInterpolation c

/-- Literal text that some string node has to say: in a string, or in a body that stands for an
opening. -/
inductive IsPiece (c : Nat) : Prop
  | string {s : Nat} (string : t.type s = "string") (child : c ∈ t.childrenOf s)
      (content : t.isContent c = true)
  | body {opening body : Nat} (paired : t.heredocBody opening = some body)
      (child : c ∈ t.childrenOf body) (written : t.isBodyText c = true)

/-- Text belongs to its string, to the chain that the string is a link of, or to the opening of its
heredoc. -/
inductive Owns (i c : Nat) : Prop
  | string (string : t.type i = "string")
      (alone : ∀ p, t.parent i = some p → t.type p ≠ "chained_string")
      (child : c ∈ t.childrenOf i) (content : t.isContent c = true)
  | chain {s : Nat} (chain : t.type i = "chained_string") (link : s ∈ t.childrenOf i)
      (string : t.type s = "string") (child : c ∈ t.childrenOf s)
      (content : t.isContent c = true)
  | heredoc {body : Nat} (paired : t.heredocBody i = some body) (child : c ∈ t.childrenOf body)
      (written : t.isBodyText c = true)

/-- What a part of a string says. -/
def fragment (c : Nat) : Fragment :=
  if t.isInterpolation c then .live (t.text c) else .fixed (t.partText c)

variable {t} {i j c : Nat}

theorem not_isInterpolation_of_isContent (h : t.isContent c = true) :
    t.isInterpolation c = false := by
  simp only [isContent, Bool.or_eq_true, decide_eq_true_eq] at h
  rcases h with (type | type) | type <;> simp [isInterpolation, type]

theorem not_isInterpolation_of_isBodyText (h : t.isBodyText c = true) :
    t.isInterpolation c = false := by
  simp only [isBodyText, Bool.or_eq_true, decide_eq_true_eq] at h
  rcases h with type | type <;> simp [isInterpolation, type]

theorem type_of_opening {body : Nat} (paired : t.heredocBody i = some body) :
    t.type i = "heredoc_beginning" := by
  have listed := (List.of_mem_zip (t.heredocBody_eq_some_iff.mp paired)).1
  exact of_decide_eq_true (List.mem_filter.mp (List.mem_mergeSort.mp listed)).2

/-- Two openings have two bodies. -/
theorem heredocBody_inj {body : Nat} (first : t.heredocBody i = some body)
    (second : t.heredocBody j = some body) : i = j := by
  rcases related_of_pairwise t.heredocs_pairwise (t.heredocBody_eq_some_iff.mp first)
    (t.heredocBody_eq_some_iff.mp second) with same | rel | rel
  · exact congrArg Prod.fst same
  · exact absurd rel.2 (t.before_irrefl body)
  · exact absurd rel.2 (t.before_irrefl body)

theorem isString_of_string (string : t.type i = "string")
    (alone : ∀ p, t.parent i = some p → t.type p ≠ "chained_string") :
    (t.kind i).isString = true := by
  have unchained : (t.parent i).any (t.type · = "chained_string") = false := by
    cases up : t.parent i with
    | none => rfl
    | some p => simpa using alone p up
  rw [kind, if_pos string, if_neg (by simp [unchained])]
  split <;> rfl

theorem alone_of_isString (h : (t.kind i).isString = true) (string : t.type i = "string") :
    ∀ p, t.parent i = some p → t.type p ≠ "chained_string" := by
  intro p up chained
  rw [kind, if_pos string, if_pos (by simp [up, chained])] at h
  cases h

theorem isString_of_chain (h : t.type i = "chained_string") : (t.kind i).isString = true := by
  rw [t.kind_eq_composite_iff.mpr (.chain h)]
  rfl

theorem isString_of_opening (h : t.type i = "heredoc_beginning") : (t.kind i).isString = true := by
  rw [t.kind_eq_composite_iff.mpr (.heredoc h)]
  rfl

/-- A string node is a heredoc, a chain, or a string outside a chain. -/
theorem type_of_isString (h : (t.kind i).isString = true) (chain : t.type i ≠ "chained_string")
    (opening : t.type i ≠ "heredoc_beginning") : t.type i = "string" := by
  by_contra other
  simp only [kind, other, chain, opening, decide_false, Bool.or_false, Bool.false_eq_true,
    if_false] at h
  split_ifs at h <;> cases h

/-- Among parts, what is no interpolation is text. -/
theorem mem_filter_parts_iff {holds : Nat → Bool} (nodes : List Nat)
    (apart : holds c = true → t.isInterpolation c = false) :
    (c ∈ nodes.filter (fun c => t.isInterpolation c || holds c) ∧ t.isInterpolation c = false) ↔
      c ∈ nodes ∧ holds c = true := by
  simp only [List.mem_filter, Bool.or_eq_true, and_assoc]
  refine and_congr_right fun _ => ⟨fun h => ?_, fun h => ?_⟩
  · exact h.1.resolve_left (by simp [h.2])
  · exact ⟨.inr h, apart h⟩

theorem mem_pieces_iff : c ∈ t.pieces i ↔ t.Owns i c := by
  have inString (s : Nat) : (c ∈ t.stringParts s ∧ t.isInterpolation c = false) ↔
      c ∈ t.childrenOf s ∧ t.isContent c = true :=
    mem_filter_parts_iff (t.childrenOf s) not_isInterpolation_of_isContent
  have inBody (b : Nat) : (c ∈ t.bodyParts b ∧ t.isInterpolation c = false) ↔
      c ∈ t.childrenOf b ∧ t.isBodyText c = true :=
    mem_filter_parts_iff (t.childrenOf b) not_isInterpolation_of_isBodyText
  rw [pieces, List.mem_filter, Bool.not_eq_true', parts]
  constructor
  · intro h
    obtain ⟨listed, written⟩ := h
    split_ifs at listed with chain opening isString
    · obtain ⟨s, link, inside⟩ := List.mem_flatMap.mp listed
      obtain ⟨link, string⟩ := List.mem_filter.mp link
      obtain ⟨child, content⟩ := (inString s).mp ⟨inside, written⟩
      exact .chain chain link (of_decide_eq_true string) child content
    · obtain ⟨b, paired, inside⟩ := List.mem_flatMap.mp listed
      obtain ⟨child, content⟩ := (inBody b).mp ⟨inside, written⟩
      exact .heredoc (Option.mem_toList.mp paired) child content
    · have string := type_of_isString isString chain opening
      obtain ⟨child, content⟩ := (inString i).mp ⟨listed, written⟩
      exact .string string (alone_of_isString isString string) child content
    · exact absurd listed List.not_mem_nil
  · intro owns
    cases owns with
    | string string alone child content =>
      rw [if_neg (by rw [string]; decide), if_neg (by rw [string]; decide),
        if_pos (isString_of_string string alone)]
      exact (inString i).mpr ⟨child, content⟩
    | @chain s chain link string child content =>
      rw [if_pos chain]
      obtain ⟨inside, written⟩ := (inString s).mpr ⟨child, content⟩
      exact ⟨List.mem_flatMap.mpr ⟨s, List.mem_filter.mpr ⟨link, decide_eq_true string⟩, inside⟩,
        written⟩
    | @heredoc b paired child content =>
      have opening := type_of_opening paired
      rw [if_neg (by rw [opening]; decide), if_pos opening]
      obtain ⟨inside, written⟩ := (inBody b).mpr ⟨child, content⟩
      exact ⟨List.mem_flatMap.mpr ⟨b, Option.mem_toList.mpr paired, inside⟩, written⟩

theorem Owns.isString (owns : t.Owns i c) : (t.kind i).isString = true := by
  cases owns with
  | string string alone => exact isString_of_string string alone
  | chain chain => exact isString_of_chain chain
  | heredoc paired => exact isString_of_opening (type_of_opening paired)

theorem Owns.isPiece (owns : t.Owns i c) : t.IsPiece c := by
  cases owns with
  | string string _ child content => exact .string string child content
  | chain _ _ string child content => exact .string string child content
  | heredoc paired child written => exact .body paired child written

theorem IsPiece.exists_owns (piece : t.IsPiece c) : ∃ i, t.Owns i c := by
  cases piece with
  | body paired child written => exact ⟨_, .heredoc paired child written⟩
  | @string s string child content =>
    by_cases chained : ∃ p, t.parent s = some p ∧ t.type p = "chained_string"
    · obtain ⟨p, up, chain⟩ := chained
      exact ⟨p, .chain chain (t.mem_childrenOf_iff.mpr up) string child content⟩
    · exact ⟨s, .string string (fun p up chain => chained ⟨p, up, chain⟩) child content⟩

/-- The container of a piece decides who owns it. -/
theorem Owns.unique (first : t.Owns i c) (second : t.Owns j c) : i = j := by
  have parent {p q : Nat} (hp : c ∈ t.childrenOf p) (hq : c ∈ t.childrenOf q) : p = q :=
    Option.some.inj ((t.mem_childrenOf_iff.mp hp).symm.trans (t.mem_childrenOf_iff.mp hq))
  have apart {s b o : Nat} (string : t.type s = "string") (paired : t.heredocBody o = some b)
      (hs : c ∈ t.childrenOf s) (hb : c ∈ t.childrenOf b) : False := by
    have type := type_of_heredocBody paired
    rw [← parent hs hb, string] at type
    exact absurd type (by decide)
  cases first with
  | string string alone child =>
    cases second with
    | string _ _ other => exact parent child other
    | chain chain link _ other =>
      cases parent child other
      exact absurd chain (alone _ (t.mem_childrenOf_iff.mp link))
    | heredoc paired other => exact (apart string paired child other).elim
  | chain chain link string child =>
    cases second with
    | string _ alone other =>
      cases parent child other
      exact absurd chain (alone _ (t.mem_childrenOf_iff.mp link))
    | chain _ others _ other =>
      cases parent child other
      exact Option.some.inj
        ((t.mem_childrenOf_iff.mp link).symm.trans (t.mem_childrenOf_iff.mp others))
    | heredoc paired other => exact (apart string paired child other).elim
  | heredoc paired child =>
    cases second with
    | string string _ other => exact (apart string paired other child).elim
    | chain _ _ string other => exact (apart string paired other child).elim
    | heredoc others other =>
      cases parent child other
      exact heredocBody_inj paired others

theorem stringParts_sublist (i : Nat) : (t.stringParts i).Sublist (t.descendants i) :=
  List.filter_sublist.trans (t.childrenOf_sublist i)

theorem bodyParts_sublist (b : Nat) : (t.bodyParts b).Sublist (t.descendants b) :=
  List.filter_sublist.trans (t.childrenOf_sublist b)

theorem parts_pairwise (i : Nat) : (t.parts i).Pairwise (· < ·) := by
  unfold parts
  split_ifs
  · have links : (((t.childrenOf i).filter (t.type · = "string")).flatMap t.stringParts).Sublist
        ((t.childrenOf i).flatMap t.stringParts) := List.filter_sublist.flatMap _
    refine (t.descendants_pairwise i).sublist (links.trans ?_)
    exact t.flatMap_childrenOf_sublist (fun c => .cons c (stringParts_sublist c)) i
  · cases t.heredocBody i with
    | none => exact .nil
    | some b =>
      rw [Option.toList_some, List.flatMap_singleton]
      exact (t.descendants_pairwise b).sublist (bodyParts_sublist b)
  · exact (t.descendants_pairwise i).sublist (stringParts_sublist i)
  · exact .nil

theorem pieces_nodup (i : Nat) : (t.pieces i).Nodup :=
  ((parts_pairwise i).filter _).imp Nat.ne_of_lt

theorem stringWording_eq_map (i : Nat) : t.stringWording i = (t.stringParts i).map t.fragment := by
  rw [stringWording, stringParts]
  induction t.childrenOf i with
  | nil => rfl
  | cons c rest ih =>
    rw [List.flatMap_cons, ih, stringPart]
    by_cases live : t.type c = "interpolation"
    · rw [if_pos live, List.filter_cons_of_pos (by simp [isInterpolation, live]), List.map_cons]
      simp [fragment, isInterpolation, live]
    · by_cases content : t.isContent c = true
      · rw [if_neg live, if_pos content, List.filter_cons_of_pos (by simp [content]), List.map_cons]
        simp [fragment, isInterpolation, live]
      · rw [if_neg live, if_neg content,
          List.filter_cons_of_neg (by simp [isInterpolation, live, content]), List.nil_append]

theorem rawWording_of_composite (composite : t.kind i = .composite)
    (plain : t.type i ≠ "heredoc_beginning") : t.rawWording i = (t.parts i).map t.fragment := by
  simp only [rawWording, composite, parts, if_neg plain]
  split_ifs with chain isString
  · rw [chainWording, List.map_flatMap, funext stringWording_eq_map]
  · exact stringWording_eq_map i
  · exact absurd rfl isString

theorem flatMap_heredocPart_bodyParts (b : Nat) :
    (t.bodyParts b).flatMap t.heredocPart = (t.childrenOf b).flatMap t.heredocPart := by
  rw [bodyParts]
  induction t.childrenOf b with
  | nil => rfl
  | cons c rest ih =>
    rw [List.flatMap_cons, ← ih, List.filter_cons]
    split_ifs with part
    · rw [List.flatMap_cons]
    · have silent : t.heredocPart c = [] := by
        simp only [isInterpolation, isBodyText, Bool.or_eq_true, decide_eq_true_eq, not_or] at part
        rw [heredocPart, if_neg part.1, if_neg part.2.1, if_neg part.2.2]
      rw [silent, List.nil_append]

theorem rawWording_of_opening (opening : t.type i = "heredoc_beginning") :
    t.rawWording i = ofHeredoc (t.isSquiggly i) ((t.parts i).flatMap t.heredocPart) := by
  have chain : t.type i ≠ "chained_string" := by rw [opening]; decide
  rw [rawWording, t.kind_eq_composite_iff.mpr (.heredoc opening), parts]
  simp only [if_neg chain, if_pos opening, heredocWording]
  cases t.heredocBody i with
  | none => cases t.isSquiggly i <;> rfl
  | some b =>
    simp only [Option.toList_some, List.flatMap_singleton, flatMap_heredocPart_bodyParts]
    rfl

theorem type_of_literal (literal : t.kind i = .literal) : t.type i = "string" := by
  by_contra other
  simp only [kind, if_neg other] at literal
  split_ifs at literal

theorem not_isInterpolation_of_literal (literal : t.kind i = .literal)
    (child : c ∈ t.childrenOf i) : t.isInterpolation c = false := by
  have string := type_of_literal literal
  simp only [kind, if_pos string] at literal
  split_ifs at literal with chained live
  simpa [isInterpolation] using fun type => live (List.any_eq_true.mpr ⟨c, child, type⟩)

/-- A literal has no interpolation among its parts. -/
theorem parts_of_literal (literal : t.kind i = .literal) :
    t.parts i = (t.childrenOf i).filter t.isContent := by
  have string := type_of_literal literal
  rw [parts, if_neg (by rw [string]; decide), if_neg (by rw [string]; decide),
    if_pos (by rw [literal]; rfl), stringParts]
  refine List.filter_congr fun c child => ?_
  rw [not_isInterpolation_of_literal literal child, Bool.false_or]

theorem pieces_of_literal (literal : t.kind i = .literal) : t.pieces i = t.parts i := by
  rw [pieces, parts_of_literal literal, List.filter_filter]
  refine List.filter_congr fun c child => ?_
  rw [not_isInterpolation_of_literal literal child, Bool.not_false, Bool.true_and]

theorem rawWording_of_literal (literal : t.kind i = .literal) :
    t.rawWording i = [.fixed ((t.pieces i).flatMap t.partText)] := by
  simp only [rawWording, literal, pieces_of_literal literal, parts_of_literal literal]

/-- The text known of fragments is that of the parts that are no interpolations. -/
theorem fixedText_map_fragment (nodes : List Nat) :
    Wording.fixedText (nodes.map t.fragment) =
      (nodes.filter fun c => !t.isInterpolation c).flatMap t.partText := by
  induction nodes with
  | nil => rfl
  | cons c rest ih =>
    simp only [Wording.fixedText] at ih
    rw [List.map_cons, Wording.fixedText, List.flatMap_cons, ih, fragment]
    cases live : t.isInterpolation c <;> simp [live, Fragment.fixedText]

/-- A string or a chain says its pieces, one behind the other. -/
theorem fixedText_rawWording (isString : (t.kind i).isString = true)
    (plain : t.type i ≠ "heredoc_beginning") :
    (t.rawWording i).fixedText = (t.pieces i).flatMap t.partText := by
  cases kind : t.kind i with
  | literal =>
    rw [rawWording_of_literal kind]
    simp [Wording.fixedText, Fragment.fixedText]
  | composite => rw [rawWording_of_composite kind plain, fixedText_map_fragment, pieces]
  | _ => simp [kind, Kind.isString] at isString

end PromptAudit.Tree
