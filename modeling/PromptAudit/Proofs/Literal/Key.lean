import Mathlib.Algebra.Order.BigOperators.Group.List
import PromptAudit.Literal.Key
import PromptAudit.Proofs.Call.Keyword
import PromptAudit.Proofs.List.Matching
import PromptAudit.Proofs.Tree.Piece
import PromptAudit.Proofs.Tree.Sketch

namespace PromptAudit

namespace Wording

/-- An escape is read as it is written or as fewer characters. -/
theorem length_readEscape_lt {s : Text} (h : readEscape s ≠ s) :
    (readEscape s).length < s.length := by
  unfold readEscape at h ⊢
  split
  · split
    · exact Nat.one_lt_two
    · rename_i unknown
      exact absurd (by simp [unknown]) h
  · rename_i other
    refine absurd ?_ h
    split
    · exact absurd rfl (other _)
    · rfl

end Wording

/-- Texts in a row that never outgrow others are the same in all as those only when each is. -/
theorem flatMap_eq_iff_of_shorter {α : Type} {f g : α → Text} {nodes : List α}
    (shorter : ∀ c ∈ nodes, f c ≠ g c → (f c).length < (g c).length) :
    nodes.flatMap f = nodes.flatMap g ↔ ∀ c ∈ nodes, f c = g c := by
  refine ⟨fun same => ?_, fun each => List.flatMap_congr each⟩
  induction nodes with
  | nil => exact fun c listed => absurd listed List.not_mem_nil
  | cons first rest ih =>
    have le {c : α} (listed : c ∈ first :: rest) : (f c).length ≤ (g c).length := by
      by_cases differ : f c = g c
      · rw [differ]
      · exact (shorter c listed differ).le
    have sum : (rest.flatMap f).length ≤ (rest.flatMap g).length := by
      simp only [List.length_flatMap]
      exact List.sum_le_sum fun c listed => le (List.mem_cons_of_mem _ listed)
    rw [List.flatMap_cons, List.flatMap_cons] at same
    have total := congrArg List.length same
    simp only [List.length_append] at total
    have head := le List.mem_cons_self
    obtain ⟨here, later⟩ := List.append_inj same (by omega)
    rw [List.forall_mem_cons]
    exact ⟨here, ih (fun c listed => shorter c (List.mem_cons_of_mem _ listed)) later⟩

namespace Tree

open Wording

variable {t u : Tree} {pair key other otherKey : Nat} {inner : Text}

/-- The two ways to write a hash key between quotes: `"key" => 1` and `:"key" => 1`. -/
inductive KeyForm
  | string
  | symbol
  deriving DecidableEq, Repr

namespace KeyForm

def type : KeyForm → String
  | string => "string"
  | symbol => "delimited_symbol"

def opening : KeyForm → Text
  | string => []
  | symbol => [':']

end KeyForm

variable {form : KeyForm}

/-- A hash pair whose key is written between two equal quotes. -/
structure QuotedKey (t : Tree) (form : KeyForm) (pair key : Nat) (inner : Text) : Prop where
  kind : t.kind pair = .pair
  field : t.field pair "key" = some key
  type : t.type key = form.type
  text : ∃ quote ∈ ['\x22', '\x27'], t.text key = form.opening ++ (quote :: inner ++ [quote])

/-- A key that depends on the running program. -/
def isLiveKey (t : Tree) (key : Nat) : Bool := (t.childrenOf key).any t.isInterpolation

/-- The decoded pieces of a key, one behind the other. -/
def decodedKey (t : Tree) (key : Nat) : Text :=
  ((t.childrenOf key).filter t.isContent).flatMap t.partText

/-- What a key says to the running program, as far as the source tells. -/
def meantKey (t : Tree) (key : Nat) : Option Text :=
  if t.isLiveKey key then none else some (t.decodedKey key)

/-- Two keys with the same pieces between their quotes. -/
def SamePieces (t u : Tree) (key otherKey : Nat) : Prop :=
  List.Forall₂ (fun c d => t.type c = u.type d ∧ t.text c = u.text d)
    (t.childrenOf key) (u.childrenOf otherKey)

/-- Static pieces stand between the quotes, and nothing else. -/
structure WrittenOut (t : Tree) (key : Nat) (inner : Text) : Prop where
  content : ∀ c ∈ t.childrenOf key, t.isContent c = true
  text : (t.childrenOf key).flatMap t.text = inner

theorem partText_eq_or_shorter (c : Nat) (h : t.partText c ≠ t.text c) :
    (t.partText c).length < (t.text c).length := by
  unfold partText at h ⊢
  split
  · rename_i escape
    rw [if_pos escape] at h
    exact length_readEscape_lt h
  · rename_i plain
    rw [if_neg plain] at h
    exact absurd rfl h

theorem WrittenOut.not_live (written : t.WrittenOut key inner) : t.isLiveKey key = false := by
  refine List.any_eq_false.mpr fun c child => ?_
  rw [not_isInterpolation_of_isContent (written.content c child)]
  exact Bool.false_ne_true

/-- One escape with a value of its own is enough for a key to say something else than is written
between its quotes. -/
theorem WrittenOut.decodedKey_eq_iff (written : t.WrittenOut key inner) :
    t.decodedKey key = inner ↔ ∀ c ∈ t.childrenOf key, t.partText c = t.text c := by
  rw [decodedKey, List.filter_eq_self.mpr written.content, ← written.text]
  exact flatMap_eq_iff_of_shorter fun c _ => partText_eq_or_shorter c

theorem SamePieces.isLiveKey (same : t.SamePieces u key otherKey) :
    t.isLiveKey key = u.isLiveKey otherKey :=
  any_eq_of_matching (fun _ _ alike => by simp only [isInterpolation, alike.1]) same

theorem SamePieces.decodedKey (same : t.SamePieces u key otherKey) :
    t.decodedKey key = u.decodedKey otherKey := by
  refine flatMap_eq_of_matching (fun _ _ alike => ?_) (filter_matching (fun _ _ alike => ?_) same)
  · simp only [partText, alike.1, alike.2]
  · simp only [isContent, alike.1]

theorem SamePieces.meantKey (same : t.SamePieces u key otherKey) :
    t.meantKey key = u.meantKey otherKey := by
  rw [Tree.meantKey, Tree.meantKey, same.isLiveKey, same.decodedKey]

theorem unquoted_quote {quote : Char} (h : quote ∈ ['\x22', '\x27']) (inner : Text) :
    unquoted (quote :: inner ++ [quote]) = some inner := by
  have isQuote : quote = '\x22' ∨ quote = '\x27' := by simpa using h
  have last : (quote :: inner ++ [quote]).getLast? = some quote := List.getLast?_concat
  rw [unquoted, last]
  simp [isQuote]

theorem withoutColons_quote {quote : Char} (h : quote ∈ ['\x22', '\x27']) (rest : Text) :
    withoutColons (form.opening ++ quote :: rest) = quote :: rest := by
  have noColon : quote ≠ ':' := by
    rintro rfl
    exact absurd h (by decide)
  cases form <;> simp [KeyForm.opening, withoutColons, noColon]

namespace QuotedKey

theorem unquoted (quoted : t.QuotedKey form pair key inner) :
    unquoted (withoutColons (t.text key)) = some inner := by
  obtain ⟨quote, isQuote, text⟩ := quoted.text
  rw [text, List.cons_append, withoutColons_quote isQuote, ← List.cons_append,
    unquoted_quote isQuote]

/-- A quoted symbol is taken as it is written. -/
theorem pairKey_symbol (quoted : t.QuotedKey .symbol pair key inner) :
    t.pairKey pair = some inner := by
  have type : t.type key = "delimited_symbol" := quoted.type
  simp only [pairKey, quoted.kind, quoted.field, type, if_true, Option.bind_some,
    String.reduceEq, if_false, quoted.unquoted]

theorem isString (quoted : t.QuotedKey .string pair key inner) :
    (t.kind key).isString = true := by
  refine isString_of_string quoted.type fun p up chained => ?_
  have child := t.mem_childrenOf_of_field quoted.field
  rw [t.mem_childrenOf_iff.mp child, Option.some_inj] at up
  rw [← up, type_of_kind_pair quoted.kind] at chained
  exact absurd chained (by decide)

theorem kind_key (quoted : t.QuotedKey .string pair key inner) :
    t.kind key = if t.isLiveKey key then .composite else .literal := by
  have isString := quoted.isString
  have type : t.type key = "string" := quoted.type
  unfold Tree.kind at isString ⊢
  rw [if_pos type] at isString ⊢
  split
  · rename_i chained
    rw [if_pos chained] at isString
    cases isString
  · rfl

theorem wording_of_live (quoted : t.QuotedKey .string pair key inner)
    (live : t.isLiveKey key = true) : (t.wording key).any hasLive = true := by
  have composite := quoted.kind_key
  rw [if_pos live] at composite
  obtain ⟨c, child, interpolation⟩ := List.any_eq_true.mp live
  rw [t.any_hasLive_wording composite,
    t.hasLive_rawWording_iff (t.kind_eq_composite_iff.mp composite)]
  exact .string quoted.type child (of_decide_eq_true interpolation)

theorem wording_of_not_live (quoted : t.QuotedKey .string pair key inner)
    (fixed : t.isLiveKey key = false) :
    t.wording key =
      if Text.blank (t.decodedKey key) then none else some [.fixed (t.decodedKey key)] := by
  have literal := quoted.kind_key
  rw [if_neg (by simp [fixed])] at literal
  have raw : t.rawWording key = [.fixed (t.decodedKey key)] := by
    rw [rawWording_of_literal literal, pieces_of_literal literal, parts_of_literal literal]
    rfl
  simp [wording, quoted.isString, raw, hasLive, Fragment.isLive, Wording.fixedText,
    Fragment.fixedText]

/-- A string says nothing at run time that the source does not tell, unless it is blank: then it is
taken as it is written, too. -/
theorem pairKey_string (quoted : t.QuotedKey .string pair key inner) :
    t.pairKey pair =
      if t.isLiveKey key then none
      else if Text.blank (t.decodedKey key) then some inner
      else some (t.decodedKey key) := by
  have type : t.type key = "string" := quoted.type
  simp only [pairKey, quoted.kind, quoted.field, type, if_true, Option.bind_some,
    String.reduceEq, if_false]
  cases live : t.isLiveKey key with
  | true =>
    obtain ⟨w, told, isLive⟩ := (Option.any_eq_true _ _).mp (quoted.wording_of_live live)
    simp only [told, isLive, if_true]
  | false =>
    rw [quoted.wording_of_not_live live]
    cases Text.blank (t.decodedKey key) with
    | true => exact quoted.unquoted
    | false => simp [hasLive, Fragment.isLive, Wording.fixedText, Fragment.fixedText]

theorem pairKey_eq_meantKey_iff (quoted : t.QuotedKey form pair key inner) :
    t.pairKey pair = t.meantKey key ↔
      form = .string ∧ (t.isLiveKey key = true ∨ Text.blank (t.decodedKey key) = false) ∨
        t.isLiveKey key = false ∧ t.decodedKey key = inner := by
  have turned : inner = t.decodedKey key ↔ t.decodedKey key = inner := eq_comm
  cases form with
  | symbol =>
    rw [quoted.pairKey_symbol, meantKey]
    cases t.isLiveKey key <;> simp [turned]
  | string =>
    rw [quoted.pairKey_string, meantKey]
    cases t.isLiveKey key with
    | true => simp
    | false => cases Text.blank (t.decodedKey key) <;> simp [turned]

theorem pairKey_eq_meantKey_iff_of_writtenOut (quoted : t.QuotedKey form pair key inner)
    (written : t.WrittenOut key inner) :
    t.pairKey pair = t.meantKey key ↔
      form = .string ∧ Text.blank (t.decodedKey key) = false ∨
        ∀ c ∈ t.childrenOf key, t.partText c = t.text c := by
  rw [quoted.pairKey_eq_meantKey_iff, written.not_live, written.decodedKey_eq_iff]
  simp

/-- The two forms of one key agree unless the string form knows better. -/
theorem pairKey_eq_pairKey_iff (string : t.QuotedKey .string pair key inner)
    (symbol : u.QuotedKey .symbol other otherKey inner) :
    t.pairKey pair = u.pairKey other ↔
      t.isLiveKey key = false ∧
        (Text.blank (t.decodedKey key) = true ∨ t.decodedKey key = inner) := by
  rw [string.pairKey_string, symbol.pairKey_symbol]
  cases t.isLiveKey key with
  | true => simp
  | false => cases Text.blank (t.decodedKey key) <;> simp

end QuotedKey

/-- A quoted key is read as what it means exactly when it is a string that depends on the running
program or shows something, or when it does not depend on the running program and means what is
written between its quotes, so that none of its escapes has a value of its own. -/
theorem quoted_key_iff (quoted : t.QuotedKey form pair key inner) :
    (t.pairKey pair = t.meantKey key ↔
      form = .string ∧ (t.isLiveKey key = true ∨ Text.blank (t.decodedKey key) = false) ∨
        t.isLiveKey key = false ∧ t.decodedKey key = inner) ∧
    (t.WrittenOut key inner → (t.pairKey pair = t.meantKey key ↔
      form = .string ∧ Text.blank (t.decodedKey key) = false ∨
        ∀ c ∈ t.childrenOf key, t.partText c = t.text c)) ∧
    (form = .string → ∀ {u : Tree} {other otherKey : Nat},
      u.QuotedKey .symbol other otherKey inner → t.SamePieces u key otherKey →
        t.meantKey key = u.meantKey otherKey ∧ (t.pairKey pair = u.pairKey other ↔
          t.isLiveKey key = false ∧
            (Text.blank (t.decodedKey key) = true ∨ t.decodedKey key = inner))) := by
  refine ⟨quoted.pairKey_eq_meantKey_iff, quoted.pairKey_eq_meantKey_iff_of_writtenOut, ?_⟩
  rintro rfl u other otherKey symbol same
  exact ⟨same.meantKey, quoted.pairKey_eq_pairKey_iff symbol⟩

open Shape (plain held)
open Forest (leaf only more)

/-- The assignment `x = {"a\n" => 1, :"a\n" => 2, "\n" => 3, :"b#{c}" => 4}`. -/
def quotedKeys : Tree where
  source := Text.encode ("x = \x7b\x22a\\n\x22 => 1, :\x22a\\n\x22 => 2, " ++
    "\x22\\n\x22 => 3, :\x22b#\x7bc\x7d\x22 => 4\x7d\n").toList
  root := plain "program" 0 56
  children :=
    only (plain "assignment" 0 55) <|
      leaf (held "left" "identifier" 0 1) <|
      only (held "right" "hash" 4 55) <|
        more (plain "pair" 5 15)
          (more (held "key" "string" 5 10)
            (leaf (plain "string_content" 6 7) <| leaf (plain "escape_sequence" 7 9) .none) <|
          leaf (held "value" "integer" 14 15) .none) <|
        more (plain "pair" 17 28)
          (more (held "key" "delimited_symbol" 17 23)
            (leaf (plain "string_content" 19 20) <| leaf (plain "escape_sequence" 20 22) .none) <|
          leaf (held "value" "integer" 27 28) .none) <|
        more (plain "pair" 30 39)
          (more (held "key" "string" 30 34) (leaf (plain "escape_sequence" 31 33) .none) <|
          leaf (held "value" "integer" 38 39) .none) <|
        only (plain "pair" 41 54) <|
          more (held "key" "delimited_symbol" 41 49)
            (leaf (plain "string_content" 43 44) <|
            only (plain "interpolation" 44 48) (leaf (plain "identifier" 46 47) .none)) <|
          leaf (held "value" "integer" 53 54) .none
  broken := false

/-- Of the two forms of a key with an escape only the string is read as it is meant. -/
theorem escaped_key_read :
    quotedKeys.QuotedKey .string 4 5 "a\\n".toList ∧
      quotedKeys.QuotedKey .symbol 9 10 "a\\n".toList ∧
      quotedKeys.SamePieces quotedKeys 5 10 ∧ quotedKeys.WrittenOut 10 "a\\n".toList ∧
      quotedKeys.pairKey 4 = quotedKeys.meantKey 5 ∧
      quotedKeys.pairKey 9 ≠ quotedKeys.meantKey 10 ∧
      quotedKeys.pairKey 4 ≠ quotedKeys.pairKey 9 := by
  have string : quotedKeys.QuotedKey .string 4 5 "a\\n".toList :=
    ⟨by decide +kernel, by decide +kernel, by decide +kernel, '\x22', by decide, by decide +kernel⟩
  have symbol : quotedKeys.QuotedKey .symbol 9 10 "a\\n".toList :=
    ⟨by decide +kernel, by decide +kernel, by decide +kernel, '\x22', by decide, by decide +kernel⟩
  have left : quotedKeys.childrenOf 5 = [6, 7] := by decide +kernel
  have right : quotedKeys.childrenOf 10 = [11, 12] := by decide +kernel
  have same : quotedKeys.SamePieces quotedKeys 5 10 := by
    rw [SamePieces, left, right]
    exact .cons (by decide +kernel) (.cons (by decide +kernel) .nil)
  have written : quotedKeys.WrittenOut 10 "a\\n".toList := by
    constructor <;> decide +kernel
  obtain ⟨asMeant, -, agree⟩ := quoted_key_iff string
  obtain ⟨-, asWritten, -⟩ := quoted_key_iff symbol
  refine ⟨string, symbol, same, written, asMeant.mpr (.inl (by decide +kernel)), ?_, ?_⟩
  · rw [Ne, asWritten written]
    decide +kernel
  · rw [Ne, (agree rfl symbol same).2]
    decide +kernel

/-- A symbol with an interpolation, one with an escape and a blank string are read as written. -/
theorem interpolated_symbol_read :
    (quotedKeys.QuotedKey .symbol 18 19 "b#\x7bc\x7d".toList ∧ quotedKeys.isLiveKey 19 = true ∧
      quotedKeys.pairKey 18 = some "b#\x7bc\x7d".toList) ∧
    (quotedKeys.QuotedKey .symbol 9 10 "a\\n".toList ∧
      quotedKeys.meantKey 10 = some "a\n".toList ∧
      quotedKeys.pairKey 9 = some "a\\n".toList) ∧
    (quotedKeys.QuotedKey .string 14 15 "\\n".toList ∧
      quotedKeys.meantKey 15 = some "\n".toList ∧
      quotedKeys.pairKey 14 = some "\\n".toList) := by
  refine ⟨⟨?interpolated, ?_⟩, ⟨?escaped, ?_⟩, ?blank, ?_⟩
  case interpolated | escaped | blank =>
    refine ⟨?_, ?_, ?_, '\x22', ?_, ?_⟩ <;> decide +kernel
  all_goals decide +kernel

end Tree

end PromptAudit
