import Mathlib.Data.List.Lex
import PromptAudit.Text.Basic

namespace PromptAudit.Text

/-- A text stands before another one where they first differ by a smaller code point, or where it
ends first. -/
def Before : Text → Text → Prop := List.Lex fun a b : Char => a.toNat < b.toNat

instance : Std.Asymm Before :=
  haveI : Std.Asymm fun a b : Char => a.toNat < b.toNat := ⟨fun _ _ => Nat.lt_asymm⟩
  inferInstanceAs (Std.Asymm (List.Lex _))

theorem before_cons_iff {a b : Char} {s t : Text} :
    Before (a :: s) (b :: t) ↔ a.toNat < b.toNat ∨ a = b ∧ Before s t := by
  constructor
  · intro h
    cases h with
    | rel less => exact .inl less
    | cons rest => exact .inr ⟨rfl, rest⟩
  · intro h
    rcases h with less | ⟨rfl, rest⟩
    · exact .rel less
    · exact .cons rest

theorem notAfter_iff {s t : Text} : notAfter s t = true ↔ s = t ∨ Before s t := by
  induction s generalizing t with
  | nil =>
    cases t with
    | nil => exact iff_of_true rfl (.inl rfl)
    | cons b t => exact iff_of_true rfl (.inr .nil)
  | cons a s ih =>
    cases t with
    | nil =>
      refine iff_of_false (fun h => by cases h) fun h => ?_
      rcases h with h | h <;> cases h
    | cons b t =>
      rw [notAfter, before_cons_iff, Bool.or_eq_true, Bool.and_eq_true, decide_eq_true_eq,
        decide_eq_true_eq, Char.toNat_inj, ih, List.cons_eq_cons]
      constructor
      · intro h
        rcases h with less | ⟨rfl, rfl | rest⟩
        · exact .inr (.inl less)
        · exact .inl ⟨rfl, rfl⟩
        · exact .inr (.inr ⟨rfl, rest⟩)
      · intro h
        rcases h with ⟨rfl, rfl⟩ | less | ⟨rfl, rest⟩
        · exact .inr ⟨rfl, .inl rfl⟩
        · exact .inl less
        · exact .inr ⟨rfl, .inr rest⟩

theorem before_trans {r s t : Text} (h : Before r s) (k : Before s t) : Before r t := by
  induction h generalizing t with
  | nil => cases k <;> exact .nil
  | rel less =>
    rcases t with _ | ⟨c, t⟩
    · cases k
    · rcases before_cons_iff.mp k with more | ⟨rfl, -⟩
      · exact .rel (Nat.lt_trans less more)
      · exact .rel less
  | cons _ ih =>
    rcases t with _ | ⟨c, t⟩
    · cases k
    · rcases before_cons_iff.mp k with less | ⟨rfl, rest⟩
      · exact .rel less
      · exact .cons (ih rest)

theorem before_total (s t : Text) : s = t ∨ Before s t ∨ Before t s := by
  induction s generalizing t with
  | nil =>
    cases t with
    | nil => exact .inl rfl
    | cons b t => exact .inr (.inl .nil)
  | cons a s ih =>
    cases t with
    | nil => exact .inr (.inr .nil)
    | cons b t =>
      rcases Nat.lt_trichotomy a.toNat b.toNat with less | same | more
      · exact .inr (.inl (.rel less))
      · have same : a = b := Char.toNat_inj.mp same
        subst same
        rcases ih t with rfl | before | after
        · exact .inl rfl
        · exact .inr (.inl (.cons before))
        · exact .inr (.inr (.cons after))
      · exact .inr (.inr (.rel more))

theorem nodup_eraseDups (names : List Text) : names.eraseDups.Nodup := by
  match names with
  | [] => exact List.nodup_nil
  | name :: rest =>
    rw [List.eraseDups_cons]
    refine List.nodup_cons.mpr ⟨fun again => ?_, nodup_eraseDups _⟩
    have kept := List.mem_filter.mp (List.mem_eraseDups.mp again)
    simp at kept
termination_by names.length
decreasing_by exact Nat.lt_succ_of_le (List.length_filter_le _ _)

theorem notAfter_trans {r s t : Text} (h : notAfter r s = true) (k : notAfter s t = true) :
    notAfter r t = true := by
  rw [notAfter_iff] at *
  rcases h with rfl | h
  · exact k
  · rcases k with rfl | k
    · exact .inr h
    · exact .inr (before_trans h k)

theorem notAfter_total (s t : Text) : (notAfter s t || notAfter t s) = true := by
  rw [Bool.or_eq_true, notAfter_iff, notAfter_iff]
  rcases before_total s t with same | before | after
  · exact .inl (.inl same)
  · exact .inl (.inr before)
  · exact .inr (.inr after)

/-- Items that are sorted by their names stand strictly in order when no two have the same. -/
theorem map_mergeSort_notAfter_pairwise {α : Type} (name : α → Text) {items : List α}
    (distinct : (items.map name).Nodup) :
    ((items.mergeSort fun a b => notAfter (name a) (name b)).map name).Pairwise Before := by
  let inOrder (a b : α) : Bool := notAfter (name a) (name b)
  have trans (a b c : α) (h : inOrder a b = true) (k : inOrder b c = true) :
      inOrder a c = true := notAfter_trans h k
  have total (a b : α) : (inOrder a b || inOrder b a) = true := notAfter_total _ _
  have sorted : ((items.mergeSort inOrder).map name).Pairwise fun s t => notAfter s t = true :=
    List.pairwise_map.mpr (List.pairwise_mergeSort trans total items)
  have different : ((items.mergeSort inOrder).map name).Nodup :=
    ((List.mergeSort_perm items inOrder).map name).nodup_iff.mpr distinct
  refine sorted.imp₂ (fun s t ordered apart => ?_) different
  exact (notAfter_iff.mp ordered).resolve_left apart

theorem mergeSort_notAfter_pairwise {names : List Text} (distinct : names.Nodup) :
    (names.mergeSort notAfter).Pairwise Before := by
  simpa using map_mergeSort_notAfter_pairwise id (by simpa using distinct)

end PromptAudit.Text
