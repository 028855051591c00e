import PromptAudit.Meter

namespace PromptAudit.Meter

/-- Counts some texts one after the other, with what is said at each. -/
def countEach (m : Meter) : List Text → List (Count × List Notice) × Meter
  | [] => ([], m)
  | t :: rest =>
      let (count, next, notices) := m.count t
      let (counts, last) := countEach next rest
      ((count, notices) :: counts, last)

/-- What a meter is made of: the name of an encoding with the way to load it by its name, and maybe
an encoder of its own. -/
structure Origin where
  encoding : Text
  given : Option Encoder
  load : Encoder.Loader

namespace Origin

variable (o : Origin)

/-- The encoder to count with, or why there is none. -/
def supply : Except Text Encoder :=
  match o.given with
  | some encoder => .ok encoder
  | none => o.load o.encoding

/-- The tokens of a text, or why they cannot be told. -/
def tell (t : Text) : Except Text Nat := o.supply.bind fun encoder => encoder t

def fails (t : Text) : Bool := !(o.tell t).isOk

/-- The tokens of a text, or an estimate of one for four characters. -/
def answer (t : Text) : Count :=
  match o.tell t with
  | .ok n => ⟨n, false⟩
  | .error _ => ⟨t.length / 4, true⟩

def warning (t : Text) : List Notice :=
  match o.tell t with
  | .ok _ => []
  | .error reason => [.approximated o.encoding reason]

def fresh : Meter := { encoding := o.encoding, encoder := o.given, load := o.load }

/-- A meter that has counted some texts. -/
def after (seen : List Text) : Meter where
  encoding := o.encoding
  encoder := if seen.isEmpty then o.given else o.supply.toOption
  loads := if o.given.isSome || seen.isEmpty then 0 else 1
  failed := !seen.isEmpty && !o.supply.isOk
  warned := seen.any o.fails
  load := o.load

variable {o}

theorem after_nil : o.after [] = o.fresh := by
  cases o with
  | mk encoding given load => simp [after, fresh]

theorem tell_of_supplied {encoder : Encoder} (supplied : o.supply = .ok encoder) (t : Text) :
    o.tell t = encoder t := by
  rw [tell, supplied, Except.bind]

theorem tell_of_unsupplied {reason : Text} (unsupplied : o.supply = .error reason) (t : Text) :
    o.tell t = .error reason := by
  rw [tell, unsupplied, Except.bind]

/-- An encoder that is there is asked for the text, and a first failure is told. -/
theorem apply_eq {m : Meter} {encoder : Encoder} (supplied : o.supply = .ok encoder)
    (name : m.encoding = o.encoding) (t : Text) :
    m.apply encoder t =
      (o.answer t, { m with warned := m.warned || o.fails t },
        if m.warned then [] else o.warning t) := by
  have tells := tell_of_supplied supplied t
  cases counted : encoder t with
  | ok n => simp [apply, answer, fails, warning, tells, counted, Except.isOk, Except.toBool]
  | error reason =>
    simp [apply, approximate, answer, fails, warning, tells, counted, name, estimateTokens,
      Except.isOk, Except.toBool]

/-- Once a text is counted, loading is over. -/
theorem after_concat (seen : List Text) (t : Text) : o.after (seen ++ [t]) =
    { encoding := o.encoding, encoder := o.supply.toOption
      loads := if o.given.isSome then 0 else 1
      failed := !o.supply.isOk, warned := seen.any o.fails || o.fails t, load := o.load } := by
  simp [after]

/-- One count after any others: the answer is that of a new meter, the encoding is loaded if it is
the first count, and a failure is told if it is the first one. -/
theorem count_after (seen : List Text) (t : Text) :
    (o.after seen).count t =
      (o.answer t, o.after (seen ++ [t]), if seen.any o.fails then [] else o.warning t) := by
  cases given : o.given with
  | some encoder =>
    have supplied : o.supply = .ok encoder := by rw [supply, given]
    have there : (o.after seen).encoder = some encoder := by
      simp [after, given, supplied, Except.toOption]
    rw [count, there]
    dsimp only
    rw [apply_eq supplied rfl, after_concat]
    simp [after, given, supplied, Except.isOk, Except.toBool, Except.toOption]
  | none =>
    have loading : o.supply = o.load o.encoding := by rw [supply, given]
    cases seen with
    | nil =>
      rw [List.nil_append, ← List.nil_append [t], after_concat, after_nil]
      cases loads : o.load o.encoding with
      | ok encoder =>
        have supplied := loading.trans loads
        simp only [count, fresh, given, loads]
        rw [apply_eq supplied rfl]
        simp [supplied, Except.isOk, Except.toBool, Except.toOption]
      | error reason =>
        have tells := tell_of_unsupplied (loading.trans loads) t
        simp [count, fresh, given, loads, loading, approximate, answer, fails, warning, tells,
          estimateTokens, Except.isOk, Except.toBool, Except.toOption]
    | cons first rest =>
      rw [after_concat]
      cases supplied : o.supply with
      | ok encoder =>
        have there : (o.after (first :: rest)).encoder = some encoder := by
          simp [after, supplied, Except.toOption]
        rw [count, there]
        dsimp only
        rw [apply_eq supplied rfl]
        simp [after, given, supplied, Except.isOk, Except.toBool, Except.toOption]
      | error reason =>
        have tells := tell_of_unsupplied supplied
        simp [count, after, given, supplied, answer, fails, tells, estimateTokens, Except.isOk,
          Except.toBool, Except.toOption]

theorem warning_of_not_fails {t : Text} (counted : o.fails t = false) : o.warning t = [] := by
  unfold fails at counted
  unfold warning
  cases tells : o.tell t with
  | ok n => rfl
  | error reason =>
    rw [tells] at counted
    cases counted

/-- A text is the first to fail when none before it does. -/
theorem told_iff (seen : List Text) (t : Text) (rest : List Text) :
    (if seen.any o.fails then [] else o.warning t) =
      if seen.length = (seen ++ t :: rest).findIdx o.fails then o.warning t else [] := by
  rw [List.findIdx_append]
  by_cases earlier : seen.any o.fails = true
  · have before := List.findIdx_lt_length.mpr (List.any_eq_true.mp earlier)
    rw [if_pos earlier, if_pos before, if_neg (by omega)]
  · have later : ¬ seen.findIdx o.fails < seen.length := fun before =>
      earlier (List.any_eq_true.mpr (List.findIdx_lt_length.mp before))
    rw [if_neg earlier, if_neg later, List.findIdx_cons]
    cases fails : o.fails t with
    | true => rw [cond_true, Nat.zero_add, if_pos rfl]
    | false => rw [cond_false, warning_of_not_fails fails, ite_self]

/-- A meter that counts some texts after others: each answer is that of a new meter, and a failure
is told where it is the first of all. -/
theorem countEach_after (seen texts : List Text) :
    countEach (o.after seen) texts =
      (texts.mapIdx fun i t => (o.answer t,
          if seen.length + i = (seen ++ texts).findIdx o.fails then o.warning t else []),
        o.after (seen ++ texts)) := by
  induction texts generalizing seen with
  | nil => simp [countEach]
  | cons t rest ih =>
    have shift (i : Nat) : (seen ++ [t]).length + i = seen.length + (i + 1) := by
      rw [List.length_append, List.length_singleton]
      omega
    rw [countEach, count_after, told_iff seen t rest]
    dsimp only
    rw [ih, List.append_assoc, List.singleton_append, List.mapIdx_cons]
    simp only [shift, Nat.add_zero]

/-- Of some texts that a new meter counts, the first that fails is told, and no other. -/
theorem notices_countEach_after (seen texts : List Text) :
    (countEach (o.after seen) texts).1.flatMap Prod.snd =
      if seen.any o.fails then [] else (texts.find? o.fails).elim [] o.warning := by
  induction texts generalizing seen with
  | nil => simp [countEach]
  | cons t rest ih =>
    rw [countEach, count_after]
    dsimp only
    rw [List.flatMap_cons, ih, List.any_append, List.any_cons, List.any_nil, Bool.or_false]
    cases earlier : seen.any o.fails with
    | true => simp
    | false =>
      cases fails : o.fails t with
      | true => simp [fails]
      | false => simp [fails, warning_of_not_fails fails]

theorem length_warning_of_fails {t : Text} (failed : o.fails t = true) :
    (o.warning t).length = 1 := by
  unfold fails at failed
  unfold warning
  cases tells : o.tell t with
  | ok n =>
    rw [tells] at failed
    cases failed
  | error reason => rfl

/-- Whatever texts a new meter counts, each answer is that of a new meter for the same text. The
encoding is loaded once, with the first text, and not at all where there is an encoder. The first
failure is told where it happens, and no other. -/
theorem countEach_fresh (o : Origin) (texts : List Text) :
    (countEach o.fresh texts).1 = (texts.mapIdx fun i t =>
      (o.answer t, if i = texts.findIdx o.fails then o.warning t else [])) ∧
    ((countEach o.fresh texts).1.flatMap Prod.snd).length = (if texts.any o.fails then 1 else 0) ∧
    (countEach o.fresh texts).2.loads = if o.given.isSome || texts.isEmpty then 0 else 1 := by
  rw [← after_nil]
  refine ⟨?_, ?_, ?_⟩
  · rw [countEach_after]
    simp only [List.length_nil, Nat.zero_add, List.nil_append]
  · rw [notices_countEach_after, List.any_nil, if_neg Bool.false_ne_true]
    cases first : texts.find? o.fails with
    | none =>
      have unfailed : texts.any o.fails = false := by simpa using first
      rw [unfailed]
      rfl
    | some t =>
      have failed : o.fails t = true := List.find?_some first
      have some_fails : texts.any o.fails = true :=
        List.any_eq_true.mpr ⟨t, List.mem_of_find?_eq_some first, failed⟩
      rw [some_fails]
      exact length_warning_of_fails failed
  · rw [countEach_after, List.nil_append, after]

end Origin

end PromptAudit.Meter
