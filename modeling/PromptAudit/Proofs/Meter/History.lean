import PromptAudit.Meter

namespace PromptAudit.Meter

/-- The encoder that a meter counts with, whether it is loaded by now or not. There is none when it
cannot be loaded. -/
def source (m : Meter) : Option Encoder :=
  match m.encoder with
  | some encoder => some encoder
  | none => if m.failed then none else (m.load m.encoding).toOption

/-- What an encoder tells of a text, or the estimate where it tells nothing. -/
def reading (encoder : Option Encoder) (t : Text) : Count :=
  match encoder with
  | none => ⟨estimateTokens t, true⟩
  | some encoder => match encoder t with
    | .ok n => ⟨n, false⟩
    | .error _ => ⟨estimateTokens t, true⟩

theorem apply_fst (m : Meter) (encoder : Encoder) (t : Text) :
    (m.apply encoder t).1 = reading (some encoder) t := by
  cases counted : encoder t <;> simp [apply, reading, approximate, counted]

theorem source_apply {m : Meter} {encoder : Encoder} (loaded : m.encoder = some encoder) (t : Text) :
    (m.apply encoder t).2.1.source = some encoder := by
  cases counted : encoder t <;> simp [apply, source, approximate, loaded, counted]

/-- A count depends on the text and the encoder alone, not on what was counted before. -/
theorem count_fst (m : Meter) (t : Text) : (m.count t).1 = reading m.source t := by
  unfold count source
  cases m.encoder with
  | some encoder => exact m.apply_fst encoder t
  | none =>
    cases m.failed with
    | true => rfl
    | false =>
      cases m.load m.encoding with
      | ok encoder => exact apply_fst _ encoder t
      | error reason => rfl

/-- A meter keeps its encoder through every count. -/
theorem source_count (m : Meter) (t : Text) : (m.count t).2.1.source = m.source := by
  cases loaded : m.encoder with
  | some encoder =>
    rw [count, loaded]
    exact (source_apply loaded t).trans (by rw [source, loaded])
  | none =>
    cases failed : m.failed with
    | true => simp [count, loaded, failed]
    | false =>
      cases loads : m.load m.encoding with
      | ok encoder =>
        simp only [count, loaded, failed, loads]
        exact (source_apply rfl t).trans (by simp [source, loaded, failed, loads, Except.toOption])
      | error reason =>
        simp [count, source, approximate, loaded, failed, loads, Except.toOption]

end PromptAudit.Meter
