import PromptAudit.Proofs.Text.Occurrence
import PromptAudit.Proofs.Tree.Enclosure

namespace PromptAudit.Tree

variable (t : Tree)

/-- What a class, module or method is called where it is declared: a method by its name, a class
or module by the last segment of its name. -/
inductive Declares (d : Nat) : Text → Prop
  | method {name : Nat} (type : t.type d = "method" ∨ t.type d = "singleton_method")
      (named : t.field d "name" = some name) : Declares d (t.text name)
  | plain {name : Nat} (type : t.type d = "class" ∨ t.type d = "module")
      (named : t.field d "name" = some name) (single : t.type name ≠ "scope_resolution") :
      Declares d (t.text name)
  | qualified {name last : Nat} (type : t.type d = "class" ∨ t.type d = "module")
      (named : t.field d "name" = some name) (path : t.type name = "scope_resolution")
      (segment : t.field name "name" = some last) : Declares d (t.text last)

/-- A class, module or method with `prompt` in its name, whatever the case of the letters. -/
def DeclaresPrompt (d : Nat) : Prop :=
  ∃ name, t.Declares d name ∧ "prompt".toList <:+: Text.lower name

theorem kind_of_declares {d : Nat} {name : Text} (h : t.Declares d name) :
    t.kind d = .definition := by
  rcases h with ⟨h, -⟩ | ⟨h, -, -⟩ | ⟨h, -, -, -⟩ <;> rcases h with h | h <;>
    simp [kind, h, collectionTypes, definitionTypes]

theorem definitionName_eq_some_iff {d : Nat} {s : Text} :
    t.definitionName d = some s ↔ t.Declares d s := by
  constructor
  · intro h
    unfold definitionName at h
    split at h
    · split at h
      · cases h
      · rename_i name named
        split at h
        · rename_i type
          cases h
          exact .method (by simpa using type) named
        · split at h
          · rename_i type
            have type : t.type d = "class" ∨ t.type d = "module" := by simpa using type
            split at h
            · rename_i path
              obtain ⟨last, segment, rfl⟩ := Option.map_eq_some_iff.mp h
              exact .qualified type named path segment
            · rename_i single
              cases h
              exact .plain type named single
          · cases h
    · cases h
  · intro h
    have isDefinition := t.kind_of_declares h
    cases h with
    | method type named => rcases type with type | type <;> simp [definitionName, isDefinition, named, type]
    | plain type named single =>
      rcases type with type | type <;> simp [definitionName, isDefinition, named, type, single]
    | qualified type named path segment =>
      rcases type with type | type <;> simp [definitionName, isDefinition, named, type, path, segment]

theorem namesPrompt_iff {d : Nat} : t.namesPrompt d = true ↔ t.DeclaresPrompt d := by
  simp only [namesPrompt, Option.any_eq_true, Text.occurs_iff, definitionName_eq_some_iff,
    DeclaresPrompt]

/-- A node is in prompt code when it is, or stands in, a definition that names a prompt. -/
theorem inPromptScope_iff {i : Nat} :
    t.inPromptScope i = true ↔ ∃ d, t.Encloses d i ∧ t.DeclaresPrompt d := by
  simp only [inPromptScope, Bool.or_eq_true, List.any_eq_true, namesPrompt_iff, encloses_iff]
  constructor
  · intro h
    rcases h with own | ⟨d, hd, names⟩
    · exact ⟨i, .inl rfl, own⟩
    · exact ⟨d, .inr hd, names⟩
  · intro h
    obtain ⟨d, same | hd, names⟩ := h
    · exact .inl (same ▸ names)
    · exact .inr ⟨d, hd, names⟩

end PromptAudit.Tree
