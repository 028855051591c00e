import PromptAudit.Proofs.Number.Decimal
import PromptAudit.Setting.Basic

namespace PromptAudit

namespace Checked

variable {α β : Type}

theorem exists_field_iff {name : String} {default : α} {read : Value → Option α}
    {source : Option Value} : (∃ a, field name default read source = .ok a) ↔
      ∀ v, source = some v → ∃ a, read v = some a := by
  cases source with
  | none => simp [field]
  | some v => cases found : read v <;> simp [field, found]

theorem exists_both_iff {x : Checked α} {y : Checked β} :
    (∃ p, both x y = .ok p) ↔ (∃ a, x = .ok a) ∧ ∃ b, y = .ok b := by
  cases x <;> cases y <;> simp [both]

theorem map_eq_ok_iff {x : Checked α} {f : α → β} {b : β} :
    x.map f = .ok b ↔ ∃ a, x = .ok a ∧ f a = b := by
  cases x <;> simp [Except.map]

theorem exists_map_iff {x : Checked α} {f : α → β} :
    (∃ b, x.map f = .ok b) ↔ ∃ a, x = .ok a := by
  cases x <;> simp [Except.map]

end Checked

namespace Value

/-- What counts as a positive integer: a whole number from one on, or a text that spells one when
its margins and its underscores are gone. -/
inductive Accepts : Value → Nat → Prop
  | whole {n : Nat} (positive : 1 ≤ n) : Accepts (.whole n) n
  | text {t : Text} {n : Nat} (spells : Number.Spells ((Text.trim t).filter (· ≠ '_')) n)
      (positive : 1 ≤ n) : Accepts (.text t) n

theorem positive?_text (t : Text) : (Value.text t).positive? =
    (Number.decimalInt? ((Text.trim t).filter (· ≠ '_'))).bind fun n =>
      if 0 < n then some n.toNat else none := by
  rw [positive?]
  cases Number.decimalInt? ((Text.trim t).filter (· ≠ '_')) <;> rfl

theorem positive_toNat_iff {n : Int} {k : Nat} :
    (if 0 < n then some n.toNat else none) = some k ↔ n = k ∧ 1 ≤ k := by
  split
  · rw [Option.some.injEq]
    omega
  · simp only [reduceCtorEq, false_iff]
    omega

theorem positive?_eq_some_iff {v : Value} {n : Nat} : v.positive? = some n ↔ v.Accepts n := by
  constructor
  · intro reads
    cases v with
    | whole m =>
      obtain ⟨rfl, positive⟩ := positive_toNat_iff.mp reads
      exact .whole positive
    | text t =>
      rw [positive?_text] at reads
      obtain ⟨m, spelled, reads⟩ := Option.bind_eq_some_iff.mp reads
      obtain ⟨rfl, positive⟩ := positive_toNat_iff.mp reads
      exact .text (Number.decimalInt?_eq_some_iff.mp spelled) positive
    | null | flag | real | list | table => cases reads
  · rintro (positive | ⟨spells, positive⟩)
    · exact positive_toNat_iff.mpr ⟨rfl, positive⟩
    · rw [positive?_text, Number.decimalInt?_eq_some_iff.mpr spells]
      exact positive_toNat_iff.mpr ⟨rfl, positive⟩

theorem pos_of_positive? {v : Value} {n : Nat} (reads : v.positive? = some n) : 1 ≤ n := by
  cases positive?_eq_some_iff.mp reads <;> assumption

/-- The limit in a value that may not be there, or that may hold none. -/
def limitOr (fallback : Nat) (source : Option Value) : Nat := (source.bind positive?).getD fallback

/-- The value that is there and holds no limit, if so. -/
def refused (source : Option Value) : List Value :=
  (source.filter fun v => v.positive?.isNone).toList

section

variable {v : Value} {n fallback : Nat}

theorem limitOr_of_accepted (reads : v.positive? = some n) : limitOr fallback (some v) = n := by
  simp [limitOr, reads]

theorem limitOr_of_refused (reads : v.positive? = none) :
    limitOr fallback (some v) = fallback := by
  simp [limitOr, reads]

theorem refused_of_accepted (reads : v.positive? = some n) : refused (some v) = [] := by
  simp [refused, Option.filter, reads]

theorem refused_of_refused (reads : v.positive? = none) : refused (some v) = [v] := by
  simp [refused, Option.filter, reads]

end

theorem limitOr_pos {fallback : Nat} (positive : 1 ≤ fallback) (source : Option Value) :
    1 ≤ limitOr fallback source := by
  unfold limitOr
  cases reads : source.bind positive? with
  | none => exact positive
  | some n =>
    obtain ⟨v, -, reads⟩ := Option.bind_eq_some_iff.mp reads
    exact pos_of_positive? reads

end Value

namespace Notice

def warnings (notices : List Notice) : List Notice := notices.filter (·.level = .warning)

theorem warnings_append (notices more : List Notice) :
    warnings (notices ++ more) = warnings notices ++ warnings more :=
  List.filter_append notices more

theorem warnings_badLimit (values : List Value) :
    warnings (values.map badLimit) = values.map badLimit := by
  simp [warnings, level]

end Notice

namespace Settings

open Value Notice

/-- The fields besides the limit: those that hold lists, and those that hold one text. -/
def listFields : List String :=
  ["disabled_rules", "client_types", "client_name_hints", "precision_keywords", "skip_directories"]

def textFields : List String := ["tokenizer_encoding", "log_level"]

/-- Every field besides the limit holds what it should wherever it is set. -/
structure OthersHold (s : SettingSources) : Prop where
  lists : ∀ name ∈ listFields, ∀ v, s.get name = some v → ∃ t, v.commaTexts? = some t
  texts : ∀ name ∈ textFields, ∀ v, s.get name = some v → ∃ t, v.text? = some t

theorem exists_read_iff (s : SettingSources) : (∃ r, read s = .ok r) ↔ OthersHold s := by
  unfold read
  simp only [Checked.exists_map_iff, Checked.exists_both_iff, Checked.exists_field_iff]
  constructor
  · rintro ⟨⟨disabled, types, hints⟩, ⟨words, encoding⟩, level, folders⟩
    constructor
    · simp only [listFields, List.forall_mem_cons]
      exact ⟨disabled, types, hints, words, folders, List.forall_mem_nil _⟩
    · simp only [textFields, List.forall_mem_cons]
      exact ⟨encoding, level, List.forall_mem_nil _⟩
  · rintro ⟨lists, texts⟩
    simp only [listFields, textFields, List.forall_mem_cons] at lists texts
    obtain ⟨disabled, types, hints, words, folders, -⟩ := lists
    obtain ⟨encoding, level, -⟩ := texts
    exact ⟨⟨disabled, types, hints⟩, ⟨words, encoding⟩, level, folders⟩

theorem limit_eq (source : Option Value) :
    limit source = (limitOr Policy.defaultMaxTokens source, (refused source).map .badLimit) := by
  cases source with
  | none => rfl
  | some v =>
    dsimp only [limit]
    cases reads : v.positive? with
    | none => rw [limitOr_of_refused reads, refused_of_refused reads]; rfl
    | some n => rw [limitOr_of_accepted reads, refused_of_accepted reads]; rfl

theorem limit_of_read {s : SettingSources} {settings : Settings} {notices : List Notice}
    (reads : read s = .ok (settings, notices)) :
    settings.maxTokens = limitOr Policy.defaultMaxTokens (s.get "max_tokens") ∧
      notices = (refused (s.get "max_tokens")).map .badLimit := by
  unfold read at reads
  rw [limit_eq] at reads
  obtain ⟨fields, -, same⟩ := Checked.map_eq_ok_iff.mp reads
  cases same
  exact ⟨rfl, rfl⟩

theorem applyOptions_of_absent {options : List (Text × Value)} (kept : Nat)
    (absent : limitOption ∉ options.map Prod.fst) :
    (applyOptions kept options).1 = kept ∧ warnings (applyOptions kept options).2 = [] := by
  induction options with
  | nil => exact ⟨rfl, rfl⟩
  | cons option rest ih =>
    obtain ⟨name, v⟩ := option
    obtain ⟨other, later⟩ : limitOption ≠ name ∧ limitOption ∉ rest.map Prod.fst := by
      simpa using absent
    rw [applyOptions, if_pos other.symm]
    exact ih later

theorem applyOptions_eq {options : List (Text × Value)} (kept : Nat)
    (mapping : (options.map Prod.fst).Nodup) :
    (applyOptions kept options).1 = limitOr kept (options.lookup limitOption) ∧
      warnings (applyOptions kept options).2 =
        (refused (options.lookup limitOption)).map (.badOption · kept) := by
  induction options with
  | nil => exact ⟨rfl, rfl⟩
  | cons option rest ih =>
    obtain ⟨name, v⟩ := option
    obtain ⟨once, later⟩ := List.nodup_cons.mp mapping
    by_cases other : name ≠ limitOption
    · rw [applyOptions, if_pos other, List.lookup_cons, beq_false_of_ne other.symm]
      exact ih later
    · obtain rfl : name = limitOption := not_ne_iff.mp other
      rw [applyOptions, if_neg other, List.lookup_cons, beq_self_eq_true]
      cases reads : v.positive? with
      | none =>
        obtain ⟨same, silent⟩ := applyOptions_of_absent kept once
        rw [limitOr_of_refused reads, refused_of_refused reads]
        refine ⟨same, ?_⟩
        simpa [warnings, level] using silent
      | some n =>
        obtain ⟨same, silent⟩ := applyOptions_of_absent n once
        rw [limitOr_of_accepted reads, refused_of_accepted reads]
        exact ⟨same, silent⟩

/-- What the sources of the settings and a host's options come to: the host's limit if it can be
one, or else that of the settings, or else the default. Each value passed over is told once. -/
structure Settled (s : SettingSources) (options : List (Text × Value)) (settings : Settings)
    (notices : List Notice) : Prop where
  limit : (settings.policy options).1.maxTokens =
    limitOr (limitOr 4000 (s.get "max_tokens")) (options.lookup limitOption)
  positive : 1 ≤ (settings.policy options).1.maxTokens
  told : warnings (notices ++ (settings.policy options).2) =
    (refused (s.get "max_tokens")).map .badLimit ++
      (refused (options.lookup limitOption)).map (.badOption · (limitOr 4000 (s.get "max_tokens")))

theorem settled_of_read {s : SettingSources} {options : List (Text × Value)} {settings : Settings}
    {notices : List Notice} (mapping : (options.map Prod.fst).Nodup)
    (reads : read s = .ok (settings, notices)) : Settled s options settings notices := by
  obtain ⟨baseline, rfl⟩ := limit_of_read reads
  obtain ⟨limit, told⟩ := applyOptions_eq settings.maxTokens mapping
  rw [baseline] at limit told
  have kept : (settings.policy options).1.maxTokens = (applyOptions settings.maxTokens options).1 :=
    rfl
  have remarks : (settings.policy options).2 = (applyOptions settings.maxTokens options).2 := rfl
  rw [baseline] at kept remarks
  refine ⟨kept.trans (congrArg Nat.cast limit), ?_, ?_⟩
  · have baseline_pos : 1 ≤ limitOr Policy.defaultMaxTokens (s.get "max_tokens") :=
      limitOr_pos (by decide) _
    rw [kept, limit]
    exact_mod_cast limitOr_pos baseline_pos (options.lookup limitOption)
  · rw [warnings_append, warnings_badLimit, remarks]
    exact congrArg _ told

/-- No value for the limit stops a run, whatever its type, and every run has a positive one. -/
theorem limit_of_run (s : SettingSources) {options : List (Text × Value)}
    (mapping : (options.map Prod.fst).Nodup) :
    ((∃ outcome, read s = .ok outcome) ↔ OthersHold s) ∧
    (∀ settings notices, read s = .ok (settings, notices) → Settled s options settings notices) ∧
    ∀ (v : Value) (n : Nat), v.positive? = some n ↔ v.Accepts n :=
  ⟨exists_read_iff s, fun _ _ => settled_of_read mapping, fun _ _ => positive?_eq_some_iff⟩

/-- A word for the limit in the environment, before a number in the file. -/
def wordy : SettingSources where
  arguments := .table []
  environment := [("PromptLint_Max_Tokens".toList, "many".toList)]
  envFile := [("PROMPTLINT_MAX_TOKENS".toList, "12".toList)]

/-- Thirty, in two scripts. -/
def thirty : List (Text × Value) :=
  [("Severity".toList, .text "error".toList), ("MaxTokens".toList, .text " ٣_0 ".toList)]

theorem thirty_of_wordy : ∃ settings notices, read wordy = .ok (settings, notices) ∧
    (settings.policy thirty).1.maxTokens = 30 ∧
    warnings (notices ++ (settings.policy thirty).2) = [.badLimit (.text "many".toList)] := by
  have mapping : (thirty.map Prod.fst).Nodup := by decide
  have source : wordy.get "max_tokens" = some (.text "many".toList) := rfl
  have host : thirty.lookup limitOption = some (.text " ٣_0 ".toList) := rfl
  have word : (Value.text "many".toList).positive? = none := rfl
  have number : (Value.text " ٣_0 ".toList).positive? = some 30 := by
    refine positive?_eq_some_iff.mpr (.text ?_ (by decide))
    have bare : (Text.trim " ٣_0 ".toList).filter (· ≠ '_') = [] ++ ([] ++ ['٣', '0']) ++ [] :=
      rfl
    rw [bare]
    exact .between (by simp) (.none 30) ⟨[3, 0], rfl, by simp, by decide, rfl⟩ (by simp)
  obtain ⟨reads, settles, -⟩ := limit_of_run wordy mapping
  have unset : ∀ name ∈ listFields ++ textFields, (wordy.get name).isNone = true := by decide
  have others : OthersHold wordy := by
    constructor <;> intro name listed v set
    · simpa [set] using unset name (List.mem_append_left _ listed)
    · simpa [set] using unset name (List.mem_append_right _ listed)
  obtain ⟨⟨settings, notices⟩, outcome⟩ := reads.mpr others
  obtain ⟨limit, -, told⟩ := settles settings notices outcome
  rw [source, host, refused_of_refused word, refused_of_accepted number] at told
  rw [host, limitOr_of_accepted number] at limit
  exact ⟨settings, notices, outcome, limit, told⟩

end Settings

end PromptAudit
