import PromptAudit.Command.Request
import PromptAudit.Proofs.Setting.Limit
import PromptAudit.Proofs.Text.CommaItems

namespace PromptAudit

open Text (IsItem Lists)

/-- A value that gives a list: the items themselves, or a text that lists them. -/
inductive Value.Gives : Value → List Text → Prop
  | items (items : List Text) : Gives (.list (items.map .text)) items
  | text {t : Text} {items : List Text} (lists : Lists t items) : Gives (.text t) items

theorem Value.texts?_items (items : List Text) :
    (Value.list (items.map .text)).texts? = some items := by
  induction items with
  | nil => rfl
  | cons t items ih => simp_all [texts?, text?]

theorem Value.commaTexts?_of_gives {v : Value} {items : List Text} (proper : ∀ i ∈ items, IsItem i)
    (gives : v.Gives items) : v.commaTexts? = some items := by
  cases gives with
  | items => exact Value.texts?_items items
  | text lists => exact congrArg some (Text.commaItems_eq_iff.mpr ⟨proper, lists⟩)

namespace SettingSources

/-- What a field is called in the environment and in the file, in small letters. -/
def key (name : String) : Text := "promptlint_".toList ++ name.toList

/-- The first source that has a field has a list for it. Only arguments can hold the items as they
are. -/
inductive Supplies (s : SettingSources) (name : String) (items : List Text) : Prop
  | argument {v : Value} (given : s.arguments.get? name.toList = some v) (gives : v.Gives items)
  | environment {t : Text} (absent : s.arguments.get? name.toList = none)
      (set : lookUp (key name) s.environment = some (.text t)) (lists : Lists t items)
  | envFile {t : Text} (absent : s.arguments.get? name.toList = none)
      (unset : lookUp (key name) s.environment = none)
      (set : lookUp (key name) s.envFile = some (.text t)) (lists : Lists t items)

theorem get_eq (s : SettingSources) (name : String) :
    s.get name = (s.arguments.get? name.toList).or
      ((lookUp (key name) s.environment).or (lookUp (key name) s.envFile)) := rfl

theorem Supplies.get {s : SettingSources} {name : String} {items : List Text}
    (h : s.Supplies name items) : ∃ v, s.get name = some v ∧ v.Gives items := by
  rw [get_eq]
  cases h with
  | @argument v given gives =>
    rw [given, Option.some_or]
    exact ⟨v, rfl, gives⟩
  | @environment t absent set lists =>
    rw [absent, set, Option.none_or, Option.some_or]
    exact ⟨.text t, rfl, .text lists⟩
  | @envFile t absent unset set lists =>
    rw [absent, unset, set, Option.none_or, Option.none_or]
    exact ⟨.text t, rfl, .text lists⟩

end SettingSources

namespace Settings

/-- The lists among the settings, by the names of their fields. -/
def lists (s : Settings) : List (String × List Text) :=
  listFields.zip [s.disabledRules, s.clientTypes, s.clientHints, s.precisionWords, s.skippedFolders]

/-- What a field comes to that holds a list. -/
def listOf (s : SettingSources) (name : String) (default : List Text) : Checked (List Text) :=
  Checked.field name default Value.commaTexts? (s.get name)

variable {s u : SettingSources} {name : String} {items : List Text}

theorem listOf_of_supplies (proper : ∀ i ∈ items, IsItem i) (h : s.Supplies name items)
    (default : List Text) : listOf s name default = .ok items := by
  obtain ⟨v, first, gives⟩ := h.get
  simp [listOf, Checked.field, first, Value.commaTexts?_of_gives proper gives]

theorem both_eq_ok_iff {α β : Type} {x : Checked α} {y : Checked β} {a : α} {b : β} :
    Checked.both x y = .ok (a, b) ↔ x = .ok a ∧ y = .ok b := by
  cases x <;> cases y <;> simp [Checked.both]

theorem listOf_of_read {settings : Settings} {notices : List Notice}
    (reads : read s = .ok (settings, notices)) :
    ∀ field ∈ settings.lists, ∃ default, listOf s field.1 default = .ok field.2 := by
  unfold read at reads
  obtain ⟨⟨⟨disabled, types, hints⟩, ⟨words, encoding⟩, level, folders⟩, fields, same⟩ :=
    Checked.map_eq_ok_iff.mp reads
  simp only [both_eq_ok_iff] at fields
  obtain ⟨⟨first, second, third⟩, ⟨fourth, -⟩, -, fifth⟩ := fields
  cases same
  simp only [lists, listFields, List.zip_cons_cons, List.zip_nil_right, List.forall_mem_cons]
  exact ⟨⟨_, first⟩, ⟨_, second⟩, ⟨_, third⟩, ⟨_, fourth⟩, ⟨_, fifth⟩, List.forall_mem_nil _⟩

/-- Settings are read from the values of their fields, the lists as what they come to. -/
theorem read_congr (limit : s.get "max_tokens" = u.get "max_tokens")
    (lists : ∀ name ∈ listFields, ∀ default, listOf s name default = listOf u name default)
    (texts : ∀ name ∈ textFields, s.get name = u.get name) : read s = read u := by
  simp only [listFields, textFields, List.forall_mem_cons, listOf] at lists texts
  obtain ⟨disabled, types, hints, words, folders, -⟩ := lists
  obtain ⟨encoding, level, -⟩ := texts
  unfold read
  simp only [limit, disabled, types, hints, words, folders, encoding, level]

/-- It does not show where a list of the settings came from. -/
theorem read_eq_of_supplies (proper : ∀ i ∈ items, IsItem i) (first : s.Supplies name items)
    (second : u.Supplies name items) (listed : name ∈ listFields)
    (others : ∀ other, other ≠ name → s.get other = u.get other) : read s = read u := by
  have apart {other : String} (text : other ∉ listFields) : other ≠ name := by
    intro same
    exact text (same ▸ listed)
  apply read_congr
  · exact others _ (apart (by decide))
  · intro other _ default
    by_cases same : other = name
    · subst same
      rw [listOf_of_supplies proper first, listOf_of_supplies proper second]
    · rw [listOf, listOf, others other same]
  · intro other text
    apply others other
    apply apart
    revert other
    decide

end Settings

namespace Command

open Settings

/-- A text between commas is read as the one list of items that it lists, and what is read is
written and read again without change. So a list is the same whether a switch, the environment, the
file or an argument has it, and whether as a text or as its items. -/
theorem comma_lists_round_trip :
    (∀ t items, Text.commaItems t = items ↔ (∀ i ∈ items, IsItem i) ∧ Lists t items) ∧
    (∀ t, Text.commaItems (Text.join [','] (Text.commaItems t)) = Text.commaItems t) ∧
    ∀ items, (∀ i ∈ items, IsItem i) →
      (∀ t, Lists t items → ∀ (p : Page) (r : Reading),
        r.use p .only t = .ok { r with
          phase := r.phase.interrupted, choices := { r.choices with only := items } } ∧
        r.use p .except t = .ok { r with
          phase := r.phase.interrupted, choices := { r.choices with except := items } }) ∧
      (∀ s name default, s.Supplies name items → listOf s name default = .ok items) ∧
      (∀ s settings notices, Settings.read s = .ok (settings, notices) →
        ∀ field ∈ settings.lists, s.Supplies field.1 items → field.2 = items) ∧
      ∀ s u, ∀ name ∈ listFields, s.Supplies name items → u.Supplies name items →
        (∀ other, other ≠ name → s.get other = u.get other) →
        Settings.read s = Settings.read u := by
  refine ⟨fun t items => Text.commaItems_eq_iff, Text.commaItems_join_commaItems, ?_⟩
  intro items proper
  refine ⟨?_, ?_, ?_, ?_⟩
  · intro t lists p r
    have same : Text.commaItems t = items := Text.commaItems_eq_iff.mpr ⟨proper, lists⟩
    subst same
    exact ⟨rfl, rfl⟩
  · intro s name default supplies
    exact listOf_of_supplies proper supplies default
  · intro s settings notices reads field listed supplies
    obtain ⟨default, holds⟩ := listOf_of_read reads field listed
    rw [listOf_of_supplies proper supplies] at holds
    exact (Except.ok.inj holds).symm
  · intro s u name listed first second others
    exact read_eq_of_supplies proper first second listed others

end Command

end PromptAudit
