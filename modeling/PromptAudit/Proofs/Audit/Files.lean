import Mathlib
import PromptAudit.Audit.Entry
import PromptAudit.Proofs.Audit.Selection
import PromptAudit.Proofs.Storage.Locate

namespace PromptAudit.Audit

/-- What a plan shows of the unit under a path: its tree, or why there is none. -/
def Plan.sight (plan : Plan) (path : Path) : Except Trouble (Except Problem Tree) :=
  (plan.disk.read path).map plan.parser

/-- What is reported of a unit: that it cannot be read or was not understood, or else all that the
rules find in it. -/
inductive Reports (rules : List Rule) (policy : Policy) (m : Meter) (path : Path) :
    Except Trouble (Except Problem Tree) → FileReport → Prop
  | unread {trouble : Trouble} (nameable : path.hasNull = false) :
      Reports rules policy m path (.error trouble)
      ⟨path.toText, [], some (Problem.unreadable path.toText trouble.message).message⟩
  | broken {t : Tree} {line : Nat} (broken : t.broken = true)
      (first : t.firstErrorLine = some line) : Reports rules policy m path (.ok (.ok t))
      ⟨path.toText, [], some (Problem.unparsed (some path.toText) line).message⟩
  | whole {t : Tree} {done : Progress} (whole : t.broken = false)
      (ran : inspect rules (some path.toText) policy m t = .ok done) :
      Reports rules policy m path (.ok (.ok t)) ⟨path.toText, done.findings, none⟩

variable {plan : Plan} {path : Path} {m n : Meter} {file : FileReport}

theorem auditFile_of_hasNull (null : path.hasNull = true) :
    auditFile plan path m = ⟨[], .error (.search (.unsettled .nullCharacter))⟩ := by
  rw [auditFile, if_pos null]

theorem hasNull_of_read {bytes : Bytes} (read : plan.disk.read path = .ok bytes) :
    path.hasNull = false := by
  refine Bool.eq_false_iff.mpr fun null => ?_
  cases read.symm.trans (Disk.read_of_hasNull null)

theorem auditFile_ok_iff_of_tree {bytes : Bytes} {t : Tree}
    (read : plan.disk.read path = .ok bytes) (parsed : plan.parser bytes = .ok t) :
    (∃ after, (auditFile plan path m).result = .ok (file, after)) ↔
      Reports plan.rules plan.policy m path (.ok (.ok t)) file := by
  simp only [auditFile, hasNull_of_read read, Bool.false_eq_true, if_false, read, parsed]
  cases broken : t.broken with
  | true =>
    obtain ⟨line, first, -⟩ := t.firstErrorLine_of_broken broken
    simp only [inspectUnit, first, failedReport]
    constructor
    · intro h
      obtain ⟨after, audited⟩ := h
      cases audited
      exact .broken broken first
    · intro h
      cases h with
      | broken _ again =>
        cases first.symm.trans again
        exact ⟨m, rfl⟩
      | whole whole => cases broken.symm.trans whole
  | false =>
    rw [inspectUnit_of_whole broken]
    constructor
    · intro h
      obtain ⟨after, audited⟩ := h
      cases ran : inspect plan.rules (some path.toText) plan.policy m t with
      | error failure =>
        rw [ran] at audited
        cases audited
      | ok done =>
        rw [ran] at audited
        cases audited
        exact .whole broken ran
    · intro h
      cases h with
      | broken other => cases broken.symm.trans other
      | whole _ ran =>
        rw [ran]
        exact ⟨_, rfl⟩

theorem auditFile_ok_iff :
    (∃ after, (auditFile plan path m).result = .ok (file, after)) ↔
      Reports plan.rules plan.policy m path (plan.sight path) file := by
  cases read : plan.disk.read path with
  | error trouble =>
    simp only [Plan.sight, read, Except.map]
    cases null : path.hasNull with
    | true =>
      rw [auditFile_of_hasNull null]
      refine iff_of_false (fun h => ?_) fun h => ?_
      · obtain ⟨after, audited⟩ := h
        cases audited
      · cases h with
        | unread nameable => cases null.symm.trans nameable
    | false =>
      simp only [auditFile, null, Bool.false_eq_true, if_false, read, failedReport]
      constructor
      · intro h
        obtain ⟨after, audited⟩ := h
        cases audited
        exact .unread null
      · intro h
        cases h
        exact ⟨m, rfl⟩
  | ok bytes =>
    cases parsed : plan.parser bytes with
    | error problem =>
      simp only [auditFile, hasNull_of_read read, Bool.false_eq_true, if_false, Plan.sight, read,
        parsed, Except.map]
      refine iff_of_false (fun h => ?_) fun h => by cases h
      obtain ⟨after, audited⟩ := h
      cases audited
    | ok t =>
      rw [auditFile_ok_iff_of_tree read parsed]
      simp only [Plan.sight, read, parsed, Except.map]

/-- A unit leaves the meter with the encoder that it found. -/
theorem source_auditFile (registered : ∀ rule ∈ plan.rules, rule ∈ Rule.all) {after : Meter}
    (audited : (auditFile plan path m).result = .ok (file, after)) : after.source = m.source := by
  unfold auditFile at audited
  split at audited
  · cases audited
  · split at audited
    · cases audited
      rfl
    · split at audited
      · cases audited
      · rename_i t _
        split at audited
        · cases audited
          rfl
        · cases audited
        · rename_i done inspected
          cases audited
          unfold inspectUnit at inspected
          split at inspected
          · cases inspected
          · cases ran : inspect plan.rules (some path.toText) plan.policy m t with
            | error failure =>
              rw [ran] at inspected
              cases inspected
            | ok again =>
              rw [ran] at inspected
              cases inspected
              exact source_inspect registered ran

/-- What was counted before does not change a report. -/
theorem Reports.of_source {rules : List Rule} {policy : Policy}
    {sight : Except Trouble (Except Problem Tree)} (reports : Reports rules policy m path sight file)
    (registered : ∀ rule ∈ rules, rule ∈ Rule.all) (same : m.source = n.source) :
    Reports rules policy n path sight file := by
  cases reports with
  | unread nameable => exact .unread nameable
  | broken broken first => exact .broken broken first
  | @whole t done whole ran =>
    have sound := (inspect_ok_iff registered).mp ⟨done, ran⟩
    obtain ⟨again, reran⟩ := (@inspect_ok_iff _ (some path.toText) policy t n registered).mpr sound
    have alike : done.findings = again.findings := by
      rw [findings_of_inspect registered ran same, findings_of_inspect registered reran rfl]
    rw [alike]
    exact .whole whole reran

theorem Account.andThen_ok {α β : Type} {a : Account α} {next : α → Account β} {answer : β}
    (h : (a.andThen next).result = .ok answer) :
    ∃ first, a.result = .ok first ∧ (next first).result = .ok answer := by
  unfold Account.andThen at h
  split at h
  · cases h
  · rename_i first result
    exact ⟨first, result, h⟩

/-- A run over files reports of each of them what it reports with the meter of the start. -/
theorem reports_auditFiles (registered : ∀ rule ∈ plan.rules, rule ∈ Rule.all) {files : List Path}
    {report : Report} (same : n.source = m.source)
    (audited : (auditFiles plan files n).result = .ok report) :
    List.Forall₂ (fun path file => Reports plan.rules plan.policy m path (plan.sight path) file)
      files report := by
  induction files generalizing n report with
  | nil =>
    cases audited
    exact .nil
  | cons path rest ih =>
    obtain ⟨⟨file, after⟩, first, audited⟩ := Account.andThen_ok audited
    obtain ⟨files, others, audited⟩ := Account.andThen_ok audited
    cases audited
    refine .cons ?_ (ih ((source_auditFile registered first).trans same) others)
    exact (auditFile_ok_iff.mp ⟨after, first⟩).of_source registered same

/-- A report that depends on its own unit and on nothing else: every plan with the same rules and
policy that shows the same unit gives it, with every meter that counts with the same encoder. -/
structure StandsAlone (plan : Plan) (m : Meter) (path : Path) (file : FileReport) : Prop where
  named : file.path = path.toText
  alone (other : Plan) (n : Meter) (rules : other.rules = plan.rules)
    (policy : other.policy = plan.policy) (sight : other.sight path = plan.sight path)
    (source : n.source = m.source) : ∃ after, (auditFile other path n).result = .ok (file, after)
  failed : file.error.isSome = true ↔ (∃ trouble, plan.disk.read path = .error trouble) ∨
    ∃ bytes t, plan.disk.read path = .ok bytes ∧ plan.parser bytes = .ok t ∧ t.broken = true
  unmixed : file.error.isSome = true → file.findings = []

theorem Reports.standsAlone (registered : ∀ rule ∈ plan.rules, rule ∈ Rule.all)
    (reports : Reports plan.rules plan.policy m path (plan.sight path) file) :
    StandsAlone plan m path file := by
  have alone (other : Plan) (n : Meter) (rules : other.rules = plan.rules)
      (policy : other.policy = plan.policy) (sight : other.sight path = plan.sight path)
      (source : n.source = m.source) :
      ∃ after, (auditFile other path n).result = .ok (file, after) := by
    rw [auditFile_ok_iff, rules, policy, sight]
    exact reports.of_source registered source.symm
  have seen {t : Tree} (shown : plan.sight path = .ok (.ok t)) :
      ∃ bytes, plan.disk.read path = .ok bytes ∧ plan.parser bytes = .ok t := by
    unfold Plan.sight at shown
    cases read : plan.disk.read path with
    | error trouble =>
      rw [read] at shown
      cases shown
    | ok bytes =>
      rw [read] at shown
      exact ⟨bytes, rfl, Except.ok.inj shown⟩
  generalize shown : plan.sight path = sight at reports
  cases reports with
  | unread =>
    refine ⟨rfl, alone, iff_of_true rfl (.inl ?_), fun _ => rfl⟩
    unfold Plan.sight at shown
    cases read : plan.disk.read path with
    | error trouble => exact ⟨trouble, rfl⟩
    | ok bytes =>
      rw [read] at shown
      cases shown
  | broken broken _ =>
    obtain ⟨bytes, read, parsed⟩ := seen shown
    exact ⟨rfl, alone, iff_of_true rfl (.inr ⟨bytes, _, read, parsed, broken⟩), fun _ => rfl⟩
  | whole whole _ =>
    obtain ⟨bytes, read, parsed⟩ := seen shown
    refine ⟨rfl, alone, iff_of_false (by simp) fun failed => ?_, fun failed => by cases failed⟩
    obtain ⟨trouble, unread⟩ | ⟨others, t, reread, reparsed, broken⟩ := failed
    · cases unread.symm.trans read
    · cases reread.symm.trans read
      cases reparsed.symm.trans parsed
      cases broken.symm.trans whole

theorem registered_of_selected {wishes : Wishes} {s : Settings} {rules : List Rule}
    (registered : ∀ chosen, wishes.rules = some chosen → ∀ rule ∈ chosen, rule ∈ Rule.all)
    (selected : wishes.selected s = .ok rules) : ∀ rule ∈ rules, rule ∈ Rule.all := by
  unfold Wishes.selected at selected
  split at selected
  · rename_i chosen wanted
    cases selected
    exact registered _ wanted
  · have selects := Rule.selects_select [] s.disabledRules
    cases result : Rule.select [] s.disabledRules with
    | error names =>
      rw [result] at selected
      cases selected
    | ok others =>
      rw [result] at selected selects
      cases selected
      cases selects
      exact fun rule kept => (List.mem_filter.mp kept).1

/-- A run reports of every file that it finds, in the order in which it finds them, and of each as
if it were the only one. -/
theorem analyze_standsAlone (w : Workspace) (g : Grammars) (s : Settings) (wishes : Wishes)
    (paths : List Path)
    (registered : ∀ chosen, wishes.rules = some chosen → ∀ rule ∈ chosen, rule ∈ Rule.all)
    {report : Report} (ran : (analyze w g s wishes paths).result = .ok report) :
    ∃ rules files notices, wishes.selected s = .ok rules ∧
      Discovery.discover w.reader w.disk s.skippedFolders paths = .ok (files, notices) ∧
      List.Forall₂ (StandsAlone ⟨w.parser g, w.disk, rules, (s.policy wishes.options).1⟩
        (wishes.counter w.load s)) files report := by
  obtain ⟨rules, selected, ran⟩ := Account.andThen_ok ran
  have known := registered_of_selected registered selected
  unfold auditPaths at ran
  cases found : Discovery.discover w.reader w.disk s.skippedFolders paths with
  | error stop =>
    rw [found] at ran
    cases ran
  | ok discovered =>
    rw [found] at ran
    obtain ⟨files, listed, ran⟩ := Account.andThen_ok ran
    cases listed
    refine ⟨rules, discovered.1, discovered.2, selected, rfl, ?_⟩
    exact (reports_auditFiles known rfl ran).imp fun _ _ reports => reports.standsAlone known

/-- A unit of which its parser understood nothing. -/
def garbled : Tree := Tree.bare (Text.encode "def (\n".toList) true

/-- Two files in the working folder, the first of them garbled. -/
def shelf : Workspace where
  disk := { home := [], entries :=
    [(["a.rb".toList], .file garbled.source), (["c.rb".toList], .file prompting.source)] }
  units := [(garbled.source, garbled), (prompting.source, prompting)]

/-- Three tokens are allowed, and an encoding is loaded by name. -/
def sparing : Settings where
  maxTokens := 3
  disabledRules := []
  clientTypes := Policy.defaultClientTypes
  clientHints := Policy.defaultClientHints
  precisionWords := Policy.defaultPrecisionWords
  encoding := "chars".toList
  logLevel := "WARNING".toList
  skippedFolders := []

def shelfFiles : List Path := ["a.rb", "b.rb", "c.rb"].map fun p => Path.ofText p.toList

/-- The first file is named twice. -/
def shelfPaths : List Path := shelfFiles ++ [Path.ofText "./a.rb".toList]

theorem discover_shelf : Discovery.discover shelf.reader shelf.disk sparing.skippedFolders shelfPaths =
    .ok (shelfFiles, [.missingPath "b.rb".toList, .discovered 3]) := by cbv

theorem read_shelf : shelf.disk.read (Path.ofText "a.rb".toList) = .ok garbled.source ∧
    shelf.disk.read (Path.ofText "b.rb".toList) = .error .missing ∧
    shelf.disk.read (Path.ofText "c.rb".toList) = .ok prompting.source :=
  ⟨by cbv, by cbv, by cbv⟩

/-- The first file is garbled, the second one is not there, and the third one is reported all the
same. -/
theorem shelf_standsAlone :
    (∀ chosen, ({} : Wishes).rules = some chosen → ∀ rule ∈ chosen, rule ∈ Rule.all) ∧
      ∃ report, (analyze shelf .standard sparing {} shelfPaths).result = .ok report ∧
        report.map (fun file => (file.error.isSome, file.findings.map (·.rule))) =
          [(true, []), (true, []), (false, [.headingFormat, .tokenBudget])] ∧
        ∃ rules files notices, ({} : Wishes).selected sparing = .ok rules ∧
          Discovery.discover shelf.reader shelf.disk [] shelfPaths = .ok (files, notices) ∧
          List.Forall₂ (StandsAlone ⟨shelf.parser .standard, shelf.disk, rules,
            (sparing.policy []).1⟩ (.ofEncoding "chars".toList)) files report := by
  have told : (analyze shelf .standard sparing {} shelfPaths).result.toOption.map
      (·.map fun file => (file.error.isSome, file.findings.map (·.rule))) =
      some [(true, []), (true, []), (false, [.headingFormat, .tokenBudget])] := by
    simp only [analyze, auditPaths, discover_shelf, Account.andThen, shelfFiles, List.map_cons,
      List.map_nil, auditFiles, auditFile, read_shelf]
    decide +kernel
  have registered : ∀ chosen, ({} : Wishes).rules = some chosen → ∀ rule ∈ chosen, rule ∈ Rule.all :=
    fun _ wanted => by cases wanted
  cases ran : (analyze shelf .standard sparing {} shelfPaths).result with
  | error halt =>
    rw [ran] at told
    cases told
  | ok report =>
    rw [ran] at told
    exact ⟨registered, report, rfl, Option.some.inj told,
      analyze_standsAlone shelf .standard sparing {} shelfPaths registered ran⟩

end PromptAudit.Audit
