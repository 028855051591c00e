import PromptAudit.Proofs.Audit.Tightening
import PromptAudit.Proofs.Rule.Alike
import PromptAudit.Proofs.Tree.Placement

namespace PromptAudit

/-- A place that many bytes and lines further on. -/
def Span.moved (bytes lines : Nat) (s : Span) : Span :=
  { s with
    startLine := s.startLine + lines, endLine := s.endLine + lines
    startByte := s.startByte + bytes, endByte := s.endByte + bytes }

def Finding.moved (bytes lines : Nat) (f : Finding) : Finding :=
  { f with span := f.span.moved bytes lines }

/-- Only the word of a finding tells a place. -/
def Notice.moved (bytes lines : Nat) : Notice → Notice
  | .found f => .found (f.moved bytes lines)
  | notice => notice

theorem Tree.span_behind (t : Tree) {before : Bytes} (ends : before.getLast? = some lineFeed)
    {i : Nat} (hi : i < t.size) :
    (t.behind before).span i = (t.span i).moved before.length (before.count lineFeed) := by
  rw [span, t.start_behind before hi, t.stop_behind before hi, row_behind, row_behind,
    t.column_behind ends, t.column_behind ends, span, Span.moved]
  push_cast
  congr 1 <;> omega

/-- Counting tells nothing of places. -/
theorem Meter.notices_moved (m : Meter) (content : Text) (bytes lines : Nat) :
    (m.count content).2.2.map (Notice.moved bytes lines) = (m.count content).2.2 := by
  have approximated (m : Meter) (reason : Text) :
      (m.approximate reason content).2.2.map (Notice.moved bytes lines) =
        (m.approximate reason content).2.2 := by
    rw [approximate]
    cases m.warned <;> rfl
  have applied (m : Meter) (encoder : Encoder) :
      (m.apply encoder content).2.2.map (Notice.moved bytes lines) =
        (m.apply encoder content).2.2 := by
    rw [apply]
    cases encoder content with
    | ok _ => rfl
    | error reason => exact approximated m reason
  rw [count]
  cases m.encoder with
  | some encoder => exact applied m encoder
  | none =>
    cases m.failed with
    | true => rfl
    | false =>
      cases m.load m.encoding with
      | ok encoder => exact applied _ encoder
      | error reason => exact approximated _ reason

/-- So no rule tells of places but in its complaint. -/
theorem Rule.notices_moved {rule : Rule} (registered : rule ∈ all) {v : Visit} {m : Meter}
    {outcome : Outcome} (checked : rule.check v m = .ok outcome) (bytes lines : Nat) :
    outcome.notices.map (Notice.moved bytes lines) = outcome.notices := by
  have silent (complaint : Visit → Option Text) (checked : Check.pure complaint v m = .ok outcome) :
      outcome.notices.map (Notice.moved bytes lines) = outcome.notices := by
    cases checked
    rfl
  simp only [all, List.mem_cons, List.not_mem_nil, or_false] at registered
  rcases registered with rfl | rfl | rfl | rfl | rfl | rfl
  · exact silent headingComplaint checked
  · exact silent sectionComplaint checked
  · exact silent injectionComplaint checked
  · have counted := (budgetCheck_eq v m).symm.trans checked
    cases counted
    cases budgetText v with
    | none => rfl
    | some content => exact m.notices_moved content bytes lines
  · exact silent terminationComplaint checked
  · simp only [temperature, temperatureCheck] at checked
    split at checked
    · cases checked
      rfl
    · split at checked <;> cases checked <;> rfl

namespace Audit

variable {rules : List Rule} {policy : Policy} {t : Tree} {before : Bytes}

def Progress.moved (bytes lines : Nat) (p : Progress) : Progress where
  findings := p.findings.map (Finding.moved bytes lines)
  notices := p.notices.map (Notice.moved bytes lines)
  meter := p.meter

theorem visits_behind (ends : before.getLast? = some Tree.lineFeed) :
    visits rules (t.behind before) = visits rules t := by
  rw [visits, visits, Tree.nodes, Tree.nodes, Tree.size_behind, (t.alike_behind ends).kind]

/-- A step in a unit, and the same step with whole lines before the unit. -/
theorem look_behind (path : Option Text) (ends : before.getLast? = some Tree.lineFeed)
    {visit : Nat × Rule} (registered : visit.2 ∈ Rule.all) (inside : visit.1 < t.size)
    (p : Progress) :
    look path policy (t.behind before) (p.moved before.length (before.count Tree.lineFeed)) visit =
      (look path policy t p visit).map
        (Progress.moved before.length (before.count Tree.lineFeed)) := by
  have checks : visit.2.check ⟨t, policy, visit.1⟩ p.meter =
      visit.2.check ⟨t.behind before, policy, visit.1⟩ p.meter :=
    Rule.check_alike registered (t.alike_behind ends) inside p.meter
  unfold look
  rw [Progress.moved, ← checks, t.span_behind ends inside]
  cases checked : visit.2.check ⟨t, policy, visit.1⟩ p.meter with
  | error failure => rfl
  | ok outcome =>
    obtain ⟨complaint, meter, notices⟩ := outcome
    have quiet : notices.map (Notice.moved before.length (before.count Tree.lineFeed)) = notices :=
      Rule.notices_moved registered checked _ _
    cases complaint <;>
      simp [Except.map, Progress.moved, Finding.moved, Notice.moved, quiet]

theorem foldlM_look_behind (path : Option Text) (ends : before.getLast? = some Tree.lineFeed)
    {visits : List (Nat × Rule)} (registered : ∀ visit ∈ visits, visit.2 ∈ Rule.all)
    (inside : ∀ visit ∈ visits, visit.1 < t.size) (p : Progress) :
    visits.foldlM (look path policy (t.behind before))
        (p.moved before.length (before.count Tree.lineFeed)) =
      (visits.foldlM (look path policy t) p).map
        (Progress.moved before.length (before.count Tree.lineFeed)) := by
  induction visits generalizing p with
  | nil => rfl
  | cons visit rest ih =>
    rw [List.foldlM_cons, List.foldlM_cons,
      look_behind path ends (registered _ List.mem_cons_self) (inside _ List.mem_cons_self)]
    cases look path policy t p visit with
    | error failure => rfl
    | ok next =>
      exact ih (fun visit hv => registered visit (List.mem_cons_of_mem _ hv))
        (fun visit hv => inside visit (List.mem_cons_of_mem _ hv)) next

theorem inspect_behind (path : Option Text) (m : Meter) (registered : ∀ rule ∈ rules, rule ∈ Rule.all)
    (ends : before.getLast? = some Tree.lineFeed) :
    inspect rules path policy m (t.behind before) =
      (inspect rules path policy m t).map
        (Progress.moved before.length (before.count Tree.lineFeed)) := by
  rw [inspect, inspect, visits_behind ends]
  exact foldlM_look_behind path ends (fun visit hv => registered _ (mem_visits.mp hv).2.1)
    (fun visit hv => (mem_visits.mp hv).1) ⟨[], [], m⟩

/-- Whole lines before a unit that was understood move what is found in it, and change nothing
else. -/
theorem inspectUnit_behind (path : Option Text) (m : Meter)
    (registered : ∀ rule ∈ rules, rule ∈ Rule.all) (whole : t.broken = false)
    (ends : before.getLast? = some Tree.lineFeed) :
    inspectUnit rules path policy m (t.behind before) =
      (inspectUnit rules path policy m t).map
        (Progress.moved before.length (before.count Tree.lineFeed)) := by
  have understood : t.firstErrorLine = none := by simp [Tree.firstErrorLine, whole]
  have still : (t.behind before).firstErrorLine = none := by
    simp [Tree.firstErrorLine, Tree.behind, whole]
  rw [inspectUnit, inspectUnit, understood, still]
  dsimp only
  rw [inspect_behind path m registered ends]
  cases inspect rules path policy m t <;> rfl

/-- Two lines of comment. -/
def comments : Bytes := Text.encode "# one\n# two\n".toList

/-- The place of a call moves by two lines and twelve bytes, and stays at its column. -/
theorem assigned_behind_comments :
    (∀ rule ∈ Rule.all, rule ∈ Rule.all) ∧ assigned.broken = false ∧
    comments.getLast? = some Tree.lineFeed ∧
    (inspectUnit Rule.all none byName (.ofEncoding []) assigned).toOption.map
      (fun done => done.findings.map (·.span)) = some [⟨2, 0, 2, 21, 28, 49⟩] ∧
    (inspectUnit Rule.all none byName (.ofEncoding []) (assigned.behind comments)).toOption.map
      (fun done => done.findings.map (·.span)) = some [⟨4, 0, 4, 21, 40, 61⟩] := by
  have registered : ∀ rule ∈ Rule.all, rule ∈ Rule.all := fun _ listed => listed
  have found : (inspectUnit Rule.all none byName (.ofEncoding []) assigned).toOption.map
      (fun done => done.findings.map (·.span)) = some [⟨2, 0, 2, 21, 28, 49⟩] := by
    decide +kernel
  refine ⟨registered, rfl, by decide, found, ?_⟩
  rw [inspectUnit_behind none _ registered rfl (by decide)]
  cases ran : inspectUnit Rule.all none byName (.ofEncoding []) assigned with
  | error _ =>
    rw [ran] at found
    cases found
  | ok done =>
    rw [ran] at found
    have spans : done.findings.map (·.span) = [⟨2, 0, 2, 21, 28, 49⟩] := Option.some.inj found
    have moved : (done.findings.map (Finding.moved comments.length 2)).map (·.span) =
        (done.findings.map (·.span)).map (Span.moved comments.length 2) := by
      rw [List.map_map, List.map_map]
      rfl
    exact congrArg some (moved.trans (by rw [spans]; decide))

end Audit

end PromptAudit
