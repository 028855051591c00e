import Mathlib
import PromptAudit.Proofs.Discovery.Walk
import PromptAudit.Proofs.List.Sorted

namespace PromptAudit.Discovery

/-- A folder that a walk goes on in. -/
structure Passable (w : Rules d) (above : List Text) (name : Text) : Prop where
  folder : d.status (w.path (above ++ [name])) = .ok (some .folder)
  unhidden : name ≠ [] ∧ name.head? ≠ some '.'
  unskipped : name ∉ w.skipped
  heeded : w.ignored (above ++ [name, []]) = false
  inside : Inside w (w.path (above ++ [name]))

/-- The names of a way down from the root of a walk: each is listed by the folder before it, and the
walk goes on in all but the last. -/
structure Way (w : Rules d) (below : List Text) : Prop where
  start : below ≠ []
  listed {above : List Text} {name : Text} (before : above ++ [name] <+: below) :
    Lists d (w.path above) name
  passable {above : List Text} {name : Text} (before : above ++ [name] <+: below)
    (inner : above ++ [name] ≠ below) : Passable w above name

/-- A file below the root of a walk that belongs to its sources, by its names below the root. -/
structure Eligible (w : Rules d) (below : List Text) : Prop extends Way w below, Wanted w below where
  inside : Inside w (w.path below)

/-- What stops a walk below its root, and where. -/
structure Stops (w : Rules d) (below : List Text) (stop : Stop) : Prop extends Way w below where
  faults : Faults w (w.path below) stop

variable {d : Disk} {w : Rules d} {below above : List Text} {name : Text} {p : Path} {stop : Stop}

theorem enter_iff_passable :
    turn w above name = .enter ↔ Passable w above name := by
  rw [turn_eq_enter_iff]
  have enters : w.enters above name = true ↔ (name ≠ [] ∧ name.head? ≠ some '.') ∧
      name ∉ w.skipped ∧ w.ignored (above ++ [name, []]) = false := by
    cases name <;> simp [Rules.enters, and_assoc]
  rw [enters]
  constructor
  · intro h
    obtain ⟨inside, folder, unhidden, unskipped, heeded⟩ := h
    exact ⟨folder, unhidden, unskipped, heeded, inside⟩
  · intro h
    obtain ⟨folder, unhidden, unskipped, heeded, inside⟩ := h
    exact ⟨inside, folder, unhidden, unskipped, heeded⟩

theorem descends_concat_iff :
    Descends w [] (below ++ [name]) ↔
      Descends w [] below ∧ Lists d (w.path below) name ∧ turn w below name = .enter := by
  constructor
  · intro descends
    rcases Relation.ReflTransGen.cases_tail descends with none | ⟨before, reached, opens⟩
    · exact (List.concat_ne_nil _ _ none).elim
    · obtain ⟨last, same, listed, enters⟩ := opens
      obtain ⟨rfl, rfl⟩ : below = before ∧ name = last := by simpa using same
      exact ⟨reached, listed, enters⟩
  · intro h
    obtain ⟨reached, listed, enters⟩ := h
    exact .tail reached ⟨name, rfl, listed, enters⟩

theorem descends_iff :
    Descends w [] below ↔ ∀ above name, above ++ [name] <+: below →
      Lists d (w.path above) name ∧ Passable w above name := by
  induction below using List.reverseRecOn with
  | nil =>
    refine iff_of_true .refl fun above name before => ?_
    exact (List.concat_ne_nil _ _ (List.prefix_nil.mp before)).elim
  | append_singleton below last ih =>
    rw [descends_concat_iff, ih, enter_iff_passable]
    constructor
    · intro h above name before
      obtain ⟨upper, final⟩ := h
      rcases List.prefix_concat_iff.mp before with same | before
      · obtain ⟨rfl, rfl⟩ : above = below ∧ name = last := by simpa using same
        exact final
      · exact upper above name before
    · intro each
      exact ⟨fun above name before => each above name (before.trans (List.prefix_append _ _)),
        each below last (List.prefix_refl _)⟩

/-- A way ends with a name that is listed by a folder to which a walk descends. -/
theorem way_concat_iff :
    Way w (below ++ [name]) ↔ Descends w [] below ∧ Lists d (w.path below) name := by
  rw [descends_iff]
  constructor
  · intro way
    refine ⟨fun above other before => ?_, way.listed (List.prefix_refl _)⟩
    have further := before.trans (List.prefix_append below [name])
    have inner : above ++ [other] ≠ below ++ [name] := fun same => by
      have short := before.length_le
      rw [same, List.length_append, List.length_singleton] at short
      omega
    exact ⟨way.listed further, way.passable further inner⟩
  · intro h
    obtain ⟨upper, listed⟩ := h
    refine ⟨List.concat_ne_nil _ _, @fun above other before => ?_, fun before inner => ?_⟩
    · rcases List.prefix_concat_iff.mp before with same | before
      · obtain ⟨rfl, rfl⟩ : above = below ∧ other = name := by simpa using same
        exact listed
      · exact (upper _ _ before).1
    · exact (upper _ _ ((List.prefix_concat_iff.mp before).resolve_left inner)).2

/-- What a walk notes or is stopped by at a name, it meets at the end of a way. -/
theorem mem_course_iff_way {event : Except Stop Sighting}
    (other : ∀ p trouble, event ≠ .ok (.unlisted p trouble)) :
    (below, event) ∈ course w [] ↔ Way w below ∧ ∃ above name, below = above ++ [name] ∧
      (turn w above name).event? = some event := by
  rw [mem_course_iff]
  constructor
  · intro h
    obtain ⟨above, descends, meets⟩ := h
    cases meets with
    | unlisted unlisted => exact (other _ _ rfl).elim
    | turn listed gives => exact ⟨way_concat_iff.mpr ⟨descends, listed⟩, above, _, rfl, gives⟩
  · intro h
    obtain ⟨way, above, name, rfl, gives⟩ := h
    obtain ⟨descends, listed⟩ := way_concat_iff.mp way
    exact ⟨above, descends, .turn listed gives⟩

theorem mem_course_source_iff :
    (below, .ok (.source p)) ∈ course w [] ↔ p = w.path below ∧ Eligible w below := by
  rw [mem_course_iff_way (by simp)]
  have notes {above : List Text} {name : Text} :
      (turn w above name).event? = some (.ok (.source p)) ↔ turn w above name = .note (.source p) := by
    cases turn w above name <;> simp [Turn.event?]
  simp only [notes, turn_eq_source_iff]
  constructor
  · intro h
    obtain ⟨way, above, name, rfl, same, inside, wanted⟩ := h
    exact ⟨same, way, wanted, inside⟩
  · intro h
    obtain ⟨same, way, wanted, inside⟩ := h
    obtain ⟨above, name, rfl⟩ := (List.eq_nil_or_concat' below).resolve_left way.start
    exact ⟨way, above, name, rfl, same, inside, wanted⟩

theorem mem_course_stop_iff : (below, .error stop) ∈ course w [] ↔ Stops w below stop := by
  rw [mem_course_iff_way (by simp)]
  have stops {above : List Text} {name : Text} :
      (turn w above name).event? = some (.error stop) ↔ turn w above name = .stop stop := by
    cases turn w above name <;> simp [Turn.event?]
  simp only [stops, turn_eq_stop_iff]
  constructor
  · intro h
    obtain ⟨way, above, name, rfl, faults⟩ := h
    exact ⟨way, faults⟩
  · intro h
    obtain ⟨way, faults⟩ := h
    obtain ⟨above, name, rfl⟩ := (List.eq_nil_or_concat' below).resolve_left way.start
    exact ⟨way, above, name, rfl, faults⟩

/-- A walk is stopped by what comes first in the order of names. -/
theorem walk_eq_error_iff_first (distinct : d.Distinct) :
    walk w [] = .error stop ↔ ∃ below, Stops w below stop ∧
      ∀ other another, Stops w other another → other = below ∨ List.Lex Text.Before below other := by
  have ordered : (course w []).Pairwise fun first second => List.Lex Text.Before first.1 second.1 :=
    pairwise_course distinct []
  rw [walk_eq_error_iff, exists_first_iff_of_pairwise (fun _ _ => asymm) ordered]
  constructor
  · intro h
    obtain ⟨⟨below, event⟩, lies, rfl, after⟩ := h
    refine ⟨below, mem_course_stop_iff.mp lies, fun other another stops => ?_⟩
    exact (after _ (mem_course_stop_iff.mpr stops) ⟨another, rfl⟩).imp_left (congrArg Prod.fst)
  · intro h
    obtain ⟨below, stops, first⟩ := h
    have lies := mem_course_stop_iff.mpr stops
    refine ⟨_, lies, rfl, fun met listed fails => ?_⟩
    obtain ⟨other, event⟩ := met
    obtain ⟨another, rfl⟩ := fails
    rcases related_of_pairwise ordered listed lies with same | before | after
    · exact .inl same
    · rcases first other another (mem_course_stop_iff.mp listed) with rfl | after
      · exact (asymm before before).elim
      · exact (asymm before after).elim
    · exact .inr after

/-- The walk of a folder returns unless something below the folder stops it, which is told of the first
in the order of names. If it returns, it has found exactly the eligible files below the folder, in the
order of their paths and each of them once. -/
theorem walk_finds_eligible (distinct : d.Distinct) (w : Rules d) :
    ((∃ seen, walk w [] = .ok seen) ↔ ∀ below stop, ¬ Stops w below stop) ∧
    (∀ stop, walk w [] = .error stop ↔ ∃ below, Stops w below stop ∧
      ∀ other another, Stops w other another → other = below ∨ List.Lex Text.Before below other) ∧
    ∀ seen, walk w [] = .ok seen → (sources seen).Pairwise PathBefore ∧
      ∀ p, p ∈ sources seen ↔ ∃ below, p = w.path below ∧ Eligible w below := by
  refine ⟨?_, fun stop => walk_eq_error_iff_first distinct, fun seen returned => ?_⟩
  · simp only [walk_returns_iff, mem_course_stop_iff]
  · refine ⟨pairwise_sources distinct returned, fun p => ?_⟩
    simp only [mem_sources_iff returned, mem_course_source_iff]

def app : Location := ["srv".toList, "app".toList]

/-- A folder with a link that goes up and comes back down, a link to that link, and a link out. -/
def linked : Disk where
  home := ["srv".toList]
  entries := [
    (["srv".toList], .folder),
    (app, .folder),
    (app ++ ["b".toList], .folder),
    (app ++ ["b".toList, "z.rb".toList], .file []),
    (app ++ ["back".toList], .link "../app/b".toList),
    (app ++ ["chain".toList], .link "back".toList),
    (app ++ ["out".toList], .link "../lib".toList),
    (["srv".toList, "lib".toList], .folder),
    (["srv".toList, "lib".toList, "o.rb".toList], .file [])]

/-- The folder to which the links lead is ignored and the first of them skipped, but not the link to
that link. -/
def heeding : Rules linked where
  root := ⟨0, ["app".toList]⟩
  bound := app
  settled := by cbv
  skipped := ["back".toList]
  ignored names := names = ["b".toList, []]

theorem turn_chained : turn heeding ["chain".toList] "z.rb".toList =
    .note (.source (heeding.path ["chain".toList, "z.rb".toList])) := by
  have own : linked.ownStatus (heeding.path ["chain".toList, "z.rb".toList]) = .ok (some (.file [])) := by
    cbv
  have wanted : Wanted heeding ["chain".toList, "z.rb".toList] :=
    ⟨by decide +kernel, by decide +kernel, [], by cbv, List.not_mem_nil⟩
  exact turn_eq_source_iff.mpr ⟨rfl, inside_of_plain own (by simp), wanted⟩

theorem course_heeding : course heeding [] = [
    (["chain".toList, "z.rb".toList], .ok (.source (heeding.path ["chain".toList, "z.rb".toList]))),
    (["out".toList], .ok (.outside (heeding.path ["out".toList])))] := by
  have top : linked.listing (heeding.path []) =
    .ok ["b".toList, "back".toList, "chain".toList, "out".toList] := by cbv
  have chain : linked.listing (heeding.path ["chain".toList]) = .ok ["z.rb".toList] := by cbv
  have b : branch heeding [] "b".toList = [] := by cbv
  have back : branch heeding [] "back".toList = [] := by cbv
  have out : branch heeding [] "out".toList =
    [(["out".toList], .ok (.outside (heeding.path ["out".toList])))] := by cbv
  have enters : turn heeding [] "chain".toList = .enter := by cbv
  have z : branch heeding ["chain".toList] "z.rb".toList = [(["chain".toList, "z.rb".toList],
      .ok (.source (heeding.path ["chain".toList, "z.rb".toList])))] := by
    rw [branch, turn_chained]
    rfl
  have inner : course heeding ["chain".toList] = _ := course_of_listing chain
  rw [course_of_listing top]
  simp only [List.flatMap_cons, List.flatMap_nil, b, back, out, branch_of_enter enters,
    List.nil_append, inner, z, List.singleton_append, List.append_nil]

theorem walk_heeding : walk heeding [] = .ok [
    .source (heeding.path ["chain".toList, "z.rb".toList]),
    .outside (heeding.path ["out".toList])] := by
  rw [walk_eq, course_heeding]
  rfl

/-- The file is found through the links, and neither where it stands nor through the link out. -/
theorem linked_walk_finds_eligible :
    linked.Distinct ∧ ∃ seen, walk heeding [] = .ok seen ∧ (sources seen).Pairwise PathBefore ∧
      heeding.path ["chain".toList, "z.rb".toList] ∈ sources seen ∧
      Eligible heeding ["chain".toList, "z.rb".toList] ∧
      (∀ below stop, ¬ Stops heeding below stop) ∧
      ¬ Eligible heeding ["b".toList, "z.rb".toList] ∧
      ¬ Eligible heeding ["out".toList, "o.rb".toList] := by
  have distinct : linked.Distinct := by decide +kernel
  obtain ⟨returns, -, found⟩ := walk_finds_eligible distinct heeding
  obtain ⟨ordered, finds⟩ := found _ walk_heeding
  have unfound {below : List Text} (other : heeding.path below ≠
      heeding.path ["chain".toList, "z.rb".toList]) : ¬ Eligible heeding below := fun eligible =>
    other (List.mem_singleton.mp ((finds _).mpr ⟨below, rfl, eligible⟩))
  obtain ⟨below, same, eligible⟩ := (finds _).mp (List.mem_singleton_self _)
  refine ⟨distinct, _, walk_heeding, ordered, List.mem_singleton_self _, ?_, returns.mp ⟨_, walk_heeding⟩,
    unfound (by decide), unfound (by decide)⟩
  have here : ["chain".toList, "z.rb".toList] = below :=
    List.append_cancel_left (congrArg Path.names same)
  exact here ▸ eligible

/-- A folder with a source, and with a link to a name that is too long to be looked up. -/
def strayed : Disk where
  home := ["srv".toList]
  entries := [
    (["srv".toList], .folder),
    (["srv".toList, "a.rb".toList], .file []),
    (["srv".toList, "l".toList], .link (List.replicate 256 'n'))]

set_option maxRecDepth 4000 in
def freely : Rules strayed where
  root := ⟨0, []⟩
  bound := ["srv".toList]
  settled := by cbv
  skipped := []
  ignored _ := false

set_option maxRecDepth 4000 in
/-- The source is eligible, but the walk does not return: it is stopped at the link. -/
theorem strayed_walk_stops :
    Eligible freely ["a.rb".toList] ∧
      walk freely [] = .error (.refused (freely.path ["l".toList]) .tooLong) := by
  have own : strayed.ownStatus (freely.path ["a.rb".toList]) = .ok (some (.file [])) := by cbv
  have source : turn freely [] "a.rb".toList = .note (.source (freely.path ["a.rb".toList])) :=
    turn_eq_source_iff.mpr ⟨rfl, inside_of_plain own (by simp),
      ⟨by decide +kernel, rfl, [], by cbv, List.not_mem_nil⟩⟩
  have link : turn freely [] "l".toList = .stop (.refused (freely.path ["l".toList]) .tooLong) := by
    cbv
  have listed : strayed.listing (freely.path []) = .ok ["a.rb".toList, "l".toList] := by cbv
  have course : course freely [] = [
      (["a.rb".toList], .ok (.source (freely.path ["a.rb".toList]))),
      (["l".toList], .error (.refused (freely.path ["l".toList]) .tooLong))] := by
    rw [course_of_listing listed]
    simp only [List.flatMap_cons, List.flatMap_nil, branch, source, link]
    rfl
  refine ⟨(mem_course_source_iff (p := freely.path ["a.rb".toList]).mp ?_).2, ?_⟩
  · rw [course]
    exact List.mem_cons_self
  · rw [walk_eq, course]
    rfl

end PromptAudit.Discovery
