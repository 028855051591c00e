import Mathlib.Data.List.Nodup
import PromptAudit.Proofs.Text.Order
import PromptAudit.Storage.Disk

namespace PromptAudit.Disk

variable {d : Disk}

/-- No two entries share a location. -/
def Distinct (d : Disk) : Prop := (d.entries.map Prod.fst).Nodup

instance : Decidable d.Distinct := inferInstanceAs (Decidable (List.Nodup _))

theorem item?_of_ne_nil {place : Location} (inner : place ≠ []) :
    d.item? place = d.entries.lookup place := by
  rw [item?, List.isEmpty_eq_false_iff.mpr inner]
  rfl

/-- The last name of a location in a folder. -/
def nameIn (folder place : Location) : Option Text :=
  if place.dropLast = folder then place.getLast? else none

theorem nameIn_eq_some_iff {folder place : Location} {name : Text} :
    nameIn folder place = some name ↔ place = folder ++ [name] := by
  unfold nameIn
  constructor
  · intro h
    split at h
    · rename_i inFolder
      rw [← inFolder]
      exact (List.dropLast_append_getLast? name h).symm
    · cases h
  · rintro rfl
    rw [if_pos List.dropLast_concat, List.getLast?_concat]

theorem names_eq (folder : Location) :
    d.names folder = ((d.entries.map Prod.fst).filterMap (nameIn folder)).mergeSort Text.notAfter := by
  rw [List.filterMap_map]
  rfl

/-- A location holds something when an entry has it. -/
theorem isSome_item?_iff {place : Location} (inner : place ≠ []) :
    (d.item? place).isSome = true ↔ place ∈ d.entries.map Prod.fst := by
  rw [item?_of_ne_nil inner, List.lookup_isSome_iff, List.mem_map]
  refine exists_congr fun entry => and_congr_right fun _ => ?_
  rw [beq_iff_eq]
  exact eq_comm

/-- A folder lists the names under which there is something in it. -/
theorem mem_names_iff {folder : Location} {name : Text} :
    name ∈ d.names folder ↔ ∃ item, d.item? (folder ++ [name]) = some item := by
  rw [← Option.isSome_iff_exists, isSome_item?_iff (List.concat_ne_nil _ _), names_eq,
    List.mem_mergeSort, List.mem_filterMap]
  simp only [nameIn_eq_some_iff, exists_eq_right]

/-- A folder lists its names in order and each once. -/
theorem names_pairwise (distinct : d.Distinct) (folder : Location) :
    (d.names folder).Pairwise Text.Before := by
  rw [names_eq]
  refine Text.mergeSort_notAfter_pairwise (List.Nodup.filterMap ?_ distinct)
  intro place other name here there
  rw [Option.mem_def, nameIn_eq_some_iff] at here there
  rw [here, there]

theorem distinct_empty : empty.Distinct := by decide

theorem mem_missingAbove {place above : Location} (missing : above ∈ d.missingAbove place) :
    above.length < place.length ∧ above ∉ d.entries.map Prod.fst := by
  obtain ⟨taken, absent⟩ := List.mem_filter.mp missing
  obtain ⟨n, short, rfl⟩ := List.mem_map.mp taken
  have before := List.mem_range.mp short
  have inner : place.take n ≠ [] := by
    intro top
    rw [top] at absent
    cases absent
  refine ⟨by rw [List.length_take]; omega, fun held => ?_⟩
  have present := (isSome_item?_iff inner).mpr held
  rw [Option.isNone_iff_eq_none.mp absent] at present
  cases present

theorem nodup_missingAbove (place : Location) : (d.missingAbove place).Nodup := by
  refine List.Nodup.filter _ (List.Nodup.map_on ?_ List.nodup_range)
  intro m short n low same
  have lengths := congrArg List.length same
  rw [List.length_take, List.length_take] at lengths
  have := List.mem_range.mp short
  have := List.mem_range.mp low
  omega

/-- What is put takes the place of what stood there, and the folders above it are new. -/
theorem Distinct.put (distinct : d.Distinct) (p : Path) (item : Item) : (d.put p item).Distinct := by
  unfold Disk.put
  generalize d.placeFor p item = place
  dsimp only
  split
  · exact distinct
  · have folders : ((d.missingAbove place).map fun above => (above, Item.folder)).map Prod.fst =
        d.missingAbove place := by
      rw [List.map_map]
      exact List.map_id _
    rw [Distinct, List.map_append, List.map_append, folders, List.nodup_append, List.nodup_append]
    have kept : ((d.entries.filter (·.1 ≠ place)).map Prod.fst).Sublist (d.entries.map Prod.fst) :=
      List.filter_sublist.map _
    refine ⟨⟨distinct.sublist kept, nodup_missingAbove place, ?_⟩, List.nodup_singleton _, ?_⟩
    · rintro above held _ missing rfl
      exact (mem_missingAbove missing).2 (kept.subset held)
    · intro other listed last put same
      have here : other = place := same.trans (List.mem_singleton.mp put)
      rcases List.mem_append.mp listed with held | missing
      · obtain ⟨entry, remains, rfl⟩ := List.mem_map.mp held
        exact of_decide_eq_true (List.mem_filter.mp remains).2 here
      · exact Nat.lt_irrefl _ (here ▸ (mem_missingAbove missing).1)

end PromptAudit.Disk
