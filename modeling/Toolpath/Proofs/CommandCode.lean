import Toolpath.Proofs.Shape
import Toolpath.Program.Code
import Toolpath.Decimal

/-!
The code of a program is complete. `Command.leaves` are the instructions of a command in the order
of execution, and `Action.makers` the manufacturers whose dialect has a word for an action, whatever
the format of numbers. Every target and group of a program has an entry with one line for each leaf
that the arm has a word for (`TargetCode.Codes`). A leaf without a word is reported once for each
manufacturer: reports are told apart by names, which differ just where the instances do
(`Stages.name_eq_name_iff`).
-/

set_option autoImplicit false
set_option relaxedAutoImplicit false

namespace Toolpath

variable {α : Type}

/-! ### Dialects -/

/-- The manufacturers whose dialect has a word for the action. -/
def Action.makers : Action α → List Manufacturer
  | wait _ => [.abb, .kuka, .ur, .staubli, .fanuc]
  | setDigital _ _ => [.abb, .kuka, .ur, .fanuc]
  | setAnalog _ _ => [.abb, .kuka, .ur]
  | message _ => [.abb, .ur, .fanuc]
  | stop => [.abb, .kuka, .ur, .fanuc]
  | custom code => code.map Prod.fst

/-- Whether the dialect of the manufacturer has a word for the instruction. -/
def Instruction.isWorded (instruction : Instruction α) (maker : Manufacturer) : Bool :=
  instruction.action.makers.contains maker

theorem Action.isSome_code? [DecimalText α] (action : Action α) (format : NumberFormat)
    (maker : Manufacturer) : (action.code? format maker).isSome = action.makers.contains maker := by
  cases action with
  | custom code =>
    rw [code?, makers, Option.isSome_map, List.isSome_find?, List.contains_eq_any_beq, List.any_map]
    exact congrArg code.any (funext fun entry ↦ Bool.beq_comm)
  | _ => cases maker <;> rfl

theorem Instruction.isSome_code? [DecimalText α] (instruction : Instruction α)
    (format : NumberFormat) (maker : Manufacturer) :
    (instruction.code? format maker).isSome = instruction.isWorded maker :=
  instruction.action.isSome_code? format maker

/-! ### Leaves of commands -/

namespace Command

/-- The instruction of a command that is no group. -/
def instruction? : Command α → Option (Instruction α)
  | single instruction => some instruction
  | group _ _ _ => none

/-- The instructions among everything inside the command. -/
def leaves (command : Command α) : List (Instruction α) :=
  command.nested.filterMap instruction?

theorem flatten_eq_leaves (command : Command α) : command.flatten = command.leaves := by
  induction command using member_induction with
  | single instruction => rfl
  | group label runsBefore members ih =>
    rw [flatten, flattenAll_eq, leaves, nested, nestedAll_eq, List.filterMap_cons, instruction?,
      List.filterMap_flatMap]
    exact List.flatMap_congr ih

theorem mem_leaves {command : Command α} {instruction : Instruction α} :
    instruction ∈ command.leaves ↔ command.Holds (.single instruction) := by
  rw [leaves, List.mem_filterMap, ← mem_nested]
  constructor
  · rintro ⟨inner, hinner, hleaf⟩
    cases inner with
    | single own => exact Option.some.inj hleaf ▸ hinner
    | group _ _ _ => cases hleaf
  · exact fun hinner ↦ ⟨_, hinner, rfl⟩

end Command

namespace Target

/-- The instructions of the target in the order of execution. -/
def leaves (target : Target α) : List (Instruction α) :=
  (target.command.map Command.leaves).getD []

theorem instructions_eq_leaves (target : Target α) : target.instructions = target.leaves := by
  rw [instructions, leaves]
  cases target.command with
  | none => rfl
  | some command => exact command.flatten_eq_leaves

theorem uses_of_mem_leaves {target : Target α} {leaf : Instruction α} (h : leaf ∈ target.leaves) :
    target.Uses (.command (.single leaf)) := by
  rw [leaves] at h
  cases hcommand : target.command with
  | none =>
    rw [hcommand] at h
    cases h
  | some command =>
    rw [hcommand] at h
    exact .command hcommand (Command.mem_leaves.mp h)

theorem leaves_relabel (change : Relabelling) (target : Target α) :
    (target.relabel change).leaves = target.leaves.map fun leaf ↦
      { leaf with label := change .command leaf.label } := by
  rw [← instructions_eq_leaves, ← instructions_eq_leaves, instructions, instructions, relabel]
  cases target.command with
  | none => rfl
  | some command => exact command.flatten_mapLabels _

end Target

/-! ### Distinct entries -/

section Distinct

variable {κ ι : Type} [DecidableEq κ] [DecidableEq ι] {key : α → κ} {other : α → ι}
  {entries : List α}

theorem distinctAfter_congr (h : ∀ first ∈ entries, ∀ second ∈ entries,
    key first = key second ↔ other first = other second) {rest : List α} :
    ∀ {done : List α}, done ⊆ entries → rest ⊆ entries →
      distinctAfter key (done.map key) rest = distinctAfter other (done.map other) rest := by
  induction rest with
  | nil => exact fun _ _ ↦ rfl
  | cons entry rest ih =>
    intro done hdone hrest
    rw [List.cons_subset] at hrest
    have hseen : key entry ∈ done.map key ↔ other entry ∈ done.map other := by
      rw [List.mem_map, List.mem_map]
      exact exists_congr fun first ↦ and_congr_right fun hfirst ↦
        h first (hdone hfirst) entry hrest.1
    rw [distinctAfter, distinctAfter]
    by_cases hold : key entry ∈ done.map key
    · rw [if_pos hold, if_pos (hseen.mp hold), ih hdone hrest.2]
    · rw [if_neg hold, if_neg fun hother ↦ hold (hseen.mpr hother), ← List.map_cons,
        ← List.map_cons, ih (List.cons_subset.mpr ⟨hrest.1, hdone⟩) hrest.2]

/-- Two keys that tell the same entries apart keep the same entries. -/
theorem distinctBy_congr (h : ∀ first ∈ entries, ∀ second ∈ entries,
    key first = key second ↔ other first = other second) :
    distinctBy key entries = distinctBy other entries :=
  distinctAfter_congr h (List.nil_subset entries) (List.Subset.refl entries)

end Distinct

/-! ### Names of instances -/

/-- The leaves of a step with the group that runs them: group by group, in the order of
execution. -/
def Step.leafRuns (step : Step α) (cell : Cell α) : List (Manufacturer × Instruction α) :=
  (step.waypoints.zip cell.groups).flatMap fun entry ↦
    entry.1.target.leaves.map fun leaf ↦ (entry.2.arm.manufacturer, leaf)

/-- The leaves of all targets of the program that the arm has no word for. -/
def Program.unwordedRuns (program : Program α) : List (Manufacturer × Instruction α) :=
  (program.targets.flatMap (·.leafRuns program.cell)).filter fun run ↦ !run.2.isWorded run.1

namespace Stages

variable [Scalar α] {cell : Cell α} {toolpaths : List (List (Target α))} {stepSize : α}
  {count : Nat} {first : Step α} {rest : List (Step α)} {solutions : List (Solution α)}
  {prepared : PreparedProgram α} {journey : Journey α}
  (h : Stages cell toolpaths stepSize count first rest solutions prepared journey)

include h

/-- The leaves of a kept target are those of its author, with new names. -/
theorem exists_leaves_eq {place group : Nat} {kept : Step α} {waypoint : Waypoint α}
    (hkept : journey.targets[place]? = some kept)
    (hwaypoint : kept.waypoints[group]? = some waypoint) : ∃ toolpath authored,
      toolpaths[group]? = some toolpath ∧ toolpath[place]? = some authored ∧
      waypoint.target.leaves = authored.leaves.map fun leaf ↦
        { leaf with label := namesOf toolpaths .command leaf.label } := by
  obtain ⟨toolpath, authored, htoolpath, hauthored, htarget⟩ :=
    (h.keeps hkept).target group waypoint hwaypoint
  refine ⟨toolpath, authored, htoolpath, hauthored, ?_⟩
  rw [htarget, Target.leaves_relabel, Cell.keptTarget]
  split_ifs <;> rfl

theorem exists_authored_leaf {kept : Step α} (hkept : kept ∈ journey.targets)
    {waypoint : Waypoint α} (hwaypoint : waypoint ∈ kept.waypoints) {leaf : Instruction α}
    (hleaf : leaf ∈ waypoint.target.leaves) : ∃ authored : Instruction α,
      .command (.single authored) ∈ authoredUses toolpaths ∧
      .command (.single leaf) =
        (Attribute.command (.single authored)).relabel (namesOf toolpaths) := by
  obtain ⟨place, hplace⟩ := List.mem_iff_getElem?.mp hkept
  obtain ⟨group, hgroup⟩ := List.mem_iff_getElem?.mp hwaypoint
  obtain ⟨toolpath, authored, htoolpath, hauthored, hleaves⟩ := h.exists_leaves_eq hplace hgroup
  obtain ⟨own, hown, rfl⟩ := List.mem_map.mp (hleaves ▸ hleaf)
  exact ⟨own, (mem_authoredUses h.length).mpr ⟨toolpath, List.mem_of_getElem? htoolpath, authored,
    List.mem_of_getElem? hauthored, Target.uses_of_mem_leaves hown⟩, rfl⟩

theorem map_index_targets :
    journey.targets.map Step.index = List.range journey.targets.length := by
  refine List.ext_getElem? fun place ↦ ?_
  rw [List.getElem?_map]
  cases hkept : journey.targets[place]? with
  | none =>
    rw [List.getElem?_eq_none_iff] at hkept
    rw [List.getElem?_eq_none (List.length_range ▸ hkept), Option.map_none]
  | some kept =>
    obtain ⟨hlt, _⟩ := List.getElem?_eq_some_iff.mp hkept
    rw [List.getElem?_range hlt, Option.map_some, h.index_of_getElem? hkept]

theorem length_targets_le : journey.targets.length ≤ count := by
  have hindices := congrArg List.length h.index_prepared
  have htasks := h.tasks_prefix.length_le
  rw [List.length_map, List.length_range] at hindices
  rwa [List.length_map, List.length_map, hindices] at htasks

end Stages

/-- New names are equal just where the instances are. -/
theorem name_eq_name_iff {toolpaths : List (List (Target α))}
    (hcoherent : Coherent (authoredUses toolpaths)) {first second : Attribute α}
    (hfirst : first ∈ authoredUses toolpaths) (hsecond : second ∈ authoredUses toolpaths) :
    (first.relabel (namesOf toolpaths)).name = (second.relabel (namesOf toolpaths)).name ↔
      (first.relabel (namesOf toolpaths)).id = (second.relabel (namesOf toolpaths)).id := by
  have hlisted : ∀ use ∈ authoredUses toolpaths,
      use ∈ distinctBy Attribute.id (authoredUses toolpaths) := fun use huse ↦ by
    obtain ⟨entry, hentry, hid⟩ := exists_mem_distinctBy Attribute.id huse
    exact hcoherent entry (mem_of_mem_distinctBy hentry) use huse hid ▸ hentry
  have hnames := (Naming.names_ofListing
    (nodup_distinctBy Attribute.id (authoredUses toolpaths))).nodup
  rw [namesOf, Naming.name_relabel, Naming.name_relabel, Naming.id_relabel, Naming.id_relabel]
  constructor
  · intro hname
    exact congrArg Attribute.id
      (List.inj_on_of_nodup_map hnames (hlisted first hfirst) (hlisted second hsecond) hname)
  · intro hid
    rw [hcoherent first hfirst second hsecond hid]

/-! ### Code lines -/

/-- One line for each leaf that the manufacturer has a word for, in the order of execution. -/
structure TargetCode.Codes [DecimalText α] (entry : TargetCode) (format : NumberFormat)
    (maker : Manufacturer) (leaves : List (Instruction α)) : Prop where
  before : entry.before.map some =
    (leaves.filter fun leaf ↦ leaf.runsBefore && leaf.isWorded maker).map (·.code? format maker)
  after : entry.after.map some =
    (leaves.filter fun leaf ↦ !leaf.runsBefore && leaf.isWorded maker).map (·.code? format maker)

/-- The report of a leaf that its arm has no word for. -/
def MissingCode.ofRun (run : Manufacturer × Instruction α) : MissingCode :=
  ⟨run.2.typeName, run.2.label.name, run.1⟩

variable [DecimalText α]

theorem Instruction.isNone_code? (instruction : Instruction α) (format : NumberFormat)
    (maker : Manufacturer) :
    (instruction.code? format maker).isNone = !instruction.isWorded maker := by
  rw [← instruction.isSome_code? format maker, Option.not_isSome]

/-- A list of instructions gives one line for each that the manufacturer has a word for. -/
theorem map_some_filterMap_code? (leaves : List (Instruction α)) (format : NumberFormat)
    (maker : Manufacturer) : (leaves.filterMap (·.code? format maker)).map some =
      (leaves.filter (·.isWorded maker)).map (·.code? format maker) := by
  have hworded : ∀ leaf ∈ leaves.filter (·.isWorded maker), (leaf.code? format maker).isSome := by
    intro leaf hleaf
    rw [leaf.isSome_code?]
    exact (List.mem_filter.mp hleaf).2
  rw [← map_some_filterMap hworded, List.filterMap_filter]
  refine congrArg (List.map some) (List.filterMap_congr fun leaf _ ↦ ?_)
  rw [← leaf.isSome_code? format maker]
  cases leaf.code? format maker <;> rfl

namespace Waypoint

theorem map_some_codeLines (waypoint : Waypoint α) (format : NumberFormat) (maker : Manufacturer)
    (before : Bool) : (waypoint.codeLines format maker before).map some =
      (waypoint.target.leaves.filter fun leaf ↦
        (leaf.runsBefore == before) && leaf.isWorded maker).map (·.code? format maker) := by
  rw [codeLines, Target.instructions_eq_leaves, map_some_filterMap_code?, List.filter_filter]
  simp only [Bool.and_comm]

theorem missingCode_eq (waypoint : Waypoint α) (format : NumberFormat) (maker : Manufacturer) :
    waypoint.missingCode format maker =
      ((waypoint.target.leaves.map fun leaf ↦ (maker, leaf)).filter fun run ↦
        !run.2.isWorded run.1).map MissingCode.ofRun := by
  rw [missingCode, Target.instructions_eq_leaves, List.filter_map, List.map_map]
  simp only [Instruction.isNone_code?]
  rfl

end Waypoint

namespace Program

variable {program : Program α}

/-- The entries are in the order of the targets and of the groups. -/
theorem map_place_commandsCode (format : NumberFormat)
    (hindex : program.targets.map Step.index = List.range program.targets.length)
    (hgroups : ∀ kept ∈ program.targets, kept.waypoints.length = program.cell.groups.length) :
    ((program.commandsCode format).targets.map fun entry ↦ (entry.index, entry.group)) =
      (List.range program.targets.length).flatMap fun index ↦
        (List.range program.cell.groups.length).map fun group ↦ (index, group) := by
  rw [← hindex, List.flatMap_map, commandsCode, List.map_map, codedWaypoints, List.map_flatMap]
  refine List.flatMap_congr fun kept hkept ↦ ?_
  have hlength : (kept.waypoints.zip program.cell.groups).length = program.cell.groups.length := by
    rw [List.length_zip, hgroups kept hkept, Nat.min_self]
  rw [← hlength, List.range_eq_range', ← List.zipIdx_map_snd, List.map_map, List.map_map]
  rfl

theorem flatMap_missingCode (program : Program α) (format : NumberFormat) :
    (program.codedWaypoints.flatMap fun coded ↦ coded.2.2.2.missingCode format coded.2.2.1) =
      program.unwordedRuns.map MissingCode.ofRun := by
  rw [unwordedRuns, codedWaypoints, List.flatMap_assoc, List.filter_flatMap, List.map_flatMap]
  refine List.flatMap_congr fun kept _ ↦ ?_
  have hentries := List.flatMap_map Prod.fst (fun entry : Waypoint α × Group α ↦
    entry.1.missingCode format entry.2.arm.manufacturer)
      (kept.waypoints.zip program.cell.groups).zipIdx
  rw [List.zipIdx_map_fst] at hentries
  rw [Step.leafRuns, List.filter_flatMap, List.map_flatMap, List.flatMap_map]
  exact hentries.symm.trans (List.flatMap_congr fun entry _ ↦ entry.1.missingCode_eq format _)

omit [DecimalText α] in
theorem exists_of_mem_unwordedRuns {run : Manufacturer × Instruction α}
    (h : run ∈ program.unwordedRuns) : ∃ kept waypoint, kept ∈ program.targets ∧
      waypoint ∈ kept.waypoints ∧ run.2 ∈ waypoint.target.leaves := by
  obtain ⟨kept, hkept, hrun⟩ := List.mem_flatMap.mp (List.mem_filter.mp h).1
  obtain ⟨entry, hentry, hleaf⟩ := List.mem_flatMap.mp hrun
  obtain ⟨leaf, hmem, rfl⟩ := List.mem_map.mp hleaf
  exact ⟨kept, entry.1, hkept, (List.of_mem_zip hentry).1, hmem⟩

/-- Where the names are those of the instances, so are the reports. -/
theorem missing_commandsCode (format : NumberFormat)
    (hnames : ∀ first ∈ program.unwordedRuns, ∀ second ∈ program.unwordedRuns,
      first.2.label.name = second.2.label.name ↔ first.2.label.key = second.2.label.key) :
    (program.commandsCode format).missing =
      (distinctBy (fun run ↦ (run.2.label.key, run.1)) program.unwordedRuns).map
        MissingCode.ofRun := by
  have hreports : (program.commandsCode format).missing =
      distinctBy (fun report ↦ (report.name, report.manufacturer))
        (program.unwordedRuns.map MissingCode.ofRun) := by
    rw [← flatMap_missingCode]
    rfl
  have hsame : ∀ run : Manufacturer × Instruction α,
      ((MissingCode.ofRun run).name, (MissingCode.ofRun run).manufacturer) =
        (run.2.label.name, run.1) := fun _ ↦ rfl
  rw [hreports, distinctBy_map_of_key hsame]
  refine congrArg (List.map MissingCode.ofRun) (distinctBy_congr fun first hfirst second hsecond ↦ ?_)
  rw [Prod.mk.injEq, Prod.mk.injEq, hnames first hfirst second hsecond]

/-- An entry is that of a target and a group. -/
theorem exists_of_mem_commandsCode {format : NumberFormat} {entry : TargetCode}
    (h : entry ∈ (program.commandsCode format).targets) :
    ∃ kept waypoint group, kept ∈ program.targets ∧ entry.index = kept.index ∧
      kept.waypoints[entry.group]? = some waypoint ∧
      program.cell.groups[entry.group]? = some group ∧
      entry.Codes format group.arm.manufacturer waypoint.target.leaves := by
  obtain ⟨coded, hcoded, rfl⟩ := List.mem_map.mp h
  obtain ⟨kept, hkept, hentry⟩ := List.mem_flatMap.mp hcoded
  obtain ⟨⟨⟨waypoint, group⟩, place⟩, hplace, rfl⟩ := List.mem_map.mp hentry
  obtain ⟨hwaypoint, hgroup⟩ :=
    List.getElem?_zip_eq_some.mp (List.mem_zipIdx_iff_getElem?.mp hplace)
  refine ⟨kept, waypoint, group, hkept, rfl, hwaypoint, hgroup, ?_, ?_⟩
  · simpa using waypoint.map_some_codeLines format group.arm.manufacturer true
  · simpa using waypoint.map_some_codeLines format group.arm.manufacturer false

end Program

/-- Every kept target has an entry for each group with one line for each of its leaf commands that
the arm of the group has a word for, and each instance of a leaf without one is reported once for
each manufacturer, in the order of first use. -/
theorem compile_codes_commands [Scalar α] {name : String} {cell : Cell α}
    {toolpaths : List (List (Target α))} {stepSize : α} {program : Program α}
    (hcoherent : Coherent (authoredUses toolpaths))
    (h : Program.compile name cell toolpaths stepSize = .ok program) (format : NumberFormat) :
    ((program.commandsCode format).targets.map fun entry ↦ (entry.index, entry.group)) =
      ((List.range program.targets.length).flatMap fun index ↦
        (List.range cell.groups.length).map fun group ↦ (index, group)) ∧
    (∀ entry ∈ (program.commandsCode format).targets, ∃ kept waypoint group,
      program.targets[entry.index]? = some kept ∧ kept.waypoints[entry.group]? = some waypoint ∧
      cell.groups[entry.group]? = some group ∧
      entry.Codes format group.arm.manufacturer waypoint.target.leaves) ∧
    ∃ reported : List (Manufacturer × Instruction α),
      reported.Sublist program.unwordedRuns ∧
      (reported.map fun run ↦ (run.2.label.key, run.1)) =
        (program.unwordedRuns.map fun run ↦ (run.2.label.key, run.1)).eraseDups ∧
      (program.commandsCode format).missing = reported.map MissingCode.ofRun := by
  obtain ⟨count, first, rest, solutions, prepared, journey, hstages, rfl⟩ := exists_stages_eq h
  refine ⟨?_, fun entry hentry ↦ ?_, _, distinctAfter_sublist _ _ _, distinctBy_map _ _,
    Program.missing_commandsCode format fun first hfirst second hsecond ↦ ?_⟩
  · exact Program.map_place_commandsCode format hstages.map_index_targets fun kept hkept ↦ by
      obtain ⟨place, hplace⟩ := List.mem_iff_getElem?.mp hkept
      exact (hstages.keeps hplace).groups.trans hstages.groups
  · obtain ⟨kept, waypoint, group, hkept, hindex, hwaypoint, hgroup, hcodes⟩ :=
      Program.exists_of_mem_commandsCode hentry
    obtain ⟨place, hplace⟩ := List.mem_iff_getElem?.mp hkept
    obtain rfl := hindex.trans (hstages.index_of_getElem? hplace)
    exact ⟨kept, waypoint, group, hplace, hwaypoint, hgroup, hcodes⟩
  · obtain ⟨kept, waypoint, hkept, hwaypoint, hleaf⟩ := Program.exists_of_mem_unwordedRuns hfirst
    obtain ⟨other, passed, hother, hpassed, hsecondLeaf⟩ :=
      Program.exists_of_mem_unwordedRuns hsecond
    obtain ⟨authored, hauthored, hnamed⟩ := hstages.exists_authored_leaf hkept hwaypoint hleaf
    obtain ⟨shared, hshared, hsecondNamed⟩ :=
      hstages.exists_authored_leaf hother hpassed hsecondLeaf
    have hiff := name_eq_name_iff hcoherent hauthored hshared
    rw [← hnamed, ← hsecondNamed] at hiff
    exact hiff.trans ⟨fun hid ↦ (Prod.mk.inj hid).2, congrArg (Prod.mk AttributeKind.command)⟩

/-- A clamp that only the second arm has a word for, used before and after a halt, and a measurement
that neither arm has one for. -/
def clamping : Target Float :=
  let clamp : Command Float := .single ⟨⟨.authored 1, "Clamp"⟩, false, .custom [(.kuka, "CLAMP()")]⟩
  { Target.ofGoal (.joints []) with
    command := some (.group ⟨.authored 0, "Grip"⟩ false
      [clamp, .single ⟨⟨.authored 2, ""⟩, true, .stop⟩,
        .single ⟨⟨.authored 3, "Measure"⟩, true, .custom [(.fanuc, "CALL MEASURE")]⟩, clamp]) }

/-- Arms of two manufacturers. -/
def mixedPair : Cell Float :=
  ⟨"Mixed", 1, [⟨.irb4600, []⟩, ⟨.iiwa7, []⟩]⟩

theorem coherent_clamping : Coherent (authoredUses [[clamping], [clamping]]) := by
  have hdistinct : Coherent (clamping.attributes.take 8) := coherent_of_nodup (by decide)
  have hevery : authoredUses [[clamping], [clamping]] =
      clamping.attributes.take 8 ++ clamping.attributes.drop 8 ++
        (clamping.attributes.take 8 ++ clamping.attributes.drop 8) := rfl
  have hagain : ∀ use ∈ clamping.attributes.drop 8, use ∈ clamping.attributes.take 8 := by
    intro use huse
    -- The ninth use is that of the same clamp as the sixth.
    obtain rfl := List.mem_singleton.mp huse
    exact List.mem_of_getElem? (rfl : _[5]? = _)
  have hall : ∀ use ∈ authoredUses [[clamping], [clamping]], use ∈ clamping.attributes.take 8 := by
    intro use huse
    rw [hevery, List.mem_append, or_self, List.mem_append] at huse
    exact huse.elim id (hagain use)
  exact fun first hfirst second hsecond ↦
    hdistinct first (hall first hfirst) second (hall second hsecond)

/-- What the arms have no word for is reported for each manufacturer. -/
theorem compile_codes_clamping :
    Coherent (authoredUses [[clamping], [clamping]]) ∧ ∃ program : Program Float,
      Program.compile "Clamping" mixedPair [[clamping], [clamping]] 1.0 = .ok program ∧
      ((program.commandsCode .standard).targets.map fun entry ↦ (entry.index, entry.group)) =
        [(0, 0), (0, 1)] ∧
      (∀ entry ∈ (program.commandsCode .standard).targets, entry.group = 0 →
        entry.before = ["Stop;"] ∧ entry.after = []) ∧
      (∀ entry ∈ (program.commandsCode .standard).targets, entry.group = 1 →
        entry.before = ["HALT"] ∧ entry.after = ["CLAMP()", "CLAMP()"]) ∧
      (program.commandsCode .standard).missing.map MissingCode.manufacturer =
        [.abb, .abb, .kuka] := by
  have huncoupled : ∀ toolpath ∈ [[clamping], [clamping]], ∀ target ∈ toolpath,
      target.coupling = (none, none) := by
    intro toolpath htoolpath target htarget
    rcases List.mem_pair.mp htoolpath with rfl | rfl <;>
      exact List.mem_singleton.mp htarget ▸ rfl
  obtain ⟨program, hprogram⟩ : ∃ program : Program Float,
      Program.compile "Clamping" mixedPair [[clamping], [clamping]] 1.0 = .ok program :=
    exists_compile_uncoupled "Clamping" rfl (rfl : toolpathLength _ = .ok 1) (by decide) huncoupled
  obtain ⟨hplaces, hentries, reported, -, hreported, hmissing⟩ :=
    compile_codes_commands coherent_clamping hprogram .standard
  obtain ⟨count, _, _, _, _, journey, hstages, rfl⟩ := exists_stages_eq hprogram
  obtain rfl : 1 = count := Except.ok.inj hstages.length
  obtain ⟨kept, hkept⟩ := List.length_eq_one_iff.mp (Nat.le_antisymm hstages.length_targets_le
    (List.length_pos_iff.mpr hstages.targets_ne_nil))
  have hplace : journey.targets[0]? = some kept := by rw [hkept]; rfl
  obtain ⟨first, second, hwaypoints⟩ := List.length_eq_two.mp (hstages.keeps hplace).groups
  have hfirst : kept.waypoints[0]? = some first := by rw [hwaypoints]; rfl
  have hsecond : kept.waypoints[1]? = some second := by rw [hwaypoints]; rfl
  have hleaves : ∀ {place : Nat} {waypoint : Waypoint Float},
      kept.waypoints[place]? = some waypoint → waypoint.target.leaves =
        clamping.leaves.map fun leaf ↦
          { leaf with label := namesOf [[clamping], [clamping]] .command leaf.label } := by
    intro place waypoint hwaypoint
    obtain ⟨toolpath, authored, htoolpath, hauthored, hnamed⟩ :=
      hstages.exists_leaves_eq hplace hwaypoint
    have hclamping : clamping = authored := by
      rcases List.mem_pair.mp (List.mem_of_getElem? htoolpath) with rfl | rfl <;>
        exact Option.some.inj hauthored
    rw [hnamed, hclamping]
  refine ⟨coherent_clamping, _, hprogram, ?_, ?_, ?_, ?_⟩
  · rw [hplaces]
    dsimp only
    rw [hkept]
    rfl
  · intro entry hentry hgroup
    obtain ⟨step, passed, group, hstep, hpassed, hheld, hbefore, hafter⟩ := hentries entry hentry
    obtain rfl := List.mem_singleton.mp (hkept ▸ List.mem_of_getElem? hstep)
    rw [hgroup] at hheld
    obtain rfl := Option.some.inj hheld
    rw [hleaves hpassed] at hbefore hafter
    exact ⟨List.map_injective_iff.mpr (Option.some_injective _) hbefore,
      List.map_eq_nil_iff.mp hafter⟩
  · intro entry hentry hgroup
    obtain ⟨step, passed, group, hstep, hpassed, hheld, hbefore, hafter⟩ := hentries entry hentry
    obtain rfl := List.mem_singleton.mp (hkept ▸ List.mem_of_getElem? hstep)
    rw [hgroup] at hheld
    obtain rfl := Option.some.inj hheld
    rw [hleaves hpassed] at hbefore hafter
    exact ⟨List.map_injective_iff.mpr (Option.some_injective _) hbefore,
      List.map_injective_iff.mpr (Option.some_injective _) hafter⟩
  · let run (maker : Manufacturer) (key : Nat) (name : String) (before : Bool)
        (words : List (Manufacturer × String)) : Manufacturer × Instruction Float :=
      (maker, ⟨namesOf [[clamping], [clamping]] .command ⟨.authored key, name⟩, before,
        .custom words⟩)
    have hruns : (journey.targets.flatMap (·.leafRuns mixedPair)).filter
        (fun run ↦ !run.2.isWorded run.1) =
          [run .abb 1 "Clamp" false [(.kuka, "CLAMP()")],
            run .abb 3 "Measure" true [(.fanuc, "CALL MEASURE")],
            run .abb 1 "Clamp" false [(.kuka, "CLAMP()")],
            run .kuka 3 "Measure" true [(.fanuc, "CALL MEASURE")]] := by
      rw [hkept, List.flatMap_singleton, Step.leafRuns, hwaypoints]
      show List.filter _ (first.target.leaves.map _ ++ (second.target.leaves.map _ ++ [])) = _
      rw [hleaves hfirst, hleaves hsecond]
      rfl
    have hmakers := congrArg (List.map Prod.snd) hreported
    rw [List.map_map, Program.unwordedRuns, hruns] at hmakers
    rw [hmissing, List.map_map]
    exact hmakers

end Toolpath
