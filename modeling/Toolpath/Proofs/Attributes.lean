import Toolpath.Proofs.Exact.Scalar
import Toolpath.Proofs.Listing
import Toolpath.Proofs.Naming
import Toolpath.Proofs.Totality
import Toolpath.Arm.Preset

/-!
The attributes of a compiled program. `authoredUses` is the sequence in which the author uses tools,
frames, speeds, zones and commands. Fitting and anchoring the targets does not change it
(`flatMap_uses_readied`), so that a program lists the distinct instances of it. `IsListing` says what the
list is worth: one entry per instance in the order of first use, names that are not empty and
pairwise different, and the name of an author kept by the first instance that has it.
`compile_lists_attributes` shows this for every program, and that the targets refer to nothing but
the listed instances.
-/

set_option autoImplicit false
set_option relaxedAutoImplicit false

namespace Toolpath

variable {α : Type}

/-! ### Uses -/

namespace Attribute

/-- The attribute as it is apart from the names of its labels. -/
def withoutNames (entry : Attribute α) : Attribute α :=
  entry.relabel fun _ label ↦ label.rename ""

end Attribute

/-- The uses of attributes in the order of the program: index by index, toolpath by toolpath. -/
def authoredUses (toolpaths : List (List (Target α))) : List (Attribute α) :=
  (List.range ((toolpaths.head?.map List.length).getD 0)).flatMap fun index ↦
    (toolpaths.filterMap (·[index]?)).flatMap Target.attributes

/-- Uses of one instance are uses of the same attribute. -/
def Coherent (uses : List (Attribute α)) : Prop :=
  ∀ first ∈ uses, ∀ second ∈ uses, first.id = second.id → first = second

theorem coherent_of_nodup {uses : List (Attribute α)} (h : (uses.map Attribute.id).Nodup) :
    Coherent uses :=
  fun _ hfirst _ hsecond hid ↦ List.inj_on_of_nodup_map h hfirst hsecond hid

/-- The list names every instance in use once. -/
structure IsListing (uses listing : List (Attribute α)) : Prop where
  /-- One entry per instance, in the order of first use. -/
  ids_eq : listing.map Attribute.id = (uses.map Attribute.id).eraseDups
  ids_nodup : (listing.map Attribute.id).Nodup
  /-- An entry is the instance itself apart from names. -/
  same : ∀ entry ∈ listing, ∀ use ∈ uses, entry.id = use.id →
    entry.withoutNames = use.withoutNames
  names_ne_empty : ∀ entry ∈ listing, entry.name ≠ ""
  names_nodup : (listing.map Attribute.name).Nodup
  /-- The first use of an author's name keeps it. -/
  first_keeps : ∀ before use after, uses = before ++ use :: after → use.name ≠ "" →
    (∀ other ∈ before, other.name ≠ use.name) →
      ∃ entry ∈ listing, entry.id = use.id ∧ entry.name = use.name

namespace Step

/-- The uses of the targets of a step, group by group. -/
def uses (step : Step α) : List (Attribute α) :=
  step.targets.flatMap Target.attributes

end Step

theorem attributes_withExternal (target : Target α) (external : List α) :
    (target.withExternal external).attributes = target.attributes :=
  rfl

theorem attributes_toJoints (target : Target α) (values : List α) :
    (target.toJoints values).attributes = target.attributes :=
  rfl

theorem attributes_withConfiguration (target : Target α) (configuration : Option Configuration) :
    (target.withConfiguration configuration).attributes = target.attributes := by
  unfold Target.withConfiguration
  split <;> rfl

variable [Scalar α]

/-- The preparation of the targets does not change what they use. -/
theorem flatMap_uses_readied {cell : Cell α} {first : Step α} {rest : List (Step α)}
    {solutions : List (Solution α)} (h : solutions.length = first.waypoints.length) :
    (readied cell first rest solutions).flatMap Step.uses = (first :: rest).flatMap Step.uses := by
  have hkept : (readied cell first rest solutions).map (·.targets.map Target.attributes) =
      (first :: rest).map (·.targets.map Target.attributes) :=
    map_targets_readied cell rest attributes_withExternal attributes_withConfiguration
      attributes_toJoints h
  have hjoined := congrArg (fun uses ↦ (uses.map List.flatten).flatten) hkept
  simp only [List.map_map, Function.comp_def, ← List.flatMap_def] at hjoined
  exact hjoined

/-! ### The named listing -/

omit [Scalar α] in
theorem Attribute.withoutNames_relabel (naming : Naming) (entry : Attribute α) :
    (entry.relabel naming.relabelling).withoutNames = entry.withoutNames := by
  simp only [withoutNames, Attribute.relabel_relabel, Label.rename, Naming.key_relabelling]

omit [Scalar α] in
/-- The distinct uses with their new names are a listing of all uses. -/
theorem isListing_named {uses : List (Attribute α)} (hcoherent : Coherent uses) :
    IsListing uses ((distinctBy Attribute.id uses).map
      (Attribute.relabel (Naming.ofListing (distinctBy Attribute.id uses)).relabelling)) := by
  have hnodup := nodup_distinctBy Attribute.id uses
  have hnames := Naming.names_ofListing hnodup
  constructor
  · rw [← distinctBy_map, List.map_map]
    simp [Function.comp_def]
  · rw [List.map_map]
    simpa [Function.comp_def] using hnodup
  · intro entry hentry use huse hid
    obtain ⟨source, hsource, rfl⟩ := List.mem_map.mp hentry
    rw [Naming.id_relabel] at hid
    rw [hcoherent source (mem_of_mem_distinctBy hsource) use huse hid,
      Attribute.withoutNames_relabel]
  · intro entry hentry
    obtain ⟨source, hsource, rfl⟩ := List.mem_map.mp hentry
    rw [Naming.name_relabel]
    refine hnames.ne_empty _ ?_
    rw [hnames.used_eq, List.mem_reverse]
    exact List.mem_map_of_mem hsource
  · rw [List.map_map]
    simpa [Function.comp_def, Naming.name_relabel] using hnames.nodup
  · intro before use after huses hnonempty hbefore
    have hkeys : ∀ other ∈ before, other.id ≠ use.id := by
      intro other hother hid
      have hsame := hcoherent other (huses ▸ by simp [hother]) use (huses ▸ by simp) hid
      exact hbefore other hother (hsame ▸ rfl)
    obtain ⟨earlier, later, hsplit, hsubset⟩ :=
      exists_distinctAfter_eq_append Attribute.id after List.not_mem_nil hkeys
    rw [← huses] at hsplit
    refine ⟨use.relabel (Naming.ofListing (distinctBy Attribute.id uses)).relabelling, ?_,
      Naming.id_relabel _ _, ?_⟩
    · refine List.mem_map_of_mem ?_
      rw [distinctBy, hsplit]
      simp
    · rw [Naming.name_relabel]
      exact hnames.first_keeps earlier use later hsplit hnonempty
        fun other hother ↦ hbefore other (hsubset hother)

/-! ### Compiled programs -/

omit [Scalar α] in
/-- The uses in a program are the uses of its targets. -/
theorem mem_authoredUses {toolpaths : List (List (Target α))} {count : Nat}
    (h : toolpathLength toolpaths = .ok count) {use : Attribute α} :
    use ∈ authoredUses toolpaths ↔
      ∃ toolpath ∈ toolpaths, ∃ target ∈ toolpath, target.Uses use := by
  have hlength := length_of_toolpathLength h
  simp only [authoredUses, List.mem_flatMap, List.mem_range, List.mem_filterMap,
    Target.mem_attributes]
  constructor
  · rintro ⟨index, _, target, ⟨toolpath, htoolpath, htarget⟩, huses⟩
    exact ⟨toolpath, htoolpath, target, List.mem_of_getElem? htarget, huses⟩
  · rintro ⟨toolpath, htoolpath, target, htarget, huses⟩
    obtain ⟨index, hindex, rfl⟩ := List.getElem_of_mem htarget
    obtain ⟨first, others, rfl⟩ := List.exists_cons_of_ne_nil (List.ne_nil_of_mem htoolpath)
    refine ⟨index, ?_, toolpath[index], ⟨toolpath, htoolpath, List.getElem?_eq_getElem hindex⟩,
      huses⟩
    rw [List.head?_cons, Option.map_some, Option.getD_some, hlength first List.mem_cons_self,
      ← hlength toolpath htoolpath]
    exact hindex

theorem flatMap_uses_stepsOf {toolpaths : List (List (Target α))} {count : Nat}
    (h : toolpathLength toolpaths = .ok count) :
    (stepsOf toolpaths count).flatMap Step.uses = authoredUses toolpaths := by
  have hcount : (toolpaths.head?.map List.length).getD 0 = count := by
    rw [toolpathLength] at h
    split_ifs at h
    split at h
    · cases h
    · exact Except.ok.inj h
  rw [stepsOf, List.flatMap_map, authoredUses, hcount]
  simp only [Step.uses, Step.targets_ofTargets]

/-- A compiled program lists every attribute instance that its author uses, with a name of its own,
and its targets refer to the listed instances. -/
theorem compile_lists_attributes {name : String} {cell : Cell α}
    {toolpaths : List (List (Target α))} {stepSize : α} {program : Program α}
    (hcoherent : Coherent (authoredUses toolpaths))
    (h : Program.compile name cell toolpaths stepSize = .ok program) :
    (∀ use, use ∈ authoredUses toolpaths ↔
      ∃ toolpath ∈ toolpaths, ∃ target ∈ toolpath, target.Uses use) ∧
    IsListing (authoredUses toolpaths) program.attributes ∧
    ∀ step ∈ program.targets, ∀ target ∈ step.targets, ∀ use, target.Uses use →
      use ∈ program.attributes := by
  obtain ⟨count, first, rest, solutions, prepared, journey, hstages, _, htargets, _, _,
    hlisted⟩ := exists_stages h
  have hsolutions : solutions.length = first.waypoints.length :=
    (Cell.length_of_solve hstages.prepares.solve).2.trans
      (hstages.length_waypoints first List.mem_cons_self).symm
  have huses : (readied cell first rest solutions).flatMap Step.uses = authoredUses toolpaths := by
    rw [flatMap_uses_readied hsolutions, ← hstages.steps, flatMap_uses_stepsOf hstages.length]
  have hattributes : program.attributes = (distinctBy Attribute.id (authoredUses toolpaths)).map
      (Attribute.relabel
        (Naming.ofListing (distinctBy Attribute.id (authoredUses toolpaths))).relabelling) := by
    rw [hlisted, hstages.prepares.attributes, ← huses]
    rfl
  refine ⟨fun use ↦ mem_authoredUses hstages.length, hattributes ▸ isListing_named hcoherent, ?_⟩
  intro step hstep target htarget use huse
  -- The targets of the step are those of a prepared step, which are named as the listing is.
  obtain ⟨named, hnamed, htask⟩ := List.mem_map.mp
    (hstages.tasks_prefix.subset (List.mem_map_of_mem (htargets ▸ hstep)))
  rw [← (Prod.mk.inj htask).2] at htarget
  rw [hstages.prepares.steps] at hnamed
  obtain ⟨source, hsource, rfl⟩ := List.mem_map.mp hnamed
  rw [Step.targets_mapTargets] at htarget
  obtain ⟨⟨given, group⟩, hgiven, rfl⟩ := List.mem_map.mp htarget
  rw [← Target.mem_attributes, Target.attributes_relabel] at huse
  obtain ⟨used, hused, rfl⟩ := List.mem_map.mp huse
  have hauthored : used ∈ authoredUses toolpaths := by
    rw [← huses]
    exact List.mem_flatMap.mpr ⟨source, hsource,
      List.mem_flatMap.mpr ⟨given, List.mem_of_getElem? (List.mem_zipIdx_iff_getElem?.mp hgiven),
        hused⟩⟩
  obtain ⟨entry, hentry, hid⟩ := exists_mem_distinctBy Attribute.id hauthored
  obtain rfl := hcoherent entry (mem_of_mem_distinctBy hentry) used hauthored hid
  rw [hattributes]
  refine List.mem_map.mpr ⟨entry, hentry, ?_⟩
  rw [← huses]
  rfl

/-- A target whose tool has no name, while an instruction nested in its command has the name that
the tool would get. -/
noncomputable def drilling : Target ℝ :=
  { Target.ofGoal (.joints []) with
    tool := ⟨⟨.authored 0, ""⟩, 1, 0⟩
    command := some (.group ⟨.authored 0, "Drill"⟩ false
      [.single ⟨⟨.authored 1, "Tool000"⟩, false, .stop⟩]) }

theorem compile_lists_drilling :
    Coherent (authoredUses [[drilling]]) ∧
    ∃ program, Program.compile "Drilling" (.single .irb120) [[drilling]] 1 = .ok program ∧
      IsListing (authoredUses [[drilling]]) program.attributes ∧
      ∃ entry ∈ program.attributes, entry.id = (.command, .authored 1) ∧
        entry.name = "Tool000" := by
  have hcoherent : Coherent (authoredUses [[drilling]]) := coherent_of_nodup (by decide)
  have hsize : isStepSize (1 : ℝ) = true := by simp [isStepSize, Exact.isFinite_eq_true]
  obtain ⟨program, hprogram⟩ :=
    exists_compile_single "Drilling" .irb120 (rfl : drilling.coupling = (none, none)) hsize
  obtain ⟨_, hlisting, _⟩ := compile_lists_attributes hcoherent hprogram
  refine ⟨hcoherent, program, hprogram, hlisting, ?_⟩
  exact hlisting.first_keeps ((authoredUses [[drilling]]).take 5)
    (.command (.single ⟨⟨.authored 1, "Tool000"⟩, false, .stop⟩)) [] rfl (by decide) (by decide)

end Toolpath
