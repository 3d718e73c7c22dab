import Toolpath.Proofs.Attributes
import Toolpath.Proofs.Renamer

/-!
New names change nothing else. `Renamed` says what naming the attributes of a program may do to its
steps: without labels they are the same, each instruction does what it did, and two uses refer to
one instance exactly if they did before, however deep they lie in groups. New labels do just that if
they lead different instances to different places (`renamed_of_keys`). Naming where the instances
stand has this property, and so has renaming by copies that are noted and shared
(`nameAttributes_renamed`).
-/

set_option autoImplicit false
set_option relaxedAutoImplicit false

namespace Toolpath

variable {α : Type}

/-! ### Renamed steps -/

/-- The step as it is apart from the instances and the names of its attributes. -/
def Step.withoutLabels (step : Step α) : Step α :=
  step.mapTargets fun _ ↦ Target.relabel fun _ _ ↦ ⟨.builtin, ""⟩

/-- The target has other labels and is the same in everything else. -/
structure Target.Renamed (target renamed : Target α) : Prop where
  goal_eq : renamed.goal = target.goal
  external_eq : renamed.external = target.external
  tool_eq : renamed.tool = { target.tool with label := renamed.tool.label }
  frame_eq : renamed.frame = { target.frame with label := renamed.frame.label }
  speed_eq : renamed.speed = { target.speed with label := renamed.speed.label }
  zone_eq : renamed.zone = { target.zone with label := renamed.zone.label }
  /-- The leaves of the command, one by one. -/
  instructions : List.Forall₂ (fun instruction changed : Instruction α ↦
    changed.action = instruction.action ∧ changed.runsBefore = instruction.runsBefore)
    target.instructions renamed.instructions

/-- The second steps are the first ones with other names: what is one instance stays one, and what
are two stay two. -/
structure Renamed (steps renamed : List (Step α)) : Prop where
  withoutLabels_eq : renamed.map Step.withoutLabels = steps.map Step.withoutLabels
  targets : List.Forall₂ Target.Renamed (steps.flatMap Step.targets)
    (renamed.flatMap Step.targets)
  kinds_eq : (renamed.flatMap Step.uses).map Attribute.kind =
    (steps.flatMap Step.uses).map Attribute.kind
  sharing (place other : Nat) (first second firstRenamed secondRenamed : Attribute α)
    (hfirst : (steps.flatMap Step.uses)[place]? = some first)
    (hsecond : (steps.flatMap Step.uses)[other]? = some second)
    (hfirstRenamed : (renamed.flatMap Step.uses)[place]? = some firstRenamed)
    (hsecondRenamed : (renamed.flatMap Step.uses)[other]? = some secondRenamed) :
    firstRenamed.id = secondRenamed.id ↔ first.id = second.id
  /-- One place still holds one instance. -/
  coherent : Coherent (renamed.flatMap Step.uses)

/-! ### New labels -/

section Labels

variable {change : Relabelling}

theorem Target.renamed_relabel (target : Target α) : target.Renamed (target.relabel change) where
  goal_eq := rfl
  external_eq := rfl
  tool_eq := rfl
  frame_eq := rfl
  speed_eq := rfl
  zone_eq := rfl
  instructions := by
    cases hcommand : target.command with
    | none => simp [instructions, relabel, hcommand]
    | some command =>
      simp only [instructions, relabel, hcommand, Option.map_some, Option.getD_some,
        Command.flatten_mapLabels, List.forall₂_map_right_iff]
      exact List.forall₂_same.mpr fun _ _ ↦ ⟨rfl, rfl⟩

theorem Step.targets_relabel (step : Step α) :
    (step.mapTargets fun _ ↦ Target.relabel change).targets =
      step.targets.map (Target.relabel change) := by
  rw [targets_mapTargets]
  exact List.ext_getElem (by simp) (by simp)

theorem Step.uses_relabel (step : Step α) :
    (step.mapTargets fun _ ↦ Target.relabel change).uses =
      step.uses.map (Attribute.relabel change) := by
  rw [uses, targets_relabel, List.flatMap_map, uses, List.map_flatMap]
  exact List.flatMap_congr fun target _ ↦ target.attributes_relabel change

theorem flatMap_targets_relabel (steps : List (Step α)) :
    (steps.map (·.mapTargets fun _ ↦ Target.relabel change)).flatMap Step.targets =
      (steps.flatMap Step.targets).map (Target.relabel change) := by
  rw [List.flatMap_map, List.map_flatMap]
  exact List.flatMap_congr fun step _ ↦ step.targets_relabel

theorem flatMap_uses_relabel (steps : List (Step α)) :
    (steps.map (·.mapTargets fun _ ↦ Target.relabel change)).flatMap Step.uses =
      (steps.flatMap Step.uses).map (Attribute.relabel change) := by
  rw [List.flatMap_map, List.map_flatMap]
  exact List.flatMap_congr fun step _ ↦ step.uses_relabel

/-- Labels rename if they lead different instances of a kind to different places. -/
theorem renamed_of_keys {steps : List (Step α)} (hcoherent : Coherent (steps.flatMap Step.uses))
    (hkeys : ∀ first ∈ steps.flatMap Step.uses, ∀ second ∈ steps.flatMap Step.uses,
      first.kind = second.kind →
        (change first.kind first.label).key = (change second.kind second.label).key →
          first.label.key = second.label.key) :
    Renamed steps (steps.map (·.mapTargets fun _ ↦ Target.relabel change)) := by
  have hid : ∀ first ∈ steps.flatMap Step.uses, ∀ second ∈ steps.flatMap Step.uses,
      ((first.relabel change).id = (second.relabel change).id ↔ first.id = second.id) := by
    intro first hfirst second hsecond
    constructor
    · intro heq
      simp only [Attribute.id, Attribute.kind_relabel, Attribute.label_relabel] at heq
      obtain ⟨hkind, hkey⟩ := Prod.mk.inj heq
      exact Prod.ext hkind (hkeys first hfirst second hsecond hkind hkey)
    · intro heq
      rw [hcoherent first hfirst second hsecond heq]
  constructor
  · rw [List.map_map]
    refine List.map_congr_left fun step _ ↦ ?_
    rw [Function.comp_apply, Step.withoutLabels, Step.mapTargets_mapTargets]
    simp only [Target.relabel_relabel]
    rfl
  · rw [flatMap_targets_relabel, List.forall₂_map_right_iff]
    exact List.forall₂_same.mpr fun target _ ↦ target.renamed_relabel
  · rw [flatMap_uses_relabel, List.map_map]
    exact List.map_congr_left fun use _ ↦ use.kind_relabel change
  · intro place other first second firstRenamed secondRenamed hfirst hsecond hplace hother
    rw [flatMap_uses_relabel, List.getElem?_map, hfirst] at hplace
    rw [flatMap_uses_relabel, List.getElem?_map, hsecond] at hother
    obtain rfl := Option.some.inj hplace
    obtain rfl := Option.some.inj hother
    exact hid first (List.mem_of_getElem? hfirst) second (List.mem_of_getElem? hsecond)
  · rw [flatMap_uses_relabel]
    intro first hfirst second hsecond heq
    obtain ⟨use, huse, rfl⟩ := List.mem_map.mp hfirst
    obtain ⟨other, hother, rfl⟩ := List.mem_map.mp hsecond
    rw [hcoherent use huse other hother ((hid use huse other hother).mp heq)]

end Labels

/-! ### Renaming by copies -/

section Copies

variable {steps : List (Step α)}

theorem mem_uses_command {command : Command α} :
    .command command ∈ steps.flatMap Step.uses ↔
      command ∈ steps.flatMap fun step ↦ step.targets.flatMap fun target ↦
        (target.command.map Command.nested).getD [] := by
  simp only [Step.uses, Target.attributes, List.mem_flatMap, List.mem_append, List.mem_cons,
    List.mem_map, reduceCtorEq, List.not_mem_nil, or_false, false_or, Attribute.command.injEq,
    exists_eq_right]

theorem below_of_mem_uses {use : Attribute α} (h : use ∈ steps.flatMap Step.uses) :
    use.label.key.Below (freeKeyNumber (listAttributes steps)) := by
  obtain ⟨entry, hentry, hid⟩ := exists_mem_distinctBy Attribute.id h
  have hkey : entry.label.key = use.label.key := congrArg Prod.snd hid
  exact hkey ▸ Renamer.below_freeKeyNumber hentry

/-- The commands in use belong together. -/
theorem family_uses (hcoherent : Coherent (steps.flatMap Step.uses)) :
    Renamer.Family (fun command : Command α ↦ .command command ∈ steps.flatMap Step.uses)
      (freeKeyNumber (listAttributes steps)) where
  member := by
    intro label runsBefore members hgroup command hmember
    obtain ⟨step, hstep, huses⟩ := List.mem_flatMap.mp hgroup
    obtain ⟨target, htarget, hattribute⟩ := List.mem_flatMap.mp huses
    cases Target.mem_attributes.mp hattribute with
    | command houter hinner =>
      exact List.mem_flatMap.mpr ⟨step, hstep, List.mem_flatMap.mpr ⟨target, htarget,
        Target.mem_attributes.mpr
          (.command houter (hinner.trans (.member hmember (.itself command))))⟩⟩
  unique := fun first second hfirst hsecond hkey ↦
    Attribute.command.inj (hcoherent _ hfirst _ hsecond (Prod.ext rfl hkey))
  below := fun _ hcommand ↦ below_of_mem_uses hcommand

/-- Renaming by copies puts the labels of one renamer into all targets and into the listing. It
gives the names of the naming, and leads different instances to different places. -/
theorem exists_renameInstances_eq (hcoherent : Coherent (steps.flatMap Step.uses)) :
    ∃ change : Relabelling,
      renameInstances steps = (steps.map (·.mapTargets fun _ ↦ Target.relabel change),
        (listAttributes steps).map (Attribute.relabel change)) ∧
      (∀ kind label, (change kind label).name =
        ((Naming.ofListing (listAttributes steps)).relabelling kind label).name) ∧
      ∀ first ∈ steps.flatMap Step.uses, ∀ second ∈ steps.flatMap Step.uses,
        first.kind = second.kind →
          (change first.kind first.label).key = (change second.kind second.label).key →
            first.label.key = second.label.key := by
  have hfamily := family_uses hcoherent
  have hstart := Renamer.sound_ofNaming (Naming.ofListing (listAttributes steps))
    (fun command : Command α ↦ .command command ∈ steps.flatMap Step.uses)
    (freeKeyNumber (listAttributes steps))
  obtain ⟨hlisted, hfirst, hattributes, _⟩ := Renamer.Correct.thread (listAttributes steps)
    (fun entry hentry ↦ Renamer.correct_entry hfamily fun command hcommand ↦
      hcommand ▸ mem_of_mem_distinctBy hentry) _ hstart
  obtain ⟨hsound, hleads, hsteps, _⟩ := Renamer.Correct.thread steps
    (fun step hstep ↦ Renamer.correct_step hfamily fun target htarget command hcommand ↦
      List.mem_flatMap.mpr ⟨step, hstep, List.mem_flatMap.mpr ⟨target, htarget,
        Target.mem_attributes.mpr (.command hcommand (.itself command))⟩⟩) _ hlisted
  refine ⟨_, Prod.ext (hsteps.eq _ (.refl _)) (hattributes.eq _ hleads),
    Renamer.name_relabelling (hfirst.trans hleads), fun first huse second hother ↦ ?_⟩
  exact hsound.key_eq (fun command hcommand ↦ hsteps.noted command (mem_uses_command.mp hcommand))
    (fun command hcommand ↦ hcommand ▸ huse) (fun command hcommand ↦ hcommand ▸ hother)
    (below_of_mem_uses huse) (below_of_mem_uses hother)

/-- Naming the attributes of a program changes nothing but names and keeps which uses share an
instance, and so does renaming by copies: it gives the same names, and the targets refer to the
instances that it lists. -/
theorem nameAttributes_renamed (hcoherent : Coherent (steps.flatMap Step.uses)) :
    Renamed steps (nameAttributes steps).1 ∧ Renamed steps (renameInstances steps).1 ∧
    (∀ use ∈ (renameInstances steps).1.flatMap Step.uses, use ∈ (renameInstances steps).2) ∧
    ((renameInstances steps).1.flatMap Step.uses).map Attribute.name =
      ((nameAttributes steps).1.flatMap Step.uses).map Attribute.name := by
  obtain ⟨change, hrenamed, hnames, hkeys⟩ := exists_renameInstances_eq hcoherent
  rw [hrenamed]
  refine ⟨renamed_of_keys hcoherent fun first _ second _ _ hkey ↦ ?_,
    renamed_of_keys hcoherent hkeys, ?_, ?_⟩
  · rwa [Naming.key_relabelling, Naming.key_relabelling] at hkey
  · intro use huse
    rw [flatMap_uses_relabel] at huse
    obtain ⟨given, hgiven, rfl⟩ := List.mem_map.mp huse
    obtain ⟨entry, hentry, hid⟩ := exists_mem_distinctBy Attribute.id hgiven
    obtain rfl := hcoherent entry (mem_of_mem_distinctBy hentry) given hgiven hid
    exact List.mem_map_of_mem hentry
  · rw [nameAttributes, flatMap_uses_relabel, flatMap_uses_relabel, List.map_map, List.map_map]
    refine List.map_congr_left fun use _ ↦ ?_
    rw [Function.comp_apply, Function.comp_apply, Attribute.name, Attribute.label_relabel,
      Attribute.name, Attribute.label_relabel, hnames]

end Copies

/-- Waits without a name. -/
def settling : Command ℝ :=
  .single ⟨⟨.authored 0, ""⟩, true, .wait 1⟩

/-- The group keeps its name and holds an instruction that gets one. -/
def closing : Command ℝ :=
  .group ⟨.authored 1, "Close"⟩ false [settling, .single ⟨⟨.authored 2, "Halt"⟩, false, .stop⟩]

/-- The first target runs the group inside another one, the second target by itself. -/
noncomputable def gripping : List (Step ℝ) :=
  [.ofTargets 0 [{ Target.ofGoal (.joints []) with
      command := some (.group ⟨.authored 3, ""⟩ false [settling, closing]) }],
    .ofTargets 1 [{ Target.ofGoal (.joints []) with command := some closing }]]

theorem coherent_gripping : Coherent (gripping.flatMap Step.uses) := by
  let entries : List (Attribute ℝ) :=
    [.tool .default, .frame .default, .speed .default, .zone .default,
      .command (.group ⟨.authored 3, ""⟩ false [settling, closing]), .command settling,
      .command closing, .command (.single ⟨⟨.authored 2, "Halt"⟩, false, .stop⟩)]
  have hentries : Coherent entries := coherent_of_nodup (by decide)
  have huses : gripping.flatMap Step.uses = entries.take 7 ++
      [.command settling, .command (.single ⟨⟨.authored 2, "Halt"⟩, false, .stop⟩)] ++
      entries.take 4 ++ [.command closing, .command settling,
        .command (.single ⟨⟨.authored 2, "Halt"⟩, false, .stop⟩)] := rfl
  have hsubset : ∀ use ∈ gripping.flatMap Step.uses, use ∈ entries := by
    intro use huse
    rw [huses] at huse
    simp only [List.mem_append, List.mem_cons, List.not_mem_nil, or_false] at huse
    rcases huse with ((hfirst | rfl | rfl) | hfour) | rfl | rfl | rfl
    · exact List.mem_of_mem_take hfirst
    · simp [entries]
    · simp [entries]
    · exact List.mem_of_mem_take hfour
    · simp [entries]
    · simp [entries]
    · simp [entries]
  exact fun first hfirst second hsecond ↦
    hentries first (hsubset first hfirst) second (hsubset second hsecond)

/-- Both targets still run the same group. -/
theorem nameAttributes_renamed_gripping :
    Coherent (gripping.flatMap Step.uses) ∧
    Renamed gripping (nameAttributes gripping).1 ∧ Renamed gripping (renameInstances gripping).1 ∧
    ∃ group, ((renameInstances gripping).1.flatMap Step.uses)[6]? = some group ∧
      ((renameInstances gripping).1.flatMap Step.uses)[13]? = some group := by
  obtain ⟨hnamed, hrenamed, _⟩ := nameAttributes_renamed coherent_gripping
  have hlength : ((renameInstances gripping).1.flatMap Step.uses).length = 16 := by
    have hkinds := congrArg List.length hrenamed.kinds_eq
    rwa [List.length_map, List.length_map] at hkinds
  have hsixth := List.getElem?_eq_getElem (hlength ▸ by decide :
    6 < ((renameInstances gripping).1.flatMap Step.uses).length)
  have hlast := List.getElem?_eq_getElem (hlength ▸ by decide :
    13 < ((renameInstances gripping).1.flatMap Step.uses).length)
  have hid := (hrenamed.sharing 6 13 (.command closing) (.command closing) _ _ rfl rfl hsixth
    hlast).mpr rfl
  have hsame := hrenamed.coherent _ (List.mem_of_getElem? hsixth) _ (List.mem_of_getElem? hlast) hid
  exact ⟨coherent_gripping, hnamed, hrenamed, _, hsixth, hsame ▸ hlast⟩

end Toolpath
