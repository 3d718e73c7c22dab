import Toolpath.Attribute.Listing
import Mathlib.Data.List.Nodup

/-!
What a target uses, and how the uses are listed. `Command.Holds` and `Target.Uses` say without any
order which instances are reached from a command and from a target; `mem_nested` and
`mem_attributes` show that the listings `Command.nested` and `Target.attributes` hold exactly those.
A listing without repetitions keeps the first use of every instance (`distinctBy_map`), and new
labels do not change what is used (`attributes_relabel`).
-/

set_option autoImplicit false
set_option relaxedAutoImplicit false

namespace Toolpath

/-! ### Distinct entries -/

section Distinct

variable {α κ : Type} [DecidableEq κ]

theorem distinctAfter_map [BEq κ] [LawfulBEq κ] (key : α → κ) (entries : List α) :
    ∀ seen : List κ, (distinctAfter key seen entries).map key =
      ((entries.map key).filter fun k ↦ k ∉ seen).eraseDups := by
  induction entries with
  | nil => intro seen; rfl
  | cons entry rest ih =>
    intro seen
    by_cases hseen : key entry ∈ seen
    · simp [distinctAfter, hseen, ih]
    · rw [distinctAfter, if_neg hseen, List.map_cons, List.map_cons,
        List.filter_cons_of_pos (by simpa using hseen), List.eraseDups_cons, ih,
        List.filter_filter]
      simp only [List.mem_cons, not_or, Bool.decide_and, decide_not, beq_eq_decide]

/-- The keys of the distinct entries are the keys of all entries in the order of their first
occurrence. -/
theorem distinctBy_map [BEq κ] [LawfulBEq κ] (key : α → κ) (entries : List α) :
    (distinctBy key entries).map key = (entries.map key).eraseDups := by
  rw [distinctBy, distinctAfter_map]
  simp

/-- A change that keeps the key keeps which entries are distinct. -/
theorem distinctBy_map_of_key {β : Type} {key : α → κ} {other : β → κ} {change : α → β}
    (h : ∀ entry, other (change entry) = key entry) (entries : List α) :
    distinctBy other (entries.map change) = (distinctBy key entries).map change := by
  have hafter : ∀ seen : List κ, distinctAfter other seen (entries.map change) =
      (distinctAfter key seen entries).map change := by
    induction entries with
    | nil => intro seen; rfl
    | cons entry rest ih =>
      intro seen
      rw [List.map_cons, distinctAfter, h, distinctAfter, ih, ih]
      split_ifs <;> rfl
  exact hafter []

theorem nodup_distinctAfter (key : α → κ) (entries : List α) :
    ∀ seen : List κ, ((distinctAfter key seen entries).map key).Nodup ∧
      ∀ entry ∈ distinctAfter key seen entries, key entry ∉ seen := by
  induction entries with
  | nil => intro seen; simp [distinctAfter]
  | cons entry rest ih =>
    intro seen
    by_cases hseen : key entry ∈ seen
    · simpa only [distinctAfter, if_pos hseen] using ih seen
    · obtain ⟨hnodup, hfresh⟩ := ih (key entry :: seen)
      rw [distinctAfter, if_neg hseen]
      constructor
      · rw [List.map_cons, List.nodup_cons]
        refine ⟨fun hmem ↦ ?_, hnodup⟩
        obtain ⟨other, hother, heq⟩ := List.mem_map.mp hmem
        exact hfresh other hother (heq ▸ List.mem_cons_self)
      · intro other hother
        rcases List.mem_cons.mp hother with rfl | hother
        · exact hseen
        · exact fun hmem ↦ hfresh other hother (List.mem_cons_of_mem _ hmem)

theorem nodup_distinctBy (key : α → κ) (entries : List α) :
    ((distinctBy key entries).map key).Nodup :=
  (nodup_distinctAfter key entries []).1

theorem distinctAfter_sublist (key : α → κ) (entries : List α) :
    ∀ seen : List κ, (distinctAfter key seen entries).Sublist entries := by
  induction entries with
  | nil => intro seen; exact List.Sublist.refl _
  | cons entry rest ih =>
    intro seen
    unfold distinctAfter
    split_ifs
    · exact (ih seen).cons entry
    · exact (ih _).cons_cons entry

/-- An entry before which none has its key stays, and before it stand only entries that stood there
already. -/
theorem exists_distinctAfter_eq_append (key : α → κ) {entry : α} (after : List α)
    {before : List α} : ∀ {seen : List κ}, key entry ∉ seen →
      (∀ other ∈ before, key other ≠ key entry) →
        ∃ earlier later, distinctAfter key seen (before ++ entry :: after) =
          earlier ++ entry :: later ∧ earlier ⊆ before := by
  induction before with
  | nil =>
    intro seen hfresh _
    refine ⟨[], distinctAfter key (key entry :: seen) after, ?_, List.nil_subset _⟩
    rw [List.nil_append, distinctAfter, if_neg hfresh, List.nil_append]
  | cons other rest ih =>
    intro seen hfresh hkeys
    rw [List.forall_mem_cons] at hkeys
    rw [List.cons_append, distinctAfter]
    by_cases hseen : key other ∈ seen
    · obtain ⟨earlier, later, heq, hsubset⟩ := ih hfresh hkeys.2
      exact ⟨earlier, later, by rw [if_pos hseen, heq], List.subset_cons_of_subset _ hsubset⟩
    · have hstill : key entry ∉ key other :: seen := by simp [hkeys.1.symm, hfresh]
      obtain ⟨earlier, later, heq, hsubset⟩ := ih hstill hkeys.2
      exact ⟨other :: earlier, later, by rw [if_neg hseen, heq, List.cons_append],
        List.cons_subset_cons _ hsubset⟩

theorem mem_of_mem_distinctBy {key : α → κ} {entries : List α} {entry : α}
    (h : entry ∈ distinctBy key entries) : entry ∈ entries :=
  (distinctAfter_sublist key entries []).subset h

theorem exists_mem_distinctBy (key : α → κ) {entries : List α} {entry : α} (h : entry ∈ entries) :
    ∃ first ∈ distinctBy key entries, key first = key entry := by
  have hkey : key entry ∈ (distinctBy key entries).map key := by
    rw [distinctBy_map, List.mem_eraseDups]
    exact List.mem_map_of_mem h
  simpa using hkey

end Distinct

variable {α : Type}

/-! ### Commands inside commands -/

namespace Command

/-- The second command is the first one or is reached from it through members of groups. -/
inductive Holds : Command α → Command α → Prop where
  | itself (command : Command α) : Holds command command
  | member {label : Label} {runsBefore : Bool} {members : List (Command α)}
      {command inner : Command α} (hmember : command ∈ members) (hinner : Holds command inner) :
      Holds (group label runsBefore members) inner

/-- Induction over a command with the hypothesis for every member of a group. -/
@[elab_as_elim]
theorem member_induction {motive : Command α → Prop}
    (single : ∀ instruction, motive (single instruction))
    (group : ∀ label runsBefore members, (∀ command ∈ members, motive command) →
      motive (group label runsBefore members)) : ∀ command, motive command
  | .single instruction => single instruction
  | .group label runsBefore members =>
    group label runsBefore members fun command _ ↦ member_induction single group command

theorem nestedAll_eq (commands : List (Command α)) : nestedAll commands = commands.flatMap nested := by
  induction commands with
  | nil => rfl
  | cons command rest ih => rw [nestedAll, ih, List.flatMap_cons]

theorem flattenAll_eq (commands : List (Command α)) :
    flattenAll commands = commands.flatMap flatten := by
  induction commands with
  | nil => rfl
  | cons command rest ih => rw [flattenAll, ih, List.flatMap_cons]

theorem mapLabelsAll_eq (change : Label → Label) (commands : List (Command α)) :
    mapLabelsAll change commands = commands.map (mapLabels change) := by
  induction commands with
  | nil => rfl
  | cons command rest ih => rw [mapLabelsAll, ih, List.map_cons]

theorem mem_nested {command inner : Command α} : inner ∈ command.nested ↔ command.Holds inner := by
  induction command using member_induction with
  | single instruction =>
    rw [nested, List.mem_singleton]
    constructor
    · rintro rfl
      exact .itself _
    · rintro ⟨⟩
      rfl
  | group label runsBefore members ih =>
    rw [nested, nestedAll_eq, List.mem_cons, List.mem_flatMap]
    constructor
    · rintro (rfl | ⟨command, hmember, hinner⟩)
      · exact .itself _
      · exact .member hmember ((ih command hmember).mp hinner)
    · rintro (_ | ⟨hmember, hinner⟩)
      · exact Or.inl rfl
      · exact Or.inr ⟨_, hmember, (ih _ hmember).mpr hinner⟩

/-- The instructions of a command are the single commands that it holds. -/
theorem mem_flatten {command : Command α} {instruction : Instruction α} :
    instruction ∈ command.flatten ↔ command.Holds (.single instruction) := by
  induction command using member_induction with
  | single other =>
    rw [flatten, List.mem_singleton]
    constructor
    · rintro rfl
      exact .itself _
    · rintro ⟨⟩
      rfl
  | group label runsBefore members ih =>
    rw [flatten, flattenAll_eq, List.mem_flatMap]
    constructor
    · rintro ⟨command, hmember, hinner⟩
      exact .member hmember ((ih command hmember).mp hinner)
    · rintro (_ | ⟨hmember, hinner⟩)
      exact ⟨_, hmember, (ih _ hmember).mpr hinner⟩

theorem mapLabels_mapLabels (second first : Label → Label) (command : Command α) :
    (command.mapLabels first).mapLabels second = command.mapLabels (second ∘ first) := by
  induction command using member_induction with
  | single instruction => rfl
  | group label runsBefore members ih =>
    simp only [mapLabels, mapLabelsAll_eq, List.map_map]
    congr 1
    exact List.map_congr_left ih

/-- New labels change nothing but the labels of the instructions, which stay in their order. -/
theorem flatten_mapLabels (change : Label → Label) (command : Command α) :
    (command.mapLabels change).flatten = command.flatten.map fun instruction ↦
      { instruction with label := change instruction.label } := by
  induction command using member_induction with
  | single instruction => rfl
  | group label runsBefore members ih =>
    rw [mapLabels, flatten, flatten, flattenAll_eq, flattenAll_eq, mapLabelsAll_eq,
      List.flatMap_map, List.map_flatMap]
    exact List.flatMap_congr ih

theorem nested_mapLabels (change : Label → Label) (command : Command α) :
    (command.mapLabels change).nested = command.nested.map (mapLabels change) := by
  induction command using member_induction with
  | single instruction => rfl
  | group label runsBefore members ih =>
    rw [mapLabels, nested, nested, nestedAll_eq, nestedAll_eq, mapLabelsAll_eq, List.map_cons,
      mapLabels, mapLabelsAll_eq, List.flatMap_map, List.map_flatMap]
    congr 1
    exact List.flatMap_congr ih

end Command

/-! ### The uses of a target -/

theorem Attribute.relabel_relabel (second first : Relabelling) (entry : Attribute α) :
    (entry.relabel first).relabel second =
      entry.relabel fun kind label ↦ second kind (first kind label) := by
  cases entry with
  | command command => exact congrArg Attribute.command (command.mapLabels_mapLabels _ _)
  | _ => rfl

namespace Target

theorem relabel_relabel (second first : Relabelling) (target : Target α) :
    (target.relabel first).relabel second =
      target.relabel fun kind label ↦ second kind (first kind label) := by
  have hcommand : (Command.mapLabels (second .command) ∘ Command.mapLabels (first .command) :
      Command α → Command α) =
        Command.mapLabels fun label ↦ second .command (first .command label) :=
    funext (Command.mapLabels_mapLabels _ _)
  simp only [relabel, Option.map_map, hcommand]

/-- The instances that a target refers to. -/
inductive Uses (target : Target α) : Attribute α → Prop where
  | tool : Uses target (.tool target.tool)
  | frame : Uses target (.frame target.frame)
  | speed : Uses target (.speed target.speed)
  | zone : Uses target (.zone target.zone)
  | command {command inner : Command α} (hcommand : target.command = some command)
      (hinner : command.Holds inner) : Uses target (.command inner)

theorem mem_attributes {target : Target α} {entry : Attribute α} :
    entry ∈ target.attributes ↔ target.Uses entry := by
  rw [attributes, List.mem_append]
  constructor
  · rintro (hfixed | hcommand)
    · simp only [List.mem_cons, List.not_mem_nil, or_false] at hfixed
      rcases hfixed with rfl | rfl | rfl | rfl
      · exact .tool
      · exact .frame
      · exact .speed
      · exact .zone
    · obtain ⟨inner, hinner, rfl⟩ := List.mem_map.mp hcommand
      cases hc : target.command with
      | none => simp [hc] at hinner
      | some command => exact .command hc (Command.mem_nested.mp (by simpa [hc] using hinner))
  · rintro (_ | _ | _ | _ | ⟨hcommand, hinner⟩)
    · simp
    · simp
    · simp
    · simp
    · right
      rw [hcommand]
      exact List.mem_map_of_mem (Command.mem_nested.mpr hinner)

theorem attributes_relabel (change : Relabelling) (target : Target α) :
    (target.relabel change).attributes = target.attributes.map (Attribute.relabel change) := by
  cases hc : target.command with
  | none => simp [attributes, relabel, hc, Attribute.relabel]
  | some command =>
    simp [attributes, relabel, hc, Attribute.relabel, Command.nested_mapLabels, Function.comp_def]

end Target

end Toolpath
