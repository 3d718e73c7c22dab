import Toolpath.Attribute.Renamer
import Toolpath.Proofs.Listing

/-!
A renamer leads every use of an instance to one place, and uses of different instances to different
places. `Renamer.relabelling` reads off a renamer where it leads to, and `Renamer.Sound` is what holds
of its notes at any time: each result is the command with the labels of its instances, and no two
commands have come to the same place. Every command keeps that (`Renamer.correct_command`), whatever
has been renamed before, and so do rows of attributes, targets and steps
(`Renamer.Correct.thread`). Once all commands have been seen, different instances stand at different
places (`Renamer.Sound.key_eq`).
-/

set_option autoImplicit false
set_option relaxedAutoImplicit false

namespace Toolpath

variable {α : Type}

/-! ### Commands inside commands -/

namespace Command

theorem Holds.trans {outer middle inner : Command α} (h : outer.Holds middle)
    (hinner : middle.Holds inner) : outer.Holds inner := by
  induction h with
  | itself => exact hinner
  | member hmember _ ih => exact .member hmember (ih hinner)

theorem Holds.length_nested_le {command inner : Command α} (h : command.Holds inner) :
    inner.nested.length ≤ command.nested.length := by
  induction h with
  | itself => exact Nat.le_refl _
  | @member label runsBefore members command inner hmember _ ih =>
    obtain ⟨before, after, rfl⟩ := List.append_of_mem hmember
    simp only [nested, nestedAll_eq, List.length_cons, List.flatMap_append, List.flatMap_cons,
      List.length_append]
    omega

/-- No group is inside one of its members. -/
theorem not_mem_nested_member {label : Label} {runsBefore : Bool} {members : List (Command α)}
    {command : Command α} (hmember : command ∈ members) :
    group label runsBefore members ∉ command.nested := by
  intro hnested
  have hinner := (mem_nested.mp hnested).length_nested_le
  obtain ⟨before, after, rfl⟩ := List.append_of_mem hmember
  simp only [nested, nestedAll_eq, List.length_cons, List.flatMap_append, List.flatMap_cons,
    List.length_append] at hinner
  omega

end Command

/-- The commands of the attribute, a group before its members. -/
def Attribute.commands : Attribute α → List (Command α)
  | .command c => c.nested
  | _ => []

/-- The number of the instance is below a bound. -/
def Key.Below (key : Key) (bound : Nat) : Prop :=
  match key with
  | .builtin => True
  | .authored number => number < bound

namespace Renamer

/-! ### Where a renamer leads to -/

/-- The label of the instance that the uses of an instance are led to. -/
def relabelling (renamer : Renamer α) : Relabelling := fun kind label ↦
  match kind with
  | .command => ⟨((renamer.notes.lookup label.key).map (·.label.key)).getD label.key,
      (renamer.copyOf .command label).name⟩
  | kind => renamer.copyOf kind label

/-- The command has been seen. -/
def Noted (renamer : Renamer α) (command : Command α) : Prop :=
  ∃ result, renamer.notes.lookup command.label.key = some result

/-- The later renamer has all notes of the earlier one. -/
structure Leads (renamer later : Renamer α) : Prop where
  copies : later.copies = renamer.copies
  notes (key : Key) (result : Command α) (h : renamer.notes.lookup key = some result) :
    later.notes.lookup key = some result

theorem Leads.refl (renamer : Renamer α) : renamer.Leads renamer :=
  ⟨rfl, fun _ _ h ↦ h⟩

theorem Leads.trans {first second third : Renamer α} (h : first.Leads second)
    (hlater : second.Leads third) : first.Leads third :=
  ⟨hlater.copies.trans h.copies, fun key result hnote ↦
    hlater.notes key result (h.notes key result hnote)⟩

theorem Leads.noted {renamer later : Renamer α} (h : renamer.Leads later) {command : Command α}
    (hnoted : renamer.Noted command) : later.Noted command :=
  let ⟨result, hresult⟩ := hnoted
  ⟨result, h.notes _ _ hresult⟩

theorem Leads.copyOf {renamer later : Renamer α} (h : renamer.Leads later) (kind : AttributeKind)
    (label : Label) : later.copyOf kind label = renamer.copyOf kind label := by
  rw [Renamer.copyOf, h.copies, ← Renamer.copyOf]

/-- The result is what the entry becomes under the labels that the renamer and all later ones lead
to, and the commands inside the entry have been seen. -/
structure Settled {γ : Type} (renamer : Renamer α) (value : Relabelling → γ)
    (inner : List (Command α)) (result : γ) : Prop where
  eq (later : Renamer α) (h : renamer.Leads later) : result = value later.relabelling
  noted : ∀ command ∈ inner, renamer.Noted command

theorem Settled.mono {γ : Type} {renamer later : Renamer α} {value : Relabelling → γ}
    {inner : List (Command α)} {result : γ} (h : renamer.Settled value inner result)
    (hlater : renamer.Leads later) : later.Settled value inner result :=
  ⟨fun last hlast ↦ h.eq last (hlater.trans hlast),
    fun command hcommand ↦ hlater.noted (h.noted command hcommand)⟩

/-! ### Places -/

/-- The copies stand between two bounds, each at a place of its own. -/
structure Apart (copies : List (AttributeId × Label)) (start stop : Nat) : Prop where
  exists_number (id : AttributeId) (copy : Label) (h : copies.lookup id = some copy) :
    ∃ number, start ≤ number ∧ number < stop ∧ copy.key = .authored number
  injective (id other : AttributeId) (copy second : Label) (h : copies.lookup id = some copy)
    (hother : copies.lookup other = some second) (hkey : copy.key = second.key) : id = other

/-- How an instance comes to its place: it stays, it is copied, or it is built again with a number
of its own. -/
inductive Stands (renamer : Renamer α) (kind : AttributeKind) (stop : Nat) (key place : Key) :
    Prop where
  | kept (h : place = key)
  | copied (copy : Label) (hcopy : renamer.copies.lookup (kind, key) = some copy)
      (h : place = copy.key)
  | built (number : Nat) (hstop : stop ≤ number) (hnext : number < renamer.next)
      (h : place = .authored number)

section Places

variable {renamer : Renamer α} {kind : AttributeKind} {start stop : Nat} {key place : Key}

theorem Stands.mono {later : Renamer α} (h : renamer.Stands kind stop key place)
    (hcopies : later.copies = renamer.copies) (hnext : renamer.next ≤ later.next) :
    later.Stands kind stop key place := by
  cases h with
  | kept h => exact .kept h
  | copied copy hcopy h => exact .copied copy (hcopies ▸ hcopy) h
  | built number hstop hlt h => exact .built number hstop (Nat.lt_of_lt_of_le hlt hnext) h

theorem stands_copyOf (renamer : Renamer α) (kind : AttributeKind) (stop : Nat) (label : Label) :
    renamer.Stands kind stop label.key (renamer.copyOf kind label).key := by
  rw [Renamer.copyOf]
  cases hcopy : renamer.copies.lookup (kind, label.key) with
  | none => exact .kept rfl
  | some copy => exact .copied copy hcopy rfl

/-- The place of the next new instance is free. -/
theorem Stands.ne_next (h : renamer.Stands kind stop key place)
    (hapart : Apart renamer.copies start stop) (hstart : start ≤ stop)
    (hstop : stop ≤ renamer.next) (hkey : key.Below start) :
    place ≠ .authored renamer.next := by
  rintro rfl
  cases h with
  | kept h =>
    rw [← h] at hkey
    exact absurd hkey (by simp only [Key.Below]; omega)
  | copied copy hcopy h =>
    obtain ⟨number, _, hlt, hnumber⟩ := hapart.exists_number _ copy hcopy
    obtain rfl : renamer.next = number := Key.authored.inj (h.trans hnumber)
    omega
  | built number _ hlt h =>
    obtain rfl := Key.authored.inj h
    exact Nat.lt_irrefl _ hlt

/-- No other instance comes to the place of an instance that stays, or of its copy. -/
theorem Stands.key_eq (h : renamer.Stands kind stop key place)
    (hapart : Apart renamer.copies start stop) (hstart : start ≤ stop)
    (hkey : key.Below start) {label : Label}
    (hlabel : label.key.Below start) (hplace : place = (renamer.copyOf kind label).key) :
    key = label.key := by
  subst hplace
  rw [Renamer.copyOf] at h
  cases hcopy : renamer.copies.lookup (kind, label.key) with
  | none =>
    rw [hcopy, Option.getD_none] at h
    cases h with
    | kept h => exact h.symm
    | copied copy hother h =>
      obtain ⟨number, hle, _, hnumber⟩ := hapart.exists_number _ copy hother
      rw [h, hnumber] at hlabel
      exact absurd hlabel (Nat.not_lt_of_le hle)
    | built number hle _ h =>
      rw [h] at hlabel
      exact absurd hlabel (Nat.not_lt_of_le (Nat.le_trans hstart hle))
  | some copy =>
    rw [hcopy, Option.getD_some] at h
    obtain ⟨number, hle, hlt, hnumber⟩ := hapart.exists_number _ copy hcopy
    cases h with
    | kept h =>
      rw [← h, hnumber] at hkey
      exact absurd hkey (Nat.not_lt_of_le hle)
    | copied other hother h =>
      exact (Prod.mk.inj (hapart.injective _ _ _ _ hother hcopy h.symm)).2
    | built other hother _ h =>
      obtain rfl := Key.authored.inj (hnumber.symm.trans h)
      exact absurd hother (Nat.not_le_of_lt hlt)

end Places

/-! ### Sound notes -/

/-- Commands that refer to one another: with a group come its members, one place holds one command,
and no place is as high as the bound. -/
structure Family (commands : Command α → Prop) (start : Nat) : Prop where
  member (label : Label) (runsBefore : Bool) (members : List (Command α))
    (h : commands (.group label runsBefore members)) : ∀ command ∈ members, commands command
  unique (first second : Command α) (hfirst : commands first) (hsecond : commands second)
    (h : first.label.key = second.label.key) : first = second
  below (command : Command α) (h : commands command) : command.label.key.Below start

/-- Each note tells what has become of a command, a command that has stayed in its place is as it
was, and no two commands have come to one place. -/
structure Sound (renamer : Renamer α) (commands : Command α → Prop) (start stop : Nat) :
    Prop where
  apart : Apart renamer.copies start stop
  start_le : start ≤ stop
  stop_le : stop ≤ renamer.next
  settled (command result : Command α) (hcommand : commands command)
    (h : renamer.notes.lookup command.label.key = some result) :
    renamer.Settled (fun change ↦ command.mapLabels (change .command)) command.nested result
  eq_of_kept (command result : Command α) (hcommand : commands command)
    (h : renamer.notes.lookup command.label.key = some result)
    (hkey : result.label.key = command.label.key) : result = command
  stands (command result : Command α) (hcommand : commands command)
    (h : renamer.notes.lookup command.label.key = some result) :
    renamer.Stands .command stop command.label.key result.label.key
  injective (first second firstResult secondResult : Command α) (hfirst : commands first)
    (hsecond : commands second) (h : renamer.notes.lookup first.label.key = some firstResult)
    (hother : renamer.notes.lookup second.label.key = some secondResult)
    (hkey : firstResult.label.key = secondResult.label.key) : first = second

/-- The change settles its entry, keeps all notes sound, and adds notes on nothing but the commands
inside the entry. -/
def Correct {β γ : Type} (change : β → Renamer α → γ × Renamer α) (commands : Command α → Prop)
    (start stop : Nat) (entry : β) (value : Relabelling → γ) (inner : List (Command α)) : Prop :=
  ∀ renamer : Renamer α, renamer.Sound commands start stop →
    (change entry renamer).2.Sound commands start stop ∧
    renamer.Leads (change entry renamer).2 ∧
    (change entry renamer).2.Settled value inner (change entry renamer).1 ∧
    ∀ key, (∀ command ∈ inner, command.label.key ≠ key) →
      (change entry renamer).2.notes.lookup key = renamer.notes.lookup key

section Changes

variable {commands : Command α → Prop} {start stop : Nat}

/-- A row of correct changes is correct. -/
theorem Correct.thread {β γ : Type} {change : β → Renamer α → γ × Renamer α}
    {value : Relabelling → β → γ} {inner : β → List (Command α)} (entries : List β)
    (h : ∀ entry ∈ entries,
      Correct change commands start stop entry (value · entry) (inner entry)) :
    Correct (thread change) commands start stop entries (fun labels ↦ entries.map (value labels))
      (entries.flatMap inner) := by
  induction entries with
  | nil =>
    exact fun renamer hsound ↦
      ⟨hsound, .refl renamer, ⟨fun _ _ ↦ rfl, List.forall_mem_nil _⟩, fun _ _ ↦ rfl⟩
  | cons entry rest ih =>
    intro renamer hsound
    rw [List.forall_mem_cons] at h
    obtain ⟨hafter, hleads, hsettled, hframe⟩ := h.1 renamer hsound
    obtain ⟨hlast, hlater, hrest, hframes⟩ := ih h.2 _ hafter
    have hfirst := hsettled.mono hlater
    refine ⟨hlast, hleads.trans hlater, ⟨fun later hend ↦ ?_, fun command hcommand ↦ ?_⟩,
      fun key hkey ↦ ?_⟩
    · exact congrArg₂ List.cons (hfirst.eq later hend) (hrest.eq later hend)
    · rcases List.mem_append.mp hcommand with hentry | hothers
      · exact hfirst.noted command hentry
      · exact hrest.noted command hothers
    · refine (hframes key fun command hcommand ↦ ?_).trans (hframe key fun command hcommand ↦ ?_)
      · exact hkey command (List.mem_append_right _ hcommand)
      · exact hkey command (List.mem_append_left _ hcommand)

/-! ### Commands -/

theorem lookup_note (renamer : Renamer α) (key : Key) (result : Command α) :
    (renamer.note key result).notes.lookup key = some result :=
  List.lookup_cons_self

theorem lookup_note_of_ne (renamer : Renamer α) {key other : Key} (result : Command α)
    (h : other ≠ key) :
    (renamer.note key result).notes.lookup other = renamer.notes.lookup other := by
  rw [note, List.lookup_cons]
  split
  · next heq => exact absurd (eq_of_beq heq) h
  · rfl

theorem leads_note {renamer : Renamer α} {key : Key} (hnone : renamer.notes.lookup key = none)
    (next : Nat) (result : Command α) : renamer.Leads ({ renamer with next }.note key result) := by
  refine ⟨rfl, fun other otherResult hlookup ↦ ?_⟩
  have hne : other ≠ key := by
    rintro rfl
    rw [hnone] at hlookup
    cases hlookup
  rw [lookup_note_of_ne _ result hne]
  exact hlookup

/-- One more note, on a command that has none yet. -/
theorem Sound.note {renamer : Renamer α} (h : renamer.Sound commands start stop)
    (hfamily : Family commands start) {command result : Command α} (hcommand : commands command)
    (hnone : renamer.notes.lookup command.label.key = none) {next : Nat}
    (hnext : renamer.next ≤ next)
    (hsettled : ({ renamer with next }.note command.label.key result).Settled
      (fun labels ↦ command.mapLabels (labels .command)) command.nested result)
    (hkept : result.label.key = command.label.key → result = command)
    (hstands : { renamer with next }.Stands .command stop command.label.key result.label.key)
    (hfree : ∀ other otherResult, commands other →
      renamer.notes.lookup other.label.key = some otherResult →
        otherResult.label.key = result.label.key → other = command) :
    ({ renamer with next }.note command.label.key result).Sound commands start stop := by
  -- A note is the new one, or an old one.
  have hcases : ∀ other otherResult, commands other →
      ({ renamer with next }.note command.label.key result).notes.lookup other.label.key =
          some otherResult →
        other = command ∧ otherResult = result ∨
          renamer.notes.lookup other.label.key = some otherResult := by
    intro other otherResult hother hlookup
    by_cases hkey : other.label.key = command.label.key
    · rw [hkey, lookup_note] at hlookup
      exact .inl ⟨hfamily.unique other command hother hcommand hkey,
        (Option.some.inj hlookup).symm⟩
    · rw [lookup_note_of_ne _ result hkey] at hlookup
      exact .inr hlookup
  refine ⟨h.apart, h.start_le, Nat.le_trans h.stop_le hnext, ?_, ?_, ?_, ?_⟩
  · intro other otherResult hother hlookup
    rcases hcases other otherResult hother hlookup with ⟨rfl, rfl⟩ | hold
    · exact hsettled
    · exact (h.settled other otherResult hother hold).mono (leads_note hnone next result)
  · intro other otherResult hother hlookup
    rcases hcases other otherResult hother hlookup with ⟨rfl, rfl⟩ | hold
    · exact hkept
    · exact h.eq_of_kept other otherResult hother hold
  · intro other otherResult hother hlookup
    rcases hcases other otherResult hother hlookup with ⟨rfl, rfl⟩ | hold
    · exact hstands.mono rfl (Nat.le_refl _)
    · exact (h.stands other otherResult hother hold).mono rfl hnext
  · intro first second firstResult secondResult hfirst hsecond hlookup hother hkey
    rcases hcases first firstResult hfirst hlookup with ⟨rfl, rfl⟩ | hold
    · rcases hcases second secondResult hsecond hother with ⟨rfl, rfl⟩ | holder
      · rfl
      · exact (hfree second secondResult hsecond holder hkey.symm).symm
    · rcases hcases second secondResult hsecond hother with ⟨rfl, rfl⟩ | holder
      · exact hfree first firstResult hfirst hold hkey
      · exact h.injective first second firstResult secondResult hfirst hsecond hold holder hkey

/-- No other command has come to the place of a command that is kept or copied. -/
theorem Sound.free_of_copyOf {renamer : Renamer α} (h : renamer.Sound commands start stop)
    (hfamily : Family commands start) {command : Command α} (hcommand : commands command)
    {other otherResult : Command α} (hother : commands other)
    (hlookup : renamer.notes.lookup other.label.key = some otherResult)
    (hkey : otherResult.label.key = (renamer.copyOf .command command.label).key) :
    other = command :=
  hfamily.unique other command hother hcommand <|
    (h.stands other otherResult hother hlookup).key_eq h.apart h.start_le
      (hfamily.below other hother) (hfamily.below command hcommand) hkey

/-- A label without a new place is the label itself. -/
theorem Sound.copyOf_eq_of_key {renamer : Renamer α} (h : renamer.Sound commands start stop)
    (hfamily : Family commands start) {command : Command α} (hcommand : commands command)
    (hkey : (renamer.copyOf .command command.label).key = command.label.key) :
    renamer.copyOf .command command.label = command.label := by
  rw [copyOf] at hkey ⊢
  cases hcopy : renamer.copies.lookup (.command, command.label.key) with
  | none => rfl
  | some copy =>
    obtain ⟨number, hle, _, hnumber⟩ := h.apart.exists_number _ copy hcopy
    have hbelow := hfamily.below command hcommand
    rw [← hkey, hcopy, Option.getD_some, hnumber] at hbelow
    exact absurd hbelow (Nat.not_lt_of_le hle)

/-- The label of a noted command under all later renamers. -/
theorem relabelling_of_lookup {renamer : Renamer α} {label : Label} {result : Command α}
    (h : renamer.notes.lookup label.key = some result) :
    renamer.relabelling .command label =
      ⟨result.label.key, (renamer.copyOf .command label).name⟩ := by
  simp only [relabelling, h, Option.map_some, Option.getD_some]

theorem Family.nested (hfamily : Family commands start) {command inner : Command α}
    (hcommand : commands command) (hinner : inner ∈ command.nested) : commands inner := by
  have hholds := Command.mem_nested.mp hinner
  induction hholds with
  | itself => exact hcommand
  | @member label runsBefore members command inner hmember hholds ih =>
    exact ih (hfamily.member label runsBefore members hcommand command hmember)
      (Command.mem_nested.mpr hholds)

theorem Family.key_ne_of_mem_nested_member (hfamily : Family commands start) {label : Label}
    {runsBefore : Bool} {members : List (Command α)}
    (hgroup : commands (.group label runsBefore members)) {inner : Command α}
    (hinner : inner ∈ members.flatMap Command.nested) : inner.label.key ≠ label.key := by
  intro hkey
  obtain ⟨member, hmember, hnested⟩ := List.mem_flatMap.mp hinner
  have hcommand := hfamily.nested (hfamily.member label runsBefore members hgroup member hmember)
    hnested
  obtain rfl := hfamily.unique inner _ hcommand hgroup hkey
  exact Command.not_mem_nested_member hmember hnested

/-- Members that are all in their places are as they were. -/
theorem Sound.eq_of_keys_eq {renamer : Renamer α} (h : renamer.Sound commands start stop)
    {members changed : List (Command α)} (hmembers : ∀ member ∈ members, commands member)
    (hsettled : renamer.Settled (fun labels ↦ members.map (Command.mapLabels (labels .command)))
      (members.flatMap Command.nested) changed)
    (hkeys : changed.map (·.label.key) = members.map (·.label.key)) : changed = members := by
  have hchanged := hsettled.eq renamer (.refl renamer)
  rw [hchanged, List.map_map, List.map_inj_left] at hkeys
  rw [hchanged]
  refine (List.map_congr_left fun member hmember ↦ ?_).trans (List.map_id members)
  obtain ⟨result, hresult⟩ := hsettled.noted member
    (List.mem_flatMap.mpr ⟨member, hmember, Command.mem_nested.mpr (.itself member)⟩)
  have hvalue := (h.settled member result (hmembers member hmember) hresult).eq renamer
    (.refl renamer)
  have hsame := h.eq_of_kept member result (hmembers member hmember) hresult
    (hvalue ▸ hkeys member hmember)
  exact hvalue.symm.trans hsame

/-- A group is settled by its members and its own label. -/
theorem settled_note_group {renamer : Renamer α} {label : Label} (base : Label)
    (runsBefore : Bool) (next : Nat) {members changed : List (Command α)}
    (hnone : renamer.notes.lookup label.key = none)
    (hname : base.name = (renamer.copyOf .command label).name)
    (hmembers : renamer.Settled (fun labels ↦ members.map (Command.mapLabels (labels .command)))
      (members.flatMap Command.nested) changed) :
    ({ renamer with next }.note label.key (.group base runsBefore changed)).Settled
      (fun labels ↦ (Command.group label runsBefore members).mapLabels (labels .command))
      (Command.group label runsBefore members).nested (.group base runsBefore changed) := by
  have hleads := leads_note hnone next (.group base runsBefore changed)
  have hlookup := lookup_note { renamer with next } label.key (.group base runsBefore changed)
  refine ⟨fun later hlater ↦ ?_, fun command hcommand ↦ ?_⟩
  · have hlabel := relabelling_of_lookup (hlater.notes _ _ hlookup)
    rw [(hleads.trans hlater).copyOf, ← hname] at hlabel
    rw [Command.mapLabels, Command.mapLabelsAll_eq, hlabel,
      ← hmembers.eq later (hleads.trans hlater)]
    rfl
  · rw [Command.nested, Command.nestedAll_eq] at hcommand
    rcases List.mem_cons.mp hcommand with rfl | hinner
    · exact ⟨_, hlookup⟩
    · exact hleads.noted (hmembers.noted command hinner)

/-- An instruction comes to its copy, or stays. -/
theorem Sound.note_single {renamer : Renamer α} (h : renamer.Sound commands start stop)
    (hfamily : Family commands start) {instruction : Instruction α}
    (hcommand : commands (.single instruction))
    (hnone : renamer.notes.lookup instruction.label.key = none) :
    let result : Command α :=
      .single { instruction with label := renamer.copyOf .command instruction.label }
    (renamer.note instruction.label.key result).Sound commands start stop ∧
      renamer.Leads (renamer.note instruction.label.key result) ∧
      (renamer.note instruction.label.key result).Settled
        (fun labels ↦ (Command.single instruction).mapLabels (labels .command))
        (Command.single instruction).nested result := by
  intro result
  have hlookup := lookup_note renamer instruction.label.key result
  have hsettled : (renamer.note instruction.label.key result).Settled
      (fun labels ↦ (Command.single instruction).mapLabels (labels .command))
      (Command.single instruction).nested result := by
    refine ⟨fun later hlater ↦ ?_, fun command hmem ↦ ?_⟩
    · have hlabel := relabelling_of_lookup (hlater.notes _ _ hlookup)
      rw [hlater.copyOf] at hlabel
      rw [Command.mapLabels, hlabel]
      rfl
    · rw [Command.nested, List.mem_singleton] at hmem
      exact hmem ▸ ⟨result, hlookup⟩
  refine ⟨h.note hfamily hcommand hnone (Nat.le_refl _) hsettled (fun hkey ↦ ?_)
    (stands_copyOf _ _ _ _)
    (fun other otherResult hother ↦ h.free_of_copyOf hfamily hcommand hother),
    leads_note hnone renamer.next result, hsettled⟩
  exact congrArg (fun label ↦ Command.single { instruction with label })
    (h.copyOf_eq_of_key hfamily hcommand hkey)

/-- A group whose members have all stayed comes to its copy, or stays. -/
theorem Sound.note_group {renamer : Renamer α} (h : renamer.Sound commands start stop)
    (hfamily : Family commands start) {label : Label} {runsBefore : Bool}
    {members : List (Command α)} (hcommand : commands (.group label runsBefore members))
    (hnone : renamer.notes.lookup label.key = none)
    (hmembers : renamer.Settled (fun labels ↦ members.map (Command.mapLabels (labels .command)))
      (members.flatMap Command.nested) members) :
    let result := Command.group (renamer.copyOf .command label) runsBefore members
    (renamer.note label.key result).Sound commands start stop ∧
      renamer.Leads (renamer.note label.key result) ∧
      (renamer.note label.key result).Settled
        (fun labels ↦ (Command.group label runsBefore members).mapLabels (labels .command))
        (Command.group label runsBefore members).nested result := by
  intro result
  have hsettled := settled_note_group (renamer.copyOf .command label) runsBefore renamer.next hnone
    rfl hmembers
  refine ⟨h.note hfamily hcommand hnone (Nat.le_refl _) hsettled (fun hkey ↦ ?_)
    (stands_copyOf _ _ _ _)
    (fun other otherResult hother ↦ h.free_of_copyOf hfamily hcommand hother),
    leads_note hnone renamer.next result, hsettled⟩
  exact congrArg (fun label ↦ Command.group label runsBefore members)
    (h.copyOf_eq_of_key hfamily hcommand hkey)

/-- A group with other members comes to a place that none has. -/
theorem Sound.note_built {renamer : Renamer α} (h : renamer.Sound commands start stop)
    (hfamily : Family commands start) {label : Label} {runsBefore : Bool}
    {members changed : List (Command α)} (hcommand : commands (.group label runsBefore members))
    (hnone : renamer.notes.lookup label.key = none)
    (hmembers : renamer.Settled (fun labels ↦ members.map (Command.mapLabels (labels .command)))
      (members.flatMap Command.nested) changed) :
    let result := Command.group ⟨.authored renamer.next, (renamer.copyOf .command label).name⟩
      runsBefore changed
    ({ renamer with next := renamer.next + 1 }.note label.key result).Sound commands start stop ∧
      renamer.Leads ({ renamer with next := renamer.next + 1 }.note label.key result) ∧
      ({ renamer with next := renamer.next + 1 }.note label.key result).Settled
        (fun labels ↦ (Command.group label runsBefore members).mapLabels (labels .command))
        (Command.group label runsBefore members).nested result := by
  intro result
  have hsettled := settled_note_group
    ⟨.authored renamer.next, (renamer.copyOf .command label).name⟩ runsBefore (renamer.next + 1)
    hnone rfl hmembers
  refine ⟨h.note hfamily hcommand hnone (Nat.le_succ _) hsettled (fun hkey ↦ ?_)
    (.built renamer.next h.stop_le (Nat.lt_succ_self _) rfl)
    (fun other otherResult hother hlookup hkey ↦ ?_),
    leads_note hnone (renamer.next + 1) result, hsettled⟩
  · have hbelow := hfamily.below _ hcommand
    rw [← hkey] at hbelow
    exact absurd hbelow (Nat.not_lt_of_le (Nat.le_trans h.start_le h.stop_le))
  · exact absurd hkey ((h.stands other otherResult hother hlookup).ne_next h.apart h.start_le
      h.stop_le (hfamily.below other hother))

theorem command_of_lookup {renamer : Renamer α} {command result : Command α}
    (h : renamer.notes.lookup command.label.key = some result) :
    Renamer.command command renamer = (result, renamer) := by
  cases command with
  | single instruction =>
    rw [Command.label] at h
    rw [Renamer.command, h]
  | group label runsBefore members =>
    rw [Command.label] at h
    rw [Renamer.command, h]

theorem commands_eq_thread (members : List (Command α)) :
    Renamer.commands members = thread Renamer.command members := by
  induction members with
  | nil => rfl
  | cons first rest ih =>
    funext renamer
    rw [Renamer.commands, ih, thread]

/-- Whatever has been renamed before, a command comes to where all its users are led. -/
theorem correct_command (hfamily : Family commands start) {command : Command α} :
    commands command → Correct Renamer.command commands start stop command
      (fun labels ↦ command.mapLabels (labels .command)) command.nested := by
  induction command using Command.member_induction with
  | single instruction =>
    intro hcommand renamer hsound
    cases hlookup : renamer.notes.lookup (Command.single instruction).label.key with
    | some result =>
      rw [command_of_lookup hlookup]
      exact ⟨hsound, .refl renamer, hsound.settled _ result hcommand hlookup, fun _ _ ↦ rfl⟩
    | none =>
      obtain ⟨hnoted, hleads, hsettled⟩ := hsound.note_single hfamily hcommand hlookup
      rw [Command.label] at hlookup
      rw [Renamer.command, hlookup]
      exact ⟨hnoted, hleads, hsettled, fun key hkey ↦ lookup_note_of_ne renamer _
        (hkey (.single instruction) (List.mem_singleton_self _)).symm⟩
  | group label runsBefore members ih =>
    intro hcommand renamer hsound
    cases hlookup : renamer.notes.lookup (Command.group label runsBefore members).label.key with
    | some result =>
      rw [command_of_lookup hlookup]
      exact ⟨hsound, .refl renamer, hsound.settled _ result hcommand hlookup, fun _ _ ↦ rfl⟩
    | none =>
      obtain ⟨hafter, hleads, hmembers, hframe⟩ := Correct.thread members
        (fun member hmember ↦ ih member hmember
          (hfamily.member label runsBefore members hcommand member hmember)) renamer hsound
      rw [← commands_eq_thread] at hafter hleads hmembers hframe
      have hnone : (Renamer.commands members renamer).2.notes.lookup label.key = none :=
        (hframe label.key fun inner hinner ↦
          hfamily.key_ne_of_mem_nested_member hcommand hinner).trans hlookup
      have hframed : ∀ (next : Nat) (result : Command α) (key : Key),
          (∀ inner ∈ (Command.group label runsBefore members).nested, inner.label.key ≠ key) →
            ({ (Renamer.commands members renamer).2 with next }.note label.key result).notes.lookup
              key = renamer.notes.lookup key := by
        intro next result key hkey
        rw [Command.nested, Command.nestedAll_eq, List.forall_mem_cons] at hkey
        exact (lookup_note_of_ne _ result hkey.1.symm).trans (hframe key hkey.2)
      rw [Command.label] at hlookup
      rw [Renamer.command, hlookup]
      dsimp only
      rw [← hleads.copyOf .command label]
      split
      · next hkeys =>
        have hsame := hafter.eq_of_keys_eq (hfamily.member label runsBefore members hcommand)
          hmembers hkeys
        rw [hsame] at hmembers
        obtain ⟨hnoted, hlater, hsettled⟩ := hafter.note_group hfamily hcommand hnone hmembers
        exact ⟨hnoted, hleads.trans hlater, hsettled, hframed _ _⟩
      · obtain ⟨hnoted, hlater, hsettled⟩ := hafter.note_built hfamily hcommand hnone hmembers
        exact ⟨hnoted, hleads.trans hlater, hsettled, hframed _ _⟩

/-! ### Attributes, targets and steps -/

theorem correct_entry (hfamily : Family commands start) {entry : Attribute α}
    (hentry : ∀ command, entry = .command command → commands command) :
    Correct Renamer.entry commands start stop entry (entry.relabel ·) entry.commands := by
  intro renamer hsound
  cases entry with
  | command command =>
    obtain ⟨hafter, hleads, hsettled, hframe⟩ :=
      correct_command hfamily (hentry command rfl) renamer hsound
    exact ⟨hafter, hleads,
      ⟨fun later hlater ↦ congrArg Attribute.command (hsettled.eq later hlater), hsettled.noted⟩,
      hframe⟩
  | tool tool =>
    exact ⟨hsound, .refl renamer, ⟨fun later hlater ↦ congrArg
      (fun label ↦ Attribute.tool { tool with label }) (hlater.copyOf .tool tool.label).symm,
      List.forall_mem_nil _⟩, fun _ _ ↦ rfl⟩
  | frame frame =>
    exact ⟨hsound, .refl renamer, ⟨fun later hlater ↦ congrArg
      (fun label ↦ Attribute.frame { frame with label }) (hlater.copyOf .frame frame.label).symm,
      List.forall_mem_nil _⟩, fun _ _ ↦ rfl⟩
  | speed speed =>
    exact ⟨hsound, .refl renamer, ⟨fun later hlater ↦ congrArg
      (fun label ↦ Attribute.speed { speed with label }) (hlater.copyOf .speed speed.label).symm,
      List.forall_mem_nil _⟩, fun _ _ ↦ rfl⟩
  | zone zone =>
    exact ⟨hsound, .refl renamer, ⟨fun later hlater ↦ congrArg
      (fun label ↦ Attribute.zone { zone with label }) (hlater.copyOf .zone zone.label).symm,
      List.forall_mem_nil _⟩, fun _ _ ↦ rfl⟩

theorem correct_target (hfamily : Family commands start) {target : Target α}
    (htarget : ∀ command ∈ target.command, commands command) :
    Correct Renamer.target commands start stop target (target.relabel ·)
      ((target.command.map Command.nested).getD []) := by
  intro renamer hsound
  rw [Renamer.target]
  cases hcommand : target.command with
  | none =>
    refine ⟨hsound, .refl renamer, ⟨fun later hlater ↦ ?_, List.forall_mem_nil _⟩, fun _ _ ↦ rfl⟩
    have hcopy := fun kind label ↦ hlater.copyOf kind label
    simp only [Target.relabel, hcommand, relabelling, hcopy, Option.map_none]
  | some command =>
    obtain ⟨hafter, hleads, hsettled, hframe⟩ :=
      correct_command hfamily (htarget command hcommand) renamer hsound
    refine ⟨hafter, hleads, ⟨fun later hlater ↦ ?_, hsettled.noted⟩, hframe⟩
    have hcopy := fun kind label ↦ (hleads.trans hlater).copyOf kind label
    have hvalue := hsettled.eq later hlater
    simp only [Target.relabel, hcommand, relabelling, hcopy, Option.map_some] at hvalue ⊢
    rw [← hvalue]

theorem correct_waypoint (hfamily : Family commands start) {waypoint : Waypoint α}
    (hwaypoint : ∀ command ∈ waypoint.target.command, commands command) :
    Correct Renamer.waypoint commands start stop waypoint
      (fun labels ↦ { waypoint with target := waypoint.target.relabel labels })
      ((waypoint.target.command.map Command.nested).getD []) := by
  intro renamer hsound
  obtain ⟨hafter, hleads, hsettled, hframe⟩ := correct_target hfamily hwaypoint renamer hsound
  exact ⟨hafter, hleads, ⟨fun later hlater ↦ congrArg (fun target ↦ { waypoint with target })
    (hsettled.eq later hlater), hsettled.noted⟩, hframe⟩

theorem correct_step (hfamily : Family commands start) {step : Step α}
    (hstep : ∀ target ∈ step.targets, ∀ command ∈ target.command, commands command) :
    Correct Renamer.step commands start stop step
      (fun labels ↦ step.mapTargets fun _ ↦ Target.relabel labels)
      (step.targets.flatMap fun target ↦ (target.command.map Command.nested).getD []) := by
  intro renamer hsound
  obtain ⟨hafter, hleads, hsettled, hframe⟩ := Correct.thread step.waypoints
    (fun waypoint hwaypoint ↦ correct_waypoint hfamily
      (hstep waypoint.target (List.mem_map_of_mem hwaypoint))) renamer hsound
  rw [Step.targets, List.flatMap_map]
  refine ⟨hafter, hleads, ⟨fun later hlater ↦ ?_, hsettled.noted⟩, hframe⟩
  have hwaypoints : step.waypoints.map (fun waypoint ↦
      { waypoint with target := waypoint.target.relabel later.relabelling }) =
        step.waypoints.zipIdx.map fun entry ↦
          { entry.1 with target := entry.1.target.relabel later.relabelling } :=
    List.ext_getElem (by simp) (by simp)
  exact congrArg (fun waypoints ↦ { step with waypoints })
    ((hsettled.eq later hlater).trans hwaypoints)

end Changes

/-! ### New names -/

theorem below_freeKeyNumber {entries : List (Attribute α)} {entry : Attribute α}
    (h : entry ∈ entries) : entry.label.key.Below (freeKeyNumber entries) := by
  induction entries with
  | nil => cases h
  | cons first rest ih =>
    rw [freeKeyNumber, List.map_cons, List.foldr_cons, ← freeKeyNumber]
    rcases List.mem_cons.mp h with rfl | hrest
    · cases hkey : entry.label.key with
      | builtin => trivial
      | authored number => exact Nat.lt_of_lt_of_le (Nat.lt_succ_self number) (Nat.le_max_left _ _)
    · have hbelow := ih hrest
      cases hkey : entry.label.key with
      | builtin => trivial
      | authored number =>
        rw [hkey] at hbelow
        exact Nat.lt_of_lt_of_le hbelow (Nat.le_max_right _ _)

theorem exists_of_lookup_copies {naming : Naming} {start : Nat} {id : AttributeId} {copy : Label}
    (h : (ofNaming naming start : Renamer α).copies.lookup id = some copy) :
    ∃ place name, naming.given[place]? = some (id, name) ∧
      copy = ⟨.authored (start + place), name⟩ := by
  obtain ⟨before, after, hsplit, _⟩ := List.lookup_eq_some_iff.mp h
  have hmem : (id, copy) ∈ (ofNaming naming start : Renamer α).copies := by
    rw [hsplit]
    exact List.mem_append_right _ List.mem_cons_self
  obtain ⟨⟨⟨held, name⟩, place⟩, hplace, heq⟩ := List.mem_map.mp hmem
  obtain ⟨rfl, rfl⟩ := Prod.mk.inj heq
  exact ⟨place, name, List.mem_zipIdx_iff_getElem?.mp hplace, rfl⟩

theorem apart_ofNaming (naming : Naming) (start : Nat) :
    Apart (ofNaming naming start : Renamer α).copies start (start + naming.given.length) := by
  constructor
  · intro id copy h
    obtain ⟨place, name, hplace, rfl⟩ := exists_of_lookup_copies h
    obtain ⟨hlt, _⟩ := List.getElem?_eq_some_iff.mp hplace
    exact ⟨start + place, Nat.le_add_right _ _, Nat.add_lt_add_left hlt start, rfl⟩
  · intro id other copy second h hother hkey
    obtain ⟨place, name, hplace, rfl⟩ := exists_of_lookup_copies h
    obtain ⟨otherPlace, otherName, hotherPlace, rfl⟩ := exists_of_lookup_copies hother
    obtain rfl := Nat.add_left_cancel (Key.authored.inj hkey)
    exact (Prod.mk.inj (Option.some.inj (hplace.symm.trans hotherPlace))).1

theorem sound_ofNaming (naming : Naming) (commands : Command α → Prop) (start : Nat) :
    (ofNaming naming start).Sound commands start (start + naming.given.length) where
  apart := apart_ofNaming naming start
  start_le := Nat.le_add_right _ _
  stop_le := Nat.le_refl _
  settled := fun _ _ _ h ↦ absurd h (by simp [ofNaming])
  eq_of_kept := fun _ _ _ h ↦ absurd h (by simp [ofNaming])
  stands := fun _ _ _ h ↦ absurd h (by simp [ofNaming])
  injective := fun _ _ _ _ _ _ h ↦ absurd h (by simp [ofNaming])

/-- The copies have the new names. -/
theorem name_lookup_copies (naming : Naming) (start : Nat) (id : AttributeId) :
    ((ofNaming naming start : Renamer α).copies.lookup id).map Label.name =
      naming.given.lookup id := by
  have hfrom : ∀ (given : List (AttributeId × String)) (place : Nat),
      (((given.zipIdx place).map fun entry ↦ (entry.1.1,
        (⟨.authored (start + entry.2), entry.1.2⟩ : Label))).lookup id).map Label.name =
          given.lookup id := by
    intro given
    induction given with
    | nil => intro place; rfl
    | cons entry rest ih =>
      obtain ⟨held, name⟩ := entry
      intro place
      rw [List.zipIdx_cons, List.map_cons]
      cases hid : id == held with
      | true => simp only [List.lookup_cons, hid, Option.map_some]
      | false =>
        simp only [List.lookup_cons, hid]
        exact ih (place + 1)
  exact hfrom naming.given 0

/-- Renaming by copies gives the names of the naming. -/
theorem name_relabelling {naming : Naming} {start : Nat} {renamer : Renamer α}
    (h : (ofNaming naming start).Leads renamer) (kind : AttributeKind) (label : Label) :
    (renamer.relabelling kind label).name = (naming.relabelling kind label).name := by
  have hcopy : (renamer.copyOf kind label).name = (naming.relabelling kind label).name := by
    have hnames := name_lookup_copies (α := α) naming start (kind, label.key)
    rw [h.copyOf, copyOf, Naming.relabelling, ← hnames]
    cases (ofNaming naming start : Renamer α).copies.lookup (kind, label.key) <;> rfl
  cases kind <;> exact hcopy

/-! ### Different places -/

/-- Once all commands have been seen, different instances of a kind are led to different places. -/
theorem Sound.key_eq {commands : Command α → Prop} {start stop : Nat} {renamer : Renamer α}
    (h : renamer.Sound commands start stop)
    (hnoted : ∀ command, commands command → renamer.Noted command) {first second : Attribute α}
    (hfirst : ∀ command, first = .command command → commands command)
    (hsecond : ∀ command, second = .command command → commands command)
    (hfirstBelow : first.label.key.Below start) (hsecondBelow : second.label.key.Below start)
    (hkind : first.kind = second.kind)
    (hkey : (renamer.relabelling first.kind first.label).key =
      (renamer.relabelling second.kind second.label).key) :
    first.label.key = second.label.key := by
  rw [← hkind] at hkey
  cases first with
  | command command =>
    cases second with
    | command other =>
      obtain ⟨result, hresult⟩ := hnoted command (hfirst command rfl)
      obtain ⟨otherResult, hother⟩ := hnoted other (hsecond other rfl)
      have hplace : (renamer.relabelling .command command.label).key =
        (renamer.relabelling .command other.label).key := hkey
      rw [relabelling_of_lookup hresult, relabelling_of_lookup hother] at hplace
      rw [h.injective command other result otherResult (hfirst command rfl) (hsecond other rfl)
        hresult hother hplace]
    | _ => cases hkind
  | _ =>
    exact (stands_copyOf renamer _ stop _).key_eq h.apart h.start_le hfirstBelow hsecondBelow hkey

end Renamer

end Toolpath
