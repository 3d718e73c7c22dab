import Mathlib.Data.Prod.Lex
import Toolpath.Proofs.Collision.Sweep
import Toolpath.Proofs.Layout

/-!
Which shape a number stands for. The planes of all groups are numbered in the order of the groups,
and the environment comes after the last plane; the tool of a group with a shape of its own takes
the number of the tool centre point and stands on the flange (`Scene.Denotes`). Every number of a
plane belongs to one group (`Cell.existsUnique_numbers`), and the table of posed shapes holds at
each number what the number denotes (`Scene.getElem?_posedShapes_iff`). A state is therefore
reported exactly if two numbers of the settings denote shapes that touch, and the pair that is
reported is the first one of the settings (`CollisionCheck.collision?_firstTouch`).
-/

set_option autoImplicit false
set_option relaxedAutoImplicit false

namespace Toolpath

variable {α σ : Type}

/-! ### Plane numbers -/

namespace Cell

/-- How many planes all groups have together. -/
def planeCount (cell : Cell α) : Nat :=
  (cell.groups.map Group.planeCount).foldr (· + ·) 0

/-- The number is that of a plane of the group at `index`, whose planes have the numbers from
`start` on. -/
structure Numbers (cell : Cell α) (index start : Nat) (group : Group α) (number : Nat) :
    Prop where
  isGroup : cell.groups[index]? = some group
  isStart : cell.planeOffsets[index]? = some start
  le : start ≤ number
  lt : number < start + group.planeCount

/-- Every group has a solution with as many planes as the group announces. -/
def HasPlanes (cell : Cell α) (solutions : List (Solution α)) : Prop :=
  solutions.map (fun solution ↦ solution.planes.length) = cell.groups.map Group.planeCount

theorem le_of_getElem?_offsetsFrom {counts : List Nat} :
    ∀ {start index offset : Nat}, (offsetsFrom start counts)[index]? = some offset →
      start ≤ offset := by
  induction counts with
  | nil => intro start index offset h; cases h
  | cons count rest ih =>
    intro start index offset h
    cases index with
    | zero => exact (Option.some.inj h).le
    | succ index => exact (Nat.le_add_right start count).trans (ih h)

/-- Each range ends before the later ones start. -/
theorem add_le_of_getElem?_offsetsFrom {counts : List Nat} :
    ∀ {start index later count offset next : Nat}, counts[index]? = some count →
      (offsetsFrom start counts)[index]? = some offset →
      (offsetsFrom start counts)[later]? = some next → index < later → offset + count ≤ next := by
  induction counts with
  | nil => intro start index later count offset next h; cases h
  | cons first rest ih =>
    intro start index later count offset next hcount hoffset hnext hlt
    obtain ⟨later, rfl⟩ := Nat.exists_eq_add_of_lt hlt
    cases index with
    | zero =>
      obtain rfl := Option.some.inj hcount
      obtain rfl := Option.some.inj hoffset
      rw [Nat.zero_add, offsetsFrom, List.getElem?_cons_succ] at hnext
      exact le_of_getElem?_offsetsFrom hnext
    | succ index =>
      rw [Nat.succ_add, Nat.succ_add] at hnext
      exact ih hcount hoffset hnext (by omega)

/-- The ranges leave no gap. -/
theorem exists_offset_of_lt {counts : List Nat} :
    ∀ {start number : Nat}, start ≤ number → number < start + counts.foldr (· + ·) 0 →
      ∃ index count offset : Nat, counts[index]? = some count ∧
        (offsetsFrom start counts)[index]? = some offset ∧ offset ≤ number ∧
          number < offset + count := by
  induction counts with
  | nil => intro start number hle hlt; exact absurd hlt (Nat.not_lt.mpr hle)
  | cons first rest ih =>
    intro start number hle hlt
    rw [List.foldr_cons, ← Nat.add_assoc] at hlt
    by_cases hfirst : number < start + first
    · exact ⟨0, first, start, rfl, rfl, hle, hfirst⟩
    · obtain ⟨index, count, offset, hcount, hoffset, hrange⟩ := ih (Nat.le_of_not_lt hfirst) hlt
      exact ⟨index + 1, count, offset, hcount, hoffset, hrange⟩

theorem add_le_sum_of_getElem?_offsetsFrom {counts : List Nat} :
    ∀ {start index count offset : Nat}, counts[index]? = some count →
      (offsetsFrom start counts)[index]? = some offset →
        offset + count ≤ start + counts.foldr (· + ·) 0 := by
  induction counts with
  | nil => intro start index count offset h; cases h
  | cons first rest ih =>
    intro start index count offset hcount hoffset
    rw [List.foldr_cons]
    cases index with
    | zero =>
      obtain rfl := Option.some.inj hcount
      obtain rfl := Option.some.inj hoffset
      omega
    | succ index =>
      have hrest := ih hcount hoffset
      omega

variable {cell : Cell α} {index start number : Nat} {group : Group α}

theorem Numbers.sub_lt (h : cell.Numbers index start group number) :
    number - start < group.planeCount := by
  have hle := h.le
  have hlt := h.lt
  omega

theorem Numbers.lt_planeCount (h : cell.Numbers index start group number) :
    number < cell.planeCount := by
  have hcount : (cell.groups.map Group.planeCount)[index]? = some group.planeCount := by
    rw [List.getElem?_map, h.isGroup, Option.map_some]
  have hle := add_le_sum_of_getElem?_offsetsFrom hcount h.isStart
  rw [Nat.zero_add] at hle
  exact h.lt.trans_le hle

theorem Numbers.eq {other begin : Nat} {found : Group α}
    (h : cell.Numbers index start group number) (hother : cell.Numbers other begin found number) :
    other = index ∧ begin = start ∧ found = group := by
  have hcount : ∀ {place : Nat} {held : Group α}, cell.groups[place]? = some held →
      (cell.groups.map Group.planeCount)[place]? = some held.planeCount := fun hheld ↦ by
    rw [List.getElem?_map, hheld, Option.map_some]
  have hsame : other = index := by
    rcases Nat.lt_trichotomy other index with hbefore | hsame | hafter
    · have hends := add_le_of_getElem?_offsetsFrom (hcount hother.isGroup) hother.isStart h.isStart
        hbefore
      exact absurd hother.lt (Nat.not_lt.mpr (hends.trans h.le))
    · exact hsame
    · have hends :=
        add_le_of_getElem?_offsetsFrom (hcount h.isGroup) h.isStart hother.isStart hafter
      exact absurd h.lt (Nat.not_lt.mpr (hends.trans hother.le))
  subst hsame
  exact ⟨rfl, Option.some.inj (hother.isStart.symm.trans h.isStart),
    Option.some.inj (hother.isGroup.symm.trans h.isGroup)⟩

theorem exists_numbers (cell : Cell α) {number : Nat} (h : number < cell.planeCount) :
    ∃ index start group, cell.Numbers index start group number := by
  obtain ⟨index, count, start, hcount, hstart, hle, hlt⟩ :=
    exists_offset_of_lt (Nat.zero_le number) (by rwa [Nat.zero_add] : number < 0 + _)
  rw [List.getElem?_map, Option.map_eq_some_iff] at hcount
  obtain ⟨group, hgroup, rfl⟩ := hcount
  exact ⟨index, start, group, hgroup, hstart, hle, hlt⟩

/-- Every plane number belongs to exactly one group. -/
theorem existsUnique_numbers (cell : Cell α) {number : Nat} (h : number < cell.planeCount) :
    ∃! index, ∃ start group, cell.Numbers index start group number := by
  obtain ⟨index, start, group, hnumbers⟩ := cell.exists_numbers h
  refine ⟨index, ⟨start, group, hnumbers⟩, ?_⟩
  rintro other ⟨begin, found, hother⟩
  exact (hnumbers.eq hother).1

variable {solutions : List (Solution α)}

/-- A group has a solution with as many planes as it announces. -/
theorem HasPlanes.exists_solution (h : cell.HasPlanes solutions)
    (hgroup : cell.groups[index]? = some group) :
    ∃ solution, solutions[index]? = some solution ∧ solution.planes.length = group.planeCount := by
  have hcount := congrArg (·[index]?) h
  simp only [List.getElem?_map, hgroup, Option.map_some] at hcount
  exact Option.map_eq_some_iff.mp hcount

end Cell

/-! ### Denoted shapes -/

namespace Scene

/-- The shape of the tool that the target of a group has. -/
def toolShape? (scene : Scene σ) (target : Step α) (index : Nat) : Option σ :=
  target.waypoints[index]?.bind fun waypoint ↦
    scene.tools.lookup waypoint.target.tool.label.name

theorem planeShape?_eq_some_iff {scene : Scene σ} {index place : Nat} {shape : σ} :
    scene.planeShape? index place = some shape ↔
      ∃ shapes, scene.groups[index]? = some shapes ∧ shapes[place]? = some (some shape) := by
  rw [planeShape?, Option.join_eq_some_iff, Option.bind_eq_some_iff]

/-- What a number stands for in a state of the cell. -/
inductive Denotes [Scalar α] (scene : Scene σ) (cell : Cell α) (settings : CollisionSettings α σ)
    (target : Step α) (solutions : List (Solution α)) (number : Nat) : Pose α × σ → Prop where
  /-- The shape on the plane with the number. At the tool centre point the tool must have no shape
  of its own. -/
  | plane {index start : Nat} {group : Group α} {solution : Solution α} {plane : Pose α} {shape : σ}
      {shapes : List (Option σ)} (hnumbers : cell.Numbers index start group number)
      (hsolution : solutions[index]? = some solution)
      (hplane : solution.planes[number - start]? = some plane)
      (hshapes : scene.groups[index]? = some shapes)
      (hshape : shapes[number - start]? = some (some shape))
      (htool : number + 1 = start + group.planeCount → scene.toolShape? target index = none) :
      Denotes scene cell settings target solutions number (plane, shape)
  /-- The shape of the tool, on the flange, which is the plane before the tool centre point. -/
  | tool {index start : Nat} {group : Group α} {solution : Solution α} {flange : Pose α} {shape : σ}
      (hnumbers : cell.Numbers index start group number)
      (hlast : number + 1 = start + group.planeCount)
      (hsolution : solutions[index]? = some solution)
      (hflange : solution.planes[number - start - 1]? = some flange)
      (hshape : scene.toolShape? target index = some shape) :
      Denotes scene cell settings target solutions number (flange, shape)
  /-- The environment, on its plane or in the world. -/
  | environment {shape : σ} (hnumber : number = cell.planeCount)
      (hshape : settings.environment = some shape) :
      Denotes scene cell settings target solutions number
        ((settings.environmentPlane.bind ((solutions.flatMap Solution.planes)[·]?)).getD 1, shape)

theorem Denotes.le_planeCount [Scalar α] {scene : Scene σ} {cell : Cell α}
    {settings : CollisionSettings α σ} {target : Step α} {solutions : List (Solution α)}
    {number : Nat} {posed : Pose α × σ}
    (h : scene.Denotes cell settings target solutions number posed) :
    number ≤ cell.planeCount := by
  cases h with
  | plane hnumbers => exact hnumbers.lt_planeCount.le
  | tool hnumbers => exact hnumbers.lt_planeCount.le
  | environment hnumber => exact hnumber.le

/-! ### The table of posed shapes -/

/-- What a group puts into the table of posed shapes. -/
def groupRow (scene : Scene σ) (target : Step α) (entry : (Group α × Solution α) × Nat) :
    List (Option (Pose α × σ)) :=
  scene.groupShapes entry.1.1 entry.2
    (target.waypoints[entry.2]?.map fun waypoint ↦ waypoint.target.tool.label.name) entry.1.2.planes

section Row

variable {scene : Scene σ} {target : Step α} {index : Nat} {group : Group α} {solution : Solution α}

theorem length_groupRow (scene : Scene σ) (target : Step α)
    (entry : (Group α × Solution α) × Nat) :
    (scene.groupRow target entry).length = entry.1.2.planes.length := by
  rw [groupRow, groupShapes, List.length_map, List.length_zipIdx]

/-- On a plane stands the shape of the tool, if it is the tool centre point and there is one, else
the shape of the plane. -/
theorem getElem?_groupRow {place : Nat} {plane flange : Pose α}
    (hplane : solution.planes[place]? = some plane)
    (hflange : solution.planes[group.flangePlane]? = some flange) :
    (scene.groupRow target ((group, solution), index))[place]? =
      some (if place + 1 = group.planeCount then
        ((scene.toolShape? target index).map fun shape ↦ (flange, shape)).or
          ((scene.planeShape? index place).map fun shape ↦ (plane, shape))
      else (scene.planeShape? index place).map fun shape ↦ (plane, shape)) := by
  have htool : (do
      let shape ← (target.waypoints[index]?.map
        fun waypoint ↦ waypoint.target.tool.label.name).bind fun name ↦ scene.tools.lookup name
      let flange ← solution.planes[group.flangePlane]?
      return (flange, shape) : Option (Pose α × σ)) =
        (scene.toolShape? target index).map fun shape ↦ (flange, shape) := by
    rw [hflange, toolShape?]
    cases target.waypoints[index]? with
    | none => rfl
    | some waypoint => cases hlookup : scene.tools.lookup waypoint.target.tool.label.name <;>
        simp [hlookup]
  rw [groupRow, groupShapes, List.getElem?_map, List.getElem?_zipIdx, hplane]
  simp only [Option.map_some, Nat.zero_add, htool]

end Row

variable [Scalar α]

section Table

variable {scene : Scene σ} {cell : Cell α} {settings : CollisionSettings α σ} {target : Step α}
  {solutions : List (Solution α)} {index start number : Nat} {group : Group α}
  {solution : Solution α}

theorem posedShapes_eq : scene.posedShapes cell settings target solutions =
    ((cell.groups.zip solutions).zipIdx.map (scene.groupRow target)).flatten ++
      [environmentShape settings (solutions.flatMap Solution.planes)] := by
  rw [← List.flatMap_def]
  rfl

/-- The entry of a plane number is what the number denotes. -/
theorem getElem?_groupRow_iff (hnumbers : cell.Numbers index start group number)
    (hsolution : solutions[index]? = some solution)
    (hlength : solution.planes.length = group.planeCount) {posed : Pose α × σ} :
    (scene.groupRow target ((group, solution), index))[number - start]?.join = some posed ↔
      scene.Denotes cell settings target solutions number posed := by
  have hplace : number - start < solution.planes.length := hlength ▸ hnumbers.sub_lt
  have hplane := List.getElem?_eq_getElem hplace
  have hflange : group.flangePlane < solution.planes.length := by
    rw [hlength, Group.flangePlane, Group.planeCount]
    omega
  have hlast : number - start + 1 = group.planeCount ↔ number + 1 = start + group.planeCount := by
    have hle := hnumbers.le
    omega
  have hbefore : number + 1 = start + group.planeCount → number - start - 1 = group.flangePlane := by
    intro hend
    rw [Group.flangePlane]
    omega
  rw [getElem?_groupRow hplane (List.getElem?_eq_getElem hflange), Option.join_some]
  constructor
  · intro h
    split_ifs at h with hend
    · cases htool : scene.toolShape? target index with
      | some shape =>
        rw [htool] at h
        obtain rfl := Option.some.inj h
        refine .tool hnumbers (hlast.mp hend) hsolution ?_ htool
        rw [hbefore (hlast.mp hend), List.getElem?_eq_getElem hflange]
      | none =>
        rw [htool] at h
        obtain ⟨shape, hshape, rfl⟩ := Option.map_eq_some_iff.mp h
        obtain ⟨shapes, hshapes, hshape⟩ := planeShape?_eq_some_iff.mp hshape
        exact .plane hnumbers hsolution hplane hshapes hshape fun _ ↦ htool
    · obtain ⟨shape, hshape, rfl⟩ := Option.map_eq_some_iff.mp h
      obtain ⟨shapes, hshapes, hshape⟩ := planeShape?_eq_some_iff.mp hshape
      exact .plane hnumbers hsolution hplane hshapes hshape
        fun hatEnd ↦ absurd (hlast.mpr hatEnd) hend
  · intro h
    cases h with
    | plane hother hheld hown hshapes hentry htool =>
      obtain ⟨rfl, rfl, rfl⟩ := hnumbers.eq hother
      obtain rfl := Option.some.inj (hsolution.symm.trans hheld)
      obtain rfl := Option.some.inj (hplane.symm.trans hown)
      have hshape := planeShape?_eq_some_iff.mpr ⟨_, hshapes, hentry⟩
      split_ifs with hend
      · rw [htool (hlast.mp hend), hshape]
        rfl
      · rw [hshape, Option.map_some]
    | tool hother hatEnd hheld hown hshape =>
      obtain ⟨rfl, rfl, rfl⟩ := hnumbers.eq hother
      obtain rfl := Option.some.inj (hsolution.symm.trans hheld)
      rw [hbefore hatEnd, List.getElem?_eq_getElem hflange] at hown
      obtain rfl := Option.some.inj hown
      rw [if_pos (hlast.mpr hatEnd), hshape]
      rfl
    | environment hnumber => exact absurd hnumber hnumbers.lt_planeCount.ne

variable (hplanes : cell.HasPlanes solutions)

include hplanes

omit [Scalar α] in
theorem lengths_groupRows :
    ((cell.groups.zip solutions).zipIdx.map (scene.groupRow target)).map List.length =
      cell.groups.map Group.planeCount := by
  have hcount : cell.groups.length = solutions.length := by
    have hlengths := congrArg List.length hplanes
    rw [List.length_map, List.length_map] at hlengths
    exact hlengths.symm
  rw [← hplanes, List.map_map]
  refine List.ext_getElem (by simp [hcount]) fun place _ _ ↦ ?_
  simp [length_groupRow]

omit [Scalar α] in
theorem length_groupRows :
    ((cell.groups.zip solutions).zipIdx.map (scene.groupRow target)).flatten.length =
      cell.planeCount := by
  rw [List.length_flatten, lengths_groupRows hplanes, List.sum_eq_foldr, Cell.planeCount]

/-- The row of a group stands where its plane numbers start. -/
theorem getElem?_posedShapes_of_numbers (hnumbers : cell.Numbers index start group number)
    (hsolution : solutions[index]? = some solution)
    (hlength : solution.planes.length = group.planeCount) :
    (scene.posedShapes cell settings target solutions)[number]? =
      (scene.groupRow target ((group, solution), index))[number - start]? := by
  have hpair : (cell.groups.zip solutions)[index]? = some (group, solution) :=
    List.getElem?_zip_eq_some.mpr ⟨hnumbers.isGroup, hsolution⟩
  have hrow : ((cell.groups.zip solutions).zipIdx.map (scene.groupRow target))[index]? =
      some (scene.groupRow target ((group, solution), index)) := by
    rw [List.getElem?_map, List.getElem?_zipIdx, hpair, Option.map_some, Option.map_some,
      Nat.zero_add]
  obtain ⟨offset, hoffset, htaken⟩ := Cell.exists_offset 0 hrow
  rw [lengths_groupRows hplanes, Nat.zero_add] at hoffset
  obtain rfl : start = offset := Option.some.inj (hnumbers.isStart.symm.trans hoffset)
  have hlt : number - start < (scene.groupRow target ((group, solution), index)).length := by
    rw [length_groupRow, hlength]
    exact hnumbers.sub_lt
  have hentry := congrArg (·[number - start]?) htaken
  simp only [List.getElem?_take, if_pos hlt, List.getElem?_drop,
    Nat.add_sub_cancel' hnumbers.le] at hentry
  have hinside : number < ((cell.groups.zip solutions).zipIdx.map
      (scene.groupRow target)).flatten.length := by
    by_contra hout
    rw [List.getElem?_eq_none (Nat.le_of_not_lt hout), List.getElem?_eq_getElem hlt] at hentry
    cases hentry
  rw [posedShapes_eq, List.getElem?_append_left hinside, hentry]

theorem getElem?_posedShapes_planeCount :
    (scene.posedShapes cell settings target solutions)[cell.planeCount]? =
      some (environmentShape settings (solutions.flatMap Solution.planes)) := by
  rw [posedShapes_eq, ← length_groupRows hplanes, List.getElem?_concat_length]

theorem getElem?_posedShapes_of_lt (hlt : cell.planeCount < number) :
    (scene.posedShapes cell settings target solutions)[number]? = none := by
  refine List.getElem?_eq_none ?_
  rw [posedShapes_eq, List.length_append, length_groupRows hplanes]
  exact hlt

/-- The table holds at every number what the number denotes. -/
theorem getElem?_posedShapes_iff {posed : Pose α × σ} :
    (scene.posedShapes cell settings target solutions)[number]?.join = some posed ↔
      scene.Denotes cell settings target solutions number posed := by
  rcases Nat.lt_trichotomy number cell.planeCount with hplane | rfl | hbeyond
  · obtain ⟨index, start, group, hnumbers⟩ := cell.exists_numbers hplane
    obtain ⟨solution, hsolution, hlength⟩ := hplanes.exists_solution hnumbers.isGroup
    rw [getElem?_posedShapes_of_numbers hplanes hnumbers hsolution hlength,
      getElem?_groupRow_iff hnumbers hsolution hlength]
  · rw [getElem?_posedShapes_planeCount hplanes, Option.join_some, environmentShape]
    constructor
    · intro h
      obtain ⟨shape, hshape, rfl⟩ := Option.map_eq_some_iff.mp h
      exact .environment rfl hshape
    · intro h
      cases h with
      | plane hnumbers => exact absurd hnumbers.lt_planeCount (Nat.lt_irrefl _)
      | tool hnumbers => exact absurd hnumbers.lt_planeCount (Nat.lt_irrefl _)
      | environment _ hshape => rw [hshape, Option.map_some]
  · rw [getElem?_posedShapes_of_lt hplanes hbeyond]
    constructor
    · intro h
      cases h
    · intro h
      exact absurd h.le_planeCount (Nat.not_le.mpr hbeyond)

end Table

end Scene

/-! ### The first pair that touches -/

namespace CollisionCheck

variable [Scalar α]

/-- Two numbers denote different shapes that touch. -/
def Touch (check : CollisionCheck α σ) (target : Step α) (solutions : List (Solution α))
    (a b : Nat) : Prop :=
  a ≠ b ∧ ∃ x y, check.scene.Denotes check.cell check.settings target solutions a x ∧
    check.scene.Denotes check.cell check.settings target solutions b y ∧
      check.contact x.1 x.2 y.1 y.2 = true

/-- The numbers at two places of the settings denote shapes that touch, and no numbers at earlier
places do. -/
structure FirstTouch (check : CollisionCheck α σ) (target : Step α) (solutions : List (Solution α))
    (places numbers : Nat × Nat) : Prop where
  first : check.settings.first[places.1]? = some numbers.1
  second : check.settings.second[places.2]? = some numbers.2
  touch : check.Touch target solutions numbers.1 numbers.2
  earlier (before other : Nat × Nat)
    (hbefore : Prod.Lex (· < ·) (· < ·) before places)
    (hfirst : check.settings.first[before.1]? = some other.1)
    (hsecond : check.settings.second[before.2]? = some other.2) :
    ¬ check.Touch target solutions other.1 other.2

variable {check : CollisionCheck α σ} {target : Step α} {solutions : List (Solution α)}

theorem collides_iff (hplanes : check.cell.HasPlanes solutions) (pair : Nat × Nat) :
    check.collides (check.scene.posedShapes check.cell check.settings target solutions) pair =
      true ↔ check.Touch target solutions pair.1 pair.2 := by
  have hdenotes : ∀ {number : Nat} {posed : Pose α × σ},
      (check.scene.posedShapes check.cell check.settings target solutions)[number]?.join =
          some posed ↔
        check.scene.Denotes check.cell check.settings target solutions number posed :=
    Scene.getElem?_posedShapes_iff hplanes
  rw [collides, Touch]
  simp only [← hdenotes]
  cases hfirst : (check.scene.posedShapes check.cell check.settings target
      solutions)[pair.1]?.join with
  | none => simp
  | some x =>
    cases hsecond : (check.scene.posedShapes check.cell check.settings target
        solutions)[pair.2]?.join with
    | none => simp
    | some y => simp

/-- Nothing is reported exactly if no two numbers of the settings denote shapes that touch. -/
theorem collision?_eq_none_iff (hplanes : check.cell.HasPlanes solutions) :
    check.collision? target solutions = none ↔
      ∀ a ∈ check.settings.first, ∀ b ∈ check.settings.second,
        ¬ check.Touch target solutions a b := by
  rw [collision?, Option.map_eq_none_iff, List.find?_eq_none]
  simp only [collides_iff hplanes, CollisionSettings.pairs, List.mem_flatMap, List.mem_map]
  constructor
  · intro h a ha b hb
    exact h (a, b) ⟨a, ha, b, hb, rfl⟩
  · rintro h pair ⟨a, ha, b, hb, rfl⟩
    exact h a ha b hb

omit [Scalar α] in
/-- The search of the pairs ends with the first one in the order of the settings. -/
theorem exists_places_of_find? {settings : CollisionSettings α σ} {p : Nat × Nat → Bool}
    {numbers : Nat × Nat} (h : settings.pairs.find? p = some numbers) :
    ∃ places : Nat × Nat, settings.first[places.1]? = some numbers.1 ∧
      settings.second[places.2]? = some numbers.2 ∧
      ∀ before other : Nat × Nat, Prod.Lex (· < ·) (· < ·) before places →
        settings.first[before.1]? = some other.1 → settings.second[before.2]? = some other.2 →
          p other = false := by
  rw [CollisionSettings.pairs, List.find?_flatMap, List.findSome?_eq_some_iff] at h
  obtain ⟨passed, a, left, hfirst, hrow, hpassed⟩ := h
  rw [List.find?_map, Option.map_eq_some_iff] at hrow
  obtain ⟨b, hfind, rfl⟩ := hrow
  obtain ⟨-, skipped, later, hsecond, hskipped⟩ := List.find?_eq_some_iff_append.mp hfind
  refine ⟨(passed.length, skipped.length), ?_, ?_, ?_⟩
  · rw [hfirst, List.getElem?_append_right le_rfl, Nat.sub_self, List.getElem?_cons_zero]
  · rw [hsecond, List.getElem?_append_right le_rfl, Nat.sub_self, List.getElem?_cons_zero]
  · intro before other hbefore hother hlater
    rcases Prod.lex_def.mp hbefore with hrow | ⟨hsame, hplace⟩
    · -- No pair of an earlier row is found.
      have hmem : other.1 ∈ passed := by
        rw [hfirst, List.getElem?_append_left hrow] at hother
        exact List.mem_of_getElem? hother
      have hnone := List.find?_eq_none.mp (hpassed other.1 hmem) other
        (List.mem_map.mpr ⟨other.2, List.mem_of_getElem? hlater, rfl⟩)
      simpa using hnone
    · have hrow : other.1 = a := by
        rw [hfirst, hsame, List.getElem?_append_right le_rfl, Nat.sub_self,
          List.getElem?_cons_zero] at hother
        exact (Option.some.inj hother).symm
      have hmem : other.2 ∈ skipped := by
        rw [hsecond, List.getElem?_append_left hplace] at hlater
        exact List.mem_of_getElem? hlater
      have hnone := hskipped other.2 hmem
      rw [← hrow] at hnone
      simpa using hnone

/-- There is only one first pair. -/
theorem FirstTouch.eq {places other numbers found : Nat × Nat}
    (h : check.FirstTouch target solutions places numbers)
    (hother : check.FirstTouch target solutions other found) : found = numbers := by
  have hbefore : ∀ {early late held later : Nat × Nat},
      check.FirstTouch target solutions early held →
      check.FirstTouch target solutions late later →
        ¬ Prod.Lex (· < ·) (· < ·) early late := fun hearly hlate hlex ↦
    hlate.earlier _ _ hlex hearly.first hearly.second hearly.touch
  have hnot := hbefore h hother
  have hnotOther := hbefore hother h
  rw [Prod.lex_def] at hnot hnotOther
  have hplaces : other = places := Prod.ext (by omega) (by omega)
  subst hplaces
  exact Prod.ext (Option.some.inj (hother.first.symm.trans h.first))
    (Option.some.inj (hother.second.symm.trans h.second))

theorem exists_firstTouch (hplanes : check.cell.HasPlanes solutions) {collision : Collision α}
    (h : check.collision? target solutions = some collision) :
    ∃ places numbers, check.FirstTouch target solutions places numbers ∧
      collision =
        ⟨target.index, (min numbers.1 numbers.2, max numbers.1 numbers.2), solutions⟩ := by
  rw [collision?, Option.map_eq_some_iff] at h
  obtain ⟨numbers, hfind, rfl⟩ := h
  obtain ⟨places, hfirst, hsecond, hearlier⟩ := exists_places_of_find? hfind
  refine ⟨places, numbers,
    ⟨hfirst, hsecond, (collides_iff hplanes numbers).mp (List.find?_some hfind), ?_⟩, rfl⟩
  intro before other hbefore hbeforeFirst hbeforeSecond htouch
  have hcollides := (collides_iff hplanes other).mpr htouch
  rw [hearlier before other hbefore hbeforeFirst hbeforeSecond] at hcollides
  cases hcollides

/-- Every plane number belongs to one group, and the shapes of a state are those that the numbers
denote. Nothing is reported exactly if no two numbers of the settings denote shapes that touch;
otherwise the pair that comes first in the settings is reported, the smaller number first. -/
theorem collision?_firstTouch (hplanes : check.cell.HasPlanes solutions) :
    (∀ number < check.cell.planeCount,
      ∃! index, ∃ start group, check.cell.Numbers index start group number) ∧
    (∀ number posed, check.scene.Denotes check.cell check.settings target solutions number posed ↔
      (check.scene.posedShapes check.cell check.settings target solutions)[number]?.join =
        some posed) ∧
    (check.collision? target solutions = none ↔
      ∀ a ∈ check.settings.first, ∀ b ∈ check.settings.second,
        ¬ check.Touch target solutions a b) ∧
    ∀ collision, check.collision? target solutions = some collision ↔
      ∃ places numbers, check.FirstTouch target solutions places numbers ∧ collision =
        ⟨target.index, (min numbers.1 numbers.2, max numbers.1 numbers.2), solutions⟩ := by
  refine ⟨fun _ ↦ check.cell.existsUnique_numbers,
    fun _ _ ↦ (Scene.getElem?_posedShapes_iff hplanes).symm, collision?_eq_none_iff hplanes,
    fun collision ↦ ⟨exists_firstTouch hplanes, ?_⟩⟩
  rintro ⟨places, numbers, hfirst, rfl⟩
  cases hreported : check.collision? target solutions with
  | none =>
    exact absurd hfirst.touch ((collision?_eq_none_iff hplanes).mp hreported _
      (List.mem_of_getElem? hfirst.first) _ (List.mem_of_getElem? hfirst.second))
  | some reported =>
    obtain ⟨_, found, hfound, rfl⟩ := exists_firstTouch hplanes hreported
    rw [hfirst.eq hfound]

end CollisionCheck

/-! ### A tool that touches a link -/

/-- A link of the first arm and the tool of every arm. -/
def linkAndTools : Scene Unit :=
  ⟨[[none, none, none, some ()]], [("DefaultTool", ())]⟩

/-- A number past the last shape and the tool of the second arm, against that tool, the link of the
first arm and the environment. -/
noncomputable def toolAgainstLink : CollisionSettings ℝ Unit :=
  { (.ofSets [30, 20] [20, 3, 21] : CollisionSettings ℝ Unit) with environment := some () }

/-- The link is found before the environment, and it has the smaller number. -/
theorem CollisionCheck.collision?_firstTouch_workshop :
    ∃ solutions, workshop.solve workshopTargets (some [[0], []]) = .ok solutions ∧
      workshop.HasPlanes solutions ∧
      collision? ⟨workshop, linkAndTools, toolAgainstLink, fun _ _ _ _ ↦ true⟩
        (.ofTargets 7 workshopTargets) solutions = some ⟨7, (3, 20), solutions⟩ := by
  obtain ⟨solutions, hsolve⟩ := exists_solve_workshop (some [[0], []])
  have hplanes : workshop.HasPlanes solutions := by
    have hcounts := Cell.map_planeCount_of_solve built_workshop
      (fun _ _ _ _ _ _ ↦ Exact.isFinite_eq_true _) hsolve
    rw [List.map_map] at hcounts
    exact hcounts.symm
  refine ⟨solutions, hsolve, hplanes, ?_⟩
  refine ((collision?_firstTouch hplanes).2.2.2 _).mpr ⟨(1, 1), (20, 3), ?_, rfl⟩
  have hlink : workshop.Numbers 0 0 workshop.groups[0] 3 := ⟨rfl, rfl, by decide, by decide⟩
  have htool : workshop.Numbers 1 12 ⟨.iiwa7, []⟩ 20 := ⟨rfl, rfl, by decide, by decide⟩
  obtain ⟨first, hfirst, hlengthFirst⟩ := hplanes.exists_solution hlink.isGroup
  obtain ⟨second, hsecond, hlengthSecond⟩ := hplanes.exists_solution htool.isGroup
  have hplane : 3 < first.planes.length := by
    rw [hlengthFirst]
    decide
  have hflange : 7 < second.planes.length := by
    rw [hlengthSecond]
    decide
  refine ⟨rfl, rfl, ⟨by decide, (second.planes[7], ()), (first.planes[3], ()), ?_, ?_, rfl⟩, ?_⟩
  · exact .tool htool rfl hsecond (List.getElem?_eq_getElem hflange) rfl
  · exact .plane hlink hfirst (List.getElem?_eq_getElem hplane) rfl rfl
      fun hlast ↦ absurd hlast (by decide)
  · rintro ⟨row, column⟩ ⟨a, b⟩ hbefore hrow hcolumn ⟨hne, x, y, hx, hy, -⟩
    rcases Prod.lex_def.mp hbefore with hlt | ⟨rfl, hlt⟩
    · obtain rfl : row = 0 := Nat.lt_one_iff.mp hlt
      obtain rfl := Option.some.inj hrow
      exact absurd hx.le_planeCount (by decide : ¬ 30 ≤ workshop.planeCount)
    · obtain rfl : column = 0 := Nat.lt_one_iff.mp hlt
      obtain rfl := Option.some.inj hrow
      obtain rfl := Option.some.inj hcolumn
      exact hne rfl

end Toolpath
