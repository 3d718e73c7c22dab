import Mathlib.Data.List.Basic

/-!
Runs of computations that may fail. A sequence of steps succeeds when every step does, and a step
applied along a list succeeds when it does for every entry.
-/

set_option autoImplicit false
set_option relaxedAutoImplicit false

namespace Toolpath

variable {ε α β : Type}

@[simp] theorem ok_bind (a : α) (f : α → Except ε β) : Except.ok a >>= f = f a :=
  rfl

theorem bind_eq_ok_iff {x : Except ε α} {f : α → Except ε β} {b : β} :
    x >>= f = .ok b ↔ ∃ a, x = .ok a ∧ f a = .ok b := by
  cases x with
  | error e => simp [bind, Except.bind]
  | ok a => simp [bind, Except.bind]

theorem mapError_eq_ok_iff {δ : Type} {x : Except ε α} {rename : ε → δ} {a : α} :
    x.mapError rename = .ok a ↔ x = .ok a := by
  cases x <;> simp [Except.mapError]

theorem mapM_eq_ok_iff {f : α → Except ε β} {entries : List α} {results : List β} :
    entries.mapM f = .ok results ↔ entries.map f = results.map .ok := by
  induction entries generalizing results with
  | nil => cases results <;> simp [pure, Except.pure]
  | cons entry rest ih =>
    rw [List.mapM_cons, bind_eq_ok_iff]
    simp only [bind_eq_ok_iff, ih]
    cases results with
    | nil => simp [pure, Except.pure]
    | cons result tail => simp [pure, Except.pure, and_comm]

section MapM

variable {f : α → Except ε β} {entries : List α} {results : List β}

theorem length_of_mapM (h : entries.mapM f = .ok results) : results.length = entries.length := by
  simpa using congrArg List.length (mapM_eq_ok_iff.mp h).symm

theorem exists_result_of_mapM (h : entries.mapM f = .ok results) {entry : α}
    (hmem : entry ∈ entries) : ∃ result ∈ results, f entry = .ok result := by
  have himage := List.mem_map_of_mem (f := f) hmem
  rw [mapM_eq_ok_iff.mp h] at himage
  obtain ⟨result, hresult, heq⟩ := List.mem_map.mp himage
  exact ⟨result, hresult, heq.symm⟩

theorem exists_entry_of_mapM (h : entries.mapM f = .ok results) {result : β}
    (hmem : result ∈ results) : ∃ entry ∈ entries, f entry = .ok result := by
  have himage := List.mem_map_of_mem (f := (Except.ok : β → Except ε β)) hmem
  rw [← mapM_eq_ok_iff.mp h] at himage
  exact List.mem_map.mp himage

end MapM

theorem forM_eq_ok_iff {f : α → Except ε Unit} {entries : List α} :
    forM entries f = .ok () ↔ ∀ entry ∈ entries, f entry = .ok () := by
  induction entries with
  | nil => simp [pure, Except.pure]
  | cons entry rest ih =>
    rw [List.forM_cons, bind_eq_ok_iff, List.forall_mem_cons]
    constructor
    · rintro ⟨⟨⟩, hentry, hrest⟩
      exact ⟨hentry, ih.mp hrest⟩
    · rintro ⟨hentry, hrest⟩
      exact ⟨(), hentry, ih.mpr hrest⟩

/-- A check of changed entries that fails with renamed errors. -/
theorem forM_map_mapError {δ : Type} {check : α → Except ε Unit} {other : β → Except δ Unit}
    {change : α → β} {rename : ε → δ}
    (h : ∀ entry, other (change entry) = (check entry).mapError rename) (entries : List α) :
    forM (entries.map change) other = (forM entries check).mapError rename := by
  induction entries with
  | nil => rfl
  | cons entry rest ih =>
    rw [List.map_cons, List.forM_cons, List.forM_cons, h, ih]
    cases check entry <;> rfl

theorem mapM_eq_some_iff {f : α → Option β} {entries : List α} {results : List β} :
    entries.mapM f = some results ↔ entries.map f = results.map some := by
  induction entries generalizing results with
  | nil => cases results <;> simp
  | cons entry rest ih =>
    rw [List.mapM_cons, List.map_cons]
    cases hentry : f entry with
    | none => cases results <;> simp
    | some result =>
      cases hrest : rest.mapM f with
      | none => cases results <;> simp [← ih, hrest]
      | some tail => cases results <;> simp [← ih, hrest]

/-- What is done to every result, it is done to the list of the results. -/
theorem mapM_map_result {γ : Type} (change : β → γ) (f : α → Option β) (entries : List α) :
    entries.mapM (fun entry ↦ (f entry).map change) = (entries.mapM f).map (List.map change) := by
  induction entries with
  | nil => rfl
  | cons entry rest ih =>
    rw [List.mapM_cons, List.mapM_cons, ih]
    cases f entry <;> cases rest.mapM f <;> rfl

theorem mapM_eq_none_iff {f : α → Option β} {entries : List α} :
    entries.mapM f = none ↔ ∃ entry ∈ entries, f entry = none := by
  induction entries with
  | nil => simp
  | cons entry rest ih =>
    rw [List.mapM_cons]
    cases hentry : f entry with
    | none => simp [hentry]
    | some result =>
      cases hrest : rest.mapM f with
      | none => simpa [hentry] using ih.mp hrest
      | some tail => simpa [hentry, hrest] using ih

theorem map_some_filterMap {f : α → Option β} {entries : List α}
    (h : ∀ entry ∈ entries, (f entry).isSome) : (entries.filterMap f).map some = entries.map f := by
  induction entries with
  | nil => rfl
  | cons entry rest ih =>
    rw [List.forall_mem_cons] at h
    obtain ⟨result, hresult⟩ := Option.isSome_iff_exists.mp h.1
    rw [List.filterMap_cons_some hresult, List.map_cons, List.map_cons, hresult, ih h.2]

end Toolpath
