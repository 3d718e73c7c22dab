import Toolpath.Attribute.Naming
import Mathlib.Data.List.Nodup
import Mathlib.Data.List.Perm.Subperm

/-!
Generated names. `numbered_injective` shows that one stem never gives the same name to two numbers,
however many digits they have. Hence a search through one candidate more than there are names to
avoid finds a free one (`exists_freeNumber`), and `exists_add` says what naming one more attribute
can do: it keeps the name of the author, or it takes a name that neither an attribute nor an author
has.

`Names` is what holds after a part of the listing, `names_add` that one more entry keeps it and
`names_ofListing` that a whole listing reaches it.
-/

set_option autoImplicit false
set_option relaxedAutoImplicit false

namespace Toolpath

/-! ### Free numbers -/

theorem Decimal.ofDigitChars_padded (width n : Nat) :
    Nat.ofDigitChars 10 (Decimal.padded width n).toList 0 = n := by
  rw [Decimal.padded, String.toList_ofList, Nat.ofDigitChars_append,
    Nat.ofDigitChars_replicate_zero, Nat.mul_zero, Nat.ofDigitChars_ten_toDigits]

theorem Decimal.padded_injective (width : Nat) : Function.Injective (Decimal.padded width) := by
  intro m n h
  rw [← Decimal.ofDigitChars_padded width m, h, Decimal.ofDigitChars_padded]

theorem numbered_injective (stem : String) : Function.Injective (numbered stem) := by
  intro m n h
  have hlists := congrArg String.toList h
  simp only [numbered, String.toList_append, List.append_cancel_left_eq] at hlists
  exact Decimal.padded_injective 3 (String.toList_injective hlists)

theorem numbered_ne_empty (stem : String) (number : Nat) : numbered stem number ≠ "" := by
  intro h
  have hlists := congrArg String.toList h
  simp only [numbered, Decimal.padded, String.toList_append, String.toList_ofList] at hlists
  simp at hlists

/-- The candidates are pairwise different, so that they cannot all be among fewer names. -/
theorem exists_freeNumber (stem : String) (start : Nat) (taken : List String) :
    ∃ number, freeNumber? stem start taken = some number ∧ numbered stem number ∉ taken := by
  cases hfound : freeNumber? stem start taken with
  | some number =>
    have hfree := List.find?_some hfound
    exact ⟨number, rfl, by simpa using hfree⟩
  | none =>
    have hall : ∀ number ∈ List.range' start (taken.length + 1), numbered stem number ∈ taken := by
      simpa [freeNumber?] using hfound
    have hnodup : ((List.range' start (taken.length + 1)).map (numbered stem)).Nodup :=
      List.Nodup.map (numbered_injective stem) List.nodup_range'
    have hsubset : (List.range' start (taken.length + 1)).map (numbered stem) ⊆ taken := by
      intro name hname
      obtain ⟨number, hnumber, rfl⟩ := List.mem_map.mp hname
      exact hall number hnumber
    have hlength := (hnodup.subperm hsubset).length_le
    rw [List.length_map, List.length_range'] at hlength
    exact absurd hlength (Nat.not_succ_le_self _)

/-! ### New labels -/

variable {α : Type}

theorem Command.label_mapLabels (change : Label → Label) (command : Command α) :
    (command.mapLabels change).label = change command.label := by
  cases command <;> rfl

namespace Attribute

theorem kind_relabel (change : Relabelling) (entry : Attribute α) :
    (entry.relabel change).kind = entry.kind := by
  cases entry <;> rfl

theorem label_relabel (change : Relabelling) (entry : Attribute α) :
    (entry.relabel change).label = change entry.kind entry.label := by
  cases entry with
  | command command => exact Command.label_mapLabels _ command
  | _ => rfl

end Attribute

namespace Naming

theorem key_relabelling (naming : Naming) (kind : AttributeKind) (label : Label) :
    (naming.relabelling kind label).key = label.key := by
  unfold relabelling
  split <;> rfl

@[simp] theorem id_relabel (naming : Naming) (entry : Attribute α) :
    (entry.relabel naming.relabelling).id = entry.id := by
  simp only [Attribute.id, Attribute.kind_relabel, Attribute.label_relabel, key_relabelling]

/-- The name of an attribute under a naming. -/
def nameOf (naming : Naming) (entry : Attribute α) : String :=
  (naming.given.lookup entry.id).getD entry.name

theorem name_relabel (naming : Naming) (entry : Attribute α) :
    (entry.relabel naming.relabelling).name = naming.nameOf entry := by
  rw [Attribute.name, Attribute.label_relabel, relabelling, nameOf, Attribute.id]
  cases naming.given.lookup (entry.kind, entry.label.key) <;> rfl

theorem nameOf_eq_name (naming : Naming) (entry : Attribute α)
    (h : ∀ pair ∈ naming.given, pair.1 ≠ entry.id) : naming.nameOf entry = entry.name := by
  have hnone : naming.given.lookup entry.id = none :=
    List.lookup_eq_none_iff.mpr fun pair hpair ↦ by simpa using (h pair hpair).symm
  rw [nameOf, hnone, Option.getD_none]

/-! ### Naming one more attribute -/

/-- The entry takes a name that is not in use: its own one, or one that no author gave. -/
theorem exists_add (authored : List String) (naming : Naming) (entry : Attribute α) :
    ∃ name, name ≠ "" ∧ name ∉ naming.used ∧
      (naming.add authored entry).used = name :: naming.used ∧
      (name = entry.name ∧ (naming.add authored entry).given = naming.given ∨
        name ∉ authored ∧ (entry.name = "" ∨ entry.name ∈ naming.used) ∧
          (naming.add authored entry).given = (entry.id, name) :: naming.given) := by
  by_cases hempty : entry.name = ""
  · obtain ⟨number, hnumber, hfree⟩ := exists_freeNumber entry.typeName
      (naming.counter entry.typeName) (naming.used ++ authored)
    rw [List.mem_append, not_or] at hfree
    refine ⟨numbered entry.typeName number, numbered_ne_empty _ _, hfree.1, ?_,
      Or.inr ⟨hfree.2, Or.inl hempty, ?_⟩⟩ <;> simp [add, hempty, hnumber]
  · by_cases hused : entry.name ∈ naming.used
    · obtain ⟨number, hnumber, hfree⟩ := exists_freeNumber entry.name 0 (naming.used ++ authored)
      rw [List.mem_append, not_or] at hfree
      refine ⟨numbered entry.name number, numbered_ne_empty _ _, hfree.1, ?_,
        Or.inr ⟨hfree.2, Or.inr hused, ?_⟩⟩ <;> simp [add, hempty, hused, hnumber]
    · refine ⟨entry.name, hempty, hused, ?_, Or.inl ⟨rfl, ?_⟩⟩ <;> simp [add, hempty, hused]

/-- A later entry does not change the names of the entries before it. -/
theorem nameOf_add_of_ne (authored : List String) (naming : Naming) {entry other : Attribute α}
    (hid : other.id ≠ entry.id) : (naming.add authored entry).nameOf other = naming.nameOf other := by
  obtain ⟨name, _, _, _, ⟨_, hgiven⟩ | ⟨_, _, hgiven⟩⟩ := exists_add authored naming entry
  · rw [nameOf, nameOf, hgiven]
  · have hbeq : (other.id == entry.id) = false := beq_false_of_ne hid
    rw [nameOf, nameOf, hgiven, List.lookup_cons, hbeq]

/-- What holds after naming the entries of `done`, whose authors gave names among `authored`. -/
structure Names (authored : List String) (done : List (Attribute α)) (naming : Naming) : Prop where
  used_eq : naming.used = (done.map naming.nameOf).reverse
  nodup_used : naming.used.Nodup
  ne_empty : ∀ name ∈ naming.used, name ≠ ""
  given_mem : ∀ pair ∈ naming.given, pair.1 ∈ done.map Attribute.id
  /-- A name of an author is in use only where an entry has brought it. -/
  authored_used : ∀ name ∈ naming.used, name ∈ authored → name ∈ done.map Attribute.name
  first_keeps : ∀ before entry after, done = before ++ entry :: after → entry.name ≠ "" →
    (∀ other ∈ before, other.name ≠ entry.name) → naming.nameOf entry = entry.name

theorem names_start (authored : List String) : Names authored ([] : List (Attribute α)) start where
  used_eq := rfl
  nodup_used := List.nodup_nil
  ne_empty := by simp [start]
  given_mem := by simp [start]
  authored_used := by simp [start]
  first_keeps := by simp

theorem names_add {authored : List String} {done : List (Attribute α)} {naming : Naming}
    (hnames : Names authored done naming) (entry : Attribute α)
    (hid : entry.id ∉ done.map Attribute.id)
    (hauthored : entry.name ≠ "" → entry.name ∈ authored) :
    Names authored (done ++ [entry]) (naming.add authored entry) := by
  have hnew : ∀ pair ∈ naming.given, pair.1 ≠ entry.id :=
    fun pair hpair heq ↦ hid (heq ▸ hnames.given_mem pair hpair)
  have hdone : ∀ other ∈ done, (naming.add authored entry).nameOf other = naming.nameOf other :=
    fun other hmem ↦ nameOf_add_of_ne authored naming fun heq ↦ hid (heq ▸ List.mem_map_of_mem hmem)
  obtain ⟨name, hempty, hfree, hused, hgiven⟩ := exists_add authored naming entry
  have hname : (naming.add authored entry).nameOf entry = name := by
    rcases hgiven with ⟨rfl, hgiven⟩ | ⟨_, _, hgiven⟩
    · exact nameOf_eq_name _ entry (hgiven ▸ hnew)
    · rw [nameOf, hgiven, List.lookup_cons_self, Option.getD_some]
  constructor
  · rw [hused, List.map_append, List.map_congr_left hdone, List.reverse_append, ← hnames.used_eq,
      List.map_singleton, hname]
    rfl
  · rw [hused]
    exact List.nodup_cons.mpr ⟨hfree, hnames.nodup_used⟩
  · rw [hused]
    exact List.forall_mem_cons.mpr ⟨hempty, hnames.ne_empty⟩
  · intro pair hpair
    rw [List.map_append, List.mem_append]
    rcases hgiven with ⟨_, hgiven⟩ | ⟨_, _, hgiven⟩
    · exact Or.inl (hnames.given_mem pair (hgiven ▸ hpair))
    · rcases List.mem_cons.mp (hgiven ▸ hpair) with rfl | hpair
      · exact Or.inr (List.mem_singleton.mpr rfl)
      · exact Or.inl (hnames.given_mem pair hpair)
  · intro other hother hgave
    rw [List.map_append, List.mem_append]
    rcases List.mem_cons.mp (hused ▸ hother) with rfl | hother
    · rcases hgiven with ⟨hown, _⟩ | ⟨hfresh, _, _⟩
      · exact Or.inr (List.mem_singleton.mpr hown)
      · exact absurd hgave hfresh
    · exact Or.inl (hnames.authored_used other hother hgave)
  · intro before first after hsplit hnonempty hbefore
    rcases List.eq_nil_or_concat after with rfl | ⟨tail, last, rfl⟩
    · -- The first entry of its name is the new one, and no name in use is its own.
      obtain ⟨rfl, rfl⟩ : done = before ∧ entry = first := by
        simpa using List.append_inj' hsplit rfl
      rcases hgiven with ⟨hown, _⟩ | ⟨_, hreason, _⟩
      · rw [hname, hown]
      · have hmem := hnames.authored_used entry.name (hreason.resolve_left hnonempty)
          (hauthored hnonempty)
        obtain ⟨other, hother, heq⟩ := List.mem_map.mp hmem
        exact absurd heq (hbefore other hother)
    · have hsplit : done ++ [entry] = (before ++ first :: tail) ++ [last] := by
        simpa using hsplit
      have hdoneSplit : done = before ++ first :: tail := (List.append_inj' hsplit rfl).1
      rw [hdone first (hdoneSplit ▸ by simp)]
      exact hnames.first_keeps before first tail hdoneSplit hnonempty hbefore

theorem names_foldl {authored : List String} (rest : List (Attribute α)) :
    ∀ (done : List (Attribute α)) (naming : Naming), Names authored done naming →
      ((done ++ rest).map Attribute.id).Nodup →
      (∀ entry ∈ rest, entry.name ≠ "" → entry.name ∈ authored) →
        Names authored (done ++ rest) (rest.foldl (add authored) naming) := by
  induction rest with
  | nil => intro done naming hnames _ _; simpa using hnames
  | cons entry rest ih =>
    intro done naming hnames hnodup hauthored
    have hid : entry.id ∉ done.map Attribute.id := by
      rw [List.map_append, List.map_cons] at hnodup
      exact fun hmem ↦ (List.nodup_append.mp hnodup).2.2 _ hmem _ List.mem_cons_self rfl
    have hstep := names_add hnames entry hid (hauthored entry List.mem_cons_self)
    rw [List.foldl_cons, List.append_cons]
    rw [List.append_cons] at hnodup
    exact ih _ _ hstep hnodup fun other hother ↦ hauthored other (List.mem_cons_of_mem _ hother)

theorem names_ofListing {listing : List (Attribute α)} (hnodup : (listing.map Attribute.id).Nodup) :
    Names (authoredNames listing) listing (ofListing listing) := by
  refine names_foldl listing [] start (names_start _) hnodup fun entry hentry hnonempty ↦ ?_
  rw [authoredNames, List.mem_filter]
  exact ⟨List.mem_map_of_mem hentry, by simpa using hnonempty⟩

/-- No two names of a listing are equal. -/
theorem Names.nodup {authored : List String} {done : List (Attribute α)} {naming : Naming}
    (hnames : Names authored done naming) : (done.map naming.nameOf).Nodup :=
  List.nodup_reverse.mp (hnames.used_eq ▸ hnames.nodup_used)

end Naming

end Toolpath
