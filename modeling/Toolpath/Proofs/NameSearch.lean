import Mathlib.Data.Finset.Card
import Mathlib.Data.Finset.Lattice.Lemmas
import Mathlib.Data.Prod.Lex
import Toolpath.Attribute.Search
import Toolpath.Proofs.Naming

/-!
The search for names ends. `NameSearch.Step` lists what one candidate can do. A taken candidate
leaves fewer names ahead of the search (`NameSearch.ahead`), and a free one leaves fewer attributes
without a name, so the search ends wherever it starts (`NameSearch.exists_run_pending_eq_nil`).

`NameSearch.Along` compares the search with the naming of the attributes that are through: only the
counter of the attribute under way is ahead of it. The search of a listing therefore ends with the
names of `Naming.ofListing`.
-/

set_option autoImplicit false
set_option relaxedAutoImplicit false

namespace Toolpath

variable {α : Type}

/-! ### Counters -/

namespace Naming

theorem counter_cons (naming : Naming) (typeName : String) (number : Nat) (other : String) :
    counter { naming with counters := (typeName, number) :: naming.counters } other =
      if other = typeName then number else naming.counter other := by
  rw [counter, List.lookup_cons]
  by_cases hsame : other = typeName
  · simp [hsame]
  · rw [if_neg hsame, beq_false_of_ne hsame]
    rfl

theorem counter_count (naming : Naming) (typeName other : String) :
    (naming.count typeName).counter other =
      if other = typeName then naming.counter typeName + 1 else naming.counter other :=
  naming.counter_cons typeName _ other

/-- Two namings that differ in the order of their counters at most. -/
structure Agrees (naming other : Naming) : Prop where
  used_eq : naming.used = other.used
  counter_eq (typeName : String) : naming.counter typeName = other.counter typeName
  given_eq : naming.given = other.given
  renamings_eq : naming.renamings = other.renamings

section Add

variable {authored : List String} {naming : Naming} {entry : Attribute α} {number : Nat}

theorem add_of_name_eq_empty (hname : entry.name = "")
    (hnumber : freeNumber? entry.typeName (naming.counter entry.typeName)
      (naming.used ++ authored) = some number) :
    naming.add authored entry = give
      { naming with counters := (entry.typeName, number + 1) :: naming.counters } entry.id
      (numbered entry.typeName number) := by
  simp [add, give, hname, hnumber]

theorem add_of_name_mem_used (hname : entry.name ≠ "") (hused : entry.name ∈ naming.used)
    (hnumber : freeNumber? entry.name 0 (naming.used ++ authored) = some number) :
    naming.add authored entry = { naming.give entry.id (numbered entry.name number) with
      renamings := ⟨entry.typeName, entry.name, numbered entry.name number⟩ ::
        naming.renamings } := by
  simp [add, give, hname, hused, hnumber]

theorem add_of_name_not_mem_used (hname : entry.name ≠ "") (hunused : entry.name ∉ naming.used) :
    naming.add authored entry = { naming with used := entry.name :: naming.used } := by
  simp [add, hname, hunused]

end Add

end Naming

/-- The first free number is found. -/
theorem freeNumber?_eq_some {stem : String} {first number : Nat} {taken : List String}
    (hle : first ≤ number)
    (htaken : ∀ earlier, first ≤ earlier → earlier < number → numbered stem earlier ∈ taken)
    (hfree : numbered stem number ∉ taken) : freeNumber? stem first taken = some number := by
  obtain ⟨found, hfound, hfoundFree⟩ := exists_freeNumber stem first taken
  have hbefore := List.find?_range'_eq_some.mp hfound
  have hge : number ≤ found := by
    by_contra hlt
    exact hfoundFree (htaken found (List.mem_range'_1.mp hbefore.2.1).1 (Nat.lt_of_not_le hlt))
  have hle : found ≤ number := by
    by_contra hlt
    have htakenNumber := hbefore.2.2 number hle (Nat.lt_of_not_le hlt)
    exact hfree (by simpa using htakenNumber)
  rw [hfound, le_antisymm hle hge]

namespace NameSearch

open Naming

/-! ### One candidate -/

/-- What a step of the search can do. -/
inductive Step (authored : List String) : NameSearch α → NameSearch α → Prop where
  /-- The next name of the type is taken. -/
  | refuse {entry : Attribute α} {rest : List (Attribute α)} {naming : Naming} {suffix : Nat}
      {offered : List (String × String)} (hname : entry.name = "")
      (htaken : numbered entry.typeName (naming.counter entry.typeName) ∈ naming.used ++ authored) :
      Step authored ⟨entry :: rest, naming, suffix, offered⟩
        ⟨entry :: rest, naming.count entry.typeName, suffix,
          (entry.typeName, numbered entry.typeName (naming.counter entry.typeName)) :: offered⟩
  /-- The attribute gets the next name of its type. -/
  | name {entry : Attribute α} {rest : List (Attribute α)} {naming : Naming} {suffix : Nat}
      {offered : List (String × String)} (hname : entry.name = "")
      (hfree : numbered entry.typeName (naming.counter entry.typeName) ∉ naming.used ++ authored) :
      Step authored ⟨entry :: rest, naming, suffix, offered⟩
        ⟨rest, (naming.count entry.typeName).give entry.id
            (numbered entry.typeName (naming.counter entry.typeName)), 0,
          (entry.typeName, numbered entry.typeName (naming.counter entry.typeName)) :: offered⟩
  /-- The next number behind the name is taken. -/
  | skip {entry : Attribute α} {rest : List (Attribute α)} {naming : Naming} {suffix : Nat}
      {offered : List (String × String)} (hname : entry.name ≠ "")
      (hused : entry.name ∈ naming.used)
      (htaken : numbered entry.name suffix ∈ naming.used ++ authored) :
      Step authored ⟨entry :: rest, naming, suffix, offered⟩
        ⟨entry :: rest, naming, suffix + 1, offered⟩
  /-- The attribute gets a number behind its name. -/
  | rename {entry : Attribute α} {rest : List (Attribute α)} {naming : Naming} {suffix : Nat}
      {offered : List (String × String)} (hname : entry.name ≠ "")
      (hused : entry.name ∈ naming.used)
      (hfree : numbered entry.name suffix ∉ naming.used ++ authored) :
      Step authored ⟨entry :: rest, naming, suffix, offered⟩
        ⟨rest, { naming.give entry.id (numbered entry.name suffix) with
          renamings := ⟨entry.typeName, entry.name, numbered entry.name suffix⟩ ::
            naming.renamings }, 0, offered⟩
  /-- The attribute keeps its name. -/
  | keep {entry : Attribute α} {rest : List (Attribute α)} {naming : Naming} {suffix : Nat}
      {offered : List (String × String)} (hname : entry.name ≠ "")
      (hunused : entry.name ∉ naming.used) :
      Step authored ⟨entry :: rest, naming, suffix, offered⟩
        ⟨rest, { naming with used := entry.name :: naming.used }, 0, offered⟩

variable {authored : List String} {search next : NameSearch α}

theorem step_of_step? (h : search.step? authored = some next) : Step authored search next := by
  rcases search with ⟨_ | ⟨entry, rest⟩, naming, suffix, offered⟩
  · cases h
  simp only [step?, taken, String.isEmpty_iff, List.contains_iff_mem] at h
  split_ifs at h with hname htaken hused htaken
  · rw [← Option.some.inj h]
    exact .refuse hname htaken
  · rw [← Option.some.inj h]
    exact .name hname htaken
  · rw [← Option.some.inj h]
    exact .skip hname hused htaken
  · rw [← Option.some.inj h]
    exact .rename hname hused htaken
  · rw [← Option.some.inj h]
    exact .keep hname hused

theorem pending_eq_nil_of_step?_eq_none (h : search.step? authored = none) :
    search.pending = [] := by
  rcases search with ⟨_ | ⟨entry, rest⟩, naming, suffix, offered⟩
  · rfl
  simp only [step?] at h
  split_ifs at h

/-! ### The end of the search -/

open Classical in
/-- The taken names that stand from a number on behind a stem. -/
noncomputable def ahead (stem : String) (number : Nat) (taken : List String) : Finset String :=
  taken.toFinset.filter fun name ↦ ∃ later, number ≤ later ∧ numbered stem later = name

theorem mem_ahead {stem name : String} {number : Nat} {taken : List String} :
    name ∈ ahead stem number taken ↔
      name ∈ taken ∧ ∃ later, number ≤ later ∧ numbered stem later = name := by
  classical
  rw [ahead, Finset.mem_filter, List.mem_toFinset]

theorem card_ahead_succ_lt {stem : String} {number : Nat} {taken : List String}
    (h : numbered stem number ∈ taken) :
    (ahead stem (number + 1) taken).card < (ahead stem number taken).card := by
  refine Finset.card_lt_card ⟨fun name hname ↦ ?_, fun hsubset ↦ ?_⟩
  · obtain ⟨htaken, later, hlater, hname⟩ := mem_ahead.mp hname
    exact mem_ahead.mpr ⟨htaken, later, (Nat.le_succ number).trans hlater, hname⟩
  · have hhead := hsubset (mem_ahead.mpr ⟨h, number, le_rfl, rfl⟩)
    obtain ⟨_, later, hlater, hname⟩ := mem_ahead.mp hhead
    rw [numbered_injective stem hname] at hlater
    exact Nat.not_succ_le_self number hlater

/-- How many taken names the search for one attribute can come upon. -/
noncomputable def left (authored : List String) (search : NameSearch α) : Nat :=
  match search.pending with
  | [] => 0
  | entry :: _ =>
    if entry.name = "" then
      (ahead entry.typeName (search.naming.counter entry.typeName) (search.taken authored)).card
    else (ahead entry.name search.suffix (search.taken authored)).card

theorem Step.decreases (h : Step authored search next) :
    Prod.Lex (· < ·) (· < ·) (next.pending.length, next.left authored)
      (search.pending.length, search.left authored) := by
  cases h with
  | @refuse entry rest naming suffix offered hname htaken =>
    refine Prod.Lex.right _ ?_
    simp only [left, if_pos hname, counter_count]
    exact card_ahead_succ_lt htaken
  | skip hname hused htaken =>
    refine Prod.Lex.right _ ?_
    simp only [left, if_neg hname]
    exact card_ahead_succ_lt htaken
  | name hname hfree => exact Prod.Lex.left _ _ (Nat.lt_succ_self _)
  | rename hname hused hfree => exact Prod.Lex.left _ _ (Nat.lt_succ_self _)
  | keep hname hunused => exact Prod.Lex.left _ _ (Nat.lt_succ_self _)

theorem exists_run_pending_eq_nil (authored : List String) (search : NameSearch α) :
    ∃ count, (run authored count search).pending = [] := by
  cases hstep : search.step? authored with
  | none => exact ⟨0, pending_eq_nil_of_step?_eq_none hstep⟩
  | some next =>
    obtain ⟨count, hcount⟩ := exists_run_pending_eq_nil authored next
    refine ⟨count + 1, ?_⟩
    rw [run, hstep]
    exact hcount
termination_by (search.pending.length, search.left authored)
decreasing_by exact (step_of_step? hstep).decreases

/-! ### The names that are found -/

/-- The search has named `done` as `Naming.add` does, one attribute after another. Of the candidates
for the attribute under way all were taken. -/
structure Along (authored : List String) (done : List (Attribute α)) (search : NameSearch α) :
    Prop where
  used_eq : search.naming.used = (done.foldl (add authored) .start).used
  given_eq : search.naming.given = (done.foldl (add authored) .start).given
  renamings_eq : search.naming.renamings = (done.foldl (add authored) .start).renamings
  counter_le (typeName : String) :
    (done.foldl (add authored) .start).counter typeName ≤ search.naming.counter typeName
  refused (typeName : String) (number : Nat)
    (hle : (done.foldl (add authored) .start).counter typeName ≤ number)
    (hlt : number < search.naming.counter typeName) :
    numbered typeName number ∈ search.taken authored
  /-- No other counter has gone on. -/
  counter_eq (typeName : String)
    (h : ∀ entry ∈ search.pending.head?, entry.name = "" → typeName ≠ entry.typeName) :
    search.naming.counter typeName = (done.foldl (add authored) .start).counter typeName
  skipped (entry : Attribute α) (hentry : entry ∈ search.pending.head?) (number : Nat)
    (hlt : number < search.suffix) : numbered entry.name number ∈ search.taken authored

namespace Along

variable {done : List (Attribute α)}

theorem of_agrees (h : search.naming.Agrees (done.foldl (add authored) .start))
    (hsuffix : search.suffix = 0) : Along authored done search where
  used_eq := h.used_eq
  given_eq := h.given_eq
  renamings_eq := h.renamings_eq
  counter_le typeName := (h.counter_eq typeName).ge
  refused typeName number hle hlt := by
    rw [h.counter_eq] at hlt
    exact absurd hle (Nat.not_le_of_lt hlt)
  counter_eq typeName _ := h.counter_eq typeName
  skipped _ _ number hlt := by
    rw [hsuffix] at hlt
    exact absurd hlt (Nat.not_lt_zero number)

theorem refuse {entry : Attribute α} {rest : List (Attribute α)} {naming : Naming} {suffix : Nat}
    {offered more : List (String × String)}
    (h : Along authored done ⟨entry :: rest, naming, suffix, offered⟩) (hname : entry.name = "")
    (htaken : numbered entry.typeName (naming.counter entry.typeName) ∈ naming.used ++ authored) :
    Along authored done ⟨entry :: rest, naming.count entry.typeName, suffix, more⟩ where
  used_eq := h.used_eq
  given_eq := h.given_eq
  renamings_eq := h.renamings_eq
  counter_le typeName := by
    have hle := h.counter_le typeName
    simp only [counter_count]
    split_ifs with hsame
    · rw [hsame] at hle ⊢
      exact Nat.le_succ_of_le hle
    · exact hle
  refused typeName number hle hlt := by
    simp only [counter_count] at hlt
    split_ifs at hlt with hsame
    · rw [hsame] at hle ⊢
      rcases Nat.lt_succ_iff_lt_or_eq.mp hlt with hlt | rfl
      · exact h.refused _ number hle hlt
      · exact htaken
    · exact h.refused typeName number hle hlt
  counter_eq typeName hother := by
    have hne := hother entry rfl hname
    simp only [counter_count, if_neg hne]
    exact h.counter_eq typeName hother
  skipped := h.skipped

theorem skip {entry : Attribute α} {rest : List (Attribute α)} {naming : Naming} {suffix : Nat}
    {offered : List (String × String)}
    (h : Along authored done ⟨entry :: rest, naming, suffix, offered⟩)
    (htaken : numbered entry.name suffix ∈ naming.used ++ authored) :
    Along authored done ⟨entry :: rest, naming, suffix + 1, offered⟩ where
  used_eq := h.used_eq
  given_eq := h.given_eq
  renamings_eq := h.renamings_eq
  counter_le := h.counter_le
  refused := h.refused
  counter_eq := h.counter_eq
  skipped other hother number hlt := by
    rcases Nat.lt_succ_iff_lt_or_eq.mp hlt with hlt | rfl
    · exact h.skipped other hother number hlt
    · rw [← Option.some.inj hother]
      exact htaken

section Free

variable {entry : Attribute α} {rest : List (Attribute α)} {naming : Naming} {suffix : Nat}
  {offered : List (String × String)}
  (h : Along authored done ⟨entry :: rest, naming, suffix, offered⟩)

include h

theorem agrees_name (hname : entry.name = "")
    (hfree : numbered entry.typeName (naming.counter entry.typeName) ∉ naming.used ++ authored) :
    Agrees ((naming.count entry.typeName).give entry.id
        (numbered entry.typeName (naming.counter entry.typeName)))
      ((done ++ [entry]).foldl (add authored) .start) := by
  have hnumber : freeNumber? entry.typeName
      ((done.foldl (add authored) .start).counter entry.typeName)
      ((done.foldl (add authored) .start).used ++ authored) =
        some (naming.counter entry.typeName) := by
    rw [← h.used_eq]
    exact freeNumber?_eq_some (h.counter_le _) (h.refused _) hfree
  rw [List.foldl_append, List.foldl_cons, List.foldl_nil, add_of_name_eq_empty hname hnumber]
  exact
    { used_eq := congrArg (_ :: ·) h.used_eq
      counter_eq := fun typeName ↦ by
        refine (counter_count _ _ _).trans (Eq.trans ?_ (counter_cons _ _ _ _).symm)
        by_cases hsame : typeName = entry.typeName
        · rw [if_pos hsame, if_pos hsame]
        · rw [if_neg hsame, if_neg hsame]
          refine h.counter_eq typeName fun other hother _ ↦ ?_
          rwa [← Option.some.inj hother]
      given_eq := congrArg (_ :: ·) h.given_eq
      renamings_eq := h.renamings_eq }

/-- No counter has gone on while an attribute with a name is under way. -/
theorem counter_eq_of_name_ne_empty (hname : entry.name ≠ "") (typeName : String) :
    naming.counter typeName = (done.foldl (add authored) .start).counter typeName := by
  refine h.counter_eq typeName fun other hother hempty ↦ ?_
  rw [← Option.some.inj hother] at hempty
  exact absurd hempty hname

theorem agrees_rename (hname : entry.name ≠ "") (hused : entry.name ∈ naming.used)
    (hfree : numbered entry.name suffix ∉ naming.used ++ authored) :
    Agrees { naming.give entry.id (numbered entry.name suffix) with
        renamings := ⟨entry.typeName, entry.name, numbered entry.name suffix⟩ :: naming.renamings }
      ((done ++ [entry]).foldl (add authored) .start) := by
  have hnumber : freeNumber? entry.name 0 ((done.foldl (add authored) .start).used ++ authored) =
      some suffix := by
    rw [← h.used_eq]
    exact freeNumber?_eq_some (Nat.zero_le _) (fun number _ ↦ h.skipped entry rfl number) hfree
  rw [List.foldl_append, List.foldl_cons, List.foldl_nil,
    add_of_name_mem_used hname (h.used_eq ▸ hused) hnumber]
  exact
    { used_eq := congrArg (_ :: ·) h.used_eq
      counter_eq := h.counter_eq_of_name_ne_empty hname
      given_eq := congrArg (_ :: ·) h.given_eq
      renamings_eq := congrArg (_ :: ·) h.renamings_eq }

theorem agrees_keep (hname : entry.name ≠ "") (hunused : entry.name ∉ naming.used) :
    Agrees { naming with used := entry.name :: naming.used }
      ((done ++ [entry]).foldl (add authored) .start) := by
  rw [List.foldl_append, List.foldl_cons, List.foldl_nil,
    add_of_name_not_mem_used hname (h.used_eq ▸ hunused)]
  exact
    { used_eq := congrArg (_ :: ·) h.used_eq
      counter_eq := h.counter_eq_of_name_ne_empty hname
      given_eq := h.given_eq
      renamings_eq := h.renamings_eq }

end Free

/-- A step names the first pending attribute as `Naming.add` does, or it leaves all names as they
are. -/
theorem step (h : Along authored done search) (hstep : Step authored search next) :
    ∃ named, search.pending = named ++ next.pending ∧ Along authored (done ++ named) next := by
  cases hstep with
  | refuse hname htaken =>
    rw [← List.append_nil done] at h
    exact ⟨[], rfl, h.refuse hname htaken⟩
  | skip hname hused htaken =>
    rw [← List.append_nil done] at h
    exact ⟨[], rfl, h.skip htaken⟩
  | name hname hfree => exact ⟨[_], rfl, of_agrees (h.agrees_name hname hfree) rfl⟩
  | rename hname hused hfree => exact ⟨[_], rfl, of_agrees (h.agrees_rename hname hused hfree) rfl⟩
  | keep hname hunused => exact ⟨[_], rfl, of_agrees (h.agrees_keep hname hunused) rfl⟩

/-- The numbers that were skipped give different names, all of them taken. -/
theorem suffix_le (h : Along authored done search) {entry : Attribute α}
    (hentry : entry ∈ search.pending.head?) :
    search.suffix ≤ search.naming.used.toFinset.card + authored.toFinset.card := by
  have htaken : Set.MapsTo (numbered entry.name) (Finset.range search.suffix)
      ↑(search.naming.used.toFinset ∪ authored.toFinset) := fun number hnumber ↦ by
    have hmem := h.skipped entry hentry number (Finset.mem_range.mp hnumber)
    rw [taken, List.mem_append] at hmem
    simpa using hmem
  calc search.suffix
      = (Finset.range search.suffix).card := (Finset.card_range _).symm
    _ ≤ (search.naming.used.toFinset ∪ authored.toFinset).card :=
        Finset.card_le_card_of_injOn _ htaken (numbered_injective entry.name).injOn
    _ ≤ search.naming.used.toFinset.card + authored.toFinset.card := Finset.card_union_le _ _

end Along

/-! ### What every step keeps -/

/-- What holds from the start on and is kept by each step holds after any number of steps. -/
theorem run_induction {motive : NameSearch α → Prop}
    (hstep : ∀ {search next}, motive search → Step authored search next → motive next) :
    ∀ {search : NameSearch α} (count : Nat), motive search → motive (run authored count search)
  | _, 0, h => h
  | search, count + 1, h => by
    rw [run]
    cases hnext : search.step? authored with
    | none => exact h
    | some next => exact run_induction hstep count (hstep h (step_of_step? hnext))

theorem Step.ne_empty (h : Step authored search next)
    (hsearch : ∀ name ∈ search.naming.used, name ≠ "") : ∀ name ∈ next.naming.used, name ≠ "" := by
  cases h with
  | refuse hname htaken => exact hsearch
  | skip hname hused htaken => exact hsearch
  | name hname hfree => exact List.forall_mem_cons.mpr ⟨numbered_ne_empty _ _, hsearch⟩
  | rename hname hused hfree => exact List.forall_mem_cons.mpr ⟨numbered_ne_empty _ _, hsearch⟩
  | keep hname hunused => exact List.forall_mem_cons.mpr ⟨hname, hsearch⟩

/-- The names that a type was offered are the first ones that its counter gives. -/
def Counted (search : NameSearch α) : Prop :=
  ∀ typeName, search.offeredBy typeName =
    ((List.range (search.naming.counter typeName)).map (numbered typeName)).reverse

theorem Counted.offer {pending rest : List (Attribute α)} {naming counted : Naming}
    {suffix next : Nat} {offered : List (String × String)} {typeName : String}
    (h : Counted ⟨pending, naming, suffix, offered⟩)
    (hcounters : counted.counters = (naming.count typeName).counters) :
    Counted (⟨rest, counted, next,
      (typeName, numbered typeName (naming.counter typeName)) :: offered⟩ : NameSearch α) := by
  intro other
  have hcounter : counted.counter other =
      if other = typeName then naming.counter typeName + 1 else naming.counter other := by
    rw [← counter_count, counter, counter, hcounters]
  rw [hcounter]
  by_cases hsame : other = typeName
  · subst hsame
    rw [if_pos rfl, List.range_succ, List.map_append, List.reverse_append, ← h other]
    simp [offeredBy]
  · rw [if_neg hsame, ← h other]
    simp [offeredBy, beq_false_of_ne (Ne.symm hsame)]

theorem Counted.step (h : Counted search) (hstep : Step authored search next) : Counted next := by
  cases hstep with
  | refuse hname htaken => exact h.offer rfl
  | name hname hfree => exact h.offer rfl
  | skip hname hused htaken => exact h
  | rename hname hused hfree => exact h
  | keep hname hunused => exact h

/-! ### The search of a listing -/

theorem exists_along (listing : List (Attribute α)) (count : Nat) :
    ∃ done, listing = done ++ (after listing count).pending ∧
      Along (authoredNames listing) done (after listing count) := by
  refine run_induction (motive := fun search ↦ ∃ done, listing = done ++ search.pending ∧
    Along (authoredNames listing) done search) ?_ count
      ⟨[], rfl, .of_agrees ⟨rfl, fun _ ↦ rfl, rfl, rfl⟩ rfl⟩
  rintro search next ⟨done, hlisting, halong⟩ hstep
  obtain ⟨named, hpending, hnext⟩ := halong.step hstep
  rw [hpending, ← List.append_assoc] at hlisting
  exact ⟨done ++ named, hlisting, hnext⟩

theorem agrees_of_pending_eq_nil {listing : List (Attribute α)} {count : Nat}
    (h : (after listing count).pending = []) :
    (after listing count).naming.Agrees (ofListing listing) := by
  obtain ⟨done, hlisting, halong⟩ := exists_along listing count
  rw [h, List.append_nil] at hlisting
  rw [← hlisting] at halong
  exact ⟨halong.used_eq, fun typeName ↦ halong.counter_eq typeName (by simp [h]), halong.given_eq,
    halong.renamings_eq⟩

/-- What holds at any time of a search: no name is empty, no type has been offered a name twice, and
the numbers that were tried behind a name, the next one included, are at most one more than the names
in use and the names of authors together. -/
structure Sound (authored : List String) (search : NameSearch α) : Prop where
  ne_empty : ∀ name ∈ search.naming.used, name ≠ ""
  offeredBy_eq : Counted search
  nodup_offeredBy (typeName : String) : (search.offeredBy typeName).Nodup
  suffix_le (h : search.pending ≠ []) :
    search.suffix + 1 ≤ search.naming.used.toFinset.card + authored.toFinset.card + 1

theorem sound_after (listing : List (Attribute α)) (count : Nat) :
    (after listing count).Sound (authoredNames listing) := by
  have hcounted : (after listing count).Counted := run_induction Counted.step count fun _ ↦ rfl
  exact
    { ne_empty := run_induction (fun hsearch hstep ↦ hstep.ne_empty hsearch) count
        (List.forall_mem_nil _)
      offeredBy_eq := hcounted
      nodup_offeredBy := fun typeName ↦ by
        rw [hcounted, List.nodup_reverse]
        exact List.nodup_range.map (numbered_injective typeName)
      suffix_le := fun hpending ↦ by
        obtain ⟨done, _, halong⟩ := exists_along listing count
        exact Nat.succ_le_succ (halong.suffix_le (List.head?_eq_some_head hpending)) }

/-- The search for names ends with the names of `Naming.ofListing`, whatever names the authors gave:
a free number is always found, since no two numbers give the same text. -/
theorem ends_as_ofListing (listing : List (Attribute α)) :
    (∃ count, (after listing count).pending = [] ∧
      (after listing count).naming.Agrees (ofListing listing)) ∧
    (∀ count, (after listing count).Sound (authoredNames listing)) ∧
    (∀ stem first taken, (freeNumber? stem first taken).isSome) ∧
    Function.Injective (Decimal.padded 3) := by
  obtain ⟨count, hcount⟩ := exists_run_pending_eq_nil (authoredNames listing) (start listing)
  refine ⟨⟨count, hcount, agrees_of_pending_eq_nil hcount⟩, sound_after listing,
    fun stem first taken ↦ ?_, Decimal.padded_injective 3⟩
  obtain ⟨number, hnumber, _⟩ := exists_freeNumber stem first taken
  rw [hnumber]
  rfl

end NameSearch

end Toolpath
