import SearchCriteria.Store

/-!
# Writing files

A file is written exactly where a path leads, so the path leads to it afterwards. Nothing is
lost by that, hence the way there stays the same, and so does what lies anywhere else.
-/

namespace SearchCriteria

open FilePath

namespace Store

variable {store later : Store} {path : FilePath} {place next : Place} {name : List UInt8}

/-- A step may be made in directories, and from one that may be searched to any name. -/
theorem mayStep_iff :
    store.mayStep place name ↔
      store.find? place = some .directory ∧ (name = [] ∨ (store.access place).search) := by
  simp [mayStep]

/-- A step that leads somewhere may be made. -/
theorem mayStep_of_step_eq_some (hstep : store.step place name = some next) :
    store.mayStep place name := by
  unfold step at hstep
  split at hstep
  case isTrue hmay => exact hmay
  case isFalse => cases hstep

/-- A step that does not move stays. -/
theorem step_of_isStill (hmay : store.mayStep place name) (hname : isStill name) :
    store.step place name = some place := by
  rw [step, if_pos hmay, if_pos hname]

/-- A step up leads to the directory around. -/
theorem step_above (hmay : store.mayStep place above) :
    store.step place above = some place.dropLast := by
  rw [step, if_pos hmay, if_neg (by decide), if_pos rfl]

/-- A step to a name leads there if something has the name. -/
theorem step_of_name (hmay : store.mayStep place name) (hstill : ¬ isStill name)
    (habove : name ≠ above) :
    store.step place name =
      if (store.find? (place ++ [name])).isSome then some (place ++ [name]) else none := by
  rw [step, if_pos hmay, if_neg hstill, if_neg habove]

/-- Everything around a place is a directory. -/
def Enclosed (store : Store) (place : Place) : Prop :=
  ∀ around, around <+: place → around ≠ place → store.find? around = some .directory

/-- The directory around a place is one. -/
theorem Enclosed.dropLast (henclosed : store.Enclosed place) :
    store.find? place.dropLast = some .directory := by
  rcases List.eq_nil_or_concat place with rfl | ⟨around, last, rfl⟩
  · rfl
  · apply henclosed _ (List.dropLast_prefix _)
    simp

/-- Around the directory around a place there are directories as well. -/
theorem Enclosed.upward (henclosed : store.Enclosed place) : store.Enclosed place.dropLast := by
  intro around haround hne
  apply henclosed around (haround.trans (List.dropLast_prefix place))
  rintro rfl
  have hlength := haround.length_le
  rw [List.length_dropLast] at hlength
  have hempty : around.length = 0 := by omega
  rw [List.length_eq_zero_iff.mp hempty] at hne
  exact hne rfl

/-- Around a place in a directory there is that directory, and what is around it. -/
theorem Enclosed.inward (henclosed : store.Enclosed place)
    (hplace : store.find? place = some .directory) : store.Enclosed (place ++ [name]) := by
  intro around haround hne
  rcases List.prefix_concat_iff.mp haround with rfl | hwithin
  · exact absurd rfl hne
  · by_cases hself : around = place
    · rwa [hself]
    · exact henclosed around hwithin hself

/-- A step keeps to directories. -/
theorem Enclosed.step (henclosed : store.Enclosed place)
    (hstep : store.step place name = some next) : store.Enclosed next := by
  have hmay := mayStep_of_step_eq_some hstep
  by_cases hstill : isStill name
  · rw [step_of_isStill hmay hstill] at hstep
    obtain rfl := Option.some.inj hstep
    exact henclosed
  · by_cases habove : name = above
    · subst habove
      rw [step_above hmay] at hstep
      obtain rfl := Option.some.inj hstep
      exact henclosed.upward
    · rw [step_of_name hmay hstill habove] at hstep
      split at hstep
      case isFalse => cases hstep
      case isTrue =>
        obtain rfl := Option.some.inj hstep
        exact henclosed.inward (mayStep_iff.mp hmay).1

/-- Steps keep to directories. -/
theorem Enclosed.steps {names : List (List UInt8)} (henclosed : store.Enclosed place)
    (hsteps : names.foldlM store.step place = some next) : store.Enclosed next := by
  induction names generalizing place with
  | nil =>
    obtain rfl := Option.some.inj hsteps
    exact henclosed
  | cons name rest ih =>
    obtain ⟨middle, hstep, hrest⟩ := Option.bind_eq_some_iff.mp hsteps
    exact ih (henclosed.step hstep) hrest

/-- A path leads where its last name leads from the directory that the other steps lead to. -/
theorem resolve_eq (store : Store) (hadmissible : path.isAdmissible)
    (hlast : path.steps.getLast? = some name) :
    store.resolve path = (store.parent path).bind (store.step · name) := by
  obtain ⟨names, hsteps⟩ := List.getLast?_eq_some_iff.mp hlast
  rw [resolve, if_pos hadmissible, parent, hsteps, List.foldlM_append, List.dropLast_concat]
  simp only [List.foldlM_cons, List.foldlM_nil, bind_pure]
  rfl

/-- The parts of a path that names a place for a file. -/
structure Names (store : Store) (path : FilePath) (directory : Place) (name : List UInt8) :
    Prop where
  admissible : path.isAdmissible
  last : path.steps.getLast? = some name
  notStill : ¬ isStill name
  notAbove : name ≠ above
  parent : store.parent path = some directory
  mayStep : store.mayStep directory name

variable {directory : Place}

namespace Names

/-- A name is only looked up in directories that may be searched. -/
theorem search (hnames : store.Names path directory name) : (store.access directory).search := by
  refine (mayStep_iff.mp hnames.mayStep).2.resolve_left ?_
  rintro rfl
  exact hnames.notStill (by decide)

/-- A path leads to the place that it names if something is there. -/
theorem resolve_eq (hnames : store.Names path directory name) :
    store.resolve path =
      if (store.find? (directory ++ [name])).isSome then some (directory ++ [name]) else none := by
  rw [Store.resolve_eq store hnames.admissible hnames.last, hnames.parent, Option.bind_some,
    step_of_name hnames.mayStep hnames.notStill hnames.notAbove]

end Names

/-- The later store differs from the earlier one in what a file holds, and in nothing else: at a
place where no directory is, a content has been put, of which a device keeps nothing. -/
structure Rewritten (store later : Store) (place : Place) (content : List UInt8) : Prop where
  notDirectory : store.find? place ≠ some .directory
  access : later.access = store.access
  room : later.room = store.room
  others : ∀ other, other ≠ place → later.find? other = store.find? other
  device : ∀ given, store.find? place = some (.device given) → later = store
  file : (∀ given, store.find? place ≠ some (.device given)) →
    later.find? place = some (.file content)

namespace Rewritten

variable {content : List UInt8}

/-- At the place there is the content, unless there is a device and all is as it was. -/
theorem device_or_file (hlater : store.Rewritten later place content) :
    (∃ given, store.find? place = some (.device given) ∧ later = store) ∨
      later.find? place = some (.file content) := by
  by_cases hdevice : ∃ given, store.find? place = some (.device given)
  · obtain ⟨given, hgiven⟩ := hdevice
    exact Or.inl ⟨given, hgiven, hlater.device given hgiven⟩
  · exact Or.inr (hlater.file fun given hgiven => hdevice ⟨given, hgiven⟩)

/-- There is something at the place. -/
theorem isSome_find?_place (hlater : store.Rewritten later place content) :
    (later.find? place).isSome := by
  rcases hlater.device_or_file with ⟨given, hgiven, rfl⟩ | hfile
  · rw [hgiven, Option.isSome_some]
  · rw [hfile, Option.isSome_some]

/-- What has been somewhere is there. -/
theorem isSome_find? (hlater : store.Rewritten later place content) {other : Place}
    (hother : (store.find? other).isSome) : (later.find? other).isSome := by
  by_cases hself : other = place
  · rw [hself]
    exact hlater.isSome_find?_place
  · rwa [hlater.others other hself]

/-- Directories stay directories. -/
theorem find?_directory (hlater : store.Rewritten later place content) {other : Place}
    (hother : store.find? other = some .directory) : later.find? other = some .directory := by
  have hne : other ≠ place := by
    rintro rfl
    exact hlater.notDirectory hother
  rw [hlater.others other hne, hother]

/-- What is rewritten twice is what it is rewritten to at last. -/
theorem trans {last : Store} {final : List UInt8}
    (hlater : store.Rewritten later place content) (hlast : later.Rewritten last place final) :
    store.Rewritten last place final := by
  refine ⟨hlater.notDirectory, hlast.access.trans hlater.access, hlast.room.trans hlater.room,
    ?_, ?_, ?_⟩
  · intro other hother
    rw [hlast.others other hother, hlater.others other hother]
  · intro given hgiven
    have hsame := hlater.device given hgiven
    rw [← hsame] at hgiven
    rw [hlast.device given hgiven, hsame]
  · intro hnone
    apply hlast.file
    intro given hgiven
    rw [hlater.file hnone] at hgiven
    cases hgiven

/-- A step that could be made can be made. -/
theorem mayStep (hlater : store.Rewritten later place content) {start : Place}
    (hmay : store.mayStep start name) : later.mayStep start name := by
  rw [mayStep_iff] at hmay ⊢
  rw [hlater.access]
  exact ⟨hlater.find?_directory hmay.1, hmay.2⟩

/-- A step that led somewhere leads there. -/
theorem step (hlater : store.Rewritten later place content) {start : Place}
    (hstep : store.step start name = some next) : later.step start name = some next := by
  have hmay := mayStep_of_step_eq_some hstep
  have hmay' := hlater.mayStep hmay
  by_cases hstill : isStill name
  · rw [step_of_isStill hmay hstill] at hstep
    rw [step_of_isStill hmay' hstill, hstep]
  · by_cases habove : name = above
    · subst habove
      rw [step_above hmay] at hstep
      rw [step_above hmay', hstep]
    · rw [step_of_name hmay hstill habove] at hstep
      rw [step_of_name hmay' hstill habove]
      split at hstep
      case isFalse => cases hstep
      case isTrue hthere => rw [if_pos (hlater.isSome_find? hthere), hstep]

/-- Steps that led somewhere lead there. -/
theorem steps {names : List (List UInt8)} (hlater : store.Rewritten later place content)
    {start : Place} (hsteps : names.foldlM store.step start = some next) :
    names.foldlM later.step start = some next := by
  induction names generalizing start with
  | nil => exact hsteps
  | cons name rest ih =>
    obtain ⟨middle, hstep, hrest⟩ := Option.bind_eq_some_iff.mp hsteps
    rw [List.foldlM_cons, hlater.step hstep]
    exact ih hrest

/-- A path names the place that it named. -/
theorem names (hlater : store.Rewritten later place content)
    (hnames : store.Names path directory name) : later.Names path directory name :=
  ⟨hnames.admissible, hnames.last, hnames.notStill, hnames.notAbove, hlater.steps hnames.parent,
    hlater.mayStep hnames.mayStep⟩

/-- The path of the file leads to it. -/
theorem resolve (hlater : store.Rewritten later (directory ++ [name]) content)
    (hnames : store.Names path directory name) :
    later.resolve path = some (directory ++ [name]) := by
  rw [(hlater.names hnames).resolve_eq, if_pos hlater.isSome_find?_place]

/-- What has been written is read, where it can be. -/
theorem read (hlater : store.Rewritten later place content) (hback : store.ReadsBack place) :
    later.read place = some content := by
  rw [Store.read, hlater.access, if_pos hback.permitted, hlater.file hback.notDevice]

end Rewritten

end Store

end SearchCriteria
