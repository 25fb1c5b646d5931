import Mathlib.Order.Defs.Unbundled
import SearchCriteria.Proofs.Meaning
import SearchCriteria.Query.Ancestry

/-!
# Ancestors are prefixes of paths

A path begins with another one and a dot exactly if its segments begin with those of the other
one and go on behind them. So the SQL condition that compares characters compares whole
segments, and to derive is an order on paths.
-/

namespace SearchCriteria

section Pieces

variable {α : Type} [DecidableEq α] {mark : α}

/-- An empty piece comes first where a list is empty or begins with a mark. -/
theorem nil_piece_prefix_iff {whole : List α} :
    [[]] <+: splitAtEach mark whole ↔ whole = [] ∨ [mark] <+: whole := by
  cases whole with
  | nil => simp
  | cons b rest =>
    by_cases hb : b = mark
    · subst hb
      simp
    · obtain ⟨first, more, hrest⟩ := exists_splitAtEach_eq_cons mark rest
      simp [splitAtEach_cons_of_ne hb, hrest, Ne.symm hb]

/-- A single empty piece does not begin with the pieces of a list that has elements. -/
theorem not_prefix_nil_piece {a : α} {part : List α} :
    ¬ splitAtEach mark (a :: part) <+: [[]] := by
  obtain ⟨first, more, hpart⟩ := exists_splitAtEach_eq_cons mark part
  by_cases ha : a = mark
  · subst ha
    simp [hpart]
  · simp [splitAtEach_cons_of_ne ha, hpart]

/-- Pieces are compared element by element, the marks between them included. -/
theorem splitAtEach_cons_prefix_cons {a b : α} {part whole : List α} :
    splitAtEach mark (a :: part) <+: splitAtEach mark (b :: whole) ↔
      a = b ∧ splitAtEach mark part <+: splitAtEach mark whole := by
  obtain ⟨first, more, hpart⟩ := exists_splitAtEach_eq_cons mark part
  obtain ⟨first', more', hwhole⟩ := exists_splitAtEach_eq_cons mark whole
  by_cases ha : a = mark <;> by_cases hb : b = mark
  · subst ha hb
    simp
  · subst ha
    simp [splitAtEach_cons_of_ne hb, hwhole, Ne.symm hb]
  · subst hb
    simp [splitAtEach_cons_of_ne ha, hpart, ha]
  · simp [splitAtEach_cons_of_ne ha, splitAtEach_cons_of_ne hb, hpart, hwhole, and_assoc]

/-- The pieces of a list begin with those of another one exactly if both are the same list, or
the other one and a mark stand at the beginning. -/
theorem splitAtEach_prefix_iff {part whole : List α} :
    splitAtEach mark part <+: splitAtEach mark whole ↔
      whole = part ∨ part ++ [mark] <+: whole := by
  induction part generalizing whole with
  | nil => exact nil_piece_prefix_iff
  | cons a part ih =>
    cases whole with
    | nil => simp [not_prefix_nil_piece]
    | cons b whole =>
      rw [splitAtEach_cons_prefix_cons, ih, List.cons_append, List.cons_prefix_cons,
        List.cons.injEq]
      constructor
      · rintro ⟨rfl, rfl | hbegins⟩
        · exact .inl ⟨rfl, rfl⟩
        · exact .inr ⟨rfl, hbegins⟩
      · rintro (⟨rfl, rfl⟩ | ⟨rfl, hbegins⟩)
        · exact ⟨rfl, .inl rfl⟩
        · exact ⟨rfl, .inr hbegins⟩

end Pieces

/-- A path derives from another one exactly if the segments of the other one are its first
segments. -/
theorem derivesFrom_iff_segments {path ancestor : String} :
    DerivesFrom path ancestor ↔ segments ancestor <+: segments path := by
  rw [derivesFrom_iff, segments, segments, splitAtEach_prefix_iff, String.toList_inj]

/-- A path that derives from another one and has no more segments is that one. -/
theorem DerivesFrom.eq_of_length {path ancestor : String} (hderives : DerivesFrom path ancestor)
    (hlength : (segments path).length ≤ (segments ancestor).length) : path = ancestor := by
  rcases derivesFrom_iff.mp hderives with heq | hbegins
  · exact heq
  · -- The dot behind the ancestor begins one more segment.
    have hdots := hbegins.sublist.count_le '.'
    simp only [segments, length_splitAtEach, List.count_append, List.count_singleton_self]
      at hdots hlength
    omega

/-- A path that goes on behind another one and derives from it goes on with a dot. -/
theorem DerivesFrom.eq_empty_or_dot {ancestor more : String}
    (hderives : DerivesFrom (ancestor ++ more) ancestor) :
    more = "" ∨ more.toList.head? = some '.' := by
  rcases derivesFrom_iff.mp hderives with heq | hbegins
  · left
    simpa using heq
  · right
    rw [String.toList_append, List.prefix_append_right_inj] at hbegins
    obtain ⟨rest, hmore⟩ := hbegins
    rw [← hmore]
    rfl

/-- To derive is an order on paths. -/
theorem derivesFrom_isPartialOrder : IsPartialOrder String DerivesFrom where
  refl path := derivesFrom_iff.mpr (.inl rfl)
  trans path ancestor root hpath hancestor := by
    rw [derivesFrom_iff_segments] at hpath hancestor ⊢
    exact hancestor.trans hpath
  antisymm path other hpath hother :=
    hpath.eq_of_length (derivesFrom_iff_segments.mp hother).length_le

namespace Sql.Condition

/-- The condition of a class is true of the rows whose path derives from it. -/
theorem truth_derivedFrom {property path : String} {row : Item} (hrow : row property = some path)
    (ancestor : String) :
    (ofQuery (.relational property (.compare .derivedFrom ancestor))).truth row = some true ↔
      DerivesFrom path ancestor := by
  rw [truth_ofQuery, Query.matches, hrow]
  rfl

end Sql.Condition

/-- On a row whose column holds a path, the condition that compares the path with a class and
then with the class and a dot is true exactly if the segments of the class are the first ones of
the path. So to derive is an order. A path derives from no other one with as many segments, nor
from one that it begins with, unless a dot follows there. -/
theorem truth_sql_iff_segments :
    (∀ (property path ancestor : String) (row : Item), row property = some path →
      let condition : Sql.Condition := .joined .or (.compare property .equal ancestor)
        (.startsWith property (ancestor.push '.'))
      Sql.Condition.parse? (Query.relational property (.compare .derivedFrom ancestor)).sql =
          some condition ∧
        (condition.truth row = some true ↔ DerivesFrom path ancestor)) ∧
      (∀ path ancestor, DerivesFrom path ancestor ↔ segments ancestor <+: segments path) ∧
      IsPartialOrder String DerivesFrom ∧
      (∀ path sibling, (segments path).length = (segments sibling).length → path ≠ sibling →
        ¬ DerivesFrom path sibling) ∧
      ∀ path more : String, more ≠ "" → more.toList.head? ≠ some '.' →
        ¬ DerivesFrom (path ++ more) path := by
  refine ⟨?_, fun _ _ => derivesFrom_iff_segments, derivesFrom_isPartialOrder, ?_, ?_⟩
  · intro property path ancestor row hrow
    exact ⟨Sql.Condition.parse?_render _, Sql.Condition.truth_derivedFrom hrow ancestor⟩
  · intro path sibling hlength hne hderives
    exact hne (hderives.eq_of_length (Nat.le_of_eq hlength))
  · intro path more hnonempty hdot hderives
    rcases hderives.eq_empty_or_dot with hempty | hhead
    · exact hnonempty hempty
    · exact hdot hhead

/-- A path with an empty segment, a class with a quote that ends in a dot, and two siblings that
begin with the same characters. -/
theorem truth_sql_iff_segments_siblings :
    let row : Item := fun name => if name = "upnp:class" then some "it's..item" else none
    row "upnp:class" = some "it's..item" ∧
      (∃ condition, Sql.Condition.parse?
          (Query.relational "upnp:class" (.compare .derivedFrom "it's.")).sql = some condition ∧
        condition.truth row = some true) ∧
      (segments "object.itemX").length = (segments "object.item").length ∧
      "object.itemX" ≠ "object.item" ∧ ¬ DerivesFrom "object.itemX" "object.item" ∧
      "X.photo" ≠ "" ∧ "X.photo".toList.head? ≠ some '.' ∧
      ¬ DerivesFrom ("object.item" ++ "X.photo") "object.item" := by
  intro row
  have hrow : row "upnp:class" = some "it's..item" := rfl
  have hlength : (segments "object.itemX").length = (segments "object.item").length := by decide
  have hne : "object.itemX" ≠ "object.item" := by decide
  have hmore : "X.photo" ≠ "" := by decide
  have hdot : "X.photo".toList.head? ≠ some '.' := by decide
  obtain ⟨htruth, hsegments, -, hsibling, hbehind⟩ := truth_sql_iff_segments
  obtain ⟨hparse, hcondition⟩ := htruth "upnp:class" "it's..item" "it's." row hrow
  have hderives : DerivesFrom "it's..item" "it's." := (hsegments _ _).mpr (by decide)
  exact ⟨hrow, ⟨_, hparse, hcondition.mpr hderives⟩, hlength, hne, hsibling _ _ hlength hne,
    hmore, hdot, hbehind _ _ hmore hdot⟩

end SearchCriteria
