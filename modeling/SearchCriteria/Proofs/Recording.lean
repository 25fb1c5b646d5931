import SearchCriteria.Query.Calls
import SearchCriteria.Query.Shape
import SearchCriteria.Reader

/-!
# Telling queries from their call records

A record of calls has no parentheses. But each call tells how many sides follow it, none or
two, so a record shows where it ends, and no record is the beginning of another one. The query
can be told from its record, whatever is recorded behind it.
-/

namespace SearchCriteria

/-- Different relational expressions make different calls. -/
theorem Call.ofRelation_inj {property property' : String} {relation relation' : Relation}
    (hcall : ofRelation property relation = ofRelation property' relation') :
    property = property' ∧ relation = relation' := by
  have hleaf := congrArg leaf? hcall
  simpa using hleaf

namespace Query

/-- The record of a query is what the recording visitor reports of its root, if it goes on in
this way with both sides of a junction. -/
theorem calls_eq_accept (query : Query) : query.calls = query.accept (.recorder calls) := by
  cases query with
  | allResults => rfl
  | relational property relation =>
    cases relation with
    | existence present => rfl
    | compare comparison text => cases comparison <;> rfl
  | joined junction left right => cases junction <;> rfl

/-- A record that begins like another one is that other one, and belongs to the same query. -/
theorem eq_of_calls_append {query other : Query} {more more' : List Call}
    (hcalls : query.calls ++ more = other.calls ++ more') : query = other ∧ more = more' := by
  induction query generalizing other more more' with
  | allResults =>
    cases other with
    | allResults => exact ⟨rfl, List.tail_eq_of_cons_eq hcalls⟩
    | relational property relation => cases relation <;> cases hcalls
    | joined junction left right => cases hcalls
  | relational property relation =>
    cases other with
    | allResults => cases relation <;> cases hcalls
    | relational property' relation' =>
      obtain ⟨hcall, hmore⟩ := List.cons.inj hcalls
      obtain ⟨rfl, rfl⟩ := Call.ofRelation_inj hcall
      exact ⟨rfl, hmore⟩
    | joined junction left right => cases relation <;> cases hcalls
  | joined junction left right ihleft ihright =>
    cases other with
    | allResults => cases hcalls
    | relational property relation => cases relation <;> cases hcalls
    | joined junction' left' right' =>
      simp only [calls, List.cons_append, List.append_assoc] at hcalls
      obtain ⟨hjunction, hsides⟩ := List.cons.inj hcalls
      obtain rfl := Call.joined.inj hjunction
      -- Where the left record ends, the right one begins, whatever their lengths.
      obtain ⟨rfl, hright⟩ := ihleft hsides
      obtain ⟨rfl, hmore⟩ := ihright hright
      exact ⟨rfl, hmore⟩

/-- A query makes one call for each of its nodes. -/
theorem length_calls (query : Query) : query.calls.length = query.leaves + query.junctions := by
  induction query with
  | allResults => rfl
  | relational => rfl
  | joined junction left right ihleft ihright =>
    simp only [calls, List.length_cons, List.length_append, ihleft, ihright, leaves, junctions]
    omega

/-- The calls that are not for junctions are for the leaves, from left to right. -/
theorem leaf?_calls (query : Query) :
    (query.calls.filter (!·.isJunction)).map Call.leaf? = query.leafList.map some := by
  induction query with
  | allResults => rfl
  | relational property relation => simp [calls, leafList]
  | joined junction left right ihleft ihright =>
    simp [calls, leafList, ihleft, ihright]

/-- The record of the recording visitor tells the query and where the record ends. It has one
call for each node, and the calls that are not for junctions are for the leaves from left to
right. -/
theorem calls_append_inj (query other : Query) :
    query.calls = query.accept (.recorder calls) ∧
      (∀ more more' : List Call, query.calls ++ more = other.calls ++ more' →
        query = other ∧ more = more') ∧
      query.calls.length = 2 * query.leaves - 1 ∧
      (query.calls.filter (!·.isJunction)).map Call.leaf? = query.leafList.map some := by
  have hlength : query.calls.length = 2 * query.leaves - 1 := by
    have hcalls := query.length_calls
    have hleaves := query.junctions_add_one
    omega
  exact ⟨query.calls_eq_accept, fun _ _ => eq_of_calls_append, hlength, query.leaf?_calls⟩

/-- Two spellings whose queries make the same calls, with a call behind them that could begin one
more side. -/
theorem calls_append_inj_nested :
    let query : Query := .joined .or
      (.joined .and (.relational "a" (.compare .lessThan "1"))
        (.relational "b" (.existence true)))
      (.relational "c" (.compare .equals "2"))
    parse .usual "a < \"1\" and b exists true or c = \"2\"" = .ok query ∧
      ∃ other, parse .usual "((a < \"1\" and (b exists true))or (c = \"2\"))" = .ok other ∧
      query.calls ++ [.existence "d" false] = other.calls ++ [.existence "d" false] ∧
      (query = other ∧ [Call.existence "d" false] = [.existence "d" false]) ∧
      query.calls.length = 2 * 3 - 1 := by
  intro query
  have hquery : parse .usual "a < \"1\" and b exists true or c = \"2\"" = .ok query := rfl
  have hother : parse .usual "((a < \"1\" and (b exists true))or (c = \"2\"))" = .ok query := rfl
  have hcalls : query.calls ++ [.existence "d" false] = query.calls ++ [.existence "d" false] :=
    rfl
  obtain ⟨-, hinj, hlength, -⟩ := calls_append_inj query query
  exact ⟨hquery, query, hother, hcalls, hinj _ _ hcalls, hlength⟩

end Query

end SearchCriteria
