import SearchCriteria.Query.Canonical
import SearchCriteria.Query.Malformed

/-!
# Decoding what is encoded

A query is decoded from its value, and from no other value but those that differ from it only
in what decoding passes over. So a value is decoded exactly if its canonical form is the value
of a query.
-/

namespace SearchCriteria

/-- A comparison is found by its name alone. -/
theorem Comparison.ofName?_eq_some_iff {name : String} {comparison : Comparison} :
    ofName? name = some comparison ↔ name = comparison.name := by
  constructor
  · intro hfind
    have hname := List.find?_some hfind
    exact (of_decide_eq_true hname).symm
  · rintro rfl
    cases comparison <;> rfl

/-- A junction is found by its keyword alone. -/
theorem Junction.ofKeyword?_eq_some_iff {keyword : String} {junction : Junction} :
    ofKeyword? keyword = some junction ↔ keyword = junction.keyword := by
  constructor
  · intro hfind
    unfold ofKeyword? at hfind
    split at hfind
    case isTrue hand =>
      obtain rfl := Option.some.inj hfind
      exact hand
    case isFalse =>
      split at hfind
      case isTrue hor =>
        obtain rfl := Option.some.inj hfind
        exact hor
      case isFalse => cases hfind
  · rintro rfl
    cases junction <;> rfl

/-- No comparison has the name of existence. -/
theorem Comparison.name_ne_existence (comparison : Comparison) :
    comparison.name ≠ Operator.existence.name := by
  cases comparison <;> decide

/-- A relation is decoded from its value and from no other. -/
theorem Relation.decode_eq_some_iff {value : Value} {relation : Relation} :
    decode value = some relation ↔ value = relation.encode := by
  constructor
  · intro hdecode
    unfold decode at hdecode
    split at hdecode
    case h_1 name text =>
      obtain ⟨comparison, hname, rfl⟩ := Option.map_eq_some_iff.mp hdecode
      rw [Comparison.ofName?_eq_some_iff.mp hname]
      rfl
    case h_2 name present =>
      split at hdecode
      case isTrue hname =>
        obtain rfl := Option.some.inj hdecode
        rw [hname]
        rfl
      case isFalse => cases hdecode
    case h_3 => cases hdecode
  · rintro rfl
    cases relation with
    | compare comparison text =>
      have hname : Comparison.ofName? comparison.name = some comparison :=
        Comparison.ofName?_eq_some_iff.mpr rfl
      simp [encode, Value.tagged, decode, hname]
    | existence present => rfl

namespace Value

/-- The canonical members are found where the members are. -/
theorem member?_ownMembers {name : String} (hname : name ∈ ["property", "relation"])
    (members : List (String × Value)) :
    member? (ownMembers members) name = member? members name := by
  simp only [List.mem_cons, List.not_mem_nil, or_false] at hname
  cases hproperty : member? members "property" <;>
    cases hrelation : member? members "relation" <;>
      rcases hname with rfl | rfl <;>
        simp only [ownMembers, List.filterMap_cons, List.filterMap_nil, hproperty, hrelation] <;>
          rfl

/-- Both members are there exactly if they are the canonical ones. -/
theorem ownMembers_eq_iff {members : List (String × Value)} {property relation : Value} :
    ownMembers members = [("property", property), ("relation", relation)] ↔
      member? members "property" = some property ∧ member? members "relation" = some relation := by
  cases hproperty : member? members "property" <;>
    cases hrelation : member? members "relation" <;> simp [ownMembers, hproperty, hrelation]

/-- The sides of a junction are made canonical. -/
theorem canonical_tagged_sides (junction : Junction) (left right : Value) :
    (tagged junction.keyword (array [left, right])).canonical =
      tagged junction.keyword (array [left.canonical, right.canonical]) := by
  cases junction <;> simp [tagged, Junction.keyword, canonical]

end Value

namespace Query

/-- The sides of a junction are decoded apart from each other. -/
theorem decode_tagged_sides (junction : Junction) (left right : Value) :
    decode (.tagged junction.keyword (.array [left, right])) =
      (decode left).bind fun left => (decode right).map fun right =>
        joined junction left right := by
  have hkeyword : Junction.ofKeyword? junction.keyword = some junction :=
    Junction.ofKeyword?_eq_some_iff.mpr rfl
  rw [Value.tagged, decode, hkeyword]
  cases decode left <;> cases decode right <;> rfl

/-- Two sides are decoded only if they are tagged with a junction. -/
theorem decode_sides_eq_some {tag : String} {left right : Value} {query : Query}
    (hdecode : decode (.object [(tag, .array [left, right])]) = some query) :
    ∃ junction leftSide rightSide, tag = junction.keyword ∧
      query = joined junction leftSide rightSide ∧ decode left = some leftSide ∧
      decode right = some rightSide := by
  cases htag : Junction.ofKeyword? tag with
  | none =>
    rw [decode, htag] at hdecode
    cases hdecode
  | some junction =>
    obtain rfl := Junction.ofKeyword?_eq_some_iff.mp htag
    have hsides := (decode_tagged_sides junction left right).symm.trans hdecode
    obtain ⟨leftSide, hleft, hrest⟩ := Option.bind_eq_some_iff.mp hsides
    obtain ⟨rightSide, hright, rfl⟩ := Option.map_eq_some_iff.mp hrest
    exact ⟨junction, leftSide, rightSide, rfl, rfl, hleft, hright⟩

/-- A relational expression is decoded from its two members, whatever stands beside them. -/
theorem decodeRelational_eq_some_iff {members : List (String × Value)} {query : Query} :
    decodeRelational members = some query ↔
      ∃ property relation, query = relational property relation ∧
        Value.member? members "property" = some (.string property) ∧
        Value.member? members "relation" = some relation.encode := by
  constructor
  · intro hdecode
    unfold decodeRelational at hdecode
    split at hdecode
    case h_1 property value hproperty hvalue =>
      obtain ⟨relation, hrelation, rfl⟩ := Option.map_eq_some_iff.mp hdecode
      rw [Relation.decode_eq_some_iff.mp hrelation] at hvalue
      exact ⟨property, relation, rfl, hproperty, hvalue⟩
    case h_2 => cases hdecode
  · rintro ⟨property, relation, rfl, hproperty, hvalue⟩
    have hrelation : Relation.decode relation.encode = some relation :=
      Relation.decode_eq_some_iff.mpr rfl
    simp only [decodeRelational, hproperty, hvalue, hrelation, Option.map_some]

/-- A query is decoded from its value. -/
theorem decode_encode (query : Query) : decode query.encode = some query := by
  induction query with
  | allResults => rfl
  | relational property relation =>
    rw [encode, Value.tagged, decode, if_pos rfl, decodeRelational_eq_some_iff]
    exact ⟨property, relation, rfl, rfl, rfl⟩
  | joined junction left right ihleft ihright =>
    rw [encode, decode_tagged_sides, ihleft, ihright]
    rfl

/-- Decoding passes over what the canonical value leaves out. -/
theorem decode_canonical (value : Value) : decode value.canonical = decode value := by
  have hsides : ∀ (junction : Junction) (left right : Value),
      decode left.canonical = decode left → decode right.canonical = decode right →
        decode (Value.tagged junction.keyword (.array [left, right])).canonical =
          decode (.tagged junction.keyword (.array [left, right])) := by
    intro junction left right hleft hright
    rw [Value.canonical_tagged_sides, decode_tagged_sides, decode_tagged_sides, hleft, hright]
  induction value using Value.canonical.induct with
  | case1 => rfl
  | case2 members =>
    have hproperty : Value.member? (Value.ownMembers members) "property" =
        Value.member? members "property" := Value.member?_ownMembers (by decide) members
    have hrelation : Value.member? (Value.ownMembers members) "relation" =
        Value.member? members "relation" := Value.member?_ownMembers (by decide) members
    rw [Value.canonical, Value.tagged, decode, decode, decodeRelational, decodeRelational,
      hproperty, hrelation]
  | case3 left right ihleft ihright => exact hsides .and left right ihleft ihright
  | case4 left right ihleft ihright => exact hsides .or left right ihleft ihright
  | case5 value hwildcard hrelational hand hor =>
    rw [Value.canonical]
    all_goals assumption

/-- The canonical form of a value from which a query is decoded is the value of the query. -/
theorem canonical_of_decode {value : Value} {query : Query} (hdecode : decode value = some query) :
    value.canonical = query.encode := by
  induction value using decode.induct generalizing query with
  | case1 =>
    obtain rfl := Option.some.inj hdecode
    rfl
  | case2 name hname =>
    rw [decode, if_neg hname] at hdecode
    cases hdecode
  | case3 =>
    obtain rfl := Option.some.inj hdecode
    rfl
  | case4 tag htag =>
    rw [decode, if_neg htag] at hdecode
    cases hdecode
  | case5 members =>
    rw [decode, if_pos rfl] at hdecode
    obtain ⟨property, relation, rfl, hmembers⟩ := decodeRelational_eq_some_iff.mp hdecode
    rw [Value.canonical, Value.ownMembers_eq_iff.mpr hmembers, encode]
  | case6 tag members htag =>
    rw [decode, if_neg htag] at hdecode
    cases hdecode
  | case7 tag left right ihleft ihright =>
    obtain ⟨junction, leftSide, rightSide, rfl, rfl, hleft, hright⟩ := decode_sides_eq_some hdecode
    have hcanonical := Value.canonical_tagged_sides junction left right
    rw [ihleft hleft, ihright hright] at hcanonical
    exact hcanonical
  | case8 value hname hnull hmembers hsides =>
    rw [decode] at hdecode
    · cases hdecode
    all_goals assumption

/-- A value is decoded as a query exactly if its canonical form is the value of the query. -/
theorem decode_eq_some_iff {value : Value} {query : Query} :
    decode value = some query ↔ value.canonical = query.encode := by
  constructor
  · exact canonical_of_decode
  · intro hcanonical
    rw [← decode_canonical, hcanonical, decode_encode]

end Query

namespace Value

/-- A tagged value tells its tag and what the tag holds. -/
theorem tagged_inj {tag tag' : String} {content content' : Value}
    (heq : tagged tag content = tagged tag' content') : tag = tag' ∧ content = content' := by
  injection heq with hmembers
  injection hmembers with hmember
  exact Prod.mk.inj hmember

variable {value : Value}

/-- What is malformed as a relation is the value of no relation. -/
theorem MalformedRelation.decode_eq_none (hvalue : value.MalformedRelation) :
    Relation.decode value = none := by
  rw [Option.eq_none_iff_forall_ne_some]
  intro relation hdecode
  have hencode := Relation.decode_eq_some_iff.mp hdecode
  cases hvalue with
  | name text => cases relation <;> cases hencode
  | tags hlength => cases relation <;> cases hencode <;> exact hlength rfl
  | existence text =>
    cases relation with
    | compare comparison text' =>
      exact comparison.name_ne_existence (tagged_inj hencode).1.symm
    | existence present => cases (tagged_inj hencode).2
  | comparison comparison flag =>
    cases relation with
    | compare comparison' text => cases (tagged_inj hencode).2
    | existence present => exact comparison.name_ne_existence (tagged_inj hencode).1

/-- What has a tag that names no kind of query is left as it is. -/
theorem canonical_tagged_of_not_mem {tag : String}
    (htag : tag ∉ ["all_results", "relational", "and", "or"]) (content : Value) :
    (tagged tag content).canonical = tagged tag content := by
  rw [tagged, canonical]
  -- Each shape that is changed has one of the four tags.
  all_goals
    intros
    simp_all only [object.injEq, List.cons.injEq, Prod.mk.injEq, List.mem_cons, true_or, or_true,
      not_true_eq_false]

/-- The value of a query has no other tag. -/
theorem encode_ne_tagged_of_not_mem {tag : String}
    (htag : tag ∉ ["all_results", "relational", "and", "or"]) (query : Query) (content : Value) :
    query.encode ≠ tagged tag content := by
  intro hencode
  cases query with
  | allResults => cases hencode
  | relational property relation =>
    rw [← (tagged_inj hencode).1] at htag
    exact htag (by decide)
  | joined junction left right =>
    rw [← (tagged_inj hencode).1] at htag
    cases junction <;> exact htag (by decide)

/-- What is malformed is the value of no query. -/
theorem Malformed.decode_eq_none (hvalue : value.Malformed) : Query.decode value = none := by
  rw [Option.eq_none_iff_forall_ne_some]
  intro query hdecode
  cases hvalue with
  | name htext =>
    rw [Query.decode, if_neg htext] at hdecode
    cases hdecode
  | @tags members hlength =>
    match members with
    | [] => cases hdecode
    | [_] => exact hlength rfl
    | _ :: _ :: _ => simp [Query.decode] at hdecode
  | @tag tag htag content =>
    have hencode := Query.canonical_of_decode hdecode
    rw [canonical_tagged_of_not_mem htag] at hencode
    exact encode_ne_tagged_of_not_mem htag query content hencode.symm
  | @sides junction items hlength =>
    match items with
    | [] => simp [tagged, Query.decode] at hdecode
    | [_] => simp [tagged, Query.decode] at hdecode
    | [_, _] => exact hlength rfl
    | _ :: _ :: _ :: _ => simp [tagged, Query.decode] at hdecode
  | @relation members part hmember hpart =>
    rw [tagged, Query.decode, if_pos rfl] at hdecode
    obtain ⟨property, relation, -, -, hrelation⟩ := Query.decodeRelational_eq_some_iff.mp hdecode
    rw [hmember] at hrelation
    have hsome := Relation.decode_eq_some_iff.mpr (Option.some.inj hrelation)
    rw [hpart.decode_eq_none] at hsome
    cases hsome

/-- Where a part is not decoded, nothing that it is a part of is. -/
theorem IsPartOf.decode_eq_none {part : Value} (hpartOf : part.IsPartOf value)
    (hpart : Query.decode part = none) : Query.decode value = none := by
  induction hpartOf with
  | self => exact hpart
  | left junction right hleft ih => rw [Query.decode_tagged_sides, ih, Option.bind_none]
  | right junction left hright ih =>
    rw [Query.decode_tagged_sides, ih]
    cases Query.decode left <;> rfl

end Value

namespace Query

/-- Every query is decoded from its value. A value is decoded as a query exactly if its canonical
form is the value of the query. Nothing is decoded where a part that stands for a query is
malformed, however deep it stands. -/
theorem decode_iff_canonical :
    (∀ query : Query, decode query.encode = some query) ∧
      (∀ (value : Value) (query : Query),
        decode value = some query ↔ value.canonical = query.encode) ∧
      ∀ value part : Value, part.IsPartOf value → part.Malformed → decode value = none := by
  refine ⟨decode_encode, fun value query => decode_eq_some_iff, ?_⟩
  intro value part hpartOf hpart
  exact hpartOf.decode_eq_none hpart.decode_eq_none

/-- A text for `exists`, two junctions deep and beside values that are decoded. -/
theorem decode_iff_canonical_existence :
    let part : Value := .tagged "relational" (.object
      [("relation", .tagged "exists" (.string "true")), ("property", .string "a")])
    let value : Value := .tagged "and" (.array [.string "all_results",
      .tagged "or" (.array [part, .tagged "all_results" .null])])
    part.IsPartOf value ∧ part.Malformed ∧ decode value = none := by
  intro part value
  have hpartOf : part.IsPartOf value := .right .and _ (.left .or _ .self)
  have hpart : part.Malformed := .relation rfl (.existence "true")
  exact ⟨hpartOf, hpart, decode_iff_canonical.2.2 value part hpartOf hpart⟩

end Query

end SearchCriteria
