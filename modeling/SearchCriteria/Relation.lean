import SearchCriteria.Text.Quoted

/-!
# Relations

A relation is what a search criteria expression asks of a property: one of nine
comparisons with a text, or that the property is present or absent.
-/

namespace SearchCriteria

/-- The comparisons of a property with a text. -/
inductive Comparison where
  | equals
  | notEquals
  | lessThan
  | lessOrEqual
  | greaterThan
  | greaterOrEqual
  | contains
  | doesNotContain
  | derivedFrom
  deriving DecidableEq

/-- The operators: the comparisons with a text, and `exists`. -/
inductive Operator where
  | compare (comparison : Comparison)
  | existence
  deriving DecidableEq

/-- An operator together with its operand. -/
inductive Relation where
  /-- The property compares in this way with the text. -/
  | compare (comparison : Comparison) (text : String)
  /-- The property is present, or it is absent. -/
  | existence (present : Bool)
  deriving DecidableEq

/-- What an operator is applied to. -/
inductive Operand where
  | text (content : String)
  | flag (value : Bool)
  deriving DecidableEq

/-- The comparison as it is written in a criteria text. -/
def Comparison.keyword : Comparison → String
  | equals => "="
  | notEquals => "!="
  | lessThan => "<"
  | lessOrEqual => "<="
  | greaterThan => ">"
  | greaterOrEqual => ">="
  | contains => "contains"
  | doesNotContain => "doesNotContain"
  | derivedFrom => "derivedFrom"

/-- The name of the comparison in a serialized query. -/
def Comparison.name : Comparison → String
  | equals => "equals"
  | notEquals => "not_equals"
  | lessThan => "less_than"
  | lessOrEqual => "less_or_equal"
  | greaterThan => "greater_than"
  | greaterOrEqual => "greater_or_equal"
  | contains => "contains"
  | doesNotContain => "does_not_contain"
  | derivedFrom => "derived_from"

/-- All nine comparisons. -/
def Comparison.all : List Comparison :=
  [equals, notEquals, lessThan, lessOrEqual, greaterThan, greaterOrEqual, contains,
    doesNotContain, derivedFrom]

theorem Comparison.mem_all (comparison : Comparison) : comparison ∈ all := by
  cases comparison <;> decide

/-- The operator as it is written in a criteria text. -/
def Operator.keyword : Operator → String
  | compare comparison => comparison.keyword
  | existence => "exists"

/-- The name of the operator in a serialized query. -/
def Operator.name : Operator → String
  | compare comparison => comparison.name
  | existence => "exists"

/-- All ten operators. -/
def Operator.all : List Operator :=
  Comparison.all.map compare ++ [existence]

theorem Operator.mem_all (operator : Operator) : operator ∈ all := by
  cases operator with
  | compare comparison => simp [all, Comparison.mem_all]
  | existence => simp [all]

/-- The relation of an operator with a text; `exists` takes none. -/
def Operator.withText : Operator → String → Option Relation
  | compare comparison, text => some (.compare comparison text)
  | existence, _ => none

/-- The literal that stands for a truth value. -/
def flagLiteral (value : Bool) : String := if value then "true" else "false"

/-- The operand as it is written in a criteria text: a text in double quotes, a
truth value as a bare word. -/
def Operand.print : Operand → String
  | text content => Text.quote content
  | flag value => flagLiteral value

/-- The operator of a relation. -/
def Relation.operator : Relation → Operator
  | compare comparison _ => .compare comparison
  | existence _ => .existence

/-- The operand of a relation. -/
def Relation.operand : Relation → Operand
  | compare _ text => .text text
  | existence present => .flag present

end SearchCriteria
