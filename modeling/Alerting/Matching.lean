import Alerting.Condition
import Alerting.Property
import Alerting.Text.LowerCase

/-!
# Matching conditions

Whether a condition holds of the properties of an event. Texts are compared without regard to case;
numeric comparisons need a number on both sides. Nothing holds of a property that is missing.
-/

namespace Alerting

def Operator.holds (operator : Operator) (property : Property) (operand : String) : Bool :=
  match operator with
  | .is => sameUpToCase property.shown operand
  | .isNot => !sameUpToCase property.shown operand
  | .contains => containsUpToCase property.shown operand
  | .notContains => !containsUpToCase property.shown operand
  | operator =>
      match property.number?, Number.parse? operand with
      | some left, some right => operator.compare left right
      | _, _ => false

/-- Whether a condition holds of the properties at hand, whatever its duration. -/
def Condition.holds (condition : Condition) (properties : Properties) : Bool :=
  match properties.get? condition.property with
  | some property => condition.operator.holds property condition.operand
  | none => false

def allHold (conditions : List Condition) (properties : Properties) : Bool :=
  conditions.all fun condition => condition.holds properties

end Alerting
