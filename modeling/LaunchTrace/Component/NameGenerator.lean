import LaunchTrace.Component.Registry
import LaunchTrace.Text.LetterCase

/-! How components get their names. -/
namespace LaunchTrace

structure NameGenerator where
  description : String
  generate : ComponentClass → Registry → String

/-- Makes the first letter small, unless the first two are both capitals. -/
def decapitalize : List Char → List Char
  | [] => []
  | [c] => Text.lower c
  | c :: d :: rest => if Text.isUpper c && Text.isUpper d then c :: d :: rest else Text.lower c ++ d :: rest

namespace NameGenerator

/-- The singleton that tells which generator is in use. -/
def singletonName : String := "sprout.context.internalComponentNameGenerator"

/-- The name asked for, or the short name with a small first letter. -/
def short : NameGenerator where
  description := "AnnotationNameGenerator"
  generate c _ := c.name.getD (String.ofList (decapitalize c.shortName.toList))

/-- The name asked for, or the whole type name. -/
def fullyQualified : NameGenerator where
  description := "FullyQualifiedNameGenerator"
  generate c _ := c.name.getD c.typeName

end NameGenerator
end LaunchTrace
