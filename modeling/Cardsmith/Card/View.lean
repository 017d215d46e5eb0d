import Cardsmith.Json.Value

/-!
# Inherited views

What a nested mapping shows with everything it inherits: the fields of the mappings around it,
overridden by its own.  An overridden field is replaced whole and keeps the place of its
outermost holder.
-/

namespace Cardsmith
namespace Card

/-- The view of a mapping below one whose view is `above`. -/
def inherit (above own : Json.Mapping) : Json.Mapping := above.merge own

end Card
end Cardsmith
