import Telepathy.Handle.Table
import Telepathy.Text.Blank

set_option autoImplicit false

/-!
# Contacts named by address

Many protocols name contacts by an address with an `@`. Such identifiers are compared without the
blanks around them and without regard to the case of ASCII letters.
-/

namespace Telepathy.HandleTable

/-- The canonical form of an address. -/
def normaliseAddress (id : String) : Except String String :=
  let trimmed := Text.trim id
  if '@' ∈ trimmed.toList then .ok (Text.lower trimmed) else .error "missing '@'"

/-- An empty table of contacts named by address. -/
def addresses (entity : EntityType) : HandleTable := withNormaliser entity normaliseAddress

end Telepathy.HandleTable
