import BuildItems.Ordered.NameMap

/-!
# Metadata

The named values that an item carries.
-/

namespace BuildItems

abbrev Metadata := NameMap String

namespace Metadata

def merged (m overrides : Metadata) : Metadata := NameMap.merge m overrides

end Metadata

end BuildItems
