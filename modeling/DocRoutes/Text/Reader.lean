/-!
# Readers

A reader takes a list of characters and gives a value with the characters that follow it, or
nothing if the characters begin no such value.
-/

namespace DocRoutes.Text

abbrev Reader (α : Type) := List Char → Option (α × List Char)

end DocRoutes.Text
