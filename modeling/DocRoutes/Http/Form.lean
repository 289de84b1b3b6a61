import DocRoutes.Keyed
import DocRoutes.Text.Blank
import DocRoutes.Text.Hex
import DocRoutes.Text.Utf8

/-!
# Percent-encoding and forms

In an encoded text, `%` and two hexadecimal digits stand for a byte. A percent sign without two
digits stands for itself. A form is a list of fields with `&` between them; in a field the first
`=` separates name and value, and `+` is a space.
-/

namespace DocRoutes

open Text

/-- The bytes of an encoded text. -/
def percentDecode : List Char → Bytes
  | [] => []
  | '%' :: h :: l :: rest =>
    match hexValue? h, hexValue? l with
    | some high, some low => UInt8.ofNat (16 * high + low) :: percentDecode rest
    | _, _ => String.utf8EncodeChar '%' ++ percentDecode (h :: l :: rest)
  | c :: rest => String.utf8EncodeChar c ++ percentDecode rest

/-- A text in a form: ill-formed pieces become U+FFFD. -/
def formText (s : List Char) : String :=
  utf8TextLenient (percentDecode (s.map fun c => if c = '+' then ' ' else c))

/-- Name and value of a field; without `=` the value is empty. -/
def formField (s : List Char) : String × String :=
  let (name, value) := cutAt '=' s
  (formText name, formText (value.getD []))

/-- The fields of a form in order. Empty pieces are no fields. -/
def formFields (s : List Char) : List (String × String) :=
  ((splitAt '&' s).filter (!·.isEmpty)).map formField

end DocRoutes
