import DocRoutes.Text.Blank
import DocRoutes.Text.Hex

/-!
# Quoted text in messages

A text that a message shows as evidence stands in double quotes, so that its ends can be seen.
Quotes, backslashes and control characters are escaped; every other printable character stands
for itself.
-/

namespace DocRoutes.Text

/-- Control characters, and blanks other than the space, do not show. -/
def isHidden (c : Char) : Bool :=
  c.toNat < 0x20 || (0x7F ≤ c.toNat && c.toNat < 0xA0) || (isBlank c && c != ' ')

/-- One character inside the quotes. -/
def quoteChar (c : Char) : List Char :=
  if c = '"' then ['\\', '"']
  else if c = '\\' then ['\\', '\\']
  else if c = '\n' then ['\\', 'n']
  else if c = '\r' then ['\\', 'r']
  else if c = '\t' then ['\\', 't']
  else if c = '\x00' then ['\\', '0']
  else if isHidden c then "\\u\x7b".toList ++ hexDigits c.toNat ++ ['\x7d']
  else [c]

def quoted (s : String) : String :=
  .ofList ('"' :: s.toList.flatMap quoteChar ++ ['"'])

end DocRoutes.Text
