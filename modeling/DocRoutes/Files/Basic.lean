import DocRoutes.Text.Utf8

/-!
# Files

What the library asks of a file system: whether a path is that of a regular file, and the bytes
of a file. A path is a text; nothing is assumed of how paths are built. Paths that are not UTF-8 have
no text, and are not covered.
-/

namespace DocRoutes

open Text

/-- Why a file cannot be read. -/
inductive ReadFault where
  | noEntry
  | notDirectory
  | isDirectory
  | nameTooLong
  | nulInName
  | notUtf8
  | other (message : String)
  deriving DecidableEq, Repr

def ReadFault.message : ReadFault → String
  | .noEntry => "No such file or directory (os error 2)"
  | .notDirectory => "Not a directory (os error 20)"
  | .isDirectory => "Is a directory (os error 21)"
  | .nameTooLong => "File name too long (os error 36)"
  | .nulInName => "file name contained an unexpected NUL byte"
  | .notUtf8 => "stream did not contain valid UTF-8"
  | .other message => message

structure Files where
  isFile : String → Bool
  read : String → Except ReadFault Bytes

/-- The text of a file, which must be UTF-8. -/
def Files.readText (f : Files) (path : String) : Except ReadFault String :=
  match f.read path with
  | .error fault => .error fault
  | .ok bytes =>
    match utf8Text? bytes with
    | some text => .ok text
    | none => .error .notUtf8

/-- The last component of a path. -/
def fileName (path : String) : List Char :=
  (path.toList.reverse.takeWhile (· != '/')).reverse

/-- The name of a file without its last extension. A dot that begins a name begins no extension. -/
def fileStem (path : String) : String :=
  let name := fileName path
  let stem := (name.reverse.dropWhile (· != '.')).tail.reverse
  .ofList (if stem.isEmpty then name else stem)

end DocRoutes
