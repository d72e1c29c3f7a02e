import SymbolContext.Path
import SymbolContext.Text.Utf8
import SymbolContext.Uri.Basic

/-!
# Files as URIs

A path is written as a `file` URI by escaping every octet that is not unreserved or a slash, and
read back by undoing the escapes. A relative path is read back as an absolute one.
-/

namespace SymbolContext.Uri

/-- A character that stands for itself in the URI of a path. -/
def isPlain (c : Char) : Bool := isUnreserved c || c = '/'

/-- An upper-case hexadecimal digit. -/
def upperHex (n : Nat) : Char := (Nat.digitChar n).toUpper

/-- The escape of an octet. -/
def escapeOctet (b : UInt8) : List Char :=
  ['%', upperHex (b.toNat / 16), upperHex (b.toNat % 16)]

/-- One character of a path. -/
def escapeChar (c : Char) : List Char :=
  if isPlain c then [c] else (String.utf8EncodeChar c).flatMap escapeOctet

/-- The text of a path, escaped. -/
def escapePath (path : String) : List Char := path.toList.flatMap escapeChar

/-- The text of the URI of a path. -/
def fileText (path : String) : String :=
  String.ofList ("file://".toList ++
    (if Path.isAbsolute path then escapePath path else '/' :: escapePath path))

/-- The octets that an escaped text stands for. -/
def unescape : List Char → List UInt8
  | '%' :: x :: y :: rest =>
    match Json.hexDigit? x, Json.hexDigit? y with
    | some a, some b => UInt8.ofNat (a * 16 + b) :: unescape rest
    | _, _ => String.utf8EncodeChar '%' ++ unescape (x :: y :: rest)
  | c :: rest => String.utf8EncodeChar c ++ unescape rest
  | [] => []

/-- The path that a URI names. -/
def filePath (u : Uri) : String := Utf8.decodeLossy (unescape u.path.toList)

/-- The URI of a path. -/
def ofPath (path : String) : Except Error Uri := parse (fileText path)

end SymbolContext.Uri
