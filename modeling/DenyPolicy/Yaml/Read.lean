import DenyPolicy.Yaml.Compose
/-!
# Reading a YAML text

A text is read as one YAML document.  It may start with a byte order mark, and
may hold only printable characters: tab, line feed, carriage return, the
printable ASCII characters, next line, and the rest of the Basic Multilingual
Plane from U+00A0 on outside the surrogates and the last two code points, and
every character above it.  The first character outside that set is refused by
its byte offset before anything else is read.

The first document is then composed into a value.  A stream with no document
reads as null; a stream whose first document is followed by the start of
another, or by anything that fails, is refused.
-/

namespace DenyPolicy

namespace Yaml

def isPrintable (c : Char) : Bool :=
  let n := c.toNat
  n == 0x09 || n == 0x0A || n == 0x0D || (0x20 ≤ n && n ≤ 0x7E) || n == 0x85 ||
    (0xA0 ≤ n && n ≤ 0xD7FF) || (0xE000 ≤ n && n ≤ 0xFFFD) || 0x10000 ≤ n

def firstUnprintable? (offset : Nat) : List Char → Option Nat
  | [] => none
  | c :: cs => if isPrintable c then firstUnprintable? (offset + c.utf8Size) cs else some offset

def dropByteOrderMark : List Char → List Char
  | '\uFEFF' :: cs => cs
  | cs => cs

/-- Reads the single document of a YAML text as a value. -/
def read (text : String) : Except LoadFault Yaml := do
  let chars := text.toList
  if let some offset := firstUnprintable? 0 chars then
    throw (.stream (.character "control characters are not allowed" offset))
  let chars := dropByteOrderMark chars
  let (doc, rest) := gather (8 * (chars.length + 8)) (Parser.init chars) [] {}
  let v ← doc.value
  if let some f := doc.fault then throw f
  if let some p := rest then
    if moreDocuments p then throw .moreThanOneDocument
  pure v

end Yaml

end DenyPolicy
