/-!
# Blank and control characters

The two Unicode character classes that the engine's checks use, and trimming.
A blank is a character of the Unicode White_Space property: the ASCII tab, line
feed, vertical tab, form feed, carriage return and space, the next line U+0085,
the no-break space, the Ogham space mark, the eleven spaces U+2000 to U+200A,
the line and paragraph separators, the narrow no-break space, the medium
mathematical space and the ideographic space.  A control character is one of
general category Cc: U+0000 to U+001F and U+007F to U+009F.
-/

namespace DenyPolicy

namespace Text

def isBlank (c : Char) : Bool :=
  let n := c.toNat
  (9 ≤ n && n ≤ 13) || n = 32 || n = 0x85 || n = 0xA0 || n = 0x1680 ||
  (0x2000 ≤ n && n ≤ 0x200A) || n = 0x2028 || n = 0x2029 || n = 0x202F ||
  n = 0x205F || n = 0x3000

def isControl (c : Char) : Bool :=
  let n := c.toNat
  n ≤ 0x1F || (0x7F ≤ n && n ≤ 0x9F)

/-- The text without its leading and trailing blanks. -/
def trim (s : String) : String :=
  String.ofList ((s.toList.dropWhile isBlank).reverse.dropWhile isBlank).reverse

def trimEnd (s : String) : String :=
  String.ofList (s.toList.reverse.dropWhile isBlank).reverse

/-- Whether a text is empty once trimmed. -/
def isBlankText (s : String) : Bool := s.toList.all isBlank

def asciiLower (s : String) : String :=
  String.ofList (s.toList.map fun c => if 'A' ≤ c ∧ c ≤ 'Z' then Char.ofNat (c.toNat + 32) else c)

def occursIn (part : List Char) : List Char → Bool
  | [] => part.isEmpty
  | c :: cs => part.isPrefixOf (c :: cs) || occursIn part cs

/-- Whether `part` occurs in `s` as a contiguous piece; an empty `part` does not
count. -/
def containsText (s part : String) : Bool :=
  !part.isEmpty && occursIn part.toList s.toList

def splitOnChar (s : String) (c : Char) : List String :=
  (s.toList.splitOn c).map String.ofList

def replaceChar (s : String) (c : Char) (by_ : String) : String :=
  String.join (s.toList.map fun d => if d = c then by_ else String.singleton d)

def padRight (s : String) (width : Nat) : String :=
  s ++ String.ofList (List.replicate (width - s.length) ' ')

end Text

end DenyPolicy
