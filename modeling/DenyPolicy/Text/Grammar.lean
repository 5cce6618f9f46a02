/-!
# Group emails and identifiers

The two small languages that principals are checked against, written as
predicates on the characters instead of as patterns.

* A group email is a non-empty local part over ASCII letters, digits and
  `._%+-`, one `@`, and a domain of at least two non-empty dot-separated
  labels over ASCII letters, digits and `-`.  Nothing may follow the last
  label, not even a line break.
* An identifier starts with a lowercase ASCII letter or digit, and goes on
  with lowercase ASCII letters, digits, `_` and `-`.
-/

namespace DenyPolicy

namespace Text

def isAsciiAlnum (c : Char) : Bool :=
  ('a' ≤ c && c ≤ 'z') || ('A' ≤ c && c ≤ 'Z') || ('0' ≤ c && c ≤ '9')

def isLocalChar (c : Char) : Bool :=
  isAsciiAlnum c || c = '.' || c = '_' || c = '%' || c = '+' || c = '-'

def isLabelChar (c : Char) : Bool := isAsciiAlnum c || c = '-'

def isLabel (label : List Char) : Bool := !label.isEmpty && label.all isLabelChar

/-- Whether a text is a group email. -/
def isEmail (s : String) : Bool :=
  match s.toList.splitOn '@' with
  | [local_, domain] =>
    !local_.isEmpty && local_.all isLocalChar &&
      (match domain.splitOn '.' with
       | _ :: _ :: _ => (domain.splitOn '.').all isLabel
       | _ => false)
  | _ => false

def isLowerAlnum (c : Char) : Bool := ('a' ≤ c && c ≤ 'z') || ('0' ≤ c && c ≤ '9')

/-- Whether a text is an identifier. -/
def isIdentifier (s : String) : Bool :=
  match s.toList with
  | c :: rest => isLowerAlnum c && rest.all fun d => isLowerAlnum d || d = '_' || d = '-'
  | [] => false

end Text

end DenyPolicy
