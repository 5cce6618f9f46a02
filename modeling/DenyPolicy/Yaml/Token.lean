import DenyPolicy.Yaml.Mark
/-!
# Tokens of a YAML stream

A YAML text is first cut into tokens: the markers of the stream, of documents
and of directives, the indicators of block and flow collections, keys and
values, anchors, aliases, tags, and scalars in one of five styles.  Block
collections have no indicator of their own for where they start and end; the
scanner adds tokens for both from the indentation of the lines.

A tag is kept as its handle and its suffix.  The suffix and the prefix of a tag
directive are byte strings, since a tag may spell bytes by `%` escapes that need
not form text on their own.
-/

namespace DenyPolicy

namespace Yaml

/-- How a scalar is written. -/
inductive ScalarStyle where
  | plain
  | singleQuoted
  | doubleQuoted
  | literal
  | folded
  deriving Repr, DecidableEq, Inhabited

/-- What a token is. -/
inductive TokenKind where
  | streamStart
  | streamEnd
  /-- `%YAML major.minor`. -/
  | versionDirective (major minor : Nat)
  /-- `%TAG handle prefix`. -/
  | tagDirective (handle : String) (tagPrefix : List UInt8)
  /-- `---`. -/
  | documentStart
  /-- `...`. -/
  | documentEnd
  | blockSequenceStart
  | blockMappingStart
  | blockEnd
  /-- `[`. -/
  | flowSequenceStart
  /-- `]`. -/
  | flowSequenceEnd
  /-- `{`. -/
  | flowMappingStart
  /-- `}`. -/
  | flowMappingEnd
  /-- `-` before an item of a block sequence. -/
  | blockEntry
  /-- `,`. -/
  | flowEntry
  /-- `?`, or the place before a key written without it. -/
  | key
  /-- `:`. -/
  | value
  /-- `*name`. -/
  | alias (name : String)
  /-- `&name`. -/
  | anchor (name : String)
  /-- A tag: its handle, empty for a tag written out in full, and its suffix. -/
  | tag (handle : String) (suffix : List UInt8)
  | scalar (text : String) (style : ScalarStyle)
  deriving Repr, Inhabited

/-- A token and where it starts and ends. -/
structure Token where
  kind : TokenKind
  start : Mark
  stop : Mark
  deriving Repr, Inhabited

namespace TokenKind

def isStreamEnd : TokenKind → Bool
  | .streamEnd => true
  | _ => false

end TokenKind

end Yaml

end DenyPolicy
