import DenyPolicy.Yaml.Token
/-!
# Events of a YAML stream

A parser turns tokens into events: the start and end of the stream, of each
document, of each sequence and mapping, and each scalar and alias, in document
order.  A node's anchor and tag travel on the event that starts it; a tag is
given in full, its handle replaced by the prefix that the handle stands for.
Each event carries the place where it starts.
-/

namespace DenyPolicy

namespace Yaml

/-- What an event is. -/
inductive EventKind where
  | streamStart
  | streamEnd
  | documentStart
  | documentEnd
  /-- `*name`. -/
  | alias (name : String)
  /-- A scalar with its anchor, its tag in full, its text and its style. -/
  | scalar (anchor : Option String) (tag : Option (List UInt8)) (text : String) (style : ScalarStyle)
  | sequenceStart (anchor : Option String) (tag : Option (List UInt8))
  | sequenceEnd
  | mappingStart (anchor : Option String) (tag : Option (List UInt8))
  | mappingEnd
  deriving Repr, Inhabited

/-- An event and where it starts. -/
structure Event where
  kind : EventKind
  mark : Mark
  deriving Repr, Inhabited

/-- The event of an empty plain scalar with no properties, at `mark`. -/
def Event.empty (mark : Mark) : Event := ⟨.scalar none none "" .plain, mark⟩

end Yaml

end DenyPolicy
