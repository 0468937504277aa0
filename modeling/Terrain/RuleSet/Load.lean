import Terrain.Ron.Draft
import Terrain.RuleSet.Link

/-! ## Loading

Rule sets from the text of a draft and from the contents of a file. -/

namespace Terrain.RuleSet

/-- Reads and links the text of a draft. -/
def ofText (text : String) (id : RuleSetId) : Except Fault RuleSet :=
  match Draft.ofText? text with
  | some d => d.link id
  | none => .error .malformedText

/-- Reads and links the contents of a file, which is missing or holds bytes. -/
def ofFile (contents : Option ByteArray) (id : RuleSetId) : Except Fault RuleSet :=
  match contents.bind String.fromUTF8? with
  | some text => ofText text id
  | none => .error .unreadableFile

end Terrain.RuleSet
