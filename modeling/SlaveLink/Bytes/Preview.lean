import SlaveLink.Bytes
import SlaveLink.Text.Blank

/-! # Payload previews
A payload that is text without control characters is shown as that text. -/

namespace SlaveLink.Bytes

def toText? (bs : Bytes) : Option String := String.fromUTF8? ⟨bs.toArray⟩

def preview (bs : Bytes) : String :=
  match bs.toText? with
  | some text => if text.toList.any Text.isControl then binary else text
  | none => binary
where
  binary : String := s!"<binary {bs.length} bytes>"

end SlaveLink.Bytes
