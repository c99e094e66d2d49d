import Mastership.Data.Forms
import Mastership.Data.Toml

namespace Mastership.Settings

/-- The settings that a text gives, if they can be used. In a list of settings without names, what
is beyond the known ones does not matter. -/
def ofText (text : String) : Except Failure Settings :=
  match (Data.Toml.read text).bind (ofData? .ignored) with
  | none => .error .configParse
  | some settings => settings.validate.map fun _ => settings

/-- The settings in a file, given its bytes; a file that is missing or no text is refused. -/
def ofFile (content : Option ByteArray) : Except Failure Settings :=
  match content.bind String.fromUTF8? with
  | none => .error .io
  | some text => ofText text

/-- Settings given as JSON data, if they can be used. -/
def ofJson (d : Data) : Except Failure Settings :=
  match ofData? .refused d with
  | none => .error .serialization
  | some settings => settings.validate.map fun _ => settings

end Mastership.Settings
