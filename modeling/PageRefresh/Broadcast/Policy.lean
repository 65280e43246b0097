import PageRefresh.Error
import PageRefresh.Text.Blank
import PageRefresh.Text.Lowercase

/-!
Reading a failure policy as a user writes it: white space around the name and the case of its
letters do not count.
-/

namespace PageRefresh

def BroadcastPolicy.read (text : String) : Except ConfigError BroadcastPolicy :=
  match ofName? (String.ofList (Text.lowercase (Text.trimBlanks text.toList))) with
  | some policy => .ok policy
  | none => .error (.invalidPolicy text)

end PageRefresh
