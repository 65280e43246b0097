import PageRefresh.Config.Basic
import PageRefresh.Json.Value
import PageRefresh.Poller

/-!
The configuration and its parts as JSON.

A configuration is an object with the section `refresh`, which holds the fields that are set. Read
back, fields may be missing, null or in any order, and members of other names are ignored, but a
field may not be there twice. A section may also be an array of its fields in order. A name such as
a policy's is a string, or an object whose one member has that name and is null.
-/

namespace PageRefresh

/-- A value that is one of some names. -/
def Json.name? : Json → Option String
  | .string text => text
  | .object [(name, .null)] => name
  | _ => none

def BroadcastPolicy.ofJson? (j : Json) : Option BroadcastPolicy :=
  j.name?.bind ofName?

def BroadcastKind.ofJson? (j : Json) : Option BroadcastKind :=
  j.name?.bind ofName?

def RunState.ofJson? (j : Json) : Option RunState :=
  j.name?.bind ofName?

/-- A field that may be null, in which case nothing is set. -/
def Json.nullable {α : Type} (decode : Json → Option α) : Json → Option (Option α)
  | .null => some none
  | j => (decode j).map some

/-- A whole number of 64 bits. -/
def Json.word? : Json → Option UInt64
  | .nat n => if n < UInt64.size then some (UInt64.ofNat n) else none
  | _ => none

def Json.valuesOf (name : String) (members : List (Option String × Json)) : List Json :=
  members.filterMap fun (n, value) => if n = some name then some value else none

/-- A field of an object, which may be missing but not be there twice. -/
def Json.fieldOf {α : Type} (default : α) (decode : Json → Option α) (name : String)
    (members : List (Option String × Json)) : Option α :=
  match Json.valuesOf name members with
  | [] => some default
  | [value] => decode value
  | _ => none

/-- Whether every member's name denotes a text. -/
def Json.named (members : List (Option String × Json)) : Bool :=
  members.all fun (name, _) => name.isSome

namespace Config

/-- The two fields of the section `refresh`. -/
def ofFields? (interval : Option (Option UInt64)) (policy : Option (Option BroadcastPolicy)) :
    Option Config :=
  match interval, policy with
  | some interval, some policy => some ⟨interval, policy⟩
  | _, _ => none

def ofSection? : Json → Option Config
  | .object members =>
      if Json.named members then
        ofFields? (Json.fieldOf none (Json.nullable Json.word?) "interval_secs" members)
          (Json.fieldOf none (Json.nullable BroadcastPolicy.ofJson?) "broadcast_policy" members)
      else none
  | .array [] => some empty
  | .array [interval] => ofFields? (Json.nullable Json.word? interval) (some none)
  | .array [interval, policy] =>
      ofFields? (Json.nullable Json.word? interval)
        (Json.nullable BroadcastPolicy.ofJson? policy)
  | _ => none

def ofJson? : Json → Option Config
  | .object members =>
      if Json.named members then Json.fieldOf empty ofSection? "refresh" members else none
  | .array [] => some empty
  | .array [refresh] => ofSection? refresh
  | _ => none

/-- The section `refresh`: the fields that are set. -/
def sectionJson (c : Config) : Json :=
  .ofMembers
    ((c.intervalSecs.map fun secs => ("interval_secs", Json.nat secs.toNat)).toList ++
      (c.policy.map fun policy => ("broadcast_policy", Json.text policy.name)).toList)

def toJson (c : Config) : Json :=
  .ofMembers [("refresh", c.sectionJson)]

end Config

end PageRefresh
