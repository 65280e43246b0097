import PageRefresh.Config.Basic
import PageRefresh.Toml.Document

/-!
The configuration as a TOML document.

The document has a table `refresh` with the fields that are set; keys of other names are ignored.
The table may also be an array of its fields in order, of which further items are ignored, and the
policy a table with the policy's name for its one key and an empty table for its value. A date, as a
value that has parts, passes for a table without a known key.
-/

namespace PageRefresh

/-- The interval, in seconds. -/
def Toml.Node.interval? : Toml.Node → Option UInt64
  | .scalar (.integer n) => if 0 ≤ n then some (UInt64.ofNat n.toNat) else none
  | _ => none

/-- Whether a value holds other values, but none. -/
def Toml.Node.isEmpty : Toml.Node → Bool
  | .array items => items.isEmpty
  | .inline _ members => members.isEmpty
  | .table _ members => members.isEmpty
  | .tables items => items.isEmpty
  | _ => false

def Toml.Node.policy? : Toml.Node → Option BroadcastPolicy
  | .string s => BroadcastPolicy.ofName? s
  | .inline _ [(key, value)] => if value.isEmpty then BroadcastPolicy.ofName? key else none
  | .table _ [(key, value)] => if value.isEmpty then BroadcastPolicy.ofName? key else none
  | _ => none

/-- A field that may be missing; one that is there must be of its kind. -/
def optionalField {α : Type} (decode : Toml.Node → Option α) : Option Toml.Node → Option (Option α)
  | none => some none
  | some node => (decode node).map some

namespace Config

/-- A configuration whose fields have these values. -/
def ofNodes? (interval policy : Option Toml.Node) : Option Config :=
  match optionalField Toml.Node.interval? interval, optionalField Toml.Node.policy? policy with
  | some interval, some policy => some ⟨interval, policy⟩
  | _, _ => none

/-- The table `refresh`, given by its entries. -/
def ofMembers? (members : Toml.Members) : Option Config :=
  ofNodes? (members.get? "interval_secs") (members.get? "broadcast_policy")

def ofRefresh? : Toml.Node → Option Config
  | .table _ members => ofMembers? members
  | .inline _ members => ofMembers? members
  | .array items => ofNodes? items[0]? items[1]?
  | .tables items =>
      ofNodes? (items[0]?.map (.table .explicit)) (items[1]?.map (.table .explicit))
  | .scalar (.datetime _) => some empty
  | _ => none

def ofDocument? (root : Toml.Members) : Option Config :=
  match root.get? "refresh" with
  | none => some empty
  | some node => ofRefresh? node

def ofToml? (text : String) : Option Config :=
  (Toml.read text).bind ofDocument?

end Config

end PageRefresh
