import RouteAssets.Disk.Basic
import RouteAssets.Json.Reader
import RouteAssets.Notice
import RouteAssets.Usage

/-!
# Listed dependencies

A project may list the dependencies that its modules request in a JSON file: an object with a list
for each module. Members that are no lists are skipped, and items that are no texts are taken as
they are displayed. A file that is missing or malformed lists nothing.
-/

namespace RouteAssets.Usage

/-- Requested dependencies by module. -/
abbrev ByModule := Table ModuleId (List DepId)

/-- Adds dependencies to those of a module. -/
def addTo (table : ByModule) (m : ModuleId) (deps : List DepId) : ByModule :=
  table.insert m (addAll (table.getD m []) deps)

/-- Why a listing breaks off a build. -/
inductive ListingError where
  | encoding
  | numberTooLong
  | badPath
  deriving DecidableEq, Repr

/-- The dependencies that an object lists. -/
def ofMembers (members : List (String × Json)) : ByModule :=
  members.foldl
    (fun table (m, value) =>
      match value with
      | .array items => addTo table m (items.map Json.text)
      | _ => table)
    Table.empty

/-- The dependencies that a text lists, with notices about the file of the given name. -/
def ofText (path text : String) : Except ListingError (ByModule × List Notice) :=
  match Json.read text with
  | .ok (.object members) => .ok (ofMembers members, [])
  | .ok _ => .ok (Table.empty, [.usageFileNotObject path])
  | .error .malformed => .ok (Table.empty, [.usageFileUnreadable path])
  | .error .numberTooLong => .error .numberTooLong

/-- The dependencies that a file lists. -/
def load (d : Disk) (path : Path) : Except ListingError (ByModule × List Notice) :=
  match d.readText path with
  | .ok text => ofText path.toString text
  | .error .encoding => .error .encoding
  | .error (.disk .nulInPath) => .error .badPath
  | .error (.disk _) => .ok (Table.empty, [.usageFileUnreadable path.toString])

end RouteAssets.Usage
