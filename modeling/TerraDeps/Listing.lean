import TerraDeps.DependencyGraph
import TerraDeps.Inference
import TerraDeps.Json.Writer
import TerraDeps.Terminal

/-!
# Listings of dependencies

The dependencies of units are listed as text, with a branch for each dependency under its unit, or
as JSON. An inference listing goes through units as they come; a build order listing numbers the
units so that each stands after all it depends on.
-/

set_option autoImplicit false

namespace TerraDeps.Listing

/-- The line of an empty listing. -/
def nothingFound : String := "No build units found."

/-- The lines of branches under an entry, each after `indent`; the last has an angle. -/
def branches (indent : String) : List String → List String
  | [] => []
  | [last] => [indent ++ "└── " ++ last]
  | item :: rest => (indent ++ "├── " ++ item) :: branches indent rest

/-- The lines as one text, each with its end. -/
def ofLines (lines : List String) : String :=
  "".intercalate (lines.map fun line => line ++ "\n")

/-- An address as the heading of an entry. -/
def heading (color : Bool) (a : Address) : String :=
  Style.boldCyan.paint color a.display

/-- The lines for one unit. -/
def unitLines (color : Bool) (entry : Address × Dependencies) : List String :=
  let dependencies := entry.2.addresses.toList.map Address.display
  heading color entry.1 ::
    if dependencies.isEmpty then [Style.dimmed.paint color "(no dependencies)"]
    else branches "" dependencies

/-- The inference listing as text, with an empty line between units. -/
def inferredText (color : Bool) (inferred : List (Address × Dependencies)) : String :=
  if inferred.isEmpty then ofLines [nothingFound]
  else ofLines ([""].intercalate (inferred.map (unitLines color)))

/-- Addresses in JSON. -/
def addressesJson (addresses : List Address) : Json :=
  .array (addresses.map fun a => .string a.display)

/-- The inference listing in JSON. -/
def inferredJson (inferred : List (Address × Dependencies)) : Json :=
  .object [("units", .array (inferred.map fun (address, d) => .object [
    ("address", .string address.display),
    ("dependencies", addressesJson d.addresses.toList),
    ("sibling_dependencies_inferrable", .bool d.siblingsInferrable)]))]

/-- A number with spaces before it up to a width. -/
def padded (width n : Nat) : String :=
  let digits := toString n
  String.ofList (List.replicate (width - digits.length) ' ') ++ digits

/-- The lines for the unit with a number in the build order. -/
def orderLines (color : Bool) (g : DependencyGraph) (width : Nat) (entry : Address × Nat) :
    List String :=
  let indent := String.ofList (List.replicate (width + 2) ' ')
  (padded width entry.2 ++ ". " ++ heading color entry.1) ::
    branches indent ((g.directDependencies entry.1).map Address.display)

/-- The build order listing as text. -/
def orderText (color : Bool) (g : DependencyGraph) (order : List Address) : String :=
  if order.isEmpty then ofLines [nothingFound]
  else
    let width := (toString order.length).length
    ofLines ((order.zipIdx 1).flatMap (orderLines color g width))

/-- The build order listing in JSON. -/
def orderJson (g : DependencyGraph) (order : List Address) : Json :=
  .object [
    ("order", addressesJson order),
    ("units", .array (order.map fun a => .object [
      ("address", .string a.display),
      ("dependencies", addressesJson (g.directDependencies a))])),
    ("roots", addressesJson g.roots)]

/-- A JSON listing as it is printed. -/
def jsonText (j : Json) : String :=
  j.pretty ++ "\n"

end TerraDeps.Listing
