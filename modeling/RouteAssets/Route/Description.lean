import RouteAssets.Json.Validation
import RouteAssets.Route.Basic

/-!
# Described routes

A route as it is described by a JSON object.
-/

namespace RouteAssets.Route

open RouteAssets.Json

/-- The route that an object describes, or all that is wrong with the description. -/
def ofJson : Json → Checked Route
  | .object ms =>
    let path := required checkText ms ["path"]
    let fullPath := required checkText ms ["full_path"]
    let entry := optional checkTextOrNull none ms ["entry_module_id"]
    let isDynamic := optional checkTruth false ms ["is_dynamic"]
    let component := optional checkTextOrNull none ms ["component_identifier"]
    match path, fullPath, entry, isDynamic, component with
    | .ok path, .ok fullPath, .ok entry, .ok isDynamic, .ok component =>
      .ok { path, fullPath, entry, isDynamic, component }
    | _, _, _, _, _ =>
      .error (violations path ++ violations fullPath ++ violations entry ++ violations isDynamic ++
        violations component)
  | _ => fault .notObject

end RouteAssets.Route
