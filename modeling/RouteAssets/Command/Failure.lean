import RouteAssets.Build.Step
import RouteAssets.Chunk.Bundle
import RouteAssets.Config.Loading
import RouteAssets.Watch.Service

/-!
# Failures of the command

A failure that the user can mend has a report: a project that is no directory, a bundle description
that is no such thing, a text that is no text, a name that no file can have. The command prints it
and ends in order. Every other failure, among them a setting of the wrong kind and a disk that
refuses, ends the command where it arises.
-/

namespace RouteAssets.Command

/-- Why the command cannot go on. -/
inductive Failure where
  | config (e : Config.LoadError)
  | misfit (m : Misfit)
  | options (e : OptionsError)
  | bundle (e : BundleError)
  | build (f : BuildFault)
  | emission (e : TextError)
  | watch (e : Watch.ServiceError)
  deriving DecidableEq, Repr

/-- The report for a text that cannot be decoded. -/
def encodingReport : String := "the text is not valid UTF-8"

/-- The report for a number with too many digits. -/
def numberReport : String := "a number has too many digits"

/-- The report for a path that no disk can hold. -/
def pathReport : String := "embedded null byte"

/-- The report for a disk that refuses. -/
def diskReport? : DiskError → Option String
  | .nulInPath => some pathReport
  | _ => none

/-- The report for a bundle without a description. -/
def bundleReport? : BundleError → Option String
  | .encoding => some encodingReport
  | .numberTooLong => some numberReport
  | .badPath => some pathReport
  | e => e.message?

/-- The report for a specifier that cannot be looked up. -/
def lookupReport? : Lookup.Error → Option String
  | .emptyName => some Lookup.Error.emptyName.message
  | .invalidName name => some (Lookup.Error.invalidName name).message
  | .disk e _ => diskReport? e
  | .noPackages => none

/-- The report for listed usages that cannot be read. -/
def listingReport : Usage.ListingError → String
  | .encoding => encodingReport
  | .numberTooLong => numberReport
  | .badPath => pathReport

/-- The report for a step that fails. -/
def buildReport? : BuildFault → Option String
  | .closed c => some c.message
  | .lookup e => lookupReport? e
  | .disk e => diskReport? e
  | .listing e => some (listingReport e)
  | .endlessRoutes => none
  | .misfit _ => none

/-- The report for outputs that cannot be written. -/
def emissionReport? : TextError → Option String
  | .encoding => some encodingReport
  | .disk e => diskReport? e

/-- The report for a failure, if the user can mend it. -/
def Failure.report? : Failure → Option String
  | config _ => none
  | misfit _ => none
  | options e => e.message?
  | bundle e => bundleReport? e
  | build f => buildReport? f
  | emission e => emissionReport? e
  | watch _ => none

end RouteAssets.Command
