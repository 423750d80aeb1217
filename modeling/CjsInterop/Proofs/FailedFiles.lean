import CjsInterop.Proofs.FileOrder

/-! The files of a run that fail. A failed file leaves all others and its map as they were, itself too if it could not
be read, understood or written, and the others become what they become without it. -/

namespace CjsInterop.Command

/-! ## Outcomes -/

/-- The reports on the files that did not fail, in the order of the files. -/
def reports (outcomes : List (Path × FileOutcome)) : List Report :=
  outcomes.filterMap fun
    | (_, .done report) => some report
    | _ => none

namespace Job

variable {job : Job} {s : State} {file : Path} {failure : FileFailure}

variable {front back files : List Path}

/-- None of the files ended the run. -/
def Fits (outcomes : List (Path × FileOutcome)) : Prop := ∀ e ∈ outcomes, e.2 ≠ .broken

variable {before after : List (Path × FileOutcome)} {outcome : FileOutcome}

end Job

/-! ## Runs -/

variable {lock : Location → Option FileError} {disk : Disk} {here : Path} {a : Arguments} {options : Options}

end CjsInterop.Command
