import CjsInterop.Binary64
import CjsInterop.Bundle
import CjsInterop.Files

/-! What a run says: a line for each file when all went well, and else what went wrong. -/

namespace CjsInterop.Command

/-- A file that was looked at, under its name as a chunk. -/
structure Report where
  name : Text
  /-- The bytes that the file has now. -/
  size : Nat
  rewritten : Bool
  deriving DecidableEq, Repr

/-- Why a file was not rewritten. -/
inductive FileFailure where
  | unread (error : FileError)
  | noModule
  | unwritten (error : FileError)
  | mapUnwritten (error : FileError)
  deriving DecidableEq, Repr

inductive RunError where
  | unreadConfig (file : Path) (error : FileError)
  | invalidConfig (file : Path)
  | bundle (error : BundleError)
  | file (file : Path) (failure : FileFailure)
  deriving DecidableEq, Repr

/-! ## Texts -/

def phrase (parts : List Text) : Text := parts.flatten

def RunError.message : RunError → Text
  | unreadConfig path error => phrase ["Failed to read config ", path, ": ", error.message]
  | invalidConfig path => phrase ["Invalid config ", path]
  | bundle error => error.message
  | file path failure =>
    phrase ["Failed to rewrite ", path] ++
      match failure with
      | .unread error => phrase [": Failed to read ", path, ": ", error.message]
      | .noModule => []
      | .unwritten error => phrase [": Failed to write ", path, ": ", error.message]
      | .mapUnwritten error =>
        phrase [": Failed to write source map for ", path, ": ", error.message]

/-- Text in a colour of the terminal. -/
def painted (colour : String) (text : Text) : Text :=
  phrase ["\x1b[", colour, "m", text, "\x1b[0m"]

def RunError.line (error : RunError) : Text :=
  phrase [painted "31" "Error:", " ", error.message]

/-- A size in units of 1024 bytes with two places; a tie goes to the even neighbour. -/
def sizeText (bytes : Nat) : Text :=
  let hundredths := Binary64.roundQuotient (bytes * 100) 1024
  let places := Nat.toDigits 10 (hundredths % 100)
  phrase [Nat.toDigits 10 (hundredths / 100), ".", List.replicate (2 - places.length) '0', places]

def blanks (n : Nat) : Text := List.replicate n ' '

/-- The line of a report, its name and its size filled up to the given widths. -/
def Report.line (nameWidth sizeWidth : Nat) (r : Report) : Text :=
  let size := sizeText r.size
  phrase [
    painted "2;37" "<DIR>/", painted "36" r.name, blanks (nameWidth - Text.byteLength r.name), " ",
    painted "2;37" (if r.rewritten then "rewritten" else "unchanged"), painted "2;37" " │ size: ",
    blanks (sizeWidth - size.length), size, " kB"]

/-- All lines about a run that took `elapsed`. -/
def reportLines (reports : List Report) (elapsed : Text) : List Text :=
  let widest (width : Report → Nat) : Nat := (reports.map width).foldl max 0
  let nameWidth := widest fun r => Text.byteLength r.name
  let sizeWidth := widest fun r => (sizeText r.size).length
  reports.map (Report.line nameWidth sizeWidth) ++
    [[], phrase [painted "32" "✔", " Finished in ", elapsed]]

end CjsInterop.Command
