import CjsInterop.Path
import CjsInterop.Platform

/-! What a bundler says about the bundle that chunks belong to, and which bundles can be rewritten. -/

namespace CjsInterop

inductive OutputFormat where
  | esm
  | cjs
  | iife
  deriving DecidableEq, Repr

def OutputFormat.name : OutputFormat → Text
  | esm => "esm"
  | cjs => "cjs"
  | iife => "iife"

structure Bundle where
  cwd : Path
  platform : Platform := .node
  format : OutputFormat := .esm
  /-- The directory that chunks are written to. -/
  dir? : Option Path := none
  /-- The file that a bundle of a single chunk is written to. -/
  file? : Option Path := none
  wantMap : Bool := false
  deriving DecidableEq, Repr

/-- Why a bundle cannot be rewritten at all. -/
inductive BundleError where
  | unsupportedPlatform (platform : Platform)
  | unsupportedFormat (format : OutputFormat)
  deriving DecidableEq, Repr

def BundleError.message : BundleError → Text
  | unsupportedPlatform p =>
    "`require-cjs` only works with the `node` platform, but the build targets `".toList ++ p.name ++ "`.".toList
  | unsupportedFormat f =>
    "`require-cjs` only works with `esm` output, but the output format is `".toList ++ f.name ++ "`.".toList

namespace Bundle

/-- Only ES modules hold imports, and only one platform has `require`. -/
def check (bundle : Bundle) : Except BundleError Unit :=
  if bundle.format ≠ .esm then .error (.unsupportedFormat bundle.format)
  else if bundle.platform ≠ .node then .error (.unsupportedPlatform bundle.platform)
  else .ok ()

/-- Where a chunk will be, read in the directory `cwd`. -/
def chunkPath (bundle : Bundle) (cwd : Path) (fileName : Text) : Path :=
  Path.absolutize cwd <|
    match bundle.file?, bundle.dir? with
    | some file, _ => file
    | none, some dir => Path.join dir fileName
    | none, none => fileName

end Bundle
end CjsInterop
