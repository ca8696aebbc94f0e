import Gateware.Action
import Gateware.Compile.Context
import Gateware.Files.Tree

/-!
# Writing the artifact

The description is written to a file named for the top-level unit.  If the compilation has been
cancelled meanwhile, the file is removed again.
-/

namespace Gateware

/-- Why the artifact could not be written. -/
inductive ArtifactError where
  | noDescription
  | unsupportedLanguage (language : HardwareLanguage)
  | write (path : String) (error : FileError)
  | remove (path : String) (error : FileError)
deriving Repr, DecidableEq

/-- The message of an artifact error. -/
def ArtifactError.message : ArtifactError → String
  | noDescription => "no hardware description to build"
  | unsupportedLanguage language =>
    s!"the VHDL build provider cannot build {language.name} sources"
  | write path error => s!"failed to write '{path}': {error.message}"
  | remove path error => s!"failed to remove '{path}' after cancellation: {error.message}"

/-- The description to write, which has to be in VHDL. -/
def Context.buildable (c : Context) : Except ArtifactError Description :=
  match c.description with
  | none => .error .noDescription
  | some d => if d.language == .vhdl then .ok d else .error (.unsupportedLanguage d.language)

/-- Changes the files beside a context. -/
def changeFiles (change : FileTree → FileTree × Except FileError Unit)
    (wrap : FileError → ArtifactError) : Action (Context × FileTree) ArtifactError Unit :=
  fun k =>
    let done := change k.2
    ((k.1, done.1), .ofExcept (done.2.mapError wrap))

/-- Writes the artifact of a compilation.  Directories stay where they were made, also if the
innermost one could not be made or the file could not be written. -/
def Context.writeArtifact (cancelled : Bool) :
    Action (Context × FileTree) ArtifactError Unit := do
  let (c, _) ← .get
  let d ← .lift (.ofExcept c.buildable)
  let directory := c.request.outputDir
  changeFiles (·.makeDirectories directory) (.write directory)
  let path := c.artifactPath
  changeFiles (fun files => files.settle (files.write path d.source)) (.write path)
  if cancelled then
    changeFiles (fun files => files.settle (files.remove path)) (.remove path)
    .note .artifact .info s!"build cancelled; removed {path}"
  else
    let checksum := d.fingerprint
    .note .artifact .info s!"wrote {path} ({d.source.utf8ByteSize} bytes, {checksum.short})"
    .modify fun (c, files) => ({ c with implementation := some ⟨path, checksum⟩ }, files)

end Gateware
