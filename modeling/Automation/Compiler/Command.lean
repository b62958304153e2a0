import Automation.Compiler.Basic
import Automation.Tool

/-
A compiler that is a tool.

The tool is called with its own first words, the path of the source, `--out` with the path of the
artifact, and `--reference` for each library.  A tool that reports an error did its work; one that
fails without reporting anything, or leaves no artifact, did not.
-/

namespace Automation

/-- The time a tool may take and the bytes kept of its outputs, with its first words. -/
structure CommandCompiler where
  command : List String
  timeoutSecs : Nat
  outputLimit : Nat
deriving Repr, DecidableEq

namespace CommandCompiler

def ofConfig (c : CompilerConfig) : CommandCompiler :=
  ⟨c.command, c.timeoutSecs, c.outputLimitBytes⟩

/-- Where the source is put for the tool. -/
def sourcePath (request : CompileRequest) : Path := request.outputPath.append ".src"

/-- The order for the tool. -/
def order (c : CommandCompiler) (program : String) (words : List String)
    (request : CompileRequest) : ToolOrder :=
  { program := program
    arguments := words ++ [(sourcePath request).text, "--out", request.outputPath.text] ++
      request.references.flatMap fun reference => ["--reference", reference]
    timeoutMillis := c.timeoutSecs * 1000
    outputLimit := c.outputLimit }

/-- What the outputs of a tool amount to; the flag says whether there is an artifact. -/
def judge (c : CommandCompiler) (request : CompileRequest) (output : ToolOutput)
    (hasArtifact : Bool) : Except Failure (List RawDiagnostic) :=
  if output.timedOut then .error (.ofCause (.timedOut c.timeoutSecs))
  else
    let ds := parseDiagnostics (Text.lossy output.stdout)
    if hasErrors ds then .ok ds
    else if !output.success then
      .error (.ofCause (.compilerFailed output.code? (Text.trim (Text.lossy output.stderr))))
    else if !hasArtifact then .error (.ofCause (.noArtifact request.outputPath))
    else .ok ds

end CommandCompiler

/-- The compiler that runs a tool. -/
def Compiler.command {τ : Type} (run : ToolRunner τ) (c : CommandCompiler) : Compiler τ :=
  fun request => do
    match c.command with
    | [] => pure (.error (.ofCause .emptyCommand))
    | program :: words =>
        let path := CommandCompiler.sourcePath request
        let source := request.source.toUTF8
        match ← Act.task (FileTask.during (.writeSource path)
            (FileAction.perform (.write path source))) with
        | .error f => pure (.error f)
        | .ok _ =>
            let result ← run (c.order program words request)
            match ← Act.task (ArtifactStore.removeIfExists path) with
            | .error f => pure (.error f)
            | .ok _ =>
                match result with
                | .error f => pure (.error (f.within .runCompiler))
                | .ok output =>
                    let hasArtifact ←
                      Act.files (FileAction.observe (·.isFile request.outputPath))
                    pure (c.judge request output hasArtifact)

end Automation
