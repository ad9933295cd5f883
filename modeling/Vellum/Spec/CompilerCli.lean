import Vellum.Lib.FileWrite
import Vellum.Lib.JsonLoads
import Vellum.Spec.Compiler

/-!
# The compiler's command line

`vellum_core/policy_compiler/cli.py` with `drift.py` and `manifest.py`: the artifacts of a spec are
written to the repository, the manifest beside the spec takes the metadata, and `check-drift` compares
both with what the compiler yields. Files hold bytes; reading in text mode decodes them and turns every
line ending into `\n`. The spec is given as `load_policy_spec` yields it, and what is printed is left
out.
-/

namespace Vellum

abbrev Repository := FileSystem ByteArray

/-- What ends a command with an exception. -/
inductive CliError where
  | osError (e : FileSystem.OSError)
  | unicodeDecodeError
  | valueError
  | frameworkError (e : FrameworkError)

/-! ## Text files -/

/-- `path.read_text(encoding="utf-8")`, with universal newlines. -/
def readText (cwd : Location) (fs : Repository) (path : Pathname) : Except CliError (List Char) :=
  match fs.read cwd path with
  | none => .error (.osError .notFound)
  | some data =>
    match String.fromUTF8? data with
    | none => .error .unicodeDecodeError
    | some text => .ok (universalNewlines text.toList)

/-- `path.write_text(text, encoding="utf-8")`. -/
def writeText (cwd : Location) (fs : Repository) (path : Pathname) (text : String) : Except CliError Repository :=
  (fs.write cwd path text.toUTF8).mapError .osError

/-- `path.mkdir(parents=True, exist_ok=True)`. -/
def mkdirParents (cwd : Location) (fs : Repository) (path : Pathname) : Except CliError Repository :=
  (fs.mkdirs cwd path).mapError .osError

/-! ## `manifest.py` -/

/-- `CompilerMetadata`. -/
structure CompilerMetadata where
  specVersion : String
  compilerVersion : String
  generatedFromHash : String
  generatedPythonPath : String
  generatedCircomPath : String
  generatedDebugTracePath : String

/-- `as_dict`. -/
def CompilerMetadata.asDict (m : CompilerMetadata) : List (String × String) :=
  [("spec_version", m.specVersion), ("compiler_version", m.compilerVersion),
    ("generated_from_hash", m.generatedFromHash), ("generated_python_path", m.generatedPythonPath),
    ("generated_circom_path", m.generatedCircomPath), ("generated_debug_trace_path", m.generatedDebugTracePath)]

/-- `build_compiler_metadata`. -/
def buildCompilerMetadata (spec : PolicyDSLSpec) (artifacts : CompilerArtifacts) : CompilerMetadata where
  specVersion := spec.specVersion
  compilerVersion := spec.compilerVersion
  generatedFromHash := artifacts.specHash
  generatedPythonPath := spec.generatedPythonPath
  generatedCircomPath := spec.generatedCircomPath
  generatedDebugTracePath := spec.generatedDebugTracePath

def compilerMetadataKey : List ℕ := PyJson.ofString "compiler_metadata"

/-- `manifest.get("compiler_metadata") == metadata.as_dict()`. -/
def isCurrent (manifest : List (List ℕ × PyJson)) (metadata : CompilerMetadata) : Bool :=
  match manifest.lookup compilerMetadataKey with
  | some current => current.eqStrings metadata.asDict
  | none => false

/-- `json.dumps(manifest, indent=2) + "\n"` with the metadata in the manifest. -/
def manifestText (manifest : List (List ℕ × PyJson)) (metadata : CompilerMetadata) : String :=
  String.ofList ((PyJson.obj (PyJson.setField manifest compilerMetadataKey
    (PyJson.ofStrings metadata.asDict))).renderIndent 0) ++ "\n"

/-- `sync_manifest_compiler_metadata`: a manifest that is missing, no JSON, no object or up to date is
left as it is. -/
def syncManifestCompilerMetadata (F : PyJson.FloatReader) (cwd : Location) (manifestPath : Pathname)
    (metadata : CompilerMetadata) (fs : Repository) : Except CliError (Repository × Bool) :=
  if (fs.stat cwd manifestPath).isNone then .ok (fs, false)
  else do
    let text ← readText cwd fs manifestPath
    match PyJson.loads F text with
    | .error .decodeError => return (fs, false)
    | .error .valueError => .error .valueError
    | .ok (.obj manifest) =>
      if isCurrent manifest metadata then return (fs, false)
      else return (← writeText cwd fs manifestPath (manifestText manifest metadata), true)
    | .ok _ => return (fs, false)

/-- `manifest_metadata_matches`. -/
def manifestMetadataMatches (F : PyJson.FloatReader) (cwd : Location) (manifestPath : Pathname)
    (expected : CompilerMetadata) (fs : Repository) : Except CliError Bool := do
  let text ← readText cwd fs manifestPath
  match PyJson.loads F text with
  | .error .decodeError => return false
  | .error .valueError => .error .valueError
  | .ok (.obj manifest) => return isCurrent manifest expected
  | .ok _ => return false

/-! ## `drift.py` -/

/-- The pathnames of the three artifacts. -/
def artifactPaths (repoRoot : Pathname) (spec : PolicyDSLSpec) : Pathname × Pathname × Pathname :=
  (repoRoot.join spec.generatedPythonPath, repoRoot.join spec.generatedCircomPath,
    repoRoot.join spec.generatedDebugTracePath)

/-- `write_generated_artifacts`. -/
def writeGeneratedArtifacts (cwd : Location) (repoRoot : Pathname) (spec : PolicyDSLSpec)
    (artifacts : CompilerArtifacts) (fs : Repository) : Except CliError Repository := do
  let (pythonPath, circomPath, debugTracePath) := artifactPaths repoRoot spec
  let fs ← mkdirParents cwd fs pythonPath.parent
  let fs ← mkdirParents cwd fs circomPath.parent
  let fs ← mkdirParents cwd fs debugTracePath.parent
  let fs ← writeText cwd fs pythonPath artifacts.pythonSource
  let fs ← writeText cwd fs circomPath artifacts.circomSource
  writeText cwd fs debugTracePath artifacts.debugTraceSource

/-- `check_drift`. -/
def checkDrift (F : PyJson.FloatReader) (cwd : Location) (repoRoot : Pathname) (spec : PolicyDSLSpec)
    (artifacts : CompilerArtifacts) (manifestPath : Option Pathname) (fs : Repository) : Except CliError Bool := do
  let (pythonPath, circomPath, debugTracePath) := artifactPaths repoRoot spec
  if (fs.stat cwd pythonPath).isNone ∨ (fs.stat cwd circomPath).isNone ∨ (fs.stat cwd debugTracePath).isNone then
    return false
  let committedPython ← readText cwd fs pythonPath
  let committedCircom ← readText cwd fs circomPath
  let committedDebugTrace ← readText cwd fs debugTracePath
  if ¬ (committedPython = artifacts.pythonSource.toList ∧ committedCircom = artifacts.circomSource.toList ∧
      committedDebugTrace = artifacts.debugTraceSource.toList) then
    return false
  match manifestPath with
  | none => return true
  | some manifestPath =>
    if (fs.stat cwd manifestPath).isNone then return true
    else manifestMetadataMatches F cwd manifestPath (buildCompilerMetadata spec artifacts) fs

/-! ## `main` -/

inductive Command where
  | validate
  | generate (printMetadataJson : Bool)
  | checkDrift
deriving DecidableEq

structure CompilerArgs where
  command : Command
  specPath : Pathname
  repoRoot : Pathname

/-- `args.spec_path.parent / "manifest.json"`. -/
def CompilerArgs.manifestPath (args : CompilerArgs) : Pathname := args.specPath.parent.child ["manifest.json"]

/-- `path.relative_to(repo_root)`. -/
def relativeTo (path repoRoot : Pathname) : Except CliError Unit :=
  if path.isRelativeTo repoRoot then .ok () else .error .valueError

/-- `main` with the spec that was loaded: the repository it leaves, and the exit code. -/
def main (F : PyJson.FloatReader) (sha256 : String → String) (cwd : Location) (args : CompilerArgs)
    (spec : PolicyDSLSpec) (fs : Repository) : Except CliError (Repository × ℕ) :=
  if args.command = .validate then .ok (fs, 0)
  else do
    let artifacts ← (generatePolicyArtifacts sha256 spec).mapError .frameworkError
    let metadata := buildCompilerMetadata spec artifacts
    match args.command with
    | .validate => return (fs, 0)
    | .generate printMetadataJson =>
      let fs ← writeGeneratedArtifacts cwd args.repoRoot spec artifacts fs
      let (fs, _) ← syncManifestCompilerMetadata F cwd args.manifestPath metadata fs
      if printMetadataJson then
        let (pythonPath, circomPath, debugTracePath) := artifactPaths args.repoRoot spec
        relativeTo pythonPath args.repoRoot
        relativeTo circomPath args.repoRoot
        relativeTo debugTracePath args.repoRoot
      return (fs, 0)
    | .checkDrift =>
      let current ← checkDrift F cwd args.repoRoot spec artifacts (some args.manifestPath) fs
      return (fs, if current then 0 else 1)

end Vellum
