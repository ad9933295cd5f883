import Vellum.Lib.DateTime
import Vellum.Lib.FileSystem
import Vellum.Lib.Prog

/-!
# The archival of proof and evidence files

The file part of `vellum_core/maintenance.py`. Every access to the file system is a call of its
own, between which other cycles go on: the checks of the source, the time of its last change,
`mkdir`, the check of the target, the move and the symbolic link.

The candidates the database lists and the sorted listing of the evidence directory are arguments
of a cycle; the move stays on one device.
-/

namespace Vellum

open FileSystem

/-- A file by its content and the time of its last change. -/
structure StoredFile where
  content : String
  mtime : DateTime
deriving DecidableEq

/-- The accesses to the file system. -/
inductive FsCall where
  /-- `not (is_symlink() or not exists() or not is_file())` -/
  | isPlainFile (p : Pathname)
  /-- the time of the last change, of a file that has to be there -/
  | mtime (p : Pathname)
  /-- the time of the last change, or `none` where there is no file -/
  | mtime? (p : Pathname)
  | mkdir (p : Pathname)
  | pathExists (p : Pathname)
  | move (source target : Pathname)
  | symlink (p target : Pathname)

@[reducible] def FsCall.Resp : FsCall → Type
  | .isPlainFile _ => Bool
  | .mtime _ => DateTime
  | .mtime? _ => Option DateTime
  | .mkdir _ => Unit
  | .pathExists _ => Bool
  | .move _ _ => Unit
  | .symlink _ _ => Unit

/-- The answer to a call that changes the file system or fails. -/
def commit (fs : FileSystem StoredFile) (r : Except OSError (FileSystem StoredFile)) :
    Except OSError Unit × FileSystem StoredFile :=
  match r with
  | .ok fs' => (.ok (), fs')
  | .error e => (.error e, fs)

/-- What a call does, for processes with the working directory `cwd`. -/
def answerFs (cwd : Location) :
    (c : FsCall) → FileSystem StoredFile → Except OSError c.Resp × FileSystem StoredFile
  | .isPlainFile p, fs =>
    (.ok (!(fs.lstat cwd p matches some (.link _)) && (fs.stat cwd p matches some (.file _))), fs)
  | .mtime p, fs =>
    (match fs.read cwd p with
      | some file => .ok file.mtime
      | none => .error .notFound, fs)
  | .mtime? p, fs => (.ok ((fs.read cwd p).map StoredFile.mtime), fs)
  | .mkdir p, fs => commit fs (fs.mkdirs cwd p)
  | .pathExists p, fs => (.ok (fs.stat cwd p).isSome, fs)
  | .move source target, fs => commit fs (fs.move cwd source target)
  | .symlink p target, fs => commit fs (fs.symlink cwd p target)

abbrev FsProg := Prog FsCall.Resp OSError

namespace FsProg

def isPlainFile (p : Pathname) : FsProg Bool := Prog.call (FsCall.isPlainFile p)
def mtime (p : Pathname) : FsProg DateTime := Prog.call (FsCall.mtime p)
def mtime? (p : Pathname) : FsProg (Option DateTime) := Prog.call (FsCall.mtime? p)
def mkdir (p : Pathname) : FsProg Unit := Prog.call (FsCall.mkdir p)
def pathExists (p : Pathname) : FsProg Bool := Prog.call (FsCall.pathExists p)
def move (source target : Pathname) : FsProg Unit := Prog.call (FsCall.move source target)
def symlink (p target : Pathname) : FsProg Unit := Prog.call (FsCall.symlink p target)

end FsProg

/-- Where the files are: `proof_output_dir`, and the working directory of the processes. -/
structure ArchiveSettings where
  cwd : Location
  root : Pathname

namespace ArchiveSettings

variable (st : ArchiveSettings)

def archiveRoot (bucket : String) : Pathname := st.root.child ["archive", bucket]

/-- The directory of a month. -/
def targetDir (bucket : String) (ts : DateTime) : Pathname :=
  (st.archiveRoot bucket).child [toString ts.year, String.ofList (DateTime.pad2 ts.month)]

/-- `target_dir / source.name`. -/
def target (bucket : String) (source : Pathname) (ts : DateTime) : Pathname :=
  (st.targetDir bucket ts).child [source.parts.getLastD ""]

/-- `_archive_path`. -/
def archivePath (source : Pathname) (bucket : String) : FsProg Bool := do
  let plain ← FsProg.isPlainFile source
  if plain = false then return false
  else if source.isRelativeTo st.root = false then return false
  else if source.isRelativeTo (st.archiveRoot bucket) = true then return false
  else
    let ts ← FsProg.mtime source
    FsProg.mkdir (st.targetDir bucket ts)
    let taken ← FsProg.pathExists (st.target bucket source ts)
    if taken = true then return false
    else
      FsProg.move source (st.target bucket source ts)
      FsProg.symlink source (Pathname.relpath st.cwd (st.target bucket source ts) source.parent)
      return true

/-- The loop over the candidates, with the number archived so far. -/
def archiveProofs : List Pathname → ℕ → FsProg ℕ
  | [], archived => return archived
  | source :: rest, archived => do
    let done ← st.archivePath source "proofs"
    archiveProofs rest (if done = true then archived + 1 else archived)

/-- `_archive_evidence_files` on a listing. -/
def archiveEvidence (olderThan : DateTime → Bool) (maxFiles : ℕ) : List Pathname → ℕ → FsProg ℕ
  | [], archived => return archived
  | source :: rest, archived =>
    if archived ≥ maxFiles then return archived
    else do
      let modified ← FsProg.mtime? source
      if modified.any olderThan = true then
        let done ← st.archivePath source "evidence"
        archiveEvidence olderThan maxFiles rest (if done = true then archived + 1 else archived)
      else archiveEvidence olderThan maxFiles rest archived

/-- The file part of `run_maintenance_cycle`. -/
def fileCycle (candidates : List Pathname) (olderThan : DateTime → Bool) (maxFiles : ℕ)
    (evidence : List Pathname) : FsProg (ℕ × ℕ) := do
  let proofFiles ← st.archiveProofs candidates 0
  let evidenceFiles ← st.archiveEvidence olderThan maxFiles evidence 0
  return (proofFiles, evidenceFiles)

end ArchiveSettings

/-- The semantics of a call. -/
def fsSem (cwd : Location) (c : FsCall) (fs : FileSystem StoredFile) (a : Except OSError c.Resp)
    (fs' : FileSystem StoredFile) : Prop :=
  answerFs cwd c fs = (a, fs')

/-- The file system and the cycles in progress. -/
abbrev ArchivePool := Pool (FileSystem StoredFile) FsCall.Resp OSError (ℕ × ℕ)

/-- Any number of cycles, on any candidates. -/
def fileCycles (st : ArchiveSettings) : Set (FsProg (ℕ × ℕ)) :=
  {p | ∃ candidates olderThan maxFiles evidence, p = st.fileCycle candidates olderThan maxFiles evidence}

/-- A step of the periodic runner, of a Celery task, or a crash of one. -/
def ArchiveStep (st : ArchiveSettings) (s s' : ArchivePool) : Prop :=
  ∃ act, Pool.Step (fsSem st.cwd) (fileCycles st) s act s'

end Vellum
