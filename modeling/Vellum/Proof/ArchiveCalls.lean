import Vellum.Spec.Maintenance

/-!
# A call that archives one file

`_archive_path` on a file that lies where its row says, over plain directories.

* `archivePath_archives`: a file whose place in the archive is free is archived.
* `archivePath_keeps`: another one stays where it is.
-/

namespace Vellum

open FileSystem Prog

/-- A row with its proof file: the directories from the root on, the name and what is stored. -/
structure StoredProof where
  job : ProofJob
  dirs : List String
  name : String
  file : StoredFile

namespace StoredProof

/-- The names from the root to the file. -/
def place (e : StoredProof) : List String := e.dirs ++ [e.name]

/-- The names from the root to the directory of its month in the archive. -/
def monthDir (e : StoredProof) : List String :=
  ["archive", "proofs", toString e.file.mtime.year, String.ofList (DateTime.pad2 e.file.mtime.month)]

/-- The names from the root to its place in the archive. -/
def archivePlace (e : StoredProof) : List String := e.monthDir ++ [e.name]

end StoredProof

variable {st : MaintenanceSettings} {base : Location} {fs fs' : FileSystem StoredFile} {e e' : StoredProof}

/-! ## Names that are no dots -/

theorem digit_ne_dot (n : ℕ) : DateTime.digit n ≠ '.' := by
  have hall : ∀ d < 10, Nat.digitChar d ≠ '.' := by decide
  exact hall _ (Nat.mod_lt _ (by decide))

theorem noDots_pad2 (n : ℕ) : String.ofList (DateTime.pad2 n) ≠ "." ∧ String.ofList (DateTime.pad2 n) ≠ ".." := by
  constructor
  · intro h
    have hl := congrArg String.toList h
    simp [DateTime.pad2] at hl
  · intro h
    have hl := congrArg String.toList h
    simp only [DateTime.pad2, String.toList_ofList] at hl
    exact digit_ne_dot _ (List.cons.inj hl).1

theorem noDots_toString (n : ℕ) : toString n ≠ "." ∧ toString n ≠ ".." := by
  have hdigit : ∀ c ∈ (toString n).toList, c.isDigit = true := by
    intro c hc
    have hmem : c ∈ Nat.toDigits 10 n := by simpa [toString, Nat.repr] using hc
    exact Nat.isDigit_of_mem_toDigits (by decide) (by decide) hmem
  constructor
  · intro h
    have := hdigit '.' (by rw [h]; decide)
    cases this
  · intro h
    have := hdigit '.' (by rw [h]; decide)
    cases this

theorem noDots_monthDir (e : StoredProof) : ∀ name ∈ e.monthDir, name ≠ "." ∧ name ≠ ".." := by
  intro name hname
  simp only [StoredProof.monthDir, List.mem_cons, List.not_mem_nil, or_false] at hname
  rcases hname with rfl | rfl | rfl | rfl
  · decide
  · decide
  · exact noDots_toString _
  · exact noDots_pad2 _

/-! ## One call -/

/-- The root is there, and plain directories lead from it to the place of the file. -/
structure Reaches (st : MaintenanceSettings) (base : Location) (fs : FileSystem StoredFile) (e : StoredProof) :
    Prop where
  root : LeadsTo fs st.cwd st.root base
  way : PlainWay fs base e.dirs
  name : e.name ≠ "." ∧ e.name ≠ ".."

/-- The pathname of the file. -/
def StoredProof.source (st : MaintenanceSettings) (e : StoredProof) : Pathname := st.root.child e.place

theorem targetDir_eq (st : MaintenanceSettings) (e : StoredProof) :
    st.targetDir "proofs" e.file.mtime = st.root.child e.monthDir := by
  simp [ArchiveSettings.targetDir, ArchiveSettings.archiveRoot, Pathname.child, StoredProof.monthDir]

theorem target_eq (st : MaintenanceSettings) (e : StoredProof) :
    st.target "proofs" (e.source st) e.file.mtime = st.root.child e.archivePlace := by
  unfold ArchiveSettings.target
  rw [targetDir_eq]
  simp [Pathname.child, StoredProof.source, StoredProof.place, StoredProof.archivePlace]

theorem source_relative (st : MaintenanceSettings) (e : StoredProof) : (e.source st).isRelativeTo st.root = true := by
  simp [Pathname.isRelativeTo, StoredProof.source, Pathname.child]

/-- The file lies in the archive of the proofs already. -/
def InArchive (e : StoredProof) : Prop := ["archive", "proofs"] <+: e.place

theorem source_inArchive (st : MaintenanceSettings) (e : StoredProof) :
    (e.source st).isRelativeTo (st.archiveRoot "proofs") = true ↔ InArchive e := by
  simp [Pathname.isRelativeTo, StoredProof.source, Pathname.child, ArchiveSettings.archiveRoot, InArchive,
    List.prefix_append_right_inj]

/-- The place of the file in the archive is free: the directories of its month are there or can be
made, and nothing has its name there. -/
structure Free (base : Location) (fs : FileSystem StoredFile) (e : StoredProof) : Prop where
  outside : ¬ InArchive e
  dirs : ∀ pre, pre ≠ [] → pre <+: e.monthDir →
    fs.node (base ++ pre) = none ∨ fs.node (base ++ pre) = some .dir
  place : fs.node (base ++ e.archivePlace) = none

/-- Directories of the month have been made, at most. -/
def MadeMonth (base : Location) (e : StoredProof) (fs fs' : FileSystem StoredFile) : Prop :=
  Grows fs fs' ∧ ∀ loc, (∀ pre, pre ≠ [] → pre <+: e.monthDir → loc ≠ base ++ pre) → fs'.node loc = fs.node loc

theorem place_ne_archivePlace (h : ¬ InArchive e) : base ++ e.place ≠ base ++ e.archivePlace := by
  intro heq
  refine h ?_
  rw [InArchive, List.append_cancel_left heq]
  simp [StoredProof.archivePlace, StoredProof.monthDir]

/-- The place in the archive is none of the directories that lead to it. -/
theorem archivePlace_ne_monthDir (e e' : StoredProof) {pre : List String} (hpre : pre <+: e.monthDir) :
    base ++ e'.archivePlace ≠ base ++ pre := by
  intro heq
  have hlen := congrArg List.length (List.append_cancel_left heq)
  have hle := hpre.length_le
  simp [StoredProof.archivePlace, StoredProof.monthDir] at hlen hle
  omega

namespace Reaches

theorem keeps (h : Reaches st base fs e) (hk : KeepsWays fs fs') : Reaches st base fs' e :=
  ⟨h.root.keeps hk, h.way.keeps hk, h.name⟩

theorem locate (h : Reaches st base fs e) : fs.locate st.cwd (e.source st) = some (base ++ e.place) :=
  h.root.locate_plain h.way h.name

theorem lstat (h : Reaches st base fs e) : fs.lstat st.cwd (e.source st) = fs.node (base ++ e.place) := by
  unfold FileSystem.lstat
  rw [h.locate]
  rfl

theorem read (h : Reaches st base fs e) (hfile : fs.node (base ++ e.place) = some (.file e.file)) :
    fs.read st.cwd (e.source st) = some e.file :=
  h.root.read_plain h.way h.name hfile

/-- A file that is a link already is passed over. -/
theorem run_linked (h : Reaches st base fs e) {target : Pathname}
    (hlink : fs.node (base ++ e.place) = some (.link target)) :
    (st.archivePath (e.source st) "proofs").runOn (answerFs st.cwd) fs = (.ok false, fs) := by
  have hplain : (FsProg.isPlainFile (e.source st)).runOn (answerFs st.cwd) fs = (.ok false, fs) := by
    rw [FsProg.isPlainFile, runOn_call, answerFs, h.lstat, hlink]
    rfl
  unfold ArchiveSettings.archivePath
  rw [runOn_bind_of_ok hplain, if_pos rfl]
  rfl

/-- What is left of a call on a plain file after the checks of its pathname. -/
theorem run_file (h : Reaches st base fs e) (hfile : fs.node (base ++ e.place) = some (.file e.file)) :
    (st.archivePath (e.source st) "proofs").runOn (answerFs st.cwd) fs =
      if (e.source st).isRelativeTo (st.archiveRoot "proofs") = true then (.ok false, fs)
      else
        (do
          FsProg.mkdir (st.root.child e.monthDir)
          let taken ← FsProg.pathExists (st.root.child e.archivePlace)
          if taken = true then return false
          else
            FsProg.move (e.source st) (st.root.child e.archivePlace)
            FsProg.symlink (e.source st)
              (Pathname.relpath st.cwd (st.root.child e.archivePlace) (e.source st).parent)
            return true : FsProg Bool).runOn (answerFs st.cwd) fs := by
  have hstat : fs.stat st.cwd (e.source st) = some (.file e.file) :=
    (h.root.stat_plain h.way h.name
      (by rw [show e.dirs ++ [e.name] = e.place from rfl, hfile]; exact nofun)).trans hfile
  have hplain : (FsProg.isPlainFile (e.source st)).runOn (answerFs st.cwd) fs = (.ok true, fs) := by
    rw [FsProg.isPlainFile, runOn_call, answerFs, h.lstat, hfile, hstat]
    rfl
  have hmtime : (FsProg.mtime (e.source st)).runOn (answerFs st.cwd) fs = (.ok e.file.mtime, fs) := by
    rw [FsProg.mtime, runOn_call, answerFs, h.read hfile]
  unfold ArchiveSettings.archivePath
  rw [runOn_bind_of_ok hplain, if_neg (by decide), if_neg (by rw [source_relative]; decide)]
  split_ifs
  · rfl
  · rw [runOn_bind_of_ok hmtime, targetDir_eq, target_eq]

/-- The directories of the month, where they can be made. -/
theorem run_mkdir (h : Reaches st base fs e) (hfree : ∀ pre, pre ≠ [] → pre <+: e.monthDir →
      fs.node (base ++ pre) = none ∨ fs.node (base ++ pre) = some .dir) :
    ∃ fs₁, (FsProg.mkdir (st.root.child e.monthDir)).runOn (answerFs st.cwd) fs = (.ok (), fs₁) ∧
      MadeMonth base e fs fs₁ ∧ PlainWay fs₁ base e.monthDir := by
  obtain ⟨fs₁, hmake, hg, hway, hframe⟩ := makeDirs_plain h.root PlainWay.nil (noDots_monthDir e) hfree
  rw [List.append_nil] at hmake
  refine ⟨fs₁, ?_, ⟨hg, hframe⟩, hway⟩
  rw [FsProg.mkdir, runOn_call, answerFs, mkdirs_child h.root, hmake]
  rfl

/-- The check of the target. -/
theorem run_pathExists (h : Reaches st base fs e) (hway : PlainWay fs base e.monthDir)
    (hlink : ∀ target, fs.node (base ++ e.archivePlace) ≠ some (.link target)) :
    (FsProg.pathExists (st.root.child e.archivePlace)).runOn (answerFs st.cwd) fs =
      (.ok (fs.node (base ++ e.archivePlace)).isSome, fs) := by
  have hstat := h.root.stat_plain hway h.name hlink
  rw [FsProg.pathExists, runOn_call, answerFs, StoredProof.archivePlace, hstat]

/-- The move to a free place. -/
theorem run_move (h : Reaches st base fs e) (hway : PlainWay fs base e.monthDir) (hout : ¬ InArchive e)
    (hfile : fs.node (base ++ e.place) = some (.file e.file)) (hnone : fs.node (base ++ e.archivePlace) = none) :
    (FsProg.move (e.source st) (st.root.child e.archivePlace)).runOn (answerFs st.cwd) fs =
      (.ok (), (fs.set (base ++ e.place) none).set (base ++ e.archivePlace) (some (.file e.file))) := by
  have hstat := h.root.stat_plain hway h.name
    (by rw [show e.monthDir ++ [e.name] = e.archivePlace from rfl, hnone]; exact nofun)
  have hlocate := h.root.locate_plain hway h.name
  rw [show e.monthDir ++ [e.name] = e.archivePlace from rfl] at hstat hlocate
  have hname : (e.source st).name? = some e.name := LeadsTo.name_child h.name
  have hin : fs.inDir (base ++ e.archivePlace) = true := by
    have hdrop : (base ++ e.archivePlace).dropLast = base ++ e.monthDir := by
      rw [StoredProof.archivePlace, ← List.append_assoc, List.dropLast_concat]
    unfold inDir
    rw [hdrop, get_plain h.root hway]
  have hrename : fs.rename (base ++ e.place) (base ++ e.archivePlace) =
      .ok ((fs.set (base ++ e.place) none).set (base ++ e.archivePlace) (some (.file e.file))) := by
    unfold rename
    rw [if_neg (place_ne_archivePlace hout), if_neg (by rw [hin]; decide), hfile, hnone]
  have hmove : fs.move st.cwd (e.source st) (st.root.child e.archivePlace) =
      .ok ((fs.set (base ++ e.place) none).set (base ++ e.archivePlace) (some (.file e.file))) := by
    unfold FileSystem.move
    simp only [h.locate, hname, hstat, hnone, hlocate]
    exact hrename
  rw [FsProg.move, runOn_call, answerFs, hmove]
  rfl

/-- The link in the place of the file. -/
theorem run_symlink (h : Reaches st base fs e) (hnone : fs.node (base ++ e.place) = none) (target : Pathname) :
    (FsProg.symlink (e.source st) target).runOn (answerFs st.cwd) fs =
      (.ok (), fs.set (base ++ e.place) (some (.link target))) := by
  have hin : fs.inDir (base ++ e.place) = true := by
    have hdrop : (base ++ e.place).dropLast = base ++ e.dirs := by
      rw [StoredProof.place, ← List.append_assoc, List.dropLast_concat]
    unfold inDir
    rw [hdrop, get_plain h.root h.way]
  have hlink : fs.symlink st.cwd (e.source st) target = .ok (fs.set (base ++ e.place) (some (.link target))) := by
    unfold FileSystem.symlink
    simp only [h.locate, hnone, hin, not_true_eq_false, if_false]
  rw [FsProg.symlink, runOn_call, answerFs, hlink]
  rfl

end Reaches

/-- The file is in the archive, and a link stands in its place. -/
def swapped (base : Location) (e : StoredProof) (target : Pathname) (fs : FileSystem StoredFile) :
    FileSystem StoredFile :=
  ((fs.set (base ++ e.place) none).set (base ++ e.archivePlace) (some (.file e.file))).set (base ++ e.place)
    (some (.link target))

/-- **A file whose place in the archive is free is archived.** -/
theorem archivePath_archives (h : Reaches st base fs e) (hfile : fs.node (base ++ e.place) = some (.file e.file))
    (hfree : Free base fs e) :
    ∃ fs₁ target, MadeMonth base e fs fs₁ ∧ PlainWay fs₁ base e.monthDir ∧
      (st.archivePath (e.source st) "proofs").runOn (answerFs st.cwd) fs = (.ok true, swapped base e target fs₁) := by
  obtain ⟨fs₁, hmkdir, hmade, hway⟩ := h.run_mkdir hfree.dirs
  have h₁ := h.keeps hmade.1.keepsWays
  have hfile₁ := hmade.1.node hfile
  have hnone₁ : fs₁.node (base ++ e.archivePlace) = none :=
    (hmade.2 _ fun pre _ hpre => archivePlace_ne_monthDir e e hpre).trans hfree.place
  have hexists := h₁.run_pathExists hway (by rw [hnone₁]; exact nofun)
  rw [hnone₁] at hexists
  have hmove := h₁.run_move hway hfree.outside hfile₁ hnone₁
  -- the move leaves the way to the source as it was
  have hkeeps : KeepsWays fs₁ ((fs₁.set (base ++ e.place) none).set (base ++ e.archivePlace)
    (some (.file e.file))) := by
    intro loc node hnode hnot
    have hplace : loc ≠ base ++ e.place := by
      rintro rfl
      rw [hfile₁] at hnode
      exact hnot _ (Option.some.inj hnode).symm
    have harchive : loc ≠ base ++ e.archivePlace := by
      rintro rfl
      rw [hnone₁] at hnode
      cases hnode
    exact (Function.update_of_ne harchive ..).trans ((Function.update_of_ne hplace ..).trans hnode)
  have hgone : ((fs₁.set (base ++ e.place) none).set (base ++ e.archivePlace) (some (.file e.file))).node
      (base ++ e.place) = none :=
    (Function.update_of_ne (place_ne_archivePlace hfree.outside) ..).trans (Function.update_self ..)
  have hsymlink := (h₁.keeps hkeeps).run_symlink hgone
    (Pathname.relpath st.cwd (st.root.child e.archivePlace) (e.source st).parent)
  refine ⟨fs₁, Pathname.relpath st.cwd (st.root.child e.archivePlace) (e.source st).parent, hmade, hway, ?_⟩
  rw [h.run_file hfile, if_neg (by rw [source_inArchive]; exact hfree.outside), runOn_bind_of_ok hmkdir,
    runOn_bind_of_ok hexists, if_neg (by decide), runOn_bind_of_ok hmove, runOn_bind_of_ok hsymlink]
  rfl

/-- **A file whose place in the archive is not free stays where it is**, whether the call returns or
raises. -/
theorem archivePath_keeps (h : Reaches st base fs e) (hfile : fs.node (base ++ e.place) = some (.file e.file))
    (hlink : ∀ pre, pre ≠ [] → pre <+: e.archivePlace → ∀ target, fs.node (base ++ pre) ≠ some (.link target))
    (hfree : ¬ Free base fs e) :
    MadeMonth base e fs ((st.archivePath (e.source st) "proofs").runOn (answerFs st.cwd) fs).2 := by
  have hsame : MadeMonth base e fs fs := ⟨Grows.refl fs, fun _ _ => rfl⟩
  rw [h.run_file hfile]
  by_cases hin : InArchive e
  · rw [if_pos ((source_inArchive st e).2 hin)]
    exact hsame
  rw [if_neg (by rw [source_inArchive]; exact hin)]
  by_cases hdirs : ∀ pre, pre ≠ [] → pre <+: e.monthDir →
      fs.node (base ++ pre) = none ∨ fs.node (base ++ pre) = some .dir
  · -- the directories are made, and the name is taken
    obtain ⟨fs₁, hmkdir, hmade, hway⟩ := h.run_mkdir hdirs
    have h₁ := h.keeps hmade.1.keepsWays
    have heq : fs₁.node (base ++ e.archivePlace) = fs.node (base ++ e.archivePlace) :=
      hmade.2 _ fun pre _ hpre => archivePlace_ne_monthDir e e hpre
    have htaken : (fs₁.node (base ++ e.archivePlace)).isSome = true := by
      rw [heq, Option.isSome_iff_ne_none]
      exact fun hnone => hfree ⟨hin, hdirs, hnone⟩
    have hexists := h₁.run_pathExists hway (by
      intro target
      rw [heq]
      exact hlink _ (by simp [StoredProof.archivePlace]) (List.prefix_refl _) target)
    rw [htaken] at hexists
    rw [runOn_bind_of_ok hmkdir, runOn_bind_of_ok hexists, if_pos rfl]
    exact hmade
  · -- a file stands on the way
    push Not at hdirs
    obtain ⟨pre, hne, hpre, hnone, hdir⟩ := hdirs
    have hblocked : ∀ pre, pre ≠ [] → pre <+: e.monthDir →
        ∀ target, fs.node (base ++ ([] ++ pre)) ≠ some (.link target) := by
      intro pre hne hpre target
      exact hlink pre hne (hpre.trans (List.prefix_append _ _)) target
    have hfileOn : ∃ data, fs.node (base ++ ([] ++ pre)) = some (.file data) := by
      cases hnode : fs.node (base ++ pre) with
      | none => exact absurd hnode hnone
      | some node =>
        cases node with
        | dir => exact absurd hnode hdir
        | file data => exact ⟨data, hnode⟩
        | link target => exact absurd hnode (hblocked pre hne hpre target)
    obtain ⟨data, hdata⟩ := hfileOn
    obtain ⟨err, herr⟩ := makeDirs_blocked h.root PlainWay.nil (noDots_monthDir e) hblocked hpre hne hdata
    rw [List.append_nil] at herr
    have hmkdir : (FsProg.mkdir (st.root.child e.monthDir)).runOn (answerFs st.cwd) fs = (.error err, fs) := by
      rw [FsProg.mkdir, runOn_call, answerFs, mkdirs_child h.root, herr]
      rfl
    rw [runOn_bind_of_error hmkdir]
    exact hsame

end Vellum
