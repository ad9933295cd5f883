import Vellum.Spec.Archive

/-!
# What archival does to readers

A cycle moves a file first and puts a symbolic link in its place afterwards. Until no file has been
moved, cycles only make directories, and every pathname that can be read stays readable; a
reader who comes right after a move finds nothing, and so does every later one if the cycle dies
there.

* `archivePath_safe`: what is moved is a file that was found at its own pathname.
* `grows_of_step`: a step that moves nothing only makes directories.
* `unreadable_of_moves`: after a move the pathname of the file cannot be read.
* `files_kept_iff`: the runs in which every file stays readable.
-/

namespace Vellum

open FileSystem Prog

variable {st : ArchiveSettings} {cwd : Location} {p source target : Pathname} {fs fs' : FileSystem StoredFile}
  {s s' s₀ : ArchivePool}

/-! ## What a call finds -/

/-- A file stands at the pathname itself, and can be read there. -/
def RegularAt (cwd : Location) (p : Pathname) (fs : FileSystem StoredFile) : Prop :=
  ∃ loc file, fs.locate cwd p = some loc ∧ fs.node loc = some (.file file) ∧ fs.read cwd p = some file

theorem regularAt_grows (h : RegularAt cwd p fs) (hg : Grows fs fs') : RegularAt cwd p fs' := by
  obtain ⟨loc, file, hloc, hnode, hread⟩ := h
  exact ⟨loc, file, locate_grows hg hloc, hg.node hnode, read_grows hg hread⟩

/-- What the checks of the source establish. -/
theorem regularAt_of_plain (h : answerFs cwd (.isPlainFile p) fs = (.ok true, fs')) : RegularAt cwd p fs := by
  have hplain := Except.ok.inj (congrArg Prod.fst h)
  rw [Bool.and_eq_true] at hplain
  have hlink : ∀ target, fs.lstat cwd p ≠ some (.link target) := by
    intro target htarget
    rw [htarget] at hplain
    cases hplain.1
  have hread : ∃ file, fs.read cwd p = some file := by
    unfold FileSystem.read
    cases hstat : fs.stat cwd p with
    | none =>
      rw [hstat] at hplain
      cases hplain.2
    | some node =>
      rw [hstat] at hplain
      cases node with
      | file file => exact ⟨file, rfl⟩
      | dir => cases hplain.2
      | link target => cases hplain.2
  obtain ⟨file, hread⟩ := hread
  obtain ⟨loc, hloc, hnode⟩ := file_of_read hread hlink
  exact ⟨loc, file, hloc, hnode, hread⟩

/-- What is required at a call: the file to be moved, or to be replaced by a link, is there. -/
def FsReady (cwd : Location) : FsCall → FileSystem StoredFile → Prop
  | .move source _, fs => RegularAt cwd source fs
  | .symlink p _, fs => RegularAt cwd p fs
  | _, _ => True

theorem fsReady_grows (c : FsCall) (fs fs' : FileSystem StoredFile) (h : FsReady cwd c fs) (hg : Grows fs fs') :
    FsReady cwd c fs' := by
  cases c with
  | move source target => exact regularAt_grows h hg
  | symlink p target => exact regularAt_grows h hg
  | isPlainFile p => trivial
  | mtime p => trivial
  | mtime? p => trivial
  | mkdir p => trivial
  | pathExists p => trivial

/-- The calls of a run in which nothing is moved. -/
def stillSem (cwd : Location) (c : FsCall) (fs : FileSystem StoredFile) (a : Except OSError c.Resp)
    (fs' : FileSystem StoredFile) : Prop :=
  fsSem cwd c fs a fs' ∧ Grows fs fs'

/-- Safe in a pool whose other programs only make directories. -/
abbrev StaysReady (cwd : Location) {α : Type} (q : FsProg α) (fs : FileSystem StoredFile) : Prop :=
  q.Safe (rely Grows (stillSem cwd)) (FsReady cwd) (fun _ _ => True) fs

/-- One call of a program; its answer is given in a file system that has grown. -/
theorem staysReady_call {α : Type} {c : FsCall} {f : c.Resp → FsProg α} (hready : FsReady cwd c fs)
    (hok : ∀ r fs₁ fs', Grows fs fs₁ → answerFs cwd c fs₁ = (.ok r, fs') → Grows fs₁ fs' → StaysReady cwd (f r) fs') :
    StaysReady cwd (call c >>= f) fs := by
  refine safe_call_bind hready ?_ (fun _ _ _ => trivial)
  rintro r fs' ⟨fs₁, hg, hs, hg'⟩
  exact hok r fs₁ fs' hg hs hg'

/-- A program is put after one that stays ready. -/
theorem staysReady_bind {α β : Type} {q : FsProg α} {f : α → FsProg β} (hq : StaysReady cwd q fs)
    (hf : ∀ a fs', StaysReady cwd (f a) fs') : StaysReady cwd (q >>= f) fs := by
  refine safe_bind (safe_mono ?_ hq)
  rintro (e | a) fs' _
  · trivial
  · exact hf a fs'

/-- **What `_archive_path` moves is a file it has found**, whatever directories others make in the
meantime. -/
theorem archivePath_safe (source : Pathname) (bucket : String) (fs : FileSystem StoredFile) :
    StaysReady st.cwd (st.archivePath source bucket) fs := by
  refine staysReady_call trivial fun (plain : Bool) fs₁ fs₂ _ hplain hg => ?_
  by_cases hp : plain = false
  · rw [if_pos hp]
    trivial
  rw [if_neg hp]
  by_cases hroot : source.isRelativeTo st.root = false
  · rw [if_pos hroot]
    trivial
  rw [if_neg hroot]
  by_cases harchive : source.isRelativeTo (st.archiveRoot bucket) = true
  · rw [if_pos harchive]
    trivial
  rw [if_neg harchive]
  -- from here on the source is a file, at every later call
  have hfile : RegularAt st.cwd source fs₂ := by
    rw [eq_true_of_ne_false hp] at hplain
    exact regularAt_grows (regularAt_of_plain hplain) hg
  refine staysReady_call trivial fun ts fs₃ fs₄ hg₃ _ hg₄ => ?_
  refine staysReady_call trivial fun _ fs₅ fs₆ hg₅ _ hg₆ => ?_
  refine staysReady_call trivial fun (taken : Bool) fs₇ fs₈ hg₇ _ hg₈ => ?_
  by_cases htaken : taken = true
  · rw [if_pos htaken]
    trivial
  rw [if_neg htaken]
  have hfile' : RegularAt st.cwd source fs₈ :=
    regularAt_grows hfile (((((hg₃.trans hg₄).trans hg₅).trans hg₆).trans hg₇).trans hg₈)
  refine staysReady_call hfile' fun _ fs₉ fs₁₀ hg₉ _ hg₁₀ => ?_
  refine staysReady_call (regularAt_grows hfile' (hg₉.trans hg₁₀)) fun _ _ _ _ _ _ => ?_
  trivial

theorem archiveProofs_safe (sources : List Pathname) (archived : ℕ) (fs : FileSystem StoredFile) :
    StaysReady st.cwd (st.archiveProofs sources archived) fs := by
  induction sources generalizing archived fs with
  | nil => trivial
  | cons source rest ih => exact staysReady_bind (archivePath_safe source _ fs) fun _ fs' => ih _ fs'

theorem archiveEvidence_safe (olderThan : DateTime → Bool) (maxFiles : ℕ) (sources : List Pathname) (archived : ℕ)
    (fs : FileSystem StoredFile) : StaysReady st.cwd (st.archiveEvidence olderThan maxFiles sources archived) fs := by
  induction sources generalizing archived fs with
  | nil => trivial
  | cons source rest ih =>
    unfold ArchiveSettings.archiveEvidence
    by_cases hmax : archived ≥ maxFiles
    · rw [if_pos hmax]
      trivial
    rw [if_neg hmax]
    refine staysReady_call trivial fun (modified : Option DateTime) _ fs' _ _ _ => ?_
    by_cases hold : modified.any olderThan = true
    · rw [if_pos hold]
      exact staysReady_bind (archivePath_safe source _ fs') fun _ fs'' => ih _ fs''
    · rw [if_neg hold]
      exact ih _ fs'

/-- A whole cycle. -/
theorem fileCycle_safe (candidates : List Pathname) (olderThan : DateTime → Bool) (maxFiles : ℕ)
    (evidence : List Pathname) (fs : FileSystem StoredFile) :
    StaysReady st.cwd (st.fileCycle candidates olderThan maxFiles evidence) fs := by
  refine staysReady_bind (archiveProofs_safe candidates 0 fs) fun _ fs' => ?_
  exact staysReady_bind (archiveEvidence_safe olderThan maxFiles evidence 0 fs') fun _ _ => trivial

/-! ## One step -/

/-- The step from one state to the next moves something. -/
def MovesAt (st : ArchiveSettings) (s s' : ArchivePool) : Prop :=
  ∃ i source target a, Pool.Step (fsSem st.cwd) (fileCycles st) s (.call i (.move source target) a) s' ∧
    s'.world ≠ s.world

/-- Every cycle in progress finds the file it is going to move. -/
def AllReady (st : ArchiveSettings) (s : ArchivePool) : Prop :=
  ∀ i q, s.procs i = some q → StaysReady st.cwd q s.world

theorem commit_world {r : Except OSError (FileSystem StoredFile)} {a : Except OSError Unit}
    (h : commit fs r = (a, fs')) : fs' = fs ∨ r = .ok fs' := by
  cases r with
  | error e => exact .inl (congrArg Prod.snd h).symm
  | ok fs'' => exact .inr (congrArg Except.ok (congrArg Prod.snd h))

/-- **What a call does to the files**: nothing, or it makes directories, moves a file or makes a
link. -/
theorem answerFs_cases {c : FsCall} {a : Except OSError c.Resp} (h : answerFs cwd c fs = (a, fs')) :
    fs' = fs ∨ (∃ p, c = .mkdir p ∧ fs.mkdirs cwd p = .ok fs') ∨
    (∃ source target, c = .move source target ∧ fs.move cwd source target = .ok fs') ∨
    (∃ p target, c = .symlink p target ∧ fs.symlink cwd p target = .ok fs') := by
  cases c with
  | isPlainFile p => exact .inl (congrArg Prod.snd h).symm
  | mtime p => exact .inl (congrArg Prod.snd h).symm
  | mtime? p => exact .inl (congrArg Prod.snd h).symm
  | pathExists p => exact .inl (congrArg Prod.snd h).symm
  | mkdir p =>
    rcases commit_world h with rfl | hok
    · exact .inl rfl
    · exact .inr (.inl ⟨p, rfl, hok⟩)
  | move source target =>
    rcases commit_world h with rfl | hok
    · exact .inl rfl
    · exact .inr (.inr (.inl ⟨source, target, rfl, hok⟩))
  | symlink p target =>
    rcases commit_world h with rfl | hok
    · exact .inl rfl
    · exact .inr (.inr (.inr ⟨p, target, rfl, hok⟩))

/-- No link is made where a file stands. -/
theorem symlink_regular (h : RegularAt cwd p fs) : fs.symlink cwd p target ≠ .ok fs' := by
  obtain ⟨loc, file, hloc, hnode, -⟩ := h
  unfold FileSystem.symlink
  rw [hloc]
  simp [hnode]

/-- **A step that moves nothing only makes directories.** -/
theorem grows_of_step (hready : AllReady st s) {act : Act FsCall.Resp OSError (ℕ × ℕ)}
    (hstep : Pool.Step (fsSem st.cwd) (fileCycles st) s act s') (hmove : ¬ MovesAt st s s') :
    Grows s.world s'.world := by
  cases hstep with
  | start hi hp => exact Grows.refl _
  | crash hi => exact Grows.refl _
  | @call i c k a w' hi hs =>
    rw [Pool.put_world]
    by_cases hworld : w' = s.world
    · rw [hworld]
      exact Grows.refl _
    rcases answerFs_cases hs with hsame | ⟨p, rfl, hok⟩ | ⟨source, target, rfl, hok⟩ | ⟨p, target, rfl, hok⟩
    · exact absurd hsame hworld
    · exact mkdirs_grows hok
    · exact absurd ⟨i, source, target, a, .call hi hs, hworld⟩ hmove
    · exact absurd hok (symlink_regular (hready i _ hi).1)

/-- The cycles stay ready along such a step. -/
theorem allReady_step (hready : AllReady st s) {act : Act FsCall.Resp OSError (ℕ × ℕ)}
    (hstep : Pool.Step (fsSem st.cwd) (fileCycles st) s act s') (hg : Grows s.world s'.world) : AllReady st s' := by
  have hstill : Pool.Step (stillSem st.cwd) (fileCycles st) s act s' := by
    cases hstep with
    | start hi hp => exact .start hi hp
    | call hi hs => exact .call hi ⟨hs, hg⟩
    | crash hi => exact .crash hi
  refine Pool.step_rely Grows.refl (fun _ _ _ h h' => h.trans h') fsReady_grows ?_ hready hstill hg
  rintro q ⟨candidates, olderThan, maxFiles, evidence, rfl⟩ w
  exact fileCycle_safe candidates olderThan maxFiles evidence w

/-- A move that changes anything takes the file from its place. -/
theorem moved_of_move (hfile : RegularAt cwd source fs) (h : fs.move cwd source target = .ok fs') (hne : fs' ≠ fs) :
    ∃ src dst, fs.locate cwd source = some src ∧ Moved fs fs' src dst := by
  obtain ⟨src, file, hsrc, hnode, -⟩ := hfile
  obtain ⟨name, dir, hname, -, -⟩ := locate_eq_some.1 hsrc
  have hrename : ∃ dst, fs.rename src dst = .ok fs' := by
    unfold FileSystem.move at h
    simp only [hsrc, hname] at h
    split_ifs at h with hdir hthere
    · cases hdst : fs.locate cwd (target.child [name]) with
      | none =>
        rw [hdst] at h
        cases h
      | some dst =>
        rw [hdst] at h
        exact ⟨dst, h⟩
    · cases hdst : fs.locate cwd target with
      | none =>
        rw [hdst] at h
        cases h
      | some dst =>
        rw [hdst] at h
        exact ⟨dst, h⟩
  obtain ⟨dst, hr⟩ := hrename
  have hdst : src ≠ dst := by
    intro heq
    unfold FileSystem.rename at hr
    rw [if_pos heq] at hr
    exact hne (Except.ok.inj hr).symm
  exact ⟨src, dst, hsrc, moved_rename hnode hdst hr⟩

/-- **After a move the pathname of the file cannot be read**; before it, it could. -/
theorem unreadable_of_moves (hready : AllReady st s) (hmove : MovesAt st s s') :
    ∃ source file, s.world.read st.cwd source = some file ∧ s'.world.read st.cwd source = none := by
  obtain ⟨i, source, target, a, hstep, hne⟩ := hmove
  cases hstep with
  | @call _ _ k _ w' hi hs =>
    have hfile : RegularAt st.cwd source s.world := (hready i _ hi).1
    have hok : s.world.move st.cwd source target = .ok w' := by
      rcases commit_world hs with rfl | hok
      · exact absurd rfl hne
      · exact hok
    obtain ⟨src, dst, hsrc, hmoved⟩ := moved_of_move hfile hok hne
    obtain ⟨loc, file, -, -, hread⟩ := hfile
    refine ⟨source, file, hread, ?_⟩
    unfold FileSystem.read FileSystem.stat
    rw [Pool.put_world, resolve_moved hmoved hsrc]

/-! ## Runs -/

/-- What a reader finds who opens a pathname. -/
def contentAt (cwd : Location) (s : ArchivePool) (p : Pathname) : Option String :=
  (s.world.read cwd p).map StoredFile.content

/-- Whatever a pathname yields at one moment it yields at every later moment. -/
def FilesKept (cwd : Location) (run : ℕ → ArchivePool) : Prop :=
  ∀ n m, n ≤ m → ∀ p content, contentAt cwd (run n) p = some content → contentAt cwd (run m) p = some content

/-- The file system before any cycle has started. -/
def atRest (fs : FileSystem StoredFile) : ArchivePool := ⟨fs, fun _ => none⟩

/-- While nothing has been moved, every cycle is ready. -/
theorem allReady_until {T : Trace (ArchiveStep st) (atRest fs)} {n : ℕ}
    (h : ∀ m < n, ¬ MovesAt st (T.run m) (T.run (m + 1))) : AllReady st (T.run n) := by
  induction n with
  | zero =>
    rw [T.start]
    intro i q hq
    cases hq
  | succ n ih =>
    have hready := ih fun m hm => h m (Nat.lt_succ_of_lt hm)
    rcases T.next n with heq | ⟨act, hstep⟩
    · rwa [heq]
    · exact allReady_step hready hstep (grows_of_step hready hstep (h n (Nat.lt_succ_self n)))

/-- **When every file stays readable**: at every moment of a run of any number of cycles, each of
which may crash at any point, every pathname yields what it yielded before, iff nothing is moved in
the run. -/
theorem files_kept_iff (st : ArchiveSettings) (fs : FileSystem StoredFile) (T : Trace (ArchiveStep st) (atRest fs)) :
    FilesKept st.cwd T.run ↔ ∀ n, ¬ MovesAt st (T.run n) (T.run (n + 1)) := by
  constructor
  · intro hkept n
    -- by induction on the moment: up to the first move every cycle is ready
    induction n using Nat.strong_induction_on with
    | _ n ih =>
      intro hmove
      obtain ⟨source, file, hread, hnone⟩ := unreadable_of_moves (allReady_until ih) hmove
      have hstill := hkept n (n + 1) (Nat.le_succ n) source file.content (by rw [contentAt, hread]; rfl)
      rw [contentAt, hnone] at hstill
      cases hstill
  · intro hmove n m hnm p content hcontent
    obtain ⟨file, hread, hfile⟩ := Option.map_eq_some_iff.1 hcontent
    have hgrows : ∀ m, Grows (T.run m).world (T.run (m + 1)).world := by
      intro m
      rcases T.next m with heq | ⟨act, hstep⟩
      · rw [heq]
        exact Grows.refl _
      · exact grows_of_step (allReady_until fun k _ => hmove k) hstep (hmove m)
    have hlater : (T.run m).world.read st.cwd p = some file := by
      induction m, hnm using Nat.le_induction with
      | base => exact hread
      | succ m _ ih => exact read_grows (hgrows m) ih
    rw [contentAt, hlater, ← hfile]
    rfl

/-! ### Two cycles on one file -/

/-- Proof files under `/proofs`. -/
def proofsDir : ArchiveSettings := ⟨[], ⟨true, ["proofs"]⟩⟩

def proofPath : Pathname := ⟨true, ["proofs", "proof-1.json"]⟩

/-- In January 2025. -/
def proofChanged : DateTime :=
  ⟨2025, 1, 2, 3, 4, 5, 0, by decide, by decide, by decide, by decide, by decide, by decide, by decide⟩

/-- One proof file, last changed in January 2025. -/
def oneProof : FileSystem StoredFile :=
  ⟨fun loc =>
    if loc = ["proofs"] then some .dir
    else if loc = ["proofs", "proof-1.json"] then
      some (.file ⟨"proof", proofChanged⟩)
    else none⟩

/-- The periodic runner and the Celery task have both listed the file. -/
def bothStarted : ArchivePool :=
  let cycle := proofsDir.fileCycle [proofPath] (fun _ => true) 10 []
  ((atRest oneProof).put 0 oneProof (some cycle)).put 1 oneProof (some cycle)

/-- Both cycles check the file and the target; then the one moves the file and puts the link, and
the other moves the link over the file. -/
def bothDone : ArchivePool :=
  let checked := Pool.driveAt (answerFs []) 1 4 (Pool.driveAt (answerFs []) 0 4 bothStarted)
  Pool.driveAt (answerFs []) 1 2 (Pool.driveAt (answerFs []) 0 2 checked)

theorem bothDone_run : Relation.ReflTransGen (ArchiveStep proofsDir) (atRest oneProof) bothDone := by
  have hdrive : ∀ i n s, Relation.ReflTransGen (ArchiveStep proofsDir) s (Pool.driveAt (answerFs []) i n s) := by
    intro i n s
    refine Pool.driveAt_run (fun _ => True) (fun _ => trivial) (fun _ hi => ?_) n trivial
    exact ⟨_, .call hi rfl⟩
  have hcycle : proofsDir.fileCycle [proofPath] (fun _ => true) 10 [] ∈ fileCycles proofsDir := ⟨_, _, _, _, rfl⟩
  have hstart : Relation.ReflTransGen (ArchiveStep proofsDir) (atRest oneProof) bothStarted := by
    refine .tail (.single ⟨_, .start (i := 0) rfl hcycle⟩) ⟨_, .start (i := 1) ?_ hcycle⟩
    rfl
  exact (((hstart.trans (hdrive 0 4 _)).trans (hdrive 1 4 _)).trans (hdrive 0 2 _)).trans (hdrive 1 2 _)

/-- **Two cycles on one file destroy it**: both return, and neither the pathname of the proof nor
that of the archive can be read. -/
theorem overlapping_cycles_lose : ∃ T : Trace (ArchiveStep proofsDir) (atRest oneProof), ∃ n m, n ≤ m ∧
    contentAt [] (T.run n) proofPath = some "proof" ∧
    contentAt [] (T.run m) proofPath = none ∧
    contentAt [] (T.run m) ⟨true, ["proofs", "archive", "proofs", "2025", "01", "proof-1.json"]⟩ = none ∧
    ((T.run m).procs 0).any isDone = true ∧ ((T.run m).procs 1).any isDone = true := by
  obtain ⟨T, n, m, hnm, hn, hm⟩ := Trace.exists_through .refl bothDone_run
  refine ⟨T, n, m, hnm, ?_, ?_, ?_, ?_, ?_⟩
  · rw [hn]
    decide +kernel
  · rw [hm]
    decide +kernel
  · rw [hm]
    decide +kernel
  · rw [hm]
    decide +kernel
  · rw [hm]
    decide +kernel

end Vellum
