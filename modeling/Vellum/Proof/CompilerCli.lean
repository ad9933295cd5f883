import Vellum.Lib.JsonRoundTrip
import Vellum.Proof.Agreement
import Vellum.Proof.SourceLines
import Vellum.Spec.CompilerCli

/-!
# Generate and check

`generate` leaves a repository that holds the artifacts (`Holds`), and holding them is all that
`check-drift` asks of the files (`Holds.checkDrift`). Both commands look at the manifest in the same way
(`manifestOf`): one that is no JSON or no object is left alone by the first and refused by the second
(`generate_then_check`).
-/

namespace Vellum

open FileSystem

variable {F : PyJson.FloatReader} {sha256 : String → String} {cwd : Location} {args : CompilerArgs}
  {repoRoot manifestPath p q : Pathname} {spec : PolicyDSLSpec} {art : CompilerArtifacts}
  {fs fs' dirs : Repository} {metadata : CompilerMetadata} {text : String}

/-! ## Text files -/

/-- **What was written is read.** -/
theorem readText_of_read (h : fs.read cwd p = some text.toUTF8) (hcr : NoCr text) :
    readText cwd fs p = .ok text.toList := by
  have hdecode : String.fromUTF8? text.toUTF8 = some text := dif_pos text.isValidUTF8
  unfold readText
  simp only [h, hdecode, universalNewlines_eq hcr]

theorem writeText_ok : writeText cwd fs p text = .ok fs' ↔ fs.write cwd p text.toUTF8 = .ok fs' := mapError_ok

theorem mkdirParents_ok : mkdirParents cwd fs p = .ok fs' ↔ fs.mkdirs cwd p = .ok fs' := mapError_ok

theorem readText_congr (h : fs.stat cwd p = fs'.stat cwd p) : readText cwd fs p = readText cwd fs' p := by
  unfold readText
  rw [read_eq_of_stat h]

/-! ## What both commands see of the manifest -/

/-- What stands at the manifest's pathname. -/
inductive Manifest where
  | absent
  | malformed
  | noObject
  | object (fields : List (List ℕ × PyJson))

/-- The manifest is missing, or an object that can take the metadata. -/
def Manifest.syncs : Manifest → Bool
  | .absent | .object _ => true
  | .malformed | .noObject => false

def manifestOf (F : PyJson.FloatReader) (cwd : Location) (manifestPath : Pathname) (fs : Repository) :
    Except CliError Manifest :=
  if (fs.stat cwd manifestPath).isNone then .ok .absent
  else (readText cwd fs manifestPath).bind fun text =>
    match PyJson.loads F text with
    | .error .decodeError => .ok .malformed
    | .error .valueError => .error .valueError
    | .ok (.obj fields) => .ok (.object fields)
    | .ok _ => .ok .noObject

theorem manifestOf_congr (h : fs.stat cwd manifestPath = fs'.stat cwd manifestPath) :
    manifestOf F cwd manifestPath fs = manifestOf F cwd manifestPath fs' := by
  unfold manifestOf
  rw [h, readText_congr h]

/-- What an object holds can be written and read back. -/
theorem manifestOf_loadable {fields : List (List ℕ × PyJson)}
    (h : manifestOf F cwd manifestPath fs = .ok (.object fields)) : PyJson.FieldsLoadable F fields := by
  unfold manifestOf at h
  split_ifs at h
  · cases Except.ok.inj h
  obtain ⟨text, -, hloads⟩ := bind_ok.1 h
  split at hloads
  · cases hloads
  · cases hloads
  · next fields' hobj =>
    obtain rfl := Manifest.object.inj (Except.ok.inj hloads)
    cases PyJson.loads_loadable hobj with
    | obj _ hnd hkeys hvalues => exact ⟨hnd, hkeys, hvalues⟩
  · cases hloads

/-- **`sync_manifest_compiler_metadata` by what it finds**: an object that is not up to date is
rewritten, everything else stays. -/
theorem sync_eq : syncManifestCompilerMetadata F cwd manifestPath metadata fs =
    (manifestOf F cwd manifestPath fs).bind fun found =>
      match found with
      | .object fields =>
        if isCurrent fields metadata then .ok (fs, false)
        else (writeText cwd fs manifestPath (manifestText fields metadata)).map (·, true)
      | _ => .ok (fs, false) := by
  unfold syncManifestCompilerMetadata manifestOf
  split_ifs
  · rfl
  · cases readText cwd fs manifestPath with
    | error e => rfl
    | ok text =>
      simp only [bind, Except.bind]
      cases PyJson.loads F text with
      | error e => cases e <;> rfl
      | ok v =>
        cases v with
        | obj fields =>
          simp only
          split_ifs
          · rfl
          · cases writeText cwd fs manifestPath (manifestText fields metadata) <;> rfl
        | _ => rfl

/-- **`manifest_metadata_matches` by what it finds**. -/
theorem matches_eq (h : (fs.stat cwd manifestPath).isNone = false) :
    manifestMetadataMatches F cwd manifestPath metadata fs =
      (manifestOf F cwd manifestPath fs).bind fun found =>
        match found with
        | .object fields => .ok (isCurrent fields metadata)
        | _ => .ok false := by
  unfold manifestMetadataMatches manifestOf
  rw [if_neg (by rw [h]; exact Bool.false_ne_true)]
  cases readText cwd fs manifestPath with
  | error e => rfl
  | ok text =>
    simp only [bind, Except.bind]
    cases PyJson.loads F text with
    | error e => cases e <;> rfl
    | ok v => cases v <;> rfl

/-! ## The manifest that is written -/

theorem nodup_asDict (metadata : CompilerMetadata) : (metadata.asDict.map Prod.fst).Nodup := by
  show ["spec_version", "compiler_version", "generated_from_hash", "generated_python_path",
    "generated_circom_path", "generated_debug_trace_path"].Nodup
  decide

/-- The manifest with the metadata in it. -/
def synced (fields : List (List ℕ × PyJson)) (metadata : CompilerMetadata) : List (List ℕ × PyJson) :=
  PyJson.setField fields compilerMetadataKey (PyJson.ofStrings metadata.asDict)

theorem isCurrent_synced (fields : List (List ℕ × PyJson)) (metadata : CompilerMetadata) :
    isCurrent (synced fields metadata) metadata = true := by
  unfold isCurrent synced
  rw [PyJson.lookup_setField_self]
  exact PyJson.eqStrings_ofStrings (nodup_asDict metadata)

theorem synced_loadable {fields : List (List ℕ × PyJson)} (h : PyJson.FieldsLoadable F fields) :
    PyJson.Loadable F (.obj (synced fields metadata)) := by
  have hset := h.set (PyJson.joined_ofString "compiler_metadata") (PyJson.loadable_ofStrings (nodup_asDict metadata))
  exact .obj _ hset.nodup hset.keys hset.values

theorem toList_manifestText (fields : List (List ℕ × PyJson)) (metadata : CompilerMetadata) :
    (manifestText fields metadata).toList = (PyJson.obj (synced fields metadata)).renderIndent 0 ++ ['\n'] := by
  unfold manifestText
  rw [String.toList_append, String.toList_ofList]
  rfl

/-- **The manifest that was written is found again**, with the metadata in it. -/
theorem manifestOf_written {fields : List (List ℕ × PyJson)} (h : PyJson.FieldsLoadable F fields)
    (hwrite : fs.write cwd manifestPath (manifestText fields metadata).toUTF8 = .ok fs') :
    manifestOf F cwd manifestPath fs' = .ok (.object (synced fields metadata)) := by
  have hloadable : PyJson.Loadable F (.obj (synced fields metadata)) := synced_loadable h
  have hcr : NoCr (manifestText fields metadata) := by
    unfold NoCr
    rw [toList_manifestText, List.mem_append, not_or]
    exact ⟨PyJson.cr_not_mem_renderIndent hloadable 0, by decide⟩
  have htext := readText_of_read (read_write hwrite) hcr
  have hstat : (fs'.stat cwd manifestPath).isNone = false := by
    rw [stat_write hwrite]
    rfl
  unfold manifestOf
  rw [if_neg (by rw [hstat]; exact Bool.false_ne_true), htext, toList_manifestText]
  show (match PyJson.loads F ((PyJson.obj (synced fields metadata)).renderIndent 0 ++ ['\n']) with
    | .error .decodeError => _
    | .error .valueError => _
    | .ok (.obj fields) => _
    | .ok _ => _) = _
  rw [PyJson.loads_dumps hloadable]

/-- **What `sync` leaves**: the same repository, or one in which the manifest alone was rewritten. -/
theorem sync_cases {changed : Bool} {found : Manifest} (hfound : manifestOf F cwd manifestPath fs = .ok found)
    (h : syncManifestCompilerMetadata F cwd manifestPath metadata fs = .ok (fs', changed)) :
    (fs' = fs ∧ ∀ fields, found = .object fields → isCurrent fields metadata = true) ∨
      ∃ fields, found = .object fields ∧ fs.write cwd manifestPath (manifestText fields metadata).toUTF8 = .ok fs' := by
  rw [sync_eq, hfound] at h
  cases found with
  | object fields =>
    have h' : (if isCurrent fields metadata then .ok (fs, false)
        else (writeText cwd fs manifestPath (manifestText fields metadata)).map (·, true) :
        Except CliError (Repository × Bool)) = .ok (fs', changed) := h
    by_cases hcurrent : isCurrent fields metadata = true
    · rw [if_pos hcurrent] at h'
      obtain ⟨rfl, -⟩ := Prod.mk.inj (Except.ok.inj h')
      refine .inl ⟨rfl, ?_⟩
      intro fields' hfields'
      rw [← Manifest.object.inj hfields']
      exact hcurrent
    · rw [if_neg hcurrent] at h'
      obtain ⟨fs₁, hwrite, heq⟩ := map_ok.1 h'
      obtain ⟨rfl, -⟩ := Prod.mk.inj heq
      exact .inr ⟨fields, rfl, writeText_ok.1 hwrite⟩
  | absent =>
    obtain ⟨rfl, -⟩ := Prod.mk.inj (Except.ok.inj h)
    exact .inl ⟨rfl, nofun⟩
  | malformed =>
    obtain ⟨rfl, -⟩ := Prod.mk.inj (Except.ok.inj h)
    exact .inl ⟨rfl, nofun⟩
  | noObject =>
    obtain ⟨rfl, -⟩ := Prod.mk.inj (Except.ok.inj h)
    exact .inl ⟨rfl, nofun⟩

/-! ## A repository that holds the artifacts -/

/-- The artifacts stand in their files, and the directories are there. -/
structure Holds (cwd : Location) (repoRoot : Pathname) (spec : PolicyDSLSpec) (art : CompilerArtifacts)
    (fs : Repository) : Prop where
  dirs : ∀ path ∈ [spec.generatedPythonPath, spec.generatedCircomPath, spec.generatedDebugTracePath],
    fs.mkdirs cwd (repoRoot.join path).parent = .ok fs
  python : fs.read cwd (repoRoot.join spec.generatedPythonPath) = some art.pythonSource.toUTF8
  circom : fs.read cwd (repoRoot.join spec.generatedCircomPath) = some art.circomSource.toUTF8
  debugTrace : fs.read cwd (repoRoot.join spec.generatedDebugTracePath) = some art.debugTraceSource.toUTF8

/-- The steps of `write_generated_artifacts`. -/
theorem writeGeneratedArtifacts_ok : writeGeneratedArtifacts cwd repoRoot spec art fs = .ok fs' ↔
    ∃ d₁ d₂ dirs w₁ w₂, fs.mkdirs cwd (repoRoot.join spec.generatedPythonPath).parent = .ok d₁ ∧
      d₁.mkdirs cwd (repoRoot.join spec.generatedCircomPath).parent = .ok d₂ ∧
      d₂.mkdirs cwd (repoRoot.join spec.generatedDebugTracePath).parent = .ok dirs ∧
      dirs.write cwd (repoRoot.join spec.generatedPythonPath) art.pythonSource.toUTF8 = .ok w₁ ∧
      w₁.write cwd (repoRoot.join spec.generatedCircomPath) art.circomSource.toUTF8 = .ok w₂ ∧
      w₂.write cwd (repoRoot.join spec.generatedDebugTracePath) art.debugTraceSource.toUTF8 = .ok fs' := by
  simp only [writeGeneratedArtifacts, artifactPaths, bind_ok, mkdirParents_ok, writeText_ok,
    exists_and_left]

/-- **Writing again** what is there changes nothing. -/
theorem Holds.again (h : Holds cwd repoRoot spec art fs) : writeGeneratedArtifacts cwd repoRoot spec art fs = .ok fs :=
  writeGeneratedArtifacts_ok.2 ⟨fs, fs, fs, fs, fs, h.dirs _ (by simp), h.dirs _ (by simp), h.dirs _ (by simp),
    write_same h.python, write_same h.circom, write_same h.debugTrace⟩

/-- **The artifacts stay** when a file elsewhere is written. -/
theorem Holds.write {data : ByteArray} (h : Holds cwd repoRoot spec art fs) (hwrite : fs.write cwd q data = .ok fs')
    (hne : ∀ path ∈ [spec.generatedPythonPath, spec.generatedCircomPath, spec.generatedDebugTracePath],
      ∀ loc, fs.target cwd q = some loc → fs.target cwd (repoRoot.join path) ≠ some loc) :
    Holds cwd repoRoot spec art fs' := by
  have hread : ∀ path ∈ [spec.generatedPythonPath, spec.generatedCircomPath, spec.generatedDebugTracePath],
      ∀ {old : ByteArray}, fs.read cwd (repoRoot.join path) = some old → fs'.read cwd (repoRoot.join path) = some old := by
    intro path hpath old hold
    obtain ⟨name, hname⟩ := name_of_read hold
    rw [← hold]
    exact read_eq_of_stat (stat_write_of_ne hwrite hname (hne path hpath))
  refine ⟨?_, hread _ (by simp) h.python, hread _ (by simp) h.circom, hread _ (by simp) h.debugTrace⟩
  intro path hpath
  exact mkdirs_again (h.dirs path hpath) (extends_write hwrite)

/-- What `write_generated_artifacts` leaves, where the three pathnames lead to different files: the
artifacts, and everything else as it was when the directories had been made. -/
theorem written_holds (hrun : writeGeneratedArtifacts cwd repoRoot spec art fs = .ok fs')
    (hapart : [repoRoot.join spec.generatedPythonPath, repoRoot.join spec.generatedCircomPath,
      repoRoot.join spec.generatedDebugTracePath].Pairwise (FileSystem.Apart fs cwd)) :
    Holds cwd repoRoot spec art fs' ∧ ∃ dirs, Grows fs dirs ∧ (∀ q, fs'.target cwd q = dirs.target cwd q) ∧
      ∀ q name, q.name? = some name →
        (∀ path ∈ [spec.generatedPythonPath, spec.generatedCircomPath, spec.generatedDebugTracePath],
          FileSystem.Apart fs cwd (repoRoot.join path) q) → fs'.stat cwd q = dirs.stat cwd q := by
  obtain ⟨d₁, d₂, dirs, w₁, w₂, hd₁, hd₂, hd₃, hw₁, hw₂, hw₃⟩ := writeGeneratedArtifacts_ok.1 hrun
  have hgrows : Grows fs dirs := ((mkdirs_grows hd₁).trans (mkdirs_grows hd₂)).trans (mkdirs_grows hd₃)
  have htarget₁ := target_write hw₁
  have htarget₂ : ∀ q, w₂.target cwd q = dirs.target cwd q := fun q => (target_write hw₂ q).trans (htarget₁ q)
  have htarget₃ : ∀ q, fs'.target cwd q = dirs.target cwd q := fun q => (target_write hw₃ q).trans (htarget₂ q)
  -- each write leaves the pathnames that lie apart from its own
  have hkeep₁ : ∀ q name, q.name? = some name → FileSystem.Apart fs cwd (repoRoot.join spec.generatedPythonPath) q →
      w₁.stat cwd q = dirs.stat cwd q := by
    intro q name hname hq
    exact stat_write_of_ne hw₁ hname (hq dirs hgrows)
  have hkeep₂ : ∀ q name, q.name? = some name → FileSystem.Apart fs cwd (repoRoot.join spec.generatedCircomPath) q →
      w₂.stat cwd q = w₁.stat cwd q := by
    intro q name hname hq
    apply stat_write_of_ne hw₂ hname
    intro loc hloc
    rw [htarget₁] at hloc ⊢
    exact hq dirs hgrows loc hloc
  have hkeep₃ : ∀ q name, q.name? = some name → FileSystem.Apart fs cwd (repoRoot.join spec.generatedDebugTracePath) q →
      fs'.stat cwd q = w₂.stat cwd q := by
    intro q name hname hq
    apply stat_write_of_ne hw₃ hname
    intro loc hloc
    rw [htarget₂] at hloc ⊢
    exact hq dirs hgrows loc hloc
  obtain ⟨h12, h13, h23⟩ : FileSystem.Apart fs cwd (repoRoot.join spec.generatedPythonPath) (repoRoot.join spec.generatedCircomPath) ∧
      FileSystem.Apart fs cwd (repoRoot.join spec.generatedPythonPath) (repoRoot.join spec.generatedDebugTracePath) ∧
      FileSystem.Apart fs cwd (repoRoot.join spec.generatedCircomPath) (repoRoot.join spec.generatedDebugTracePath) := by
    simpa [and_assoc] using hapart
  have hextends : FileSystem.Extends dirs fs' := ((extends_write hw₁).trans (extends_write hw₂)).trans (extends_write hw₃)
  refine ⟨⟨?_, ?_, ?_, read_write hw₃⟩, dirs, hgrows, htarget₃, ?_⟩
  · intro path hpath
    simp only [List.mem_cons, List.not_mem_nil, or_false] at hpath
    rcases hpath with rfl | rfl | rfl
    · exact mkdirs_again hd₁ (((mkdirs_grows hd₂).trans (mkdirs_grows hd₃)).extends.trans hextends)
    · exact mkdirs_again hd₂ ((mkdirs_grows hd₃).extends.trans hextends)
    · exact mkdirs_again hd₃ hextends
  · obtain ⟨-, name, -, hname, -⟩ := write_eq_ok.1 hw₁
    apply read_of_stat
    rw [hkeep₃ _ name hname h13.symm, hkeep₂ _ name hname h12.symm]
    exact stat_write hw₁
  · obtain ⟨-, name, -, hname, -⟩ := write_eq_ok.1 hw₂
    apply read_of_stat
    rw [hkeep₃ _ name hname h23.symm]
    exact stat_write hw₂
  · intro q name hname hq
    rw [hkeep₃ q name hname (hq _ (by simp)), hkeep₂ q name hname (hq _ (by simp)),
      hkeep₁ q name hname (hq _ (by simp))]

/-- **No drift of the files** where the artifacts stand in them: what `check_drift` answers then depends
on the manifest alone. -/
theorem Holds.checkDrift (h : Holds cwd repoRoot spec art fs) (hpython : NoCr art.pythonSource)
    (hcircom : NoCr art.circomSource) (hdebugTrace : NoCr art.debugTraceSource) :
    checkDrift F cwd repoRoot spec art (some manifestPath) fs =
      (manifestOf F cwd manifestPath fs).bind fun found =>
        match found with
        | .absent => .ok true
        | .object fields => .ok (isCurrent fields (buildCompilerMetadata spec art))
        | _ => .ok false := by
  have hthere : ∀ {p : Pathname} {data : ByteArray}, fs.read cwd p = some data → (fs.stat cwd p).isNone = false := by
    intro p data hread
    rw [stat_of_read hread]
    rfl
  have hfiles : Vellum.checkDrift F cwd repoRoot spec art (some manifestPath) fs =
      if (fs.stat cwd manifestPath).isNone then .ok true
      else manifestMetadataMatches F cwd manifestPath (buildCompilerMetadata spec art) fs := by
    unfold Vellum.checkDrift artifactPaths
    simp only [hthere h.python, hthere h.circom, hthere h.debugTrace, Bool.false_eq_true, or_self, if_false,
      readText_of_read h.python hpython, readText_of_read h.circom hcircom,
      readText_of_read h.debugTrace hdebugTrace, bind, Except.bind, and_self, not_true_eq_false]
    rfl
  rw [hfiles]
  cases hstat : (fs.stat cwd manifestPath).isNone with
  | true =>
    unfold manifestOf
    rw [hstat]
    rfl
  | false =>
    rw [if_neg Bool.false_ne_true, matches_eq hstat]
    have hpresent : manifestOf F cwd manifestPath fs ≠ .ok .absent := by
      unfold manifestOf
      rw [hstat, if_neg Bool.false_ne_true]
      intro habsent
      obtain ⟨text, -, hload⟩ := bind_ok.1 habsent
      split at hload
      all_goals cases hload
    cases hfound : manifestOf F cwd manifestPath fs with
    | error e => rfl
    | ok found =>
      cases found with
      | absent => exact absurd hfound hpresent
      | malformed => rfl
      | noObject => rfl
      | object fields => rfl

/-! ## A run of `generate` -/

/-- `generate`, once the artifacts are there. -/
theorem main_generate {printMetadataJson : Bool} (hcommand : args.command = .generate printMetadataJson)
    (hgen : generatePolicyArtifacts sha256 spec = .ok art) :
    main F sha256 cwd args spec fs = (do
      let fs ← writeGeneratedArtifacts cwd args.repoRoot spec art fs
      let (fs, _) ← syncManifestCompilerMetadata F cwd args.manifestPath (buildCompilerMetadata spec art) fs
      if printMetadataJson then
        let (pythonPath, circomPath, debugTracePath) := artifactPaths args.repoRoot spec
        relativeTo pythonPath args.repoRoot
        relativeTo circomPath args.repoRoot
        relativeTo debugTracePath args.repoRoot
      return (fs, 0)) := by
  unfold main
  rw [hcommand, if_neg (by simp), hgen]
  rfl

/-- The steps of `generate`; the pathnames are printed relative to the root or not at all. -/
theorem main_generate_ok {printMetadataJson : Bool} (hcommand : args.command = .generate printMetadataJson)
    (hgen : generatePolicyArtifacts sha256 spec = .ok art) :
    main F sha256 cwd args spec fs = .ok (fs', 0) ↔ ∃ fs₁ changed,
      writeGeneratedArtifacts cwd args.repoRoot spec art fs = .ok fs₁ ∧
      syncManifestCompilerMetadata F cwd args.manifestPath (buildCompilerMetadata spec art) fs₁ = .ok (fs', changed) ∧
      (printMetadataJson = true →
        ∀ path ∈ [spec.generatedPythonPath, spec.generatedCircomPath, spec.generatedDebugTracePath],
          (args.repoRoot.join path).isRelativeTo args.repoRoot = true) := by
  have hrelative : ∀ path, relativeTo path args.repoRoot = .ok () ↔ path.isRelativeTo args.repoRoot = true := by
    intro path
    unfold relativeTo
    split_ifs with h
    · exact ⟨fun _ => h, fun _ => rfl⟩
    · exact ⟨fun hok => (by cases hok), fun h' => absurd h' h⟩
  rw [main_generate hcommand hgen]
  simp only [bind_ok, artifactPaths, Prod.exists]
  cases printMetadataJson with
  | false =>
    simp only [Bool.false_eq_true, if_false, pure_ok, Prod.mk.injEq, and_true, false_implies]
    constructor
    · rintro ⟨fs₁, hw, fs₂, changed, hs, rfl⟩
      exact ⟨fs₁, changed, hw, hs⟩
    · rintro ⟨fs₁, changed, hw, hs⟩
      exact ⟨fs₁, hw, fs', changed, hs, rfl⟩
  | true =>
    simp only [if_true, bind_ok, hrelative, pure_ok, Prod.mk.injEq, and_true, List.mem_cons, List.not_mem_nil,
      or_false, forall_eq_or_imp, forall_eq, true_implies]
    constructor
    · rintro ⟨fs₁, hw, fs₂, changed, hs, -, h1, -, h2, -, h3, rfl⟩
      exact ⟨fs₁, changed, hw, hs, h1, h2, h3⟩
    · rintro ⟨fs₁, changed, hw, hs, h1, h2, h3⟩
      exact ⟨fs₁, hw, fs', changed, hs, (), h1, (), h2, (), h3, rfl⟩

theorem manifestPath_name (args : CompilerArgs) : args.manifestPath.name? = some "manifest.json" := by
  simp [CompilerArgs.manifestPath, Pathname.name?, Pathname.child]

/-- A manifest that is there stays what it is while directories are added. -/
theorem stat_manifest_grows (hg : Grows fs dirs) (h : (fs.stat cwd args.manifestPath).isSome = true) :
    dirs.stat cwd args.manifestPath = fs.stat cwd args.manifestPath := by
  obtain ⟨node, hstat⟩ := Option.isSome_iff_exists.1 h
  rw [hstat]
  unfold stat at hstat ⊢
  rw [manifestPath_name] at hstat ⊢
  cases hres : fs.resolve cwd args.manifestPath with
  | none =>
    rw [hres] at hstat
    cases hstat
  | some loc =>
    have hres' : dirs.resolve cwd args.manifestPath = some loc := walk_grows hg hres
    rw [hres] at hstat
    rw [hres']
    exact hg.get hstat

/-- A manifest that is missing stays missing: where a directory has been made in its place, it cannot
be read. -/
theorem manifest_stays_absent {dir : Location} {found : Manifest} (hg : Grows fs dirs)
    (hdir : LeadsTo fs cwd args.specPath.parent dir) (hnone : fs.node (dir ++ ["manifest.json"]) = none)
    (hfound : manifestOf F cwd args.manifestPath dirs = .ok found) : found = .absent := by
  have hkeeps := hdir.keeps hg.keepsWays
  have hnode : dirs.node (dir ++ ["manifest.json"]) = none ∨ dirs.node (dir ++ ["manifest.json"]) = some .dir := by
    rcases hg (dir ++ ["manifest.json"]) with heq | ⟨-, hmade⟩
    · exact .inl (heq.trans hnone)
    · exact .inr hmade
  have hstat : dirs.stat cwd args.manifestPath = dirs.node (dir ++ ["manifest.json"]) := by
    apply hkeeps.stat_plain PlainWay.nil (by decide)
    intro target hlink
    rcases hnode with h | h
    · rw [List.nil_append, h] at hlink
      cases hlink
    · rw [List.nil_append, h] at hlink
      cases hlink
  unfold manifestOf at hfound
  rcases hnode with h | h
  · rw [hstat, h] at hfound
    exact (Except.ok.inj hfound).symm
  · have hread : dirs.read cwd args.manifestPath = none := by
      unfold FileSystem.read
      rw [hstat, h]
    unfold readText at hfound
    rw [hstat, h, hread] at hfound
    cases hfound

/-- **A run of `generate`**, step by step: the artifacts are written, `found` stands at the manifest's
pathname, and the repository it leaves is the same but for the metadata in the manifest. -/
structure Generated (F : PyJson.FloatReader) (cwd : Location) (args : CompilerArgs) (spec : PolicyDSLSpec)
    (art : CompilerArtifacts) (fs fs₁ fs' : Repository) (found : Manifest) : Prop where
  written : writeGeneratedArtifacts cwd args.repoRoot spec art fs = .ok fs₁
  finds : manifestOf F cwd args.manifestPath fs₁ = .ok found
  present : (fs.stat cwd args.manifestPath).isSome = true → manifestOf F cwd args.manifestPath fs = .ok found
  missing : ∀ dir, LeadsTo fs cwd args.specPath.parent dir → fs.node (dir ++ ["manifest.json"]) = none →
    found = .absent
  holds : Holds cwd args.repoRoot spec art fs'
  synced : ∀ fields, found = .object fields → ∃ fields',
    manifestOf F cwd args.manifestPath fs' = .ok (.object fields') ∧
    isCurrent fields' (buildCompilerMetadata spec art) = true ∧
    ∀ key, key ≠ compilerMetadataKey → fields'.lookup key = fields.lookup key
  untouched : (∀ fields, found ≠ .object fields) → fs' = fs₁

theorem generated_of_run {printMetadataJson : Bool} (hcommand : args.command = .generate printMetadataJson)
    (hgen : generatePolicyArtifacts sha256 spec = .ok art)
    (hapart : [args.repoRoot.join spec.generatedPythonPath, args.repoRoot.join spec.generatedCircomPath,
      args.repoRoot.join spec.generatedDebugTracePath, args.manifestPath].Pairwise (FileSystem.Apart fs cwd))
    (hrun : main F sha256 cwd args spec fs = .ok (fs', 0)) :
    ∃ fs₁ found, Generated F cwd args spec art fs fs₁ fs' found := by
  obtain ⟨fs₁, changed, hwrite, hsync, -⟩ := (main_generate_ok hcommand hgen).1 hrun
  obtain ⟨hfiles, hmanifest⟩ : [args.repoRoot.join spec.generatedPythonPath, args.repoRoot.join spec.generatedCircomPath,
      args.repoRoot.join spec.generatedDebugTracePath].Pairwise (FileSystem.Apart fs cwd) ∧
      ∀ path ∈ [spec.generatedPythonPath, spec.generatedCircomPath, spec.generatedDebugTracePath],
        FileSystem.Apart fs cwd (args.repoRoot.join path) args.manifestPath := by
    simp only [List.pairwise_cons, List.mem_cons, List.not_mem_nil, or_false, forall_eq_or_imp, forall_eq] at hapart ⊢
    tauto
  obtain ⟨hholds, dirs, hgrows, htarget, hframe⟩ := written_holds hwrite hfiles
  have hstat : fs₁.stat cwd args.manifestPath = dirs.stat cwd args.manifestPath :=
    hframe _ _ (manifestPath_name args) hmanifest
  obtain ⟨found, hfound⟩ : ∃ found, manifestOf F cwd args.manifestPath fs₁ = .ok found := by
    rw [sync_eq] at hsync
    obtain ⟨found, hfound, -⟩ := bind_ok.1 hsync
    exact ⟨found, hfound⟩
  have hfound' : manifestOf F cwd args.manifestPath dirs = .ok found := by rw [← manifestOf_congr hstat, hfound]
  refine ⟨fs₁, found, hwrite, hfound, ?_, ?_, ?_, ?_, ?_⟩
  · intro hsome
    rw [← manifestOf_congr (stat_manifest_grows hgrows hsome), hfound']
  · intro dir hdir hnone
    exact manifest_stays_absent hgrows hdir hnone hfound'
  · rcases sync_cases hfound hsync with ⟨rfl, -⟩ | ⟨fields, -, hsynced⟩
    · exact hholds
    · apply hholds.write hsynced
      intro path hpath loc hloc hother
      rw [htarget] at hloc hother
      exact hmanifest path hpath dirs hgrows loc hother hloc
  · rintro fields rfl
    rcases sync_cases hfound hsync with ⟨rfl, hcurrent⟩ | ⟨fields', hfields', hsynced⟩
    · exact ⟨fields, hfound, hcurrent fields rfl, fun _ _ => rfl⟩
    · obtain rfl := Manifest.object.inj hfields'
      refine ⟨_, manifestOf_written (manifestOf_loadable hfound) hsynced, isCurrent_synced _ _, ?_⟩
      intro key hkey
      exact PyJson.lookup_setField_of_ne hkey
  · intro hno
    rcases sync_cases hfound hsync with ⟨rfl, -⟩ | ⟨fields, hfields, -⟩
    · rfl
    · exact absurd hfields (hno fields)

namespace Generated

variable {fs₁ : Repository} {found : Manifest}

/-- What stands at the manifest's pathname afterwards. -/
theorem found_after (h : Generated F cwd args spec art fs fs₁ fs' found) :
    ∃ found', manifestOf F cwd args.manifestPath fs' = .ok found' ∧ found'.syncs = found.syncs ∧
      ∀ fields, found' = .object fields → isCurrent fields (buildCompilerMetadata spec art) = true := by
  cases found with
  | object fields =>
    obtain ⟨fields', hfound', hcurrent, -⟩ := h.synced fields rfl
    refine ⟨_, hfound', rfl, ?_⟩
    intro fields'' hfields''
    rw [← Manifest.object.inj hfields'']
    exact hcurrent
  | absent =>
    obtain rfl := h.untouched nofun
    exact ⟨_, h.finds, rfl, nofun⟩
  | malformed =>
    obtain rfl := h.untouched nofun
    exact ⟨_, h.finds, rfl, nofun⟩
  | noObject =>
    obtain rfl := h.untouched nofun
    exact ⟨_, h.finds, rfl, nofun⟩

/-- **The check after `generate`** answers by the manifest alone. -/
theorem checkDrift (h : Generated F cwd args spec art fs fs₁ fs' found)
    (hgen : generatePolicyArtifacts sha256 spec = .ok art) (hquoted : spec.NoCr)
    (hdigest : NoCr (sha256 spec.toJson.canonical)) :
    Vellum.checkDrift F cwd args.repoRoot spec art (some args.manifestPath) fs' = .ok found.syncs := by
  obtain ⟨found', hfound', hsyncs, hcurrent⟩ := h.found_after
  obtain ⟨hpython, hcircom, hdebugTrace⟩ := sources_noCr hgen hquoted hdigest
  rw [h.holds.checkDrift hpython hcircom hdebugTrace, hfound', ← hsyncs]
  cases found' with
  | object fields => exact congrArg Except.ok (hcurrent fields rfl)
  | _ => rfl

/-- **`generate` once more** changes nothing. -/
theorem again {printMetadataJson : Bool} (h : Generated F cwd args spec art fs fs₁ fs' found)
    (hcommand : args.command = .generate printMetadataJson) (hgen : generatePolicyArtifacts sha256 spec = .ok art)
    (hrun : main F sha256 cwd args spec fs = .ok (fs', 0)) : main F sha256 cwd args spec fs' = .ok (fs', 0) := by
  obtain ⟨-, -, -, -, hprinted⟩ := (main_generate_ok hcommand hgen).1 hrun
  obtain ⟨found', hfound', -, hcurrent⟩ := h.found_after
  refine (main_generate_ok hcommand hgen).2 ⟨fs', false, h.holds.again, ?_, hprinted⟩
  rw [sync_eq, hfound']
  cases found' with
  | object fields =>
    show (if isCurrent fields (buildCompilerMetadata spec art) then Except.ok (fs', false) else _) = _
    rw [if_pos (hcurrent fields rfl)]
  | _ => rfl

end Generated

/-- **Generate, then check.** Let the three artifacts and the manifest lie apart, and let no carriage
return stand in a text of the spec that the sources quote. Then a successful `generate` leaves a repository in which `check_drift`
reports no drift exactly if the manifest it found is missing or an object; a manifest that is no JSON or
no object is left alone by the one and refused by the other. No other key of the manifest changes, and
`generate` once more changes nothing. -/
theorem generate_then_check {printMetadataJson : Bool} (hcommand : args.command = .generate printMetadataJson)
    (hgen : generatePolicyArtifacts sha256 spec = .ok art) (hquoted : spec.NoCr)
    (hdigest : NoCr (sha256 spec.toJson.canonical))
    (hapart : [args.repoRoot.join spec.generatedPythonPath, args.repoRoot.join spec.generatedCircomPath,
      args.repoRoot.join spec.generatedDebugTracePath, args.manifestPath].Pairwise (FileSystem.Apart fs cwd))
    (hrun : main F sha256 cwd args spec fs = .ok (fs', 0)) :
    ∃ fs₁ found, writeGeneratedArtifacts cwd args.repoRoot spec art fs = .ok fs₁ ∧
      manifestOf F cwd args.manifestPath fs₁ = .ok found ∧
      ((fs.stat cwd args.manifestPath).isSome = true → manifestOf F cwd args.manifestPath fs = .ok found) ∧
      (∀ dir, LeadsTo fs cwd args.specPath.parent dir → fs.node (dir ++ ["manifest.json"]) = none →
        found = .absent) ∧
      (checkDrift F cwd args.repoRoot spec art (some args.manifestPath) fs' = .ok true ↔
        found = .absent ∨ ∃ fields, found = .object fields) ∧
      (∀ fields, found = .object fields → ∃ fields',
        manifestOf F cwd args.manifestPath fs' = .ok (.object fields') ∧
        ∀ key, key ≠ compilerMetadataKey → fields'.lookup key = fields.lookup key) ∧
      ((∀ fields, found ≠ .object fields) → fs' = fs₁) ∧
      main F sha256 cwd args spec fs' = .ok (fs', 0) := by
  obtain ⟨fs₁, found, h⟩ := generated_of_run hcommand hgen hapart hrun
  refine ⟨fs₁, found, h.written, h.finds, h.present, h.missing, ?_, ?_, h.untouched, h.again hcommand hgen hrun⟩
  · rw [h.checkDrift hgen hquoted hdigest]
    cases found with
    | absent => simp [Manifest.syncs]
    | malformed => simp [Manifest.syncs]
    | noObject => simp [Manifest.syncs]
    | object fields => simp [Manifest.syncs]
  · intro fields hfields
    obtain ⟨fields', hfound', -, hkeys⟩ := h.synced fields hfields
    exact ⟨fields', hfound', hkeys⟩

/-! ## A spec with a manifest beside it -/

/-- `float` that keeps every numeral. -/
def plainFloats : PyJson.FloatReader := ⟨.float, fun text h => .inr (.inr ⟨text, rfl, h, rfl⟩)⟩

/-- The root of a repository with a spec and a manifest. -/
def rootRepository (manifest : String) : Repository where
  node loc :=
    if loc = ["policy_spec.yaml"] then some (.file ByteArray.empty)
    else if loc = ["manifest.json"] then some (.file manifest.toUTF8)
    else none

/-- `generate policy_spec.yaml` in the root. -/
def rootArgs : CompilerArgs := ⟨.generate false, ⟨false, ["policy_spec.yaml"]⟩, ⟨false, []⟩⟩

/-- The spec with one parameter, which writes `p.py`, `p.circom` and `p.debug.json`. -/
def rootSpec : PolicyDSLSpec := oneParamSpec "threshold" (by decide)

theorem rootRepository_apart (manifest : String) :
    [rootArgs.repoRoot.join rootSpec.generatedPythonPath, rootArgs.repoRoot.join rootSpec.generatedCircomPath,
      rootArgs.repoRoot.join rootSpec.generatedDebugTracePath, rootArgs.manifestPath].Pairwise
        (FileSystem.Apart (rootRepository manifest) []) := by
  have hlinks : ∀ loc target, (rootRepository manifest).node loc ≠ some (.link target) := by
    intro loc target
    unfold rootRepository
    simp only
    split_ifs
    all_goals nofun
  have hpaths : [rootArgs.repoRoot.join rootSpec.generatedPythonPath, rootArgs.repoRoot.join rootSpec.generatedCircomPath,
      rootArgs.repoRoot.join rootSpec.generatedDebugTracePath, rootArgs.manifestPath].Pairwise
        fun p q => p.normalized [] ≠ q.normalized [] := by decide +kernel
  have hcwd : ∀ name ∈ ([] : Location), name ≠ "." ∧ name ≠ ".." := fun _ h => absurd h List.not_mem_nil
  exact hpaths.imp fun hne => apart_of_noLinks hlinks hcwd hne

/-- A digest, for a run without one. -/
def zeroDigest (_ : String) : String := "0"

theorem rootSpec_noCr : rootSpec.NoCr := by
  have hone : ∀ {s : String}, NoCr s → ∀ name ∈ [s], NoCr name := by
    intro s hs name hname
    rw [List.mem_singleton.1 hname]
    exact hs
  exact ⟨noCr_lit (by decide), noCr_lit (by decide), noCr_lit (by decide), hone (s := "threshold") (noCr_lit (by decide)),
    hone (s := "all_valid") (noCr_lit (by decide))⟩

section

variable {name : String} {data : ByteArray}

theorem target_root (hname : name ≠ "." ∧ name ≠ "..") (hlink : ∀ target, fs.node [name] ≠ some (.link target)) :
    fs.target [] ⟨false, [name]⟩ = some [name] := by
  have hways : fs.ways.node [name] = some .dir ∨ fs.ways.node [name] = some (.file ()) := by
    unfold ways
    simp only
    split
    · exact .inl rfl
    · next target hnode => exact absurd hnode (hlink target)
    · exact .inr rfl
  show fs.ways.walkWith _ [] [name] = some [name]
  rw [walkWith_name hname, List.nil_append]
  rcases hways with h | h
  · rw [h]
    rfl
  · rw [h]
    rfl

theorem name_root (hname : name ≠ "." ∧ name ≠ "..") : (⟨false, [name]⟩ : Pathname).name? = some name := by
  simp [Pathname.name?, hname]

/-- A file in the root is written where no directory and no link stands. -/
theorem write_root (hname : name ≠ "." ∧ name ≠ "..")
    (hfree : fs.node [name] = none ∨ ∃ old, fs.node [name] = some (.file old)) (data : ByteArray) :
    fs.write [] ⟨false, [name]⟩ data = .ok (fs.set [name] (some (.file data))) := by
  have hlink : ∀ target, fs.node [name] ≠ some (.link target) := by
    intro target h
    rcases hfree with hnone | ⟨old, hold⟩
    · rw [hnone] at h
      cases h
    · rw [hold] at h
      cases h
  exact write_eq_ok.2 ⟨[name], name, target_root hname hlink, name_root hname, hfree, rfl⟩

theorem stat_root (hname : name ≠ "." ∧ name ≠ "..") (hfile : fs.node [name] = some (.file data)) :
    fs.stat [] ⟨false, [name]⟩ = some (.file data) := by
  have hlink : ∀ target, fs.node [name] ≠ some (.link target) := by
    intro target h
    rw [hfile] at h
    cases h
  exact (stat_eq_some_of_name (name_root hname)).2 ⟨[name], target_root hname hlink, hfile⟩

end

/-- The artifacts are written into the root, beside the manifest. -/
theorem rootRepository_written (manifest : String) (art : CompilerArtifacts) :
    ∃ fs₁, writeGeneratedArtifacts [] rootArgs.repoRoot rootSpec art (rootRepository manifest) = .ok fs₁ ∧
      fs₁.node ["manifest.json"] = some (.file manifest.toUTF8) := by
  have hpaths : rootArgs.repoRoot.join rootSpec.generatedPythonPath = ⟨false, ["p.py"]⟩ ∧
      rootArgs.repoRoot.join rootSpec.generatedCircomPath = ⟨false, ["p.circom"]⟩ ∧
      rootArgs.repoRoot.join rootSpec.generatedDebugTracePath = ⟨false, ["p.debug.json"]⟩ := by decide +kernel
  have hset : ∀ (fs : Repository) {name other : String} (data : ByteArray), other ≠ name →
      (fs.set [name] (some (.file data))).node [other] = fs.node [other] := by
    intro fs name other data hne
    exact Function.update_of_ne (by simpa using hne) ..
  have hfree : ∀ (fs : Repository) {name : String} (data : ByteArray), name ≠ "." ∧ name ≠ ".." →
      fs.node [name] = none → fs.write [] ⟨false, [name]⟩ data = .ok (fs.set [name] (some (.file data))) :=
    fun fs name data hname hnone => write_root hname (.inl hnone) data
  let fs := rootRepository manifest
  let w₁ := fs.set ["p.py"] (some (.file art.pythonSource.toUTF8))
  let w₂ := w₁.set ["p.circom"] (some (.file art.circomSource.toUTF8))
  let fs₁ := w₂.set ["p.debug.json"] (some (.file art.debugTraceSource.toUTF8))
  refine ⟨fs₁, writeGeneratedArtifacts_ok.2 ⟨fs, fs, fs, w₁, w₂, ?_, ?_, ?_, ?_, ?_, ?_⟩, ?_⟩
  · rw [hpaths.1]
    rfl
  · rw [hpaths.2.1]
    rfl
  · rw [hpaths.2.2]
    rfl
  · rw [hpaths.1]
    exact hfree fs _ (by decide) rfl
  · rw [hpaths.2.1]
    exact hfree w₁ _ (by decide) (hset fs _ (by decide))
  · rw [hpaths.2.2]
    exact hfree w₂ _ (by decide) ((hset w₁ _ (by decide)).trans (hset fs _ (by decide)))
  · exact (hset w₂ _ (by decide)).trans ((hset w₁ _ (by decide)).trans (hset fs _ (by decide)))

/-- What stands at the manifest's pathname in the root. -/
theorem manifestOf_root {manifest : String} {found : Manifest} (hcr : NoCr manifest)
    (hnode : fs.node ["manifest.json"] = some (.file manifest.toUTF8))
    (hload : (match PyJson.loads plainFloats manifest.toList with
      | .error .decodeError => .ok .malformed
      | .error .valueError => .error .valueError
      | .ok (.obj fields) => .ok (.object fields)
      | .ok _ => .ok .noObject : Except CliError Manifest) = .ok found) :
    manifestOf plainFloats [] rootArgs.manifestPath fs = .ok found := by
  have hpath : rootArgs.manifestPath = ⟨false, ["manifest.json"]⟩ := rfl
  have hstat := stat_root (by decide) hnode
  unfold manifestOf
  rw [hpath, hstat, readText_of_read (read_of_stat hstat) hcr]
  exact hload

/-- `generate` in the root succeeds, whatever it finds at the manifest's pathname. -/
theorem rootRepository_generates {manifest : String} {found : Manifest} {art : CompilerArtifacts} (hcr : NoCr manifest)
    (hload : (match PyJson.loads plainFloats manifest.toList with
      | .error .decodeError => .ok .malformed
      | .error .valueError => .error .valueError
      | .ok (.obj fields) => .ok (.object fields)
      | .ok _ => .ok .noObject : Except CliError Manifest) = .ok found)
    (hgen : generatePolicyArtifacts zeroDigest rootSpec = .ok art) :
    ∃ fs', main plainFloats zeroDigest [] rootArgs rootSpec (rootRepository manifest) = .ok (fs', 0) := by
  obtain ⟨fs₁, hwritten, hnode⟩ := rootRepository_written manifest art
  have hfound := manifestOf_root hcr hnode hload
  have hwrite := fun text : String => @write_root fs₁ "manifest.json" (by decide) (.inr ⟨_, hnode⟩) text.toUTF8
  obtain ⟨fs', changed, hsync⟩ : ∃ fs' changed, syncManifestCompilerMetadata plainFloats [] rootArgs.manifestPath
      (buildCompilerMetadata rootSpec art) fs₁ = .ok (fs', changed) := by
    rw [sync_eq, hfound]
    cases found with
    | object fields =>
      show ∃ fs' changed, (if isCurrent fields (buildCompilerMetadata rootSpec art) then _ else _) = _
      split_ifs
      · exact ⟨fs₁, false, rfl⟩
      · have hok := writeText_ok.2 (hwrite (manifestText fields (buildCompilerMetadata rootSpec art)))
        exact ⟨_, true, map_ok.2 ⟨_, hok, rfl⟩⟩
    | absent => exact ⟨fs₁, false, rfl⟩
    | malformed => exact ⟨fs₁, false, rfl⟩
    | noObject => exact ⟨fs₁, false, rfl⟩
  exact ⟨fs', (main_generate_ok rfl hgen).2 ⟨fs₁, changed, hwritten, hsync, nofun⟩⟩

theorem rootSpec_accepted : ∃ art, generatePolicyArtifacts zeroDigest rootSpec = .ok art :=
  isOk_iff.1 (show (generatePolicyArtifacts zeroDigest rootSpec).isOk = true by decide +kernel)

/-- With an empty object for a manifest there is no drift after `generate`. -/
theorem generate_then_check_demo : ∃ art fs', generatePolicyArtifacts zeroDigest rootSpec = .ok art ∧
    main plainFloats zeroDigest [] rootArgs rootSpec (rootRepository "\x7b\x7d") = .ok (fs', 0) ∧
    checkDrift plainFloats [] rootArgs.repoRoot rootSpec art (some rootArgs.manifestPath) fs' = .ok true := by
  obtain ⟨art, hgen⟩ := rootSpec_accepted
  have hcr : NoCr "\x7b\x7d" := noCr_lit (by decide)
  obtain ⟨fs', hrun⟩ := @rootRepository_generates _ (.object []) art hcr rfl hgen
  have hprior := @manifestOf_root (rootRepository "\x7b\x7d") _ (.object []) hcr rfl rfl
  obtain ⟨fs₁, found, -, -, hpresent, -, hcheck, -⟩ := 
    @generate_then_check _ _ _ _ _ _ _ _ false rfl hgen rootSpec_noCr (noCr_lit (by decide))
      (rootRepository_apart _) hrun
  have hstat : ((rootRepository "\x7b\x7d").stat [] rootArgs.manifestPath).isSome = true := by
    have hfile := @stat_root (rootRepository "\x7b\x7d") "manifest.json" _ (by decide) rfl
    have hpath : rootArgs.manifestPath = ⟨false, ["manifest.json"]⟩ := rfl
    rw [hpath, hfile]
    rfl
  have hfound : found = .object [] := Except.ok.inj ((hpresent hstat).symm.trans hprior)
  exact ⟨art, fs', hgen, hrun, hcheck.2 (.inr ⟨[], hfound⟩)⟩

/-- **With a manifest that is no JSON the check fails after `generate`**, which succeeds. -/
theorem malformed_manifest_drifts : ∃ art fs', generatePolicyArtifacts zeroDigest rootSpec = .ok art ∧
    [rootArgs.repoRoot.join rootSpec.generatedPythonPath, rootArgs.repoRoot.join rootSpec.generatedCircomPath,
      rootArgs.repoRoot.join rootSpec.generatedDebugTracePath, rootArgs.manifestPath].Pairwise
        (FileSystem.Apart (rootRepository "none") []) ∧
    main plainFloats zeroDigest [] rootArgs rootSpec (rootRepository "none") = .ok (fs', 0) ∧
    checkDrift plainFloats [] rootArgs.repoRoot rootSpec art (some rootArgs.manifestPath) fs' = .ok false := by
  obtain ⟨art, hgen⟩ := rootSpec_accepted
  have hcr : NoCr "none" := noCr_lit (by decide)
  obtain ⟨fs', hrun⟩ := @rootRepository_generates _ .malformed art hcr rfl hgen
  obtain ⟨fs₁, found, h⟩ := @generated_of_run _ _ _ _ _ _ _ _ false rfl hgen (rootRepository_apart _) hrun
  obtain ⟨fs₂, hwritten, hnode⟩ := rootRepository_written "none" art
  obtain rfl : fs₁ = fs₂ := Except.ok.inj (h.written.symm.trans hwritten)
  have hfound : found = .malformed := Except.ok.inj (h.finds.symm.trans (manifestOf_root hcr hnode rfl))
  refine ⟨art, fs', hgen, rootRepository_apart _, hrun, ?_⟩
  rw [h.checkDrift hgen rootSpec_noCr (noCr_lit (by decide)), hfound]
  rfl

end Vellum
