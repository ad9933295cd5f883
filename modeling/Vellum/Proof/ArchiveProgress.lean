import Vellum.Proof.Archive
import Vellum.Proof.ArchiveCalls

/-!
# Whether archival makes progress

The database lists the oldest rows up to the limit, and archiving a file changes nothing in its
row: the next cycle is given the same rows again. Files beyond the limit are never reached.

* `Progress`: what the cycles have done to the files so far.
* `proofCycles_progress`: any number of cycles.
* `archives_all_iff`: when all files are archived after as many cycles as the limit asks for.
-/

namespace Vellum

open FileSystem Prog

variable {st : MaintenanceSettings} {base : Location} {fs fs₀ fs' : FileSystem StoredFile} {e e' : StoredProof}

/-! ## The files along the cycles -/

/-- The situation before the first cycle: the rows that the cutoff selects, now and later, have
proof files that are plain files under the root, with distinct names, and no links are on the way
into the archive. -/
structure Situation (st : MaintenanceSettings) (table : List ProofJob) (olderThan : ℚ) (base : Location)
    (fs₀ : FileSystem StoredFile) (entries : List StoredProof) : Prop where
  listed : ∀ cutoff, olderThan ≤ cutoff → table.filter (·.archivable cutoff) = entries.map StoredProof.job
  source : ∀ e ∈ entries, st.source? e.job = some (e.source st)
  reaches : ∀ e ∈ entries, Reaches st base fs₀ e
  file : ∀ e ∈ entries, fs₀.node (base ++ e.place) = some (.file e.file)
  noLinks : ∀ e ∈ entries, ∀ pre, pre ≠ [] → pre <+: e.archivePlace →
    ∀ target, fs₀.node (base ++ pre) ≠ some (.link target)
  distinct : (entries.map StoredProof.name).Nodup

/-- A link stands in the place of the file. -/
def LinkStands (base : Location) (fs : FileSystem StoredFile) (e : StoredProof) : Prop :=
  ∃ target, fs.node (base ++ e.place) = some (.link target)

/-- How far the archival has come: directories of the archive have been made, and files of `A` have
gone to their free places. -/
structure Progress (base : Location) (fs₀ : FileSystem StoredFile) (entries : List StoredProof)
    (A : StoredProof → Prop) (fs : FileSystem StoredFile) : Prop where
  node : ∀ loc, fs.node loc = fs₀.node loc ∨
    (fs₀.node loc = none ∧ fs.node loc = some .dir ∧
      ∃ e : StoredProof, ∃ pre, pre ≠ [] ∧ pre <+: e.monthDir ∧ loc = base ++ pre) ∨
    (∃ e ∈ entries, A e ∧ Free base fs₀ e ∧ LinkStands base fs e ∧
      (loc = base ++ e.place ∨ loc = base ++ e.archivePlace))
  archived : ∀ e ∈ entries, LinkStands base fs e →
    fs.node (base ++ e.archivePlace) = some (.file e.file) ∧ PlainWay fs base e.monthDir

variable {table : List ProofJob} {olderThan : ℚ} {entries : List StoredProof} {A : StoredProof → Prop}

namespace Situation

/-- The name tells the files apart. -/
theorem eq_of_name (h : Situation st table olderThan base fs₀ entries) (he : e ∈ entries) (he' : e' ∈ entries)
    (hname : e.name = e'.name) : e = e' :=
  List.inj_on_of_nodup_map h.distinct he he' hname

/-- Places end in their names. -/
theorem eq_of_place (h : Situation st table olderThan base fs₀ entries) (he : e ∈ entries) (he' : e' ∈ entries)
    (hplace : base ++ e.place = base ++ e'.place) : e = e' := by
  refine h.eq_of_name he he' ?_
  have hlast := List.append_inj_right' (List.append_cancel_left hplace) rfl
  exact (List.cons.inj hlast).1

theorem eq_of_archivePlace (h : Situation st table olderThan base fs₀ entries) (he : e ∈ entries) (he' : e' ∈ entries)
    (hplace : base ++ e.archivePlace = base ++ e'.archivePlace) : e = e' := by
  refine h.eq_of_name he he' ?_
  have hlast := List.append_inj_right' (List.append_cancel_left hplace) rfl
  exact (List.cons.inj hlast).1

/-- A file that can be archived stands on no way into the archive. -/
theorem place_off_way (h : Situation st table olderThan base fs₀ entries) (he : e ∈ entries) (hfree : Free base fs₀ e)
    {pre : List String} (hne : pre ≠ []) (hpre : pre <+: e'.archivePlace) : base ++ e.place ≠ base ++ pre := by
  intro heq
  have hplace := List.append_cancel_left heq
  have hfile := h.file e he
  rw [hplace] at hfile
  -- beyond `archive` it would lie in the archive; `archive` itself has to be a directory
  match pre, hne, hpre with
  | [x], _, hpre =>
    have hdir := hfree.dirs [x] (by simp) (by
      have hx : x = "archive" := (List.cons_prefix_cons.1 hpre).1
      rw [hx]
      simp [StoredProof.monthDir])
    rw [hfile] at hdir
    rcases hdir with hdir | hdir
    · cases hdir
    · cases hdir
  | x :: y :: rest, _, hpre =>
    obtain ⟨hx, hrest⟩ := List.cons_prefix_cons.1 hpre
    obtain ⟨hy, -⟩ := List.cons_prefix_cons.1 hrest
    refine hfree.outside ?_
    rw [InArchive, hplace, hx, hy]
    simp

end Situation

namespace Progress

/-- Directories and links stay throughout. -/
theorem keepsWays (h : Situation st table olderThan base fs₀ entries) (hp : Progress base fs₀ entries A fs) :
    KeepsWays fs₀ fs := by
  intro loc node hnode hnot
  rcases hp.node loc with heq | ⟨hnone, -⟩ | ⟨e, he, -, hfree, -, rfl | rfl⟩
  · exact heq.trans hnode
  · rw [hnone] at hnode
    cases hnode
  · rw [h.file e he] at hnode
    exact absurd (Option.some.inj hnode).symm (hnot _)
  · rw [hfree.place] at hnode
    cases hnode

/-- A file is where it was, or a link stands there and it is one of `A` whose place was free. -/
theorem file_or_linked (h : Situation st table olderThan base fs₀ entries) (hp : Progress base fs₀ entries A fs)
    (he : e ∈ entries) : fs.node (base ++ e.place) = some (.file e.file) ∨
      (LinkStands base fs e ∧ A e ∧ Free base fs₀ e) := by
  rcases hp.node (base ++ e.place) with heq | ⟨hnone, -⟩ | ⟨e', he', hA, hfree, hlink, hloc | hloc⟩
  · exact .inl (heq.trans (h.file e he))
  · rw [h.file e he] at hnone
    cases hnone
  · obtain rfl := h.eq_of_place he he' hloc
    exact .inr ⟨hlink, hA, hfree⟩
  · have hnone := hfree.place
    rw [← hloc, h.file e he] at hnone
    cases hnone

/-- What stands on the way into the archive, or at a place there. -/
theorem on_way (h : Situation st table olderThan base fs₀ entries) (hp : Progress base fs₀ entries A fs)
    {pre : List String} (hne : pre ≠ []) (hpre : pre <+: e.archivePlace) :
    fs.node (base ++ pre) = fs₀.node (base ++ pre) ∨
    (fs₀.node (base ++ pre) = none ∧ fs.node (base ++ pre) = some .dir ∧ pre <+: e.monthDir) ∨
    (∃ e' ∈ entries, LinkStands base fs e' ∧ base ++ pre = base ++ e'.archivePlace ∧ fs₀.node (base ++ pre) = none ∧
      fs.node (base ++ pre) = some (.file e'.file)) := by
  rcases hp.node (base ++ pre) with heq | ⟨hnone, hdir, e', q, -, hq, hloc⟩ | ⟨e', he', -, hfree, hlink, hloc | hloc⟩
  · exact .inl heq
  · refine .inr (.inl ⟨hnone, hdir, ?_⟩)
    rcases List.prefix_concat_iff.1 hpre with rfl | hpre
    · exact absurd hloc (archivePlace_ne_monthDir e' e hq)
    · exact hpre
  · exact absurd hloc.symm (h.place_off_way he' hfree hne hpre)
  · refine .inr (.inr ⟨e', he', hlink, hloc, ?_, ?_⟩)
    · rw [hloc]
      exact hfree.place
    · rw [hloc]
      exact (hp.archived e' he' hlink).1

/-- There are still no links on the way into the archive. -/
theorem noLinks (h : Situation st table olderThan base fs₀ entries) (hp : Progress base fs₀ entries A fs)
    (he : e ∈ entries) {pre : List String} (hne : pre ≠ []) (hpre : pre <+: e.archivePlace) (target : Pathname) :
    fs.node (base ++ pre) ≠ some (.link target) := by
  rcases hp.on_way h hne hpre with heq | ⟨-, hdir, -⟩ | ⟨e', -, -, -, -, hfile⟩
  · rw [heq]
    exact h.noLinks e he pre hne hpre target
  · rw [hdir]
    exact nofun
  · rw [hfile]
    exact nofun

/-- **A place is free now iff it was**, as long as the file is where it was. -/
theorem free_iff (h : Situation st table olderThan base fs₀ entries) (hp : Progress base fs₀ entries A fs)
    (he : e ∈ entries) (hfile : fs.node (base ++ e.place) = some (.file e.file)) :
    Free base fs e ↔ Free base fs₀ e := by
  have hway : ∀ {pre}, pre <+: e.monthDir → pre <+: e.archivePlace := fun hpre =>
    hpre.trans (List.prefix_append _ _)
  have hself : e.archivePlace ≠ [] := by simp [StoredProof.archivePlace]
  constructor
  · intro hfree
    refine ⟨hfree.outside, fun pre hne hpre => ?_, ?_⟩
    · rcases hp.on_way h hne (hway hpre) with heq | ⟨hnone, -⟩ | ⟨e', -, -, -, hnone, -⟩
      · rw [← heq]
        exact hfree.dirs pre hne hpre
      · exact .inl hnone
      · exact .inl hnone
    · rcases hp.on_way h hself (List.prefix_refl _) with heq | ⟨hnone, -⟩ | ⟨e', -, -, -, hnone, -⟩
      · rw [← heq]
        exact hfree.place
      · exact hnone
      · exact hnone
  · intro hfree
    refine ⟨hfree.outside, fun pre hne hpre => ?_, ?_⟩
    · rcases hp.on_way h hne (hway hpre) with heq | ⟨-, hdir, -⟩ | ⟨e', -, -, hloc, -⟩
      · rw [heq]
        exact hfree.dirs pre hne hpre
      · exact .inr hdir
      · exact absurd hloc.symm (archivePlace_ne_monthDir e e' hpre)
    · rcases hp.on_way h hself (List.prefix_refl _) with heq | ⟨-, -, hpre⟩ | ⟨e', he', hlink, hloc, -⟩
      · rw [heq]
        exact hfree.place
      · exact absurd rfl (@archivePlace_ne_monthDir base e e _ hpre)
      · -- only the file itself goes to this place
        obtain rfl := h.eq_of_archivePlace he he' hloc
        obtain ⟨target, htarget⟩ := hlink
        rw [hfile] at htarget
        cases htarget

end Progress

theorem progress_refl (h : Situation st table olderThan base fs₀ entries) : Progress base fs₀ entries A fs₀ := by
  refine ⟨fun _ => .inl rfl, fun e he hlinked => ?_⟩
  obtain ⟨target, htarget⟩ := hlinked
  rw [h.file e he] at htarget
  cases htarget

/-! ## A call and a cycle -/

/-- Directories made for a month are progress. -/
theorem progress_madeMonth (hp : Progress base fs₀ entries A fs) (hmade : MadeMonth base e fs fs') :
    Progress base fs₀ entries A fs' := by
  obtain ⟨hg, hframe⟩ := hmade
  have hstays : ∀ {e'}, LinkStands base fs e' → LinkStands base fs' e' := fun ⟨target, htarget⟩ =>
    ⟨target, hg.node htarget⟩
  refine ⟨fun loc => ?_, fun e' he' hlink => ?_⟩
  · rcases hg loc with heq | ⟨hnone, hdir⟩
    · rw [heq]
      rcases hp.node loc with h | h | ⟨e', he', hA, hfree, hlink, hloc⟩
      · exact .inl h
      · exact .inr (.inl h)
      · exact .inr (.inr ⟨e', he', hA, hfree, hstays hlink, hloc⟩)
    · -- a new directory: nothing was there from the start
      have hpre : ∃ pre, pre ≠ [] ∧ pre <+: e.monthDir ∧ loc = base ++ pre := by
        by_contra hno
        push Not at hno
        have heq := hframe loc hno
        rw [hnone, hdir] at heq
        cases heq
      have hnone₀ : fs₀.node loc = none := by
        rcases hp.node loc with h | ⟨h, -⟩ | ⟨e', he', -, hfree, ⟨target, htarget⟩, rfl | rfl⟩
        · exact h.symm.trans hnone
        · exact h
        · rw [htarget] at hnone
          cases hnone
        · exact hfree.place
      exact .inr (.inl ⟨hnone₀, hdir, e, hpre⟩)
  · obtain ⟨target, htarget⟩ := hlink
    have hlink : LinkStands base fs e' := by
      rcases hg (base ++ e'.place) with heq | ⟨-, hdir⟩
      · exact ⟨target, heq.symm.trans htarget⟩
      · rw [htarget] at hdir
        cases hdir
    obtain ⟨hfile, hway⟩ := hp.archived e' he' hlink
    exact ⟨hg.node hfile, hway.keeps hg.keepsWays⟩

/-- The swap leaves directories and other links where they are. -/
theorem keepsWays_swapped {target : Pathname} (hfile : fs.node (base ++ e.place) = some (.file e.file))
    (hnone : fs.node (base ++ e.archivePlace) = none) : KeepsWays fs (swapped base e target fs) := by
  intro loc node hnode hnot
  have hplace : loc ≠ base ++ e.place := by
    rintro rfl
    rw [hfile] at hnode
    exact hnot _ (Option.some.inj hnode).symm
  have harchive : loc ≠ base ++ e.archivePlace := by
    rintro rfl
    rw [hnone] at hnode
    cases hnode
  exact (Function.update_of_ne hplace ..).trans
    ((Function.update_of_ne harchive ..).trans ((Function.update_of_ne hplace ..).trans hnode))

theorem linkStands_swapped (base : Location) (e : StoredProof) (target : Pathname) (fs : FileSystem StoredFile) :
    LinkStands base (swapped base e target fs) e :=
  ⟨target, Function.update_self ..⟩

/-- A file that goes to its free place is progress. -/
theorem progress_swapped (h : Situation st table olderThan base fs₀ entries) (hp : Progress base fs₀ entries A fs)
    (he : e ∈ entries) (hA : A e) (hfree : Free base fs₀ e) (hway : PlainWay fs base e.monthDir)
    (hfile : fs.node (base ++ e.place) = some (.file e.file)) (hnone : fs.node (base ++ e.archivePlace) = none)
    (target : Pathname) : Progress base fs₀ entries A (swapped base e target fs) := by
  have hne : base ++ e.place ≠ base ++ e.archivePlace := place_ne_archivePlace hfree.outside
  have hkeeps : KeepsWays fs (swapped base e target fs) := keepsWays_swapped hfile hnone
  have hplaced : (swapped base e target fs).node (base ++ e.archivePlace) = some (.file e.file) :=
    (Function.update_of_ne hne.symm ..).trans (Function.update_self ..)
  have hother : ∀ loc, loc ≠ base ++ e.place → loc ≠ base ++ e.archivePlace →
      (swapped base e target fs).node loc = fs.node loc := fun loc hplace harchive =>
    (Function.update_of_ne hplace ..).trans
      ((Function.update_of_ne harchive ..).trans (Function.update_of_ne hplace ..))
  refine ⟨fun loc => ?_, fun e' he' hlink => ?_⟩
  · by_cases hplace : loc = base ++ e.place
    · exact .inr (.inr ⟨e, he, hA, hfree, linkStands_swapped .., .inl hplace⟩)
    by_cases harchive : loc = base ++ e.archivePlace
    · exact .inr (.inr ⟨e, he, hA, hfree, linkStands_swapped .., .inr harchive⟩)
    rw [hother loc hplace harchive]
    rcases hp.node loc with heq | hdir | ⟨e', he', hA', hfree', ⟨target', htarget'⟩, hloc⟩
    · exact .inl heq
    · exact .inr (.inl hdir)
    · exact .inr (.inr ⟨e', he', hA', hfree', ⟨target', hkeeps _ _ htarget' nofun⟩, hloc⟩)
  · by_cases hself : e' = e
    · subst hself
      exact ⟨hplaced, hway.keeps hkeeps⟩
    · -- another file: its link stood there before
      obtain ⟨target', htarget'⟩ := hlink
      have hplace : base ++ e'.place ≠ base ++ e.place := fun heq => hself (h.eq_of_place he' he heq)
      have harchive : base ++ e'.place ≠ base ++ e.archivePlace := by
        intro heq
        rw [heq, hplaced] at htarget'
        cases htarget'
      rw [hother _ hplace harchive] at htarget'
      obtain ⟨hfile', hway'⟩ := hp.archived e' he' ⟨target', htarget'⟩
      refine ⟨?_, hway'.keeps hkeeps⟩
      rw [hother _ ?_ ?_]
      · exact hfile'
      · exact (h.place_off_way he hfree (by simp [StoredProof.archivePlace]) (List.prefix_refl _)).symm
      · exact fun heq => hself (h.eq_of_archivePlace he' he heq)

/-- **One call**: it is progress, links stay, and a file whose place was free is a link afterwards. -/
theorem archivePath_progress (h : Situation st table olderThan base fs₀ entries) (hp : Progress base fs₀ entries A fs)
    (he : e ∈ entries) (hA : A e) :
    Progress base fs₀ entries A ((st.archivePath (e.source st) "proofs").runOn (answerFs st.cwd) fs).2 ∧
    KeepsWays fs ((st.archivePath (e.source st) "proofs").runOn (answerFs st.cwd) fs).2 ∧
    (Free base fs₀ e → (∃ done, ((st.archivePath (e.source st) "proofs").runOn (answerFs st.cwd) fs).1 = .ok done) ∧
      LinkStands base ((st.archivePath (e.source st) "proofs").runOn (answerFs st.cwd) fs).2 e) := by
  have hreaches := (h.reaches e he).keeps (hp.keepsWays h)
  rcases hp.file_or_linked h he with hfile | ⟨⟨target, htarget⟩, -⟩
  · by_cases hfree : Free base fs e
    · obtain ⟨fs₁, target, hmade, hway, hrun⟩ := archivePath_archives hreaches hfile hfree
      have hfree₀ := (hp.free_iff h he hfile).1 hfree
      have hfile₁ := hmade.1.node hfile
      have hnone₁ : fs₁.node (base ++ e.archivePlace) = none :=
        (hmade.2 _ fun pre _ hpre => archivePlace_ne_monthDir e e hpre).trans hfree.place
      rw [hrun]
      refine ⟨progress_swapped h (progress_madeMonth hp hmade) he hA hfree₀ hway hfile₁ hnone₁ target, ?_, fun _ => ?_⟩
      · intro loc node hnode hnot
        exact keepsWays_swapped hfile₁ hnone₁ loc node (hmade.1.node hnode) hnot
      · exact ⟨⟨true, rfl⟩, linkStands_swapped ..⟩
    · have hmade := archivePath_keeps hreaches hfile (fun pre hne hpre => hp.noLinks h he hne hpre) hfree
      refine ⟨progress_madeMonth hp hmade, hmade.1.keepsWays, fun hfree₀ => ?_⟩
      exact absurd ((hp.free_iff h he hfile).2 hfree₀) hfree
  · rw [hreaches.run_linked htarget]
    exact ⟨hp, fun _ _ hnode _ => hnode, fun _ => ⟨⟨false, rfl⟩, target, htarget⟩⟩

/-- **A cycle**: the same over its candidates. A call that raises ends it. -/
theorem archiveProofs_progress (h : Situation st table olderThan base fs₀ entries) (hp : Progress base fs₀ entries A fs)
    {es : List StoredProof} (hes : ∀ e ∈ es, e ∈ entries ∧ A e) (archived : ℕ) :
    Progress base fs₀ entries A ((st.archiveProofs (es.map (·.source st)) archived).runOn (answerFs st.cwd) fs).2 ∧
    KeepsWays fs ((st.archiveProofs (es.map (·.source st)) archived).runOn (answerFs st.cwd) fs).2 ∧
    ((∀ e ∈ es, Free base fs₀ e) → ∀ e ∈ es,
      LinkStands base ((st.archiveProofs (es.map (·.source st)) archived).runOn (answerFs st.cwd) fs).2 e) := by
  induction es generalizing fs archived with
  | nil => exact ⟨hp, fun _ _ hnode _ => hnode, fun _ _ he => nomatch he⟩
  | cons e es ih =>
    obtain ⟨he, hA⟩ := hes e (List.mem_cons_self ..)
    have hes' := fun x hx => hes x (List.mem_cons_of_mem _ hx)
    obtain ⟨hp₁, hk₁, hfree₁⟩ := archivePath_progress h hp he hA
    rw [List.map_cons, ArchiveSettings.archiveProofs]
    rcases hrun : (st.archivePath (e.source st) "proofs").runOn (answerFs st.cwd) fs with ⟨err | done, fs₁⟩
    · rw [hrun] at hp₁ hk₁ hfree₁
      rw [runOn_bind_of_error hrun]
      refine ⟨hp₁, hk₁, fun hall => ?_⟩
      obtain ⟨⟨done, hdone⟩, -⟩ := hfree₁ (hall e (List.mem_cons_self ..))
      cases hdone
    · rw [hrun] at hp₁ hk₁ hfree₁
      rw [runOn_bind_of_ok hrun]
      obtain ⟨hp₂, hk₂, hfree₂⟩ := ih hp₁ hes' (if done = true then archived + 1 else archived)
      refine ⟨hp₂, fun loc node hnode hnot => hk₂ loc node (hk₁ loc node hnode hnot) hnot, fun hall x hx => ?_⟩
      rcases List.mem_cons.1 hx with rfl | hx
      · obtain ⟨target, htarget⟩ := (hfree₁ (hall x (List.mem_cons_self ..))).2
        exact ⟨target, hk₂ _ _ htarget nofun⟩
      · exact hfree₂ (fun y hy => hall y (List.mem_cons_of_mem _ hy)) x hx

/-- The candidates of rows of the table. -/
theorem filterMap_source (h : Situation st table olderThan base fs₀ entries) {es : List StoredProof}
    (hes : ∀ e ∈ es, e ∈ entries) :
    (es.map StoredProof.job).filterMap st.source? = es.map (·.source st) := by
  induction es with
  | nil => rfl
  | cons e es ih =>
    rw [List.map_cons, List.filterMap_cons, h.source e (hes e (List.mem_cons_self ..)),
      ih fun x hx => hes x (List.mem_cons_of_mem _ hx), List.map_cons]

/-- Consecutive cycles on candidates of `A` are progress. -/
theorem proofCycles_progress (h : Situation st table olderThan base fs₀ entries) (hp : Progress base fs₀ entries A fs)
    {answers : List (List ProofJob)}
    (hanswers : ∀ a ∈ answers, ∃ es : List StoredProof, (∀ e ∈ es, e ∈ entries ∧ A e) ∧ a = es.map StoredProof.job) :
    Progress base fs₀ entries A (st.proofCycles fs answers) := by
  induction answers generalizing fs with
  | nil => exact hp
  | cons a answers ih =>
    obtain ⟨es, hes, rfl⟩ := hanswers a (List.mem_cons_self ..)
    have hcycle := (archiveProofs_progress h hp hes 0).1
    rw [← filterMap_source h fun e he => (hes e he).1] at hcycle
    exact ih hcycle fun b hb => hanswers b (List.mem_cons_of_mem _ hb)

/-! ## What the database lists -/

/-- A permutation of the rows is one of the entries. -/
theorem perm_map_job {jobs : List ProofJob} {entries : List StoredProof}
    (h : jobs.Perm (entries.map StoredProof.job)) :
    ∃ es : List StoredProof, es.Perm entries ∧ jobs = es.map StoredProof.job := by
  generalize hl : entries.map StoredProof.job = l at h
  induction h generalizing entries with
  | nil => exact ⟨[], by rw [List.map_eq_nil_iff.1 hl], rfl⟩
  | cons x _ ih =>
    obtain ⟨e, es, rfl, rfl, hes⟩ := List.map_eq_cons_iff.1 hl
    obtain ⟨es', hperm, rfl⟩ := ih hes
    exact ⟨e :: es', hperm.cons e, rfl⟩
  | swap x y l =>
    obtain ⟨e, es, rfl, rfl, hes⟩ := List.map_eq_cons_iff.1 hl
    obtain ⟨e', es', rfl, rfl, rfl⟩ := List.map_eq_cons_iff.1 hes
    exact ⟨e' :: e :: es', .swap e e' es', rfl⟩
  | trans _ _ ih₁ ih₂ =>
    obtain ⟨es, hperm, rfl⟩ := ih₂ hl
    obtain ⟨es', hperm', rfl⟩ := ih₁ rfl
    exact ⟨es', hperm'.trans hperm, rfl⟩

/-- The limit of a cycle, where it is within the bounds. -/
theorem boundedLimit_eq {limit : ℕ} (h1 : 1 ≤ limit) (h2 : limit ≤ 2000) : boundedLimit limit = limit := by
  unfold boundedLimit
  omega

/-- The entries, the oldest rows first. -/
def oldestFirst (entries : List StoredProof) : List StoredProof :=
  entries.mergeSort fun a b => a.job.updatedAt ≤ b.job.updatedAt

theorem oldestFirst_perm (entries : List StoredProof) : (oldestFirst entries).Perm entries :=
  List.mergeSort_perm ..

/-- The oldest rows may be listed again and again. -/
theorem lists_oldestFirst (h : Situation st table olderThan base fs₀ entries) (limit : ℕ) :
    ListsForArchival table olderThan limit
      (((oldestFirst entries).take (boundedLimit limit)).map StoredProof.job) := by
  refine ⟨(oldestFirst entries).map StoredProof.job, ?_, ?_, ?_⟩
  · rw [h.listed olderThan le_rfl]
    exact (oldestFirst_perm entries).map _
  · rw [List.pairwise_map]
    have hsorted := @List.pairwise_mergeSort StoredProof (fun a b => decide (a.job.updatedAt ≤ b.job.updatedAt))
      (fun a b c hab hbc => by
        simp only [decide_eq_true_eq] at hab hbc ⊢
        exact le_trans hab hbc)
      (fun a b => by
        simp only [Bool.or_eq_true, decide_eq_true_eq]
        exact le_total _ _) entries
    exact hsorted.imp fun hab => by simpa using hab
  · rw [List.map_take]

/-! ## When all files are archived -/

/-- Whatever the database lists, all files are archived after as many cycles as it takes to list
that many rows. -/
def ArchivesAll (st : MaintenanceSettings) (table : List ProofJob) (olderThan : ℚ) (fs : FileSystem StoredFile)
    (entries : List StoredProof) : Prop :=
  ∀ answers : List (List ProofJob),
    answers.length = (entries.length + st.fileScanLimit - 1) / st.fileScanLimit →
    (∀ a ∈ answers, ∃ cutoff, olderThan ≤ cutoff ∧ ListsForArchival table cutoff st.fileScanLimit a) →
    ∀ e ∈ entries, st.Archived (st.proofCycles fs answers) (e.source st) e.file

/-- A file that is archived is one of `A` whose place was free. -/
theorem archived_free (h : Situation st table olderThan base fs₀ entries) (hp : Progress base fs₀ entries A fs)
    (he : e ∈ entries) (harchived : st.Archived fs (e.source st) e.file) : A e ∧ Free base fs₀ e := by
  obtain ⟨⟨target, htarget⟩, -⟩ := harchived
  rw [((h.reaches e he).keeps (hp.keepsWays h)).lstat] at htarget
  rcases hp.file_or_linked h he with hfile | ⟨-, hA, hfree⟩
  · rw [hfile] at htarget
    cases htarget
  · exact ⟨hA, hfree⟩

/-- A file in whose place a link stands is archived. -/
theorem archived_of_linked (h : Situation st table olderThan base fs₀ entries) (hp : Progress base fs₀ entries A fs)
    (he : e ∈ entries) (hlink : LinkStands base fs e) : st.Archived fs (e.source st) e.file := by
  have hreaches := (h.reaches e he).keeps (hp.keepsWays h)
  obtain ⟨hfile, hway⟩ := hp.archived e he hlink
  obtain ⟨target, htarget⟩ := hlink
  refine ⟨⟨target, hreaches.lstat.trans htarget⟩, ?_⟩
  rw [target_eq]
  exact hreaches.root.read_plain hway hreaches.name hfile

/-- The cycles that are given the oldest rows every time. -/
theorem progress_oldest (h : Situation st table olderThan base fs₀ entries) (cycles : ℕ) :
    Progress base fs₀ entries (fun e => e ∈ (oldestFirst entries).take (boundedLimit st.fileScanLimit))
      (st.proofCycles fs₀ (List.replicate cycles
        (((oldestFirst entries).take (boundedLimit st.fileScanLimit)).map StoredProof.job))) := by
  refine proofCycles_progress h (progress_refl h) fun a ha => ?_
  rw [List.eq_of_mem_replicate ha]
  refine ⟨_, fun e he => ⟨?_, he⟩, rfl⟩
  exact (oldestFirst_perm entries).mem_iff.1 (List.mem_of_mem_take he)

/-- Where all files are archived, their rows are among the oldest up to the limit. -/
theorem listed_of_archivesAll (h : Situation st table olderThan base fs₀ entries)
    (hall : ArchivesAll st table olderThan fs₀ entries) (he : e ∈ entries) :
    e ∈ (oldestFirst entries).take (boundedLimit st.fileScanLimit) ∧ Free base fs₀ e := by
  -- the database lists the oldest rows in every cycle
  have hdone := hall _ (List.length_replicate ..) (fun a ha => by
    rw [List.eq_of_mem_replicate ha]
    exact ⟨olderThan, le_rfl, lists_oldestFirst h _⟩)
  exact archived_free h (progress_oldest h _) he (hdone e he)

theorem length_le_of_archivesAll (h : Situation st table olderThan base fs₀ entries)
    (hall : ArchivesAll st table olderThan fs₀ entries) : entries.length ≤ boundedLimit st.fileScanLimit := by
  have hnodup : entries.Nodup := List.Nodup.of_map _ h.distinct
  have hsub : entries ⊆ (oldestFirst entries).take (boundedLimit st.fileScanLimit) := fun e he =>
    (listed_of_archivesAll h hall he).1
  calc entries.length ≤ ((oldestFirst entries).take (boundedLimit st.fileScanLimit)).length :=
        (List.subperm_of_subset hnodup hsub).length_le
    _ ≤ boundedLimit st.fileScanLimit := List.length_take_le ..

/-- **When archival keeps up**: whatever the database lists, all files are archived after
`⌈n / limit⌉` cycles iff they are no more than the limit and their places in the archive are free. -/
theorem archives_all_iff (st : MaintenanceSettings) (table : List ProofJob) (olderThan : ℚ) (base : Location)
    (fs : FileSystem StoredFile) (entries : List StoredProof) (h : Situation st table olderThan base fs entries)
    (h1 : 1 ≤ st.fileScanLimit) (h2 : st.fileScanLimit ≤ 2000) :
    ArchivesAll st table olderThan fs entries ↔
      entries.length ≤ st.fileScanLimit ∧ ∀ e ∈ entries, Free base fs e := by
  have hlimit := boundedLimit_eq h1 h2
  constructor
  · intro hall
    have hle := length_le_of_archivesAll h hall
    rw [hlimit] at hle
    exact ⟨hle, fun e he => (listed_of_archivesAll h hall he).2⟩
  · rintro ⟨hle, hfree⟩ answers hlen hanswers e he
    have hpos : 0 < entries.length := List.length_pos_of_mem he
    -- one cycle, which is given all rows
    have hone : answers.length = 1 := by
      rw [hlen]
      exact Nat.div_eq_of_lt_le (by omega) (by omega)
    obtain ⟨a, rfl⟩ := List.length_eq_one_iff.1 hone
    obtain ⟨cutoff, hcut, ordered, hperm, -, rfl⟩ := hanswers a (List.mem_singleton_self a)
    rw [h.listed cutoff hcut] at hperm
    obtain ⟨es, hes, rfl⟩ := perm_map_job hperm
    have htake : (es.map StoredProof.job).take (boundedLimit st.fileScanLimit) = es.map StoredProof.job := by
      refine List.take_of_length_le ?_
      rw [List.length_map, hes.length_eq, hlimit]
      exact hle
    have hmem : ∀ x ∈ es, x ∈ entries := fun x hx => hes.mem_iff.1 hx
    have hcycle := archiveProofs_progress (A := fun _ => True) h (progress_refl h) (fun x hx => ⟨hmem x hx, trivial⟩) 0
    have hresult : st.proofCycles fs [(es.map StoredProof.job).take (boundedLimit st.fileScanLimit)] =
        ((st.archiveProofs (es.map (·.source st)) 0).runOn (answerFs st.cwd) fs).2 := by
      rw [htake, ← filterMap_source h hmem]
      rfl
    rw [hresult]
    exact archived_of_linked h hcycle.1 he (hcycle.2.2 (fun x hx => hfree x (hmem x hx)) e (hes.mem_iff.2 he))

/-! ### Two files -/

/-- A completed job and its file under `/proofs`. -/
def completedProof (name : String) : StoredProof where
  job := { NewJob.row ⟨name, "batch_credit_check", .completed, "sealed", "fingerprint", .null, .empty⟩ 0 with
    proofPath := some ("/proofs/" ++ name) }
  dirs := []
  name := name
  file := ⟨name, proofChanged⟩

def twoEntries : List StoredProof := [completedProof "proof-1.json", completedProof "proof-2.json"]

/-- The files of both jobs. -/
def twoFiles : FileSystem StoredFile :=
  ⟨fun loc =>
    if loc = ["proofs"] then some .dir
    else if loc = ["proofs", "proof-1.json"] then some (.file (completedProof "proof-1.json").file)
    else if loc = ["proofs", "proof-2.json"] then some (.file (completedProof "proof-2.json").file)
    else none⟩

/-- Proof files under `/proofs`, so many a cycle. -/
def scanLimit (limit : ℕ) : MaintenanceSettings := ⟨⟨[], ⟨true, ["proofs"]⟩⟩, id, limit⟩

/-- Nothing is in the archive yet. -/
theorem twoFiles_archive {pre : List String} (hne : pre ≠ []) (hpre : pre <+: e.archivePlace) :
    twoFiles.node (["proofs"] ++ pre) = none := by
  obtain ⟨rest, hrest⟩ := hpre
  cases pre with
  | nil => exact absurd rfl hne
  | cons name names =>
    rw [StoredProof.archivePlace, StoredProof.monthDir, List.cons_append, List.cons_append] at hrest
    obtain rfl := (List.cons.inj hrest).1
    simp [twoFiles]

theorem twoEntries_cases (he : e ∈ twoEntries) :
    e = completedProof "proof-1.json" ∨ e = completedProof "proof-2.json" := by
  simpa [twoEntries] using he

theorem twoFiles_situation (limit : ℕ) :
    Situation (scanLimit limit) (twoEntries.map StoredProof.job) 1 ["proofs"] twoFiles twoEntries := by
  have hroot : LeadsTo twoFiles [] ⟨true, ["proofs"]⟩ ["proofs"] := by
    refine ⟨fun pre hpre => ?_, by decide +kernel⟩
    rcases List.prefix_cons_iff.1 hpre with rfl | ⟨t, rfl, ht⟩
    · exact ⟨[], by decide +kernel, by decide +kernel⟩
    · rw [List.prefix_nil.1 ht]
      exact ⟨["proofs"], by decide +kernel, by decide +kernel⟩
  refine ⟨fun cutoff hcut => ?_, fun e he => ?_, fun e he => ?_, fun e he => ?_, fun e he pre hne hpre target => ?_, ?_⟩
  · refine List.filter_eq_self.2 fun job hjob => ?_
    have hlater : (0 : ℚ) < cutoff := lt_of_lt_of_le one_pos hcut
    obtain ⟨e, he, rfl⟩ := List.mem_map.1 hjob
    rcases twoEntries_cases he with rfl | rfl
    · exact decide_eq_true hlater
    · exact decide_eq_true hlater
  · -- the limit is not read here
    have hsource : (scanLimit 0).source? e.job = some (e.source (scanLimit 0)) := by
      rcases twoEntries_cases he with rfl | rfl
      · decide +kernel
      · decide +kernel
    exact hsource
  · rcases twoEntries_cases he with rfl | rfl
    · exact ⟨hroot, PlainWay.nil, by decide +kernel⟩
    · exact ⟨hroot, PlainWay.nil, by decide +kernel⟩
  · rcases twoEntries_cases he with rfl | rfl
    · decide +kernel
    · decide +kernel
  · rw [twoFiles_archive hne hpre]
    exact nofun
  · decide +kernel

theorem twoFiles_free (he : e ∈ twoEntries) : Free ["proofs"] twoFiles e := by
  refine ⟨?_, fun pre hne hpre => .inl (twoFiles_archive hne (hpre.trans (List.prefix_append _ _))), ?_⟩
  · unfold InArchive
    rcases twoEntries_cases he with rfl | rfl
    · decide +kernel
    · decide +kernel
  · exact twoFiles_archive (by simp [StoredProof.archivePlace]) (List.prefix_refl _)

/-- Within a limit of two both are archived in one cycle. -/
theorem archives_both : ArchivesAll (scanLimit 2) (twoEntries.map StoredProof.job) 1 twoFiles twoEntries :=
  (archives_all_iff (scanLimit 2) (twoEntries.map StoredProof.job) 1 ["proofs"] twoFiles twoEntries
    (twoFiles_situation 2) (by decide) (by decide)).2 ⟨by decide, fun _ he => twoFiles_free he⟩

/-- **One file a cycle**: two cycles do not archive two files, whose places are free. -/
theorem second_file_not_reached :
    Situation (scanLimit 1) (twoEntries.map StoredProof.job) 1 ["proofs"] twoFiles twoEntries ∧
    (∀ e ∈ twoEntries, Free ["proofs"] twoFiles e) ∧
    ¬ ArchivesAll (scanLimit 1) (twoEntries.map StoredProof.job) 1 twoFiles twoEntries := by
  refine ⟨twoFiles_situation 1, fun e he => twoFiles_free he, fun hall => ?_⟩
  have hle := length_le_of_archivesAll (twoFiles_situation 1) hall
  have hlimit : boundedLimit (scanLimit 1).fileScanLimit = 1 := rfl
  have hlength : twoEntries.length = 2 := rfl
  omega

end Vellum
