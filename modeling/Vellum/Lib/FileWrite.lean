import Vellum.Lib.FileSystem

/-!
# Writing files

Where opening a pathname for writing leads (`target`) depends on the directories and links alone, so
that writing a file moves no other pathname: what was written is read back (`read_write`), and what
other pathnames lead to stays (`stat_write_of_ne`).
-/

namespace Vellum.FileSystem

variable {F : Type}

/-- The directories and the links; everywhere else a file may be. -/
def ways (fs : FileSystem F) : FileSystem Unit where
  node loc :=
    match fs.node loc with
    | some .dir => some .dir
    | some (.link target) => some (.link target)
    | _ => some (.file ())

/-- Where opening a pathname for writing leads: links are followed, and the last name may be missing. -/
def target (fs : FileSystem F) (cwd : Location) (p : Pathname) : Option Location := fs.ways.resolve cwd p

/-- `open(p, "w")`, and what is written: a file is replaced, a missing one made. -/
def write (fs : FileSystem F) (cwd : Location) (p : Pathname) (data : F) : Except OSError (FileSystem F) :=
  match fs.target cwd p, p.name? with
  | none, _ => .error .notFound
  | some _, none => .error .isADirectory
  | some loc, some _ =>
    match fs.get loc with
    | none | some (.file _) => .ok (fs.set loc (some (.file data)))
    | some _ => .error .isADirectory

/-- Whatever directories are added, two pathnames lead to different locations. -/
def Apart (fs : FileSystem F) (cwd : Location) (p q : Pathname) : Prop :=
  ∀ fs', Grows fs fs' → ∀ loc, fs'.target cwd p = some loc → fs'.target cwd q ≠ some loc

variable {fs fs' : FileSystem F} {cwd cur loc : Location} {p q : Pathname} {parts : List String} {name : String}
  {data : F} {node : Node F}

theorem Apart.symm (h : Apart fs cwd p q) : Apart fs cwd q p := fun fs' hg loc hq hp => h fs' hg loc hp hq

/-! ## Reading by the target -/

theorem extends_ways (fs : FileSystem F) : Extends fs fs.ways := by
  refine ⟨?_, ?_, ?_⟩
  · intro loc h
    simp only [ways, h]
  · intro loc target h
    simp only [ways, h]
  · intro loc data h
    exact ⟨(), by simp only [ways, h]⟩

/-- Where something stands at the end, writing and reading lead to the same location. -/
theorem walk_of_ways (hloc : fs.get loc ≠ none) {n : ℕ} (hw : fs.ways.walk n cur parts = some loc) :
    fs.walk n cur parts = some loc := by
  have hwith : ∀ {follow follow' : Location → List String → Option Location},
      (∀ {cur parts}, follow cur parts = some loc → follow' cur parts = some loc) →
      ∀ {parts cur}, fs.ways.walkWith follow cur parts = some loc → fs.walkWith follow' cur parts = some loc := by
    intro follow follow' hfollow parts
    induction parts with
    | nil => exact fun hw => hw
    | cons name rest ih =>
      intro cur hw
      by_cases hdot : name = "."
      · subst hdot
        rw [walkWith_dot] at hw ⊢
        exact ih hw
      by_cases hdots : name = ".."
      · subst hdots
        rw [walkWith_dots] at hw ⊢
        exact ih hw
      rw [walkWith_name ⟨hdot, hdots⟩] at hw ⊢
      cases hnode : fs.node (cur ++ [name]) with
      | none =>
        -- the name is missing, so that it is the last one, and nothing stands at the end
        simp only [ways, hnode] at hw
        split_ifs at hw
        obtain rfl := Option.some.inj hw
        simp [get, hnode] at hloc
      | some node =>
        cases node with
        | dir =>
          simp only [ways, hnode] at hw
          exact ih hw
        | file data =>
          simp only [ways, hnode] at hw
          exact hw
        | link target =>
          simp only [ways, hnode] at hw
          exact hfollow hw
  induction n generalizing cur parts with
  | zero => exact @hwith (fun _ _ => none) (fun _ _ => none) (fun hf => hf) parts cur hw
  | succ n ih => exact @hwith (fs.ways.walk n) (fs.walk n) (fun hf => ih hf) parts cur hw

theorem stat_eq_some_of_name (hname : p.name? = some name) :
    fs.stat cwd p = some node ↔ ∃ loc, fs.target cwd p = some loc ∧ fs.get loc = some node := by
  unfold stat
  rw [hname]
  constructor
  · intro h
    cases hres : fs.resolve cwd p with
    | none =>
      rw [hres] at h
      cases h
    | some loc =>
      rw [hres] at h
      exact ⟨loc, walk_extends (extends_ways fs) hres, h⟩
  · rintro ⟨loc, htarget, hget⟩
    have hres : fs.resolve cwd p = some loc := walk_of_ways (by rw [hget]; nofun) htarget
    rw [hres]
    exact hget

theorem name_of_read (h : fs.read cwd p = some data) : ∃ name, p.name? = some name := by
  obtain ⟨-, name, -, hname, -⟩ := read_eq_some.1 h
  exact ⟨name, hname⟩

theorem stat_of_read (h : fs.read cwd p = some data) : fs.stat cwd p = some (.file data) := by
  unfold read at h
  split at h
  · next data' hstat =>
    obtain rfl := Option.some.inj h
    exact hstat
  · cases h

theorem read_of_stat (h : fs.stat cwd p = some (.file data)) : fs.read cwd p = some data := by
  unfold read
  rw [h]

theorem read_eq_of_stat (h : fs.stat cwd p = fs'.stat cwd q) : fs.read cwd p = fs'.read cwd q := by
  unfold read
  rw [h]

/-! ## What a write does -/

/-- **What a write does**: the file system is the same but for the file at the target. -/
theorem write_eq_ok : fs.write cwd p data = .ok fs' ↔
    ∃ loc name, fs.target cwd p = some loc ∧ p.name? = some name ∧
      (fs.get loc = none ∨ ∃ old, fs.get loc = some (.file old)) ∧ fs' = fs.set loc (some (.file data)) := by
  unfold write
  cases htarget : fs.target cwd p with
  | none => simp
  | some loc =>
    cases hname : p.name? with
    | none => simp
    | some name =>
      cases hget : fs.get loc with
      | none => simp [hget, eq_comm]
      | some node =>
        cases node with
        | dir => simp [hget]
        | file old => simp [hget, eq_comm]
        | link target => simp [hget]

/-- A place for a file: the root is none, and no directory or link stands there. -/
theorem node_of_free (h : fs.get loc = none ∨ ∃ old, fs.get loc = some (.file old)) :
    loc ≠ [] ∧ (fs.node loc = none ∨ ∃ old, fs.node loc = some (.file old)) := by
  have hne : loc ≠ [] := by
    rintro rfl
    rcases h with h | ⟨old, h⟩
    · cases h
    · cases h
  unfold get at h
  rw [if_neg hne] at h
  exact ⟨hne, h⟩

theorem ways_set (h : fs.node loc = none ∨ ∃ old, fs.node loc = some (.file old)) :
    (fs.set loc (some (.file data))).ways = fs.ways := by
  unfold ways
  congr 1
  funext loc'
  by_cases heq : loc' = loc
  · subst heq
    have hnew : (fs.set loc' (some (.file data))).node loc' = some (.file data) := Function.update_self ..
    rw [hnew]
    rcases h with h | ⟨old, h⟩
    · rw [h]
    · rw [h]
  · have hold : (fs.set loc (some (.file data))).node loc' = fs.node loc' := Function.update_of_ne heq ..
    rw [hold]

theorem extends_set (h : fs.node loc = none ∨ ∃ old, fs.node loc = some (.file old)) :
    Extends fs (fs.set loc (some (.file data))) := by
  have hset : ∀ {loc' node}, (∀ old, node ≠ Node.file old) → fs.node loc' = some node →
      (fs.set loc (some (.file data))).node loc' = some node := by
    intro loc' node hnode hloc'
    have hne : loc' ≠ loc := by
      rintro rfl
      rcases h with h | ⟨old, h⟩
      · rw [h] at hloc'
        cases hloc'
      · rw [h] at hloc'
        exact hnode old (Option.some.inj hloc').symm
    rw [← hloc']
    exact Function.update_of_ne hne ..
  refine ⟨hset nofun, hset nofun, ?_⟩
  intro loc' old hloc'
  by_cases heq : loc' = loc
  · subst heq
    exact ⟨data, Function.update_self ..⟩
  · exact ⟨old, (Function.update_of_ne heq ..).trans hloc'⟩

/-- **No pathname leads elsewhere** after a write. -/
theorem target_write (h : fs.write cwd p data = .ok fs') (q : Pathname) : fs'.target cwd q = fs.target cwd q := by
  obtain ⟨loc, name, -, -, hfree, rfl⟩ := write_eq_ok.1 h
  unfold target
  rw [ways_set (node_of_free hfree).2]

theorem extends_write (h : fs.write cwd p data = .ok fs') : Extends fs fs' := by
  obtain ⟨loc, name, -, -, hfree, rfl⟩ := write_eq_ok.1 h
  exact extends_set (node_of_free hfree).2

theorem get_set_of_ne {loc' : Location} (h : loc' ≠ loc) (node : Option (Node F)) :
    (fs.set loc node).get loc' = fs.get loc' := by
  unfold get
  by_cases hroot : loc' = []
  · rw [if_pos hroot, if_pos hroot]
  · rw [if_neg hroot, if_neg hroot]
    exact Function.update_of_ne h ..

/-- **What was written is read.** -/
theorem stat_write (h : fs.write cwd p data = .ok fs') : fs'.stat cwd p = some (.file data) := by
  have htarget := target_write h p
  obtain ⟨loc, name, hloc, hname, hfree, rfl⟩ := write_eq_ok.1 h
  rw [stat_eq_some_of_name hname]
  refine ⟨loc, htarget.trans hloc, ?_⟩
  unfold get
  rw [if_neg (node_of_free hfree).1]
  exact Function.update_self ..

theorem read_write (h : fs.write cwd p data = .ok fs') : fs'.read cwd p = some data := read_of_stat (stat_write h)

/-- **What other pathnames lead to stays.** -/
theorem stat_write_of_ne (h : fs.write cwd p data = .ok fs') (hname : q.name? = some name)
    (hne : ∀ loc, fs.target cwd p = some loc → fs.target cwd q ≠ some loc) : fs'.stat cwd q = fs.stat cwd q := by
  have htarget := target_write h q
  obtain ⟨loc, -, hloc, -, -, rfl⟩ := write_eq_ok.1 h
  apply Option.ext
  intro node
  rw [stat_eq_some_of_name hname, stat_eq_some_of_name hname, htarget]
  have hother : ∀ loc', fs.target cwd q = some loc' →
      (fs.set loc (some (.file data))).get loc' = fs.get loc' := by
    intro loc' hq
    apply get_set_of_ne
    rintro rfl
    exact hne loc' hloc hq
  constructor
  · rintro ⟨loc', hq, hget⟩
    exact ⟨loc', hq, (hother loc' hq).symm.trans hget⟩
  · rintro ⟨loc', hq, hget⟩
    exact ⟨loc', hq, (hother loc' hq).trans hget⟩

/-- A file that already holds the data is left as it is. -/
theorem write_same (h : fs.read cwd p = some data) : fs.write cwd p data = .ok fs := by
  obtain ⟨name, hname⟩ := name_of_read h
  obtain ⟨loc, htarget, hget⟩ := (stat_eq_some_of_name hname).1 (stat_of_read h)
  have hfree : fs.get loc = none ∨ ∃ old, fs.get loc = some (.file old) := .inr ⟨data, hget⟩
  refine write_eq_ok.2 ⟨loc, name, htarget, hname, hfree, ?_⟩
  have hnode : fs.node loc = some (.file data) := by
    unfold get at hget
    rwa [if_neg (node_of_free hfree).1] at hget
  unfold set
  rw [← hnode, Function.update_eq_self]

/-! ## Directories that have been made -/

theorem stat_dir_extends (h : Extends fs fs') (hstat : fs.stat cwd p = some .dir) : fs'.stat cwd p = some .dir := by
  unfold stat at hstat ⊢
  cases hres : fs.resolve cwd p with
  | none =>
    rw [hres] at hstat
    cases hstat
  | some loc =>
    have hres' : fs'.resolve cwd p = some loc := walk_extends h hres
    rw [hres] at hstat
    rw [hres']
    cases hname : p.name? with
    | none => rfl
    | some name =>
      rw [hname] at hstat
      have hget : fs.get loc = some .dir := hstat
      show fs'.get loc = some .dir
      unfold get at hget ⊢
      by_cases hroot : loc = []
      · rw [if_pos hroot]
      · rw [if_neg hroot] at hget ⊢
        exact h.dir hget

/-- A directory that was missing stands where it was made. -/
theorem stat_set_dir (hloc : fs.locate cwd p = some loc) (hnone : fs.node loc = none) (hin : fs.inDir loc = true) :
    (fs.set loc (some .dir)).stat cwd p = some .dir := by
  obtain ⟨name, dir, hname, hdir, rfl⟩ := locate_eq_some.1 hloc
  obtain ⟨hparts, hdots⟩ := parts_of_name hname
  have hg := grows_set_dir hnone
  have hgetdir : (fs.set (dir ++ [name]) (some .dir)).get dir = some .dir := by
    apply hg.get
    unfold inDir at hin
    rw [List.dropLast_concat] at hin
    split at hin
    · assumption
    · cases hin
  obtain ⟨m, hm⟩ := walk_append hgetdir (walk_grows hg hdir)
  have hnode : (fs.set (dir ++ [name]) (some .dir)).node (dir ++ [name]) = some .dir := Function.update_self ..
  have hstep : (fs.set (dir ++ [name]) (some .dir)).walk m dir [name] = some (dir ++ [name]) := by
    cases m with
    | zero =>
      rw [walk, walkWith_name hdots, hnode]
      rfl
    | succ m =>
      rw [walk, walkWith_name hdots, hnode]
      rfl
  have hres : (fs.set (dir ++ [name]) (some .dir)).resolve cwd p = some (dir ++ [name]) := by
    unfold resolve
    rw [hparts]
    exact (hm [name]).trans hstep
  apply stat_dir_of_there
  refine ⟨_, hres, ?_⟩
  unfold get
  rw [if_neg (by simp)]
  exact hnode

/-- **Every directory of the pathname is there** when all of them have been made. -/
theorem makeDirs_stat {absolute : Bool} {before : List String}
    (h : makeDirs cwd absolute fs before parts = .ok fs') {pre : List String} (hpre : pre <+: parts) (hne : pre ≠ []) :
    fs'.stat cwd ⟨absolute, before ++ pre⟩ = some .dir := by
  induction parts generalizing fs before pre with
  | nil => exact absurd (List.prefix_nil.1 hpre) hne
  | cons name rest ih =>
    -- the first directory is there, and the others are made after it
    have hgo : ∀ {fs₁ : FileSystem F}, fs₁.stat cwd ⟨absolute, before ++ [name]⟩ = some .dir →
        makeDirs cwd absolute fs₁ (before ++ [name]) rest = .ok fs' →
        fs'.stat cwd ⟨absolute, before ++ pre⟩ = some .dir := by
      intro fs₁ hfirst hrest
      cases pre with
      | nil => exact absurd rfl hne
      | cons first pre =>
        obtain ⟨rfl, hpre'⟩ := List.cons_prefix_cons.1 hpre
        by_cases hnil : pre = []
        · subst hnil
          exact stat_dir_extends (makeDirs_grows hrest).extends hfirst
        · have hlast := ih hrest hpre' hnil
          rwa [List.append_assoc, List.singleton_append] at hlast
    unfold makeDirs at h
    split at h
    · next hdir => exact hgo hdir h
    · cases h
    · split at h
      · cases h
      · next loc hloc =>
        split at h
        · cases h
        · next hnone =>
          split_ifs at h with hin
          exact hgo (stat_set_dir hloc hnone (by simpa using hin)) h

/-- Directories that are all there are left as they are. -/
theorem makeDirs_of_stat {absolute : Bool} {before : List String}
    (h : ∀ pre, pre <+: parts → pre ≠ [] → fs.stat cwd ⟨absolute, before ++ pre⟩ = some .dir) :
    makeDirs cwd absolute fs before parts = .ok fs := by
  induction parts generalizing before with
  | nil => rfl
  | cons name rest ih =>
    have hfirst := h [name] (by simp) (by simp)
    unfold makeDirs
    rw [hfirst]
    apply ih
    intro pre hpre hne
    have hlast := h (name :: pre) ((List.prefix_cons_inj name).2 hpre) (by simp)
    rwa [List.append_assoc, List.singleton_append]

/-- **Making directories again** changes nothing, whatever has been written in between. -/
theorem mkdirs_again {fs₁ : FileSystem F} (h : fs.mkdirs cwd p = .ok fs₁) (he : Extends fs₁ fs') :
    fs'.mkdirs cwd p = .ok fs' := by
  apply makeDirs_of_stat
  intro pre hpre hne
  exact stat_dir_extends he (makeDirs_stat h hpre hne)

theorem Extends.trans {fs₁ fs₂ fs₃ : FileSystem F} (h : Extends fs₁ fs₂) (h' : Extends fs₂ fs₃) :
    Extends fs₁ fs₃ := by
  refine ⟨fun hd => h'.dir (h.dir hd), fun hl => h'.link (h.link hl), ?_⟩
  intro loc data hf
  obtain ⟨data', hf'⟩ := h.file hf
  exact h'.file hf'

/-! ## Without links -/

/-- One part of a pathname, on the text alone. -/
def normalStep (acc : List String) (name : String) : List String :=
  if name = "." then acc else if name = ".." then acc.dropLast else acc ++ [name]

theorem walk_noLinks (hlinks : ∀ loc target, fs.node loc ≠ some (.link target)) {n : ℕ}
    (hw : fs.walk n cur parts = some loc) : loc = parts.foldl normalStep cur := by
  have hwith : ∀ {follow : Location → List String → Option Location} {parts cur},
      fs.walkWith follow cur parts = some loc → loc = parts.foldl normalStep cur := by
    intro follow parts
    induction parts with
    | nil => exact fun hw => (Option.some.inj hw).symm
    | cons name rest ih =>
      intro cur hw
      rw [List.foldl_cons]
      by_cases hdot : name = "."
      · subst hdot
        rw [walkWith_dot] at hw
        exact ih hw
      by_cases hdots : name = ".."
      · subst hdots
        rw [walkWith_dots] at hw
        exact ih hw
      rw [walkWith_name ⟨hdot, hdots⟩] at hw
      have hstep : normalStep cur name = cur ++ [name] := by rw [normalStep, if_neg hdot, if_neg hdots]
      rw [hstep]
      cases hnode : fs.node (cur ++ [name]) with
      | none =>
        rw [hnode] at hw
        cases hw
      | some node =>
        rw [hnode] at hw
        cases node with
        | dir => exact ih hw
        | file data =>
          simp only at hw
          split_ifs at hw with hrest
          subst hrest
          exact (Option.some.inj hw).symm
        | link target => exact absurd hnode (hlinks _ target)
  cases n with
  | zero => exact hwith hw
  | succ n => exact hwith hw

/-- **Without links, different pathnames lead to different files.** -/
theorem apart_of_noLinks (hlinks : ∀ loc target, fs.node loc ≠ some (.link target))
    (hcwd : ∀ name ∈ cwd, name ≠ "." ∧ name ≠ "..") (hne : p.normalized cwd ≠ q.normalized cwd) :
    Apart fs cwd p q := by
  intro fs' hg loc hp hq
  have hways : ∀ loc target, fs'.ways.node loc ≠ some (.link target) := by
    intro loc target hlink
    have hnode : fs'.node loc = some (.link target) := by
      unfold ways at hlink
      simp only at hlink
      split at hlink
      · cases hlink
      · next target' hnode =>
        obtain rfl := Node.link.inj (Option.some.inj hlink)
        exact hnode
      · cases hlink
    rcases hg loc with heq | ⟨-, hdir⟩
    · exact hlinks loc target (heq.symm.trans hnode)
    · rw [hdir] at hnode
      cases hnode
  have hstart : ∀ {names acc : List String}, (∀ name ∈ names, name ≠ "." ∧ name ≠ "..") →
      names.foldl normalStep acc = acc ++ names := by
    intro names
    induction names with
    | nil => simp
    | cons name names ih =>
      intro acc hnames
      have hname := hnames name List.mem_cons_self
      rw [List.foldl_cons, normalStep, if_neg hname.1, if_neg hname.2,
        ih fun x hx => hnames x (List.mem_cons_of_mem name hx), List.append_assoc, List.singleton_append]
  have hnormal : ∀ {r : Pathname}, fs'.target cwd r = some loc → loc = r.normalized cwd := by
    intro r hr
    have hfold := walk_noLinks hways hr
    rw [hfold]
    show _ = ((if r.absolute then [] else cwd) ++ r.parts).foldl normalStep []
    rw [List.foldl_append]
    cases r.absolute with
    | false =>
      show _ = r.parts.foldl normalStep (cwd.foldl normalStep [])
      rw [hstart hcwd]
      rfl
    | true => rfl
  exact hne ((hnormal hp).symm.trans (hnormal hq))

end Vellum.FileSystem
