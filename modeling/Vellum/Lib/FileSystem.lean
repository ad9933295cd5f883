import Mathlib.Data.List.Infix
import Mathlib.Logic.Function.Basic
import Mathlib.Tactic.Common

/-!
# A file system with symbolic links

Files, directories and symbolic links by their locations, the names from the root. A pathname is
resolved name by name: `..` leaves a directory, a link is replaced by its target, at most forty of
them. All names lie on one device, and nothing is forbidden.

* `walk_grows`: what resolves keeps resolving while only directories are added.
* `resolve_moved`: a pathname whose file has been moved away does not resolve any more.
-/

namespace Vellum

/-- Where a node is: the names from the root. -/
abbrev Location := List String

/-- A pathname by its parts. -/
structure Pathname where
  absolute : Bool
  parts : List String
deriving DecidableEq

inductive Node (F : Type) where
  | file (data : F)
  | dir
  | link (target : Pathname)
deriving DecidableEq

/-- The nodes below the root, which is a directory. -/
structure FileSystem (F : Type) where
  node : Location → Option (Node F)

namespace Pathname

def parent (p : Pathname) : Pathname := { p with parts := p.parts.dropLast }

/-- The last part; a pathname that ends in a dot names nothing there. -/
def name? (p : Pathname) : Option String :=
  match p.parts.getLast? with
  | some name => if name = "." ∨ name = ".." then none else some name
  | none => none

def child (p : Pathname) (names : List String) : Pathname := { p with parts := p.parts ++ names }

/-- One pathname begins with the other, part by part. -/
def isRelativeTo (p root : Pathname) : Bool := p.absolute = root.absolute ∧ root.parts <+: p.parts

/-- The parts from the root, with the dots resolved on the text alone. -/
def normalized (cwd : Location) (p : Pathname) : List String :=
  ((if p.absolute then [] else cwd) ++ p.parts).foldl
    (fun acc name => if name = "." then acc else if name = ".." then acc.dropLast else acc ++ [name]) []

/-- The number of names two lists begin with in common. -/
def commonLength : List String → List String → ℕ
  | a :: as, b :: bs => if a = b then commonLength as bs + 1 else 0
  | _, _ => 0

/-- `os.path.relpath(path, start=start)`. -/
def relpath (cwd : Location) (path start : Pathname) : Pathname :=
  let pathList := path.normalized cwd
  let startList := start.normalized cwd
  let i := commonLength startList pathList
  let rel := List.replicate (startList.length - i) ".." ++ pathList.drop i
  ⟨false, if rel = [] then ["."] else rel⟩

end Pathname

/-- `Path(text)`. -/
def pathOf (text : String) : Pathname where
  absolute := text.toList.head? = some '/'
  parts := ((text.toList.splitOn '/').filter fun part => part ≠ [] ∧ part ≠ ['.']).map String.ofList

namespace Pathname

/-- `p / text`. -/
def join (p : Pathname) (text : String) : Pathname :=
  if (pathOf text).absolute then pathOf text else p.child (pathOf text).parts

/-- `str(p)`. -/
def str (p : Pathname) : String :=
  if p.absolute then "/" ++ "/".intercalate p.parts
  else if p.parts = [] then "." else "/".intercalate p.parts

end Pathname

namespace FileSystem

variable {F : Type}

/-! ## Resolving a pathname -/

/-- The node at a location; the root is a directory. -/
def get (fs : FileSystem F) (loc : Location) : Option (Node F) := if loc = [] then some .dir else fs.node loc

/-- From a directory along the parts of a pathname; `follow` goes on where a link stands. -/
def walkWith (fs : FileSystem F) (follow : Location → List String → Option Location) :
    Location → List String → Option Location
  | cur, [] => some cur
  | cur, name :: rest =>
    if name = "." then walkWith fs follow cur rest
    else if name = ".." then walkWith fs follow cur.dropLast rest
    else
      match fs.node (cur ++ [name]) with
      | some .dir => walkWith fs follow (cur ++ [name]) rest
      | some (.file _) => if rest = [] then some (cur ++ [name]) else none
      | some (.link target) => follow (if target.absolute then [] else cur) (target.parts ++ rest)
      | none => none

/-- The same with at most so many links. -/
def walk (fs : FileSystem F) : ℕ → Location → List String → Option Location
  | 0 => walkWith fs fun _ _ => none
  | n + 1 => walkWith fs (walk fs n)

def maxLinks : ℕ := 40

/-- The location a pathname leads to, links followed to the end. -/
def resolve (fs : FileSystem F) (cwd : Location) (p : Pathname) : Option Location :=
  fs.walk maxLinks (if p.absolute then [] else cwd) p.parts

/-- The place of the last part in its directory, whether or not anything is there. -/
def locate (fs : FileSystem F) (cwd : Location) (p : Pathname) : Option Location :=
  match p.name?, fs.resolve cwd p.parent with
  | some name, some dir => some (dir ++ [name])
  | _, _ => none

/-- `stat`: what a pathname leads to. A dot at its end stands for a directory. -/
def stat (fs : FileSystem F) (cwd : Location) (p : Pathname) : Option (Node F) :=
  match fs.resolve cwd p, p.name? with
  | some loc, some _ => fs.get loc
  | some _, none => some .dir
  | none, _ => none

/-- `lstat`: what stands at the last part itself. -/
def lstat (fs : FileSystem F) (cwd : Location) (p : Pathname) : Option (Node F) :=
  (fs.locate cwd p).bind fs.node

/-- What opening a pathname for reading yields. -/
def read (fs : FileSystem F) (cwd : Location) (p : Pathname) : Option F :=
  match fs.stat cwd p with
  | some (.file data) => some data
  | _ => none

/-! ## Changes -/

inductive OSError where
  | notFound
  | alreadyExists
  | notADirectory
  | isADirectory
  | invalid
deriving DecidableEq

def set (fs : FileSystem F) (loc : Location) (node : Option (Node F)) : FileSystem F :=
  ⟨Function.update fs.node loc node⟩

/-- The location lies in a directory. -/
def inDir (fs : FileSystem F) (loc : Location) : Bool := fs.get loc.dropLast matches some .dir

/-- The directories of a pathname, from the first part on, those that are missing are made. -/
def makeDirs (cwd : Location) (absolute : Bool) :
    FileSystem F → List String → List String → Except OSError (FileSystem F)
  | fs, _, [] => .ok fs
  | fs, before, name :: rest =>
    match fs.stat cwd ⟨absolute, before ++ [name]⟩ with
    | some .dir => makeDirs cwd absolute fs (before ++ [name]) rest
    | some _ => .error .notADirectory
    | none =>
      match fs.locate cwd ⟨absolute, before ++ [name]⟩ with
      | none => .error .notFound
      | some loc =>
        match fs.node loc with
        | some _ => .error .alreadyExists
        | none =>
          if ¬ fs.inDir loc then .error .notADirectory
          else makeDirs cwd absolute (fs.set loc (some .dir)) (before ++ [name]) rest

/-- `mkdir(parents=True, exist_ok=True)`. -/
def mkdirs (fs : FileSystem F) (cwd : Location) (p : Pathname) : Except OSError (FileSystem F) :=
  makeDirs cwd p.absolute fs [] p.parts

/-- What lies at one location and below goes to another one. -/
def moveTree (fs : FileSystem F) (src dst : Location) : FileSystem F :=
  ⟨fun loc =>
    if dst <+: loc then fs.node (src ++ loc.drop dst.length)
    else if src <+: loc then none
    else fs.node loc⟩

/-- `rename` from one location to another: what is there is replaced, but for a directory. -/
def rename (fs : FileSystem F) (src dst : Location) : Except OSError (FileSystem F) :=
  if src = dst then .ok fs
  else if ¬ fs.inDir dst then .error .notADirectory
  else
    match fs.node src, fs.node dst with
    | none, _ => .error .notFound
    | some .dir, some _ => .error .alreadyExists
    | some .dir, none => if src <+: dst then .error .invalid else .ok (fs.moveTree src dst)
    | some _, some .dir => .error .isADirectory
    | some node, _ => .ok ((fs.set src none).set dst (some node))

/-- `shutil.move`: into the target where it is a directory. -/
def move (fs : FileSystem F) (cwd : Location) (src dst : Pathname) : Except OSError (FileSystem F) :=
  match fs.locate cwd src, src.name? with
  | some a, some name =>
    if fs.stat cwd dst matches some .dir then
      if (fs.stat cwd (dst.child [name])).isSome then .error .alreadyExists
      else
        match fs.locate cwd (dst.child [name]) with
        | none => .error .notFound
        | some b => fs.rename a b
    else
      match fs.locate cwd dst with
      | none => .error .notFound
      | some b => fs.rename a b
  | _, _ => .error .notFound

/-- `symlink_to`. -/
def symlink (fs : FileSystem F) (cwd : Location) (p target : Pathname) : Except OSError (FileSystem F) :=
  match fs.locate cwd p with
  | none => .error .notFound
  | some loc =>
    match fs.node loc with
    | some _ => .error .alreadyExists
    | none => if ¬ fs.inDir loc then .error .notADirectory else .ok (fs.set loc (some (.link target)))

/-! ## Adding directories -/

variable {fs fs' fs'' : FileSystem F} {cwd cur loc : Location} {p : Pathname} {parts : List String}

/-- Directories are added, and nothing else changes. -/
def Grows (fs fs' : FileSystem F) : Prop :=
  ∀ loc, fs'.node loc = fs.node loc ∨ (fs.node loc = none ∧ fs'.node loc = some .dir)

theorem Grows.refl (fs : FileSystem F) : Grows fs fs := fun _ => .inl rfl

theorem Grows.trans (h : Grows fs fs') (h' : Grows fs' fs'') : Grows fs fs'' := by
  intro loc
  rcases h loc with hloc | ⟨hnone, hdir⟩
  · rcases h' loc with hloc' | ⟨hnone', hdir'⟩
    · exact .inl (hloc'.trans hloc)
    · exact .inr ⟨hloc.symm.trans hnone', hdir'⟩
  · rcases h' loc with hloc' | ⟨hnone', -⟩
    · exact .inr ⟨hnone, hloc'.trans hdir⟩
    · rw [hdir] at hnone'
      cases hnone'

/-- What is there stays. -/
theorem Grows.node (h : Grows fs fs') {node : Node F} (hloc : fs.node loc = some node) :
    fs'.node loc = some node := by
  rcases h loc with heq | ⟨hnone, -⟩
  · exact heq.trans hloc
  · rw [hloc] at hnone
    cases hnone

theorem Grows.get (h : Grows fs fs') {node : Node F} (hloc : fs.get loc = some node) :
    fs'.get loc = some node := by
  unfold FileSystem.get at hloc ⊢
  split_ifs at hloc ⊢
  · exact hloc
  · exact h.node hloc

theorem grows_set_dir (h : fs.node loc = none) : Grows fs (fs.set loc (some .dir)) := by
  intro loc'
  by_cases hloc : loc' = loc
  · subst hloc
    exact .inr ⟨h, Function.update_self ..⟩
  · exact .inl (Function.update_of_ne hloc ..)

section

variable {follow : Location → List String → Option Location} {name : String} {rest : List String}

@[simp] theorem walkWith_dot : fs.walkWith follow cur ("." :: rest) = fs.walkWith follow cur rest := by
  simp [walkWith]

@[simp] theorem walkWith_dots :
    fs.walkWith follow cur (".." :: rest) = fs.walkWith follow cur.dropLast rest := by
  simp [walkWith]

theorem walkWith_name (hname : name ≠ "." ∧ name ≠ "..") : fs.walkWith follow cur (name :: rest) =
    match fs.node (cur ++ [name]) with
    | some .dir => fs.walkWith follow (cur ++ [name]) rest
    | some (.file _) => if rest = [] then some (cur ++ [name]) else none
    | some (.link target) => follow (if target.absolute then [] else cur) (target.parts ++ rest)
    | none => none := by
  rw [walkWith, if_neg hname.1, if_neg hname.2]

end

/-- What stands at a location of one file system stands there in the other too, up to the data of files. -/
structure Extends {G : Type} (fs : FileSystem F) (gs : FileSystem G) : Prop where
  dir : ∀ {loc}, fs.node loc = some .dir → gs.node loc = some .dir
  link : ∀ {loc target}, fs.node loc = some (.link target) → gs.node loc = some (.link target)
  file : ∀ {loc data}, fs.node loc = some (.file data) → ∃ data', gs.node loc = some (.file data')

theorem Grows.extends (h : Grows fs fs') : Extends fs fs' :=
  ⟨fun hloc => h.node hloc, fun hloc => h.node hloc, fun hloc => ⟨_, h.node hloc⟩⟩

/-- By induction on the parts; where a link stands, `follow` and `follow'` take over. -/
theorem walkWith_extends {G : Type} {gs : FileSystem G} (h : Extends fs gs)
    {follow follow' : Location → List String → Option Location}
    (hfollow : ∀ {cur parts loc}, follow cur parts = some loc → follow' cur parts = some loc)
    (hw : fs.walkWith follow cur parts = some loc) : gs.walkWith follow' cur parts = some loc := by
  induction parts generalizing cur with
  | nil => exact hw
  | cons name rest ih =>
    by_cases hdot : name = "."
    · subst hdot
      rw [walkWith_dot] at hw ⊢
      exact ih hw
    by_cases hdots : name = ".."
    · subst hdots
      rw [walkWith_dots] at hw ⊢
      exact ih hw
    rw [walkWith_name ⟨hdot, hdots⟩] at hw ⊢
    cases hnode : fs.node (cur ++ [name]) with
    | none =>
      rw [hnode] at hw
      cases hw
    | some node =>
      rw [hnode] at hw
      cases node with
      | dir =>
        rw [h.dir hnode]
        exact ih hw
      | file data =>
        obtain ⟨data', hnode'⟩ := h.file hnode
        rw [hnode']
        exact hw
      | link target =>
        rw [h.link hnode]
        exact hfollow hw

/-- **What resolves keeps resolving** in a file system that extends this one. -/
theorem walk_extends {G : Type} {gs : FileSystem G} (h : Extends fs gs) {n : ℕ}
    (hw : fs.walk n cur parts = some loc) : gs.walk n cur parts = some loc := by
  induction n generalizing cur parts loc with
  | zero => exact walkWith_extends h (fun hf => hf) hw
  | succ n ih => exact walkWith_extends h (fun hf => ih hf) hw

/-- **What resolves keeps resolving** while only directories are added. -/
theorem walk_grows (h : Grows fs fs') {n : ℕ} (hw : fs.walk n cur parts = some loc) :
    fs'.walk n cur parts = some loc := walk_extends h.extends hw

theorem locate_eq_some : fs.locate cwd p = some loc ↔
    ∃ name dir, p.name? = some name ∧ fs.resolve cwd p.parent = some dir ∧ loc = dir ++ [name] := by
  unfold locate
  cases p.name? with
  | none => simp
  | some name =>
    cases fs.resolve cwd p.parent with
    | none => simp
    | some dir => simp [eq_comm]

theorem locate_grows (h : Grows fs fs') (hl : fs.locate cwd p = some loc) : fs'.locate cwd p = some loc := by
  obtain ⟨name, dir, hname, hdir, rfl⟩ := locate_eq_some.1 hl
  exact locate_eq_some.2 ⟨name, dir, hname, walk_grows h hdir, rfl⟩

theorem read_eq_some {data : F} : fs.read cwd p = some data ↔
    ∃ loc name, fs.resolve cwd p = some loc ∧ p.name? = some name ∧ fs.get loc = some (.file data) := by
  unfold read stat
  cases fs.resolve cwd p with
  | none => simp
  | some loc =>
    cases p.name? with
    | none => simp
    | some name =>
      cases hget : fs.get loc with
      | none => simp [hget]
      | some node =>
        cases node with
        | dir => simp [hget]
        | file data => simp [hget]
        | link target => simp [hget]

/-- **What can be read stays readable** while only directories are added. -/
theorem read_grows (h : Grows fs fs') {data : F} (hr : fs.read cwd p = some data) :
    fs'.read cwd p = some data := by
  obtain ⟨loc, name, hloc, hname, hget⟩ := read_eq_some.1 hr
  exact read_eq_some.2 ⟨loc, name, walk_grows h hloc, hname, h.get hget⟩

theorem makeDirs_grows {fs fs' : FileSystem F} {absolute : Bool} {before : List String}
    (h : makeDirs cwd absolute fs before parts = .ok fs') : Grows fs fs' := by
  induction parts generalizing fs before with
  | nil =>
    obtain rfl := Except.ok.inj h
    exact Grows.refl _
  | cons name rest ih =>
    unfold makeDirs at h
    split at h
    · exact ih h
    · cases h
    · split at h
      · cases h
      · split at h
        · cases h
        · next hnone =>
          split_ifs at h
          exact (grows_set_dir hnone).trans (ih h)

theorem mkdirs_grows (h : fs.mkdirs cwd p = .ok fs') : Grows fs fs' := makeDirs_grows h

/-! ## The last part of a pathname -/

/-- What stands at the end of a way: a link, or what the way leads to. -/
theorem walk_last {name : String} (hname : name ≠ "." ∧ name ≠ "..") {n : ℕ}
    (hw : fs.walk n cur (parts ++ [name]) = some loc) :
    ∃ dir, fs.walk n cur parts = some dir ∧
      (loc = dir ++ [name] ∨ ∃ target, fs.node (dir ++ [name]) = some (.link target)) := by
  have hwith : ∀ {follow : Location → List String → Option Location},
      (∀ {cur parts}, follow cur (parts ++ [name]) = some loc → ∃ dir, follow cur parts = some dir ∧
        (loc = dir ++ [name] ∨ ∃ target, fs.node (dir ++ [name]) = some (.link target))) →
      ∀ {parts cur}, fs.walkWith follow cur (parts ++ [name]) = some loc →
        ∃ dir, fs.walkWith follow cur parts = some dir ∧
          (loc = dir ++ [name] ∨ ∃ target, fs.node (dir ++ [name]) = some (.link target)) := by
    intro follow hfollow parts
    induction parts with
    | nil =>
      intro cur hw
      rw [List.nil_append, walkWith_name hname] at hw
      refine ⟨cur, rfl, ?_⟩
      cases hnode : fs.node (cur ++ [name]) with
      | none =>
        rw [hnode] at hw
        cases hw
      | some node =>
        rw [hnode] at hw
        cases node with
        | dir => exact .inl (Option.some.inj hw).symm
        | file data => exact .inl (Option.some.inj hw).symm
        | link target => exact .inr ⟨target, rfl⟩
    | cons part rest ih =>
      intro cur hw
      rw [List.cons_append] at hw
      by_cases hdot : part = "."
      · subst hdot
        rw [walkWith_dot] at hw ⊢
        exact ih hw
      by_cases hdots : part = ".."
      · subst hdots
        rw [walkWith_dots] at hw ⊢
        exact ih hw
      rw [walkWith_name ⟨hdot, hdots⟩] at hw ⊢
      cases hnode : fs.node (cur ++ [part]) with
      | none =>
        rw [hnode] at hw
        cases hw
      | some node =>
        rw [hnode] at hw
        cases node with
        | dir => exact ih hw
        | file data => simp at hw
        | link target =>
          refine hfollow ?_
          rw [List.append_assoc]
          exact hw
  induction n generalizing cur parts with
  | zero => exact @hwith (fun _ _ => none) (fun hf => by cases hf) parts cur hw
  | succ n ih => exact @hwith (fs.walk n) (fun hf => ih hf) parts cur hw

theorem parts_of_name {name : String} (h : p.name? = some name) :
    p.parts = p.parent.parts ++ [name] ∧ name ≠ "." ∧ name ≠ ".." := by
  unfold Pathname.name? at h
  cases hlast : p.parts.getLast? with
  | none =>
    rw [hlast] at h
    cases h
  | some last =>
    rw [hlast] at h
    simp only at h
    split_ifs at h with hdots
    obtain rfl := Option.some.inj h
    refine ⟨?_, fun hn => hdots (.inl hn), fun hn => hdots (.inr hn)⟩
    exact (List.dropLast_append_getLast? last hlast).symm

/-- **A file that is read, and is not reached by a link at its end, stands at the pathname itself.** -/
theorem file_of_read {data : F} (hr : fs.read cwd p = some data)
    (hlink : ∀ target, fs.lstat cwd p ≠ some (.link target)) :
    ∃ loc, fs.locate cwd p = some loc ∧ fs.node loc = some (.file data) := by
  obtain ⟨loc, name, hloc, hname, hget⟩ := read_eq_some.1 hr
  obtain ⟨hparts, hdots⟩ := parts_of_name hname
  unfold resolve at hloc
  rw [hparts] at hloc
  obtain ⟨dir, hdir, hend⟩ := walk_last hdots hloc
  have hlocate : fs.locate cwd p = some (dir ++ [name]) := locate_eq_some.2 ⟨name, dir, hname, hdir, rfl⟩
  refine ⟨dir ++ [name], hlocate, ?_⟩
  rcases hend with rfl | ⟨target, htarget⟩
  · simpa [get] using hget
  · refine absurd ?_ (hlink target)
    unfold lstat
    rw [hlocate]
    exact htarget

/-! ## Moving a file away -/

/-- A file has gone from one location to another. -/
structure Moved (fs fs' : FileSystem F) (src dst : Location) : Prop where
  gone : fs'.node src = none
  file : ∃ data, fs.node src = some (.file data) ∧ fs'.node dst = some (.file data)
  notDir : fs.node dst ≠ some .dir
  frame : ∀ loc, loc ≠ src → loc ≠ dst → fs'.node loc = fs.node loc

theorem moved_rename {src dst : Location} {data : F} (hfile : fs.node src = some (.file data)) (hne : src ≠ dst)
    (h : fs.rename src dst = .ok fs') : Moved fs fs' src dst := by
  unfold rename at h
  rw [if_neg hne] at h
  by_cases hin : ¬ fs.inDir dst = true
  · rw [if_pos hin] at h
    cases h
  rw [if_neg hin, hfile] at h
  have hdir : fs.node dst ≠ some .dir := by
    intro hdst
    rw [hdst] at h
    cases h
  have hset : fs' = (fs.set src none).set dst (some (.file data)) := by
    cases hdst : fs.node dst with
    | none =>
      rw [hdst] at h
      exact (Except.ok.inj h).symm
    | some node =>
      rw [hdst] at h
      cases node with
      | dir => exact absurd hdst hdir
      | file data' => exact (Except.ok.inj h).symm
      | link target => exact (Except.ok.inj h).symm
  subst hset
  refine ⟨?_, ⟨data, hfile, Function.update_self ..⟩, hdir, fun loc hsrc hdst => ?_⟩
  · exact (Function.update_of_ne hne ..).trans (Function.update_self ..)
  · exact (Function.update_of_ne hdst ..).trans (Function.update_of_ne hsrc ..)

/-- **The way to a file that has been moved away leads nowhere.** By induction on the way to its
directory: directories are still there, and a link that the file has replaced is no directory. -/
theorem walk_moved {src dst dir : Location} {name : String} (h : Moved fs fs' src dst) (hsrc : src = dir ++ [name])
    (hname : name ≠ "." ∧ name ≠ "..") {n : ℕ} (hw : fs.walk n cur parts = some dir) :
    fs'.walk n cur (parts ++ [name]) = none := by
  obtain ⟨data, hfile, hmoved⟩ := h.file
  have hwith : ∀ {follow follow' : Location → List String → Option Location},
      (∀ {cur parts}, follow cur parts = some dir → follow' cur (parts ++ [name]) = none) →
      ∀ {parts cur}, fs.walkWith follow cur parts = some dir →
        fs'.walkWith follow' cur (parts ++ [name]) = none := by
    intro follow follow' hfollow parts
    induction parts with
    | nil =>
      intro cur hw
      obtain rfl := Option.some.inj hw
      have hgone : fs'.node (cur ++ [name]) = none := hsrc ▸ h.gone
      simp [walkWith, hname, hgone]
    | cons part rest ih =>
      intro cur hw
      rw [List.cons_append]
      by_cases hdot : part = "."
      · subst hdot
        rw [walkWith_dot] at hw ⊢
        exact ih hw
      by_cases hdots : part = ".."
      · subst hdots
        rw [walkWith_dots] at hw ⊢
        exact ih hw
      rw [walkWith_name ⟨hdot, hdots⟩] at hw ⊢
      by_cases hpart : cur ++ [part] = src
      · rw [hpart, h.gone]
      by_cases hdst : cur ++ [part] = dst
      · rw [hdst, hmoved]
        simp
      rw [h.frame _ hpart hdst]
      cases hnode : fs.node (cur ++ [part]) with
      | none => rfl
      | some node =>
        rw [hnode] at hw
        cases node with
        | dir => exact ih hw
        | file data => simp
        | link target =>
          have hrest := hfollow hw
          rw [List.append_assoc] at hrest
          exact hrest
  induction n generalizing cur parts with
  | zero => exact @hwith (fun _ _ => none) (fun _ _ => none) (fun _ => rfl) _ _ hw
  | succ n ih => exact hwith (fun hf => ih hf) hw

/-- **A pathname whose file has been moved away does not resolve.** -/
theorem resolve_moved {src dst : Location} (h : Moved fs fs' src dst) (hloc : fs.locate cwd p = some src) :
    fs'.resolve cwd p = none := by
  obtain ⟨name, dir, hname, hdir, hsrc⟩ := locate_eq_some.1 hloc
  obtain ⟨hparts, hdots⟩ := parts_of_name hname
  unfold resolve
  rw [hparts]
  exact walk_moved h hsrc hdots hdir

/-! ## Plain ways

A directory that a pathname leads to, and from there on directories without links. -/

/-- Directories and links stay as they are. -/
def KeepsWays (fs fs' : FileSystem F) : Prop :=
  ∀ loc node, fs.node loc = some node → (∀ data, node ≠ .file data) → fs'.node loc = some node

theorem Grows.keepsWays (h : Grows fs fs') : KeepsWays fs fs' := fun _ _ hnode _ => h.node hnode

theorem KeepsWays.get_dir (h : KeepsWays fs fs') (hdir : fs.get loc = some .dir) : fs'.get loc = some .dir := by
  unfold FileSystem.get at hdir ⊢
  split_ifs at hdir ⊢
  · exact hdir
  · exact h loc _ hdir nofun

/-- The way to a directory passes no file. -/
theorem walk_keeps (h : KeepsWays fs fs') (hdir : fs.get loc = some .dir) {n : ℕ}
    (hw : fs.walk n cur parts = some loc) : fs'.walk n cur parts = some loc := by
  have hwith : ∀ {follow follow' : Location → List String → Option Location},
      (∀ {cur parts}, follow cur parts = some loc → follow' cur parts = some loc) →
      ∀ {parts cur}, fs.walkWith follow cur parts = some loc → fs'.walkWith follow' cur parts = some loc := by
    intro follow follow' hfollow parts
    induction parts with
    | nil => exact fun hw => hw
    | cons name rest ih =>
      intro cur hw
      by_cases hdot : name = "."
      · subst hdot
        rw [walkWith_dot] at hw ⊢
        exact ih hw
      by_cases hdots : name = ".."
      · subst hdots
        rw [walkWith_dots] at hw ⊢
        exact ih hw
      rw [walkWith_name ⟨hdot, hdots⟩] at hw ⊢
      cases hnode : fs.node (cur ++ [name]) with
      | none =>
        rw [hnode] at hw
        cases hw
      | some node =>
        rw [hnode] at hw
        cases node with
        | dir =>
          rw [h _ _ hnode nofun]
          exact ih hw
        | link target =>
          rw [h _ _ hnode nofun]
          exact hfollow hw
        | file data =>
          -- the way would end at a file
          simp only at hw
          split_ifs at hw with hrest
          obtain rfl := Option.some.inj hw
          simp [FileSystem.get, hnode] at hdir
  induction n generalizing cur parts with
  | zero => exact @hwith (fun _ _ => none) (fun _ _ => none) (fun hf => hf) parts cur hw
  | succ n ih => exact @hwith (fs.walk n) (fs'.walk n) (fun hf => ih hf) parts cur hw

/-- From the directory a way leads to, the rest of a longer way goes on. -/
theorem walk_append {dir : Location} (hdir : fs.get dir = some .dir) {n : ℕ} (hw : fs.walk n cur parts = some dir) :
    ∃ m, ∀ rest, fs.walk n cur (parts ++ rest) = fs.walk m dir rest := by
  have hwith : ∀ {n : ℕ} {follow : Location → List String → Option Location},
      (∀ c r, fs.walk n c r = fs.walkWith follow c r) →
      (∀ {cur parts}, follow cur parts = some dir → ∃ m, ∀ rest, follow cur (parts ++ rest) = fs.walk m dir rest) →
      ∀ {parts cur}, fs.walkWith follow cur parts = some dir →
        ∃ m, ∀ rest, fs.walkWith follow cur (parts ++ rest) = fs.walk m dir rest := by
    intro n follow hn hfollow parts
    induction parts with
    | nil =>
      intro cur hw
      obtain rfl := Option.some.inj hw
      exact ⟨n, fun rest => (hn cur rest).symm⟩
    | cons name rest ih =>
      intro cur hw
      by_cases hdot : name = "."
      · subst hdot
        simp only [List.cons_append, walkWith_dot] at hw ⊢
        exact ih hw
      by_cases hdots : name = ".."
      · subst hdots
        simp only [List.cons_append, walkWith_dots] at hw ⊢
        exact ih hw
      simp only [List.cons_append, walkWith_name ⟨hdot, hdots⟩] at hw ⊢
      cases hnode : fs.node (cur ++ [name]) with
      | none =>
        rw [hnode] at hw
        cases hw
      | some node =>
        rw [hnode] at hw
        cases node with
        | dir => exact ih hw
        | link target =>
          obtain ⟨m, hm⟩ := hfollow hw
          refine ⟨m, fun rest' => ?_⟩
          rw [← hm rest', List.append_assoc]
        | file data =>
          simp only at hw
          split_ifs at hw with hrest
          obtain rfl := Option.some.inj hw
          simp [FileSystem.get, hnode] at hdir
  induction n generalizing cur parts with
  | zero => exact @hwith 0 (fun _ _ => none) (fun _ _ => rfl) (fun hf => by cases hf) parts cur hw
  | succ n ih => exact @hwith (n + 1) (fs.walk n) (fun _ _ => rfl) (fun hf => ih hf) parts cur hw

/-- Names, none of them a dot, that lead from one directory to the next. -/
structure PlainWay (fs : FileSystem F) (dir : Location) (names : List String) : Prop where
  noDots : ∀ name ∈ names, name ≠ "." ∧ name ≠ ".."
  dirs : ∀ pre, pre ≠ [] → pre <+: names → fs.node (dir ++ pre) = some .dir

namespace PlainWay

variable {dir : Location} {name : String} {names : List String}

theorem nil : PlainWay fs dir [] := ⟨nofun, fun _ hne hpre => absurd (List.prefix_nil.1 hpre) hne⟩

theorem keeps (h : PlainWay fs dir names) (hk : KeepsWays fs fs') : PlainWay fs' dir names :=
  ⟨h.noDots, fun pre hne hpre => hk _ _ (h.dirs pre hne hpre) nofun⟩

theorem tail (h : PlainWay fs dir (name :: names)) : PlainWay fs (dir ++ [name]) names := by
  refine ⟨fun x hx => h.noDots x (List.mem_cons_of_mem _ hx), fun pre _ hpre => ?_⟩
  rw [List.append_assoc]
  exact h.dirs _ (by simp) ((List.prefix_cons_inj name).2 hpre)

theorem snoc (h : PlainWay fs dir names) (hname : name ≠ "." ∧ name ≠ "..")
    (hdir : fs.node (dir ++ (names ++ [name])) = some .dir) : PlainWay fs dir (names ++ [name]) := by
  refine ⟨fun x hx => ?_, fun pre hne hpre => ?_⟩
  · rcases List.mem_append.1 hx with hx | hx
    · exact h.noDots x hx
    · rw [List.mem_singleton.1 hx]
      exact hname
  · rcases List.prefix_concat_iff.1 hpre with rfl | hpre
    · exact hdir
    · exact h.dirs pre hne hpre

end PlainWay

/-- Along a plain way nothing but the directory changes. -/
theorem walk_plain {dir : Location} {names : List String} (h : PlainWay fs dir names) (n : ℕ) (rest : List String) :
    fs.walk n dir (names ++ rest) = fs.walk n (dir ++ names) rest := by
  induction names generalizing dir with
  | nil => simp
  | cons name names ih =>
    have hname := h.noDots name (List.mem_cons_self ..)
    have hdir := h.dirs [name] (by simp) (by simp)
    have hstep : fs.walk n dir (name :: (names ++ rest)) = fs.walk n (dir ++ [name]) (names ++ rest) := by
      cases n with
      | zero =>
        unfold walk
        rw [walkWith_name hname, hdir]
      | succ n =>
        unfold walk
        rw [walkWith_name hname, hdir]
    rw [List.cons_append, hstep, ih h.tail, List.append_assoc, List.singleton_append]

/-- The pathname leads to a directory, over directories. -/
structure LeadsTo (fs : FileSystem F) (cwd : Location) (p : Pathname) (dir : Location) : Prop where
  there : ∀ pre, pre <+: p.parts → ∃ loc, fs.resolve cwd ⟨p.absolute, pre⟩ = some loc ∧ fs.get loc = some .dir
  resolve : fs.resolve cwd p = some dir

namespace LeadsTo

variable {dir : Location} {names : List String} {name : String}

theorem get (h : LeadsTo fs cwd p dir) : fs.get dir = some .dir := by
  obtain ⟨loc, hloc, hget⟩ := h.there p.parts (List.prefix_refl _)
  rw [show fs.resolve cwd ⟨p.absolute, p.parts⟩ = some dir from h.resolve] at hloc
  rwa [Option.some.inj hloc]

theorem keeps (h : LeadsTo fs cwd p dir) (hk : KeepsWays fs fs') : LeadsTo fs' cwd p dir := by
  refine ⟨fun pre hpre => ?_, walk_keeps hk h.get h.resolve⟩
  obtain ⟨loc, hloc, hget⟩ := h.there pre hpre
  exact ⟨loc, walk_keeps hk hget hloc, hk.get_dir hget⟩

theorem resolve_child (h : LeadsTo fs cwd p dir) :
    ∃ m, ∀ names, fs.resolve cwd (p.child names) = fs.walk m dir names := by
  obtain ⟨m, hm⟩ := walk_append h.get h.resolve
  exact ⟨m, fun names => hm names⟩

theorem resolve_plain (h : LeadsTo fs cwd p dir) (hway : PlainWay fs dir names) :
    fs.resolve cwd (p.child names) = some (dir ++ names) := by
  obtain ⟨m, hm⟩ := h.resolve_child
  have hplain := walk_plain hway m []
  rw [List.append_nil] at hplain
  rw [hm, hplain]
  cases m with
  | zero => rfl
  | succ m => rfl

theorem name_child (hname : name ≠ "." ∧ name ≠ "..") : (p.child (names ++ [name])).name? = some name := by
  simp [Pathname.name?, Pathname.child, ← List.append_assoc, hname]

theorem locate_plain (h : LeadsTo fs cwd p dir) (hway : PlainWay fs dir names) (hname : name ≠ "." ∧ name ≠ "..") :
    fs.locate cwd (p.child (names ++ [name])) = some (dir ++ (names ++ [name])) := by
  refine locate_eq_some.2 ⟨name, dir ++ names, name_child hname, ?_, (List.append_assoc ..).symm⟩
  have hparent : (p.child (names ++ [name])).parent = p.child names := by
    simp [Pathname.parent, Pathname.child, ← List.append_assoc]
  rw [hparent]
  exact h.resolve_plain hway

/-- What stands at the end of a plain way, unless it is a link. -/
theorem stat_plain (h : LeadsTo fs cwd p dir) (hway : PlainWay fs dir names) (hname : name ≠ "." ∧ name ≠ "..")
    (hlink : ∀ target, fs.node (dir ++ (names ++ [name])) ≠ some (.link target)) :
    fs.stat cwd (p.child (names ++ [name])) = fs.node (dir ++ (names ++ [name])) := by
  obtain ⟨m, hm⟩ := h.resolve_child
  have hlast : ∃ follow, fs.walk m (dir ++ names) [name] = fs.walkWith follow (dir ++ names) [name] := by
    cases m with
    | zero => exact ⟨_, rfl⟩
    | succ m => exact ⟨_, rfl⟩
  obtain ⟨follow, hfollow⟩ := hlast
  unfold FileSystem.stat
  rw [hm, walk_plain hway, hfollow, walkWith_name hname, name_child hname, List.append_assoc]
  cases hnode : fs.node (dir ++ (names ++ [name])) with
  | none => rfl
  | some node =>
    cases node with
    | dir => simp [walkWith, FileSystem.get, hnode]
    | file data => simp [FileSystem.get, hnode]
    | link target => exact absurd hnode (hlink target)

/-- The file at the end of a plain way. -/
theorem read_plain (h : LeadsTo fs cwd p dir) (hway : PlainWay fs dir names) (hname : name ≠ "." ∧ name ≠ "..")
    {data : F} (hfile : fs.node (dir ++ (names ++ [name])) = some (.file data)) :
    fs.read cwd (p.child (names ++ [name])) = some data := by
  unfold FileSystem.read
  rw [h.stat_plain hway hname (by simp [hfile]), hfile]

end LeadsTo

/-! ### Making the directories of a plain way -/

section

variable {dir : Location} {made names : List String}

theorem stat_dir_of_there (h : ∃ loc, fs.resolve cwd p = some loc ∧ fs.get loc = some .dir) :
    fs.stat cwd p = some .dir := by
  obtain ⟨loc, hloc, hget⟩ := h
  unfold stat
  rw [hloc]
  cases p.name? with
  | none => rfl
  | some name => exact hget

/-- Directories that are there are passed. -/
theorem makeDirs_there {absolute : Bool} {before : List String}
    (h : ∀ pre, pre <+: before ++ parts → ∃ loc, fs.resolve cwd ⟨absolute, pre⟩ = some loc ∧ fs.get loc = some .dir) :
    makeDirs cwd absolute fs before (parts ++ names) = makeDirs cwd absolute fs (before ++ parts) names := by
  induction parts generalizing before with
  | nil => simp
  | cons name parts ih =>
    have hstat : fs.stat cwd ⟨absolute, before ++ [name]⟩ = some .dir := by
      refine stat_dir_of_there (h _ ?_)
      exact (List.prefix_append_right_inj before).2 (by simp)
    rw [List.cons_append, makeDirs, hstat]
    have hrest := @ih (before ++ [name]) (by rwa [List.append_assoc])
    rwa [List.append_assoc, List.singleton_append] at hrest

theorem mkdirs_child (h : LeadsTo fs cwd p dir) :
    fs.mkdirs cwd (p.child names) = makeDirs cwd p.absolute fs p.parts names := by
  have hthere := @makeDirs_there F fs cwd p.parts names p.absolute [] h.there
  rwa [List.nil_append] at hthere

/-- The directory a plain way has come to. -/
theorem get_plain (h : LeadsTo fs cwd p dir) (hway : PlainWay fs dir made) : fs.get (dir ++ made) = some .dir := by
  by_cases hmade : made = []
  · rw [hmade, List.append_nil]
    exact h.get
  · have hne : dir ++ made ≠ [] := by simp [hmade]
    unfold FileSystem.get
    rw [if_neg hne]
    exact hway.dirs made hmade (List.prefix_refl _)

/-- One directory that is missing is made. -/
theorem makeDirs_missing (h : LeadsTo fs cwd p dir) (hway : PlainWay fs dir made) {name : String}
    (hname : name ≠ "." ∧ name ≠ "..") (hnone : fs.node (dir ++ (made ++ [name])) = none) (rest : List String) :
    makeDirs cwd p.absolute fs (p.parts ++ made) (name :: rest) =
      makeDirs cwd p.absolute (fs.set (dir ++ (made ++ [name])) (some .dir)) (p.parts ++ (made ++ [name])) rest := by
  have hchild : (⟨p.absolute, p.parts ++ made ++ [name]⟩ : Pathname) = p.child (made ++ [name]) := by
    simp [Pathname.child]
  have hin : fs.inDir (dir ++ (made ++ [name])) = true := by
    have hdrop : (dir ++ (made ++ [name])).dropLast = dir ++ made := by
      rw [← List.append_assoc, List.dropLast_concat]
    unfold inDir
    rw [hdrop, get_plain h hway]
  rw [makeDirs, hchild, h.stat_plain hway hname (by simp [hnone]), hnone]
  simp only [h.locate_plain hway hname, hnone, hin, not_true_eq_false, if_false, List.append_assoc]

/-- **The directories of a way on which nothing else stands are made**, and nothing else changes. -/
theorem makeDirs_plain (h : LeadsTo fs cwd p dir) (hway : PlainWay fs dir made)
    (hdots : ∀ name ∈ names, name ≠ "." ∧ name ≠ "..")
    (hfree : ∀ pre, pre ≠ [] → pre <+: names →
      fs.node (dir ++ (made ++ pre)) = none ∨ fs.node (dir ++ (made ++ pre)) = some .dir) :
    ∃ fs', makeDirs cwd p.absolute fs (p.parts ++ made) names = .ok fs' ∧ Grows fs fs' ∧
      PlainWay fs' dir (made ++ names) ∧
      ∀ loc, (∀ pre, pre ≠ [] → pre <+: names → loc ≠ dir ++ (made ++ pre)) → fs'.node loc = fs.node loc := by
  induction names generalizing fs made with
  | nil => exact ⟨fs, rfl, Grows.refl fs, by rwa [List.append_nil], fun _ _ => rfl⟩
  | cons name rest ih =>
    have hname := hdots name (List.mem_cons_self ..)
    have hsplit : ∀ pre, made ++ name :: pre = made ++ [name] ++ pre := by simp
    have hrest : ∀ x ∈ rest, x ≠ "." ∧ x ≠ ".." := fun x hx => hdots x (List.mem_cons_of_mem _ hx)
    -- the way goes on in a file system that has this directory
    have hgo : ∀ {fs₁ : FileSystem F}, Grows fs fs₁ → fs₁.node (dir ++ (made ++ [name])) = some .dir →
        (∀ loc, loc ≠ dir ++ (made ++ [name]) → fs₁.node loc = fs.node loc) →
        makeDirs cwd p.absolute fs (p.parts ++ made) (name :: rest) =
          makeDirs cwd p.absolute fs₁ (p.parts ++ (made ++ [name])) rest →
        ∃ fs', makeDirs cwd p.absolute fs (p.parts ++ made) (name :: rest) = .ok fs' ∧ Grows fs fs' ∧
          PlainWay fs' dir (made ++ name :: rest) ∧
          ∀ loc, (∀ pre, pre ≠ [] → pre <+: name :: rest → loc ≠ dir ++ (made ++ pre)) → fs'.node loc =
            fs.node loc := by
      intro fs₁ hg hdir hsame hmake
      have hway₁ : PlainWay fs₁ dir (made ++ [name]) := (hway.keeps hg.keepsWays).snoc hname hdir
      obtain ⟨fs', hok, hg', hway', hframe⟩ := ih (h.keeps hg.keepsWays) hway₁ hrest (by
        intro pre hne hpre
        have hlong : dir ++ (made ++ [name] ++ pre) ≠ dir ++ (made ++ [name]) := by simpa using hne
        rw [hsame _ hlong, ← hsplit]
        exact hfree (name :: pre) (by simp) ((List.prefix_cons_inj name).2 hpre))
      refine ⟨fs', hmake.trans hok, hg.trans hg', ?_, ?_⟩
      · rw [hsplit]
        exact hway'
      · intro loc hloc
        rw [hframe loc ?_, hsame loc (hloc [name] (by simp) (by simp))]
        intro pre _ hpre
        rw [← hsplit]
        exact hloc (name :: pre) (by simp) ((List.prefix_cons_inj name).2 hpre)
    rcases hfree [name] (by simp) (by simp) with hnone | hdir
    · refine hgo (grows_set_dir hnone) (Function.update_self ..) ?_ (makeDirs_missing h hway hname hnone rest)
      exact fun loc hloc => Function.update_of_ne hloc ..
    · refine hgo (Grows.refl fs) hdir (fun _ _ => rfl) ?_
      have hchild : (⟨p.absolute, p.parts ++ made ++ [name]⟩ : Pathname) = p.child (made ++ [name]) := by
        simp [Pathname.child]
      rw [makeDirs, hchild, h.stat_plain hway hname (by simp [hdir]), hdir]
      simp only [List.append_assoc]

/-- **A file on the way stops it.** -/
theorem makeDirs_blocked (h : LeadsTo fs cwd p dir) (hway : PlainWay fs dir made)
    (hdots : ∀ name ∈ names, name ≠ "." ∧ name ≠ "..")
    (hlink : ∀ pre, pre ≠ [] → pre <+: names → ∀ target, fs.node (dir ++ (made ++ pre)) ≠ some (.link target))
    {pre : List String} (hpre : pre <+: names) (hne : pre ≠ []) {data : F}
    (hfile : fs.node (dir ++ (made ++ pre)) = some (.file data)) :
    ∃ e, makeDirs cwd p.absolute fs (p.parts ++ made) names = .error e := by
  induction names generalizing fs made pre with
  | nil => exact absurd (List.prefix_nil.1 hpre) hne
  | cons name rest ih =>
    have hname := hdots name (List.mem_cons_self ..)
    have hsplit : ∀ pre, made ++ name :: pre = made ++ [name] ++ pre := by simp
    have hrest : ∀ x ∈ rest, x ≠ "." ∧ x ≠ ".." := fun x hx => hdots x (List.mem_cons_of_mem _ hx)
    have hlink₁ : ∀ target, fs.node (dir ++ (made ++ [name])) ≠ some (.link target) :=
      hlink [name] (by simp) (by simp)
    have hchild : (⟨p.absolute, p.parts ++ made ++ [name]⟩ : Pathname) = p.child (made ++ [name]) := by
      simp [Pathname.child]
    -- the file lies further on
    have hgo : ∀ {fs₁ : FileSystem F}, Grows fs fs₁ → fs₁.node (dir ++ (made ++ [name])) = some .dir →
        (∀ loc, loc ≠ dir ++ (made ++ [name]) → fs₁.node loc = fs.node loc) →
        (∀ data, fs.node (dir ++ (made ++ [name])) ≠ some (.file data)) →
        makeDirs cwd p.absolute fs (p.parts ++ made) (name :: rest) =
          makeDirs cwd p.absolute fs₁ (p.parts ++ (made ++ [name])) rest →
        ∃ e, makeDirs cwd p.absolute fs (p.parts ++ made) (name :: rest) = .error e := by
      intro fs₁ hg hdir hsame hnot hmake
      obtain ⟨x, pre', rfl⟩ : ∃ x pre', pre = x :: pre' := List.exists_cons_of_ne_nil hne
      obtain ⟨rfl, hpre'⟩ := List.cons_prefix_cons.1 hpre
      have hne' : pre' ≠ [] := by
        rintro rfl
        exact hnot data hfile
      have hlong : ∀ pre, pre ≠ [] → dir ++ (made ++ [x] ++ pre) ≠ dir ++ (made ++ [x]) := by simp
      rw [hmake]
      refine ih (h.keeps hg.keepsWays) ((hway.keeps hg.keepsWays).snoc hname hdir) hrest ?_ hpre' hne' ?_
      · intro q hq' hq target
        rw [hsame _ (hlong q hq'), ← hsplit]
        exact hlink (x :: q) (by simp) ((List.prefix_cons_inj x).2 hq) target
      · rw [hsame _ (hlong pre' hne'), ← hsplit]
        exact hfile
    cases hnode : fs.node (dir ++ (made ++ [name])) with
    | none =>
      refine hgo (grows_set_dir hnode) (Function.update_self ..) (fun loc hloc => Function.update_of_ne hloc ..)
        (by simp [hnode]) (makeDirs_missing h hway hname hnode rest)
    | some node =>
      have hstat := h.stat_plain hway hname hlink₁
      cases node with
      | link target => exact absurd hnode (hlink₁ target)
      | file data' =>
        refine ⟨.notADirectory, ?_⟩
        rw [makeDirs, hchild, hstat, hnode]
      | dir =>
        refine hgo (Grows.refl fs) hnode (fun _ _ => rfl) (by simp [hnode]) ?_
        rw [makeDirs, hchild, hstat, hnode]
        simp only [List.append_assoc]

end

end FileSystem

end Vellum
