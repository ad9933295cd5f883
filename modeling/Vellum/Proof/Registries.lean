import Vellum.Spec.Registries

/-!
# When a registry may be reloaded

The map is cleared first and filled while the loop runs, and a later pack takes the place of an
earlier one with its id. So the map at the end is that of the directory, whatever the order, only if
no two packs contradict each other, and a broken pack costs everything that was held.

* `refresh_reliable_iff`: when a reload may be relied on.
* `duplicate_shows_order`: two packs with one id show the order of the listing.
-/

namespace Vellum

namespace RegistryRoot

variable {F M : Type} {R : RegistryRoot F} {names names' : List String} {held : Dict M}

/-- Two listings of a directory are two orders of the same names. -/
theorem lists_iff_perm (h : R.Lists names) : R.Lists names' ↔ names'.Perm names := by
  obtain ⟨loc, hloc, hall⟩ := h.complete
  constructor
  · intro h'
    obtain ⟨loc', hloc', hall'⟩ := h'.complete
    rw [hloc, Option.some.injEq] at hloc'
    subst hloc'
    rw [List.perm_ext_iff_of_nodup h'.nodup h.nodup]
    intro name
    rw [hall, hall']
  · intro hp
    refine ⟨h.dir, hp.nodup_iff.2 h.nodup, loc, hloc, ?_⟩
    intro name
    rw [hp.mem_iff, hall]

theorem refresh_listed (h : R.Lists names) (load : String → Except RegistryError (Option (String × M))) :
    R.refresh load held = loadEach load .empty := by
  funext iterdir
  unfold refresh
  rw [h.dir]

/-- The reload of a listed root, by the rule for loading entry by entry. -/
theorem refresh_rule (h : R.Lists names) (load : String → Except RegistryError (Option (String × M))) :
    Reliable R.Lists (R.refresh load held) held ↔
      (∀ name ∈ names, ¬ Fails load name) ∧ Agreeing load names ∨
        (∃ name ∈ names, Fails load name) ∧ held.items = [] ∧ ∀ name ∈ names, ∀ id m, ¬ Gives load name id m := by
  have horders : R.Lists = (·.Perm names) := funext fun names' => propext (lists_iff_perm h)
  rw [refresh_listed h, horders]
  exact reliable_iff

/-- **When a registry may be reloaded**: every pack below the root loads and no two of them give one
id different manifests; or one does not load, nothing was held, and no other pack loads. -/
theorem refresh_reliable_iff (h : R.Lists names) :
    (∀ held, Reliable R.Lists (R.refreshPolicies held) held ↔
      (∀ name ∈ names, ¬ Fails R.loadPolicy name) ∧ Agreeing R.loadPolicy names ∨
        (∃ name ∈ names, Fails R.loadPolicy name) ∧ held.items = [] ∧
          ∀ name ∈ names, ∀ id m, ¬ Gives R.loadPolicy name id m) ∧
    ∀ held, Reliable R.Lists (R.refreshCircuits held) held ↔
      (∀ name ∈ names, ¬ Fails R.loadCircuit name) ∧ Agreeing R.loadCircuit names ∨
        (∃ name ∈ names, Fails R.loadCircuit name) ∧ held.items = [] ∧
          ∀ name ∈ names, ∀ id m, ¬ Gives R.loadCircuit name id m :=
  ⟨fun _ => refresh_rule h R.loadPolicy, fun _ => refresh_rule h R.loadCircuit⟩

/-! ## Two packs with one id -/

/-- A manifest by its version. -/
def packJson (version : String) : Json := .obj [
  ("policy_id", .str "lending"), ("policy_version", .str version), ("circuit_id", .str "batch"),
  ("reference_policy", .str "lending_v1"), ("primitives", .arr [.str "SafeSub"]),
  ("differential_outputs", .obj [("decision", .obj [("signal_index", .int 0), ("value_type", .str "string")])])]

def packText (version : String) : String := String.ofList (Json.render .compact (packJson version))

/-- Two directories with a manifest of the same policy in two versions. -/
def twoPacks : RegistryRoot String where
  loads text := if text = packText "1" then .ok (packJson "1") else if text = packText "2" then .ok (packJson "2")
    else .error (.jsonDecode "Expecting value: line 1 column 1 (char 0)")
  laxInt j := match j with
    | .int i => some i
    | _ => none
  validationText _ := "1 validation error for PolicyPackManifest"
  repr j := String.ofList (Json.render .spaced j)
  fs := ⟨fun loc => [(["packs"], .dir), (["packs", "a"], .dir), (["packs", "a", "manifest.json"], .file (packText "1")),
    (["packs", "b"], .dir), (["packs", "b", "manifest.json"], .file (packText "2"))].lookup loc⟩
  cwd := []
  root := ⟨true, ["packs"]⟩

theorem twoPacks_lists : twoPacks.Lists ["a", "b"] := by
  refine ⟨by rfl, by decide, ["packs"], by rfl, ?_⟩
  intro name
  have hnode : twoPacks.fs.node (["packs"] ++ [name]) = if name = "a" ∨ name = "b" then some .dir else none := by
    by_cases ha : name = "a"
    · subst ha
      rfl
    · by_cases hb : name = "b"
      · subst hb
        rfl
      · unfold twoPacks
        simp [ha, hb]
  rw [hnode, ite_ne_right_iff, List.mem_cons, List.mem_singleton]
  exact (and_iff_left nofun).symm

theorem refresh_reliable_iff_demo : (∀ held, Reliable twoPacks.Lists (twoPacks.refreshPolicies held) held ↔
      (∀ name ∈ ["a", "b"], ¬ Fails twoPacks.loadPolicy name) ∧ Agreeing twoPacks.loadPolicy ["a", "b"] ∨
        (∃ name ∈ ["a", "b"], Fails twoPacks.loadPolicy name) ∧ held.items = [] ∧
          ∀ name ∈ ["a", "b"], ∀ id m, ¬ Gives twoPacks.loadPolicy name id m) ∧
    ∀ held, Reliable twoPacks.Lists (twoPacks.refreshCircuits held) held ↔
      (∀ name ∈ ["a", "b"], ¬ Fails twoPacks.loadCircuit name) ∧ Agreeing twoPacks.loadCircuit ["a", "b"] ∨
        (∃ name ∈ ["a", "b"], Fails twoPacks.loadCircuit name) ∧ held.items = [] ∧
          ∀ name ∈ ["a", "b"], ∀ id m, ¬ Gives twoPacks.loadCircuit name id m :=
  refresh_reliable_iff twoPacks_lists

/-- What a pack gives, by the version in its manifest. -/
theorem twoPacks_gives {name version : String} (h : (twoPacks.loadPolicy name).toOption.join.map
    (fun p => (p.1, p.2.policyVersion)) = some ("lending", version)) :
    ∃ m, Gives twoPacks.loadPolicy name "lending" m ∧ m.policyVersion = version := by
  cases hload : twoPacks.loadPolicy name with
  | error e =>
    rw [hload] at h
    cases h
  | ok r =>
    rw [hload] at h
    cases r with
    | none => cases h
    | some p =>
      obtain ⟨id, m⟩ := p
      cases h
      exact ⟨m, hload, rfl⟩

/-- **The order shows**: both packs load, and the one that is listed last is in the map. -/
theorem duplicate_shows_order : ¬ Reliable twoPacks.Lists (twoPacks.refreshPolicies .empty) .empty := by
  obtain ⟨m, hm, hversion⟩ : ∃ m, Gives twoPacks.loadPolicy "a" "lending" m ∧ m.policyVersion = "1" :=
    twoPacks_gives (by decide +kernel)
  obtain ⟨m', hm', hversion'⟩ : ∃ m, Gives twoPacks.loadPolicy "b" "lending" m ∧ m.policyVersion = "2" :=
    twoPacks_gives (by decide +kernel)
  intro h
  rcases (refresh_rule twoPacks_lists _).1 h with ⟨-, hagree⟩ | ⟨-, -, hnone⟩
  · have heq := hagree "a" (by decide) "b" (by decide) "lending" m m' hm hm'
    rw [heq, hversion'] at hversion
    revert hversion
    decide
  · exact hnone "a" (by decide) "lending" m hm

end RegistryRoot

end Vellum
