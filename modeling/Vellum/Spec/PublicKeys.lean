import Mathlib.Algebra.Order.Field.Rat
import Mathlib.Logic.Function.Basic
import Vellum.Lib.Dict
import Vellum.Lib.Json
import Vellum.Lib.PyText

/-!
# Lookups of public keys while Vault rotates them

`VaultPublicKeyCache` of `vellum_core/vault.py` for every key name, step by step: a call looks into
the cache, and where it has to, it waits for Vault to answer and stores the answer. Between any two
of these time passes, Vault rotates keys, and other calls do their steps on the same cache.
-/

namespace Vellum

namespace PublicKeys

/-- What Vault lists under `keys` for each key name it has: a description of each version. -/
abbrev Vault := String → Option (Dict Json)

/-- `payload.get("public_key") if isinstance(payload, dict) else None`, where it is a string. -/
def publicKeyOf : Json → Option String
  | .obj fields => match fields.lookup "public_key" with
    | some (.str publicKey) => some publicKey
    | _ => none
  | _ => none

/-- The dictionary that `read_public_keys` makes of Vault's. -/
def readPublicKeys (keys : Dict Json) : Dict String where
  items := keys.items.filterMap fun p => (publicKeyOf p.2).map fun publicKey => (p.1, publicKey)
  nodup := by
    have hsub : ((keys.items.filterMap fun p => (publicKeyOf p.2).map fun publicKey => (p.1, publicKey)).map
        Prod.fst).Sublist (keys.items.map Prod.fst) := by
      induction keys.items with
      | nil => exact List.Sublist.refl _
      | cons p ps ih =>
        cases hp : publicKeyOf p.2 with
        | none =>
          rw [List.filterMap_cons_none (by rw [hp]; rfl)]
          exact ih.cons _
        | some publicKey =>
          rw [List.filterMap_cons_some (by rw [hp]; rfl)]
          exact ih.cons_cons _
    exact hsub.nodup keys.nodup

/-- The public keys Vault has for a name, by their versions. -/
def Vault.listed (vault : Vault) (keyName : String) : Dict String :=
  match vault keyName with
  | some keys => readPublicKeys keys
  | none => .empty

inductive LookupError where
  | value (text : String)
  | key (text : String)
  -- `raise_for_status`, for a key name that Vault does not have
  | httpStatus
deriving DecidableEq

/-- The arguments of one call. -/
structure Lookup where
  keyName : String
  keyVersion : Option String

/-- `versions[str(max(int(v) for v in versions.keys()))]`. -/
def latestKey (versions : Dict String) : Except LookupError String :=
  match versions.keys.mapM pyInt? with
  | none => .error (.value "invalid literal for int() with base 10")
  | some numbers => match numbers.max? with
    | none => .error (.value "max() iterable argument is empty")
    | some n => match versions.get? n.repr with
      | some publicKey => .ok publicKey
      | none => .error (.key n.repr)

/-- What a call does with the versions it has: it returns, or drops the entry and loads anew. -/
inductive Outcome where
  | returns (answer : Except LookupError String)
  | refreshes (keyVersion : String)

/-- Which of its two `_get_versions` a call is in. -/
inductive Round where
  | first
  | again (keyVersion : String)

/-- `get_public_key` after the first `_get_versions`. -/
def Lookup.afterFirst (l : Lookup) (versions : Dict String) : Outcome :=
  if versions.items = [] then
    .returns (.error (.value ("No public keys found in Vault for key '" ++ l.keyName ++ "'")))
  else
    match l.keyVersion with
    | none => .returns (latestKey versions)
    | some keyVersion => match versions.get? keyVersion with
      | some publicKey => .returns (.ok publicKey)
      | none => .refreshes keyVersion

/-- `get_public_key` after the second. -/
def Lookup.afterSecond (l : Lookup) (keyVersion : String) (versions : Dict String) : Except LookupError String :=
  match versions.get? keyVersion with
  | some publicKey => .ok publicKey
  | none => .error (.value ("Public key version '" ++ keyVersion ++ "' not found for '" ++ l.keyName ++ "'"))

def Lookup.outcome (l : Lookup) : Round → Dict String → Outcome
  | .first, versions => l.afterFirst versions
  | .again keyVersion, versions => .returns (l.afterSecond keyVersion versions)

/-- The clock and what Vault has. -/
structure Moment where
  time : ℚ
  vault : Vault

/-- Where a call stands: before it looks into the cache, waiting for Vault, with Vault's answer in
hand, or at its end. Its first and its last moment are kept, which nothing in the program reads. -/
inductive LookupPhase where
  | idle
  | loading (round : Round) (now : ℚ) (start : Moment)
  | loaded (round : Round) (now : ℚ) (versions : Dict String) (start : Moment)
  | returned (answer : Except LookupError String) (start finish : Moment)

/-- The time to live and the arguments of each call. -/
structure KeyLookups where
  ttlSeconds : ℚ
  call : ℕ → Lookup

/-- The clock, Vault, the cache and every call. The moments so far are kept, which nothing in the
program reads. -/
structure State where
  now : ℚ
  vault : Vault
  cache : String → Option (ℚ × Dict String)
  calls : ℕ → LookupPhase
  past : List Moment

namespace State

def moment (s : State) : Moment := ⟨s.now, s.vault⟩

/-- Nothing in Vault, nothing in the cache, no call begun. -/
def init (now : ℚ) : State := ⟨now, fun _ => none, fun _ => none, fun _ => .idle, [⟨now, fun _ => none⟩]⟩

def setCall (s : State) (i : ℕ) (p : LookupPhase) : State := { s with calls := Function.update s.calls i p }

/-- The entry of a key name unless it has expired: `expires_at > now`. -/
def cached (s : State) (keyName : String) : Option (Dict String) :=
  match s.cache keyName with
  | some (expiresAt, versions) => if s.now < expiresAt then some versions else none
  | none => none

/-- A call goes on with the versions it has. -/
def proceed (s : State) (i : ℕ) (keyName : String) (start : Moment) : Outcome → State
  | .returns answer => s.setCall i (.returned answer start s.moment)
  | .refreshes keyVersion =>
    -- the second `_get_versions` follows at once: it finds no entry
    { s with cache := Function.update s.cache keyName none
             calls := Function.update s.calls i (.loading (.again keyVersion) s.now start) }

/-- `self._cache[key_name] = (now + self.ttl_seconds, versions)`. -/
def store (s : State) (keyName : String) (expiresAt : ℚ) (versions : Dict String) : State :=
  { s with cache := Function.update s.cache keyName (some (expiresAt, versions)) }

end State

/-- A canonical decimal numeral. -/
def Canonical (version : String) : Prop := ∃ n : ℕ, version = n.repr

/-- Rotations: a key name stays, versions are only added and keep their key. -/
structure Rotates (vault vault' : Vault) : Prop where
  names : ∀ keyName, vault keyName ≠ none → vault' keyName ≠ none
  keeps : ∀ keyName version publicKey, (vault.listed keyName).get? version = some publicKey →
    (vault'.listed keyName).get? version = some publicKey
  canonical : ∀ keyName, ∀ version ∈ (vault'.listed keyName).keys, Canonical version

/-- **One step** of the clock, of Vault, or of one call. -/
inductive Step (L : KeyLookups) : State → State → Prop where
  | tick {s : State} {now : ℚ} : s.now ≤ now →
      Step L s { s with now := now, past := s.past ++ [⟨now, s.vault⟩] }
  | rotate {s : State} {vault : Vault} : Rotates s.vault vault →
      Step L s { s with vault := vault, past := s.past ++ [⟨s.now, vault⟩] }
  | hit {s : State} {i : ℕ} {versions : Dict String} : s.calls i = .idle →
      s.cached (L.call i).keyName = some versions →
      Step L s (s.proceed i (L.call i).keyName s.moment ((L.call i).outcome .first versions))
  | miss {s : State} {i : ℕ} : s.calls i = .idle → s.cached (L.call i).keyName = none →
      Step L s (s.setCall i (.loading .first s.now s.moment))
  | answer {s : State} {i : ℕ} {round : Round} {now : ℚ} {start : Moment} {keys : Dict Json} :
      s.calls i = .loading round now start → s.vault (L.call i).keyName = some keys →
      Step L s (s.setCall i (.loaded round now (readPublicKeys keys) start))
  | refuse {s : State} {i : ℕ} {round : Round} {now : ℚ} {start : Moment} :
      s.calls i = .loading round now start → s.vault (L.call i).keyName = none →
      Step L s (s.setCall i (.returned (.error .httpStatus) start s.moment))
  | store {s : State} {i : ℕ} {round : Round} {now : ℚ} {start : Moment} {versions : Dict String} :
      s.calls i = .loaded round now versions start →
      Step L s ((s.store (L.call i).keyName (now + L.ttlSeconds) versions).proceed i (L.call i).keyName start
        ((L.call i).outcome round versions))

end PublicKeys

end Vellum
