import Mathlib.Algebra.Order.Field.Rat
import Mathlib.Logic.Function.Basic
import Mathlib.Tactic.Linarith

/-!
# Counters with deadlines

`INCR key` and `EXPIRE key seconds` on a store of counters. A new counter has no deadline; with one
it is there strictly before it.

* `incr_alive`, `incr_new`: the answer of `INCR`.
* `expire_cases`: `EXPIRE` sets the deadline of its own counter, and only if it is there.
-/

namespace Vellum

/-- A count and its deadline, for every key ever set. -/
structure CounterStore where
  entry : String → Option (ℕ × Option ℚ)

namespace CounterStore

variable {s : CounterStore} {key key' : String} {now seconds : ℚ} {n : ℕ} {deadline : Option ℚ}

def empty : CounterStore := ⟨fun _ => none⟩

/-- A deadline that has not come. -/
def Before (now : ℚ) (deadline : Option ℚ) : Prop := ∀ d ∈ deadline, now < d

instance : Decidable (Before now deadline) :=
  match deadline with
  | none => isTrue nofun
  | some d => decidable_of_iff (now < d) (by simp [Before])

/-- The count of a key at a time. -/
def get (s : CounterStore) (now : ℚ) (key : String) : Option (ℕ × Option ℚ) :=
  (s.entry key).filter fun e => Before now e.2

/-- `INCR key`, with the new count. The deadline stays. -/
def incr (s : CounterStore) (now : ℚ) (key : String) : CounterStore × ℕ :=
  match s.get now key with
  | some (n, deadline) => (⟨Function.update s.entry key (some (n + 1, deadline))⟩, n + 1)
  | none => (⟨Function.update s.entry key (some (1, none))⟩, 1)

/-- `EXPIRE key seconds`. -/
def expire (s : CounterStore) (now : ℚ) (key : String) (seconds : ℚ) : CounterStore :=
  match s.get now key with
  | some (n, _) => ⟨Function.update s.entry key (some (n, some (now + seconds)))⟩
  | none => s

theorem get_eq_some : s.get now key = some (n, deadline) ↔
    s.entry key = some (n, deadline) ∧ Before now deadline := by
  simp [get, Option.filter_eq_some_iff]

theorem get_of_none (h : s.entry key = none) : s.get now key = none := by
  rw [get, h]
  rfl

/-- **A counter that is there** goes up by one and keeps its deadline. -/
theorem incr_alive (h : s.entry key = some (n, deadline)) (hbefore : Before now deadline) :
    (s.incr now key).2 = n + 1 ∧ (s.incr now key).1.entry key = some (n + 1, deadline) := by
  have hget := get_eq_some.2 ⟨h, hbefore⟩
  rw [incr, hget]
  exact ⟨rfl, Function.update_self ..⟩

/-- A new counter starts at one. -/
theorem incr_new (h : s.entry key = none) :
    (s.incr now key).2 = 1 ∧ (s.incr now key).1.entry key = some (1, none) := by
  rw [incr, get_of_none h]
  exact ⟨rfl, Function.update_self ..⟩

/-- `INCR` writes its own key. -/
theorem incr_other (h : key' ≠ key) : (s.incr now key).1.entry key' = s.entry key' := by
  unfold incr
  split
  · exact Function.update_of_ne h ..
  · exact Function.update_of_ne h ..

/-- **`EXPIRE`** sets the deadline of its own key, if it is there. -/
theorem expire_cases (s : CounterStore) (now : ℚ) (key : String) (seconds : ℚ) (key' : String) :
    (s.expire now key seconds).entry key' = s.entry key' ∨
      key' = key ∧ ∃ n deadline, s.entry key' = some (n, deadline) ∧
        (s.expire now key seconds).entry key' = some (n, some (now + seconds)) := by
  unfold expire
  split
  · next n deadline hget =>
    by_cases h : key' = key
    · subst h
      exact .inr ⟨rfl, n, deadline, (get_eq_some.1 hget).1, Function.update_self ..⟩
    · exact .inl (Function.update_of_ne h ..)
  · exact .inl rfl

end CounterStore

end Vellum
