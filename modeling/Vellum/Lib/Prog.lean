import Mathlib.Data.Set.Basic
import Mathlib.Logic.Function.Basic
import Vellum.Lib.Run

/-!
# Programs that await external calls

A program is a tree: it is done, with a result or an exception, or it awaits a call and goes
on with the answer, which is a response or an exception. Any number of programs run in a pool
over one shared world, one call at a time; a program may also crash where it awaits.

* `Safe`: what holds at every call of a program, and of its outcome, when it runs alone.
* `safe_andThen_iff`: the rule of sequencing, from which those of `bind` and of `tryCatch` follow.
* `safe_mono`: the rule of consequence.
* `safe_rely`, `step_rely`: programs that stay safe while the others change the world.
* `Calls`, `safe_of_calls`: what all calls of a program are like.
* `exec`: a run against a pure function of the calls.
* `runOn`: a run alone in a world that answers by a function.
* `driveAt`: a run whose answers an oracle gives, to exhibit runs.
* `sequential_invariant`: what every task keeps when it runs alone holds throughout every run
  in which a task starts only when no other is in progress.
-/

namespace Vellum

open Relation

variable {C : Type} {Resp : C → Type} {E α β W : Type}

/-- A program with calls `C`, responses `Resp`, exceptions `E` and results `α`. -/
inductive Prog {C : Type} (Resp : C → Type) (E α : Type) where
  | done (outcome : Except E α)
  | await (c : C) (k : Except E (Resp c) → Prog Resp E α)

namespace Prog

/-- Run a program, then go on with its outcome. -/
def andThen : Prog Resp E α → (Except E α → Prog Resp E β) → Prog Resp E β
  | .done r, f => f r
  | .await c k, f => .await c fun a => (k a).andThen f

/-- Await one call. -/
def call (c : C) : Prog Resp E (Resp c) := .await c .done

/-- A computation that awaits nothing. -/
def lift (r : Except E α) : Prog Resp E α := .done r

def bind (p : Prog Resp E α) (f : α → Prog Resp E β) : Prog Resp E β :=
  p.andThen fun
    | .ok a => f a
    | .error e => .done (.error e)

/-- `try p except e: h(e)`. -/
def tryCatch (p : Prog Resp E α) (h : E → Prog Resp E α) : Prog Resp E α :=
  p.andThen fun
    | .ok a => .done (.ok a)
    | .error e => h e

instance : Monad (Prog Resp E) where
  pure a := .done (.ok a)
  bind := bind

instance : MonadExceptOf E (Prog Resp E) where
  throw e := .done (.error e)
  tryCatch := tryCatch

def isDone : Prog Resp E α → Bool
  | .done _ => true
  | .await .. => false

/-! ## One program alone -/

/-- The program makes its calls where `I` allows them and ends where `Q` holds, whatever the
world answers: `sem c w a w'` says that call `c` in world `w` may answer `a` and leave `w'`. -/
def Safe (sem : (c : C) → W → Except E (Resp c) → W → Prop) (I : C → W → Prop)
    (Q : Except E α → W → Prop) : Prog Resp E α → W → Prop
  | .done r, w => Q r w
  | .await c k, w => I c w ∧ ∀ a w', sem c w a w' → (k a).Safe sem I Q w'

variable {sem : (c : C) → W → Except E (Resp c) → W → Prop} {I : C → W → Prop} {w : W}

/-- **Consequence.** -/
theorem safe_mono {Q Q' : Except E α → W → Prop} (hQ : ∀ r w, Q r w → Q' r w) {p : Prog Resp E α}
    (h : p.Safe sem I Q w) : p.Safe sem I Q' w := by
  induction p generalizing w with
  | done r => exact hQ r w h
  | await c k ih => exact ⟨h.1, fun a w' hs => ih a (h.2 a w' hs)⟩

/-- **Sequencing.** -/
theorem safe_andThen_iff {Q : Except E β → W → Prop} {p : Prog Resp E α} {f : Except E α → Prog Resp E β} :
    (p.andThen f).Safe sem I Q w ↔ p.Safe sem I (fun r w => (f r).Safe sem I Q w) w := by
  induction p generalizing w with
  | done r => exact Iff.rfl
  | await c k ih =>
    constructor
    · intro h
      exact ⟨h.1, fun a w' hs => (ih a).1 (h.2 a w' hs)⟩
    · intro h
      exact ⟨h.1, fun a w' hs => (ih a).2 (h.2 a w' hs)⟩

theorem safe_andThen {Q : Except E β → W → Prop} {p : Prog Resp E α} {f : Except E α → Prog Resp E β}
    (h : p.Safe sem I (fun r w => (f r).Safe sem I Q w) w) : (p.andThen f).Safe sem I Q w :=
  safe_andThen_iff.2 h

theorem safe_bind {Q : Except E β → W → Prop} {p : Prog Resp E α} {f : α → Prog Resp E β}
    (h : p.Safe sem I (fun r w => match r with | .ok a => (f a).Safe sem I Q w | .error e => Q (.error e) w) w) :
    (p >>= f).Safe sem I Q w := by
  refine safe_andThen (safe_mono ?_ h)
  rintro (e | a) w hw
  · exact hw
  · exact hw

theorem safe_tryCatch {Q : Except E α → W → Prop} {p : Prog Resp E α} {h : E → Prog Resp E α}
    (hp : p.Safe sem I (fun r w => match r with | .ok a => Q (.ok a) w | .error e => (h e).Safe sem I Q w) w) :
    (p.tryCatch h).Safe sem I Q w := by
  refine safe_andThen (safe_mono ?_ hp)
  rintro (e | a) w hw
  · exact hw
  · exact hw

/-- One call, by its two kinds of answers. -/
theorem safe_call_bind {Q : Except E β → W → Prop} {c : C} {f : Resp c → Prog Resp E β} (hI : I c w)
    (hok : ∀ r w', sem c w (.ok r) w' → (f r).Safe sem I Q w')
    (herr : ∀ e w', sem c w (.error e) w' → Q (.error e) w') : (call c >>= f).Safe sem I Q w := by
  refine ⟨hI, ?_⟩
  rintro (e | r) w' hs
  · exact herr e w' hs
  · exact hok r w' hs

/-! ### Interference

Between two calls the world may have changed along `R`; what is required at a call has to be
stable under that. -/

/-- The calls of a program whose world changes along `R` before each of them. -/
def rely (R : W → W → Prop) (sem : (c : C) → W → Except E (Resp c) → W → Prop) (c : C) (w : W)
    (a : Except E (Resp c)) (w' : W) : Prop :=
  ∃ w₁, R w w₁ ∧ sem c w₁ a w'

/-- **A change of the world that the program relies on leaves it safe.** -/
theorem safe_rely {R : W → W → Prop} (htrans : ∀ u v w, R u v → R v w → R u w)
    (hI : ∀ c w w', I c w → R w w' → I c w') {Q : Except E α → W → Prop}
    (hQ : ∀ r w w', Q r w → R w w' → Q r w') {p : Prog Resp E α} {w' : W} (h : p.Safe (rely R sem) I Q w)
    (hR : R w w') : p.Safe (rely R sem) I Q w' := by
  cases p with
  | done r => exact hQ r w w' h hR
  | await c k =>
    refine ⟨hI c w w' h.1 hR, ?_⟩
    rintro a w'' ⟨w₁, hw₁, hs⟩
    exact h.2 a w'' ⟨w₁, htrans w w' w₁ hR hw₁, hs⟩

/-! ## The calls of a program -/

/-- Every call the program can make satisfies `P`. -/
def Calls (P : C → Prop) : Prog Resp E α → Prop
  | .done _ => True
  | .await c k => P c ∧ ∀ a, (k a).Calls P

variable {P : C → Prop}

theorem calls_andThen {p : Prog Resp E α} {f : Except E α → Prog Resp E β} (hp : p.Calls P) (hf : ∀ r, (f r).Calls P) :
    (p.andThen f).Calls P := by
  induction p with
  | done r => exact hf r
  | await c k ih => exact ⟨hp.1, fun a => ih a (hp.2 a)⟩

theorem calls_bind {p : Prog Resp E α} {f : α → Prog Resp E β} (hp : p.Calls P) (hf : ∀ a, (f a).Calls P) :
    (p >>= f).Calls P := by
  refine calls_andThen hp ?_
  rintro (e | a)
  · trivial
  · exact hf a

theorem calls_tryCatch {p : Prog Resp E α} {h : E → Prog Resp E α} (hp : p.Calls P) (hh : ∀ e, (h e).Calls P) :
    (p.tryCatch h).Calls P := by
  refine calls_andThen hp ?_
  rintro (e | a)
  · exact hh e
  · trivial

theorem calls_mono {P' : C → Prop} (hP : ∀ c, P c → P' c) {p : Prog Resp E α} (h : p.Calls P) : p.Calls P' := by
  induction p with
  | done r => trivial
  | await c k ih => exact ⟨hP c h.1, fun a => ih a (h.2 a)⟩

/-- A program whose calls leave the world as it is. -/
theorem safe_of_calls {Q : Except E α → W → Prop} {p : Prog Resp E α} (hp : p.Calls P) (hI : ∀ c, P c → I c w)
    (hstay : ∀ c a w', P c → sem c w a w' → w' = w) (hQ : ∀ r, Q r w) : p.Safe sem I Q w := by
  induction p with
  | done r => exact hQ r
  | await c k ih =>
    refine ⟨hI c hp.1, fun a w' hs => ?_⟩
    rw [hstay c a w' hp.1 hs]
    exact ih a (hp.2 a)

/-- A program whose calls are allowed everywhere. -/
theorem safe_of_calls_everywhere {Q : Except E α → W → Prop} {p : Prog Resp E α} (hp : p.Calls P)
    (hI : ∀ c w, P c → I c w) (hQ : ∀ r w, Q r w) (w : W) : p.Safe sem I Q w := by
  induction p generalizing w with
  | done r => exact hQ r w
  | await c k ih => exact ⟨hI c w hp.1, fun a w' _ => ih a (hp.2 a) w'⟩

/-! ## Answers by a function -/

variable {answer : (c : C) → Except E (Resp c)}

/-- The calls made and the outcome, each call answered by a function of it. -/
def exec (answer : (c : C) → Except E (Resp c)) : Prog Resp E α → List C × Except E α
  | .done r => ([], r)
  | .await c k => (c :: ((k (answer c)).exec answer).1, ((k (answer c)).exec answer).2)

theorem exec_andThen (p : Prog Resp E α) (f : Except E α → Prog Resp E β) :
    (p.andThen f).exec answer =
      ((p.exec answer).1 ++ ((f (p.exec answer).2).exec answer).1, ((f (p.exec answer).2).exec answer).2) := by
  induction p with
  | done r => rfl
  | await c k ih =>
    show (c :: (((k (answer c)).andThen f).exec answer).1, (((k (answer c)).andThen f).exec answer).2) = _
    rw [ih]
    rfl

theorem exec_tryCatch_of_ok {p : Prog Resp E α} {h : E → Prog Resp E α} {a : α} (hp : (p.exec answer).2 = .ok a) :
    ((p.tryCatch h).exec answer).2 = .ok a := by
  rw [tryCatch, exec_andThen, hp]
  rfl

theorem exec_tryCatch_of_error {p : Prog Resp E α} {h : E → Prog Resp E α} {e : E} (hp : (p.exec answer).2 = .error e) :
    ((p.tryCatch h).exec answer).2 = ((h e).exec answer).2 := by
  rw [tryCatch, exec_andThen, hp]

/-- A sequence that returns, by its two parts. -/
theorem exec_bind_ok {p : Prog Resp E α} {f : α → Prog Resp E β} {b : β} :
    ((p >>= f).exec answer).2 = .ok b ↔ ∃ a, (p.exec answer).2 = .ok a ∧ ((f a).exec answer).2 = .ok b := by
  have hbind : (p >>= f).exec answer = _ := exec_andThen p _
  rw [hbind]
  cases (p.exec answer).2 with
  | error e =>
    constructor
    · intro h
      cases h
    · rintro ⟨a, ha, -⟩
      cases ha
  | ok a =>
    constructor
    · exact fun h => ⟨a, rfl, h⟩
    · rintro ⟨a', ha, h⟩
      obtain rfl := Except.ok.inj ha
      exact h

/-- Its calls, then. -/
theorem exec_bind_calls {p : Prog Resp E α} {f : α → Prog Resp E β} {a : α} (h : (p.exec answer).2 = .ok a) :
    ((p >>= f).exec answer).1 = (p.exec answer).1 ++ ((f a).exec answer).1 := by
  have hbind : (p >>= f).exec answer = _ := exec_andThen p _
  rw [hbind, h]

@[simp] theorem exec_call (c : C) : (call c : Prog Resp E _).exec answer = ([c], answer c) := rfl

theorem mem_exec_andThen {p : Prog Resp E α} {f : Except E α → Prog Resp E β} {c : C} :
    c ∈ ((p.andThen f).exec answer).1 ↔ c ∈ (p.exec answer).1 ∨ c ∈ ((f (p.exec answer).2).exec answer).1 := by
  rw [exec_andThen]
  exact List.mem_append

/-- A call of a sequence is one of the first part, or of the second once the first has returned. -/
theorem mem_exec_bind {p : Prog Resp E α} {f : α → Prog Resp E β} {c : C} :
    c ∈ ((p >>= f).exec answer).1 ↔
      c ∈ (p.exec answer).1 ∨ ∃ a, (p.exec answer).2 = .ok a ∧ c ∈ ((f a).exec answer).1 := by
  refine mem_exec_andThen.trans (or_congr Iff.rfl ?_)
  cases (p.exec answer).2 with
  | error e =>
    constructor
    · intro h
      cases h
    · rintro ⟨a, ha, -⟩
      cases ha
  | ok a =>
    constructor
    · exact fun h => ⟨a, rfl, h⟩
    · rintro ⟨a', ha, h⟩
      obtain rfl := Except.ok.inj ha
      exact h

/-- The calls of a run are calls of the program. -/
theorem exec_calls {p : Prog Resp E α} (hp : p.Calls P) : ∀ c ∈ (p.exec answer).1, P c := by
  induction p with
  | done r =>
    intro c hc
    cases hc
  | await c k ih =>
    intro c' hc'
    rcases List.mem_cons.1 hc' with rfl | hrest
    · exact hp.1
    · exact ih (answer c) (hp.2 (answer c)) c' hrest

/-! ## A run alone in the world -/

variable {respond : (c : C) → W → Except E (Resp c) × W}

/-- The outcome and the world after it, each call answered by a function of it and the world. -/
def runOn (respond : (c : C) → W → Except E (Resp c) × W) : Prog Resp E α → W → Except E α × W
  | .done r, w => (r, w)
  | .await c k, w => (k (respond c w).1).runOn respond (respond c w).2

theorem runOn_andThen (p : Prog Resp E α) (f : Except E α → Prog Resp E β) (w : W) :
    (p.andThen f).runOn respond w = (f (p.runOn respond w).1).runOn respond (p.runOn respond w).2 := by
  induction p generalizing w with
  | done r => rfl
  | await c k ih => exact ih _ _

theorem runOn_bind_of_ok {p : Prog Resp E α} {f : α → Prog Resp E β} {w w' : W} {a : α}
    (h : p.runOn respond w = (.ok a, w')) : (p >>= f).runOn respond w = (f a).runOn respond w' := by
  have hbind : (p >>= f).runOn respond w = _ := runOn_andThen p _ w
  rw [hbind, h]

theorem runOn_bind_of_error {p : Prog Resp E α} {f : α → Prog Resp E β} {w w' : W} {e : E}
    (h : p.runOn respond w = (.error e, w')) : (p >>= f).runOn respond w = (.error e, w') := by
  have hbind : (p >>= f).runOn respond w = _ := runOn_andThen p _ w
  rw [hbind, h]
  rfl

@[simp] theorem runOn_call (c : C) (w : W) : (call c : Prog Resp E _).runOn respond w = respond c w := rfl

end Prog

/-! ## A pool of programs -/

/-- The shared world and the programs in progress; a finished program keeps its outcome. -/
structure Pool {C : Type} (W : Type) (Resp : C → Type) (E α : Type) where
  world : W
  procs : ℕ → Option (Prog Resp E α)

/-- What happens in a step: a task starts, a call is answered, or a program crashes. -/
inductive Act {C : Type} (Resp : C → Type) (E α : Type) where
  | start (i : ℕ) (p : Prog Resp E α)
  | call (i : ℕ) (c : C) (answer : Except E (Resp c))
  | crash (i : ℕ)

namespace Pool

/-- The pool with world `w` and program `i` replaced. -/
def put (s : Pool W Resp E α) (i : ℕ) (w : W) (p : Option (Prog Resp E α)) : Pool W Resp E α :=
  ⟨w, Function.update s.procs i p⟩

/-- **One step of the pool.** -/
inductive Step (sem : (c : C) → W → Except E (Resp c) → W → Prop) (tasks : Set (Prog Resp E α)) :
    Pool W Resp E α → Act Resp E α → Pool W Resp E α → Prop where
  | start {s : Pool W Resp E α} {i : ℕ} {p : Prog Resp E α} : s.procs i = none → p ∈ tasks →
      Step sem tasks s (.start i p) (s.put i s.world (some p))
  | call {s : Pool W Resp E α} {i : ℕ} {c : C} {k : Except E (Resp c) → Prog Resp E α}
      {a : Except E (Resp c)} {w' : W} : s.procs i = some (.await c k) → sem c s.world a w' →
      Step sem tasks s (.call i c a) (s.put i w' (some (k a)))
  | crash {s : Pool W Resp E α} {i : ℕ} {p : Prog Resp E α} : s.procs i = some p →
      Step sem tasks s (.crash i) (s.put i s.world none)

variable {sem : (c : C) → W → Except E (Resp c) → W → Prop} {tasks : Set (Prog Resp E α)}
  {s s' : Pool W Resp E α}

@[simp] theorem put_world {i : ℕ} {w : W} {p : Option (Prog Resp E α)} : (s.put i w p).world = w := rfl

@[simp] theorem procs_put_self {i : ℕ} {w : W} {p : Option (Prog Resp E α)} : (s.put i w p).procs i = p :=
  Function.update_self ..

theorem procs_put_of_ne {i j : ℕ} {w : W} {p : Option (Prog Resp E α)} (hj : j ≠ i) :
    (s.put i w p).procs j = s.procs j :=
  Function.update_of_ne hj ..

/-- A program of the new pool is the one just put there, or one of the old pool. -/
theorem procs_put {i j : ℕ} {w : W} {p : Option (Prog Resp E α)} {q : Prog Resp E α}
    (h : (s.put i w p).procs j = some q) : (j = i ∧ p = some q) ∨ (j ≠ i ∧ s.procs j = some q) := by
  by_cases hj : j = i
  · subst hj
    rw [procs_put_self] at h
    exact .inl ⟨rfl, h⟩
  · rw [procs_put_of_ne hj] at h
    exact .inr ⟨hj, h⟩

/-- Steps whose calls all meet a condition are steps of the restricted semantics. -/
theorem step_restrict {P : (c : C) → W → Except E (Resp c) → W → Prop} {act : Act Resp E α}
    (h : Step sem tasks s act s') (hP : ∀ i c a, act = .call i c a → P c s.world a s'.world) :
    Step (fun c w a w' => sem c w a w' ∧ P c w a w') tasks s act s' := by
  cases h with
  | start hi hp => exact .start hi hp
  | call hi hs => exact .call hi ⟨hs, hP _ _ _ rfl⟩
  | crash hi => exact .crash hi

/-- Every program in progress makes only calls of `P`. -/
def CallsOnly (P : C → Prop) (s : Pool W Resp E α) : Prop := ∀ i p, s.procs i = some p → p.Calls P

theorem callsOnly_put {P : C → Prop} {i : ℕ} {w : W} {p : Option (Prog Resp E α)} (h : s.CallsOnly P)
    (hp : ∀ q, p = some q → q.Calls P) : (s.put i w p).CallsOnly P := by
  intro j q hq
  rcases procs_put hq with ⟨-, hq⟩ | ⟨-, hq⟩
  · exact hp q hq
  · exact h j q hq

/-- **Where every task makes only calls of `P`, a step keeps what these calls keep.** -/
theorem step_calls {P : C → Prop} {I : W → Prop} {act : Act Resp E α} (htask : ∀ p ∈ tasks, p.Calls P)
    (hcall : ∀ {c w a w'}, P c → I w → sem c w a w' → I w') (hinv : I s.world ∧ s.CallsOnly P)
    (hstep : Step sem tasks s act s') : I s'.world ∧ s'.CallsOnly P := by
  obtain ⟨hI, honly⟩ := hinv
  cases hstep with
  | @start i p hi hp =>
    refine ⟨hI, callsOnly_put honly fun q hq => ?_⟩
    rw [← Option.some.inj hq]
    exact htask p hp
  | @call i c k a w' hi hs =>
    obtain ⟨hc, hk⟩ := honly i _ hi
    refine ⟨hcall hc hI hs, callsOnly_put honly fun q hq => ?_⟩
    rw [← Option.some.inj hq]
    exact hk a
  | crash hi => exact ⟨hI, callsOnly_put honly nofun⟩

/-- **Every program stays safe** in a pool all of whose steps change the world as the others rely
on. -/
theorem step_rely {R : W → W → Prop} {I : C → W → Prop} (hrefl : ∀ w, R w w)
    (htrans : ∀ u v w, R u v → R v w → R u w) (hI : ∀ c w w', I c w → R w w' → I c w')
    (htask : ∀ p ∈ tasks, ∀ w, p.Safe (Prog.rely R sem) I (fun _ _ => True) w)
    (hinv : ∀ i p, s.procs i = some p → p.Safe (Prog.rely R sem) I (fun _ _ => True) s.world)
    {act : Act Resp E α} (hstep : Step sem tasks s act s') (hR : R s.world s'.world) :
    ∀ i p, s'.procs i = some p → p.Safe (Prog.rely R sem) I (fun _ _ => True) s'.world := by
  intro j q hq
  cases hstep with
  | @start i p hi hp =>
    rcases procs_put hq with ⟨-, hq⟩ | ⟨-, hq⟩
    · rw [← Option.some.inj hq]
      exact htask p hp _
    · exact hinv j q hq
  | @call i c k a w' hi hs =>
    rcases procs_put hq with ⟨-, hq⟩ | ⟨-, hq⟩
    · rw [← Option.some.inj hq]
      exact (hinv i _ hi).2 a w' ⟨s.world, hrefl _, hs⟩
    · exact Prog.safe_rely htrans hI (fun _ _ _ _ _ => trivial) (hinv j q hq) hR
  | crash hi =>
    rcases procs_put hq with ⟨-, hq⟩ | ⟨-, hq⟩
    · cases hq
    · exact hinv j q hq

/-- `n` steps of program `i`, with answers from an oracle. -/
def driveAt (answer : (c : C) → W → Except E (Resp c) × W) (i : ℕ) : ℕ → Pool W Resp E α → Pool W Resp E α
  | 0, s => s
  | n + 1, s => match s.procs i with
    | some (.await c k) => driveAt answer i n (s.put i (answer c s.world).2 (some (k (answer c s.world).1)))
    | _ => s

theorem driveAt_procs_of_ne {answer : (c : C) → W → Except E (Resp c) × W} {i j : ℕ} (hj : j ≠ i) (n : ℕ)
    (s : Pool W Resp E α) : (driveAt answer i n s).procs j = s.procs j := by
  induction n generalizing s with
  | zero => rfl
  | succ n ih =>
    unfold driveAt
    split
    · exact (ih _).trans (procs_put_of_ne hj)
    · rfl

/-- Such steps are a run; `P` is what they keep of the other programs. -/
theorem driveAt_run {R : Pool W Resp E α → Pool W Resp E α → Prop} (P : Pool W Resp E α → Prop)
    {answer : (c : C) → W → Except E (Resp c) × W} {i : ℕ} (hP : ∀ {s w p}, P s → P (s.put i w p))
    (hR : ∀ {s : Pool W Resp E α} {c k}, P s → s.procs i = some (.await c k) →
      R s (s.put i (answer c s.world).2 (some (k (answer c s.world).1)))) (n : ℕ) {s : Pool W Resp E α} (h : P s) :
    ReflTransGen R s (driveAt answer i n s) := by
  induction n generalizing s with
  | zero => exact .refl
  | succ n ih =>
    unfold driveAt
    split
    · next c k hk => exact .head (hR h hk) (ih (hP h))
    · exact .refl

/-- No program is in progress at `i`. -/
def IdleAt (s : Pool W Resp E α) (i : ℕ) : Prop := ∀ p, s.procs i = some p → p.isDone = true

theorem idleAt_put {i j : ℕ} {w : W} {p : Option (Prog Resp E α)} (hj : j ≠ i) (h : s.IdleAt j) :
    (s.put i w p).IdleAt j := by
  intro q hq
  rcases procs_put hq with ⟨hji, -⟩ | ⟨-, hq⟩
  · exact absurd hji hj
  · exact h q hq

/-- A task starts only when no other is in progress. -/
def Sequential (s : Pool W Resp E α) : Act Resp E α → Prop
  | .start .. => ∀ j, s.IdleAt j
  | _ => True

/-- What the rule below keeps: at most one program is in progress, and it is safe from here. -/
def SeqInv (sem : (c : C) → W → Except E (Resp c) → W → Prop) (I : W → Prop) (s : Pool W Resp E α) : Prop :=
  I s.world ∧ ∃ i, (∀ j, j ≠ i → s.IdleAt j) ∧
    ∀ p, s.procs i = some p → p.Safe sem (fun _ w => I w) (fun _ w => I w) s.world

theorem safe_inv {I : W → Prop} {p : Prog Resp E α} {w : W}
    (h : p.Safe sem (fun _ w => I w) (fun _ w => I w) w) : I w := by
  cases p with
  | done r => exact h
  | await c k => exact h.1

/-- Putting a safe program where all others are idle. -/
theorem seqInv_put {I : W → Prop} {i : ℕ} {w : W} {p : Prog Resp E α} (hidle : ∀ j, j ≠ i → s.IdleAt j)
    (hp : p.Safe sem (fun _ w => I w) (fun _ w => I w) w) : SeqInv sem I (s.put i w (some p)) := by
  refine ⟨safe_inv hp, i, ?_, ?_⟩
  · intro j hj
    exact idleAt_put hj (hidle j hj)
  · intro q hq
    rcases procs_put hq with ⟨-, hq⟩ | ⟨hi, -⟩
    · obtain rfl := Option.some.inj hq
      exact hp
    · exact absurd rfl hi

theorem step_seqInv {I : W → Prop} (htask : ∀ p ∈ tasks, ∀ w, I w → p.Safe sem (fun _ w => I w) (fun _ w => I w) w)
    {act : Act Resp E α} (hinv : SeqInv sem I s) (hseq : s.Sequential act) (hstep : Step sem tasks s act s') :
    SeqInv sem I s' := by
  obtain ⟨hI, i, hidle, hsafe⟩ := hinv
  cases hstep with
  | @start j p hj hp => exact seqInv_put (fun l _ => hseq l) (htask p hp _ hI)
  | @call j c k a w' hj hs =>
    have hji : j = i := by
      by_contra hne
      have := hidle j hne _ hj
      cases this
    subst hji
    exact seqInv_put hidle ((hsafe _ hj).2 a w' hs)
  | @crash j p hj =>
    refine ⟨hI, i, ?_, ?_⟩
    · intro l hl q hq
      rcases procs_put hq with ⟨-, hq⟩ | ⟨-, hq⟩
      · cases hq
      · exact hidle l hl q hq
    · intro q hq
      rcases procs_put hq with ⟨-, hq⟩ | ⟨-, hq⟩
      · cases hq
      · exact hsafe q hq

/-- **What every task keeps alone, every sequential run keeps.** -/
theorem sequential_invariant {I : W → Prop}
    (htask : ∀ p ∈ tasks, ∀ w, I w → p.Safe sem (fun _ w => I w) (fun _ w => I w) w)
    {s₀ : Pool W Resp E α} (h0 : I s₀.world) (hidle : ∀ j, s₀.IdleAt j)
    (h : ReflTransGen (fun s s' => ∃ act, Step sem tasks s act s' ∧ s.Sequential act) s₀ s) : I s.world := by
  have hinit : SeqInv sem I s₀ := by
    refine ⟨h0, 0, fun j _ => hidle j, fun p hp => ?_⟩
    have hdone := hidle 0 p hp
    cases p with
    | done r => exact h0
    | await c k => cases hdone
  have hinv : SeqInv sem I s := run_invariant hinit (fun hi ⟨act, hstep, hseq⟩ => step_seqInv htask hi hseq hstep) h
  exact hinv.1

end Pool

end Vellum
