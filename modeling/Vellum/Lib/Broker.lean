import Vellum.Lib.Prog

/-!
# Programs started by messages

Programs run in a pool. Some are requests, started at any time. The others are deliveries of
messages: a message stays pending until a delivery of it ends, with a result or an exception,
and a delivery that crashes leaves it to be delivered again. No message has two deliveries at
a time.

* `Broker.Step`: one step.
* `Protects`: what to show of one message. Its delivery may break what holds at rest as long as
  it restores it; any other program may owe something, as long as it pays.
* `protects_run`: then what holds at rest does so whenever no delivery of the message is in
  progress, in every run.
-/

namespace Vellum

open Relation

variable {C : Type} {Resp : C → Type} {E α W M : Type}

/-- The programs in progress, and the messages they are deliveries of. -/
structure Broker {C : Type} (W : Type) (Resp : C → Type) (E α M : Type) where
  pool : Pool W Resp E α
  holds : ℕ → Option M

/-- What a broker is given: the calls, the requests, the programs a message may start, which
messages are pending in a world, and the world without one of them. -/
structure BrokerConfig {C : Type} (W : Type) (Resp : C → Type) (E α M : Type) where
  sem : (c : C) → W → Except E (Resp c) → W → Prop
  requests : Set (Prog Resp E α)
  handlers : M → Set (Prog Resp E α)
  pending : W → M → Prop
  remove : M → W → W

/-- What happens in a step. -/
inductive BrokerAct {C : Type} (Resp : C → Type) (E α M : Type) where
  | request (i : ℕ) (p : Prog Resp E α)
  | deliver (i : ℕ) (m : M) (p : Prog Resp E α)
  | call (i : ℕ) (c : C) (answer : Except E (Resp c))
  | crash (i : ℕ)
  | finish (i : ℕ)

namespace Broker

def world (s : Broker W Resp E α M) : W := s.pool.world

/-- Program `i` and what it holds replaced. -/
def put (s : Broker W Resp E α M) (i : ℕ) (w : W) (p : Option (Prog Resp E α)) (m : Option M) : Broker W Resp E α M :=
  ⟨s.pool.put i w p, Function.update s.holds i m⟩

variable {K : BrokerConfig W Resp E α M} {s s' : Broker W Resp E α M}

@[simp] theorem put_world {i : ℕ} {w : W} {p : Option (Prog Resp E α)} {m : Option M} : (s.put i w p m).world = w := rfl

@[simp] theorem holds_put_self {i : ℕ} {w : W} {p : Option (Prog Resp E α)} {m : Option M} :
    (s.put i w p m).holds i = m :=
  Function.update_self ..

theorem holds_put_of_ne {i j : ℕ} {w : W} {p : Option (Prog Resp E α)} {m : Option M} (h : j ≠ i) :
    (s.put i w p m).holds j = s.holds j :=
  Function.update_of_ne h ..

@[simp] theorem procs_put_self {i : ℕ} {w : W} {p : Option (Prog Resp E α)} {m : Option M} :
    (s.put i w p m).pool.procs i = p :=
  Pool.procs_put_self

theorem procs_put_of_ne {i j : ℕ} {w : W} {p : Option (Prog Resp E α)} {m : Option M} (h : j ≠ i) :
    (s.put i w p m).pool.procs j = s.pool.procs j :=
  Pool.procs_put_of_ne h

/-- **One step of a broker.** -/
inductive Step (K : BrokerConfig W Resp E α M) :
    Broker W Resp E α M → BrokerAct Resp E α M → Broker W Resp E α M → Prop where
  | request {s : Broker W Resp E α M} {i : ℕ} {p : Prog Resp E α} : s.pool.procs i = none → p ∈ K.requests →
      Step K s (.request i p) (s.put i s.world (some p) none)
  | deliver {s : Broker W Resp E α M} {i : ℕ} {m : M} {p : Prog Resp E α} : s.pool.procs i = none →
      K.pending s.world m → (∀ j, s.holds j ≠ some m) → p ∈ K.handlers m →
      Step K s (.deliver i m p) (s.put i s.world (some p) (some m))
  | call {s : Broker W Resp E α M} {i : ℕ} {c : C} {k : Except E (Resp c) → Prog Resp E α} {a : Except E (Resp c)}
      {w' : W} : s.pool.procs i = some (.await c k) → K.sem c s.world a w' →
      Step K s (.call i c a) (s.put i w' (some (k a)) (s.holds i))
  | crash {s : Broker W Resp E α M} {i : ℕ} {c : C} {k : Except E (Resp c) → Prog Resp E α} :
      s.pool.procs i = some (.await c k) → Step K s (.crash i) (s.put i s.world none none)
  | finish {s : Broker W Resp E α M} {i : ℕ} {r : Except E α} : s.pool.procs i = some (.done r) →
      Step K s (.finish i) (s.put i ((s.holds i).elim s.world fun m => K.remove m s.world) none none)

/-- Nothing is in progress. -/
def Idle (s : Broker W Resp E α M) : Prop := ∀ i, s.pool.procs i = none

/-- No delivery of `m` is in progress. -/
def NotDelivering (s : Broker W Resp E α M) (m : M) : Prop := ∀ i, s.holds i ≠ some m

/-- Only programs in progress hold messages. -/
def HoldsWell (s : Broker W Resp E α M) : Prop := ∀ i, s.pool.procs i = none → s.holds i = none

/-! ## The rule for one message -/

/-- A condition on the steps of a run, as seen from message `m`: on the answer a call gets, with
the worlds before and after it, and on the call at which a program crashes. The first argument says
whether the program is the delivery of `m`. -/
structure StepCond {C : Type} (W : Type) (Resp : C → Type) (E : Type) where
  call : Prop → (c : C) → W → Except E (Resp c) → W → Prop
  crash : Prop → C → W → Prop

/-- The step meets the condition. -/
def Meets (cond : StepCond W Resp E) (m : M) (s : Broker W Resp E α M) (act : BrokerAct Resp E α M)
    (s' : Broker W Resp E α M) : Prop :=
  match act with
  | .call i c a => cond.call (s.holds i = some m) c s.world a s'.world
  | .crash i => ∀ c k, s.pool.procs i = some (.await c k) → cond.crash (s.holds i = some m) c s.world
  | _ => True

/-- **What is to be shown of message `m`.** `Rest owed w` holds while the message has no
delivery, `owed` saying that some other program owes; `Busy` is kept of its delivery. A program
that is no delivery of `m` is `Other`, with a flag that says whether it owes. -/
structure Protects (K : BrokerConfig W Resp E α M) (m : M) (cond : StepCond W Resp E)
    (Other : Bool → Prog Resp E α → Prop) (Busy : Prog Resp E α → W → Prop) (Rest : Prop → W → Prop) : Prop where
  request : ∀ p ∈ K.requests, Other false p
  deliverOther : ∀ m', m' ≠ m → ∀ p ∈ K.handlers m', Other false p
  deliver : ∀ p ∈ K.handlers m, ∀ {owed w}, Rest owed w → K.pending w m → Busy p w
  otherCall : ∀ {owes c k w a w'}, Other owes (.await c k) → K.sem c w a w' → cond.call False c w a w' →
    ∃ owes', Other owes' (k a) ∧ (∀ owed, Rest (owes = true ∨ owed) w → Rest (owes' = true ∨ owed) w') ∧
      ∀ q, Busy q w → Busy q w'
  otherCrash : ∀ {owes c k w}, Other owes (.await c k) → cond.crash False c w → owes = false
  otherFinish : ∀ {owes r}, Other owes (.done r) → owes = false
  removeOther : ∀ m', m' ≠ m → ∀ {w}, (∀ owed, Rest owed w → Rest owed (K.remove m' w)) ∧
    ∀ q, Busy q w → Busy q (K.remove m' w)
  busyCall : ∀ {c k w a w'}, Busy (.await c k) w → K.sem c w a w' → cond.call True c w a w' → Busy (k a) w'
  busyCrash : ∀ {c k w}, Busy (.await c k) w → cond.crash True c w → ∀ owed, Rest owed w
  busyFinish : ∀ {r w}, Busy (.done r) w → ∀ owed, Rest owed (K.remove m w)

variable {m : M} {cond : StepCond W Resp E} {Other : Bool → Prog Resp E α → Prop} {Busy : Prog Resp E α → W → Prop}
  {Rest : Prop → W → Prop}

/-- The invariant of the rule, with the programs that owe. -/
structure RuleInv (m : M) (Other : Bool → Prog Resp E α → Prop) (Busy : Prog Resp E α → W → Prop)
    (Rest : Prop → W → Prop) (s : Broker W Resp E α M) (owes : ℕ → Bool) : Prop where
  holdsWell : s.HoldsWell
  others : ∀ i, s.holds i ≠ some m → ∀ p, s.pool.procs i = some p → Other (owes i) p
  free : ∀ i, s.holds i = some m ∨ s.pool.procs i = none → owes i = false
  busy : ∀ i, s.holds i = some m → ∀ p, s.pool.procs i = some p → Busy p s.world
  one : ∀ i j, s.holds i = some m → s.holds j = some m → i = j
  rest : s.NotDelivering m → Rest (∃ i, owes i = true) s.world

/-- Who owes after the flag of one program has changed. -/
theorem exists_update (owes : ℕ → Bool) (i : ℕ) (b : Bool) :
    (∃ j, Function.update owes i b j = true) = (b = true ∨ ∃ j, j ≠ i ∧ owes j = true) := by
  apply propext
  constructor
  · rintro ⟨j, hj⟩
    by_cases hji : j = i
    · subst hji
      rw [Function.update_self] at hj
      exact .inl hj
    · rw [Function.update_of_ne hji] at hj
      exact .inr ⟨j, hji, hj⟩
  · rintro (hb | ⟨j, hji, hj⟩)
    · exact ⟨i, by rw [Function.update_self]; exact hb⟩
    · exact ⟨j, by rw [Function.update_of_ne hji]; exact hj⟩

theorem exists_split (owes : ℕ → Bool) (i : ℕ) :
    (∃ j, owes j = true) = (owes i = true ∨ ∃ j, j ≠ i ∧ owes j = true) := by
  have h := exists_update owes i (owes i)
  rwa [Function.update_eq_self] at h

/-- A program that is no delivery of `m` is put at `i`, or none. -/
theorem ruleInv_put_other {owes : ℕ → Bool} {i : ℕ} {w : W} {p : Option (Prog Resp E α)} {h : Option M} {b : Bool}
    (hinv : RuleInv m Other Busy Rest s owes) (hi : s.holds i ≠ some m) (hh : h ≠ some m)
      (hp : p = none → h = none ∧ b = false)
    (hother : ∀ q, p = some q → Other b q)
    (hrest : s.NotDelivering m → Rest (∃ j, Function.update owes i b j = true) w)
    (hbusy : ∀ q, Busy q s.world → Busy q w) :
    RuleInv m Other Busy Rest (s.put i w p h) (Function.update owes i b) where
  holdsWell := by
    intro j hj
    by_cases hji : j = i
    · subst hji
      rw [procs_put_self] at hj
      rw [holds_put_self]
      exact (hp hj).1
    · rw [procs_put_of_ne hji] at hj
      rw [holds_put_of_ne hji]
      exact hinv.holdsWell j hj
  others := by
    intro j hj q hq
    by_cases hji : j = i
    · subst hji
      rw [procs_put_self] at hq
      rw [Function.update_self]
      exact hother q hq
    · rw [procs_put_of_ne hji] at hq
      rw [holds_put_of_ne hji] at hj
      rw [Function.update_of_ne hji]
      exact hinv.others j hj q hq
  free := by
    intro j hj
    by_cases hji : j = i
    · subst hji
      rw [holds_put_self, procs_put_self] at hj
      rw [Function.update_self]
      rcases hj with hj | hj
      · exact absurd hj hh
      · exact (hp hj).2
    · rw [holds_put_of_ne hji, procs_put_of_ne hji] at hj
      rw [Function.update_of_ne hji]
      exact hinv.free j hj
  busy := by
    intro j hj q hq
    by_cases hji : j = i
    · subst hji
      rw [holds_put_self] at hj
      exact absurd hj hh
    · rw [holds_put_of_ne hji] at hj
      rw [procs_put_of_ne hji] at hq
      exact hbusy q (hinv.busy j hj q hq)
  one := by
    intro j l hj hl
    have hne : ∀ x, (s.put i w p h).holds x = some m → s.holds x = some m := by
      intro x hx
      by_cases hxi : x = i
      · subst hxi
        rw [holds_put_self] at hx
        exact absurd hx hh
      · rwa [holds_put_of_ne hxi] at hx
    exact hinv.one j l (hne j hj) (hne l hl)
  rest := by
    intro hno
    apply hrest
    intro j hj
    by_cases hji : j = i
    · subst hji
      exact hi hj
    · apply hno j
      rw [holds_put_of_ne hji]
      exact hj

/-- The delivery of `m` is put at `i`, or its end: no other program is a delivery of `m`. -/
theorem ruleInv_put_delivery {owes : ℕ → Bool} {i : ℕ} {w : W} {p : Option (Prog Resp E α)} {h : Option M}
    (hinv : RuleInv m Other Busy Rest s owes) (hi : ∀ j, j ≠ i → s.holds j ≠ some m) (hfree : owes i = false)
    (hp : (∃ q, p = some q ∧ h = some m ∧ Busy q w) ∨ (p = none ∧ h = none ∧ ∀ owed, Rest owed w)) :
    RuleInv m Other Busy Rest (s.put i w p h) owes where
  holdsWell := by
    intro j hj
    by_cases hji : j = i
    · subst hji
      rw [procs_put_self] at hj
      rw [holds_put_self]
      rcases hp with ⟨q, rfl, -⟩ | ⟨-, hh, -⟩
      · cases hj
      · exact hh
    · rw [procs_put_of_ne hji] at hj
      rw [holds_put_of_ne hji]
      exact hinv.holdsWell j hj
  others := by
    intro j hj q hq
    by_cases hji : j = i
    · subst hji
      rw [procs_put_self] at hq
      rw [holds_put_self] at hj
      rcases hp with ⟨q', -, hh, -⟩ | ⟨rfl, -⟩
      · exact absurd hh hj
      · cases hq
    · rw [procs_put_of_ne hji] at hq
      rw [holds_put_of_ne hji] at hj
      exact hinv.others j hj q hq
  free := by
    intro j hj
    by_cases hji : j = i
    · rw [hji]
      exact hfree
    · rw [holds_put_of_ne hji, procs_put_of_ne hji] at hj
      exact hinv.free j hj
  busy := by
    intro j hj q hq
    by_cases hji : j = i
    · subst hji
      rw [procs_put_self] at hq
      rcases hp with ⟨q', hq', -, hbusy⟩ | ⟨rfl, -⟩
      · rw [hq'] at hq
        obtain rfl := Option.some.inj hq
        exact hbusy
      · cases hq
    · rw [holds_put_of_ne hji] at hj
      exact absurd hj (hi j hji)
  one := by
    intro j l hj hl
    have hat : ∀ x, (s.put i w p h).holds x = some m → x = i := by
      intro x hx
      by_contra hxi
      rw [holds_put_of_ne hxi] at hx
      exact hi x hxi hx
    rw [hat j hj, hat l hl]
  rest := by
    intro hno
    rcases hp with ⟨q, -, rfl, -⟩ | ⟨-, -, hrest⟩
    · exact absurd holds_put_self (hno i)
    · exact hrest _

/-- A program that owes nothing may go. -/
theorem RuleInv.rest_without (hinv : RuleInv m Other Busy Rest s owes) {i : ℕ} (hfree : owes i = false)
    (hno : s.NotDelivering m) : Rest (∃ j, Function.update owes i false j = true) s.world := by
  rw [← hfree, Function.update_eq_self]
  exact hinv.rest hno

/-- One step keeps the invariant. -/
theorem step_ruleInv (hK : Protects K m cond Other Busy Rest) {owes : ℕ → Bool} {act : BrokerAct Resp E α M}
    (hinv : RuleInv m Other Busy Rest s owes) (hcond : Meets cond m s act s') (hstep : Step K s act s') :
    ∃ owes', RuleInv m Other Busy Rest s' owes' := by
  -- where `i` holds `m`, no other program does
  have halone : ∀ i, s.holds i = some m → ∀ j, j ≠ i → s.holds j ≠ some m :=
    fun i hi j hji hj => hji (hinv.one j i hj hi)
  cases hstep with
  | @request i p hnone hp =>
    have hfree := hinv.free i (.inr hnone)
    have hi : s.holds i ≠ some m := by rw [hinv.holdsWell i hnone]; exact fun h => by cases h
    refine ⟨_, ruleInv_put_other (b := false) hinv hi (fun h => by cases h) (fun h => by cases h) ?_
      (hinv.rest_without hfree) fun q hq => hq⟩
    intro q hq
    obtain rfl := Option.some.inj hq
    exact hK.request p hp
  | @deliver i m' p hnone hpend hone hp =>
    have hfree := hinv.free i (.inr hnone)
    have hi : s.holds i ≠ some m := by rw [hinv.holdsWell i hnone]; exact fun h => by cases h
    by_cases hm : m' = m
    · subst hm
      exact ⟨_, ruleInv_put_delivery hinv (fun j _ => hone j) hfree
        (.inl ⟨p, rfl, rfl, hK.deliver p hp (hinv.rest hone) hpend⟩)⟩
    · refine ⟨_, ruleInv_put_other (b := false) hinv hi (fun h => hm (Option.some.inj h)) (fun h => by cases h) ?_
        (hinv.rest_without hfree) fun q hq => hq⟩
      intro q hq
      obtain rfl := Option.some.inj hq
      exact hK.deliverOther m' hm p hp
  | @call i c k a w' hi hs =>
    have hcall : cond.call (s.holds i = some m) c s.world a w' := hcond
    by_cases hm : s.holds i = some m
    · have hbusy := hK.busyCall (hinv.busy i hm _ hi) hs (by rwa [eq_true hm] at hcall)
      exact ⟨_, ruleInv_put_delivery hinv (halone i hm) (hinv.free i (.inl hm)) (.inl ⟨_, rfl, hm, hbusy⟩)⟩
    · obtain ⟨b, hother, hrest, hkeep⟩ := hK.otherCall (hinv.others i hm _ hi) hs (by rwa [eq_false hm] at hcall)
      refine ⟨_, ruleInv_put_other (b := b) hinv hm hm (fun h => by cases h) ?_ ?_ hkeep⟩
      · intro q hq
        obtain rfl := Option.some.inj hq
        exact hother
      · intro hno
        have hold := hinv.rest hno
        rw [exists_split owes i] at hold
        rw [exists_update]
        exact hrest _ hold
  | @crash i c k hi =>
    have hcrash : cond.crash (s.holds i = some m) c s.world := hcond c k hi
    by_cases hm : s.holds i = some m
    · have hrest := hK.busyCrash (hinv.busy i hm _ hi) (by rwa [eq_true hm] at hcrash)
      exact ⟨_, ruleInv_put_delivery hinv (halone i hm) (hinv.free i (.inl hm)) (.inr ⟨rfl, rfl, hrest⟩)⟩
    · have hfree := hK.otherCrash (hinv.others i hm _ hi) (by rwa [eq_false hm] at hcrash)
      exact ⟨_, ruleInv_put_other (b := false) hinv hm (fun h => by cases h) (fun _ => ⟨rfl, rfl⟩)
        (fun q hq => by cases hq) (hinv.rest_without hfree) fun q hq => hq⟩
  | @finish i r hi =>
    by_cases hm : s.holds i = some m
    · have hrest := hK.busyFinish (hinv.busy i hm _ hi)
      rw [hm]
      exact ⟨_, ruleInv_put_delivery hinv (halone i hm) (hinv.free i (.inl hm)) (.inr ⟨rfl, rfl, hrest⟩)⟩
    · have hfree := hK.otherFinish (hinv.others i hm _ hi)
      -- what is removed, if anything, is another message
      have hkeep : (∀ owed, Rest owed s.world → Rest owed ((s.holds i).elim s.world fun m' => K.remove m' s.world)) ∧
          ∀ q, Busy q s.world → Busy q ((s.holds i).elim s.world fun m' => K.remove m' s.world) := by
        cases hh : s.holds i with
        | none => exact ⟨fun _ h => h, fun _ h => h⟩
        | some m' => exact hK.removeOther m' (fun h => hm (by rw [hh, h]))
      refine ⟨_, ruleInv_put_other (b := false) hinv hm (fun h => by cases h) (fun _ => ⟨rfl, rfl⟩)
        (fun q hq => by cases hq) ?_ hkeep.2⟩
      exact fun hno => hkeep.1 _ (hinv.rest_without hfree hno)

/-- Nothing in progress. -/
def init (w : W) : Broker W Resp E α M := ⟨⟨w, fun _ => none⟩, fun _ => none⟩

theorem ruleInv_init {w₀ : W} (h0 : Rest False w₀) : RuleInv m Other Busy Rest (init w₀) fun _ => false where
  holdsWell := fun _ _ => rfl
  others := by
    intro i _ p hp
    cases hp
  free := fun _ _ => rfl
  busy := by
    intro i hi
    cases hi
  one := by
    intro i j hi
    cases hi
  rest := by
    intro _
    have hnone : (∃ _ : ℕ, false = true) = False := by simp
    rw [hnone]
    exact h0

/-- A run whose steps meet a condition. -/
def Run (K : BrokerConfig W Resp E α M)
    (Cond : Broker W Resp E α M → BrokerAct Resp E α M → Broker W Resp E α M → Prop)
    (s s' : Broker W Resp E α M) : Prop :=
  ReflTransGen (fun s s' => ∃ act, Step K s act s' ∧ Cond s act s') s s'

/-- `n` calls of program `i`, with answers from an oracle. -/
def drive (answer : (c : C) → W → Except E (Resp c) × W) (i n : ℕ) (s : Broker W Resp E α M) : Broker W Resp E α M :=
  ⟨Pool.driveAt answer i n s.pool, s.holds⟩

/-- They are a run. -/
theorem drive_run {Cond : Broker W Resp E α M → BrokerAct Resp E α M → Broker W Resp E α M → Prop}
    {answer : (c : C) → W → Except E (Resp c) × W} {i : ℕ} (hsem : ∀ c w, K.sem c w (answer c w).1 (answer c w).2)
    (hcond : ∀ (s s' : Broker W Resp E α M) c, s'.world = (answer c s.world).2 →
      Cond s (.call i c (answer c s.world).1) s') (n : ℕ) (s : Broker W Resp E α M) :
    Run K Cond s (s.drive answer i n) := by
  have hpool : ReflTransGen (fun p p' => ∃ act, Step K ⟨p, s.holds⟩ act ⟨p', s.holds⟩ ∧
      Cond ⟨p, s.holds⟩ act ⟨p', s.holds⟩) s.pool (Pool.driveAt answer i n s.pool) := by
    refine Pool.driveAt_run (fun _ => True) (fun _ => trivial) ?_ n trivial
    intro p c k _ hk
    refine ⟨.call i c (answer c p.world).1, ?_, hcond ⟨p, s.holds⟩ _ c rfl⟩
    have hstep := @Step.call _ _ _ _ _ _ K ⟨p, s.holds⟩ i c k _ _ hk (hsem c p.world)
    unfold Broker.put at hstep
    rwa [Function.update_eq_self] at hstep
  exact ReflTransGen.lift (fun p => (⟨p, s.holds⟩ : Broker W Resp E α M)) (fun _ _ h => h) _ _ hpool

/-- **What holds at rest holds whenever the message has no delivery**, in every run whose steps
meet the condition; with nothing in progress nobody owes. -/
theorem protects_run (hK : Protects K m cond Other Busy Rest) {w₀ : W} (h0 : Rest False w₀)
    (hrun : Run K (Meets cond m) (init w₀) s) :
    (s.NotDelivering m → ∃ owed, Rest owed s.world) ∧ (s.Idle → Rest False s.world) := by
  have hinit : ∃ owes, RuleInv m Other Busy Rest (init w₀) owes := ⟨_, ruleInv_init h0⟩
  have hlast : ∃ owes, RuleInv m Other Busy Rest s owes := by
    refine run_invariant (I := fun s => ∃ owes, RuleInv m Other Busy Rest s owes) hinit ?_ hrun
    rintro s s' ⟨owes, hi⟩ ⟨act, hstep, hc⟩
    exact step_ruleInv hK hi hc hstep
  obtain ⟨owes, hinv⟩ := hlast
  refine ⟨fun hno => ⟨_, hinv.rest hno⟩, fun hidle => ?_⟩
  have hno : s.NotDelivering m := by
    intro i hi
    rw [hinv.holdsWell i (hidle i)] at hi
    cases hi
  have hrest := hinv.rest hno
  have hnone : (∃ i, owes i = true) = False := by
    apply eq_false
    rintro ⟨i, hi⟩
    rw [hinv.free i (.inr (hidle i))] at hi
    cases hi
  rwa [hnone] at hrest

end Broker

end Vellum
