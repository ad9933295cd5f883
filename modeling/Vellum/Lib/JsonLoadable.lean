import Mathlib.Data.List.Chain
import Vellum.Lib.Except
import Vellum.Lib.JsonLoads

/-!
# The values that `json.loads` can give

No two surrogates in a text would join, no key stands twice, and every number is within what the
readers take (`loads_loadable`). That is an invariant of the machine, mode by mode.
-/

namespace Vellum.PyJson

open PySource

/-! ## The values that can be read -/

/-- A text in reverse, in which no two surrogates would join. -/
def Held (read : List ℕ) : Prop :=
  (∀ n ∈ read, n < 0x110000) ∧ read.IsChain fun low high => ¬ (isHigh high = true ∧ isLow low = true)

def Joined (s : List ℕ) : Prop := Held s.reverse

inductive Loadable (F : FloatReader) : PyJson → Prop where
  | const (k : JsonConstant) : Loadable F (const k)
  | int (i : ℤ) (h : i.natAbs < 10 ^ maxStrDigits) : Loadable F (int i)
  | float (text : List Char) (h : floatNumeral text = true) (hread : F.read text = .float text) :
      Loadable F (float text)
  | str (s : List ℕ) (h : Joined s) : Loadable F (str s)
  | arr (items : List PyJson) (h : ∀ j ∈ items, Loadable F j) : Loadable F (arr items)
  | obj (fields : List (List ℕ × PyJson)) (hnd : (fields.map Prod.fst).Nodup)
      (hkeys : ∀ f ∈ fields, Joined f.1) (h : ∀ f ∈ fields, Loadable F f.2) : Loadable F (obj fields)

/-- The fields of an object that can be read. -/
structure FieldsLoadable (F : FloatReader) (fields : List (List ℕ × PyJson)) : Prop where
  nodup : (fields.map Prod.fst).Nodup
  keys : ∀ f ∈ fields, Joined f.1
  values : ∀ f ∈ fields, Loadable F f.2

variable {F : FloatReader} {stack : List Frame} {v : PyJson} {m m' : Machine} {c : Char} {text cs : List Char}
  {fields : List (List ℕ × PyJson)} {key : List ℕ} {read : List ℕ} {close : Bool}

theorem FieldsLoadable.nil : FieldsLoadable F [] := ⟨List.nodup_nil, nofun, nofun⟩

theorem map_setField_fst :
    (fields.map fun f => if f.1 = key then (key, v) else f).map Prod.fst = fields.map Prod.fst := by
  rw [List.map_map]
  apply List.map_congr_left
  intro f hf
  by_cases hk : f.1 = key
  · simp [hk]
  · simp [hk]

theorem FieldsLoadable.set (h : FieldsLoadable F fields) (hkey : Joined key) (hv : Loadable F v) :
    FieldsLoadable F (setField fields key v) := by
  unfold setField
  by_cases hmem : key ∈ fields.map Prod.fst
  · rw [if_pos hmem]
    have hfield : ∀ f ∈ fields.map (fun f => if f.1 = key then (key, v) else f), Joined f.1 ∧ Loadable F f.2 := by
      intro f hf
      obtain ⟨g, hg, rfl⟩ := List.mem_map.1 hf
      by_cases hk : g.1 = key
      · rw [if_pos hk]
        exact ⟨hkey, hv⟩
      · rw [if_neg hk]
        exact ⟨h.keys g hg, h.values g hg⟩
    refine ⟨?_, fun f hf => (hfield f hf).1, fun f hf => (hfield f hf).2⟩
    rw [map_setField_fst]
    exact h.nodup
  · rw [if_neg hmem]
    refine ⟨?_, ?_, ?_⟩
    · rw [List.map_append, List.nodup_append]
      refine ⟨h.nodup, List.nodup_singleton _, ?_⟩
      intro a ha b hb hab
      have hb' : b = key := List.mem_singleton.1 hb
      subst hab hb'
      exact hmem ha
    · intro f hf
      rcases List.mem_append.1 hf with hf | hf
      · exact h.keys f hf
      · rw [List.mem_singleton.1 hf]
        exact hkey
    · intro f hf
      rcases List.mem_append.1 hf with hf | hf
      · exact h.values f hf
      · rw [List.mem_singleton.1 hf]
        exact hv

theorem setField_new (h : key ∉ fields.map Prod.fst) : setField fields key v = fields ++ [(key, v)] := if_neg h

/-- The other keys keep their values. -/
theorem lookup_setField_of_ne {k : List ℕ} (h : k ≠ key) : (setField fields key v).lookup k = fields.lookup k := by
  unfold setField
  by_cases hmem : key ∈ fields.map Prod.fst
  · rw [if_pos hmem]
    exact Dict.lookup_map_set_of_ne h
  · rw [if_neg hmem, List.lookup_append]
    have hk : (k == key) = false := beq_false_of_ne h
    rw [List.lookup_cons, hk]
    simp

theorem lookup_setField_self : (setField fields key v).lookup key = some v := by
  unfold setField
  by_cases hmem : key ∈ fields.map Prod.fst
  · rw [if_pos hmem]
    exact Dict.lookup_map_set_self hmem
  · rw [if_neg hmem, List.lookup_append, Dict.lookup_eq_none.2 hmem, List.lookup_cons, beq_self_eq_true]
    rfl

/-! ## Units -/

theorem not_low_of_high {n : ℕ} (h : isHigh n = true) : isLow n = false := by
  simp only [isHigh, isLow, Bool.decide_and, Bool.and_eq_true, decide_eq_true_eq, Bool.and_eq_false_iff,
    decide_eq_false_iff_not] at h ⊢
  omega

theorem joinSurrogates_range {h l : ℕ} (hh : isHigh h = true) (hl : isLow l = true) :
    0x10000 ≤ Json.joinSurrogates h l ∧ Json.joinSurrogates h l < 0x110000 := by
  simp only [isHigh, isLow, Bool.decide_and, Bool.and_eq_true, decide_eq_true_eq] at hh hl
  unfold Json.joinSurrogates
  omega

theorem push_cons (a u : ℕ) (rest : List ℕ) : push (a :: rest) u =
    if isHigh a = true ∧ isLow u = true then Json.joinSurrogates a u :: rest else u :: a :: rest := rfl

/-- **One unit more** keeps surrogates joined. -/
theorem held_push (h : Held read) {u : ℕ} (hu : u < 0x110000) : Held (push read u) := by
  cases read with
  | nil =>
    have hone : ∀ n ∈ [u], n < 0x110000 := by
      intro n hn
      rw [List.mem_singleton.1 hn]
      exact hu
    exact ⟨hone, List.isChain_singleton u⟩
  | cons a rest =>
    rw [push_cons]
    obtain ⟨hrange, hchain⟩ := h
    by_cases hpair : isHigh a = true ∧ isLow u = true
    · rw [if_pos hpair]
      have hjoin := joinSurrogates_range hpair.1 hpair.2
      refine ⟨?_, ?_⟩
      · intro n hn
        rcases List.mem_cons.1 hn with hn | hn
        · rw [hn]
          exact hjoin.2
        · exact hrange n (List.mem_cons_of_mem a hn)
      · cases rest with
        | nil => exact List.isChain_singleton _
        | cons b rest =>
          rw [List.isChain_cons_cons] at hchain ⊢
          refine ⟨fun hb => ?_, hchain.2⟩
          have hlow := hb.2
          simp only [isLow, Bool.decide_and, Bool.and_eq_true, decide_eq_true_eq] at hlow
          omega
    · rw [if_neg hpair]
      refine ⟨?_, List.isChain_cons_cons.2 ⟨hpair, hchain⟩⟩
      intro n hn
      rcases List.mem_cons.1 hn with hn | hn
      · rw [hn]
        exact hu
      · exact hrange n hn

/-- Where nothing joins, a unit is put in front. -/
theorem push_eq {u : ℕ} (h : Held (u :: read)) : push read u = u :: read := by
  cases read with
  | nil => rfl
  | cons a rest => exact if_neg (List.isChain_cons_cons.1 h.2).1

theorem held_tail {u : ℕ} (h : Held (u :: read)) : Held read :=
  ⟨fun n hn => h.1 n (List.mem_cons_of_mem u hn), h.2.tail⟩

theorem held_append {front : List ℕ} (h : Held (front ++ read)) : Held read := by
  induction front with
  | nil => exact h
  | cons u front ih => exact ih (held_tail h)

/-- A text without surrogates can be read. -/
theorem joined_ofString (s : String) : Joined (ofString s) := by
  have hrange : ∀ n ∈ ofString s, n < 0xd800 ∨ (0xdfff < n ∧ n < 0x110000) := by
    intro n hn
    obtain ⟨c, -, rfl⟩ := List.mem_map.1 hn
    exact Json.char_range c
  refine ⟨?_, ?_⟩
  · intro n hn
    have := hrange n (List.mem_reverse.1 hn)
    omega
  · apply List.Pairwise.isChain
    apply List.Pairwise.imp_of_mem (R := fun _ _ => True)
    · intro a b ha hb _ hpair
      have := hrange a (List.mem_reverse.1 ha)
      have hlow := hpair.2
      simp only [isLow, Bool.decide_and, Bool.and_eq_true, decide_eq_true_eq] at hlow
      omega
    · exact List.pairwise_of_forall fun _ _ => trivial

/-! ## Runs of the machine -/

@[simp] theorem run_nil : run F m [] = .ok m := rfl

theorem run_cons : run F m (c :: cs) = (step F m c).bind fun m' => run F m' cs := List.foldlM_cons

theorem run_append : run F m (text ++ cs) = (run F m text).bind fun m' => run F m' cs := List.foldlM_append

theorem run_step (h : step F m c = .ok m') : run F m (c :: cs) = run F m' cs := by
  rw [run_cons, h]
  rfl

theorem run_after (h : run F m text = .ok m') : run F m (text ++ cs) = run F m' cs := by
  rw [run_append, h]
  rfl

/-! ## The invariant of the machine -/

/-- What an open container holds can be read back. -/
def Frame.Sound (F : FloatReader) : Frame → Prop
  | .arr items => ∀ j ∈ items, Loadable F j
  | .obj fields key => FieldsLoadable F fields ∧ Joined key

def Escape.Sound : Escape → Prop
  | .hex digits value => digits < 4 ∧ value < 16 ^ digits
  | _ => True

def Mode.Sound (F : FloatReader) : Mode → Prop
  | .value _ => True
  | .key fields _ => FieldsLoadable F fields
  | .colon fields key => FieldsLoadable F fields ∧ Joined key
  | .str inKey read escape => (∀ fields ∈ inKey, FieldsLoadable F fields) ∧ Held read ∧ escape.Sound
  | .number st text => Numeral.ofText text = some st
  | .literal _ _ => True
  | .after v => Loadable F v

/-- The invariant of the machine. -/
structure Machine.Sound (F : FloatReader) (m : Machine) : Prop where
  stack : ∀ f ∈ m.stack, f.Sound F
  mode : m.mode.Sound F

theorem intOf_lt (h : tooLong text = false) : (intOf text).natAbs < 10 ^ maxStrDigits := by
  have hdigits : ∀ {ds : List Char} (k : ℕ), (∀ c ∈ ds, c.isDigit = true) →
      Nat.ofDigitChars 10 ds k < (k + 1) * 10 ^ ds.length := by
    intro ds
    induction ds with
    | nil => simp
    | cons c ds ih =>
      intro k hds
      have hc := digit_range (hds c List.mem_cons_self)
      have hzero : '0'.toNat = 48 := rfl
      have hrest := ih (10 * k + (c.toNat - '0'.toNat)) fun d hd => hds d (List.mem_cons_of_mem c hd)
      rw [Nat.ofDigitChars_cons, List.length_cons, Nat.pow_succ]
      have hle : 10 * k + (c.toNat - '0'.toNat) + 1 ≤ (k + 1) * 10 := by omega
      calc Nat.ofDigitChars 10 ds (10 * k + (c.toNat - '0'.toNat))
          < (10 * k + (c.toNat - '0'.toNat) + 1) * 10 ^ ds.length := hrest
        _ ≤ (k + 1) * 10 * 10 ^ ds.length := Nat.mul_le_mul_right _ hle
        _ = (k + 1) * (10 ^ ds.length * 10) := by ring
  have hbound := @hdigits (text.filter Char.isDigit) 0 fun c hc => (List.mem_filter.1 hc).2
  have hlen : (text.filter Char.isDigit).length ≤ maxStrDigits := by
    have := of_decide_eq_false h
    omega
  have hpow := Nat.pow_le_pow_right (by decide : 0 < 10) hlen
  have habs : (intOf text).natAbs = Nat.ofDigitChars 10 (text.filter Char.isDigit) 0 := by
    unfold intOf
    split_ifs
    · rw [Int.natAbs_neg, Int.natAbs_natCast]
    · exact Int.natAbs_natCast _
  rw [habs]
  omega

theorem floatNumeral_iff : floatNumeral text = true ↔
    Numeral.ofText text = some .frac ∨ Numeral.ofText text = some .expDigits := by
  unfold floatNumeral
  exact decide_eq_true_iff

theorem numeralEnd_loadable {st : Numeral} (hof : Numeral.ofText text = some st)
    (h : numeralEnd F st text = .ok v) : Loadable F v := by
  have hfloat : floatNumeral text = true → F.read text = v → Loadable F v := by
    intro hnum hv
    rw [← hv]
    rcases F.reads text hnum with hinf | hinf | ⟨repr, hread, hrepr, hback⟩
    · rw [hinf]
      exact .const _
    · rw [hinf]
      exact .const _
    · rw [hread]
      exact .float repr hrepr hback
  have hint : (if tooLong text then .error .valueError else .ok (int (intOf text)) : Except LoadsError PyJson) = .ok v →
      Loadable F v := by
    intro hv
    by_cases hlong : tooLong text = true
    · rw [if_pos hlong] at hv
      cases hv
    · rw [if_neg hlong] at hv
      obtain rfl := Except.ok.inj hv
      exact .int _ (intOf_lt (Bool.eq_false_iff.2 hlong))
  unfold numeralEnd at h
  split at h
  · exact hint h
  · exact hint h
  · exact hfloat (floatNumeral_iff.2 (.inl hof)) (Except.ok.inj h)
  · exact hfloat (floatNumeral_iff.2 (.inr hof)) (Except.ok.inj h)
  all_goals cases h

section

variable (hstack : ∀ f ∈ stack, Frame.Sound F f)

include hstack

theorem sound_cons {f : Frame} (hf : f.Sound F) : ∀ g ∈ f :: stack, g.Sound F := by
  intro g hg
  rcases List.mem_cons.1 hg with rfl | hg
  · exact hf
  · exact hstack g hg

theorem valueStep_sound (h : valueStep stack close c = .ok m) : m.Sound F := by
  unfold valueStep at h
  split at h
  · next st hstart =>
    obtain rfl := Except.ok.inj h
    refine ⟨hstack, ?_⟩
    show (Numeral.start c).bind _ = some st
    rw [hstart]
    rfl
  · obtain rfl := Except.ok.inj h
    exact ⟨hstack, trivial⟩
  · split_ifs at h
    · obtain rfl := Except.ok.inj h
      exact ⟨hstack, trivial⟩
    · obtain rfl := Except.ok.inj h
      exact ⟨hstack, nofun, ⟨nofun, List.isChain_nil⟩, trivial⟩
    · obtain rfl := Except.ok.inj h
      exact ⟨sound_cons hstack (f := .arr []) nofun, trivial⟩
    · obtain rfl := Except.ok.inj h
      exact ⟨hstack, FieldsLoadable.nil⟩
    · split at h
      · next items stack' =>
        obtain rfl := Except.ok.inj h
        refine ⟨fun f hf => hstack f (List.mem_cons_of_mem _ hf), ?_⟩
        exact .arr items (hstack _ List.mem_cons_self)
      · cases h

theorem keyStep_sound (hfields : FieldsLoadable F fields) (h : keyStep stack fields close c = .ok m) :
    m.Sound F := by
  unfold keyStep at h
  split_ifs at h
  · obtain rfl := Except.ok.inj h
    exact ⟨hstack, hfields⟩
  · obtain rfl := Except.ok.inj h
    refine ⟨hstack, ?_, ⟨nofun, List.isChain_nil⟩, trivial⟩
    intro fields' hfields'
    obtain rfl := Option.some.inj hfields'
    exact hfields
  · obtain rfl := Except.ok.inj h
    exact ⟨hstack, .obj fields hfields.nodup hfields.keys hfields.values⟩

theorem colonStep_sound (hfields : FieldsLoadable F fields) (hkey : Joined key)
    (h : colonStep stack fields key c = .ok m) : m.Sound F := by
  unfold colonStep at h
  split_ifs at h
  · obtain rfl := Except.ok.inj h
    exact ⟨hstack, hfields, hkey⟩
  · obtain rfl := Except.ok.inj h
    exact ⟨sound_cons hstack (f := .obj fields key) ⟨hfields, hkey⟩, trivial⟩

theorem strStep_sound {inKey : Option (List (List ℕ × PyJson))} {escape : Escape}
    (hkey : ∀ fields ∈ inKey, FieldsLoadable F fields) (hread : Held read) (hescape : escape.Sound)
    (h : strStep stack inKey read escape c = .ok m) : m.Sound F := by
  have hmore {escape' : Escape} (hescape' : escape'.Sound)
      (hm : Except.ok ⟨stack, .str inKey read escape'⟩ = (.ok m : Step)) : m.Sound F := by
    obtain rfl := Except.ok.inj hm
    exact ⟨hstack, hkey, hread, hescape'⟩
  have hpush {u : ℕ} (hu : u < 0x110000)
      (hm : Except.ok ⟨stack, .str inKey (push read u) .no⟩ = (.ok m : Step)) : m.Sound F := by
    obtain rfl := Except.ok.inj hm
    exact ⟨hstack, hkey, held_push hread hu, trivial⟩
  have hjoined : Joined read.reverse := by
    unfold Joined
    rwa [List.reverse_reverse]
  cases escape with
  | no =>
    simp only [strStep] at h
    by_cases hquote : c = '"'
    · rw [if_pos hquote] at h
      cases inKey with
      | none =>
        obtain rfl := Except.ok.inj h
        exact ⟨hstack, .str _ hjoined⟩
      | some fields =>
        obtain rfl := Except.ok.inj h
        exact ⟨hstack, hkey fields rfl, hjoined⟩
    · rw [if_neg hquote] at h
      split_ifs at h
      · exact @hmore .backslash trivial h
      · have hrange := Json.char_range c
        exact hpush (by omega) h
  | backslash =>
    simp only [strStep] at h
    split_ifs at h
    · exact @hmore (.hex 0 0) ⟨by decide, by decide⟩ h
    · split at h
      · next n hn =>
        have hletters : ∀ p ∈ escapeLetters, p.2 < 0x110000 := by decide
        obtain ⟨l, l', heq, -⟩ := List.lookup_eq_some_iff.1 hn
        have hmem : (c, n) ∈ escapeLetters := by
          rw [heq]
          simp
        exact hpush (hletters _ hmem) h
      · cases h
  | hex digits value =>
    simp only [strStep] at h
    obtain ⟨hdigits, hvalue⟩ := hescape
    split at h
    · cases h
    · next d hd =>
      have hd16 : d < 16 := by
        unfold hexDigit? at hd
        split_ifs at hd with h1 h2 h3
        · have := Option.some.inj hd
          have h9 : c.toNat ≤ 57 := h1.2
          omega
        · have := Option.some.inj hd
          have hf : c.toNat ≤ 102 := h2.2
          omega
        · have := Option.some.inj hd
          have hF : c.toNat ≤ 70 := h3.2
          omega
      have hnext : 16 * value + d < 16 ^ (digits + 1) := by
        rw [Nat.pow_succ]
        omega
      split_ifs at h with hlt
      · exact @hmore (.hex (digits + 1) (16 * value + d)) ⟨by omega, hnext⟩ h
      · have hthree : digits = 3 := by omega
        subst hthree
        exact hpush (by omega) h

theorem literalStep_sound {rest : List Char} {k : JsonConstant} (h : literalStep stack rest k c = .ok m) :
    m.Sound F := by
  unfold literalStep at h
  split at h
  · cases h
  · split_ifs at h
    · obtain rfl := Except.ok.inj h
      exact ⟨hstack, .const k⟩
    · obtain rfl := Except.ok.inj h
      exact ⟨hstack, trivial⟩

theorem afterStep_sound (hv : Loadable F v) (h : afterStep stack v c = .ok m) : m.Sound F := by
  unfold afterStep at h
  by_cases hblank : blank c = true
  · rw [if_pos hblank] at h
    obtain rfl := Except.ok.inj h
    exact ⟨hstack, hv⟩
  rw [if_neg hblank] at h
  cases stack with
  | nil => cases h
  | cons frame rest =>
    have hrest : ∀ f ∈ rest, f.Sound F := fun f hf => hstack f (List.mem_cons_of_mem _ hf)
    have hframe := hstack frame List.mem_cons_self
    cases frame with
    | arr items =>
      have hitems : ∀ j ∈ items ++ [v], Loadable F j := by
        intro j hj
        rcases List.mem_append.1 hj with hj | hj
        · exact hframe j hj
        · rw [List.mem_singleton.1 hj]
          exact hv
      simp only at h
      split_ifs at h
      · obtain rfl := Except.ok.inj h
        exact ⟨sound_cons hrest (f := .arr (items ++ [v])) hitems, trivial⟩
      · obtain rfl := Except.ok.inj h
        exact ⟨hrest, .arr _ hitems⟩
    | obj fields key =>
      have hset := hframe.1.set hframe.2 hv
      simp only at h
      split_ifs at h
      · obtain rfl := Except.ok.inj h
        exact ⟨hrest, hset⟩
      · obtain rfl := Except.ok.inj h
        exact ⟨hrest, .obj _ hset.nodup hset.keys hset.values⟩

theorem numberStep_sound {st : Numeral} (hof : Numeral.ofText text = some st)
    (h : numberStep F stack st text c = .ok m) : m.Sound F := by
  unfold numberStep at h
  split at h
  · next st' hnext =>
    obtain rfl := Except.ok.inj h
    refine ⟨hstack, ?_⟩
    cases text with
    | nil => cases hof
    | cons d ds =>
      obtain ⟨st0, hstart, hrest⟩ := Option.bind_eq_some_iff.1 hof
      show (Numeral.start d).bind _ = some st'
      rw [hstart]
      show (ds ++ [c]).foldlM Numeral.next st0 = some st'
      rw [List.foldlM_append, hrest]
      show [c].foldlM Numeral.next st = some st'
      rw [List.foldlM_cons, hnext]
      rfl
  · split_ifs at h
    · obtain rfl := Except.ok.inj h
      exact ⟨hstack, trivial⟩
    · obtain ⟨v, hend, hafter⟩ := bind_ok.1 h
      exact afterStep_sound hstack (numeralEnd_loadable hof hend) hafter

end

/-- **One character more** keeps the invariant: every mode has a step of its own. -/
theorem step_sound (h : m.Sound F) (hstep : step F m c = .ok m') : m'.Sound F := by
  obtain ⟨stack, mode⟩ := m
  obtain ⟨hstack, hmode⟩ := h
  cases mode with
  | value close => exact valueStep_sound hstack hstep
  | key fields close => exact keyStep_sound hstack hmode hstep
  | colon fields key => exact colonStep_sound hstack hmode.1 hmode.2 hstep
  | str inKey read escape => exact strStep_sound hstack hmode.1 hmode.2.1 hmode.2.2 hstep
  | number st text => exact numberStep_sound hstack hmode hstep
  | literal rest k => exact literalStep_sound hstack hstep
  | after v => exact afterStep_sound hstack hmode hstep

theorem run_sound (h : m.Sound F) (hrun : run F m text = .ok m') : m'.Sound F := by
  induction text generalizing m with
  | nil =>
    obtain rfl := Except.ok.inj hrun
    exact h
  | cons c cs ih =>
    rw [run_cons] at hrun
    obtain ⟨m1, hstep, hrest⟩ := bind_ok.1 hrun
    exact ih (step_sound h hstep) hrest

/-- **What `json.loads` gives can be read back.** -/
theorem loads_loadable (h : loads F text = .ok v) : Loadable F v := by
  obtain ⟨m, hrun, hfinish⟩ := bind_ok.1 h
  have hstart : (⟨[], .value false⟩ : Machine).Sound F := ⟨nofun, trivial⟩
  have hm := run_sound hstart hrun
  obtain ⟨stack, mode⟩ := m
  unfold finish at hfinish
  split at hfinish
  · next v' hs hmode =>
    obtain rfl := Except.ok.inj hfinish
    simp only at hmode
    subst hmode
    exact hm.mode
  · next st text' hs hmode =>
    simp only at hmode
    subst hmode
    exact numeralEnd_loadable hm.mode hfinish
  · obtain ⟨-, -, herror⟩ := bind_ok.1 hfinish
    cases herror
  · cases hfinish

end Vellum.PyJson
