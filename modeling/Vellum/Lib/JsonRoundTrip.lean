import Vellum.Lib.JsonLoadable

/-!
# What `json.loads` gives reads back

A value that can be read is read back from the text that `json.dumps` writes for it (`loads_dumps`):
the machine runs over the text of a value, wherever it stands, and holds that value at the end of it.
-/

namespace Vellum.PyJson

open PySource

variable {F : FloatReader} {stack : List Frame} {v : PyJson} {m m' : Machine} {c : Char} {text cs : List Char}
  {fields : List (List ℕ × PyJson)} {key : List ℕ} {read : List ℕ} {close : Bool}

/-! ## Running over a string -/

/-- Blanks that a machine skips. -/
theorem run_newline (h : ∀ c, blank c = true → step F m c = .ok m) (n : ℕ) : run F m (Json.newline n) = .ok m := by
  have hblanks : ∀ k, run F m (List.replicate k ' ') = .ok m := by
    intro k
    induction k with
    | zero => rfl
    | succ k ih =>
      rw [List.replicate_succ, run_step (h ' ' (by decide))]
      exact ih
  unfold Json.newline
  rw [run_step (h '\n' (by decide))]
  exact hblanks n

section

variable {inKey : Option (List (List ℕ × PyJson))}

/-- A letter behind a backslash. -/
theorem run_letter {d : Char} {n : ℕ} (hd : escapeLetters.lookup d = some n) (hu : d ≠ 'u') :
    run F ⟨stack, .str inKey read .no⟩ ['\\', d] = .ok ⟨stack, .str inKey (push read n) .no⟩ := by
  have h : step F ⟨stack, .str inKey read .no⟩ '\\' = .ok ⟨stack, .str inKey read .backslash⟩ := rfl
  have hletter : step F ⟨stack, .str inKey read .backslash⟩ d = .ok ⟨stack, .str inKey (push read n) .no⟩ := by
    unfold step strStep
    simp only [if_neg hu, hd]
  rw [run_step h, run_step hletter, run_nil]

/-- A unit by its four digits. -/
theorem run_unit {u : ℕ} (hu : u < 65536) :
    run F ⟨stack, .str inKey read .no⟩ (Json.escapeUnit u) = .ok ⟨stack, .str inKey (push read u) .no⟩ := by
  have hdigit (k : ℕ) : hexDigit? (Nat.digitChar (k % 16)) = some (k % 16) :=
    hexDigit?_digitChar _ (Nat.mod_lt _ (by decide))
  have hmore (digits value k : ℕ) (hd : digits < 3) :
      step F ⟨stack, .str inKey read (.hex digits value)⟩ (Nat.digitChar (k % 16)) =
        .ok ⟨stack, .str inKey read (.hex (digits + 1) (16 * value + k % 16))⟩ := by
    unfold step strStep
    simp only [hdigit, if_pos hd]
  have hlast (value k : ℕ) :
      step F ⟨stack, .str inKey read (.hex 3 value)⟩ (Nat.digitChar (k % 16)) =
        .ok ⟨stack, .str inKey (push read (16 * value + k % 16)) .no⟩ := by
    unfold step strStep
    simp only [hdigit]
    rfl
  have hvalue : 16 * (16 * (16 * (16 * 0 + u / 4096 % 16) + u / 256 % 16) + u / 16 % 16) + u % 16 = u := by omega
  have h1 : step F ⟨stack, .str inKey read .no⟩ '\\' = .ok ⟨stack, .str inKey read .backslash⟩ := rfl
  have h2 : step F ⟨stack, .str inKey read .backslash⟩ 'u' = .ok ⟨stack, .str inKey read (.hex 0 0)⟩ := rfl
  unfold Json.escapeUnit Json.hex4
  rw [run_step h1, run_step h2, run_step (hmore 0 _ _ (by decide)), run_step (hmore 1 _ _ (by decide)),
    run_step (hmore 2 _ _ (by decide)), run_step (hlast _ _), run_nil, hvalue]

/-- **An escaped code point is read back.** -/
theorem run_escapeCode {n : ℕ} (h : Held (n :: read)) :
    run F ⟨stack, .str inKey read .no⟩ (escapeCode n) = .ok ⟨stack, .str inKey (n :: read) .no⟩ := by
  have hn : n < 0x110000 := h.1 n List.mem_cons_self
  have hpush := push_eq h
  unfold escapeCode
  by_cases hsur : 0xd800 ≤ n ∧ n < 0xe000
  · rw [if_pos hsur, run_unit (by omega), hpush]
  · rw [if_neg hsur]
    have hvalid : n.isValidChar := by
      unfold Nat.isValidChar
      omega
    have hc : (Char.ofNat n).toNat = n := by
      unfold Char.ofNat
      rw [dif_pos hvalid]
      rfl
    generalize Char.ofNat n = c at hc
    subst hc
    have hletter {d : Char} {k : ℕ} (hd : escapeLetters.lookup d = some k) (hu : d ≠ 'u') (hk : c.toNat = k) :
        run F ⟨stack, .str inKey read .no⟩ ['\\', d] = .ok ⟨stack, .str inKey (c.toNat :: read) .no⟩ := by
      rw [run_letter hd hu, ← hk, hpush]
    unfold Json.escapeChar
    split_ifs with h1 h2 h3 h4 h5 h6 h7 h8 h9
    · exact hletter rfl (by decide) (by rw [h1]; rfl)
    · exact hletter rfl (by decide) (by rw [h2]; rfl)
    · exact hletter rfl (by decide) (by rw [h3]; rfl)
    · exact hletter rfl (by decide) (by rw [h4]; rfl)
    · exact hletter rfl (by decide) (by rw [h5]; rfl)
    · exact hletter rfl (by decide) (by rw [h6]; rfl)
    · exact hletter rfl (by decide) (by rw [h7]; rfl)
    · have hplain : step F ⟨stack, .str inKey read .no⟩ c = .ok ⟨stack, .str inKey (push read c.toNat) .no⟩ := by
        have hge : ¬ c.toNat < 32 := by omega
        unfold step strStep
        simp only [if_neg h1, if_neg h2, if_neg hge]
      rw [run_step hplain, run_nil, hpush]
    · rw [run_unit h9, hpush]
    · -- the high unit stays, since nothing joins with it, and the low one completes the pair
      have hhigh := Json.highSurrogate_range hn
      have hisHigh : isHigh (Json.highSurrogate c.toNat) = true := by simpa [isHigh] using hhigh
      have hisLow : isLow (Json.lowSurrogate c.toNat) = true := by
        have : 0xdc00 ≤ Json.lowSurrogate c.toNat ∧ Json.lowSurrogate c.toNat < 0xe000 := by
          unfold Json.lowSurrogate
          omega
        simpa [isLow] using this
      have hfirst : push read (Json.highSurrogate c.toNat) = Json.highSurrogate c.toNat :: read := by
        cases read with
        | nil => rfl
        | cons a rest =>
          rw [push_cons, if_neg]
          rintro ⟨-, hl⟩
          rw [not_low_of_high hisHigh] at hl
          cases hl
      rw [run_after (run_unit (by omega)), run_unit (Json.lowSurrogate_lt _), hfirst, push_cons,
        if_pos ⟨hisHigh, hisLow⟩, Json.joinSurrogates_eq (by omega)]

theorem run_codes {s : List ℕ} (h : Held (s.reverse ++ read)) :
    run F ⟨stack, .str inKey read .no⟩ (s.flatMap escapeCode) = .ok ⟨stack, .str inKey (s.reverse ++ read) .no⟩ := by
  induction s generalizing read with
  | nil => rfl
  | cons n s ih =>
    have hrev : (n :: s).reverse ++ read = s.reverse ++ n :: read := by simp
    rw [hrev] at h ⊢
    rw [List.flatMap_cons, run_after (run_escapeCode (held_append h))]
    exact ih h

/-- **A string is read back**, as a value or as a key. -/
theorem run_renderStr {s : List ℕ} (h : Joined s) (hm : step F m '"' = .ok ⟨stack, .str inKey [] .no⟩) :
    run F m (renderStr s) = strStep stack inKey s.reverse .no '"' := by
  have hcodes := @run_codes F stack [] inKey s (by rw [List.append_nil]; exact h)
  rw [List.append_nil] at hcodes
  unfold renderStr
  rw [run_step hm, run_after hcodes, run_cons]
  change (strStep stack inKey s.reverse .no '"').bind Except.ok = _
  cases strStep stack inKey s.reverse .no '"' with
  | error e => rfl
  | ok m => rfl

end

/-! ## Running over a numeral -/

/-- **A value stands complete** as soon as the next item or the end of the line comes. -/
structure Ends (F : FloatReader) (m : Machine) (stack : List Frame) (v : PyJson) : Prop where
  comma : step F m ',' = afterStep stack v ','
  line : step F m '\n' = .ok ⟨stack, .after v⟩

theorem ends_after : Ends F ⟨stack, .after v⟩ stack v := ⟨rfl, rfl⟩

theorem run_number {st st' : Numeral} (h : cs.foldlM Numeral.next st = some st') :
    run F ⟨stack, .number st text⟩ cs = .ok ⟨stack, .number st' (text ++ cs)⟩ := by
  induction cs generalizing st text with
  | nil =>
    obtain rfl := Option.some.inj h
    rw [List.append_nil]
    rfl
  | cons c cs ih =>
    rw [List.foldlM_cons] at h
    obtain ⟨st1, hnext, hrest⟩ := Option.bind_eq_some_iff.1 h
    have hstep : step F ⟨stack, .number st text⟩ c = .ok ⟨stack, .number st1 (text ++ [c])⟩ := by
      unfold step numberStep
      simp only [hnext]
    rw [run_step hstep, ih hrest, List.append_assoc, List.singleton_append]

theorem run_numeral {st : Numeral} (h : Numeral.ofText text = some st) :
    run F ⟨stack, .value close⟩ text = .ok ⟨stack, .number st text⟩ := by
  cases text with
  | nil => cases h
  | cons c cs =>
    obtain ⟨st0, hstart, hrest⟩ := Option.bind_eq_some_iff.1 h
    have hstep : step F ⟨stack, .value close⟩ c = .ok ⟨stack, .number st0 [c]⟩ := by
      unfold step valueStep
      simp only [hstart]
    rw [run_step hstep, run_number hrest, List.singleton_append]

/-- A numeral is complete where it can end. -/
theorem ends_number {st : Numeral} (hst : st = .zero ∨ st = .int ∨ st = .frac ∨ st = .expDigits)
    (hend : numeralEnd F st text = .ok v) : Ends F ⟨stack, .number st text⟩ stack v := by
  have hstep : ∀ c, st.next c = none → step F ⟨stack, .number st text⟩ c = afterStep stack v c := by
    intro c hnext
    have hminus : ¬ (st = .minus ∧ c = 'I') := by
      rintro ⟨rfl, -⟩
      simp at hst
    unfold step numberStep
    simp only [hnext, if_neg hminus, hend]
    rfl
  refine ⟨hstep ',' ?_, hstep '\n' ?_⟩
  · rcases hst with rfl | rfl | rfl | rfl <;> rfl
  · rcases hst with rfl | rfl | rfl | rfl <;> rfl

/-! ### The text of an integer -/

theorem foldlM_digits (h : ∀ c ∈ cs, c.isDigit = true) : cs.foldlM Numeral.next .int = some .int := by
  induction cs with
  | nil => rfl
  | cons c cs ih =>
    have hc : Numeral.next .int c = some .int := if_pos (h c List.mem_cons_self)
    rw [List.foldlM_cons, hc]
    exact ih fun d hd => h d (List.mem_cons_of_mem c hd)

/-- The first digit of a positive number is none of the zeros. -/
theorem toDigits_head {n : ℕ} (h : 0 < n) : ∃ c cs, Nat.toDigits 10 n = c :: cs ∧ c ≠ '0' := by
  induction n using Nat.strongRecOn with
  | ind n ih =>
    by_cases hlt : n < 10
    · refine ⟨Nat.digitChar n, [], Nat.toDigits_of_lt_base hlt, ?_⟩
      have hdigit : ∀ k < 10, 0 < k → Nat.digitChar k ≠ '0' := by decide
      exact hdigit n hlt h
    · obtain ⟨c, cs, hdigits, hc⟩ := ih (n / 10) (by omega) (by omega)
      refine ⟨c, cs ++ [Nat.digitChar (n % 10)], ?_, hc⟩
      rw [Nat.toDigits_of_base_le (by decide) (by omega), hdigits, List.cons_append]

theorem digit_of_mem_toDigits {n : ℕ} (h : c ∈ Nat.toDigits 10 n) : c.isDigit = true :=
  Nat.isDigit_of_mem_toDigits (by decide) (by decide) h

/-- Digits, with a sign or without. -/
theorem ofText_toDigits (n : ℕ) : ∃ c cs st, Nat.toDigits 10 n = c :: cs ∧ (st = Numeral.zero ∨ st = .int) ∧
    Numeral.start c = some st ∧ Numeral.next .minus c = some st ∧ cs.foldlM Numeral.next st = some st := by
  rcases Nat.eq_zero_or_pos n with rfl | hpos
  · exact ⟨'0', [], .zero, rfl, .inl rfl, rfl, rfl, rfl⟩
  · obtain ⟨c, cs, hdigits, hc⟩ := toDigits_head hpos
    have hall : ∀ d ∈ c :: cs, d.isDigit = true := by
      intro d hd
      rw [← hdigits] at hd
      exact digit_of_mem_toDigits hd
    have hdigit : c.isDigit = true := hall c List.mem_cons_self
    have hminus : c ≠ '-' := by
      rintro rfl
      cases hdigit
    refine ⟨c, cs, .int, hdigits, .inr rfl, ?_, ?_, foldlM_digits fun d hd => hall d (List.mem_cons_of_mem c hd)⟩
    · rw [Numeral.start, if_neg hminus, if_neg hc, if_pos hdigit]
    · rw [Numeral.next, if_neg hc, if_pos hdigit]

theorem filter_toDigits (n : ℕ) : (Nat.toDigits 10 n).filter Char.isDigit = Nat.toDigits 10 n := by
  rw [List.filter_eq_self]
  intro c hc
  exact digit_of_mem_toDigits hc

/-- The sign and the digits of an integer's text. -/
theorem toList_int_repr (i : ℤ) : ∃ sign, i.repr.toList = sign ++ Nat.toDigits 10 i.natAbs ∧
    (sign = [] ∧ 0 ≤ i ∨ sign = ['-'] ∧ i < 0) := by
  cases i with
  | ofNat n => exact ⟨[], by simp [Int.repr], .inl ⟨rfl, Int.natCast_nonneg n⟩⟩
  | negSucc n => exact ⟨['-'], by simp [Int.repr], .inr ⟨rfl, Int.negSucc_lt_zero n⟩⟩

/-- **An integer is read back.** -/
theorem run_int {i : ℤ} (h : i.natAbs < 10 ^ maxStrDigits) :
    ∃ m, run F ⟨stack, .value close⟩ i.repr.toList = .ok m ∧ Ends F m stack (int i) := by
  obtain ⟨sign, htext, hsign⟩ := toList_int_repr i
  obtain ⟨c, cs, st, hdigits, hst, hstart, hminus, hrest⟩ := ofText_toDigits i.natAbs
  have hfilter : i.repr.toList.filter Char.isDigit = Nat.toDigits 10 i.natAbs := by
    rw [htext, List.filter_append, filter_toDigits]
    rcases hsign with ⟨rfl, -⟩ | ⟨rfl, -⟩ <;> rfl
  have hlong : tooLong i.repr.toList = false := by
    have hlen : (Nat.toDigits 10 i.natAbs).length ≤ maxStrDigits :=
      (Nat.length_toDigits_le_iff (by decide) (by decide)).2 h
    unfold tooLong
    rw [hfilter]
    exact decide_eq_false (by omega)
  have hvalue : intOf i.repr.toList = i := by
    unfold intOf
    rw [hfilter, Nat.ofDigitChars_ten_toDigits]
    rcases hsign with ⟨rfl, hi⟩ | ⟨rfl, hi⟩
    · have hne : ¬ i.repr.toList.head? = some '-' := by
        rw [htext, hdigits]
        intro hc
        obtain rfl : c = '-' := Option.some.inj hc
        have : Nat.toDigits 10 i.natAbs = '-' :: cs := hdigits
        exact Json.minus_not_mem_toDigits i.natAbs (by rw [this]; exact List.mem_cons_self)
      rw [if_neg hne]
      omega
    · have hhead : i.repr.toList.head? = some '-' := by rw [htext]; rfl
      rw [if_pos hhead]
      omega
  have hof : Numeral.ofText i.repr.toList = some st := by
    rw [htext]
    rcases hsign with ⟨rfl, -⟩ | ⟨rfl, -⟩
    · rw [List.nil_append, hdigits]
      show (Numeral.start c).bind _ = some st
      rw [hstart]
      exact hrest
    · rw [List.singleton_append, hdigits]
      show (List.foldlM Numeral.next Numeral.minus (c :: cs)) = some st
      rw [List.foldlM_cons, hminus]
      exact hrest
  refine ⟨_, run_numeral hof, ends_number ?_ ?_⟩
  · rcases hst with rfl | rfl
    · exact .inl rfl
    · exact .inr (.inl rfl)
  · rcases hst with rfl | rfl
    · rw [numeralEnd, hlong, hvalue]
      rfl
    · rw [numeralEnd, hlong, hvalue]
      rfl

/-- **A float is read back** by its `repr`. -/
theorem run_float (h : floatNumeral text = true) (hread : F.read text = float text) :
    ∃ m, run F ⟨stack, .value close⟩ text = .ok m ∧ Ends F m stack (float text) := by
  rcases floatNumeral_iff.1 h with hof | hof
  · exact ⟨_, run_numeral hof, ends_number (.inr (.inr (.inl rfl))) (congrArg Except.ok hread)⟩
  · exact ⟨_, run_numeral hof, ends_number (.inr (.inr (.inr rfl))) (congrArg Except.ok hread)⟩

theorem run_const (k : JsonConstant) :
    run F ⟨stack, .value close⟩ (constantText k) = .ok ⟨stack, .after (const k)⟩ := by
  cases k <;> rfl

/-! ## Running over a value -/

/-- A value that is read back wherever it is written. -/
def ReadsBack (F : FloatReader) (j : PyJson) : Prop := ∀ n stack close,
  ∃ m, run F ⟨stack, .value close⟩ (renderIndent n j) = .ok m ∧ Ends F m stack j

theorem run_value_newline (n : ℕ) : run F ⟨stack, .value close⟩ (Json.newline n) = .ok ⟨stack, .value close⟩ := by
  apply run_newline
  intro c hc
  simp only [blank, Bool.decide_or, Bool.or_eq_true, decide_eq_true_eq] at hc
  rcases hc with rfl | rfl | rfl | rfl <;> rfl

theorem run_key_newline (n : ℕ) :
    run F ⟨stack, .key fields close⟩ (Json.newline n) = .ok ⟨stack, .key fields close⟩ := by
  apply run_newline
  intro c hc
  unfold step keyStep
  simp only [if_pos hc]

/-- The line ends after a value, and the next one is indented. -/
theorem run_ends_newline (h : Ends F m stack v) (n : ℕ) :
    run F m (Json.newline n) = .ok ⟨stack, .after v⟩ := by
  have hblanks : run F ⟨stack, .after v⟩ (Json.newline n) = .ok ⟨stack, .after v⟩ := by
    apply run_newline
    intro c hc
    unfold step afterStep
    simp only [if_pos hc]
  have hline : step F ⟨stack, .after v⟩ '\n' = .ok ⟨stack, .after v⟩ := rfl
  unfold Json.newline at hblanks ⊢
  rw [run_step h.line]
  rwa [run_step hline] at hblanks

/-- The items after the first, each behind its comma. -/
theorem run_items {items : List PyJson} {n : ℕ} : ∀ {js done v m}, (∀ j ∈ js, ReadsBack F j) →
    Ends F m (.arr done :: stack) v → items = done ++ v :: js →
    ∃ m' done' w, run F m (renderIndentItems n js) = .ok m' ∧ Ends F m' (.arr done' :: stack) w ∧
      items = done' ++ [w] := by
  intro js
  induction js with
  | nil => exact fun {done v m} _ hm hitems => ⟨m, done, v, rfl, hm, hitems⟩
  | cons j js ih =>
    intro done v m hjs hm hitems
    have hcomma : step F m ',' = .ok ⟨.arr (done ++ [v]) :: stack, .value false⟩ := hm.comma
    obtain ⟨m1, hrun, hends⟩ := hjs j List.mem_cons_self n (.arr (done ++ [v]) :: stack) false
    obtain ⟨m2, done', w, hrest, hends', hlast⟩ := ih (fun i hi => hjs i (List.mem_cons_of_mem j hi)) hends
      (by rw [hitems, List.append_assoc, List.singleton_append])
    refine ⟨m2, done', w, ?_, hends', hlast⟩
    rw [renderIndentItems, List.cons_append, run_step hcomma, List.append_assoc, run_after (run_value_newline n),
      run_after hrun]
    exact hrest

/-- A key and its value, up to the next comma. -/
theorem run_field {n : ℕ} {k : List ℕ} {j : PyJson} (hk : Joined k) (hj : ReadsBack F j) :
    ∃ m, run F ⟨stack, .key fields close⟩ (Json.newline n ++ renderStr k ++ ':' :: ' ' :: renderIndent n j) = .ok m ∧
      Ends F m (.obj fields k :: stack) j := by
  obtain ⟨m, hrun, hends⟩ := hj n (.obj fields k :: stack) false
  have hquote : step F ⟨stack, .key fields close⟩ '"' = .ok ⟨stack, .str (some fields) [] .no⟩ := rfl
  have hkey : run F ⟨stack, .key fields close⟩ (renderStr k) = .ok ⟨stack, .colon fields k⟩ := by
    rw [run_renderStr hk hquote]
    show Except.ok (⟨stack, .colon fields k.reverse.reverse⟩ : Machine) = _
    rw [List.reverse_reverse]
  have hcolon : step F ⟨stack, .colon fields k⟩ ':' = .ok ⟨.obj fields k :: stack, .value false⟩ := rfl
  have hblank : step F ⟨.obj fields k :: stack, .value false⟩ ' ' = .ok ⟨.obj fields k :: stack, .value false⟩ := rfl
  refine ⟨m, ?_, hends⟩
  rw [List.append_assoc, run_after (run_key_newline n), run_after hkey, run_step hcolon, run_step hblank]
  exact hrun

/-- The fields after the first, each behind its comma. No key stands twice, so each is added at the
end. -/
theorem run_fields {all : List (List ℕ × PyJson)} {n : ℕ} (hnd : (all.map Prod.fst).Nodup) :
    ∀ {fs done k v m}, (∀ f ∈ fs, Joined f.1 ∧ ReadsBack F f.2) →
      Ends F m (.obj done k :: stack) v → all = done ++ (k, v) :: fs →
      ∃ m' done' k' w, run F m (renderIndentFields n fs) = .ok m' ∧ Ends F m' (.obj done' k' :: stack) w ∧
        all = setField done' k' w := by
  intro fs
  have hnew : ∀ {done k v fs}, all = done ++ (k, v) :: fs → setField done k v = done ++ [(k, v)] := by
    intro done k v fs hall
    apply setField_new
    intro hk
    rw [hall, List.map_append, List.map_cons, List.nodup_append] at hnd
    exact hnd.2.2 k hk k List.mem_cons_self rfl
  induction fs with
  | nil => exact fun {done k v m} _ hm hall => ⟨m, done, k, v, rfl, hm, by rw [hall, hnew hall]⟩
  | cons f fs ih =>
    intro done k v m hfs hm hall
    have hcomma : step F m ',' = .ok ⟨stack, .key (done ++ [(k, v)]) false⟩ := by
      rw [← hnew hall]
      exact hm.comma
    have hf := hfs f List.mem_cons_self
    obtain ⟨m1, hrun, hends⟩ := @run_field F stack (done ++ [(k, v)]) false n f.1 f.2 hf.1 hf.2
    obtain ⟨m2, done', k', w, hrest, hends', hlast⟩ := ih (fun g hg => hfs g (List.mem_cons_of_mem f hg)) hends
      (by rw [hall, List.append_assoc, List.singleton_append])
    refine ⟨m2, done', k', w, ?_, hends', hlast⟩
    rw [renderIndentFields, List.cons_append, run_step hcomma, run_after hrun]
    exact hrest

/-- **What can be read is read back.** -/
theorem readsBack_of_loadable {j : PyJson} (h : Loadable F j) : ReadsBack F j := by
  induction h with
  | const k => exact fun n stack close => ⟨_, run_const k, ends_after⟩
  | int i hi => exact fun n stack close => run_int hi
  | float text htext hread => exact fun n stack close => run_float htext hread
  | str s hs =>
    intro n stack close
    have hquote : step F ⟨stack, .value close⟩ '"' = .ok ⟨stack, .str none [] .no⟩ := rfl
    refine ⟨⟨stack, .after (str s)⟩, ?_, ends_after⟩
    rw [renderIndent, run_renderStr hs hquote]
    show Except.ok (⟨stack, .after (str s.reverse.reverse)⟩ : Machine) = _
    rw [List.reverse_reverse]
  | arr items _ ih =>
    intro n stack close
    refine ⟨⟨stack, .after (arr items)⟩, ?_, ends_after⟩
    have hopen : step F ⟨stack, .value close⟩ '[' = .ok ⟨.arr [] :: stack, .value true⟩ := rfl
    cases items with
    | nil => rfl
    | cons j js =>
      obtain ⟨m, hrun, hends⟩ := ih j List.mem_cons_self (n + 2) (.arr [] :: stack) true
      obtain ⟨m', done, w, hrest, hends', hlast⟩ := @run_items F stack (j :: js) (n + 2) js [] j m
        (fun i hi => ih i (List.mem_cons_of_mem j hi)) hends rfl
      have hclose : step F ⟨.arr done :: stack, .after w⟩ ']' = .ok ⟨stack, .after (arr (j :: js))⟩ := by
        rw [hlast]
        rfl
      rw [renderIndent, run_step hopen, List.append_assoc, List.append_assoc, List.append_assoc,
        run_after (run_value_newline _), run_after hrun, run_after hrest, run_after (run_ends_newline hends' n),
        run_step hclose, run_nil]
  | obj fields hnd hkeys _ ih =>
    intro n stack close
    refine ⟨⟨stack, .after (obj fields)⟩, ?_, ends_after⟩
    have hopen : step F ⟨stack, .value close⟩ '\x7b' = .ok ⟨stack, .key [] true⟩ := rfl
    cases fields with
    | nil => rfl
    | cons f fs =>
      have hf := List.mem_cons_self (a := f) (l := fs)
      obtain ⟨m, hrun, hends⟩ := @run_field F stack [] true (n + 2) f.1 f.2 (hkeys f hf) (ih f hf)
      obtain ⟨m', done, k, w, hrest, hends', hlast⟩ := @run_fields F stack (f :: fs) (n + 2) hnd fs [] f.1 f.2 m
        (fun g hg => ⟨hkeys g (List.mem_cons_of_mem f hg), ih g (List.mem_cons_of_mem f hg)⟩) hends rfl
      have hclose : step F ⟨.obj done k :: stack, .after w⟩ '\x7d' = .ok ⟨stack, .after (obj (f :: fs))⟩ := by
        rw [hlast]
        rfl
      rw [renderIndent, run_step hopen, List.append_assoc, List.append_assoc, run_after hrun, run_after hrest,
        run_after (run_ends_newline hends' n), run_step hclose, run_nil]

/-- **`json.loads` reads back what `json.dumps` wrote**, with a line break behind it. -/
theorem loads_dumps {j : PyJson} (h : Loadable F j) : loads F (renderIndent 0 j ++ ['\n']) = .ok j := by
  obtain ⟨m, hrun, hends⟩ := readsBack_of_loadable h 0 [] false
  unfold loads
  rw [run_after hrun, run_step hends.line]
  rfl

/-! ## Dicts of strings -/

theorem ofString_inj {s t : String} (h : ofString s = ofString t) : s = t := by
  have hchars : s.toList = t.toList := List.map_injective_iff.2 (fun _ _ => Char.toNat_inj.1) h
  exact String.toList_inj.1 hchars

theorem loadable_ofStrings {d : List (String × String)} (hnd : (d.map Prod.fst).Nodup) :
    Loadable F (ofStrings d) := by
  apply Loadable.obj
  · rw [List.map_map]
    have hkeys : d.map (Prod.fst ∘ fun p => (ofString p.1, str (ofString p.2))) = (d.map Prod.fst).map ofString := by
      rw [List.map_map]
      rfl
    rw [hkeys]
    exact hnd.map fun _ _ => ofString_inj
  · intro f hf
    obtain ⟨p, -, rfl⟩ := List.mem_map.1 hf
    exact joined_ofString p.1
  · intro f hf
    obtain ⟨p, -, rfl⟩ := List.mem_map.1 hf
    exact .str _ (joined_ofString p.2)

/-- A dict of strings is equal to itself. -/
theorem eqStrings_ofStrings {d : List (String × String)} (hnd : (d.map Prod.fst).Nodup) :
    eqStrings (ofStrings d) d = true := by
  have hlookup : ∀ p ∈ d, (d.map fun p => (ofString p.1, str (ofString p.2))).lookup (ofString p.1) =
      some (str (ofString p.2)) := by
    induction d with
    | nil => exact nofun
    | cons q d ih =>
      intro p hp
      rw [List.map_cons, List.nodup_cons] at hnd
      rw [List.map_cons, List.lookup_cons]
      rcases List.mem_cons.1 hp with rfl | hp
      · rw [beq_self_eq_true]
      · have hne : p.1 ≠ q.1 := fun he => hnd.1 (he ▸ List.mem_map_of_mem hp)
        have hb : (ofString p.1 == ofString q.1) = false := beq_false_of_ne fun he => hne (ofString_inj he)
        rw [hb]
        exact ih hnd.2 p hp
  unfold ofStrings eqStrings
  refine decide_eq_true ⟨List.length_map _, List.all_eq_true.2 ?_⟩
  intro p hp
  rw [hlookup p hp]
  exact decide_eq_true rfl

end Vellum.PyJson
