import Vellum.Lib.JsonLoadable

/-!
# The lines of indented JSON

What `json.dumps(value, indent=2)` writes is printable ASCII and line breaks: no carriage return
stands in it, so that reading it in text mode does not change it.
-/

namespace Vellum.Json

theorem cr_not_mem_escapeUnit (u : ℕ) : '\r' ∉ escapeUnit u := by
  have hdigit : ∀ k < 16, Nat.digitChar k ≠ '\r' := by decide
  have hne : ∀ k, '\r' ≠ Nat.digitChar (k % 16) := fun k => (hdigit _ (Nat.mod_lt k (by decide))).symm
  simp [escapeUnit, hex4, hne]

theorem cr_not_mem_escapeChar (c : Char) : '\r' ∉ escapeChar c := by
  unfold escapeChar
  split_ifs with h1 h2 h3 h4 h5 h6 h7 h8 h9
  all_goals try decide
  · rw [List.mem_singleton]
    exact fun h => h4 h.symm
  · exact cr_not_mem_escapeUnit _
  · rw [List.mem_append]
    exact not_or.2 ⟨cr_not_mem_escapeUnit _, cr_not_mem_escapeUnit _⟩

theorem cr_not_mem_newline (n : ℕ) : '\r' ∉ Json.newline n := by
  unfold Json.newline
  intro h
  rcases List.mem_cons.1 h with h | h
  · cases h
  · exact absurd (List.eq_of_mem_replicate h) (by decide)

theorem cr_not_mem_quoted {body : List Char} (h : '\r' ∉ body) : '\r' ∉ '"' :: (body ++ ['"']) := by
  simp [h]

theorem cr_not_mem_renderStr (s : String) : '\r' ∉ renderStr s := by
  apply cr_not_mem_quoted
  intro h
  obtain ⟨c, -, hc⟩ := List.mem_flatMap.1 h
  exact cr_not_mem_escapeChar c hc

theorem cr_not_mem_int (i : ℤ) : '\r' ∉ i.repr.toList := by
  intro h
  have := List.all_eq_true.1 (int_chars i) '\r' h
  revert this
  decide

/-- **No carriage return** in the text of a value. -/
theorem cr_not_mem_renderIndent (j : Json) : ∀ n, '\r' ∉ renderIndent n j := by
  induction j with
  | null =>
    intro n
    rw [renderIndent]
    decide
  | bool b =>
    intro n
    cases b
    all_goals
      rw [renderIndent]
      decide
  | int i => exact fun n => cr_not_mem_int i
  | float f =>
    intro n h
    have hall : f.text.all numChar = true := by
      have := f.wf
      unfold floatText at this
      simp only [Bool.and_eq_true] at this
      exact this.1.1
    have := List.all_eq_true.1 hall '\r' h
    revert this
    decide
  | str s => exact fun n => cr_not_mem_renderStr s
  | arr items ih =>
    intro n
    have hitems : ∀ {js : List Json}, (∀ j ∈ js, ∀ n, '\r' ∉ renderIndent n j) → ∀ n,
        '\r' ∉ renderIndentItems n js := by
      intro js
      induction js with
      | nil => exact fun _ _ => List.not_mem_nil
      | cons j js ihjs =>
        intro hjs n
        have hj := hjs j List.mem_cons_self n
        have hrest := ihjs (fun i hi => hjs i (List.mem_cons_of_mem j hi)) n
        have hline := cr_not_mem_newline n
        simp [renderIndentItems, hj, hrest, hline]
    cases items with
    | nil =>
      rw [renderIndent]
      decide
    | cons j js =>
      have hj := ih j List.mem_cons_self (n + 2)
      have hrest := hitems (fun i hi => ih i (List.mem_cons_of_mem j hi)) (n + 2)
      have hline := cr_not_mem_newline n
      have hline2 := cr_not_mem_newline (n + 2)
      simp [renderIndent, hj, hrest, hline, hline2]
  | obj fields ih =>
    intro n
    have hfields : ∀ {fs : List (String × Json)}, (∀ f ∈ fs, ∀ n, '\r' ∉ renderIndent n f.2) → ∀ n,
        '\r' ∉ renderIndentFields n fs := by
      intro fs
      induction fs with
      | nil => exact fun _ _ => List.not_mem_nil
      | cons f fs ihfs =>
        intro hfs n
        have hf := hfs f List.mem_cons_self n
        have hkey := cr_not_mem_renderStr f.1
        have hrest := ihfs (fun g hg => hfs g (List.mem_cons_of_mem f hg)) n
        have hline := cr_not_mem_newline n
        simp [renderIndentFields, hf, hkey, hrest, hline]
    cases fields with
    | nil =>
      rw [renderIndent]
      decide
    | cons f fs =>
      have hf := ih f List.mem_cons_self (n + 2)
      have hkey := cr_not_mem_renderStr f.1
      have hrest := hfields (fun g hg => ih g (List.mem_cons_of_mem f hg)) (n + 2)
      have hline := cr_not_mem_newline n
      have hline2 := cr_not_mem_newline (n + 2)
      simp [renderIndent, hf, hkey, hrest, hline, hline2]

/-- The same on one line. -/
theorem cr_not_mem_render {p : Separators} (hcomma : '\r' ∉ p.afterComma) (hcolon : '\r' ∉ p.afterColon) (j : Json) :
    '\r' ∉ render p j := by
  induction j with
  | null =>
    rw [render]
    decide
  | bool b =>
    cases b
    all_goals
      rw [render]
      decide
  | int i => exact cr_not_mem_int i
  | float f =>
    intro h
    have hall : f.text.all numChar = true := by
      have := f.wf
      unfold floatText at this
      simp only [Bool.and_eq_true] at this
      exact this.1.1
    have := List.all_eq_true.1 hall '\r' h
    revert this
    decide
  | str s => exact cr_not_mem_renderStr s
  | arr items ih =>
    have hitems : ∀ {js : List Json}, (∀ j ∈ js, '\r' ∉ render p j) → '\r' ∉ renderItems p js := by
      intro js
      induction js with
      | nil => exact fun _ => List.not_mem_nil
      | cons j js ihjs =>
        intro hjs
        have hj := hjs j List.mem_cons_self
        have hrest := ihjs fun i hi => hjs i (List.mem_cons_of_mem j hi)
        simp [renderItems, hcomma, hj, hrest]
    cases items with
    | nil =>
      rw [render]
      decide
    | cons j js =>
      have hj := ih j List.mem_cons_self
      have hrest := hitems fun i hi => ih i (List.mem_cons_of_mem j hi)
      simp [render, hj, hrest]
  | obj fields ih =>
    have hfields : ∀ {fs : List (String × Json)}, (∀ f ∈ fs, '\r' ∉ render p f.2) →
        '\r' ∉ renderFields p fs := by
      intro fs
      induction fs with
      | nil => exact fun _ => List.not_mem_nil
      | cons f fs ihfs =>
        intro hfs
        have hf := hfs f List.mem_cons_self
        have hkey := cr_not_mem_renderStr f.1
        have hrest := ihfs fun g hg => hfs g (List.mem_cons_of_mem f hg)
        simp [renderFields, hcomma, hcolon, hf, hkey, hrest]
    cases fields with
    | nil =>
      rw [render]
      decide
    | cons f fs =>
      have hf := ih f List.mem_cons_self
      have hkey := cr_not_mem_renderStr f.1
      have hrest := hfields fun g hg => ih g (List.mem_cons_of_mem f hg)
      simp [render, hcolon, hf, hkey, hrest]

end Vellum.Json

namespace Vellum.PyJson

variable {F : FloatReader} {text : List Char}

theorem cr_not_mem_renderStr (s : List ℕ) : '\r' ∉ renderStr s := by
  apply Json.cr_not_mem_quoted
  intro h
  obtain ⟨n, -, hn⟩ := List.mem_flatMap.1 h
  unfold escapeCode at hn
  split_ifs at hn
  · exact Json.cr_not_mem_escapeUnit n hn
  · exact Json.cr_not_mem_escapeChar _ hn

/-- Every character of a numeral is one of those that continue it. -/
theorem cr_not_mem_numeral {st : Numeral} (h : Numeral.ofText text = some st) : '\r' ∉ text := by
  have hnext : ∀ st : Numeral, st.next '\r' = none := by
    intro st
    cases st <;> rfl
  have hrest : ∀ {cs : List Char} {st st' : Numeral}, cs.foldlM Numeral.next st = some st' → '\r' ∉ cs := by
    intro cs
    induction cs with
    | nil => exact fun _ => List.not_mem_nil
    | cons c cs ih =>
      intro st st' hfold hmem
      rw [List.foldlM_cons] at hfold
      obtain ⟨st1, hst1, hfold'⟩ := Option.bind_eq_some_iff.1 hfold
      rcases List.mem_cons.1 hmem with hc | hmem
      · rw [← hc, hnext] at hst1
        cases hst1
      · exact ih hfold' hmem
  cases text with
  | nil => exact List.not_mem_nil
  | cons c cs =>
    obtain ⟨st0, hstart, hfold⟩ := Option.bind_eq_some_iff.1 h
    intro hmem
    rcases List.mem_cons.1 hmem with hc | hmem
    · rw [← hc] at hstart
      cases hstart
    · exact hrest hfold hmem

/-- **No carriage return** in the text of a value that was read. -/
theorem cr_not_mem_renderIndent {j : PyJson} (h : Loadable F j) : ∀ n, '\r' ∉ renderIndent n j := by
  induction h with
  | const k =>
    intro n
    rw [renderIndent]
    cases k <;> decide
  | int i hi => exact fun n => Json.cr_not_mem_int i
  | float text htext _ =>
    intro n
    rcases floatNumeral_iff.1 htext with hof | hof
    · exact cr_not_mem_numeral hof
    · exact cr_not_mem_numeral hof
  | str s _ => exact fun n => cr_not_mem_renderStr s
  | arr items _ ih =>
    intro n
    have hitems : ∀ {js : List PyJson}, (∀ j ∈ js, ∀ n, '\r' ∉ renderIndent n j) → ∀ n,
        '\r' ∉ renderIndentItems n js := by
      intro js
      induction js with
      | nil => exact fun _ _ => List.not_mem_nil
      | cons j js ihjs =>
        intro hjs n
        have hj := hjs j List.mem_cons_self n
        have hrest := ihjs (fun i hi => hjs i (List.mem_cons_of_mem j hi)) n
        have hline := Json.cr_not_mem_newline n
        simp [renderIndentItems, hj, hrest, hline]
    cases items with
    | nil =>
      rw [renderIndent]
      decide
    | cons j js =>
      have hj := ih j List.mem_cons_self (n + 2)
      have hrest := hitems (fun i hi => ih i (List.mem_cons_of_mem j hi)) (n + 2)
      have hline := Json.cr_not_mem_newline n
      have hline2 := Json.cr_not_mem_newline (n + 2)
      simp [renderIndent, hj, hrest, hline, hline2]
  | obj fields _ _ _ ih =>
    intro n
    have hfields : ∀ {fs : List (List ℕ × PyJson)}, (∀ f ∈ fs, ∀ n, '\r' ∉ renderIndent n f.2) → ∀ n,
        '\r' ∉ renderIndentFields n fs := by
      intro fs
      induction fs with
      | nil => exact fun _ _ => List.not_mem_nil
      | cons f fs ihfs =>
        intro hfs n
        have hf := hfs f List.mem_cons_self n
        have hkey := cr_not_mem_renderStr f.1
        have hrest := ihfs (fun g hg => hfs g (List.mem_cons_of_mem f hg)) n
        have hline := Json.cr_not_mem_newline n
        simp [renderIndentFields, hf, hkey, hrest, hline]
    cases fields with
    | nil =>
      rw [renderIndent]
      decide
    | cons f fs =>
      have hf := ih f List.mem_cons_self (n + 2)
      have hkey := cr_not_mem_renderStr f.1
      have hrest := hfields (fun g hg => ih g (List.mem_cons_of_mem f hg)) (n + 2)
      have hline := Json.cr_not_mem_newline n
      have hline2 := Json.cr_not_mem_newline (n + 2)
      simp [renderIndent, hf, hkey, hrest, hline, hline2]

end Vellum.PyJson
