import Vellum.Lib.JsonRoundTrip

/-!
# What `json.dumps` wrote on one line

The values that this development builds are read back as they are (`loads_render`), whatever blanks
stand behind the commas and the colons: sorting the keys is all that a trip through such a text does to
a value.

* `Json.toPy`, `PyJson.toJson?`: a value as the decoder gives it, and back.
* `Readable`: what the decoder can read. No key stands twice, and no number is too long.
-/

namespace Vellum

open PySource

namespace Json

/-- A float is decoded to itself, or to one of the three constants. -/
def floatToPy (text : List Char) : PyJson :=
  if text = "NaN".toList then .const .nan
  else if text = "Infinity".toList then .const .infinity
  else if text = "-Infinity".toList then .const .negInfinity
  else .float text

mutual

/-- A value as the decoder gives it. -/
def toPy : Json → PyJson
  | null => .const .null
  | bool true => .const .true
  | bool false => .const .false
  | int i => .int i
  | float f => floatToPy f.text
  | str s => .str (PyJson.ofString s)
  | arr items => .arr (toPyItems items)
  | obj fields => .obj (toPyFields fields)

def toPyItems : List Json → List PyJson
  | [] => []
  | j :: js => toPy j :: toPyItems js

def toPyFields : List (String × Json) → List (List ℕ × PyJson)
  | [] => []
  | (k, v) :: fs => (PyJson.ofString k, toPy v) :: toPyFields fs

end

theorem toPyFields_eq (l : List (String × Json)) : toPyFields l = l.map fun f => (PyJson.ofString f.1, toPy f.2) := by
  induction l with
  | nil => rfl
  | cons f fs ih => rw [toPyFields, ih, List.map_cons]

end Json

namespace PyJson

/-- The text of code points, if none of them is a surrogate. -/
def toString? (s : List ℕ) : Option String :=
  if s.all fun n => n < 0xd800 || 0xe000 ≤ n && n < 0x110000 then some (String.ofList (s.map Char.ofNat)) else none

def floatToJson? (text : List Char) : Option Json :=
  if h : floatText text = true then some (.float ⟨text, h⟩) else none

mutual

/-- A decoded value, if every text in it is one of this development. -/
def toJson? : PyJson → Option Json
  | const .null => some .null
  | const .true => some (.bool true)
  | const .false => some (.bool false)
  | const .nan => floatToJson? "NaN".toList
  | const .infinity => floatToJson? "Infinity".toList
  | const .negInfinity => floatToJson? "-Infinity".toList
  | int i => some (.int i)
  | float text => floatToJson? text
  | str s => (toString? s).map .str
  | arr items => (toJsonItems? items).map .arr
  | obj fields => (toJsonFields? fields).map .obj

def toJsonItems? : List PyJson → Option (List Json)
  | [] => some []
  | j :: js => do
    let j ← toJson? j
    let js ← toJsonItems? js
    return j :: js

def toJsonFields? : List (List ℕ × PyJson) → Option (List (String × Json))
  | [] => some []
  | (k, v) :: fs => do
    let k ← toString? k
    let v ← toJson? v
    let fs ← toJsonFields? fs
    return (k, v) :: fs

end

theorem toString?_ofString (s : String) : toString? (ofString s) = some s := by
  have hall : (ofString s).all (fun n => n < 0xd800 || 0xe000 ≤ n && n < 0x110000) = true := by
    rw [List.all_eq_true]
    intro n hn
    obtain ⟨c, -, rfl⟩ := List.mem_map.1 hn
    have hvalid : c.toNat < 0xd800 ∨ 0xdfff < c.toNat ∧ c.toNat < 0x110000 := c.valid
    simp only [Bool.or_eq_true, Bool.and_eq_true, decide_eq_true_eq]
    omega
  have hback : (ofString s).map Char.ofNat = s.toList := by
    rw [ofString, codes, List.map_map]
    exact (List.map_congr_left fun c _ => Char.ofNat_toNat c).trans (List.map_id _)
  rw [toString?, if_pos hall, hback, String.ofList_toList]

theorem floatToJson?_toPy (f : PyFloat) : (Json.floatToPy f.text).toJson? = some (.float f) := by
  have hback : ∀ {text}, f.text = text → floatToJson? text = some (.float f) := by
    rintro text rfl
    exact dif_pos f.wf
  unfold Json.floatToPy
  split_ifs with h1 h2 h3
  · exact hback h1
  · exact hback h2
  · exact hback h3
  · exact hback rfl

/-- **A value is what it was before**, by induction on it. -/
theorem toJson?_toPy (j : Json) : j.toPy.toJson? = some j := by
  induction j with
  | null => rfl
  | bool b => cases b <;> rfl
  | int i => rfl
  | float f => exact floatToJson?_toPy f
  | str s =>
    rw [Json.toPy, toJson?, toString?_ofString]
    rfl
  | arr l ih =>
    have hitems : ∀ {l : List Json}, (∀ j ∈ l, j.toPy.toJson? = some j) → toJsonItems? (Json.toPyItems l) = some l := by
      intro l h
      induction l with
      | nil => rfl
      | cons j js ihl =>
        rw [Json.toPyItems, toJsonItems?, h j (by simp), ihl fun i hi => h i (List.mem_cons_of_mem j hi)]
        rfl
    rw [Json.toPy, toJson?, hitems ih]
    rfl
  | obj l ih =>
    have hfields : ∀ {l : List (String × Json)}, (∀ f ∈ l, f.2.toPy.toJson? = some f.2) →
        toJsonFields? (Json.toPyFields l) = some l := by
      intro l h
      induction l with
      | nil => rfl
      | cons f fs ihl =>
        rw [Json.toPyFields, toJsonFields?, toString?_ofString, h f (by simp),
          ihl fun g hg => h g (List.mem_cons_of_mem f hg)]
        rfl
    rw [Json.toPy, toJson?, hfields ih]
    rfl

variable {F : FloatReader} {stack : List Frame} {v : PyJson} {m m' : Machine} {c : Char} {text cs : List Char}
  {fields : List (List ℕ × PyJson)} {key : List ℕ} {close : Bool}

/-! ## Values that can be read -/

/-- A float whose text is read as the same float. -/
def ReadableFloat (F : FloatReader) (f : PyFloat) : Prop :=
  f.text = "NaN".toList ∨ f.text = "Infinity".toList ∨ f.text = "-Infinity".toList ∨
    floatNumeral f.text = true ∧ F.read f.text = float f.text

/-- A value that `json.dumps` writes and `json.loads` reads. -/
inductive Readable (F : FloatReader) : Json → Prop where
  | null : Readable F .null
  | bool (b : Bool) : Readable F (.bool b)
  | int (i : ℤ) (h : i.natAbs < 10 ^ maxStrDigits) : Readable F (.int i)
  | float (f : PyFloat) (h : ReadableFloat F f) : Readable F (.float f)
  | str (s : String) : Readable F (.str s)
  | arr (items : List Json) (h : ∀ j ∈ items, Readable F j) : Readable F (.arr items)
  | obj (fields : List (String × Json)) (hnd : (fields.map Prod.fst).Nodup) (h : ∀ f ∈ fields, Readable F f.2) :
      Readable F (.obj fields)

mutual

/-- No floats, no integer of twenty digits and no key twice: that can be read without more ado. -/
def plain : Json → Bool
  | .null | .bool _ | .str _ => true
  | .int i => i.natAbs < 10 ^ 19
  | .float _ => false
  | .arr items => plainItems items
  | .obj fields => (fields.map Prod.fst).Nodup && plainFields fields

def plainItems : List Json → Bool
  | [] => true
  | j :: js => plain j && plainItems js

def plainFields : List (String × Json) → Bool
  | [] => true
  | (_, v) :: fields => plain v && plainFields fields

end

theorem readable_of_plain {j : Json} (h : plain j = true) : Readable F j := by
  induction j with
  | null => exact .null
  | bool b => exact .bool b
  | int i =>
    have hlt : i.natAbs < 10 ^ 19 := of_decide_eq_true h
    have hle : (10 : ℕ) ^ 19 ≤ 10 ^ maxStrDigits := Nat.pow_le_pow_right (by norm_num) (by decide)
    exact .int i (lt_of_lt_of_le hlt hle)
  | float f => cases h
  | str s => exact .str s
  | arr items ih =>
    have hitems : ∀ l : List Json, plainItems l = true → ∀ j ∈ l, plain j = true := by
      intro l hl
      induction l with
      | nil => exact List.forall_mem_nil _
      | cons j js ihl =>
        rw [plainItems, Bool.and_eq_true] at hl
        exact List.forall_mem_cons.2 ⟨hl.1, ihl hl.2⟩
    exact .arr items fun j hj => ih j hj (hitems items h j hj)
  | obj fields ih =>
    have hfields : ∀ l : List (String × Json), plainFields l = true → ∀ f ∈ l, plain f.2 = true := by
      intro l hl
      induction l with
      | nil => exact List.forall_mem_nil _
      | cons f fs ihl =>
        rw [plainFields, Bool.and_eq_true] at hl
        exact List.forall_mem_cons.2 ⟨hl.1, ihl hl.2⟩
    rw [plain, Bool.and_eq_true, decide_eq_true_eq] at h
    exact .obj fields h.1 fun f hf => ih f hf (hfields fields h.2 f hf)

/-! ## Running over a value -/

/-- **A value stands complete**: what may follow it ends it, and so does the end of the text. -/
structure Complete (F : FloatReader) (m : Machine) (stack : List Frame) (v : PyJson) : Prop where
  closes : ∀ c ∈ [',', ']', '\x7d'], step F m c = afterStep stack v c
  finishes : stack = [] → finish F m = .ok v

theorem complete_after : Complete F ⟨stack, .after v⟩ stack v := by
  refine ⟨fun _ _ => rfl, ?_⟩
  rintro rfl
  rfl

/-- A numeral that ends with the line ends before a bracket too. -/
theorem complete_number {st : Numeral} (h : Ends F ⟨stack, .number st text⟩ stack v) :
    Complete F ⟨stack, .number st text⟩ stack v := by
  have hline : (numeralEnd F st text).bind (fun v => afterStep stack v '\n') = .ok ⟨stack, .after v⟩ := by
    have hnext : st.next '\n' = none := by cases st <;> rfl
    have hstep := h.line
    unfold step numberStep at hstep
    simp only [hnext, Char.reduceEq, and_false, if_false] at hstep
    exact hstep
  have hend : numeralEnd F st text = .ok v := by
    cases hv : numeralEnd F st text with
    | error e =>
      rw [hv] at hline
      cases hline
    | ok w =>
      rw [hv] at hline
      have hafter : afterStep stack w '\n' = .ok ⟨stack, .after w⟩ := rfl
      rw [Except.bind, hafter] at hline
      injection hline with hline
      injection hline with _ hline
      injection hline with hline
      rw [hline]
  have hbracket : ∀ c ∈ [',', ']', '\x7d'], st.next c = none ∧ c ≠ 'I' := by
    intro c hc
    simp only [List.mem_cons, List.not_mem_nil, or_false] at hc
    rcases hc with rfl | rfl | rfl
    all_goals exact ⟨by cases st <;> rfl, by decide⟩
  refine ⟨fun c hc => ?_, ?_⟩
  · obtain ⟨hnext, hne⟩ := hbracket c hc
    unfold step numberStep
    simp only [hnext, hne, and_false, if_false, hend]
    rfl
  · rintro rfl
    exact hend

theorem ofText_int (i : ℤ) : ∃ st, Numeral.ofText i.repr.toList = some st := by
  obtain ⟨sign, htext, hsign⟩ := toList_int_repr i
  obtain ⟨c, cs, st, hdigits, -, hstart, hminus, hrest⟩ := ofText_toDigits i.natAbs
  refine ⟨st, ?_⟩
  rw [htext, hdigits]
  rcases hsign with ⟨rfl, -⟩ | ⟨rfl, -⟩
  · show (Numeral.start c).bind _ = some st
    rw [hstart]
    exact hrest
  · show (List.foldlM Numeral.next Numeral.minus (c :: cs)) = some st
    rw [List.foldlM_cons, hminus]
    exact hrest

/-- Of a numeral, the machine after it is known. -/
theorem complete_numeral (hof : ∃ st, Numeral.ofText text = some st)
    (h : ∃ m, run F ⟨stack, .value close⟩ text = .ok m ∧ Ends F m stack v) :
    ∃ m, run F ⟨stack, .value close⟩ text = .ok m ∧ Complete F m stack v := by
  obtain ⟨st, hst⟩ := hof
  obtain ⟨m, hrun, hends⟩ := h
  have hnumber := @run_numeral F stack text close st hst
  rw [hnumber] at hrun
  obtain rfl := Except.ok.inj hrun
  exact ⟨_, hnumber, complete_number hends⟩

/-- The text of a string is the text of its code points. -/
theorem renderStr_ofString (s : String) : renderStr (ofString s) = Json.renderStr s := by
  have hchar : ∀ c : Char, escapeCode c.toNat = Json.escapeChar c := by
    intro c
    have hvalid : c.toNat < 0xd800 ∨ 0xdfff < c.toNat ∧ c.toNat < 0x110000 := c.valid
    rw [escapeCode, if_neg (by omega), Char.ofNat_toNat]
  have hbody : (ofString s).flatMap escapeCode = Json.escape s.toList := by
    rw [ofString, codes, List.flatMap_map, Json.escape]
    exact List.flatMap_congr fun c _ => hchar c
  rw [renderStr, Json.renderStr, hbody]

/-- The blanks of a layout. -/
def Blank (p : Json.Separators) : Prop := p.afterComma.all blank = true ∧ p.afterColon.all blank = true

/-- Blanks before a value or a key. -/
theorem run_blanks (h : ∀ c, blank c = true → step F m c = .ok m) {bs : List Char} (hbs : bs.all blank = true) :
    run F m bs = .ok m := by
  induction bs with
  | nil => rfl
  | cons b bs ih =>
    rw [List.all_cons, Bool.and_eq_true] at hbs
    rw [run_step (h b hbs.1)]
    exact ih hbs.2

theorem run_value_blanks {bs : List Char} (h : bs.all blank = true) :
    run F ⟨stack, .value close⟩ bs = .ok ⟨stack, .value close⟩ := by
  refine run_blanks ?_ h
  intro c hc
  simp only [blank, Bool.decide_or, Bool.or_eq_true, decide_eq_true_eq] at hc
  rcases hc with rfl | rfl | rfl | rfl <;> rfl

theorem run_key_blanks {bs : List Char} (h : bs.all blank = true) :
    run F ⟨stack, .key fields close⟩ bs = .ok ⟨stack, .key fields close⟩ := by
  refine run_blanks ?_ h
  intro c hc
  unfold step keyStep
  simp only [if_pos hc]

variable {p : Json.Separators}

/-- A value that is read wherever it is written. -/
def ReadsInline (F : FloatReader) (p : Json.Separators) (j : Json) : Prop := ∀ stack close,
  ∃ m, run F ⟨stack, .value close⟩ (j.render p) = .ok m ∧ Complete F m stack j.toPy

/-- The items after the first. -/
theorem run_inline_items (hp : Blank p) {items : List PyJson} : ∀ {js done v m}, (∀ j ∈ js, ReadsInline F p j) →
    Complete F m (.arr done :: stack) v → items = done ++ v :: Json.toPyItems js →
    ∃ m' done' w, run F m (Json.renderItems p js) = .ok m' ∧ Complete F m' (.arr done' :: stack) w ∧
      items = done' ++ [w] := by
  intro js
  induction js with
  | nil => exact fun {done v m} _ hm hitems => ⟨m, done, v, rfl, hm, hitems⟩
  | cons j js ih =>
    intro done v m hjs hm hitems
    have hcomma : step F m ',' = .ok ⟨.arr (done ++ [v]) :: stack, .value false⟩ := hm.closes ',' (by simp)
    obtain ⟨m1, hrun, hdone⟩ := hjs j List.mem_cons_self (.arr (done ++ [v]) :: stack) false
    obtain ⟨m2, done', w, hrest, hdone', hlast⟩ := ih (fun i hi => hjs i (List.mem_cons_of_mem j hi)) hdone
      (by rw [hitems, Json.toPyItems, List.append_assoc, List.singleton_append])
    refine ⟨m2, done', w, ?_, hdone', hlast⟩
    rw [Json.renderItems, List.cons_append, run_step hcomma, List.append_assoc, run_after (run_value_blanks hp.1),
      run_after hrun]
    exact hrest

/-- A key and its value. -/
theorem run_inline_field (hp : Blank p) {k : String} {j : Json} (hj : ReadsInline F p j) :
    ∃ m, run F ⟨stack, .key fields close⟩ (Json.renderStr k ++ ':' :: (p.afterColon ++ j.render p)) = .ok m ∧
      Complete F m (.obj fields (ofString k) :: stack) j.toPy := by
  obtain ⟨m, hrun, hdone⟩ := hj (.obj fields (ofString k) :: stack) false
  have hquote : step F ⟨stack, .key fields close⟩ '"' = .ok ⟨stack, .str (some fields) [] .no⟩ := rfl
  have hkey : run F ⟨stack, .key fields close⟩ (Json.renderStr k) = .ok ⟨stack, .colon fields (ofString k)⟩ := by
    rw [← renderStr_ofString, run_renderStr (joined_ofString k) hquote]
    show Except.ok (⟨stack, .colon fields (ofString k).reverse.reverse⟩ : Machine) = _
    rw [List.reverse_reverse]
  have hcolon : step F ⟨stack, .colon fields (ofString k)⟩ ':' =
      .ok ⟨.obj fields (ofString k) :: stack, .value false⟩ :=
    rfl
  refine ⟨m, ?_, hdone⟩
  rw [run_after hkey, run_step hcolon, run_after (run_value_blanks hp.2)]
  exact hrun

/-- The fields after the first. No key stands twice, so each is added at the end. -/
theorem run_inline_fields (hp : Blank p) {all : List (List ℕ × PyJson)} (hnd : (all.map Prod.fst).Nodup) :
    ∀ {fs done k v m}, (∀ f ∈ fs, ReadsInline F p f.2) →
      Complete F m (.obj done k :: stack) v → all = done ++ (k, v) :: Json.toPyFields fs →
      ∃ m' done' k' w, run F m (Json.renderFields p fs) = .ok m' ∧ Complete F m' (.obj done' k' :: stack) w ∧
        all = setField done' k' w := by
  intro fs
  have hnew : ∀ {done k v fs}, all = done ++ (k, v) :: fs → setField done k v = done ++ [(k, v)] := by
    intro done k v fs hall
    apply setField_new
    intro hk
    rw [hall, List.map_append, List.map_cons, List.nodup_append] at hnd
    exact hnd.2.2 k hk k List.mem_cons_self rfl
  induction fs with
  | nil => exact fun {done k v m} _ hm hall => ⟨m, done, k, v, rfl, hm, by rw [hall, hnew hall]; rfl⟩
  | cons f fs ih =>
    intro done k v m hfs hm hall
    have hcomma : step F m ',' = .ok ⟨stack, .key (done ++ [(k, v)]) false⟩ := by
      rw [← hnew hall]
      exact hm.closes ',' (by simp)
    obtain ⟨m1, hrun, hdone⟩ := @run_inline_field F stack (done ++ [(k, v)]) false p hp f.1 f.2
      (hfs f List.mem_cons_self)
    obtain ⟨m2, done', k', w, hrest, hdone', hlast⟩ := ih (fun g hg => hfs g (List.mem_cons_of_mem f hg)) hdone
      (by rw [hall, Json.toPyFields, List.append_assoc, List.singleton_append])
    refine ⟨m2, done', k', w, ?_, hdone', hlast⟩
    rw [Json.renderFields, List.cons_append, run_step hcomma, List.append_assoc, List.append_assoc,
      run_after (run_key_blanks hp.1), ← List.append_assoc, run_after hrun]
    exact hrest

theorem keys_toPyFields {l : List (String × Json)} (h : (l.map Prod.fst).Nodup) :
    ((Json.toPyFields l).map Prod.fst).Nodup := by
  have hkeys : (Json.toPyFields l).map Prod.fst = (l.map Prod.fst).map ofString := by
    rw [Json.toPyFields_eq, List.map_map, List.map_map]
    rfl
  rw [hkeys]
  exact h.map fun _ _ => ofString_inj

theorem run_inline_float {f : PyFloat} (h : ReadableFloat F f) :
    ∃ m, run F ⟨stack, .value close⟩ f.text = .ok m ∧ Complete F m stack (Json.floatToPy f.text) := by
  rcases h with h | h | h | ⟨hnumeral, hread⟩
  · rw [h]
    exact ⟨_, run_const .nan, complete_after⟩
  · rw [h]
    exact ⟨_, run_const .infinity, complete_after⟩
  · rw [h]
    exact ⟨_, run_const .negInfinity, complete_after⟩
  · have hof : ∃ st, Numeral.ofText f.text = some st :=
      (floatNumeral_iff.1 hnumeral).elim (fun h => ⟨_, h⟩) fun h => ⟨_, h⟩
    have hname : ∀ {name : List Char}, Numeral.ofText name = none → f.text ≠ name := by
      intro name hnone heq
      obtain ⟨st, hst⟩ := hof
      rw [heq, hnone] at hst
      cases hst
    have hfloat : Json.floatToPy f.text = float f.text := by
      rw [Json.floatToPy, if_neg (hname (by decide)), if_neg (hname (by decide)), if_neg (hname (by decide))]
    rw [hfloat]
    exact complete_numeral hof (run_float hnumeral hread)

/-- **What can be read is read back**, by induction on it. -/
theorem readsInline_of_readable (hp : Blank p) {j : Json} (h : Readable F j) : ReadsInline F p j := by
  induction h with
  | null => exact fun stack close => ⟨_, run_const .null, complete_after⟩
  | bool b =>
    intro stack close
    cases b with
    | true => exact ⟨_, run_const .true, complete_after⟩
    | false => exact ⟨_, run_const .false, complete_after⟩
  | int i hi => exact fun stack close => complete_numeral (ofText_int i) (run_int hi)
  | float f hf => exact fun stack close => run_inline_float hf
  | str s =>
    intro stack close
    have hquote : step F ⟨stack, .value close⟩ '"' = .ok ⟨stack, .str none [] .no⟩ := rfl
    refine ⟨⟨stack, .after (str (ofString s))⟩, ?_, complete_after⟩
    rw [Json.render, ← renderStr_ofString, run_renderStr (joined_ofString s) hquote]
    show Except.ok (⟨stack, .after (str (ofString s).reverse.reverse)⟩ : Machine) = _
    rw [List.reverse_reverse]
  | arr items _ ih =>
    intro stack close
    refine ⟨⟨stack, .after (Json.arr items).toPy⟩, ?_, complete_after⟩
    have hopen : step F ⟨stack, .value close⟩ '[' = .ok ⟨.arr [] :: stack, .value true⟩ := rfl
    cases items with
    | nil => rfl
    | cons j js =>
      obtain ⟨m, hrun, hdone⟩ := ih j List.mem_cons_self (.arr [] :: stack) true
      obtain ⟨m', done, w, hrest, hdone', hlast⟩ :=
        @run_inline_items F stack p hp (Json.toPyItems (j :: js)) js [] j.toPy m
        (fun i hi => ih i (List.mem_cons_of_mem j hi)) hdone rfl
      have hclose : step F m' ']' = .ok ⟨stack, .after (Json.arr (j :: js)).toPy⟩ := by
        rw [hdone'.closes ']' (by simp), Json.toPy, hlast]
        rfl
      rw [Json.render, run_step hopen, List.append_assoc, run_after hrun, run_after hrest, run_step hclose, run_nil]
  | obj fields hnd _ ih =>
    intro stack close
    refine ⟨⟨stack, .after (Json.obj fields).toPy⟩, ?_, complete_after⟩
    have hopen : step F ⟨stack, .value close⟩ '\x7b' = .ok ⟨stack, .key [] true⟩ := rfl
    cases fields with
    | nil => rfl
    | cons f fs =>
      obtain ⟨m, hrun, hdone⟩ := @run_inline_field F stack [] true p hp f.1 f.2 (ih f List.mem_cons_self)
      obtain ⟨m', done, k, w, hrest, hdone', hlast⟩ := @run_inline_fields F stack p hp (Json.toPyFields (f :: fs))
        (keys_toPyFields hnd) fs [] (ofString f.1) f.2.toPy m (fun g hg => ih g (List.mem_cons_of_mem f hg)) hdone rfl
      have hclose : step F m' '\x7d' = .ok ⟨stack, .after (Json.obj (f :: fs)).toPy⟩ := by
        rw [hdone'.closes '\x7d' (by simp), Json.toPy, hlast]
        rfl
      rw [Json.render, run_step hopen, List.append_assoc, run_after hrun, run_after hrest, run_step hclose, run_nil]

/-- **`json.loads` reads back what `json.dumps` wrote.** -/
theorem loads_render (hp : Blank p) {j : Json} (h : Readable F j) : loads F (j.render p) = .ok j.toPy := by
  obtain ⟨m, hrun, hdone⟩ := readsInline_of_readable hp h [] false
  rw [loads, hrun]
  exact hdone.finishes rfl

end PyJson

end Vellum
