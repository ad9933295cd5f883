import Mathlib.Algebra.Ring.Defs
import Mathlib.Data.List.Monad

/-!
# Reading arithmetic

Sums, differences and products as text, read the way a compiler reads them: a product binds tighter
than a sum, operators of one level group to the left, and brackets override both. The reader keeps
the sum, the product and the operand that are under way between two brackets, and a stack of those
outside.

* `read_tokens`: a tree is read back from its tokens, if its brackets stand where the reader needs them.
* `lex_text`: the tokens are read back from the text.
* `readText_text`: both together.
-/

namespace Vellum.Infix

variable {α β R : Type}

/-! ## Trees and tokens -/

inductive Expr (α : Type) where
  | atom (a : α)
  | add (a b : Expr α)
  | sub (a b : Expr α)
  | mul (a b : Expr α)
  | paren (a : Expr α)
deriving DecidableEq

inductive Token (α : Type) where
  | atom (a : α)
  | plus | minus | times | opening | closing
deriving DecidableEq

namespace Expr

def tokens : Expr α → List (Token α)
  | atom a => [.atom a]
  | add a b => a.tokens ++ .plus :: b.tokens
  | sub a b => a.tokens ++ .minus :: b.tokens
  | mul a b => a.tokens ++ .times :: b.tokens
  | paren a => .opening :: (a.tokens ++ [.closing])

def map (f : α → β) : Expr α → Expr β
  | atom a => .atom (f a)
  | add a b => .add (a.map f) (b.map f)
  | sub a b => .sub (a.map f) (b.map f)
  | mul a b => .mul (a.map f) (b.map f)
  | paren a => .paren (a.map f)

def atoms : Expr α → List α
  | atom a => [a]
  | add a b | sub a b | mul a b => a.atoms ++ b.atoms
  | paren a => a.atoms

/-- The value of a tree, its atoms given. -/
def eval [Ring R] (env : α → R) : Expr α → R
  | atom a => env a
  | add a b => a.eval env + b.eval env
  | sub a b => a.eval env - b.eval env
  | mul a b => a.eval env * b.eval env
  | paren a => a.eval env

/-- How tightly a tree is bound: a sum, a product, or what stands alone. -/
def level : Expr α → ℕ
  | add _ _ | sub _ _ => 0
  | mul _ _ => 1
  | atom _ | paren _ => 2

/-- Brackets stand around every operand that is bound less tightly than its operator, and around a
right operand that is bound as tightly. -/
def Bracketed : Expr α → Prop
  | atom _ => True
  | add a b | sub a b => a.Bracketed ∧ b.Bracketed ∧ 1 ≤ b.level
  | mul a b => a.Bracketed ∧ b.Bracketed ∧ 1 ≤ a.level ∧ b.level = 2
  | paren a => a.Bracketed

theorem level_map (f : α → β) (e : Expr α) : (e.map f).level = e.level := by
  cases e <;> rfl

theorem bracketed_map (f : α → β) {e : Expr α} (h : e.Bracketed) : (e.map f).Bracketed := by
  induction e with
  | atom a => trivial
  | add a b iha ihb | sub a b iha ihb =>
    obtain ⟨ha, hb, hl⟩ := h
    exact ⟨iha ha, ihb hb, by rwa [level_map]⟩
  | mul a b iha ihb =>
    obtain ⟨ha, hb, hl, hr⟩ := h
    exact ⟨iha ha, ihb hb, by rwa [level_map], by rwa [level_map]⟩
  | paren a ih => exact ih h

end Expr

/-! ## The reader -/

/-- What is under way between two brackets: a sum with the operator behind it, a product, an operand. -/
structure Frame (α : Type) where
  sum : Option (Token α × Expr α)
  product : Option (Expr α)
  operand : Option (Expr α)

namespace Frame

/-- The product that ends with an operand. -/
def term (f : Frame α) (x : Expr α) : Expr α :=
  match f.product with
  | some p => .mul p x
  | none => x

/-- The sum that ends with an operand. -/
def total (f : Frame α) (x : Expr α) : Expr α :=
  match f.sum with
  | some (.plus, s) => .add s (f.term x)
  | some (_, s) => .sub s (f.term x)
  | none => f.term x

end Frame

/-- A frame, and those outside of its brackets. -/
structure Reader (α : Type) where
  frame : Frame α
  outer : List (Frame α)

namespace Reader

def start : Reader α := ⟨⟨none, none, none⟩, []⟩

/-- One token: an operand where one is expected, an operator or a closing bracket behind one. -/
def step (s : Reader α) (t : Token α) : Option (Reader α) :=
  match s.frame.operand, t with
  | none, .atom a => some ⟨{ s.frame with operand := some (.atom a) }, s.outer⟩
  | none, .opening => some ⟨⟨none, none, none⟩, s.frame :: s.outer⟩
  | some x, .times => some ⟨⟨s.frame.sum, some (s.frame.term x), none⟩, s.outer⟩
  | some x, .plus => some ⟨⟨some (.plus, s.frame.total x), none, none⟩, s.outer⟩
  | some x, .minus => some ⟨⟨some (.minus, s.frame.total x), none, none⟩, s.outer⟩
  | some x, .closing =>
    match s.outer with
    | f :: outer => some ⟨{ f with operand := some (.paren (s.frame.total x)) }, outer⟩
    | [] => none
  | _, _ => none

def run (s : Reader α) (ts : List (Token α)) : Option (Reader α) := ts.foldlM step s

theorem run_append (s : Reader α) (ts us : List (Token α)) :
    s.run (ts ++ us) = (s.run ts).bind fun s => s.run us := List.foldlM_append

theorem run_cons (s : Reader α) (t : Token α) (ts : List (Token α)) :
    s.run (t :: ts) = (s.step t).bind fun s => s.run ts := rfl

/-- The tree, once all brackets are closed. -/
def result (s : Reader α) : Option (Expr α) :=
  match s.outer with
  | [] => s.frame.operand.map s.frame.total
  | _ => none

end Reader

/-- The tree of a list of tokens. -/
def read (ts : List (Token α)) : Option (Expr α) := (Reader.start.run ts).bind Reader.result

/-- What reading a tree does to the frame that it is read in: behind it stands an operand `x` that
completes the tree, at the level of the tree. -/
structure Completes (e : Expr α) (sum : Option (Token α × Expr α)) (product : Option (Expr α)) (f : Frame α)
    (x : Expr α) : Prop where
  operand : f.operand = some x
  total : f.total x = (⟨sum, product, none⟩ : Frame α).total e
  term : 1 ≤ e.level → f.sum = sum ∧ f.term x = (⟨sum, product, none⟩ : Frame α).term e
  alone : e.level = 2 → f = ⟨sum, product, some e⟩ ∧ x = e

/-- **A tree is read** in a frame that has no tighter operator waiting, by induction on the tree. -/
theorem run_tokens {e : Expr α} (h : e.Bracketed) (sum : Option (Token α × Expr α)) (product : Option (Expr α))
    (outer : List (Frame α)) (hsum : sum ≠ none → 1 ≤ e.level) (hproduct : product ≠ none → e.level = 2) :
    ∃ f x, Reader.run ⟨⟨sum, product, none⟩, outer⟩ e.tokens = some ⟨f, outer⟩ ∧ Completes e sum product f x := by
  induction e generalizing sum product outer with
  | atom a => exact ⟨_, _, rfl, rfl, rfl, fun _ => ⟨rfl, rfl⟩, fun _ => ⟨rfl, rfl⟩⟩
  | add a b iha ihb =>
    obtain ⟨ha, hb, hl⟩ := h
    obtain rfl : sum = none := not_not.1 fun hne => absurd (hsum hne) (by simp [Expr.level])
    obtain rfl : product = none := not_not.1 fun hne => absurd (hproduct hne) (by simp [Expr.level])
    obtain ⟨f, x, hrun, hf⟩ := iha ha none none outer nofun nofun
    obtain ⟨g, y, hrun', hg⟩ := ihb hb (some (.plus, a)) none outer (fun _ => hl) nofun
    have htotal : f.total x = a := hf.total
    refine ⟨g, y, ?_, hg.operand, hg.total, by simp [Expr.level], by simp [Expr.level]⟩
    rw [Expr.tokens, Reader.run_append, hrun, Option.bind_some, Reader.run_cons]
    simp only [Reader.step, hf.operand, htotal]
    exact hrun'
  | sub a b iha ihb =>
    obtain ⟨ha, hb, hl⟩ := h
    obtain rfl : sum = none := not_not.1 fun hne => absurd (hsum hne) (by simp [Expr.level])
    obtain rfl : product = none := not_not.1 fun hne => absurd (hproduct hne) (by simp [Expr.level])
    obtain ⟨f, x, hrun, hf⟩ := iha ha none none outer nofun nofun
    obtain ⟨g, y, hrun', hg⟩ := ihb hb (some (.minus, a)) none outer (fun _ => hl) nofun
    have htotal : f.total x = a := hf.total
    refine ⟨g, y, ?_, hg.operand, hg.total, by simp [Expr.level], by simp [Expr.level]⟩
    rw [Expr.tokens, Reader.run_append, hrun, Option.bind_some, Reader.run_cons]
    simp only [Reader.step, hf.operand, htotal]
    exact hrun'
  | mul a b iha ihb =>
    obtain ⟨ha, hb, hl, hr⟩ := h
    obtain rfl : product = none := not_not.1 fun hne => absurd (hproduct hne) (by simp [Expr.level])
    obtain ⟨f, x, hrun, hf⟩ := iha ha sum none outer (fun _ => hl) nofun
    obtain ⟨hfsum, hfterm⟩ := hf.term hl
    have hterm : f.term x = a := hfterm
    obtain ⟨g, y, hrun', hg⟩ := ihb hb sum (some a) outer (fun _ => by omega) (fun _ => hr)
    obtain ⟨hgsum, hgterm⟩ := hg.term (by omega)
    refine ⟨g, y, ?_, hg.operand, hg.total, fun _ => ⟨hgsum, hgterm⟩, by simp [Expr.level]⟩
    rw [Expr.tokens, Reader.run_append, hrun, Option.bind_some, Reader.run_cons]
    simp only [Reader.step, hf.operand, hterm, hfsum]
    exact hrun'
  | paren a ih =>
    obtain ⟨f, x, hrun, hf⟩ := ih h none none (⟨sum, product, none⟩ :: outer) nofun nofun
    have htotal : f.total x = a := hf.total
    refine ⟨⟨sum, product, some (.paren a)⟩, .paren a, ?_, rfl, rfl, fun _ => ⟨rfl, rfl⟩, fun _ => ⟨rfl, rfl⟩⟩
    rw [Expr.tokens, Reader.run_cons]
    simp only [Reader.step, Option.bind_some]
    rw [Reader.run_append, hrun, Option.bind_some, Reader.run_cons]
    simp only [Reader.step, hf.operand, htotal]
    rfl

/-- **A bracketed tree is read back.** -/
theorem read_tokens {e : Expr α} (h : e.Bracketed) : read e.tokens = some e := by
  obtain ⟨f, x, hrun, hf⟩ := run_tokens h none none [] nofun nofun
  have htotal : f.total x = e := hf.total
  unfold read Reader.start
  rw [hrun, Option.bind_some]
  simp only [Reader.result, hf.operand, Option.map_some, htotal]

/-! ## Text -/

/-- The text of a tree, a blank on either side of an operator. -/
def Expr.text : Expr (List Char) → List Char
  | atom a => a
  | add a b => a.text ++ " + ".toList ++ b.text
  | sub a b => a.text ++ " - ".toList ++ b.text
  | mul a b => a.text ++ " * ".toList ++ b.text
  | paren a => '(' :: (a.text ++ [')'])

/-- A character read before tokens: an atom takes it if it is one of its characters. -/
def lexChar (wordChar : Char → Bool) (c : Char) (next : Option Char) (ts : List (Token (List Char))) :
    Option (List (Token (List Char))) :=
  if wordChar c then
    match next.any wordChar, ts with
    | true, .atom w :: ts => some (.atom (c :: w) :: ts)
    | _, ts => some (.atom [c] :: ts)
  else match c with
    | ' ' => some ts
    | '+' => some (.plus :: ts)
    | '-' => some (.minus :: ts)
    | '*' => some (.times :: ts)
    | '(' => some (.opening :: ts)
    | ')' => some (.closing :: ts)
    | _ => none

/-- The tokens of a text. -/
def lex (wordChar : Char → Bool) : List Char → Option (List (Token (List Char)))
  | [] => some []
  | c :: cs => (lex wordChar cs).bind (lexChar wordChar c cs.head?)

/-- The tree of a text. -/
def readText (wordChar : Char → Bool) (cs : List Char) : Option (Expr (List Char)) := (lex wordChar cs).bind read

variable {wordChar : Char → Bool}

theorem lexChar_word {c : Char} (h : wordChar c = true) (next : Option Char) (ts : List (Token (List Char))) :
    lexChar wordChar c next ts =
      match next.any wordChar, ts with
      | true, .atom w :: ts => some (.atom (c :: w) :: ts)
      | _, ts => some (.atom [c] :: ts) := by
  unfold lexChar
  rw [if_pos h]

/-- The characters of operators and brackets belong to no atom. -/
def Reserved (wordChar : Char → Bool) : Prop := ∀ c ∈ [' ', '+', '-', '*', '(', ')'], wordChar c = false

/-- An atom before something else. -/
theorem lex_atom {w : List Char} (hne : w ≠ []) (hw : w.all wordChar = true) {rest : List Char}
    {ts : List (Token (List Char))} (hrest : lex wordChar rest = some ts) (hnext : rest.head?.any wordChar = false) :
    lex wordChar (w ++ rest) = some (.atom w :: ts) := by
  induction w with
  | nil => exact absurd rfl hne
  | cons c w ih =>
    rw [List.all_cons, Bool.and_eq_true] at hw
    cases w with
    | nil =>
      rw [List.singleton_append, lex, hrest, Option.bind_some, lexChar_word hw.1, hnext]
    | cons d w =>
      have hd : wordChar d = true := by
        rw [List.all_cons, Bool.and_eq_true] at hw
        exact hw.2.1
      rw [List.cons_append, lex, ih (by simp) hw.2, Option.bind_some, lexChar_word hw.1, List.cons_append,
        List.head?_cons, Option.any_some, hd]

/-- A reserved character before something else. -/
theorem lex_symbol (hr : Reserved wordChar) {c : Char} {t : Token (List Char)}
    (hc : (c, t) ∈ [('+', Token.plus), ('-', .minus), ('*', .times), ('(', .opening), (')', .closing)])
    {rest : List Char} {ts : List (Token (List Char))} (hrest : lex wordChar rest = some ts) :
    lex wordChar (c :: rest) = some (t :: ts) := by
  simp only [List.mem_cons, Prod.mk.injEq, List.not_mem_nil, or_false] at hc
  rw [lex, hrest, Option.bind_some]
  unfold lexChar
  rcases hc with ⟨rfl, rfl⟩ | ⟨rfl, rfl⟩ | ⟨rfl, rfl⟩ | ⟨rfl, rfl⟩ | ⟨rfl, rfl⟩ <;> rw [hr _ (by simp)] <;> rfl

theorem lex_blank (hr : Reserved wordChar) {rest : List Char} {ts : List (Token (List Char))}
    (hrest : lex wordChar rest = some ts) : lex wordChar (' ' :: rest) = some ts := by
  rw [lex, hrest, Option.bind_some]
  unfold lexChar
  rw [hr ' ' (by simp)]
  rfl

/-- **A text is read as the tokens it was written from**, whatever reserved character follows. -/
theorem lex_text_append (hr : Reserved wordChar) {e : Expr (List Char)}
    (hatoms : ∀ w ∈ e.atoms, w ≠ [] ∧ w.all wordChar = true) {rest : List Char} {ts : List (Token (List Char))}
    (hrest : lex wordChar rest = some ts) (hnext : rest.head?.any wordChar = false) :
    lex wordChar (e.text ++ rest) = some (e.tokens ++ ts) := by
  have hreserved : ∀ {c : Char} (cs : List Char), c ∈ [' ', '+', '-', '*', '(', ')'] →
      (c :: cs).head?.any wordChar = false := fun cs hc => by
    rw [List.head?_cons, Option.any_some, hr _ hc]
  induction e generalizing rest ts with
  | atom a =>
    obtain ⟨hne, hall⟩ := hatoms a (by simp [Expr.atoms])
    exact lex_atom hne hall hrest hnext
  | add a b iha ihb =>
    have hb := ihb (fun w hw => hatoms w (List.mem_append_right _ hw)) hrest hnext
    have hop := lex_blank hr (lex_symbol hr (c := '+') (t := .plus) (by simp) (lex_blank hr hb))
    have ha := iha (fun w hw => hatoms w (List.mem_append_left _ hw)) hop (hreserved _ (by simp))
    simpa [Expr.text, Expr.tokens] using ha
  | sub a b iha ihb =>
    have hb := ihb (fun w hw => hatoms w (List.mem_append_right _ hw)) hrest hnext
    have hop := lex_blank hr (lex_symbol hr (c := '-') (t := .minus) (by simp) (lex_blank hr hb))
    have ha := iha (fun w hw => hatoms w (List.mem_append_left _ hw)) hop (hreserved _ (by simp))
    simpa [Expr.text, Expr.tokens] using ha
  | mul a b iha ihb =>
    have hb := ihb (fun w hw => hatoms w (List.mem_append_right _ hw)) hrest hnext
    have hop := lex_blank hr (lex_symbol hr (c := '*') (t := .times) (by simp) (lex_blank hr hb))
    have ha := iha (fun w hw => hatoms w (List.mem_append_left _ hw)) hop (hreserved _ (by simp))
    simpa [Expr.text, Expr.tokens] using ha
  | paren a ih =>
    have hclose := lex_symbol hr (c := ')') (t := .closing) (by simp) hrest
    have ha := ih hatoms hclose (hreserved _ (by simp))
    have hopen := lex_symbol hr (c := '(') (t := .opening) (by simp) ha
    simpa [Expr.text, Expr.tokens] using hopen

theorem lex_text (hr : Reserved wordChar) {e : Expr (List Char)}
    (hatoms : ∀ w ∈ e.atoms, w ≠ [] ∧ w.all wordChar = true) : lex wordChar e.text = some e.tokens := by
  have hnil : lex wordChar [] = some [] := rfl
  have h := lex_text_append hr hatoms hnil rfl
  rwa [List.append_nil, List.append_nil] at h

/-- **A bracketed tree is read back from its text.** -/
theorem readText_text (hr : Reserved wordChar) {e : Expr (List Char)} (h : e.Bracketed)
    (hatoms : ∀ w ∈ e.atoms, w ≠ [] ∧ w.all wordChar = true) : readText wordChar e.text = some e := by
  rw [readText, lex_text hr hatoms, Option.bind_some, read_tokens h]

end Vellum.Infix
