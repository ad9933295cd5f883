import Mathlib.Data.List.Infix
import Vellum.Lib.Dict

/-!
# Searching a text

`needle in text`, and `str.lower` with the tables of Unicode as a parameter, of which only ASCII is
known. A needle that cannot begin at the end of a fixed beginning is found in the rest or nowhere.

* `infix_append_of_apart`: a fixed beginning does not show.
* `infix_strip_iff`: white space around a text does not show.
* `lower_infix`: an ASCII word stays where it is, in lower case.
-/

namespace Vellum

/-- `needle in text`. -/
def isIn (needle text : String) : Bool := needle.toList <:+: text.toList

section Infix

variable {α : Type} {m p x l : List α}

/-- No part at the end of `p` is the beginning of `m`, nor the other way round. -/
def Apart (p m : List α) : Prop := ∀ s ∈ p.tails, s ≠ [] → ¬ s <+: m ∧ ¬ m <+: s

instance [DecidableEq α] (p m : List α) : Decidable (Apart p m) := by
  unfold Apart
  infer_instance

/-- **A beginning that the needle keeps apart from does not show.** -/
theorem infix_append_of_apart (h : Apart p m) : m <:+: p ++ x ↔ m <:+: x := by
  constructor
  · intro hm
    induction p with
    | nil => exact hm
    | cons a p ih =>
      have htail : Apart p m := by
        intro s hs
        apply h
        rw [List.tails_cons]
        exact List.mem_cons_of_mem _ hs
      rw [List.cons_append, List.infix_cons_iff] at hm
      rcases hm with hpre | hin
      · have hself := h (a :: p) ((List.mem_tails _ _).2 (List.suffix_refl _)) (List.cons_ne_nil _ _)
        rcases List.prefix_or_prefix_of_prefix (List.prefix_append (a :: p) x) hpre with hle | hle
        · exact absurd hle hself.1
        · exact absurd hle hself.2
      · exact ih htail hin
  · exact fun hm => hm.trans (List.suffix_append p x).isInfix

/-- A needle that does not begin with what is dropped stays in the text. -/
theorem infix_dropWhile {p : α → Bool} (h : ∃ c ∈ m.head?, p c = false) : m <:+: l.dropWhile p ↔ m <:+: l := by
  constructor
  · exact fun hm => hm.trans (List.dropWhile_suffix p).isInfix
  · intro hm
    induction l with
    | nil => exact hm
    | cons a l ih =>
      by_cases ha : p a = true
      · rw [List.dropWhile_cons_of_pos ha]
        apply ih
        rw [List.infix_cons_iff] at hm
        refine hm.resolve_left ?_
        intro hpre
        obtain ⟨c, hc, hpc⟩ := h
        obtain ⟨r, hr⟩ := hpre
        cases m with
        | nil => cases hc
        | cons b m =>
          obtain ⟨rfl, -⟩ := List.cons.inj hr
          rw [Option.mem_some.1 hc, hpc] at ha
          cases ha
      · rw [List.dropWhile_cons_of_neg ha]
        exact hm

end Infix

/-- White space around a text does not show to a needle that has none at its ends. -/
theorem infix_strip_iff {m : List Char} {text : String} (hhead : ∃ c ∈ m.head?, isSpace c = false)
    (hlast : ∃ c ∈ m.getLast?, isSpace c = false) : m <:+: (strip text).toList ↔ m <:+: text.toList := by
  have hreverse : ∃ c ∈ m.reverse.head?, isSpace c = false := by
    rw [List.head?_reverse]
    exact hlast
  unfold strip
  rw [String.toList_ofList, ← List.reverse_infix, List.reverse_reverse, infix_dropWhile hreverse, List.reverse_infix,
    infix_dropWhile hhead]

/-! ## `str.lower` -/

/-- The tables of Unicode: the lower case of a character, and what the rule for the final sigma asks. -/
structure CaseTable where
  lower : Char → List Char
  cased : Char → Bool
  ignorable : Char → Bool
  ascii : ∀ c : Char, c.toNat < 128 → lower c = [c.toLower]

namespace CaseTable

variable (T : CaseTable)

/-- A capital sigma behind a letter and before none. -/
def finalSigma (before after : List Char) : Bool :=
  (before.dropWhile T.ignorable).head?.any T.cased && !(after.dropWhile T.ignorable).head?.any T.cased

/-- The lower case of a text, with what stands before it in reverse. -/
def lowerFrom (before : List Char) : List Char → List Char
  | [] => []
  | c :: cs =>
    (if c = 'Σ' then [if T.finalSigma before cs then 'ς' else 'σ'] else T.lower c) ++ lowerFrom (c :: before) cs

/-- `text.lower()`. -/
def lowerText (text : String) : String := String.ofList (T.lowerFrom [] text.toList)

variable {T} {before l r : List Char}

/-- A part of ASCII is lowered by itself. -/
theorem lowerFrom_ascii (h : ∀ c ∈ l, c.toNat < 128) :
    T.lowerFrom before (l ++ r) = l.map Char.toLower ++ T.lowerFrom (l.reverse ++ before) r := by
  induction l generalizing before with
  | nil => rfl
  | cons c l ih =>
    have hc := h c (List.mem_cons_self ..)
    have hne : c ≠ 'Σ' := by
      rintro rfl
      revert hc
      decide
    rw [List.cons_append, lowerFrom, if_neg hne, T.ascii c hc, ih fun c' hmem => h c' (List.mem_cons_of_mem _ hmem),
      List.map_cons, List.reverse_cons, List.append_assoc]
    rfl

/-- What stands before a part does not change where it goes. -/
theorem lowerFrom_append : ∃ l', T.lowerFrom before (l ++ r) = l' ++ T.lowerFrom (l.reverse ++ before) r := by
  induction l generalizing before with
  | nil => exact ⟨[], rfl⟩
  | cons c l ih =>
    obtain ⟨l', hl'⟩ := @ih (c :: before)
    refine ⟨(if c = 'Σ' then [if T.finalSigma before (l ++ r) then 'ς' else 'σ'] else T.lower c) ++ l', ?_⟩
    rw [List.cons_append, lowerFrom, hl', List.reverse_cons, List.append_assoc, List.append_assoc]
    rfl

/-- **An ASCII word in a text** is in its lower case too, in lower case. -/
theorem lower_infix {m : List Char} {text : String} (hascii : ∀ c ∈ m, c.toNat < 128) (h : m <:+: text.toList) :
    m.map Char.toLower <:+: (T.lowerText text).toList := by
  obtain ⟨l, r, heq⟩ := h
  unfold lowerText
  rw [String.toList_ofList, ← heq, List.append_assoc]
  obtain ⟨l', hl'⟩ := @lowerFrom_append T [] l (m ++ r)
  rw [hl', lowerFrom_ascii hascii]
  exact ⟨l', _, List.append_assoc ..⟩

theorem lowerText_ascii {text : String} (h : ∀ c ∈ text.toList, c.toNat < 128) :
    T.lowerText text = String.ofList (text.toList.map Char.toLower) := by
  have happend := @lowerFrom_ascii T [] text.toList [] h
  rw [List.append_nil] at happend
  unfold lowerText
  rw [happend]
  unfold lowerFrom
  rw [List.append_nil]

end CaseTable

end Vellum
