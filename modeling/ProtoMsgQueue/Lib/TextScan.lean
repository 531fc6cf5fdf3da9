import Mathlib.Data.Bool.AllAny
import Mathlib.Data.List.DropRight
import Mathlib.Tactic.Common

/-!
# Searching and reading texts

A text is a list of characters. `find` is the search for a substring from a position on,
`trim` removes blanks at both ends, and `leadingInteger` is what the conversions of the C
library read at the front of a text: white space, a sign, digits.

`Avoids sub text rest` says that no occurrence of `sub` begins in the part `text` of
`text ++ rest`; it is what the positions in front of a first occurrence have in common, and it
splits over concatenations.
-/

namespace TextScan

section Find

variable {β : Type*} [DecidableEq β]

/-- The first position from `pos` on at which `sub` begins. -/
def find (text sub : List β) (pos : ℕ) : Option ℕ :=
  (List.range (text.length + 1)).find? fun i => pos ≤ i ∧ sub <+: text.drop i

variable {text sub rest : List β}

theorem find_eq_some_iff {pos i : ℕ} : find text sub pos = some i ↔
    (pos ≤ i ∧ sub <+: text.drop i) ∧ i ≤ text.length ∧
      ∀ j, pos ≤ j → j < i → ¬ sub <+: text.drop j := by
  simp only [find, List.find?_range_eq_some, List.mem_range, decide_eq_true_eq, Nat.lt_succ_iff,
    Bool.not_eq_true', decide_eq_false_iff_not, not_and]
  exact and_congr_right fun _ => and_congr_right fun _ =>
    ⟨fun h j hpos hj => h j hj hpos, fun h j hj hpos => h j hpos hj⟩

theorem find_eq_none_iff {pos : ℕ} : find text sub pos = none ↔
    ∀ j, pos ≤ j → j ≤ text.length → ¬ sub <+: text.drop j := by
  simp only [find, List.find?_range_eq_none, Bool.not_eq_true', decide_eq_false_iff_not, not_and,
    Nat.lt_succ_iff]
  exact ⟨fun h j hpos hj => h j hj hpos, fun h j hj hpos => h j hpos hj⟩

omit [DecidableEq β] in
/-- No occurrence of `sub` begins in the part `text` of `text ++ rest`. -/
def Avoids (sub text rest : List β) : Prop :=
  ∀ i < text.length, ¬ sub <+: (text ++ rest).drop i

omit [DecidableEq β] in
theorem avoids_nil : Avoids sub [] rest := fun _ hi => absurd hi (Nat.not_lt_zero _)

omit [DecidableEq β] in
theorem avoids_cons {c : β} : Avoids sub (c :: text) rest ↔
    ¬ sub <+: c :: (text ++ rest) ∧ Avoids sub text rest := by
  constructor
  · intro h
    exact ⟨h 0 (Nat.succ_pos _), fun i hi => h (i + 1) (Nat.succ_lt_succ hi)⟩
  · rintro ⟨hhead, htail⟩ i hi
    cases i with
    | zero => exact hhead
    | succ i => exact htail i (Nat.lt_of_succ_lt_succ hi)

omit [DecidableEq β] in
theorem avoids_append {text' : List β} : Avoids sub (text ++ text') rest ↔
    Avoids sub text (text' ++ rest) ∧ Avoids sub text' rest := by
  induction text with
  | nil => exact ⟨fun h => ⟨avoids_nil, h⟩, fun h => h.2⟩
  | cons c text ih =>
    rw [List.cons_append, avoids_cons, avoids_cons, ih, List.append_assoc, and_assoc]

omit [DecidableEq β] in
/-- An occurrence begins with the first character of `sub`. -/
theorem avoids_of_notMem {x : β} (h : x ∉ text) : Avoids (x :: sub) text rest := by
  induction text with
  | nil => exact avoids_nil
  | cons c text ih =>
    rw [List.mem_cons, not_or] at h
    exact avoids_cons.mpr ⟨fun hpre => h.1 (List.cons_prefix_cons.mp hpre).1, ih h.2⟩

/-- The search finds an occurrence that none in front of it precedes. -/
theorem find_append (skipped : List β) {before after : List β}
    (h : Avoids sub before (sub ++ after)) :
    find (skipped ++ (before ++ (sub ++ after))) sub skipped.length =
      some (skipped.length + before.length) := by
  refine find_eq_some_iff.mpr ⟨⟨Nat.le_add_right _ _, ?_⟩, ?_, fun j hpos hj => ?_⟩
  · rw [← List.append_assoc, ← List.length_append, List.drop_left]
    exact List.prefix_append _ _
  · simp only [List.length_append]
    omega
  · obtain ⟨i, rfl⟩ := Nat.exists_eq_add_of_le hpos
    rw [List.drop_length_add_append]
    exact h i (by omega)

theorem takeWhile_ne_append_cons {x : β} {before : List β} (h : x ∉ before) (after : List β) :
    (before ++ x :: after).takeWhile (· ≠ x) = before := by
  have hne : ∀ c ∈ before, decide (c ≠ x) = true := by
    intro c hc
    exact decide_eq_true (ne_of_mem_of_not_mem hc h)
  rw [List.takeWhile_append_of_pos hne, List.takeWhile_cons, if_neg (by simp), List.append_nil]

/-- The search for a character stops behind the part that is free of it. -/
theorem find_singleton {skipped : List β} {x : β} : find (skipped ++ text) [x] skipped.length =
    if x ∈ text then some (skipped.length + (text.takeWhile (· ≠ x)).length) else none := by
  split
  · next hx =>
    obtain ⟨before, after, rfl, hbefore⟩ := List.eq_append_cons_of_mem hx
    rw [takeWhile_ne_append_cons hbefore]
    exact find_append skipped (avoids_of_notMem hbefore)
  · next hx =>
    refine find_eq_none_iff.mpr fun j hpos _ hpre => hx ?_
    obtain ⟨i, rfl⟩ := Nat.exists_eq_add_of_le hpos
    rw [List.drop_length_add_append] at hpre
    exact List.mem_of_mem_drop (hpre.subset (List.mem_singleton_self x))

end Find

/-! ### Blanks -/

/-- A text without the blanks at both ends. -/
def trim (text : List Char) : List Char :=
  (text.dropWhile Char.isWhitespace).rdropWhile Char.isWhitespace

/-- What is left of a text without blanks between blanks is the text. -/
theorem trim_append {blanks text blanks' : List Char} (h : ∀ c ∈ blanks, c.isWhitespace = true)
    (htext : ∀ c ∈ text, c.isWhitespace = false) (h' : ∀ c ∈ blanks', c.isWhitespace = true) :
    trim (blanks ++ (text ++ blanks')) = text := by
  rw [trim, List.dropWhile_append_of_pos h]
  cases text with
  | nil =>
    rw [List.nil_append, List.dropWhile_eq_nil_iff.mpr h', List.rdropWhile_nil]
  | cons c text =>
    have hc : ¬ c.isWhitespace = true := by
      rw [htext c List.mem_cons_self]
      exact Bool.false_ne_true
    rw [List.cons_append, List.dropWhile_cons_of_neg hc, ← List.cons_append, List.rdropWhile,
      List.reverse_append, List.dropWhile_append_of_pos fun d hd => h' d (List.mem_reverse.mp hd)]
    rw [← List.rdropWhile, List.rdropWhile_eq_self_iff]
    intro hne
    rw [htext _ (List.getLast_mem hne)]
    exact Bool.false_ne_true

/-! ### Integers -/

/-- White space of the C library: vertical tabs and form feeds beside the blanks. -/
def isSpace (c : Char) : Bool := c.isWhitespace || c = Char.ofNat 11 || c = Char.ofNat 12

/-- The decimal digits at the front of a text; none if there is no digit. -/
def leadingDigits (text : List Char) : Option ℕ :=
  let digits := text.takeWhile Char.isDigit
  if digits = [] then none else some (Nat.ofDigitChars 10 digits 0)

/-- An optional sign and decimal digits at the front of a text. -/
def signedDigits (text : List Char) : Option ℤ :=
  if text.head? = some '-' then (leadingDigits text.tail).map fun n : ℕ => -(n : ℤ)
  else if text.head? = some '+' then (leadingDigits text.tail).map fun n : ℕ => (n : ℤ)
  else (leadingDigits text).map fun n : ℕ => (n : ℤ)

/-- What `strtoul` reads in base ten at the front of a text: white space, an optional sign,
digits. -/
def leadingInteger (text : List Char) : Option ℤ := signedDigits (text.dropWhile isSpace)

/-- A text of digits only is a numeral. -/
def numeral (text : List Char) : Option ℕ :=
  if text ≠ [] ∧ text.all Char.isDigit then some (Nat.ofDigitChars 10 text 0) else none

/-- A digit is no white space. -/
theorem isSpace_of_isDigit {c : Char} (h : c.isDigit = true) : isSpace c = false := by
  have hne : ∀ d : Char, d.isDigit = false → c ≠ d := by
    rintro d hd rfl
    rw [h] at hd
    cases hd
  simp [isSpace, Char.isWhitespace, hne ' ' (by decide), hne '\t' (by decide),
    hne '\r' (by decide), hne '\n' (by decide), hne (Char.ofNat 11) (by decide),
    hne (Char.ofNat 12) (by decide)]

theorem leadingInteger_cons {c : Char} {text : List Char} : leadingInteger (c :: text) =
    if isSpace c then leadingInteger text else signedDigits (c :: text) := by
  rw [leadingInteger, List.dropWhile_cons]
  split <;> rfl

theorem leadingDigits_append {text tail : List Char}
    (h : ∀ c ∈ tail.head?, c.isDigit = false) :
    leadingDigits (text ++ tail) = leadingDigits text := by
  have htail : tail.takeWhile Char.isDigit = [] := by
    cases tail with
    | nil => rfl
    | cons c tail => rw [List.takeWhile_cons, h c rfl, if_neg Bool.false_ne_true]
  have htake : (text ++ tail).takeWhile Char.isDigit = text.takeWhile Char.isDigit := by
    rw [List.takeWhile_append]
    split
    · next hall => rw [htail, List.append_nil, (List.takeWhile_prefix _).eq_of_length hall]
    · rfl
  rw [leadingDigits, leadingDigits, htake]

theorem signedDigits_cons_append {c : Char} {text tail : List Char}
    (h : ∀ c ∈ tail.head?, c.isDigit = false) :
    signedDigits (c :: (text ++ tail)) = signedDigits (c :: text) := by
  rw [signedDigits, signedDigits, List.head?_cons, List.head?_cons, List.tail_cons, List.tail_cons,
    leadingDigits_append h, ← List.cons_append, leadingDigits_append h]

/-- What follows does not matter unless it continues a number or begins with one. -/
theorem leadingInteger_append {text tail : List Char} (h : ∀ c ∈ tail.head?, c.isDigit = false)
    (htail : leadingInteger tail = none) :
    leadingInteger (text ++ tail) = leadingInteger text := by
  induction text with
  | nil => exact htail
  | cons c text ih =>
    rw [List.cons_append, leadingInteger_cons, leadingInteger_cons, ih, signedDigits_cons_append h]

/-- Blanks in front do not matter to the number at the front. -/
theorem leadingInteger_blanks_append {blanks : List Char}
    (h : ∀ c ∈ blanks, c.isWhitespace = true) (text : List Char) :
    leadingInteger (blanks ++ text) = leadingInteger text := by
  induction blanks with
  | nil => rfl
  | cons c blanks ih =>
    rw [List.forall_mem_cons] at h
    rw [List.cons_append, leadingInteger_cons, isSpace, h.1, Bool.true_or, Bool.true_or,
      if_pos rfl, ih h.2]

/-- Blanks behind do not matter either, whatever comes then, if it is no number. -/
theorem leadingInteger_append_blanks {blanks tail : List Char}
    (h : ∀ c ∈ blanks, c.isWhitespace = true) (hdigit : ∀ c ∈ tail.head?, c.isDigit = false)
    (htail : leadingInteger tail = none) (text : List Char) :
    leadingInteger (text ++ (blanks ++ tail)) = leadingInteger text := by
  refine leadingInteger_append ?_ ((leadingInteger_blanks_append h tail).trans htail)
  cases blanks with
  | nil => exact hdigit
  | cons c blanks =>
    rw [List.cons_append, List.head?_cons]
    rintro d ⟨⟩
    by_contra hd
    have hspace := isSpace_of_isDigit (Bool.not_eq_false _ ▸ hd)
    rw [isSpace, h c List.mem_cons_self] at hspace
    cases hspace

theorem leadingInteger_trim (text : List Char) :
    leadingInteger (trim text) = leadingInteger text := by
  have hfront := text.takeWhile_append_dropWhile (p := Char.isWhitespace)
  have hback := (text.dropWhile Char.isWhitespace).rdropWhile_append_rtakeWhile
    (p := Char.isWhitespace)
  conv => rhs; rw [← hfront, ← hback]
  rw [leadingInteger_blanks_append fun c hc => List.mem_takeWhile_imp hc,
    ← List.append_nil (List.rtakeWhile _ _), leadingInteger_append_blanks, trim]
  · exact fun c hc => List.mem_rtakeWhile_imp hc
  · rintro c ⟨⟩
  · rfl

/-- The number at the front of a numeral is its number. -/
theorem leadingInteger_of_numeral {text : List Char} {n : ℕ} (h : numeral text = some n) :
    leadingInteger text = some (n : ℤ) := by
  rw [numeral] at h
  split at h
  swap
  · cases h
  next hdigits =>
  obtain ⟨hne, hall⟩ := hdigits
  rw [List.all_eq_true] at hall
  obtain ⟨c, rest, rfl⟩ := List.exists_cons_of_ne_nil hne
  have hdigit := hall c List.mem_cons_self
  have hspace : isSpace c = false := isSpace_of_isDigit hdigit
  have hsign : c ≠ '-' ∧ c ≠ '+' := by
    constructor
    · rintro rfl
      exact absurd hdigit (by decide)
    · rintro rfl
      exact absurd hdigit (by decide)
  rw [leadingInteger_cons, hspace, if_neg Bool.false_ne_true, signedDigits, List.head?_cons,
    if_neg (by simpa using hsign.1), if_neg (by simpa using hsign.2), leadingDigits]
  rw [List.takeWhile_eq_self_iff.mpr hall, if_neg hne, ← Option.some_inj.mp h]
  rfl

/-- The decimal digits of a number are its numeral. -/
theorem numeral_toDigits (n : ℕ) : numeral (Nat.toDigits 10 n) = some n := by
  rw [numeral, if_pos, Nat.ofDigitChars_ten_toDigits]
  refine ⟨Nat.toDigits_ne_nil, List.all_eq_true.mpr fun c hc => ?_⟩
  exact Nat.isDigit_of_mem_toDigits (by decide) (by decide) hc

end TextScan
