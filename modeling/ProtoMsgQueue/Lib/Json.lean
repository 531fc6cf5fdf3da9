import Mathlib.Algebra.Ring.Nat
import ProtoMsgQueue.Lib.TextScan

/-!
# JSON texts

A parser for JSON texts, which are lists of characters here. It knows all of the grammar: blanks,
strings with their escapes and surrogate pairs, numbers, the three words, arrays and objects.

`Value.minLength` is a lower bound for the length of every text of a value, in which characters
that need an escape count twice; strings without such characters are read as they stand.
-/

namespace Json

/-- A JSON value. A number is its text. -/
inductive Value where
  | null
  | bool (b : Bool)
  | number (literal : List Char)
  | string (s : List Char)
  | array (items : List Value)
  | object (fields : List (List Char × Value))

/-- The value of a field of an object, if it has exactly one field of that name. -/
def Value.field (name : List Char) : Value → Option Value
  | .object fields =>
    match fields.filter fun field => field.1 = name with
    | [(_, v)] => some v
    | _ => none
  | _ => none

/-! ### The parser -/

/-- Blanks between tokens. -/
def skipBlanks (text : List Char) : List Char := text.dropWhile Char.isWhitespace

/-- The value of a hexadecimal digit. -/
def hexDigit (c : Char) : Option ℕ :=
  if '0' ≤ c ∧ c ≤ '9' then some (c.toNat - '0'.toNat)
  else if 'a' ≤ c ∧ c ≤ 'f' then some (c.toNat - 'a'.toNat + 10)
  else if 'A' ≤ c ∧ c ≤ 'F' then some (c.toNat - 'A'.toNat + 10)
  else none

/-- Four hexadecimal digits. -/
def hex4 : List Char → Option (ℕ × List Char)
  | a :: b :: c :: d :: text => do
    let a ← hexDigit a
    let b ← hexDigit b
    let c ← hexDigit c
    let d ← hexDigit d
    return (((a * 16 + b) * 16 + c) * 16 + d, text)
  | _ => none

/-- A second half of a surrogate pair with first half `high`. -/
def lowSurrogate (high : ℕ) : List Char → Option (Char × List Char)
  | '\\' :: 'u' :: text => do
    let (low, text) ← hex4 text
    if 0xDC00 ≤ low ∧ low < 0xE000 then
      return (Char.ofNat (0x10000 + (high - 0xD800) * 0x400 + (low - 0xDC00)), text)
    else none
  | _ => none

/-- What follows a backslash and a `u`. -/
def unicodeEscape (text : List Char) : Option (Char × List Char) := do
  let (unit, text) ← hex4 text
  if 0xD800 ≤ unit ∧ unit < 0xDC00 then lowSurrogate unit text
  else if 0xDC00 ≤ unit ∧ unit < 0xE000 then none
  else return (Char.ofNat unit, text)

/-- The character that a backslash in front of a character stands for. -/
def simpleEscape (c : Char) : Option Char :=
  if c = '"' ∨ c = '\\' ∨ c = '/' then some c
  else if c = 'b' then some (Char.ofNat 8)
  else if c = 'f' then some (Char.ofNat 12)
  else if c = 'n' then some '\n'
  else if c = 'r' then some '\r'
  else if c = 't' then some '\t'
  else none

/-- What follows a backslash. -/
def escape : List Char → Option (Char × List Char)
  | [] => none
  | c :: text =>
    if c = 'u' then unicodeEscape text
    else (simpleEscape c).map fun e => (e, text)

/-- Characters that a string has only as escapes. -/
def needsEscape (c : Char) : Bool := c = '"' || c = '\\' || c < ' '

/-- A string behind its opening quote. -/
def stringBody : ℕ → List Char → Option (List Char × List Char)
  | 0, _ => none
  | _ + 1, [] => none
  | fuel + 1, c :: text =>
    if c = '"' then some ([], text)
    else if c = '\\' then do
      let (e, text) ← escape text
      let (s, text) ← stringBody fuel text
      return (e :: s, text)
    else if c < ' ' then none
    else do
      let (s, text) ← stringBody fuel text
      return (c :: s, text)

/-- A string behind its opening quote: each step of the loop consumes a character. -/
def string (text : List Char) : Option (List Char × List Char) := stringBody (text.length + 1) text

/-- At least one decimal digit. -/
def digits (text : List Char) : Option (List Char × List Char) :=
  let taken := text.takeWhile Char.isDigit
  if taken = [] then none else some (taken, text.dropWhile Char.isDigit)

/-- The integer part of a number, without leading zeros. -/
def integerPart (text : List Char) : Option (List Char × List Char) :=
  if text.head? = some '0' then some (['0'], text.tail) else digits text

/-- One of some characters, if there is one. -/
def optional (p : Char → Bool) : List Char → List Char × List Char
  | [] => ([], [])
  | c :: text => if p c then ([c], text) else ([], c :: text)

/-- The fraction of a number. -/
def fractionPart (text : List Char) : Option (List Char × List Char) :=
  if text.head? = some '.' then (digits text.tail).map fun (taken, text) => ('.' :: taken, text)
  else some ([], text)

/-- The exponent of a number. -/
def exponentPart (text : List Char) : Option (List Char × List Char) := do
  let (e, text) := optional (fun c => c = 'e' || c = 'E') text
  if e = [] then return ([], text)
  else
    let (sign, text) := optional (fun c => c = '+' || c = '-') text
    let (taken, text) ← digits text
    return (e ++ (sign ++ taken), text)

/-- A number. -/
def number (text : List Char) : Option (List Char × List Char) := do
  let (sign, text) := optional (fun c => c = '-') text
  let (int, text) ← integerPart text
  let (fraction, text) ← fractionPart text
  let (exponent, text) ← exponentPart text
  return (sign ++ (int ++ (fraction ++ exponent)), text)

/-- A word that stands for a value. -/
def word (w : List Char) (v : Value) (text : List Char) : Option (Value × List Char) :=
  if w <+: text then some (v, text.drop w.length) else none

mutual

/-- A value. -/
def value : ℕ → List Char → Option (Value × List Char)
  | 0, _ => none
  | fuel + 1, text =>
    let text := skipBlanks text
    if text.head? = some '"' then (string text.tail).map fun (s, text) => (.string s, text)
    else if text.head? = some '[' then
      let text := skipBlanks text.tail
      if text.head? = some ']' then some (.array [], text.tail)
      else (items fuel text).map fun (vs, text) => (.array vs, text)
    else if text.head? = some '\x7b' then
      let text := skipBlanks text.tail
      if text.head? = some '\x7d' then some (.object [], text.tail)
      else (fields fuel text).map fun (fs, text) => (.object fs, text)
    else if text.head? = some 't' then word "true".toList (.bool true) text
    else if text.head? = some 'f' then word "false".toList (.bool false) text
    else if text.head? = some 'n' then word "null".toList .null text
    else (number text).map fun (literal, text) => (.number literal, text)

/-- The values of an array behind the opening bracket. -/
def items : ℕ → List Char → Option (List Value × List Char)
  | 0, _ => none
  | fuel + 1, text => do
    let (v, text) ← value fuel text
    let text := skipBlanks text
    if text.head? = some ',' then
      let (vs, text) ← items fuel text.tail
      return (v :: vs, text)
    else if text.head? = some ']' then return ([v], text.tail)
    else none

/-- The fields of an object behind the opening brace. -/
def fields : ℕ → List Char → Option (List (List Char × Value) × List Char)
  | 0, _ => none
  | fuel + 1, text => do
    let text := skipBlanks text
    if text.head? = some '"' then
      let (name, text) ← string text.tail
      let text := skipBlanks text
      if text.head? = some ':' then
        let (v, text) ← value fuel text.tail
        let text := skipBlanks text
        if text.head? = some ',' then
          let (fs, text) ← fields fuel text.tail
          return ((name, v) :: fs, text)
        else if text.head? = some '\x7d' then return ([(name, v)], text.tail)
        else none
      else none
    else none

end

/-- The value of a text. The fuel is enough, as every second call consumes a character. -/
def parse (text : List Char) : Option Value := do
  let (v, text) ← value (2 * text.length + 1) text
  if skipBlanks text = [] then return v else none

/-! ### Escapes -/

theorem hex4_eq {text rest : List Char} {n : ℕ} (h : hex4 text = some (n, rest)) :
    ∃ taken, text = taken ++ rest ∧ taken ≠ [] ∧ '"' ∉ taken := by
  have hquote : ∀ {c n}, hexDigit c = some n → '"' ≠ c := by
    rintro c n hc rfl
    cases hc
  unfold hex4 at h
  split at h
  · next a b c d text =>
    simp only [Option.bind_eq_bind, Option.bind_eq_some_iff, Option.pure_def, Option.some.injEq,
      Prod.mk.injEq] at h
    obtain ⟨a', ha, b', hb, c', hc, d', hd, -, rfl⟩ := h
    refine ⟨[a, b, c, d], rfl, by simp, ?_⟩
    simp [hquote ha, hquote hb, hquote hc, hquote hd]
  · cases h

theorem lowSurrogate_eq {text rest : List Char} {high : ℕ} {c : Char}
    (h : lowSurrogate high text = some (c, rest)) :
    ∃ taken, text = taken ++ rest ∧ '"' ∉ taken := by
  unfold lowSurrogate at h
  split at h
  · next text =>
    rw [Option.bind_eq_bind, Option.bind_eq_some_iff] at h
    obtain ⟨⟨low, text'⟩, hlow, h⟩ := h
    dsimp only at h
    split at h
    · obtain ⟨taken, rfl, -, hquote⟩ := hex4_eq hlow
      obtain ⟨-, rfl⟩ := Prod.mk.inj (Option.some_inj.mp h)
      exact ⟨'\\' :: 'u' :: taken, rfl, by simp [hquote]⟩
    · cases h
  · cases h

/-- The only escape with a quote is the one of the quote. -/
theorem escape_eq {text rest : List Char} {c : Char} (h : escape text = some (c, rest)) :
    ∃ taken, text = taken ++ rest ∧ taken ≠ [] ∧ (taken = ['"'] ∧ c = '"' ∨ '"' ∉ taken) := by
  cases text with
  | nil => cases h
  | cons c' text =>
    rw [escape] at h
    split at h
    · next hu =>
      rw [unicodeEscape, Option.bind_eq_bind, Option.bind_eq_some_iff] at h
      obtain ⟨⟨unit, text'⟩, hunit, h⟩ := h
      obtain ⟨taken, rfl, -, hquote⟩ := hex4_eq hunit
      dsimp only at h
      split at h
      · obtain ⟨taken', rfl, hquote'⟩ := lowSurrogate_eq h
        exact ⟨c' :: (taken ++ taken'), by simp, by simp, Or.inr (by simp [hu, hquote, hquote'])⟩
      · split at h
        · cases h
        · obtain ⟨-, rfl⟩ := Prod.mk.inj (Option.some_inj.mp h)
          exact ⟨c' :: taken, rfl, by simp, Or.inr (by simp [hu, hquote])⟩
    · rw [Option.map_eq_some_iff] at h
      obtain ⟨e, he, h⟩ := h
      cases h
      refine ⟨[c'], rfl, by simp, ?_⟩
      by_cases hc' : c' = '"'
      · subst hc'
        exact Or.inl ⟨rfl, (Option.some_inj.mp he).symm⟩
      · exact Or.inr (by simpa using Ne.symm hc')

/-! ### Strings -/

/-- The least length of a string between its quotes. -/
def weight (s : List Char) : ℕ := (s.map fun c => if needsEscape c then 2 else 1).sum

theorem weight_cons (c : Char) (s : List Char) :
    weight (c :: s) = (if needsEscape c then 2 else 1) + weight s := by
  rw [weight, List.map_cons, List.sum_cons, ← weight]

theorem length_le_weight (s : List Char) : s.length ≤ weight s := by
  induction s with
  | nil => exact Nat.le_refl _
  | cons c s ih =>
    rw [weight_cons, List.length_cons]
    split <;> omega

/-- The least length is the length exactly for strings without characters that need an escape. -/
theorem weight_le_length_iff {s : List Char} :
    weight s ≤ s.length ↔ ∀ c ∈ s, needsEscape c = false := by
  induction s with
  | nil => exact iff_of_true (Nat.le_refl _) nofun
  | cons c s ih =>
    have hle := length_le_weight s
    rw [List.forall_mem_cons, ← ih, weight_cons, List.length_cons]
    split
    · next hc =>
      rw [hc]
      exact iff_of_false (by omega) fun h => absurd h.1 (by decide)
    · next hc =>
      rw [Bool.not_eq_true] at hc
      exact ⟨fun h => ⟨hc, by omega⟩, fun h => by omega⟩

theorem weight_cons_le (c : Char) (s : List Char) : weight (c :: s) ≤ 2 + weight s := by
  rw [weight_cons]
  split <;> omega

/-- The ways in which the loop over a string goes on at a character. -/
inductive StringStep (fuel : ℕ) : Char → List Char → List Char → List Char → Prop where
  | quote {text} : StringStep fuel '"' text [] text
  | escape {text e text' s rest} (hescape : escape text = some (e, text'))
      (hbody : stringBody fuel text' = some (s, rest)) : StringStep fuel '\\' text (e :: s) rest
  | plain {c text s rest} (hc : needsEscape c = false)
      (hbody : stringBody fuel text = some (s, rest)) : StringStep fuel c text (c :: s) rest

theorem stringStep {fuel : ℕ} {c : Char} {text s rest : List Char}
    (h : stringBody (fuel + 1) (c :: text) = some (s, rest)) : StringStep fuel c text s rest := by
  rw [stringBody] at h
  split at h
  · next hquote =>
    obtain ⟨rfl, rfl⟩ := Prod.mk.inj (Option.some_inj.mp h)
    rw [hquote]
    exact .quote
  next hquote =>
  split at h
  · next hbackslash =>
    simp only [Option.bind_eq_bind, Option.bind_eq_some_iff, Prod.exists] at h
    obtain ⟨e, text', hescape, s', text'', hbody, h⟩ := h
    obtain ⟨rfl, rfl⟩ := Prod.mk.inj (Option.some_inj.mp h)
    rw [hbackslash]
    exact .escape hescape hbody
  next hbackslash =>
  split at h
  · cases h
  · next hcontrol =>
    simp only [Option.bind_eq_bind, Option.bind_eq_some_iff, Prod.exists] at h
    obtain ⟨s', text', hbody, h⟩ := h
    obtain ⟨rfl, rfl⟩ := Prod.mk.inj (Option.some_inj.mp h)
    exact .plain (by simp [needsEscape, hquote, hbackslash, hcontrol]) hbody

/-- A string is at least as long as it has to be. -/
theorem length_stringBody {fuel : ℕ} {text s rest : List Char}
    (h : stringBody fuel text = some (s, rest)) : rest.length + weight s + 1 ≤ text.length := by
  induction fuel generalizing text s with
  | zero => cases h
  | succ fuel ih =>
    cases text with
    | nil => cases h
    | cons c text =>
      cases stringStep h with
      | quote => exact Nat.le_refl _
      | escape hescape hbody =>
        next e text' s' =>
        obtain ⟨taken, rfl, hne, -⟩ := escape_eq hescape
        have hlength := ih hbody
        have hpos := List.length_pos_iff.mpr hne
        have hweight := weight_cons_le e s'
        rw [List.length_cons, List.length_append]
        omega
      | plain hc hbody =>
        have hlength := ih hbody
        rw [weight_cons, hc, if_neg Bool.false_ne_true, List.length_cons]
        omega

/-- A string without characters that need an escape is read as it stands. -/
theorem stringBody_of_plain {s : List Char} (h : ∀ c ∈ s, needsEscape c = false)
    (rest : List Char) {fuel : ℕ} (hfuel : s.length < fuel) :
    stringBody fuel (s ++ '"' :: rest) = some (s, rest) := by
  induction s generalizing fuel with
  | nil =>
    obtain ⟨fuel, rfl⟩ := Nat.exists_eq_succ_of_ne_zero (Nat.ne_of_gt hfuel)
    rfl
  | cons c s ih =>
    obtain ⟨fuel, rfl⟩ := Nat.exists_eq_succ_of_ne_zero (Nat.ne_of_gt (Nat.zero_lt_of_lt hfuel))
    rw [List.forall_mem_cons] at h
    rw [List.length_cons, Nat.succ_lt_succ_iff] at hfuel
    have hc : c ≠ '"' ∧ c ≠ '\\' ∧ ¬ c < ' ' := by
      simpa [needsEscape, and_assoc] using h.1
    rw [List.cons_append, stringBody, if_neg hc.1, if_neg hc.2.1, if_neg hc.2.2, ih h.2 hfuel]
    rfl

theorem string_of_plain {s : List Char} (h : ∀ c ∈ s, needsEscape c = false) (rest : List Char) :
    string (s ++ '"' :: rest) = some (s, rest) := by
  refine stringBody_of_plain h rest ?_
  rw [List.length_append, List.length_cons]
  omega

/-- A text without quotes in front of a part and a quote is at the front of the part. -/
theorem exists_eq_append_of_notMem {taken rest part tail : List Char} (hquote : '"' ∉ taken)
    (h : part ++ '"' :: tail = taken ++ rest) :
    ∃ part', part = taken ++ part' ∧ rest = part' ++ '"' :: tail := by
  obtain ⟨part', rfl, htail⟩ | hpart := List.append_eq_append_iff.mp h
  · cases part' with
    | nil => exact ⟨[], by rw [List.append_nil, List.append_nil], htail.symm⟩
    | cons c part' =>
      obtain ⟨rfl, -⟩ := List.cons.inj htail
      exact absurd (List.mem_append_right _ List.mem_cons_self) hquote
  · exact hpart

/-- Where a string closes that is read from a part with `","` behind it: not behind that quote,
or else the part ends in a backslash and the string in a comma. -/
theorem stringBody_close {fuel : ℕ} {part behind s rest : List Char}
    (h : stringBody fuel (part ++ '"' :: ',' :: '"' :: behind) = some (s, rest)) :
    behind.length + 2 ≤ rest.length ∨ [','] <:+ s ∧ ['\\'] <:+ part := by
  induction fuel generalizing part s with
  | zero => cases h
  | succ fuel ih =>
    have hback : ∀ taken {part' s'}, part = taken ++ part' →
        stringBody fuel (part' ++ '"' :: ',' :: '"' :: behind) = some (s', rest) → s' <:+ s →
        behind.length + 2 ≤ rest.length ∨ [','] <:+ s ∧ ['\\'] <:+ part := by
      rintro taken part' s' rfl hbody hs
      exact (ih hbody).imp_right fun ⟨hcomma, hpart⟩ =>
        ⟨hcomma.trans hs, hpart.trans (List.suffix_append _ _)⟩
    cases part with
    | nil =>
      rw [List.nil_append, stringBody, if_pos rfl] at h
      obtain ⟨rfl, rfl⟩ := Prod.mk.inj (Option.some_inj.mp h)
      exact Or.inl (Nat.le_refl _)
    | cons c part =>
      rw [List.cons_append] at h
      generalize htail : part ++ '"' :: ',' :: '"' :: behind = tail at h
      cases stringStep h with
      | quote =>
        refine Or.inl ?_
        rw [← htail, List.length_append, List.length_cons, List.length_cons, List.length_cons]
        omega
      | escape hescape hbody =>
        next e text' s' =>
        obtain ⟨taken, htext, -, ⟨rfl, rfl⟩ | hquote⟩ := escape_eq hescape
        · cases part with
          | nil =>
            -- the quote behind the part is escaped, so the string goes on to the next one
            obtain ⟨-, rfl⟩ := List.cons.inj (htail.trans htext)
            have hs : s' = [','] := by
              by_cases hfuel : 1 < fuel
              · have hclose := stringBody_of_plain (s := [','])
                  (List.all_iff_forall_prop.mp (by decide)) behind hfuel
                exact (Prod.mk.inj (Option.some_inj.mp (hbody.symm.trans hclose))).1
              · have hnone : stringBody fuel (',' :: '"' :: behind) = none := by
                  have : fuel = 0 ∨ fuel = 1 := by omega
                  rcases this with rfl | rfl <;> rfl
                cases hnone.symm.trans hbody
            rw [hs]
            exact Or.inr ⟨List.suffix_cons _ _, List.suffix_refl _⟩
          | cons c' part =>
            obtain ⟨rfl, rfl⟩ := List.cons.inj (htail.trans htext)
            exact hback ['\\', '"'] rfl hbody (List.suffix_cons _ _)
        · obtain ⟨part', rfl, rfl⟩ := exists_eq_append_of_notMem hquote (htail.trans htext)
          exact hback ('\\' :: taken) rfl hbody (List.suffix_cons _ _)
      | plain hc hbody => exact hback [c] rfl (htail ▸ hbody) (List.suffix_cons _ _)

/-! ### Numbers -/

/-- A result that was changed in front of the same rest of the text. -/
theorem exists_of_map_eq_some {β γ : Type*} {f : β → γ} {o : Option (β × List Char)} {y : γ}
    {rest : List Char} (h : o.map (fun p => (f p.1, p.2)) = some (y, rest)) :
    ∃ x, o = some (x, rest) ∧ y = f x := by
  obtain ⟨⟨x, text⟩, hx, h⟩ := Option.map_eq_some_iff.mp h
  obtain ⟨rfl, rfl⟩ := Prod.mk.inj h
  exact ⟨x, hx, rfl⟩

theorem suffix_of_digits {text taken rest : List Char} (h : digits text = some (taken, rest)) :
    rest <:+ text := by
  rw [digits] at h
  split at h
  · cases h
  · obtain ⟨-, rfl⟩ := Prod.mk.inj (Option.some_inj.mp h)
    exact List.dropWhile_suffix _

theorem suffix_of_optional {p : Char → Bool} (text : List Char) :
    (optional p text).2 <:+ text := by
  cases text with
  | nil => exact List.suffix_refl _
  | cons c text =>
    rw [optional]
    split
    · exact List.suffix_cons _ _
    · exact List.suffix_refl _

theorem suffix_of_integerPart {text taken rest : List Char}
    (h : integerPart text = some (taken, rest)) : rest <:+ text := by
  rw [integerPart] at h
  split at h
  · obtain ⟨-, rfl⟩ := Prod.mk.inj (Option.some_inj.mp h)
    exact List.tail_suffix _
  · exact suffix_of_digits h

theorem suffix_of_fractionPart {text taken rest : List Char}
    (h : fractionPart text = some (taken, rest)) : rest <:+ text := by
  rw [fractionPart] at h
  split at h
  · obtain ⟨taken, hdigits, -⟩ := exists_of_map_eq_some h
    exact (suffix_of_digits hdigits).trans (List.tail_suffix _)
  · obtain ⟨-, rfl⟩ := Prod.mk.inj (Option.some_inj.mp h)
    exact List.suffix_refl _

theorem suffix_of_exponentPart {text taken rest : List Char}
    (h : exponentPart text = some (taken, rest)) : rest <:+ text := by
  rw [exponentPart] at h
  dsimp only at h
  split at h
  · obtain ⟨-, rfl⟩ := Prod.mk.inj (Option.some_inj.mp h)
    exact suffix_of_optional _
  · simp only [Option.bind_eq_bind, Option.bind_eq_some_iff, Prod.exists] at h
    obtain ⟨taken', text', hdigits, h⟩ := h
    obtain ⟨-, rfl⟩ := Prod.mk.inj (Option.some_inj.mp h)
    exact (suffix_of_digits hdigits).trans
      ((suffix_of_optional _).trans (suffix_of_optional _))

theorem suffix_of_number {text taken rest : List Char} (h : number text = some (taken, rest)) :
    rest <:+ text := by
  rw [number] at h
  simp only [Option.bind_eq_bind, Option.bind_eq_some_iff, Prod.exists] at h
  obtain ⟨int, text₁, hint, fraction, text₂, hfraction, exponent, text₃, hexponent, h⟩ := h
  obtain ⟨-, rfl⟩ := Prod.mk.inj (Option.some_inj.mp h)
  exact (suffix_of_exponentPart hexponent).trans ((suffix_of_fractionPart hfraction).trans
    ((suffix_of_integerPart hint).trans (suffix_of_optional _)))

/-! ### The least length of a text -/

mutual

/-- A lower bound for the length of a text of a value. -/
def Value.minLength : Value → ℕ
  | .string s => weight s + 2
  | .array vs => itemsLength vs + 1
  | .object fs => fieldsLength fs + 1
  | _ => 0

/-- A lower bound for the length of a text of values, each with what follows it. -/
def itemsLength : List Value → ℕ
  | [] => 0
  | v :: vs => v.minLength + 1 + itemsLength vs

/-- A lower bound for the length of a text of fields, each with what follows it. -/
def fieldsLength : List (List Char × Value) → ℕ
  | [] => 0
  | (name, v) :: fs => weight name + 3 + v.minLength + 1 + fieldsLength fs

end

theorem length_skipBlanks (text : List Char) : (skipBlanks text).length ≤ text.length :=
  (List.dropWhile_suffix _).length_le

theorem length_tail_of_head? {text : List Char} {c : Char} (h : text.head? = some c) :
    text.tail.length + 1 = text.length := by
  cases text with
  | nil => cases h
  | cons c text => rfl

theorem length_string {text s rest : List Char} (h : string text = some (s, rest)) :
    rest.length + weight s + 1 ≤ text.length :=
  length_stringBody h

theorem length_word {w text rest : List Char} {v v' : Value} (h : word w v text = some (v', rest)) :
    v' = v ∧ rest.length ≤ text.length := by
  rw [word] at h
  split at h
  · obtain ⟨rfl, rfl⟩ := Prod.mk.inj (Option.some_inj.mp h)
    exact ⟨rfl, (List.drop_suffix _ _).length_le⟩
  · cases h

/-- What the parser of values consumes is at least as long as it has to be. -/
def ValueBound (fuel : ℕ) : Prop :=
  ∀ text v rest, value fuel text = some (v, rest) → rest.length + v.minLength ≤ text.length

/-- The same for the values of an array. -/
def ItemsBound (fuel : ℕ) : Prop :=
  ∀ text vs rest, items fuel text = some (vs, rest) → rest.length + itemsLength vs ≤ text.length

/-- The same for the fields of an object. -/
def FieldsBound (fuel : ℕ) : Prop :=
  ∀ text fs rest, fields fuel text = some (fs, rest) → rest.length + fieldsLength fs ≤ text.length

theorem valueBound_succ {fuel : ℕ} (hitems : ItemsBound fuel) (hfields : FieldsBound fuel) :
    ValueBound (fuel + 1) := by
  intro text v rest h
  have hblanks := length_skipBlanks text
  have hword : ∀ {w v'}, word w v' (skipBlanks text) = some (v, rest) → v'.minLength = 0 →
      rest.length + v.minLength ≤ text.length := by
    intro w v' hw hzero
    obtain ⟨rfl, hrest⟩ := length_word hw
    omega
  rw [value] at h
  dsimp only at h
  split at h
  · next hquote =>
    have htail := length_tail_of_head? hquote
    obtain ⟨s, hs, rfl⟩ := exists_of_map_eq_some h
    have hlength := length_string hs
    rw [Value.minLength]
    omega
  split at h
  · next hopen =>
    have htail := length_tail_of_head? hopen
    have hblanks' := length_skipBlanks (skipBlanks text).tail
    split at h
    · next hclose =>
      have htail' := length_tail_of_head? hclose
      obtain ⟨rfl, rfl⟩ := Prod.mk.inj (Option.some_inj.mp h)
      rw [Value.minLength, itemsLength]
      omega
    · obtain ⟨vs, hvs, rfl⟩ := exists_of_map_eq_some h
      have hlength := hitems _ _ _ hvs
      rw [Value.minLength]
      omega
  split at h
  · next hopen =>
    have htail := length_tail_of_head? hopen
    have hblanks' := length_skipBlanks (skipBlanks text).tail
    split at h
    · next hclose =>
      have htail' := length_tail_of_head? hclose
      obtain ⟨rfl, rfl⟩ := Prod.mk.inj (Option.some_inj.mp h)
      rw [Value.minLength, fieldsLength]
      omega
    · obtain ⟨fs, hfs, rfl⟩ := exists_of_map_eq_some h
      have hlength := hfields _ _ _ hfs
      rw [Value.minLength]
      omega
  split at h
  · exact hword h rfl
  split at h
  · exact hword h rfl
  split at h
  · exact hword h rfl
  · obtain ⟨literal, hnumber, rfl⟩ := exists_of_map_eq_some h
    exact Nat.le_trans (suffix_of_number hnumber).length_le hblanks

theorem itemsBound_succ {fuel : ℕ} (hvalue : ValueBound fuel) (hitems : ItemsBound fuel) :
    ItemsBound (fuel + 1) := by
  intro text vs rest h
  rw [items] at h
  simp only [Option.bind_eq_bind, Option.bind_eq_some_iff, Prod.exists] at h
  obtain ⟨v, text', hv, h⟩ := h
  have hlength := hvalue _ _ _ hv
  have hblanks := length_skipBlanks text'
  split at h
  · next hcomma =>
    have htail := length_tail_of_head? hcomma
    simp only [Option.bind_eq_some_iff, Prod.exists] at h
    obtain ⟨vs', text'', hvs, h⟩ := h
    obtain ⟨rfl, rfl⟩ := Prod.mk.inj (Option.some_inj.mp h)
    have hlength' := hitems _ _ _ hvs
    rw [itemsLength]
    omega
  split at h
  · next hclose =>
    have htail := length_tail_of_head? hclose
    obtain ⟨rfl, rfl⟩ := Prod.mk.inj (Option.some_inj.mp h)
    rw [itemsLength, itemsLength]
    omega
  · cases h

theorem fieldsBound_succ {fuel : ℕ} (hvalue : ValueBound fuel) (hfields : FieldsBound fuel) :
    FieldsBound (fuel + 1) := by
  intro text fs rest h
  have hblanks := length_skipBlanks text
  rw [fields] at h
  dsimp only at h
  split at h
  swap
  · cases h
  next hquote =>
  have htail := length_tail_of_head? hquote
  simp only [Option.bind_eq_bind, Option.bind_eq_some_iff, Prod.exists] at h
  obtain ⟨name, text', hname, h⟩ := h
  have hlength := length_string hname
  have hblanks' := length_skipBlanks text'
  split at h
  swap
  · cases h
  next hcolon =>
  have htail' := length_tail_of_head? hcolon
  simp only [Option.bind_eq_some_iff, Prod.exists] at h
  obtain ⟨v, text'', hv, h⟩ := h
  have hlength' := hvalue _ _ _ hv
  have hblanks'' := length_skipBlanks text''
  split at h
  · next hcomma =>
    have htail'' := length_tail_of_head? hcomma
    simp only [Option.bind_eq_some_iff, Prod.exists] at h
    obtain ⟨fs', text₃, hfs, h⟩ := h
    obtain ⟨rfl, rfl⟩ := Prod.mk.inj (Option.some_inj.mp h)
    have hlength'' := hfields _ _ _ hfs
    rw [fieldsLength]
    omega
  split at h
  · next hclose =>
    have htail'' := length_tail_of_head? hclose
    obtain ⟨rfl, rfl⟩ := Prod.mk.inj (Option.some_inj.mp h)
    rw [fieldsLength, fieldsLength]
    omega
  · cases h

theorem bounds (fuel : ℕ) : ValueBound fuel ∧ ItemsBound fuel ∧ FieldsBound fuel := by
  induction fuel with
  | zero => exact ⟨nofun, nofun, nofun⟩
  | succ fuel ih =>
    obtain ⟨hvalue, hitems, hfields⟩ := ih
    exact ⟨valueBound_succ hitems hfields, itemsBound_succ hvalue hitems,
      fieldsBound_succ hvalue hfields⟩

/-- A text is at least as long as its value requires. -/
theorem minLength_le_of_parse {text : List Char} {v : Value} (h : parse text = some v) :
    v.minLength ≤ text.length := by
  simp only [parse, Option.bind_eq_bind, Option.bind_eq_some_iff, Prod.exists] at h
  obtain ⟨v', rest, hv, h⟩ := h
  split at h
  · have hlength := (bounds _).1 _ _ _ hv
    rw [← Option.some_inj.mp h]
    omega
  · cases h

theorem le_fieldsLength {name : List Char} {v : Value} {fs : List (List Char × Value)}
    (h : (name, v) ∈ fs) : weight name + 3 + v.minLength + 1 ≤ fieldsLength fs := by
  induction fs with
  | nil => cases h
  | cons field fs ih =>
    rw [fieldsLength]
    rcases List.mem_cons.mp h with rfl | hmem
    · exact Nat.le_add_right _ _
    · exact Nat.le_trans (ih hmem) (Nat.le_add_left _ _)

/-- An object is at least as long as one of its fields requires. -/
theorem minLength_le_of_field {name : List Char} {v v' : Value} (h : v.field name = some v') :
    weight name + 5 + v'.minLength ≤ v.minLength := by
  cases v with
  | object fs =>
    rw [Value.field] at h
    split at h
    · next name' v'' hfilter =>
      rw [← Option.some_inj.mp h]
      have hmem : (name', v'') ∈ fs.filter fun field => field.1 = name := by
        rw [hfilter]
        exact List.mem_singleton_self _
      rw [List.mem_filter] at hmem
      have hle := le_fieldsLength hmem.1
      rw [Value.minLength, ← of_decide_eq_true hmem.2]
      dsimp only
      omega
    · cases h
  | _ => cases h

end Json
