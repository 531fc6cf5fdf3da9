import ProtoMsgQueue.Lib.Json

/-!
# JSON texts put together by hand

What the parser makes of texts that a program writes without escapes: strings between quotes,
arrays of them, decimal numbers, and objects field by field.
-/

namespace Json

/-! ### The fields of an object -/

/-- The first field is the one of its name if no other one has the name. -/
theorem Value.field_cons (name : List Char) (v : Value) {fs : List (List Char × Value)}
    (h : ∀ f ∈ fs, f.1 ≠ name) : (Value.object ((name, v) :: fs)).field name = some v := by
  have hnil : fs.filter (fun f => f.1 = name) = [] :=
    List.filter_eq_nil_iff.mpr fun f hf => by simpa using h f hf
  rw [Value.field, List.filter_cons, if_pos (decide_eq_true rfl), hnil]

/-- If there is one field with the name of the first field then it is the first field. -/
theorem Value.eq_of_field_cons {name : List Char} {v v' : Value}
    {fs : List (List Char × Value)}
    (h : (Value.object ((name, v) :: fs)).field name = some v') : v = v' := by
  rw [Value.field, List.filter_cons, if_pos (decide_eq_true rfl)] at h
  split at h
  · next hfilter =>
    rw [(Prod.mk.inj (List.cons.inj hfilter).1).2]
    exact Option.some_inj.mp h
  · cases h

/-! ### Values, items and fields -/

theorem value_quote (fuel : ℕ) (text : List Char) : value (fuel + 1) ('"' :: text) =
    (string text).map fun (s, text) => (.string s, text) := by
  rw [value]
  rfl

/-- A plain string between quotes. -/
theorem value_plain {s : List Char} (hs : ∀ c ∈ s, needsEscape c = false) (rest : List Char)
    (fuel : ℕ) : value (fuel + 1) ('"' :: (s ++ '"' :: rest)) = some (.string s, rest) := by
  rw [value_quote, string_of_plain hs]
  rfl

theorem skipBlanks_cons {c : Char} (h : c.isWhitespace = false) (text : List Char) :
    skipBlanks (c :: text) = c :: text := by
  rw [skipBlanks, List.dropWhile_cons, h, if_neg Bool.false_ne_true]

theorem value_bracket {fuel : ℕ} {c : Char} (text : List Char) (hblank : c.isWhitespace = false)
    (hclose : c ≠ ']') : value (fuel + 1) ('[' :: c :: text) =
      (items fuel (c :: text)).map fun (vs, text) => (.array vs, text) := by
  have hhead : (c :: text).head? ≠ some ']' := by simpa using hclose
  rw [value]
  dsimp only
  rw [skipBlanks_cons (by decide), List.head?_cons, if_neg (by decide), if_pos rfl,
    List.tail_cons, skipBlanks_cons hblank, if_neg hhead]

theorem value_brace (fuel : ℕ) (text : List Char) :
    value (fuel + 1) ('\x7b' :: '"' :: text) =
      (fields fuel ('"' :: text)).map fun (fs, text) => (.object fs, text) := by
  rw [value]
  rfl

/-- A field with a plain name. -/
theorem fields_name {name : List Char} (hname : ∀ c ∈ name, needsEscape c = false)
    (text : List Char) (fuel : ℕ) : fields (fuel + 1) ('"' :: (name ++ '"' :: ':' :: text)) =
      (value fuel text).bind fun (v, text) =>
        if (skipBlanks text).head? = some ',' then
          (fields fuel (skipBlanks text).tail).map fun (fs, text) => ((name, v) :: fs, text)
        else if (skipBlanks text).head? = some '\x7d' then
          some ([(name, v)], (skipBlanks text).tail)
        else none := by
  rw [fields]
  dsimp only
  rw [skipBlanks_cons (by decide), List.head?_cons, if_pos rfl, List.tail_cons,
    string_of_plain hname]
  simp only [Option.bind_eq_bind, Option.bind_some, skipBlanks_cons (c := ':') (by decide),
    List.head?_cons, if_true, List.tail_cons]
  congr 1
  funext p
  obtain ⟨v, text'⟩ := p
  refine ite_congr rfl (fun _ => ?_) fun _ => rfl
  cases fields fuel (skipBlanks text').tail <;> rfl

/-- A field whose value ends in front of a comma. -/
theorem fields_comma {name text rest : List Char} {v : Value} {fuel : ℕ}
    (hname : ∀ c ∈ name, needsEscape c = false) (hv : value fuel text = some (v, ',' :: rest)) :
    fields (fuel + 1) ('"' :: (name ++ '"' :: ':' :: text)) =
      (fields fuel rest).map fun (fs, text) => ((name, v) :: fs, text) := by
  rw [fields_name hname, hv]
  rfl

/-- A field whose value ends in front of the closing brace. -/
theorem fields_brace {name text rest : List Char} {v : Value} {fuel : ℕ}
    (hname : ∀ c ∈ name, needsEscape c = false) (hv : value fuel text = some (v, '\x7d' :: rest)) :
    fields (fuel + 1) ('"' :: (name ++ '"' :: ':' :: text)) = some ([(name, v)], rest) := by
  rw [fields_name hname, hv]
  rfl

/-- The first field of an object, if its value is a string. -/
theorem parse_first_string {name text : List Char} {v : Value}
    (hname : ∀ c ∈ name, needsEscape c = false)
    (h : parse ('\x7b' :: '"' :: (name ++ '"' :: ':' :: '"' :: text)) = some v) :
    ∃ fuel s rest fs, stringBody fuel text = some (s, rest) ∧
      v = .object ((name, .string s) :: fs) := by
  rw [parse, List.length_cons, Nat.mul_succ, value_brace, List.length_cons, Nat.mul_succ,
    fields_name hname, value_quote] at h
  simp only [Option.bind_eq_bind, Option.bind_eq_some_iff, Option.map_eq_some_iff,
    Prod.exists] at h
  obtain ⟨v', text', ⟨fs, text₁, ⟨v₁, text₂, ⟨s, text₃, hs, hv₁⟩, hfs⟩, hv'⟩, h⟩ := h
  obtain ⟨rfl, rfl⟩ := Prod.mk.inj hv₁
  obtain ⟨rfl, rfl⟩ := Prod.mk.inj hv'
  have hfirst : ∃ fs', fs = (name, .string s) :: fs' := by
    split at hfs
    · obtain ⟨fs', -, hfs⟩ := exists_of_map_eq_some hfs
      exact ⟨fs', hfs⟩
    split at hfs
    · exact ⟨[], (Prod.mk.inj (Option.some_inj.mp hfs)).1.symm⟩
    · cases hfs
  obtain ⟨fs', rfl⟩ := hfirst
  split at h
  · exact ⟨_, s, _, fs', hs, (Option.some_inj.mp h).symm⟩
  · cases h

/-- Strings between quotes, with commas in between. -/
def stringsText : List (List Char) → List Char
  | [] => []
  | [s] => '"' :: (s ++ ['"'])
  | s :: s' :: ss => '"' :: (s ++ '"' :: ',' :: stringsText (s' :: ss))

/-- Plain strings between quotes are the items of an array. -/
theorem items_stringsText {ss : List (List Char)} (hne : ss ≠ [])
    (hss : ∀ s ∈ ss, ∀ c ∈ s, needsEscape c = false) (rest : List Char) {fuel : ℕ}
    (hfuel : ss.length < fuel) :
    items fuel (stringsText ss ++ ']' :: rest) = some (ss.map .string, rest) := by
  induction ss generalizing fuel with
  | nil => exact absurd rfl hne
  | cons s ss ih =>
    obtain ⟨fuel, rfl⟩ := Nat.exists_eq_succ_of_ne_zero (Nat.ne_of_gt (Nat.zero_lt_of_lt hfuel))
    rw [List.length_cons, Nat.succ_lt_succ_iff] at hfuel
    obtain ⟨fuel, rfl⟩ := Nat.exists_eq_succ_of_ne_zero (Nat.ne_of_gt (Nat.zero_lt_of_lt hfuel))
    rw [List.forall_mem_cons] at hss
    rw [items]
    cases ss with
    | nil =>
      rw [stringsText, List.cons_append, List.append_assoc, List.singleton_append,
        value_plain hss.1]
      rfl
    | cons s' ss =>
      rw [stringsText, List.cons_append, List.append_assoc, List.cons_append, List.cons_append,
        value_plain hss.1]
      simp only [Option.bind_eq_bind, Option.bind_some, skipBlanks_cons (c := ',') (by decide),
        List.head?_cons, if_true, List.tail_cons]
      rw [ih (List.cons_ne_nil _ _) hss.2 hfuel]
      rfl

/-- Plain strings between quotes make an array between brackets. -/
theorem value_stringsText {ss : List (List Char)} (hne : ss ≠ [])
    (hss : ∀ s ∈ ss, ∀ c ∈ s, needsEscape c = false) (rest : List Char) {fuel : ℕ}
    (hfuel : ss.length < fuel) : value (fuel + 1) ('[' :: (stringsText ss ++ ']' :: rest)) =
      some (.array (ss.map .string), rest) := by
  have hitems := items_stringsText hne hss rest hfuel
  obtain ⟨text, htext⟩ : ∃ text, stringsText ss = '"' :: text := by
    fun_cases stringsText ss with
    | case1 => exact absurd rfl hne
    | case2 s => exact ⟨_, rfl⟩
    | case3 s s' ss => exact ⟨_, rfl⟩
  rw [htext, List.cons_append] at hitems ⊢
  rw [value_bracket _ (by decide) (by decide), hitems]
  rfl

theorem length_stringsText {ss : List (List Char)} (hne : ss ≠ []) :
    (stringsText ss).length + 1 = ss.flatten.length + 3 * ss.length := by
  fun_induction stringsText ss with
  | case1 => exact absurd rfl hne
  | case2 s =>
    simp only [List.length_cons, List.length_append, List.flatten_cons, List.flatten_nil,
      List.length_nil]
  | case3 s s' ss ih =>
    have := ih (List.cons_ne_nil _ _)
    simp only [List.length_cons, List.length_append, List.flatten_cons] at this ⊢
    omega

theorem weight_append (s s' : List Char) : weight (s ++ s') = weight s + weight s' := by
  rw [weight, List.map_append, List.sum_append, ← weight, ← weight]

theorem itemsLength_strings (ss : List (List Char)) :
    itemsLength (ss.map .string) = weight ss.flatten + 3 * ss.length := by
  induction ss with
  | nil => rfl
  | cons s ss ih =>
    rw [List.map_cons, itemsLength, Value.minLength, ih, List.flatten_cons, weight_append,
      List.length_cons]
    omega

/-! ### Decimal numbers -/

/-- The digits of a number begin with a zero only if it is zero. -/
theorem head?_toDigits_ne {n : ℕ} (h : n ≠ 0) : (Nat.toDigits 10 n).head? ≠ some '0' := by
  have hdigit : ∀ n < 10, n ≠ 0 → [Nat.digitChar n].head? ≠ some '0' := by decide
  induction n using Nat.strongRecOn with
  | ind n ih =>
    by_cases hlt : n < 10
    · rw [Nat.toDigits_of_lt_base hlt]
      exact hdigit n hlt h
    · rw [Nat.toDigits_of_base_le (by decide) (Nat.le_of_not_lt hlt),
        List.head?_append_of_ne_nil _ Nat.toDigits_ne_nil]
      exact ih (n / 10) (Nat.div_lt_self (Nat.pos_of_ne_zero h) (by decide)) (by omega)

theorem exists_toDigits_eq_cons (n : ℕ) :
    ∃ d ds, Nat.toDigits 10 n = d :: ds ∧ d.isDigit = true := by
  obtain ⟨d, ds, hds⟩ := List.exists_cons_of_ne_nil (Nat.toDigits_ne_nil (n := n) (b := 10))
  refine ⟨d, ds, hds, Nat.isDigit_of_mem_toDigits (b := 10) (n := n) (by decide) (by decide) ?_⟩
  rw [hds]
  exact List.mem_cons_self

theorem integerPart_toDigits (n : ℕ) {rest : List Char}
    (h : ∀ c ∈ rest.head?, c.isDigit = false) :
    integerPart (Nat.toDigits 10 n ++ rest) = some (Nat.toDigits 10 n, rest) := by
  by_cases hn : n = 0
  · rw [hn]
    rfl
  have hall : ∀ c ∈ Nat.toDigits 10 n, c.isDigit = true := fun c hc =>
    Nat.isDigit_of_mem_toDigits (by decide) (by decide) hc
  have hrest : rest.takeWhile Char.isDigit = [] ∧ rest.dropWhile Char.isDigit = rest := by
    cases rest with
    | nil => exact ⟨rfl, rfl⟩
    | cons c rest =>
      rw [List.takeWhile_cons, List.dropWhile_cons, h c rfl]
      exact ⟨rfl, rfl⟩
  rw [integerPart, List.head?_append_of_ne_nil _ Nat.toDigits_ne_nil,
    if_neg (head?_toDigits_ne hn), digits]
  rw [List.takeWhile_append_of_pos hall, List.dropWhile_append_of_pos hall, hrest.1, hrest.2,
    List.append_nil, if_neg Nat.toDigits_ne_nil]

theorem number_toDigits (n : ℕ) {c : Char} (hc : c = ',' ∨ c = '\x7d') (rest : List Char) :
    number (Nat.toDigits 10 n ++ c :: rest) = some (Nat.toDigits 10 n, c :: rest) := by
  obtain ⟨d, ds, hds, hd⟩ := exists_toDigits_eq_cons n
  have hsign : optional (fun c => c = '-') (Nat.toDigits 10 n ++ c :: rest) =
      ([], Nat.toDigits 10 n ++ c :: rest) := by
    rw [hds, List.cons_append, optional, if_neg]
    rintro hminus
    rw [of_decide_eq_true hminus] at hd
    cases hd
  have hint : integerPart (Nat.toDigits 10 n ++ c :: rest) =
      some (Nat.toDigits 10 n, c :: rest) := by
    refine integerPart_toDigits n ?_
    rintro e ⟨⟩
    rcases hc with rfl | rfl <;> rfl
  have hfraction : fractionPart (c :: rest) = some ([], c :: rest) := by
    rcases hc with rfl | rfl <;> rfl
  have hexponent : exponentPart (c :: rest) = some ([], c :: rest) := by
    rcases hc with rfl | rfl <;> rfl
  rw [number, hsign]
  simp only [Option.bind_eq_bind, Option.bind_some, hint, hfraction, hexponent, List.append_nil,
    List.nil_append]
  rfl

/-- A decimal number in front of a comma or a closing brace. -/
theorem value_toDigits (n : ℕ) {c : Char} (hc : c = ',' ∨ c = '\x7d') (rest : List Char)
    (fuel : ℕ) : value (fuel + 1) (Nat.toDigits 10 n ++ c :: rest) =
      some (.number (Nat.toDigits 10 n), c :: rest) := by
  have hnumber := number_toDigits n hc rest
  obtain ⟨d, ds, hds, hd⟩ := exists_toDigits_eq_cons n
  have hne : ∀ c', c'.isDigit = false → (d :: (ds ++ c :: rest)).head? ≠ some c' := by
    rintro c' hc' ⟨⟩
    rw [hd] at hc'
    cases hc'
  have hblank : d.isWhitespace = false := by
    have hspace := TextScan.isSpace_of_isDigit hd
    rw [TextScan.isSpace, Bool.or_eq_false_iff, Bool.or_eq_false_iff] at hspace
    exact hspace.1.1
  rw [hds, List.cons_append] at hnumber ⊢
  rw [value]
  dsimp only
  rw [skipBlanks_cons hblank, if_neg (hne '"' (by decide)), if_neg (hne '[' (by decide)),
    if_neg (hne '\x7b' (by decide)), if_neg (hne 't' (by decide)), if_neg (hne 'f' (by decide)),
    if_neg (hne 'n' (by decide)), hnumber]
  rfl

end Json
