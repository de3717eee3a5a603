import CircuitGrid.Json.Reader

/-!
# JSON text reads back

Reading undoes writing. The texts of a value differ in the whitespace between their tokens
(`IsText`); each of them is read as that value, whatever text follows it
(`scanValue?_of_isText`), and the compact text is one of them. Two kinds of values are left
out, since no text stands for them: a number whose literal is none, and a string or a key
with half a character in it. The rest is `Json.Proper`.

The reader stops where a value ends. Only a number could go on into the text behind
it, so that text must not begin like the rest of a number; behind a value stand whitespace, a
comma, a bracket or nothing.
-/

namespace CircuitGrid.Json

/-! ## Numerals -/

/-- A non-empty run of digits. -/
structure IsDigits (cs : List Char) : Prop where
  nonempty : cs ≠ []
  digits : ∀ c ∈ cs, c.isDigit = true

/-- The whole part of a numeral: it begins with a zero only if it is one. -/
structure IsWhole (cs : List Char) : Prop extends IsDigits cs where
  lone_zero : cs.head? = some '0' → cs = ['0']

/-- The fraction of a numeral, which may be missing. -/
inductive IsFraction : List Char → Prop where
  | none : IsFraction []
  | point {digits : List Char} (h : IsDigits digits) : IsFraction ('.' :: digits)

/-- The exponent of a numeral, which may be missing. -/
inductive IsExponent : List Char → Prop where
  | none : IsExponent []
  | unsigned {digits : List Char} (h : IsDigits digits) : IsExponent ('e' :: digits)
  | plus {digits : List Char} (h : IsDigits digits) : IsExponent ('e' :: '+' :: digits)
  | minus {digits : List Char} (h : IsDigits digits) : IsExponent ('e' :: '-' :: digits)

/-- A number without its sign. -/
inductive IsMagnitude : List Char → Prop where
  | intro {whole fraction exponent : List Char} (hwhole : IsWhole whole)
      (hfraction : IsFraction fraction) (hexponent : IsExponent exponent) :
      IsMagnitude (whole ++ (fraction ++ exponent))

/-- A number as JSON writes it. -/
inductive IsNumeral : List Char → Prop where
  | unsigned {cs : List Char} (h : IsMagnitude cs) : IsNumeral cs
  | minus {cs : List Char} (h : IsMagnitude cs) : IsNumeral ('-' :: cs)

/-! ### Where a part of a numeral ends -/

/-- The text does not go on with a digit. -/
def NoDigit (rest : List Char) : Prop := ∀ c ∈ rest.head?, c.isDigit = false

/-- The text does not go on with a fraction, nor with more digits of one. -/
def NoFraction (rest : List Char) : Prop := ∀ c ∈ rest.head?, c.isDigit = false ∧ c ≠ '.'

/-- The text does not go on with any part of a number. -/
def EndsNumber (rest : List Char) : Prop :=
  ∀ c ∈ rest.head?, c.isDigit = false ∧ c ≠ '.' ∧ c ≠ 'e' ∧ c ≠ 'E'

theorem NoFraction.noDigit {rest : List Char} (h : NoFraction rest) : NoDigit rest :=
  fun c hc => (h c hc).1

theorem EndsNumber.noDigit {rest : List Char} (h : EndsNumber rest) : NoDigit rest :=
  fun c hc => (h c hc).1

theorem IsExponent.noFraction_append {exponent rest : List Char} (h : IsExponent exponent)
    (hrest : EndsNumber rest) : NoFraction (exponent ++ rest) := by
  cases h with
  | none => exact fun c hc => ⟨(hrest c hc).1, (hrest c hc).2.1⟩
  | _ =>
    rintro c hc
    obtain rfl : 'e' = c := by simpa using hc
    decide

theorem IsFraction.noDigit_append {fraction rest : List Char} (h : IsFraction fraction)
    (hrest : NoFraction rest) : NoDigit (fraction ++ rest) := by
  cases h with
  | none => exact hrest.noDigit
  | point =>
    intro c hc
    obtain rfl : '.' = c := by simpa using hc
    decide

theorem endsNumber_nil : EndsNumber [] := fun _ h => by simp at h

theorem endsNumber_cons (c : Char) (rest : List Char)
    (h : c.isDigit = false ∧ c ≠ '.' ∧ c ≠ 'e' ∧ c ≠ 'E') : EndsNumber (c :: rest) := by
  intro d hd
  obtain rfl : c = d := by simpa using hd
  exact h

theorem IsDigits.exists_cons {cs : List Char} (h : IsDigits cs) :
    ∃ c rest, cs = c :: rest ∧ c.isDigit = true := by
  obtain ⟨c, rest, rfl⟩ := List.exists_cons_of_ne_nil h.nonempty
  exact ⟨c, rest, rfl, h.digits c List.mem_cons_self⟩

theorem scanDigits?_append {digits rest : List Char} (h : IsDigits digits) (hrest : NoDigit rest) :
    scanDigits? (digits ++ rest) = some (digits, rest) := by
  have htake : rest.takeWhile Char.isDigit = [] := by
    cases rest with
    | nil => rfl
    | cons c rest => simp [hrest c rfl]
  have hdrop : rest.dropWhile Char.isDigit = rest := by
    cases rest with
    | nil => rfl
    | cons c rest => simp [hrest c rfl]
  unfold scanDigits?
  rw [List.takeWhile_append_of_pos h.digits, List.dropWhile_append_of_pos h.digits, htake, hdrop,
    List.append_nil]
  obtain ⟨c, cs, rfl⟩ := List.exists_cons_of_ne_nil h.nonempty
  rfl

theorem scanWhole?_append {whole rest : List Char} (h : IsWhole whole) (hrest : NoDigit rest) :
    scanWhole? (whole ++ rest) = some (whole, rest) := by
  obtain ⟨c, cs, rfl, -⟩ := h.toIsDigits.exists_cons
  by_cases hc : c = '0'
  · subst hc
    obtain rfl : cs = [] := by simpa using h.lone_zero rfl
    have hnone : rest.head?.any Char.isDigit = false := by
      cases rest with
      | nil => rfl
      | cons d rest => exact hrest d rfl
    simp [scanWhole?, hnone]
  · rw [← scanDigits?_append h.toIsDigits hrest]
    simp [scanWhole?, hc]

theorem scanFraction?_append {fraction rest : List Char} (h : IsFraction fraction)
    (hrest : NoFraction rest) : scanFraction? (fraction ++ rest) = some (fraction, rest) := by
  cases h with
  | none =>
    cases rest with
    | nil => rfl
    | cons c rest => simp [scanFraction?, (hrest c rfl).2]
  | point h => simp [scanFraction?, scanDigits?_append h hrest.noDigit]

theorem scanExponent?_append {exponent rest : List Char} (h : IsExponent exponent)
    (hrest : EndsNumber rest) : scanExponent? (exponent ++ rest) = some (exponent, rest) := by
  cases h with
  | none =>
    cases rest with
    | nil => rfl
    | cons c rest => simp [scanExponent?, (hrest c rfl).2.2]
  | unsigned h =>
    obtain ⟨c, cs, rfl, hc⟩ := h.exists_cons
    have hplus : c ≠ '+' := by rintro rfl; exact absurd hc (by decide)
    have hminus : c ≠ '-' := by rintro rfl; exact absurd hc (by decide)
    have hscan := scanDigits?_append h hrest.noDigit
    simp only [List.cons_append] at hscan
    simp [scanExponent?, hplus, hminus, hscan]
  | plus h => simp [scanExponent?, scanDigits?_append h hrest.noDigit]
  | minus h => simp [scanExponent?, scanDigits?_append h hrest.noDigit]

/-- The three parts of a magnitude, scanned one after the other. -/
theorem scanParts_append {whole fraction exponent rest : List Char} (hwhole : IsWhole whole)
    (hfraction : IsFraction fraction) (hexponent : IsExponent exponent) (hrest : EndsNumber rest) :
    scanWhole? (whole ++ (fraction ++ (exponent ++ rest))) =
        some (whole, fraction ++ (exponent ++ rest)) ∧
      scanFraction? (fraction ++ (exponent ++ rest)) = some (fraction, exponent ++ rest) ∧
      scanExponent? (exponent ++ rest) = some (exponent, rest) := by
  have hafter := hexponent.noFraction_append hrest
  exact ⟨scanWhole?_append hwhole (hfraction.noDigit_append hafter),
    scanFraction?_append hfraction hafter, scanExponent?_append hexponent hrest⟩

theorem scanNumber?_append {literal rest : List Char} (h : IsNumeral literal)
    (hrest : EndsNumber rest) : scanNumber? (literal ++ rest) = some (literal, rest) := by
  cases h with
  | unsigned h =>
    obtain ⟨hwhole, hfraction, hexponent⟩ := h
    obtain ⟨hscan, hscan', hscan''⟩ := scanParts_append hwhole hfraction hexponent hrest
    obtain ⟨c, cs, rfl, hc⟩ := hwhole.toIsDigits.exists_cons
    have hminus : c ≠ '-' := by rintro rfl; exact absurd hc (by decide)
    simp only [List.cons_append] at hscan
    simp [scanNumber?, hminus, hscan, hscan', hscan'']
  | minus h =>
    obtain ⟨hwhole, hfraction, hexponent⟩ := h
    obtain ⟨hscan, hscan', hscan''⟩ := scanParts_append hwhole hfraction hexponent hrest
    simp [scanNumber?, hscan, hscan', hscan'']

/-! ## Strings -/

/-- A character is written in one of three ways. -/
theorem escapeChar_cases (c : Char) :
    (∃ e, e ≠ 'u' ∧ shortEscape? e = some c ∧ escapeChar c = ['\\', e]) ∨
    (c.toNat < 32 ∧ escapeChar c =
      ['\\', 'u', '0', '0', Nat.digitChar (c.toNat / 16), Nat.digitChar (c.toNat % 16)]) ∨
    (32 ≤ c.toNat ∧ c ≠ '"' ∧ c ≠ '\\' ∧ escapeChar c = [c]) := by
  unfold escapeChar
  split
  · exact .inl ⟨'"', by decide, rfl, rfl⟩
  · exact .inl ⟨'\\', by decide, rfl, rfl⟩
  · exact .inl ⟨'b', by decide, rfl, rfl⟩
  · exact .inl ⟨'f', by decide, rfl, rfl⟩
  · exact .inl ⟨'n', by decide, rfl, rfl⟩
  · exact .inl ⟨'r', by decide, rfl, rfl⟩
  · exact .inl ⟨'t', by decide, rfl, rfl⟩
  next hquote hbackslash _ _ _ _ _ =>
    by_cases hlow : c.toNat < 32
    · exact .inr (.inl ⟨hlow, if_pos hlow⟩)
    · exact .inr (.inr ⟨Nat.not_lt.mp hlow, hquote, hbackslash, if_neg hlow⟩)

/-- A control character is written with the digits of its own code. -/
theorem hexUnit?_control {code : Nat} (h : code < 32) :
    hexUnit? '0' '0' (Nat.digitChar (code / 16)) (Nat.digitChar (code % 16)) = some code := by
  revert code
  decide

/-- A character as it is written is read as one piece, which stands for it alone. -/
theorem exists_piece (c : Char) : ∃ piece,
    (∀ cs, scanPieces? (escapeChar c ++ cs) =
      (scanPieces? cs).bind fun (pieces, rest) => some (piece :: pieces, rest)) ∧
    ∀ pieces, joinPieces (piece :: pieces) = (joinPieces pieces).map (c :: ·) := by
  rcases escapeChar_cases c with ⟨e, hu, hescape, hwritten⟩ | ⟨hlow, hwritten⟩ |
    ⟨hplain, hquote, hbackslash, hwritten⟩
  -- A backslash and a letter.
  · refine ⟨.char c, fun cs => ?_, fun _ => rfl⟩
    rw [hwritten]
    simp [scanPieces?, hu, hescape]
  -- A unit in hexadecimal.
  · refine ⟨.unit c.toNat, fun cs => ?_, fun pieces => ?_⟩
    · rw [hwritten]
      simp [scanPieces?, hexUnit?_control hlow]
    · rw [joinPieces.eq_def]
      simp only
      rw [if_pos (by omega), Char.ofNat_toNat]
  -- The character itself.
  · refine ⟨.char c, fun cs => ?_, fun _ => rfl⟩
    rw [hwritten]
    simp [scanPieces?, hbackslash, Nat.not_lt.mpr hplain]

theorem scanString?_flatMap (text rest : List Char) :
    scanString? (text.flatMap escapeChar ++ '"' :: rest) = some (some text, rest) := by
  induction text with
  | nil => simp [scanString?, scanPieces?, joinPieces]
  | cons c text ih =>
    obtain ⟨piece, hscan, hjoin⟩ := exists_piece c
    unfold scanString? at ih ⊢
    rw [List.flatMap_cons, List.append_assoc, hscan]
    obtain ⟨⟨pieces, rest'⟩, hpieces, hih⟩ := Option.map_eq_some_iff.mp ih
    simp only [Prod.mk.injEq] at hih
    obtain ⟨htext, rfl⟩ := hih
    rw [hpieces]
    simp [hjoin, htext]

/-! ## Values -/

/-- A value that a text stands for. -/
inductive Proper : Json → Prop where
  | null : Proper .null
  | bool (b : Bool) : Proper (.bool b)
  | number {literal : List Char} (h : IsNumeral literal) : Proper (.number literal)
  | string (text : List Char) : Proper (.string (some text))
  | array {items : List Json} (h : ∀ item ∈ items, Proper item) : Proper (.array items)
  | object {fields : List (JsonText × Json)} (hkeys : ∀ field ∈ fields, field.1.isSome = true)
      (hvalues : ∀ field ∈ fields, Proper field.2) : Proper (.object fields)

/-- A character that can begin a value: no whitespace, and not the end of an array. -/
def StartsValue (c : Char) : Prop := c.isWhitespace = false ∧ c ≠ ']'

instance (c : Char) : Decidable (StartsValue c) := inferInstanceAs (Decidable (_ ∧ _))

theorem skipWhitespace_cons {c : Char} (h : c.isWhitespace = false) (cs : List Char) :
    skipWhitespace (c :: cs) = c :: cs :=
  List.dropWhile_cons_of_neg (by rw [h]; exact Bool.false_ne_true)

/-- The first character of a numeral. -/
def StartsNumeral (c : Char) : Prop := c.isDigit = true ∨ c = '-'

theorem StartsNumeral.ne {c : Char} (h : StartsNumeral c) (d : Char) (hd : ¬StartsNumeral d) :
    c ≠ d := by
  rintro rfl
  exact hd h

instance (c : Char) : Decidable (StartsNumeral c) := inferInstanceAs (Decidable (_ ∨ _))

theorem StartsNumeral.startsValue {c : Char} (h : StartsNumeral c) : StartsValue c := by
  have hspace := h.ne ' ' (by decide)
  have htab := h.ne '\t' (by decide)
  have hnewline := h.ne '\n' (by decide)
  have hreturn := h.ne '\r' (by decide)
  exact ⟨by simp [Char.isWhitespace, hspace, htab, hnewline, hreturn], h.ne ']' (by decide)⟩

/-- What begins like a numeral is read as a number. -/
theorem scanValue?_of_startsNumeral {c : Char} (h : StartsNumeral c) (fuel : Nat)
    (cs : List Char) : scanValue? (fuel + 1) (c :: cs) =
      (scanNumber? (c :: cs)).map fun (literal, rest) => (.number literal, rest) := by
  have hquote := h.ne '"' (by decide)
  have harray := h.ne '[' (by decide)
  have hobject := h.ne '{' (by decide)
  have hnull := h.ne 'n' (by decide)
  have htrue := h.ne 't' (by decide)
  have hfalse := h.ne 'f' (by decide)
  rw [scanValue?, skipWhitespace_cons h.startsValue.1]
  simp [hquote, harray, hobject, hnull, htrue, hfalse]

theorem IsNumeral.exists_cons {literal : List Char} (h : IsNumeral literal) :
    ∃ c cs, literal = c :: cs ∧ StartsNumeral c := by
  cases h with
  | unsigned h =>
    obtain ⟨hwhole, -, -⟩ := h
    obtain ⟨c, cs, rfl, hc⟩ := hwhole.toIsDigits.exists_cons
    exact ⟨c, _, rfl, .inl hc⟩
  | minus h => exact ⟨'-', _, rfl, .inr rfl⟩

theorem scanString?_quote (text rest : List Char) :
    ∃ cs, quote (some text) ++ rest = '"' :: cs ∧ scanString? cs = some (some text, rest) :=
  ⟨_, by simp [quote], scanString?_flatMap text rest⟩

/-! ## Whitespace between tokens -/

/-- Nothing but whitespace. -/
def IsWhitespace (cs : List Char) : Prop := ∀ c ∈ cs, c.isWhitespace = true

theorem isWhitespace_nil : IsWhitespace [] := List.forall_mem_nil _

theorem skipWhitespace_append {ws : List Char} (h : IsWhitespace ws) (cs : List Char) :
    skipWhitespace (ws ++ cs) = skipWhitespace cs :=
  List.dropWhile_append_of_pos h

theorem endsNumber_append {ws : List Char} (h : IsWhitespace ws) {rest : List Char}
    (hrest : EndsNumber rest) : EndsNumber (ws ++ rest) := by
  cases ws with
  | nil => exact hrest
  | cons c ws =>
    have hc := h c List.mem_cons_self
    simp only [Char.isWhitespace, Bool.or_eq_true, decide_eq_true_eq] at hc
    rcases hc with ((rfl | rfl) | rfl) | rfl <;> exact endsNumber_cons _ _ (by decide)

/-- Whitespace before a value, or before what is left of an array or an object, is skipped. -/
theorem scan_append {ws : List Char} (h : IsWhitespace ws) (fuel : Nat) (cs : List Char) :
    scanValue? fuel (ws ++ cs) = scanValue? fuel cs ∧
      scanItems? fuel (ws ++ cs) = scanItems? fuel cs ∧
      scanFields? fuel (ws ++ cs) = scanFields? fuel cs := by
  have hvalue : ∀ fuel, scanValue? fuel (ws ++ cs) = scanValue? fuel cs := by
    intro fuel
    cases fuel with
    | zero => rfl
    | succ fuel => rw [scanValue?, scanValue?, skipWhitespace_append h]
  refine ⟨hvalue fuel, ?_, ?_⟩
  · cases fuel with
    | zero => rfl
    | succ fuel => rw [scanItems?, scanItems?, hvalue]
  · cases fuel with
    | zero => rfl
    | succ fuel => rw [scanFields?, scanFields?, skipWhitespace_append h]

/-- A value is read from between whitespace, and only whitespace is left of it. -/
theorem exists_scanValue?_padded {before cs after rest : List Char} {value : Json} {fuel : Nat}
    (hbefore : IsWhitespace before) (hafter : IsWhitespace after)
    (hscan : ∀ {rest}, EndsNumber rest → scanValue? fuel (cs ++ rest) = some (value, rest))
    (hrest : EndsNumber rest) :
    ∃ left, scanValue? fuel (before ++ (cs ++ after) ++ rest) = some (value, left) ∧
      skipWhitespace left = skipWhitespace rest := by
  refine ⟨after ++ rest, ?_, skipWhitespace_append hafter rest⟩
  rw [List.append_assoc, List.append_assoc, (scan_append hbefore fuel _).1]
  exact hscan (endsNumber_append hafter hrest)

/-- A key is read from between whitespace, up to the colon behind it. -/
theorem exists_scanString?_key {before between : List Char} (hbefore : IsWhitespace before)
    (hbetween : IsWhitespace between) (key rest : List Char) :
    ∃ cs, skipWhitespace (before ++ (quote (some key) ++ (between ++ ':' :: rest))) = '"' :: cs ∧
      scanString? cs = some (some key, between ++ ':' :: rest) ∧
      skip? ":" (skipWhitespace (between ++ ':' :: rest)) = some rest := by
  obtain ⟨cs, hquote, hscan⟩ := scanString?_quote key (between ++ ':' :: rest)
  refine ⟨cs, ?_, hscan, ?_⟩
  · rw [skipWhitespace_append hbefore, hquote, skipWhitespace_cons (by decide)]
  · rw [skipWhitespace_append hbetween, skipWhitespace_cons (by decide)]
    simp [skip?]

/-! ## Texts of a value -/

mutual

/-- The text stands for the value, whatever whitespace stands between its tokens. Strings and
keys are as `quote` writes them. -/
inductive IsText : List Char → Json → Prop
  | null : IsText "null".toList .null
  | bool (b : Bool) : IsText (boolText b) (.bool b)
  | number {literal : List Char} (h : IsNumeral literal) : IsText literal (.number literal)
  | string (text : List Char) : IsText (quote (some text)) (.string (some text))
  | noItems {ws : List Char} (h : IsWhitespace ws) : IsText ('[' :: (ws ++ [']'])) (.array [])
  | items {cs : List Char} {items : List Json} (h : IsItems cs items) :
      IsText ('[' :: cs) (.array items)
  | noFields {ws : List Char} (h : IsWhitespace ws) :
      IsText ('{' :: (ws ++ ['\x7d'])) (.object [])
  | fields {cs : List Char} {fields : List (JsonText × Json)} (h : IsFields cs fields) :
      IsText ('{' :: cs) (.object fields)

/-- A text of the value, between whitespace. -/
inductive IsElement : List Char → Json → Prop
  | padded {before cs after : List Char} {value : Json} (hbefore : IsWhitespace before)
      (hvalue : IsText cs value) (hafter : IsWhitespace after) :
      IsElement (before ++ (cs ++ after)) value

/-- The text of what is left of an array, from an item on. -/
inductive IsItems : List Char → List Json → Prop
  | last {cs : List Char} {item : Json} (hitem : IsElement cs item) :
      IsItems (cs ++ [']']) [item]
  | next {cs left : List Char} {item : Json} {items : List Json} (hitem : IsElement cs item)
      (hitems : IsItems left items) : IsItems (cs ++ ',' :: left) (item :: items)

/-- The text of what is left of an object, from a field on. -/
inductive IsFields : List Char → List (JsonText × Json) → Prop
  | last {before key between cs : List Char} {value : Json} (hbefore : IsWhitespace before)
      (hbetween : IsWhitespace between) (hvalue : IsElement cs value) :
      IsFields (before ++ (quote (some key) ++ (between ++ ':' :: (cs ++ ['\x7d']))))
        [(some key, value)]
  | next {before key between cs left : List Char} {value : Json}
      {fields : List (JsonText × Json)} (hbefore : IsWhitespace before)
      (hbetween : IsWhitespace between) (hvalue : IsElement cs value)
      (hfields : IsFields left fields) :
      IsFields (before ++ (quote (some key) ++ (between ++ ':' :: (cs ++ ',' :: left))))
        ((some key, value) :: fields)

end

theorem IsText.exists_cons {cs : List Char} {value : Json} (h : IsText cs value) :
    ∃ c rest, cs = c :: rest ∧ StartsValue c := by
  cases h with
  | null => exact ⟨'n', _, rfl, by decide⟩
  | bool b =>
    cases b with
    | false => exact ⟨'f', _, rfl, by decide⟩
    | true => exact ⟨'t', _, rfl, by decide⟩
  | number h =>
    obtain ⟨c, cs, rfl, hc⟩ := h.exists_cons
    exact ⟨c, cs, rfl, hc.startsValue⟩
  | string text => exact ⟨'"', _, rfl, by decide⟩
  | noItems | items => exact ⟨'[', _, rfl, by decide⟩
  | noFields | fields => exact ⟨'{', _, rfl, by decide⟩

/-- Behind whitespace, an array that is not empty begins with an item. -/
theorem IsItems.exists_cons {cs : List Char} {items : List Json} (h : IsItems cs items) :
    ∃ ws c rest, cs = ws ++ c :: rest ∧ IsWhitespace ws ∧ StartsValue c := by
  have hitem : ∀ {cs item}, IsElement cs item → ∀ left,
      ∃ ws c rest, cs ++ left = ws ++ c :: rest ∧ IsWhitespace ws ∧ StartsValue c := by
    rintro _ item @⟨before, _, after, _, hbefore, hvalue, -⟩ left
    obtain ⟨c, rest, rfl, hc⟩ := hvalue.exists_cons
    exact ⟨before, c, rest ++ (after ++ left), by simp, hbefore, hc⟩
  cases h with
  | last helement => exact hitem helement _
  | next helement hitems => exact hitem helement _

/-- Behind whitespace, an object that is not empty begins with a key. -/
theorem IsFields.exists_cons {cs : List Char} {fields : List (JsonText × Json)}
    (h : IsFields cs fields) :
    ∃ ws rest, cs = ws ++ '"' :: rest ∧ IsWhitespace ws := by
  cases h with
  | last hbefore => exact ⟨_, _, rfl, hbefore⟩
  | next hbefore => exact ⟨_, _, rfl, hbefore⟩

mutual

/-- A value is read from any text of it, up to where the text ends. -/
theorem scanValue?_of_isText {cs : List Char} {value : Json} (h : IsText cs value)
    {rest : List Char} (hrest : EndsNumber rest) :
    ∀ fuel, cs.length ≤ fuel → scanValue? fuel (cs ++ rest) = some (value, rest)
  | 0, hfuel => by
    obtain ⟨c, cs, rfl, -⟩ := h.exists_cons
    simp at hfuel
  | fuel + 1, hfuel => by
    cases h with
    | null => rfl
    | bool b => cases b <;> rfl
    | number h =>
      obtain ⟨c, cs, rfl, hc⟩ := h.exists_cons
      have hscan := scanNumber?_append h hrest
      simp only [List.cons_append] at hscan ⊢
      rw [scanValue?_of_startsNumeral hc, hscan]
      rfl
    | string text =>
      obtain ⟨cs, hquote, hscan⟩ := scanString?_quote text rest
      rw [hquote, scanValue?, skipWhitespace_cons (by decide)]
      simp [hscan]
    | noItems h =>
      have hclose : skipWhitespace (']' :: rest) = ']' :: rest := skipWhitespace_cons (by decide) _
      rw [List.cons_append, List.append_assoc, scanValue?, skipWhitespace_cons (by decide)]
      simp [skipWhitespace_append h, hclose]
    | items h =>
      obtain ⟨ws, c, cs, rfl, hws, hc⟩ := h.exists_cons
      have hscan := scanItems?_of_isItems h rest fuel (Nat.le_of_succ_le_succ hfuel)
      rw [List.append_assoc, (scan_append hws fuel _).2.1, List.cons_append] at hscan
      rw [List.cons_append, List.append_assoc, List.cons_append, scanValue?,
        skipWhitespace_cons (by decide)]
      simp only
      rw [skipWhitespace_append hws, skipWhitespace_cons hc.1]
      simp [hc.2, hscan]
    | noFields h =>
      have hclose : skipWhitespace ('\x7d' :: rest) = '\x7d' :: rest :=
        skipWhitespace_cons (by decide) _
      rw [List.cons_append, List.append_assoc, scanValue?, skipWhitespace_cons (by decide)]
      simp [skipWhitespace_append h, hclose]
    | fields h =>
      obtain ⟨ws, cs, rfl, hws⟩ := h.exists_cons
      have hscan := scanFields?_of_isFields h rest fuel (Nat.le_of_succ_le_succ hfuel)
      rw [List.append_assoc, (scan_append hws fuel _).2.2, List.cons_append] at hscan
      rw [List.cons_append, List.append_assoc, List.cons_append, scanValue?,
        skipWhitespace_cons (by decide)]
      simp only
      rw [skipWhitespace_append hws, skipWhitespace_cons (by decide)]
      simp [hscan]

theorem scanItems?_of_isItems {cs : List Char} {items : List Json} (h : IsItems cs items)
    (rest : List Char) :
    ∀ fuel, cs.length ≤ fuel → scanItems? fuel (cs ++ rest) = some (items, rest)
  | 0, hfuel => by
    obtain ⟨ws, c, cs, rfl, -⟩ := h.exists_cons
    simp at hfuel
  | fuel + 1, hfuel => by
    cases h with
    | last hitem =>
      obtain ⟨hbefore, hvalue, hafter⟩ := hitem
      simp only [List.length_append, List.length_cons] at hfuel
      obtain ⟨left, hscan, hleft⟩ := exists_scanValue?_padded hbefore hafter
        (fun hrest => scanValue?_of_isText hvalue hrest fuel (by omega))
        (endsNumber_cons ']' rest (by decide))
      rw [skipWhitespace_cons (by decide)] at hleft
      rw [List.append_assoc, List.singleton_append, scanItems?, hscan]
      simp [hleft]
    | @next _ others _ items hitem hitems =>
      obtain ⟨hbefore, hvalue, hafter⟩ := hitem
      simp only [List.length_append, List.length_cons] at hfuel
      obtain ⟨left, hscan, hleft⟩ := exists_scanValue?_padded hbefore hafter
        (fun hrest => scanValue?_of_isText hvalue hrest fuel (by omega))
        (endsNumber_cons ',' (others ++ rest) (by decide))
      rw [skipWhitespace_cons (by decide)] at hleft
      have hothers := scanItems?_of_isItems hitems rest fuel (by omega)
      rw [List.append_assoc, List.cons_append, scanItems?, hscan]
      simp [hleft, hothers]

theorem scanFields?_of_isFields {cs : List Char} {fields : List (JsonText × Json)}
    (h : IsFields cs fields) (rest : List Char) :
    ∀ fuel, cs.length ≤ fuel → scanFields? fuel (cs ++ rest) = some (fields, rest)
  | 0, hfuel => by
    obtain ⟨ws, cs, rfl, -⟩ := h.exists_cons
    simp at hfuel
  | fuel + 1, hfuel => by
    cases h with
    | @last before key between _ value hbefore hbetween hvalue =>
      obtain ⟨hbefore', hvalue, hafter⟩ := hvalue
      simp only [List.length_append, List.length_cons] at hfuel
      obtain ⟨left, hscan, hleft⟩ := exists_scanValue?_padded hbefore' hafter
        (fun hrest => scanValue?_of_isText hvalue hrest fuel (by omega))
        (endsNumber_cons '\x7d' rest (by decide))
      rw [skipWhitespace_cons (by decide)] at hleft
      obtain ⟨cs, hopen, hkey, hcolon⟩ := exists_scanString?_key hbefore hbetween key _
      simp only [List.append_assoc, List.cons_append, List.nil_append] at hscan ⊢
      rw [scanFields?, hopen]
      simp [hkey, hcolon, hscan, hleft]
    | @next before key between _ others value fields hbefore hbetween hvalue hfields =>
      obtain ⟨hbefore', hvalue, hafter⟩ := hvalue
      simp only [List.length_append, List.length_cons] at hfuel
      obtain ⟨left, hscan, hleft⟩ := exists_scanValue?_padded hbefore' hafter
        (fun hrest => scanValue?_of_isText hvalue hrest fuel (by omega))
        (endsNumber_cons ',' (others ++ rest) (by decide))
      rw [skipWhitespace_cons (by decide)] at hleft
      have hothers := scanFields?_of_isFields hfields rest fuel (by omega)
      obtain ⟨cs, hopen, hkey, hcolon⟩ := exists_scanString?_key hbefore hbetween key _
      simp only [List.append_assoc, List.cons_append] at hscan ⊢
      rw [scanFields?, hopen]
      simp [hkey, hcolon, hscan, hleft, hothers]

end

/-- A value is what any text of it is read as, also between whitespace. -/
theorem read?_of_isElement {cs : List Char} {value : Json} (h : IsElement cs value) :
    read? cs = some value := by
  obtain @⟨before, cs, after, _, hbefore, hvalue, hafter⟩ := h
  have hfuel : cs.length ≤ (before ++ (cs ++ after)).length + 1 := by
    simp only [List.length_append]
    omega
  obtain ⟨left, hscan, hleft⟩ := exists_scanValue?_padded hbefore hafter
    (fun hrest => scanValue?_of_isText hvalue hrest _ hfuel) endsNumber_nil
  rw [List.append_nil] at hscan
  unfold read?
  rw [hscan]
  exact if_pos hleft

/-! ## Layouts -/

section Layouts

variable {text : Json → List Char} {before between after : List Char}

/-- What is left of an array is a text of it if each item is written between whitespace. -/
theorem isItems_of_layout {write : List Json → List Char} (hbefore : IsWhitespace before)
    (hafter : IsWhitespace after)
    (hlast : ∀ item, write [item] = before ++ (text item ++ (after ++ [']'])))
    (hnext : ∀ item next items, write (item :: next :: items) =
      before ++ (text item ++ ',' :: write (next :: items))) :
    ∀ {items : List Json}, items ≠ [] → (∀ item ∈ items, IsText (text item) item) →
      IsItems (write items) items
  | [item], _, h => by
    rw [hlast]
    simpa using IsItems.last (.padded hbefore (h item List.mem_cons_self) hafter)
  | item :: next :: items, _, h => by
    have hitems := isItems_of_layout hbefore hafter hlast hnext (List.cons_ne_nil next items)
      fun i hi => h i (List.mem_cons_of_mem _ hi)
    rw [hnext]
    simpa using IsItems.next (.padded hbefore (h item List.mem_cons_self) isWhitespace_nil) hitems

/-- What is left of an object is a text of it if each field is written between whitespace. -/
theorem isFields_of_layout {write : List (JsonText × Json) → List Char}
    (hbefore : IsWhitespace before) (hbetween : IsWhitespace between) (hafter : IsWhitespace after)
    (hlast : ∀ key value, write [(key, value)] =
      before ++ (quote key ++ ':' :: (between ++ (text value ++ (after ++ ['\x7d'])))))
    (hnext : ∀ key value next fields, write ((key, value) :: next :: fields) =
      before ++ (quote key ++ ':' :: (between ++ (text value ++ ',' :: write (next :: fields))))) :
    ∀ {fields : List (JsonText × Json)}, fields ≠ [] →
      (∀ field ∈ fields, field.1.isSome = true) →
      (∀ field ∈ fields, IsText (text field.2) field.2) → IsFields (write fields) fields
  | (none, _) :: _, _, hkeys, _ => by simpa using hkeys _ List.mem_cons_self
  | [(some key, value)], _, _, h => by
    have hvalue := h _ List.mem_cons_self
    rw [hlast]
    simpa using IsFields.last hbefore isWhitespace_nil (.padded hbetween hvalue hafter)
  | (some key, value) :: next :: fields, _, hkeys, h => by
    have hvalue := h _ List.mem_cons_self
    have hfields := isFields_of_layout hbefore hbetween hafter hlast hnext
      (List.cons_ne_nil next fields) (fun f hf => hkeys f (List.mem_cons_of_mem _ hf))
      fun f hf => h f (List.mem_cons_of_mem _ hf)
    rw [hnext]
    simpa using
      IsFields.next hbefore isWhitespace_nil (.padded hbetween hvalue isWhitespace_nil) hfields

end Layouts

/-! ## Compact text -/

theorem Proper.isText_compact {value : Json} (h : value.Proper) : IsText value.compact value := by
  induction h with
  | null => exact .null
  | bool b => exact .bool b
  | number h => exact .number h
  | string text => exact .string text
  | @array items _ ih =>
    cases items with
    | nil => exact .noItems isWhitespace_nil
    | cons item items =>
      exact .items (isItems_of_layout isWhitespace_nil isWhitespace_nil (fun _ => rfl)
        (fun _ _ _ => rfl) (List.cons_ne_nil item items) ih)
  | @object fields hkeys _ ih =>
    cases fields with
    | nil => exact .noFields isWhitespace_nil
    | cons field fields =>
      exact .fields (isFields_of_layout isWhitespace_nil isWhitespace_nil isWhitespace_nil
        (fun _ _ => by simp [compactFields]) (fun _ _ _ _ => by simp [compactFields])
        (List.cons_ne_nil field fields) hkeys ih)

/-- A value is what its text is read as. -/
theorem read?_compact {value : Json} (h : value.Proper) : read? value.compact = some value := by
  have helement := IsElement.padded isWhitespace_nil h.isText_compact isWhitespace_nil
  rw [List.nil_append, List.append_nil] at helement
  exact read?_of_isElement helement

end CircuitGrid.Json
