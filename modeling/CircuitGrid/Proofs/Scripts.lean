import CircuitGrid.Angle.Radians
import CircuitGrid.Edit.Script
import CircuitGrid.Proofs.Traversal

/-!
# Scripts decode to their tokens

A script is written from lines of tokens with a good deal of freedom: blanks
before the first token of a line, blanks and commas around the others, either line
ending, comments in between. `ScriptText` is the relation between the tokens of the
lines and every such text. Whatever the text, `scriptTokens` finds the tokens again
(`scriptTokens_of_scriptText`).

Two facts carry the proof. A newline splits a script into two scripts, and a
separator splits a line into two lines, whose tokens stand one after the other. And
the carriage return of a line end belongs to the line before it, where it is one more
blank after the last token or one more character of a comment.
-/

namespace CircuitGrid

/-! ## Cutting a text -/

section Cutting

variable {cut : Char → Bool}

theorem splitAt_ne_nil (cs : List Char) : splitAt cut cs ≠ [] := by
  cases cs with
  | nil => simp [splitAt]
  | cons c cs =>
    rw [splitAt]
    split
    · simp
    · split <;> simp

theorem splitAt_cons_of_cut {c : Char} (h : cut c = true) (cs : List Char) :
    splitAt cut (c :: cs) = [] :: splitAt cut cs := by
  simp [splitAt, h]

/-- A character that does not cut goes to the piece after it. -/
theorem splitAt_cons_of_not_cut {c : Char} (h : cut c = false) {cs piece : List Char}
    {pieces : List (List Char)} (hcs : splitAt cut cs = piece :: pieces) :
    splitAt cut (c :: cs) = (c :: piece) :: pieces := by
  simp [splitAt, h, hcs]

/-- A text without cuts is one piece. -/
theorem splitAt_of_forall {cs : List Char} (h : ∀ c ∈ cs, cut c = false) :
    splitAt cut cs = [cs] := by
  induction cs with
  | nil => rfl
  | cons c cs ih =>
    exact splitAt_cons_of_not_cut (h c List.mem_cons_self)
      (ih fun d hd => h d (List.mem_cons_of_mem _ hd))

/-- A cut separates the pieces before it from those after it. -/
theorem splitAt_append_cons {c : Char} (h : cut c = true) (before after : List Char) :
    splitAt cut (before ++ c :: after) = splitAt cut before ++ splitAt cut after := by
  induction before with
  | nil => exact splitAt_cons_of_cut h after
  | cons d before ih =>
    cases hd : cut d with
    | true =>
      rw [List.cons_append, splitAt_cons_of_cut hd, splitAt_cons_of_cut hd, ih]
      rfl
    | false =>
      obtain ⟨piece, pieces, hpieces⟩ := List.exists_cons_of_ne_nil (@splitAt_ne_nil cut before)
      rw [List.cons_append, splitAt_cons_of_not_cut hd hpieces,
        splitAt_cons_of_not_cut hd (by rw [ih, hpieces]; rfl)]
      rfl

end Cutting

/-! ## The tokens of a line -/

/-- The characters between tokens. -/
def isSeparator (c : Char) : Bool := isBlank c || c == ','

theorem isSeparator_of_isBlank {c : Char} (h : isBlank c = true) : isSeparator c = true := by
  simp [isSeparator, h]

theorem lineTokens_eq (line : List Char) :
    lineTokens line = (splitAt isSeparator line).filter (!·.isEmpty) :=
  rfl

/-- A separator puts the tokens before it in front of those after it. -/
theorem lineTokens_append_cons {c : Char} (h : isSeparator c = true) (before after : List Char) :
    lineTokens (before ++ c :: after) = lineTokens before ++ lineTokens after := by
  rw [lineTokens_eq, splitAt_append_cons h, List.filter_append]
  rfl

theorem lineTokens_cons_of_isSeparator {c : Char} (h : isSeparator c = true) (cs : List Char) :
    lineTokens (c :: cs) = lineTokens cs :=
  lineTokens_append_cons h [] cs

theorem lineTokens_append_of_isSeparator {gap : List Char} (h : ∀ c ∈ gap, isSeparator c = true)
    (cs : List Char) : lineTokens (gap ++ cs) = lineTokens cs := by
  induction gap with
  | nil => rfl
  | cons c gap ih =>
    rw [List.cons_append, lineTokens_cons_of_isSeparator (h c List.mem_cons_self)]
    exact ih fun d hd => h d (List.mem_cons_of_mem _ hd)

theorem lineTokens_of_isSeparator {gap : List Char} (h : ∀ c ∈ gap, isSeparator c = true) :
    lineTokens gap = [] := by
  simpa [lineTokens, splitAt] using lineTokens_append_of_isSeparator h []

/-- The characters of a token. -/
structure IsToken (token : List Char) : Prop where
  nonempty : token ≠ []
  solid : ∀ c ∈ token, isSeparator c = false

instance (token : List Char) : Decidable (IsToken token) :=
  decidable_of_iff (token ≠ [] ∧ token.all fun c => !isSeparator c) (by
    simp only [List.all_eq_true, Bool.not_eq_true']
    exact ⟨fun h => ⟨h.1, h.2⟩, fun h => ⟨h.nonempty, h.solid⟩⟩)

theorem IsToken.lineTokens {token : List Char} (h : IsToken token) :
    lineTokens token = [token] := by
  rw [lineTokens_eq, splitAt_of_forall h.solid]
  simp [h.nonempty]

/-! ## The tokens of a script -/

/-- A newline puts the tokens of the lines before it in front of those after it. -/
theorem scriptTokens_append_newline (before after : List Char) :
    scriptTokens (before ++ '\n' :: after) = scriptTokens before ++ scriptTokens after := by
  unfold scriptTokens
  rw [splitAt_append_cons (by decide), List.filter_append, List.flatMap_append]

/-- A text without newlines is a line. -/
theorem scriptTokens_of_line {line : List Char} (h : '\n' ∉ line) :
    scriptTokens line = if isComment line then [] else lineTokens line := by
  unfold scriptTokens
  rw [splitAt_of_forall fun c hc => by simpa using fun heq : c = '\n' => h (heq ▸ hc)]
  cases hcomment : isComment line <;> simp [hcomment]

theorem isComment_cons_of_isBlank {c : Char} (h : isBlank c = true) (cs : List Char) :
    isComment (c :: cs) = isComment cs := by
  simp [isComment, trimStart, h]

/-- A blank at the beginning of a script makes no difference, be it a newline or a part of the
first line. -/
theorem scriptTokens_cons_of_isBlank {c : Char} (h : isBlank c = true) (cs : List Char) :
    scriptTokens (c :: cs) = scriptTokens cs := by
  by_cases hc : c = '\n'
  · subst hc
    exact scriptTokens_append_newline [] cs
  · obtain ⟨line, lines, hlines⟩ :=
      List.exists_cons_of_ne_nil (@splitAt_ne_nil (· == '\n') cs)
    unfold scriptTokens
    rw [splitAt_cons_of_not_cut (by simpa using hc) hlines, hlines, List.filter_cons,
      List.filter_cons, isComment_cons_of_isBlank h]
    split
    · rw [List.flatMap_cons, List.flatMap_cons,
        lineTokens_cons_of_isSeparator (isSeparator_of_isBlank h)]
    · rfl

theorem scriptTokens_append_of_isBlank {blanks : List Char} (h : ∀ c ∈ blanks, isBlank c = true)
    (cs : List Char) : scriptTokens (blanks ++ cs) = scriptTokens cs := by
  induction blanks with
  | nil => rfl
  | cons c blanks ih =>
    rw [List.cons_append, scriptTokens_cons_of_isBlank (h c List.mem_cons_self)]
    exact ih fun d hd => h d (List.mem_cons_of_mem _ hd)

/-! ## Writing scripts -/

/-- A run of blanks and commas within a line. -/
def IsGap (gap : List Char) : Prop := ∀ c ∈ gap, isSeparator c = true ∧ c ≠ '\n'

instance (gap : List Char) : Decidable (IsGap gap) :=
  decidable_of_iff (gap.all fun c => isSeparator c && c != '\n') (by simp [IsGap])

theorem IsGap.concat_return {gap : List Char} (h : IsGap gap) : IsGap (gap ++ ['\r']) := by
  intro c hc
  rcases List.mem_append.mp hc with hc | hc
  · exact h c hc
  · rw [List.mem_singleton.mp hc]
    decide

theorem IsToken.newline_notMem {token : List Char} (h : IsToken token) : '\n' ∉ token :=
  fun hmem => absurd (h.solid _ hmem) (by decide)

/-- A gap holds no mark of a comment. -/
theorem isComment_of_isGap {gap : List Char} (h : IsGap gap) : isComment gap = false := by
  unfold isComment trimStart
  rw [beq_eq_false_iff_ne]
  intro hhead
  have hmem : '#' ∈ gap := (List.dropWhile_sublist _).subset (List.mem_of_mem_head? hhead)
  exact absurd (h _ hmem).1 (by decide)

/-- A line that begins with a token is a comment only if the token begins like one. -/
theorem IsToken.isComment {token : List Char} (h : IsToken token) (hfirst : token.head? ≠ some '#')
    (rest : List Char) : isComment (token ++ rest) = false := by
  cases token with
  | nil => exact absurd rfl h.nonempty
  | cons c token =>
    have hblank : isBlank c = false := by
      have hsolid := h.solid c List.mem_cons_self
      simp only [isSeparator, Bool.or_eq_false_iff] at hsolid
      exact hsolid.1
    have hmark : c ≠ '#' := by simpa using hfirst
    simp [CircuitGrid.isComment, trimStart, hblank, hmark]

/-- Tokens in a row: a gap between any two, and perhaps one after the last. -/
inductive TokensText : List (List Char) → List Char → Prop
  | nil {gap : List Char} : IsGap gap → TokensText [] gap
  | last {token gap : List Char} : IsToken token → IsGap gap → TokensText [token] (token ++ gap)
  | cons {token gap next text : List Char} {tokens : List (List Char)} : IsToken token →
      IsGap gap → gap ≠ [] → TokensText (next :: tokens) text →
      TokensText (token :: next :: tokens) (token ++ gap ++ text)

/-- A line as it is written, and its tokens. A comment has none. -/
inductive LineText : List (List Char) → List Char → Prop
  | comment {blanks text : List Char} : (∀ c ∈ blanks, isBlank c = true ∧ c ≠ '\n') →
      '\n' ∉ text → LineText [] (blanks ++ '#' :: text)
  | tokens {tokens : List (List Char)} {blanks text : List Char} :
      (∀ c ∈ blanks, isBlank c = true) → TokensText tokens text →
      (∀ token ∈ tokens.head?, token.head? ≠ some '#') → LineText tokens (blanks ++ text)

/-- A newline, or a carriage return and a newline. -/
def IsLineEnd (ending : List Char) : Prop := ending = ['\n'] ∨ ending = ['\r', '\n']

/-- Lines in a row, a line end between any two. -/
inductive LinesText : List (List (List Char)) → List Char → Prop
  | nil : LinesText [] []
  | last {tokens : List (List Char)} {line : List Char} : LineText tokens line →
      LinesText [tokens] line
  | cons {tokens next : List (List Char)} {line ending text : List Char}
      {lines : List (List (List Char))} : LineText tokens line → IsLineEnd ending →
      LinesText (next :: lines) text → LinesText (tokens :: next :: lines) (line ++ ending ++ text)

/-- A script as it is written, and the tokens of its lines: the lines in a row, and perhaps a line
end after the last. -/
inductive ScriptText : List (List (List Char)) → List Char → Prop
  | unended {lines : List (List (List Char))} {text : List Char} : LinesText lines text →
      ScriptText lines text
  | ended {lines : List (List (List Char))} {text ending : List Char} : LinesText lines text →
      IsLineEnd ending → ScriptText lines (text ++ ending)

/-! ## Reading what was written -/

namespace TokensText

variable {tokens : List (List Char)} {text : List Char}

theorem lineTokens (h : TokensText tokens text) : lineTokens text = tokens := by
  induction h with
  | nil hgap => exact lineTokens_of_isSeparator fun c hc => (hgap c hc).1
  | @last token gap htoken hgap =>
    cases gap with
    | nil =>
      rw [List.append_nil]
      exact htoken.lineTokens
    | cons c gap =>
      rw [lineTokens_append_cons (hgap c List.mem_cons_self).1, htoken.lineTokens,
        lineTokens_of_isSeparator fun d hd => (hgap d (List.mem_cons_of_mem _ hd)).1]
      rfl
  | @cons token gap next text tokens htoken hgap hne _ ih =>
    cases gap with
    | nil => exact absurd rfl hne
    | cons c gap =>
      rw [List.append_assoc, List.cons_append,
        lineTokens_append_cons (hgap c List.mem_cons_self).1, htoken.lineTokens,
        lineTokens_append_of_isSeparator fun d hd => (hgap d (List.mem_cons_of_mem _ hd)).1, ih]
      rfl

theorem newline_notMem (h : TokensText tokens text) : '\n' ∉ text := by
  induction h with
  | nil hgap => exact fun hmem => (hgap _ hmem).2 rfl
  | last htoken hgap =>
    rw [List.mem_append, not_or]
    exact ⟨htoken.newline_notMem, fun hmem => (hgap _ hmem).2 rfl⟩
  | cons htoken hgap _ _ ih =>
    rw [List.mem_append, List.mem_append, not_or, not_or]
    exact ⟨⟨htoken.newline_notMem, fun hmem => (hgap _ hmem).2 rfl⟩, ih⟩

theorem concat_return (h : TokensText tokens text) : TokensText tokens (text ++ ['\r']) := by
  induction h with
  | nil hgap => exact .nil hgap.concat_return
  | last htoken hgap =>
    rw [List.append_assoc]
    exact .last htoken hgap.concat_return
  | cons htoken hgap hne _ ih =>
    rw [List.append_assoc]
    exact .cons htoken hgap hne ih

/-- Tokens in a row are no comment, unless the first one begins like a comment. -/
theorem isComment (h : TokensText tokens text)
    (hfirst : ∀ token ∈ tokens.head?, token.head? ≠ some '#') : isComment text = false := by
  cases h with
  | nil hgap => exact isComment_of_isGap hgap
  | last htoken hgap => exact htoken.isComment (hfirst _ rfl) _
  | cons htoken hgap hne _ =>
    rw [List.append_assoc]
    exact htoken.isComment (hfirst _ rfl) _

end TokensText

namespace LineText

variable {tokens : List (List Char)} {line : List Char}

theorem scriptTokens (h : LineText tokens line) : scriptTokens line = tokens := by
  cases h with
  | @comment blanks text hblanks htext =>
    have hline : '\n' ∉ '#' :: text := by simpa using htext
    rw [scriptTokens_append_of_isBlank fun c hc => (hblanks c hc).1, scriptTokens_of_line hline]
    rfl
  | tokens hblanks htext hfirst =>
    rw [scriptTokens_append_of_isBlank hblanks, scriptTokens_of_line htext.newline_notMem,
      htext.isComment hfirst, htext.lineTokens]
    rfl

/-- A carriage return at the end of a line is one more blank, or one more character of a comment. -/
theorem concat_return (h : LineText tokens line) : LineText tokens (line ++ ['\r']) := by
  cases h with
  | comment hblanks htext =>
    rw [List.append_assoc]
    exact .comment hblanks (by simpa using htext)
  | tokens hblanks htext hfirst =>
    rw [List.append_assoc]
    exact .tokens hblanks htext.concat_return hfirst

/-- A line end puts the tokens of a line in front of those of the text after it. -/
theorem scriptTokens_append (h : LineText tokens line) {ending : List Char}
    (hending : IsLineEnd ending) (text : List Char) :
    CircuitGrid.scriptTokens (line ++ ending ++ text) =
      tokens ++ CircuitGrid.scriptTokens text := by
  rcases hending with rfl | rfl
  · rw [List.append_assoc]
    show CircuitGrid.scriptTokens (line ++ '\n' :: text) = _
    rw [scriptTokens_append_newline, h.scriptTokens]
  · have hreturn : line ++ ['\r', '\n'] ++ text = (line ++ ['\r']) ++ '\n' :: text := by simp
    rw [hreturn, scriptTokens_append_newline, h.concat_return.scriptTokens]

end LineText

theorem LinesText.scriptTokens {lines : List (List (List Char))} {text : List Char}
    (h : LinesText lines text) : scriptTokens text = lines.flatten := by
  induction h with
  | nil => rfl
  | last hline => simpa using hline.scriptTokens
  | cons hline hending _ ih =>
    rw [hline.scriptTokens_append hending, ih]
    rfl

/-- A line end after the last line makes no difference. -/
theorem LinesText.scriptTokens_append {lines : List (List (List Char))} {text : List Char}
    (h : LinesText lines text) {ending : List Char} (hending : IsLineEnd ending) :
    CircuitGrid.scriptTokens (text ++ ending) = lines.flatten := by
  induction h with
  | nil => rcases hending with rfl | rfl <;> rfl
  | last hline =>
    rw [← List.append_nil (_ ++ ending), hline.scriptTokens_append hending]
    rfl
  | cons hline hbetween _ ih =>
    rw [List.append_assoc, hline.scriptTokens_append hbetween, ih]
    rfl

/-- Every way of writing lines of tokens reads back as these tokens. -/
theorem scriptTokens_of_scriptText {lines : List (List (List Char))} {script : List Char}
    (h : ScriptText lines script) : scriptTokens script = lines.flatten := by
  cases h with
  | unended hlines => exact hlines.scriptTokens
  | ended hlines hending => exact hlines.scriptTokens_append hending

/-- A script gives the commands of the tokens of its lines in order, or, if there is a token that
names no command, what is wrong with the first such token. -/
theorem parseScript_of_scriptText {α : Type} [Angle α] [AngleText α] (step : α)
    {lines : List (List (List Char))} {script : List Char} (h : ScriptText lines script) :
    (∀ commands, parseScript step script = .ok commands ↔
      List.Forall₂ (fun token command => parseToken step token = .ok command)
        lines.flatten commands) ∧
    ∀ reason, parseScript step script = .error reason ↔
      ∃ before token after, lines.flatten = before ++ token :: after ∧
        (∀ earlier ∈ before, ∃ command : Command α, parseToken step earlier = .ok command) ∧
        parseToken step token = .error reason := by
  have hparse : parseScript step script = lines.flatten.mapM (parseToken step) := by
    rw [parseScript, scriptTokens_of_scriptText h]
  rw [hparse]
  exact ⟨fun _ => mapM_eq_ok_iff, fun _ => mapM_eq_error_iff⟩

/-- A comment behind a no-break space, lines ended either way, a line separator that ends no line,
a line of separators only, and a mark of a comment behind the first token. -/
theorem parseScript_of_scriptText_mixed :
    let script := "\u00a0# x y\r\n\tH,\u2028 rot+,\r\n,\ns #c\n".toList
    ScriptText [[], [['H'], "rot+".toList], [], [['s'], "#c".toList]] script ∧
      parseScript Radians.defaultStep script = .error (.unknownCommand "#c") := by
  intro script
  have hcomment : LineText [] "\u00a0# x y".toList :=
    @LineText.comment ['\u00a0'] " x y".toList (List.forall_mem_singleton.mpr (by decide))
      (by decide)
  have hgates : LineText [['H'], "rot+".toList] "\tH,\u2028 rot+,".toList :=
    @LineText.tokens _ ['\t'] _ (List.forall_mem_singleton.mpr (by decide))
      (@TokensText.cons ['H'] ",\u2028 ".toList _ _ _ (by decide) (by decide) (by decide)
        (@TokensText.last _ [','] (by decide) (by decide))) (by decide)
  have hgap : LineText [] [','] :=
    @LineText.tokens _ [] _ (List.forall_mem_nil _) (.nil (by decide)) (by decide)
  have hlast : LineText [['s'], "#c".toList] "s #c".toList :=
    @LineText.tokens _ [] _ (List.forall_mem_nil _)
      (@TokensText.cons ['s'] [' '] _ _ _ (by decide) (by decide) (by decide)
        (@TokensText.last _ [] (by decide) (by decide))) (by decide)
  have hscript : ScriptText [[], [['H'], "rot+".toList], [], [['s'], "#c".toList]] script :=
    .ended (.cons hcomment (.inr rfl) (.cons hgates (.inr rfl) (.cons hgap (.inl rfl)
      (.last hlast)))) (.inl rfl)
  refine ⟨hscript, ((parseScript_of_scriptText Radians.defaultStep hscript).2 _).mpr ?_⟩
  refine ⟨[['H'], "rot+".toList, ['s']], "#c".toList, [], rfl, ?_, by decide +kernel⟩
  -- the three tokens before it name commands
  intro earlier hearlier
  simp only [List.mem_cons, List.not_mem_nil, or_false] at hearlier
  rcases hearlier with rfl | rfl | rfl
  · exact ⟨.placeH, rfl⟩
  · exact ⟨.rotateBy Radians.defaultStep, by decide +kernel⟩
  · exact ⟨.navigateDown, rfl⟩

end CircuitGrid
