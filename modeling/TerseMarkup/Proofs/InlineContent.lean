import TerseMarkup.Proofs.Inlining
import TerseMarkup.Proofs.Tag

/-!
# Content on the line of its element

Values and text may follow a tag on its line, or stand below it, and come to the same
(`Profile.compile_on_line_iff_below`). On the line they are read as the content of an element
(`inlineContent_eq_ok_iff`), below it as headlines of their own
(`Profile.ShowsContent.exists_opening`). Both are compared with `Setting.Shows`, which says what one
line of content is written as: an expression that does not go on is copied (`expression_eq_trim`),
and the space that a comma asks for may be put behind a text before or after its embedded markup is
rendered (`renderSpans_append_space`).
-/

namespace TerseMarkup

/-! ## Expressions of one line -/

/-- A group that pulls no line is copied. -/
theorem Nesting.close_exact {n : Nesting} {depth : Nat} {read tail g rest : Text}
    {cur cur' : Cursor} (h : n.close depth read tail cur = (.ok (g, rest), cur'))
    (hsize : cur'.size = cur.size) : g ++ rest = read ++ tail := by
  fun_induction n.close depth read tail cur with
  | case1 depth read tail cur mark r hm ih =>
    rw [ih h hsize, List.append_assoc, ← eq_append_of_mark? hm]
  | case2 depth read tail cur mark r hm hd =>
    cases h
    rw [List.append_assoc, ← eq_append_of_mark? hm]
  | case3 depth read tail cur mark r hm hd ih =>
    rw [ih h hsize, List.append_assoc, ← eq_append_of_mark? hm]
  | case4 => cases h
  | case5 depth read tail cur hm hend raw cur₁ hn ih =>
    have hpull := Cursor.size_of_next? hn
    have hle := n.size_close_le depth read raw.trimStart cur₁
    rw [h] at hle
    simp only at hle
    omega
  | case6 depth read tail cur hm hend literal r hq ih =>
    rw [ih h hsize, List.append_assoc, ← Text.eq_append_of_quoted? hq]
  | case7 => cases h
  | case8 depth read cur c r hm hend hq ih =>
    rw [ih h hsize, List.append_assoc]
    rfl

/-- A group that pulls no line is cut off its text. -/
theorem Nesting.group?_exact {n : Nesting} {t g rest : Text} {cur cur' : Cursor}
    (h : n.group? t cur = (.ok (some (g, rest)), cur')) (hsize : cur'.size = cur.size) :
    g ++ rest = t := by
  unfold group? at h
  split at h
  · cases h
  · rename_i start after depth ho
    split at h
    · rename_i found cur'' hc
      simp only [Prod.mk.injEq, Except.ok.injEq, Option.some.injEq] at h
      obtain ⟨rfl, rfl⟩ := h
      rw [close_exact hc hsize, ← eq_append_of_opening? ho]
    · cases h

/-- An atom that pulls no line is cut off its text. -/
theorem atom_exact {c : Char} {t a rest : Text} {cur cur' : Cursor}
    (h : atom none c t cur = (.ok (a, rest), cur')) (hsize : cur'.size = cur.size) :
    a ++ rest = c :: t := by
  rcases atom_cases h with hg | ⟨-, ⟨hq, -⟩ | ⟨-, hg | ⟨-, rfl, rfl, -⟩⟩⟩
  · cases hg
  · exact (Text.eq_append_of_quoted? hq).symm
  · exact Nesting.group?_exact hg hsize
  · rfl

/-- An expression that pulls no line and has no continuation is copied. -/
theorem expressionAtoms_exact {tail read : Text} {cur cur' : Cursor} (htail : tail.Tidy)
    (h : expressionAtoms tail cur = (.ok read, cur')) (hsize : cur'.size = cur.size) :
    read = tail := by
  fun_induction expressionAtoms tail cur generalizing read with
  | case1 tail cur hnil =>
    cases h
    exact (List.isEmpty_iff.1 hnil).symm
  | case2 tail cur hne found cur₁ hs =>
    rw [followBreaks_of_not_isBreak htail.not_isBreak] at hs
    cases hs
    simp at hne
  | case3 => cases h
  | case4 => cases h
  | case5 tail cur hne found c t cur₁ hs a rest cur₂ ha more cur₃ hm ih =>
    rw [followBreaks_of_not_isBreak htail.not_isBreak] at hs
    cases hs
    cases h
    -- Neither the atom nor what follows it can have pulled a line.
    have hsize₂ : cur₂.size ≤ cur.size := by
      have hle := size_atom_le none c t cur
      rwa [ha] at hle
    have hsize₃ : cur'.size ≤ cur₂.size := by
      have hle := size_expressionAtoms_le rest cur₂
      rwa [hm] at hle
    have hatom := atom_exact ha (by omega)
    have hrest := ih (htail.of_suffix ⟨a, hatom⟩) hm (by omega)
    rw [hrest, ← hatom]
    rfl

/-- An expression of one line is read as it stands. -/
theorem expression_eq_trim {t e : Text} {cur : Cursor} (ht : t.Tidy)
    (h : expression t cur = (.ok e, cur)) : e = t.trim := by
  unfold expression at h
  split at h
  · rename_i read cur' hread
    cases h
    have htidy := ht.trim.append_newline ht.newline_not_mem_trim
    rw [expressionAtoms_exact htidy hread rfl,
      Text.trim_append_blank _ (Text.forall_mem_of_all (by decide)), Text.trim_trim]
  · cases h

/-- Blanks behind an expression make no difference. -/
theorem expression_append_blank (t : Text) {e : Text} (he : ∀ c ∈ e, isBlank c = true)
    (cur : Cursor) : expression (t ++ e) cur = expression t cur := by
  unfold expression
  rw [Text.trim_append_blank t he]

/-! ## Text with a space behind it -/

/-- A space at the end of a text stays behind its span. -/
theorem closeSpan?_append_space (t : Text) :
    closeSpan? (t ++ [' ']) =
      (closeSpan? t).map fun (markup, written, rest) => (markup, written, rest ++ [' ']) := by
  fun_induction closeSpan? t with
  | case1 => rfl
  | case2 => rfl
  | case3 u ih =>
    rw [List.cons_append, List.cons_append, closeSpan?]
    simp only [if_true, ih, Option.map_map]
    rfl
  | case4 u he => rfl
  | case5 e u he hu => simp [closeSpan?, he, hu]
  | case6 c t hc ih =>
    rw [List.cons_append, closeSpan?.eq_def]
    simp only [if_neg hc, ih, Option.map_map]
    rfl

theorem Except.toOption_map {ε α β : Type} (f : α → β) (r : Except ε α) :
    (r.map f).toOption = r.toOption.map f := by
  cases r <;> rfl

theorem Except.eq_ok_iff {ε α : Type} {r : Except ε α} {a : α} :
    r = .ok a ↔ r.toOption = some a := by
  cases r <;> simp [Except.toOption]

/-- A space behind a text stays behind it. -/
theorem renderSpans_append_space (compile : Text → Except Diagnostic Text) (n : Nat) (t : Text) :
    (renderSpans compile n (t ++ [' '])).toOption =
      (renderSpans compile n t).toOption.map (· ++ [' ']) := by
  have hspan {e : Char} {u markup shown rest : Text}
      (hs : closeSpan? (e :: u) = some (markup, shown, rest)) :
      closeSpan? (e :: (u ++ [' '])) = some (markup, shown, rest ++ [' ']) := by
    rw [← List.cons_append, closeSpan?_append_space, hs]
    rfl
  fun_induction renderSpans compile n t with
  | case1 => simp [renderSpans, Except.map, Except.toOption]
  | case2 n =>
    rw [List.singleton_append, renderSpans_unclosed compile n (by decide) rfl]
    rfl
  | case3 n u ih =>
    simp only [List.cons_append, renderSpans, if_true, Except.toOption_map, ih, Option.map_map]
    rfl
  | case4 n e u he hs =>
    have hs' : closeSpan? (e :: (u ++ [' '])) = none := by
      rw [← List.cons_append, closeSpan?_append_space, hs]
      rfl
    rw [List.cons_append, List.cons_append, renderSpans_unclosed compile n he hs']
    rfl
  | case5 n e u he markup shown rest hs after hnil ih =>
    rw [List.cons_append, List.cons_append, renderSpans_span compile n he (hspan hs), if_pos hnil]
    exact ih
  | case6 n e u he markup shown rest hs after hnil out hc ih =>
    rw [List.cons_append, List.cons_append, renderSpans_span compile n he (hspan hs),
      if_neg hnil, hc]
    simp only [Except.toOption_map, Option.map_map]
    rw [show n + List.count '\n' shown = after from rfl, ih, Option.map_map]
    congr 1
    funext x
    exact (List.append_assoc _ _ _).symm
  | case7 n e u he markup shown rest hs after hnil line body hc ih =>
    rw [List.cons_append, List.cons_append, renderSpans_span compile n he (hspan hs),
      if_neg hnil, hc]
    simp only [Except.toOption_map]
    rw [show n + List.count '\n' shown = after from rfl, ih, Option.map_map, Option.map_map]
    congr 1
    funext x
    exact (List.append_assoc _ _ _).symm
  | case8 n e u he markup shown rest hs hnil d hd hc =>
    rw [List.cons_append, List.cons_append, renderSpans_span compile n he (hspan hs),
      if_neg hnil, hc]
    cases d with
    | unrecognised line body => exact (hd line body rfl).elim
    | _ => rfl
  | case9 n c t hc ih =>
    rw [dite_eq_ite] at ih
    rw [List.cons_append, renderSpans.eq_def]
    simp only [if_neg hc, Except.toOption_map, ih, Option.map_map]
    rfl

/-! ## What content shows -/

/-- An optional mark does not depend on blanks at the end of the text. -/
theorem optionalMark_append_blank {mark : Char} (hmark : isBlank mark = false) (t : Text)
    {e : Text} (he : ∀ c ∈ e, isBlank c = true) :
    optionalMark mark (t ++ e) = ((optionalMark mark t).1, (optionalMark mark t).2 ++ e) := by
  cases e with
  | nil => simp
  | cons b e =>
    have hb : b ∉ [mark] := by
      rw [List.mem_singleton]
      rintro rfl
      rw [he b List.mem_cons_self] at hmark
      cases hmark
    unfold optionalMark
    rw [Text.after?_append_cons hb]
    cases Text.after? [mark] t <;> rfl

/-- The expression of a value, behind the marks that may follow its equals sign. -/
def valueExpr (t : Text) : Text :=
  (optionalMark ',' (optionalMark '=' t).2).2

/-- A value as it is written, with the marks that may follow its equals sign in front of `t`. -/
def Delimiters.shownValue (d : Delimiters) (t expr : Text) : Text :=
  d.value (if (optionalMark '=' t).1 then d.withoutEscaping expr else expr) ++
    if (optionalMark ',' (optionalMark '=' t).2).1 then [' '] else []

/-- What the content `t` of one line, behind the mark `c`, is written as. -/
def Setting.Shows (s : Setting) (c : Char) (t w : Text) : Prop :=
  if c = '=' then w = s.delimiters.shownValue t (valueExpr t).trim
  else ∃ n, renderSpans s.embedded n (literalText (c :: t) []) = .ok w

/-- A literal block without lines is the text of its headline. -/
theorem literalText_nil (c : Char) (t : Text) :
    literalText (c :: t) [] = t.trim ++ if c = ',' then [' '] else [] := by
  have htext : Text.trimEnd (if (Text.trim t).isEmpty then [] else Text.trim t ++ ['\n']) =
      Text.trim t := by
    split
    · rename_i hnil
      rw [List.isEmpty_iff.1 hnil]
      rfl
    · rw [Text.trimEnd_append_blank _ (Text.forall_mem_of_all (by decide))]
      exact Text.trimEnd_eq_self fun _ => Text.isBlank_getLast?_trimEnd
  simp only [literalText, List.drop_succ_cons, List.drop_zero, alignLines, List.head?_cons,
    Option.some.injEq]
  rw [htext]
  split <;> simp

/-- The expression of a value is the end of the value. -/
theorem valueExpr_suffix (t : Text) : valueExpr t <:+ t :=
  (optionalMark_suffix _ _).trans (optionalMark_suffix _ _)

section

variable {s : Setting} {c : Char} {t e w : Text} {cur cur' : Cursor}

/-- Blanks behind a value stay behind its expression. -/
theorem valueExpr_append_blank (t : Text) (he : ∀ c ∈ e, isBlank c = true) :
    valueExpr (t ++ e) = valueExpr t ++ e := by
  unfold valueExpr
  rw [optionalMark_append_blank (by decide) t he, optionalMark_append_blank (by decide) _ he]

/-- A text without line feeds is tidy if it does not end in a backslash. -/
theorem Text.tidy_of_getLast? {t : Text} (hfeed : '\n' ∉ t)
    (hlast : t.trimEnd.getLast? ≠ some '\\') : t.Tidy := by
  have hblank : ∀ c ∈ ['\n'], isBlank c = true := Text.forall_mem_of_all (by decide)
  have hmem : t ++ ['\n'] ∈ Text.lines (t ++ ['\n'] ++ []) := by
    rw [Text.lines_append_feed hfeed]
    exact List.mem_cons_self
  have htidy : Text.Tidy (t ++ ['\n']) :=
    Text.tidy_of_mem_lines hmem (by rwa [Text.trimEnd_append_blank t hblank])
  exact htidy.of_append_blank (by decide)

/-- The value `t`, behind its equals sign, is all on its line. -/
def OneLineValue (t : Text) (cur : Cursor) : Prop :=
  (valueExpr t).Tidy ∧ ∃ expr, expression (valueExpr t) cur = (.ok expr, cur)

/-- A value that is on its line with blanks behind it is on it without them. -/
theorem OneLineValue.of_append_blank (h : OneLineValue (t ++ e) cur)
    (he : ∀ c ∈ e, isBlank c = true) : OneLineValue t cur := by
  obtain ⟨htidy, hexpr⟩ := h
  rw [valueExpr_append_blank t he] at htidy hexpr
  rw [expression_append_blank _ he] at hexpr
  exact ⟨htidy.of_append_blank (List.all_eq_true.2 he), hexpr⟩

/-- A value is on its line if its expression is, and no backslash ends it. -/
theorem oneLineValue_of_getLast? (hfeed : '\n' ∉ c :: t)
    (hlast : (Text.trimEnd (c :: t)).getLast? ≠ some '\\')
    (hexpr : ∃ expr, expression (valueExpr t) cur = (.ok expr, cur)) : OneLineValue t cur := by
  have htidy : Text.Tidy (c :: t) := Text.tidy_of_getLast? hfeed hlast
  exact ⟨htidy.of_suffix ((valueExpr_suffix t).trans (List.suffix_cons c t)), hexpr⟩

/-- Blanks behind the content do not show. -/
theorem Setting.shows_append_blank (he : ∀ c ∈ e, isBlank c = true) :
    s.Shows c (t ++ e) w ↔ s.Shows c t w := by
  unfold Setting.Shows Delimiters.shownValue
  rw [literalText_nil, literalText_nil, valueExpr_append_blank t he, Text.trim_append_blank _ he,
    Text.trim_append_blank _ he, optionalMark_append_blank (by decide) t he,
    optionalMark_append_blank (by decide) _ he]

/-- Text is rendered at the line at hand, and nothing is pulled for it. -/
theorem renderText_eq_ok_iff :
    renderText s t cur = (.ok w, cur') ↔
      cur = cur' ∧ renderSpans s.embedded cur.number t = .ok w := by
  constructor
  · intro h
    obtain ⟨n, cur₁, hn, h₁⟩ := Scan.bind_eq_ok_iff.1 h
    cases hn
    obtain ⟨hr, rfl⟩ := Scan.ofExcept_eq_ok_iff.1 h₁
    exact ⟨rfl, hr⟩
  · rintro ⟨rfl, hr⟩
    exact Scan.bind_eq_ok_iff.2 ⟨cur.number, cur, rfl, Scan.ofExcept_eq_ok_iff.2 ⟨hr, rfl⟩⟩

/-- A space behind a text is written behind it. -/
theorem renderSpans_append_space_eq_ok_iff {compile : Text → Except Diagnostic Text} {n : Nat} :
    renderSpans compile n (t ++ [' ']) = .ok w ↔
      ∃ v, renderSpans compile n t = .ok v ∧ v ++ [' '] = w := by
  rw [Except.eq_ok_iff, renderSpans_append_space, Option.map_eq_some_iff]
  simp only [Except.eq_ok_iff]

/-- The content of a headline shows what it shows, if its expression does not go on. -/
theorem inlineContent_eq_ok_iff (hc : c = '=' ∨ c = '|' ∨ c = ',')
    (hvalue : c = '=' → OneLineValue t cur) :
    inlineContent s (c :: t) cur = (.ok w, cur') ↔ cur = cur' ∧ s.Shows c t w := by
  rcases hc with rfl | rfl | rfl
  · obtain ⟨htidy, e, he⟩ := hvalue rfl
    obtain rfl := expression_eq_trim htidy he
    have hread : inlineContent s ('=' :: t) cur =
        (.ok (s.delimiters.shownValue t (valueExpr t).trim), cur) :=
      Scan.bind_eq_ok_iff.2 ⟨_, cur, he, rfl⟩
    rw [hread]
    simp [Setting.Shows, eq_comm, and_comm]
  · have hread : inlineContent s ('|' :: t) = renderText s t.trim := rfl
    rw [hread, renderText_eq_ok_iff, Setting.Shows, if_neg (by decide), literalText_nil,
      if_neg (by decide), List.append_nil]
    exact and_congr_right fun _ => ⟨fun h => ⟨_, h⟩, fun ⟨_, h⟩ => renderSpans_number _ h⟩
  · have hread : inlineContent s (',' :: t) cur = (.ok w, cur') ↔
        ∃ v, renderText s t.trim cur = (.ok v, cur') ∧ w = v ++ [' '] := by
      constructor
      · intro h
        obtain ⟨v, cur₁, hv, h₁⟩ := Scan.bind_eq_ok_iff.1 h
        cases h₁
        exact ⟨v, hv, rfl⟩
      · rintro ⟨v, hv, rfl⟩
        exact Scan.bind_eq_ok_iff.2 ⟨v, cur', hv, rfl⟩
    rw [hread, Setting.Shows, if_neg (by decide), literalText_nil, if_pos rfl]
    simp only [renderText_eq_ok_iff, renderSpans_append_space_eq_ok_iff]
    constructor
    · rintro ⟨v, ⟨rfl, hv⟩, rfl⟩
      exact ⟨rfl, _, v, hv, rfl⟩
    · rintro ⟨rfl, n, v, hv, rfl⟩
      exact ⟨v, ⟨rfl, renderSpans_number _ hv⟩, rfl⟩

end

/-! ## Content below its element -/

/-- The profile has rules for values and for text, and its values start unlike plain words. -/
structure Profile.ShowsContent (p : Profile) : Prop where
  standard : p.IsStandard
  value : Rule.value ∈ p.rules
  literal : Rule.explicitLiteral ∈ p.rules
  foreign : p.delimiters.Foreign

namespace Profile

/-- Values and texts can stand below an element under the Mako profile. -/
theorem mako_showsContent {markdown : Transpiler} : (mako markdown).ShowsContent := by
  refine ⟨mako_isStandard, ?_, ?_, ?_⟩
  · simp [mako, Rule.standard]
  · simp [mako, Rule.standard]
  · rintro c ⟨⟩
    decide

/-- Values and texts can stand below an element under the Django profile. -/
theorem django_showsContent {markdown : Transpiler} : (django markdown).ShowsContent := by
  refine ⟨django_isStandard, ?_, ?_, ?_⟩
  · simp [django, dropRule, mako, Rule.standard, show Rule.value.name = "variable" from rfl]
  · simp [django, dropRule, mako, Rule.standard,
      show Rule.explicitLiteral.name = "explicit_literal" from rfl]
  · rintro c ⟨⟩
    decide

/-- A rule that is the only one to recognise a line is the one that counts. -/
theorem recognise_of_only {p : Profile} {line : Text} {rule : Rule} {found : Recognition}
    (hmem : rule ∈ p.rules) (hsome : rule.recognise line = some found)
    (honly : ∀ rule' ∈ p.rules, rule' = rule ∨ rule'.recognise line = none) :
    p.recognise line = some found := by
  cases h : p.recognise line with
  | none =>
    have hnone := List.findSome?_eq_none_iff.1 (Option.map_eq_none_iff.1 h) rule hmem
    rw [hsome] at hnone
    cases hnone
  | some found' =>
    obtain ⟨rule', hmem', hsome'⟩ := exists_rule_of_recognise h
    rcases honly rule' hmem' with rfl | hnone
    · rw [← hsome, hsome']
    · rw [hnone] at hsome'
      cases hsome'

end Profile

/-- Only the rule for values sees anything behind an equals sign. -/
theorem Rule.eq_value_or {rule : Rule} (hr : rule ∈ standard) (t : Text) :
    rule = value ∨ rule.recognise ('=' :: t) = none := by
  simp only [standard, List.mem_cons, List.not_mem_nil, or_false] at hr
  rcases hr with rfl | rfl | rfl | rfl | rfl | rfl | rfl | rfl | rfl | rfl | rfl | rfl | rfl |
    rfl | rfl | rfl | rfl | rfl | rfl
  any_goals exact .inl rfl
  all_goals exact .inr rfl

/-- Only the rule for text behind a mark sees anything in such a line. -/
theorem Rule.eq_explicitLiteral_or {rule : Rule} (hr : rule ∈ standard) {c : Char}
    (hc : c = '|' ∨ c = ',') (t : Text) :
    rule = explicitLiteral ∨ rule.recognise (c :: t) = none := by
  simp only [standard, List.mem_cons, List.not_mem_nil, or_false] at hr
  rcases hr with rfl | rfl | rfl | rfl | rfl | rfl | rfl | rfl | rfl | rfl | rfl | rfl | rfl |
    rfl | rfl | rfl | rfl | rfl | rfl
  any_goals exact .inl rfl
  all_goals
    right
    rcases hc with rfl | rfl <;> rfl

section

variable {s : Setting} {cur cur' : Cursor}

/-- A block above lines at the margin is made of blank lines. -/
theorem exists_rawBlock (hmargin : MarginLines cur.ahead) (level : Nat) :
    ∃ blanks next cur', rawBlock level cur = (.ok (blanks, next), cur') ∧
      (∀ raw ∈ blanks, (Line.ofRaw raw).body = []) ∧ next.Settled cur.ahead cur' := by
  obtain ⟨hblank, hs⟩ :=
    blockOver_settled level (fun _ _ hs hbody => hmargin.indent_eq hs hbody) cur.number
  exact ⟨_, _, _, rfl, hblank, hs⟩

/-- A value with blank lines below it is what stands on its headline. -/
theorem openValue_of_blank {level : Nat} {blanks : List Text} {next : Line}
    (hblock : rawBlock level cur = (.ok (blanks, next), cur'))
    (hblank : ∀ raw ∈ blanks, (Line.ofRaw raw).body = []) {line t : Text} (hfeed : '\n' ∉ t) :
    Headline.opening s level line (.value (optionalMark '=' t).1
        (optionalMark ',' (optionalMark '=' t).2).1 (Text.firstLine (valueExpr t).trimStart)) cur =
      (.ok (.leaf (s.delimiters.shownValue t (valueExpr t).trim) next), cur') := by
  have hsuffix : (valueExpr t).trimStart <:+ t :=
    (Text.trimStart_suffix _).trans (valueExpr_suffix t)
  have hline : Text.firstLine (valueExpr t).trimStart = (valueExpr t).trimStart :=
    Text.firstLine_eq_self fun hmem => hfeed (hsuffix.subset hmem)
  refine Scan.bind_eq_ok_iff.2 ⟨(blanks, next), cur', hblock, ?_⟩
  simp only [flatten_bodies_of_blank hblank, List.append_nil, hline]
  rfl

/-- A literal with blank lines below it is the text of its headline, rendered. -/
theorem openLiteral_of_blank {level : Nat} {blanks : List Text} {next : Line}
    (hblock : rawBlock level cur = (.ok (blanks, next), cur'))
    (hblank : ∀ raw ∈ blanks, (Line.ofRaw raw).body = []) {line t : Text} {opening : Opening}
    {cur'' : Cursor} :
    Headline.opening s level line (.literal t) cur = (.ok opening, cur'') ↔ cur' = cur'' ∧
      ∃ w, (∃ n, renderSpans s.embedded n (literalText t []) = .ok w) ∧ opening = .leaf w next := by
  have htext : literalText t blanks = literalText t [] := literalText_append_blank t [] hblank
  constructor
  · intro h
    obtain ⟨⟨w, next'⟩, cur₁, hl, h₁⟩ := Scan.bind_eq_ok_iff.1 h
    cases h₁
    obtain ⟨block, hb, hw⟩ := literalBlock_eq_ok_iff.1 hl
    cases hblock.symm.trans hb
    exact ⟨rfl, w, htext ▸ hw, rfl⟩
  · rintro ⟨rfl, w, hw, rfl⟩
    refine Scan.bind_eq_ok_iff.2 ⟨(w, next), cur', literalBlock_eq_ok_iff.2 ?_, rfl⟩
    exact ⟨blanks, hblock, htext.symm ▸ hw⟩

/-- Content that is a line of its own shows what it shows, and the line that settles is handed
back. -/
theorem Profile.ShowsContent.exists_opening {p : Profile} (hp : p.ShowsContent) (s : Setting)
    (hmargin : MarginLines cur.ahead) (level : Nat) {c : Char} (hc : c = '=' ∨ c = '|' ∨ c = ',')
    {t : Text} (hfeed : '\n' ∉ t) :
    ∃ found next curₙ, p.recognise (c :: t) = some found ∧ next.Settled cur.ahead curₙ ∧
      ∀ opening cur', found.headline.opening s level (c :: t) cur = (.ok opening, cur') ↔
        curₙ = cur' ∧ ∃ w, s.Shows c t w ∧ opening = .leaf w next := by
  obtain ⟨blanks, next, curₙ, hblock, hblank, hs⟩ := exists_rawBlock hmargin level
  by_cases hvalue : c = '='
  · subst hvalue
    have honly : ∀ rule ∈ p.rules, rule = Rule.value ∨ rule.recognise ('=' :: t) = none :=
      fun rule hr => Rule.eq_value_or (hp.standard.subset hr) t
    refine ⟨_, next, curₙ, recognise_of_only hp.value rfl honly, hs, fun opening cur' => ?_⟩
    refine (iff_of_eq (congrArg (· = (.ok opening, cur'))
      (openValue_of_blank hblock hblank hfeed))).trans ?_
    simp [Setting.Shows, eq_comm, and_comm]
  · have hmark : c = '|' ∨ c = ',' := hc.resolve_left hvalue
    have honly : ∀ rule ∈ p.rules, rule = Rule.explicitLiteral ∨ rule.recognise (c :: t) = none :=
      fun rule hr => Rule.eq_explicitLiteral_or (hp.standard.subset hr) hmark t
    have hfound : Rule.explicitLiteral.recognise (c :: t) =
        some ⟨Text.firstLine (c :: t), [], .literal (c :: t)⟩ := by
      rcases hmark with rfl | rfl <;> rfl
    refine ⟨_, next, curₙ, recognise_of_only hp.literal hfound honly, hs, fun opening cur' => ?_⟩
    simp only [Setting.Shows, if_neg hvalue]
    exact openLiteral_of_blank hblock hblank

end

/-! ## Tags with content behind them -/

/-- A tag is written with the characters of names and marks. -/
theorem Tag.isMarkChar_of_mem (tag : Tag) {c : Char} (hc : c ∈ tag.written) :
    isMarkChar c = true := by
  rcases List.mem_append.1 hc with hc | hc
  · cases hname : tag.name with
    | nil =>
      rw [hname] at hc
      cases hc
    | cons b u =>
      obtain ⟨hb, hu⟩ := tag.name_valid b u hname
      rw [hname] at hc
      rcases List.mem_cons.1 hc with rfl | hc
      · simp [isMarkChar, isPlainChar, isElementRest, hb]
      · simp [isMarkChar, isPlainChar, hu c hc]
  · exact tag.marked_writtenMarks.chars c hc

/-- None of these is blank. -/
theorem Tag.isBlank_of_isMarkChar {c : Char} (h : isMarkChar c = true) : isBlank c = false := by
  simp only [isMarkChar, isPlainChar, isElementRest, isElementStart, isDigit, Bool.or_eq_true,
    Bool.and_eq_true, beq_iff_eq, decide_eq_true_eq] at h
  rcases h with (((((h | h) | h) | rfl) | rfl) | rfl) | rfl
  · exact isBlank_of_between h (by decide) (by decide)
  · exact isBlank_of_between h (by decide) (by decide)
  · exact isBlank_of_between h (by decide) (by decide)
  all_goals decide

namespace Tag

variable (tag : Tag)

/-- A tag has no blanks in it. -/
theorem isBlank_of_mem {c : Char} (hc : c ∈ tag.written) : isBlank c = false :=
  isBlank_of_isMarkChar (tag.isMarkChar_of_mem hc)

/-- There is nothing to trim in front of a tag. -/
theorem trimStart_written : Text.trimStart tag.written = tag.written :=
  Text.trimStart_eq_self fun _ hc => tag.isBlank_of_mem (List.mem_of_head? hc)

/-- There is nothing to trim around a tag. -/
theorem trim_written : tag.written.trim = tag.written := by
  unfold Text.trim
  rw [tag.trimStart_written]
  exact Text.trimEnd_eq_self fun _ hc => tag.isBlank_of_mem (List.mem_of_getLast? hc)

/-- What is trimmed behind content is trimmed behind a tag with that content. -/
theorem trim_written_append (hne : tag.written ≠ []) {c : Char} {t u : Text}
    (h : Text.trimEnd (c :: t) = c :: u) :
    Text.trim (tag.written ++ ' ' :: c :: t) = tag.written ++ ' ' :: c :: u := by
  have hend : Text.trimEnd (c :: t) ≠ [] := by simp [h]
  have happend := Text.trimEnd_append hend (tag.written ++ [' '])
  unfold Text.trim
  rw [Text.trimStart_append (by rwa [tag.trimStart_written]), tag.trimStart_written]
  rw [h] at happend
  simpa using happend

/-- A tag can be the body of a line. -/
theorem lineBody (hne : tag.written ≠ []) : tag.written.LineBody := by
  refine .of_trim tag.trim_written hne fun hmem => ?_
  have hblank := tag.isBlank_of_mem hmem
  cases hblank

end Tag

/-- The end of a text that starts with no blank is trimmed behind its first character. -/
theorem Text.exists_trimEnd_cons {c : Char} (hc : isBlank c = false) (t : Text) :
    ∃ t' e, t = t' ++ e ∧ (∀ b ∈ e, isBlank b = true) ∧ trimEnd (c :: t) = c :: t' := by
  obtain ⟨e, heq, he⟩ := exists_trimEnd_append (c :: t)
  rw [List.all_eq_true] at he
  cases htrim : trimEnd (c :: t) with
  | nil =>
    rw [htrim, List.nil_append] at heq
    have hblank := he c (heq ▸ List.mem_cons_self)
    rw [hc] at hblank
    cases hblank
  | cons b t' =>
    rw [htrim, List.cons_append, List.cons.injEq] at heq
    obtain ⟨rfl, rfl⟩ := heq
    exact ⟨t', e, rfl, he, rfl⟩

/-- An element is finished with nothing behind it, or with content that is written into it. -/
theorem Element.exists_finish (s : Setting) (name attributes : Text) :
    ∃ e : Element, e.rest = [] ∧ (∀ cur, finish s name attributes [] cur = (.ok e, cur)) ∧
      ∀ t, Text.after? [':'] t = none → ∀ cur e' cur',
        finish s name attributes t cur = (.ok e', cur') ↔
          ∃ v, inlineContent s t cur = (.ok v, cur') ∧
            e' = { e with opened := e.opened ++ v, content := v } := by
  refine ⟨_, ?_, fun cur => rfl, fun t ht cur e' cur' => ?_⟩
  · rfl
  · unfold finish
    simp only [ht, Scan.bind_eq_ok_iff, List.append_nil]
    constructor
    · rintro ⟨v, cur₁, hv, h⟩
      cases h
      exact ⟨v, hv, rfl⟩
    · rintro ⟨v, hv, rfl⟩
      exact ⟨v, cur', hv, rfl⟩

/-- A tag opens a block, and content behind a space is written into it. -/
theorem Tag.exists_openElement (s : Setting) (hd : s.delimiters.Foreign) (tag : Tag)
    (hne : tag.written ≠ []) :
    ∃ opened closed,
      (∀ cur, openElement s none tag.written cur = (.ok (.block opened closed), cur)) ∧
      ∀ {c : Char} {t : Text} {cur : Cursor}, (c = '=' ∨ c = '|' ∨ c = ',') →
        (c = '=' → OneLineValue t cur) → ∀ opening cur',
          openElement s none (tag.written ++ ' ' :: c :: t) cur = (.ok opening, cur') ↔
            cur = cur' ∧ ∃ v, s.Shows c t v ∧ opening = .block (opened ++ v) closed := by
  obtain ⟨name, attributes, hread⟩ := Element.read_tag s hd tag
  obtain ⟨e, hrest, hnil, hfinish⟩ := Element.exists_finish s name attributes
  refine ⟨e.opened, e.closed, fun cur => openElement_of_nil ?_ hrest, ?_⟩
  · have halone := hread [] cur Text.spaced_nil (fun c hc => by cases hc)
    rw [List.append_nil] at halone
    rw [tag.trim_written, halone]
    exact hnil cur
  · intro c t cur hc hvalue opening cur'
    have hblank : isBlank c = false := isBlank_of_contentMark hc
    have hcolon (u : Text) : Text.after? [':'] (c :: u) = none := by
      rcases hc with rfl | rfl | rfl <;> rfl
    -- Trimming the line can only take blanks off the content.
    obtain ⟨t, blanks, rfl, hblanks, htrimEnd⟩ := Text.exists_trimEnd_cons hblank t
    have htrim := tag.trim_written_append hne htrimEnd
    have hstart : Text.trimStart (' ' :: c :: t) = c :: t := by
      rw [Text.trimStart_cons, if_pos (by decide), Text.trimStart_cons, if_neg (by simp [hblank])]
    have hcontent : Text.Content (Text.trimStart (' ' :: c :: t)) := by
      rw [hstart]
      rintro b ⟨⟩
      exact hc
    have hline := hread (' ' :: c :: t) cur (Text.spaced_cons _) hcontent
    rw [hstart, ← htrim] at hline
    have hvalue' : c = '=' → OneLineValue t cur := fun hmark =>
      (hvalue hmark).of_append_blank hblanks
    simp only [Setting.shows_append_blank hblanks]
    constructor
    · intro h
      obtain ⟨e₁, cur₁, hr, hblock⟩ := Scan.bind_eq_ok_iff.1 h
      obtain ⟨v, hv, rfl⟩ := (hfinish _ (hcolon t) _ _ _).1 (hline.symm.trans hr)
      obtain ⟨rfl, hshows⟩ := (inlineContent_eq_ok_iff hc hvalue').1 hv
      rw [if_pos (by simp [hrest])] at hblock
      cases hblock
      exact ⟨rfl, v, hshows, rfl⟩
    · rintro ⟨rfl, v, hshows, rfl⟩
      have hv := (inlineContent_eq_ok_iff hc hvalue').2 ⟨rfl, hshows⟩
      exact openElement_of_nil (hline.trans ((hfinish _ (hcolon t) _ _ _).2 ⟨v, hv, rfl⟩)) hrest

/-! ## Content behind and below a tag -/

namespace Text

/-- Dropping a terminator does not reach in front of a text that is not empty. -/
theorem dropTerminator_append {u : Text} (hu : u ≠ []) (t : Text) :
    dropTerminator (t ++ u ++ ['\n']) = t ++ dropTerminator (u ++ ['\n']) := by
  rcases List.eq_nil_or_concat u with rfl | ⟨u, b, rfl⟩
  · exact absurd rfl hu
  · unfold dropTerminator
    rw [List.concat_eq_append, ← List.append_assoc]
    simp only [List.getLast?_concat, List.dropLast_concat, if_true, Option.some.injEq]
    split
    · rfl
    · rw [List.append_assoc]

/-- Without its terminator a line can be short of one blank. -/
theorem exists_dropTerminator_cons {c : Char} (hc : isBlank c = false) (t : Text) :
    ∃ t' e, t = t' ++ e ∧ (∀ b ∈ e, isBlank b = true) ∧
      dropTerminator (c :: t ++ ['\n']) = c :: t' := by
  rcases List.eq_nil_or_concat t with rfl | ⟨u, b, rfl⟩
  · have hreturn : c ≠ '\r' := by
      rintro rfl
      cases hc
    exact ⟨[], [], rfl, List.forall_mem_nil _, by simp [dropTerminator, hreturn]⟩
  · rw [List.concat_eq_append]
    have hdrop : dropTerminator (c :: (u ++ [b]) ++ ['\n']) =
        c :: dropTerminator (u ++ [b] ++ ['\n']) := dropTerminator_append (by simp) [c]
    rw [hdrop]
    by_cases hb : b = '\r'
    · subst hb
      exact ⟨u, ['\r'], rfl, forall_mem_of_all (by decide), by simp [dropTerminator]⟩
    · exact ⟨u ++ [b], [], (List.append_nil _).symm, List.forall_mem_nil _, by
        simp [dropTerminator, hb]⟩

end Text

/-- The line of a tag with content behind it loses its terminator off the content. -/
theorem Tag.ofRaw_append (tag : Tag) (hne : tag.written ≠ []) {c : Char} {t u : Text}
    (h : Text.dropTerminator (c :: t ++ ['\n']) = c :: u) :
    Line.ofRaw (tag.written ++ ' ' :: c :: t ++ ['\n']) = ⟨0, tag.written ++ ' ' :: c :: u⟩ := by
  have hcut := Text.dropTerminator_append (List.cons_ne_nil c t) (tag.written ++ [' '])
  rw [h] at hcut
  cases htag : tag.written with
  | nil => exact absurd htag hne
  | cons b w =>
    have hb : isBlank b = false := tag.isBlank_of_mem (htag ▸ List.mem_cons_self)
    have hraw := Line.ofRaw_append (List.forall_mem_nil _) hb (w ++ ' ' :: c :: t ++ ['\n'])
    rw [htag] at hcut
    refine hraw.trans (congrArg (Line.mk 0) ?_)
    simpa using hcut

/-- A headline that is read in just the given ways is written in one of them. -/
theorem Outline.writes_announced_of_iff {recognise : Text → Option Recognition} {s : Setting}
    {stack : List Frame} {level : Nat} {line : Text} {cur curₙ : Cursor} {found : Recognition}
    {P : Text → Prop} {f : Text → Opening} (hfound : recognise line = some found)
    (hopen : ∀ opening cur', found.headline.opening s level line cur = (.ok opening, cur') ↔
      curₙ = cur' ∧ ∃ v, P v ∧ opening = f v) {w : Text} :
    (⟨stack, ⟨level, line⟩, true, cur⟩ : Outline).Writes recognise s w ↔ ∃ v more, P v ∧
      w = (f v).written ++ more ∧ (⟨(f v).frames level ++ stack, (f v).line level,
        (f v).announces, curₙ⟩ : Outline).Writes recognise s more := by
  rw [writes_announced_iff]
  constructor
  · rintro ⟨found', opening, cur', more, hfound', hopen', rfl, hmore⟩
    cases hfound.symm.trans hfound'
    obtain ⟨rfl, v, hv, rfl⟩ := (hopen opening cur').1 hopen'
    exact ⟨v, more, hv, rfl, hmore⟩
  · rintro ⟨v, more, hv, rfl, hmore⟩
    exact ⟨found, f v, curₙ, more, hfound, (hopen _ _).2 ⟨rfl, v, hv, rfl⟩, rfl, hmore⟩

namespace Profile

variable {p : Profile} {s : Setting} {tag : Tag} {found : Recognition} {c : Char} {t : Text}

/-- A line with a tag and content comes to what the tag opens and the content one line below comes
to. -/
theorem ShowsContent.exists_writes_iff (hp : p.ShowsContent) (hs : s.delimiters.Foreign)
    (hfound : p.lookUp tag.written = some (Rule.element, found))
    (hc : c = '=' ∨ c = '|' ∨ c = ',') (hfeed : '\n' ∉ t) {lines : List Text}
    (hvalue : c = '=' → OneLineValue t ⟨lines, 1⟩)
    (hmargin : MarginLines lines) :
    ∃ opened closed,
      (∀ cur, openElement s none tag.written cur = (.ok (.block opened closed), cur)) ∧
      ∀ w, (⟨[.document], ⟨0, tag.written ++ ' ' :: c :: t⟩, true, ⟨lines, 1⟩⟩ : Outline).Writes
          p.recognise s w ↔
        ∃ more, w = opened ++ more ∧ (⟨[.block 0 closed, .document], ⟨2, c :: t⟩, true,
          ⟨lines, 2⟩⟩ : Outline).Writes p.recognise s more := by
  have hne : tag.written ≠ [] := by
    obtain ⟨b, u, heq, -⟩ := exists_of_lookUp_element hfound
    simp [heq]
  obtain ⟨opened, closed, halone, hopen⟩ := tag.exists_openElement s hs hne
  have hkey : (Text.trimStart (' ' :: c :: t)).takeWhile Rule.isDoctypeChar = [] := by
    rcases hc with rfl | rfl | rfl <;> rfl
  obtain ⟨found', hfound', hheadline⟩ := lookUp_element_append hp.standard hfound (.inr rfl) hkey
  have hbehind : ∀ opening cur', found'.headline.opening s 0 (tag.written ++ ' ' :: c :: t)
      ⟨lines, 1⟩ = (.ok opening, cur') ↔
        ⟨lines, 1⟩ = cur' ∧ ∃ v, s.Shows c t v ∧ opening = .block (opened ++ v) closed := by
    rw [hheadline]
    exact hopen hc hvalue
  have hahead : MarginLines (Cursor.mk lines 2).ahead := hmargin
  obtain ⟨found₂, next, curₙ, hfound₂, hsettled, hbelow⟩ := hp.exists_opening s hahead 2 hc hfeed
  have hblock (more : Text) :
      (⟨[.block 0 closed, .document], ⟨0, []⟩, false, ⟨lines, 1⟩⟩ : Outline).Writes p.recognise s
          more ↔
        (⟨[.block 0 closed, .document], next, false, curₙ⟩ : Outline).Writes p.recognise s more :=
    Outline.writes_block_settled hp.standard hmargin 0 closed rfl 1 hsettled more
  refine ⟨opened, closed, halone, fun w => ?_⟩
  refine (Outline.writes_announced_of_iff (recognise_of_lookUp hfound').2 hbehind).trans ?_
  constructor
  · rintro ⟨v, more, hv, rfl, hmore⟩
    refine ⟨v ++ more, List.append_assoc opened v more, ?_⟩
    exact (Outline.writes_announced_of_iff hfound₂ hbelow).2
      ⟨v, more, hv, rfl, (hblock more).1 hmore⟩
  · rintro ⟨w, rfl, hw⟩
    obtain ⟨v, more, hv, rfl, hmore⟩ := (Outline.writes_announced_of_iff hfound₂ hbelow).1 hw
    exact ⟨v, more, hv, (List.append_assoc opened v more).symm, (hblock more).2 hmore⟩

/-- Values and text may stand behind a tag, on its line, or below it. -/
theorem compile_on_line_iff_below (hp : p.ShowsContent) (depth : Nat)
    (hfound : p.lookUp tag.written = some (Rule.element, found))
    (hc : c = '=' ∨ c = '|' ∨ c = ',') (hfeed : '\n' ∉ t) {rest : Text}
    (hvalue : c = '=' → (Text.trimEnd (c :: t)).getLast? ≠ some '\\' ∧
      ∃ e, expression (valueExpr t) ⟨rest.lines, 1⟩ = (.ok e, ⟨rest.lines, 1⟩))
    (hmargin : MarginLines rest.lines) (written : Text) :
    p.compile ⟨false, depth⟩ (tag.written ++ ' ' :: c :: t ++ ['\n'] ++ rest) = .ok written ↔
      p.compile ⟨false, depth⟩ (tag.written ++ "\n  ".toList ++ c :: t ++ ['\n'] ++ rest) =
        .ok written := by
  have hblank : isBlank c = false := isBlank_of_contentMark hc
  have hcontent : '\n' ∉ c :: t := by
    rcases hc with rfl | rfl | rfl <;> simpa using hfeed
  have hne : tag.written ≠ [] := by
    obtain ⟨b, u, heq, -⟩ := exists_of_lookUp_element hfound
    simp [heq]
  -- The body of either line may be short of a carriage return.
  obtain ⟨t, e, rfl, he, hdrop⟩ := Text.exists_dropTerminator_cons hblank t
  have hnested : Line.ofRaw (Outline.nestedLine (c :: (t ++ e))) = ⟨2, c :: t⟩ := by
    rw [← hdrop, Outline.nestedLine, List.append_assoc]
    exact Line.ofRaw_append (Text.forall_mem_of_all (by decide : "  ".toList.all _ = true)) hblank _
  have hvalue' : c = '=' → OneLineValue t ⟨rest.lines, 1⟩ := by
    intro hmark
    obtain ⟨hlast, hexpr⟩ := hvalue hmark
    exact (oneLineValue_of_getLast? hcontent hlast hexpr).of_append_blank he
  have hlong : '\n' ∉ tag.written ++ ' ' :: c :: (t ++ e) := by
    rw [List.mem_append, not_or]
    exact ⟨(tag.lineBody hne).oneLine, by simpa using hcontent⟩
  have hs : (p.setting (p.compileEmbedded depth depth)).delimiters.Foreign := hp.foreign
  obtain ⟨opened, closed, halone, hwrites⟩ := hp.exists_writes_iff hs hfound hc
    (fun hmem => hfeed (List.mem_append_left e hmem)) hvalue' hmargin
  have hopen (cur : Cursor) : found.headline.opening (p.setting (p.compileEmbedded depth depth)) 0
      tag.written cur = (.ok (.block opened closed), cur) := by
    rw [headline_of_lookUp_element hfound]
    exact halone cur
  have hm : Outline.Moves p.recognise (p.setting (p.compileEmbedded depth depth)) _ [] _ :=
    Outline.moves_first hlong (tag.ofRaw_append hne hdrop) (by simp) rest
  have hm' := Outline.moves_nested (tag.lineBody hne) hcontent hnested rest
    (recognise_of_lookUp hfound).2 (hopen _) rfl rfl trivial (.block (by simp) Nat.two_pos)
  rw [Outline.append_nestedLine, compile_eq_ok_iff_writes hp.standard,
    compile_eq_ok_iff_writes hp.standard, hm.writes_iff, hm'.writes_iff]
  simp only [List.nil_append, exists_eq_left', hwrites]
  rfl

/-- An unescaped value with a space behind it, above a statement. -/
theorem compile_on_line_unescaped :
    (mako id).compile ⟨false, 3⟩ "p#main.note ==, f(x, y) \n\n-if x: | z\n".toList =
        .ok "<p id=\"main\" class=\"note\">$\x7bf(x, y)|n\x7d </p>\n%if x:\nz\n%endif\n".toList ∧
      (mako id).compile ⟨false, 3⟩ "p#main.note\n  ==, f(x, y) \n\n-if x: | z\n".toList =
        .ok "<p id=\"main\" class=\"note\">$\x7bf(x, y)|n\x7d </p>\n%if x:\nz\n%endif\n".toList
    := by
  obtain ⟨tag, htag⟩ : ∃ tag : Tag, tag.written = "p#main.note".toList := by
    refine ⟨⟨"p".toList, [('#', "main".toList), ('.', "note".toList)], ?_, ?_⟩, rfl⟩
    · rintro c u ⟨⟩
      exact ⟨by decide, List.forall_mem_nil _⟩
    · refine List.forall_mem_cons.2 ⟨⟨.inl rfl, ?_⟩, List.forall_mem_singleton.2 ⟨.inr rfl, ?_⟩⟩
      · exact Text.forall_mem_of_all (by decide)
      · exact Text.forall_mem_of_all (by decide)
  have hfound : (mako id).lookUp tag.written =
      some (Rule.element, ⟨"p#main.note".toList, [], .element⟩) := by
    rw [htag]
    rfl
  have hexpr : expression (valueExpr "=, f(x, y) ".toList)
      ⟨Text.lines "\n-if x: | z\n".toList, 1⟩ =
        (.ok "f(x, y)".toList, ⟨Text.lines "\n-if x: | z\n".toList, 1⟩) := by
    decide +kernel
  have hmargin : MarginLines (Text.lines "\n-if x: | z\n".toList) := by
    unfold MarginLines
    decide +kernel
  have hbelow := compile_on_line_iff_below mako_showsContent 3 hfound (.inl rfl)
    (by decide : '\n' ∉ "=, f(x, y) ".toList) (fun _ => ⟨by decide, _, hexpr⟩) hmargin
  rw [htag] at hbelow
  have hbehind : (mako id).compile ⟨false, 3⟩ "p#main.note ==, f(x, y) \n\n-if x: | z\n".toList =
      .ok "<p id=\"main\" class=\"note\">$\x7bf(x, y)|n\x7d </p>\n%if x:\nz\n%endif\n".toList := by
    decide +kernel
  exact ⟨hbehind, (hbelow _).1 hbehind⟩

end Profile

end TerseMarkup
