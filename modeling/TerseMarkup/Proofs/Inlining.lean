import TerseMarkup.Proofs.Margin
import TerseMarkup.Proofs.Trimming

/-!
# Bodies behind a colon

A body of one line may stand behind its headline, after a colon, or below it, and comes to the same
(`Profile.compile_behind_iff_below`). Behind the headline the body is announced at the level of the
headline, inside a block for the rest of its line; below, two columns deeper, inside the block of
the headline. `Profile.Takes` collects what this asks of the headline.

From there on the two runs differ in levels only. With flat lines to come the level makes no
difference (`Outline.writes_announced_congr`): a headline may leave a rest that is a headline again,
but it ends with blocks that are all closed by the line that settles.
-/

namespace TerseMarkup

/-! ## The rest of a line at any level -/

namespace Opening.Alike

variable {opening opening' : Opening}

/-- Alike openings write the same. -/
theorem written_eq (h : opening.Alike opening') : opening'.written = opening.written := by
  cases h <;> rfl

/-- Alike openings announce a line, or neither does. -/
theorem announces_eq (h : opening.Alike opening') : opening'.announces = opening.announces := by
  cases h <;> rfl

/-- Alike openings leave the same text. -/
theorem body_eq (h : opening.Alike opening') (level level' : Nat) :
    (opening'.line level').body = (opening.line level).body := by
  cases h with
  | refl => cases opening <;> rfl
  | leaf written hbody hbody' => exact hbody'.trans hbody.symm

/-- A line that is handed back is the same. -/
theorem line_eq (h : opening.Alike opening') {level : Nat} (level' : Nat)
    (hannounces : opening.announces = false) (hbody : (opening.line level).body ≠ []) :
    opening'.line level' = opening.line level := by
  cases h with
  | leaf written hnil => exact absurd hnil hbody
  | refl =>
    cases opening with
    | leaf => rfl
    | block => exact absurd rfl hbody
    | inline _ _ rest | statement _ _ rest =>
      cases rest with
      | nil => exact absurd rfl hbody
      | cons => cases hannounces

/-- The level of a headline makes no difference to what its blocks write at their ends. -/
theorem closings_eq (h : opening.Alike opening') (d : Delimiters) (level level' : Nat) :
    Outline.closings d (opening'.frames level') = Outline.closings d (opening.frames level) := by
  cases h with
  | leaf => rfl
  | refl =>
    cases opening with
    | leaf | block | inline => rfl
    | statement written keyword rest => cases rest <;> rfl

end Opening.Alike

/-- An opening that announces a line announces it at its own indentation. -/
theorem Opening.line_eq_of_announces {opening : Opening} (h : opening.announces = true)
    (level : Nat) : opening.line level = ⟨level, (opening.line level).body⟩ := by
  cases opening with
  | leaf | block => cases h
  | inline | statement => rfl

namespace Outline

variable {p : Profile} {s : Setting} {lines : List Text} {cur cur' : Cursor}
  {inner inner' : List Frame}

/-- Blocks are closed one after the other. -/
theorem closings_append (d : Delimiters) (frames stack : List Frame) :
    closings d (frames ++ stack) = closings d frames ++ closings d stack := by
  unfold closings
  rw [List.map_append, List.flatten_append]

/-- Blocks that have no line at hand come to the same if they write the same at their ends. -/
theorem writes_closings (hp : p.IsStandard) (hfresh : FreshLines lines) (hinner : .document ∉ inner)
    (hinner' : .document ∉ inner')
    (hclosings : closings s.delimiters inner' = closings s.delimiters inner) {line line' : Line}
    (hbody : line.body = []) (hbody' : line'.body = []) (n n' : Nat) (w : Text) :
    (⟨inner ++ [.document], line, false, ⟨lines, n⟩⟩ : Outline).Writes p.recognise s w ↔
      (⟨inner' ++ [.document], line', false, ⟨lines, n'⟩⟩ : Outline).Writes p.recognise s w := by
  obtain ⟨next, cur, hs, hm⟩ := moves_closings p.recognise s hfresh hinner hbody n
  obtain ⟨next', cur', hs', hm'⟩ := moves_closings p.recognise s hfresh hinner' hbody' n'
  rw [hclosings] at hm'
  exact hm.writes_congr hm' (writes_resume hp hs hs') w

/-- So do blocks with the line that settles. -/
theorem writes_settled (hp : p.IsStandard) (hfresh : FreshLines lines) (hinner : .document ∉ inner)
    (hinner' : .document ∉ inner')
    (hclosings : closings s.delimiters inner' = closings s.delimiters inner) {next : Line}
    (hs : next.Settled lines cur) (hs' : next.Settled lines cur') (w : Text) :
    (⟨inner ++ [.document], next, false, cur⟩ : Outline).Writes p.recognise s w ↔
      (⟨inner' ++ [.document], next, false, cur'⟩ : Outline).Writes p.recognise s w := by
  obtain ⟨next₁, hs₁, hm⟩ := moves_settled p.recognise s hfresh hinner hs
  obtain ⟨next₂, hs₂, hm'⟩ := moves_settled p.recognise s hfresh hinner' hs'
  rw [hclosings] at hm'
  exact hm.writes_congr hm' (writes_resume hp hs₁ hs₂) w

/-- A headline at hand is looked up. -/
theorem writes_announced_iff {recognise : Text → Option Recognition} {stack : List Frame}
    {line : Line} {w : Text} :
    (⟨stack, line, true, cur⟩ : Outline).Writes recognise s w ↔
      ∃ found opening cur' more, recognise line.body = some found ∧
        found.headline.opening s line.indent line.body cur = (.ok opening, cur') ∧
        w = opening.written ++ more ∧
        (⟨opening.frames line.indent ++ stack, opening.line line.indent, opening.announces,
          cur'⟩ : Outline).Writes recognise s more := by
  constructor
  · rintro ⟨last, curₗ, hm⟩
    cases hm with
    | step hs hm =>
      cases hs with
      | look hfound hopen => exact ⟨_, _, _, _, hfound, hopen, rfl, last, curₗ, hm⟩
  · rintro ⟨found, opening, cur', more, hfound, hopen, rfl, last, curₗ, hm⟩
    exact ⟨last, curₗ, .step (.look hfound hopen) hm⟩

/-- An opening does not open the template itself. -/
theorem document_not_mem_append {opening : Opening} {level : Nat} (h : .document ∉ inner) :
    .document ∉ opening.frames level ++ inner := fun hmem =>
  (List.mem_append.1 hmem).elim (document_not_mem_frames level opening) h

/-- A line that is handed back settles. -/
theorem exists_settled {opening : Opening} {level : Nat} {line : Text}
    (hleft : opening.LeftOver level line cur cur') (hannounces : opening.announces = false)
    (hbody : (opening.line level).body ≠ []) :
    ∃ lines, lines ⊆ cur.ahead ∧ ∀ n, (opening.line level).Settled lines ⟨cur'.ahead, n⟩ := by
  cases opening with
  | leaf written next =>
    obtain ⟨front, raw, hpulled, rfl⟩ := hleft.2 hbody
    refine ⟨raw :: cur'.ahead, fun line hline => ?_, .stop cur'.ahead hbody⟩
    rw [hpulled.ahead, List.append_assoc]
    exact List.mem_append_right front hline
  | block => exact absurd rfl hbody
  | inline _ _ rest | statement _ _ rest =>
    cases rest with
    | nil => exact absurd rfl hbody
    | cons => cases hannounces

/-- A headline at hand comes to the same at any level and inside any blocks that write the same at
their ends, if the lines to come are flat. -/
theorem Writes.of_announced (hp : p.IsStandard) {level : Nat} (level' : Nat) {t w : Text}
    (hflat : FlatLines cur.ahead) (hahead : cur'.ahead = cur.ahead) (hinner : .document ∉ inner)
    (hinner' : .document ∉ inner')
    (hclosings : closings s.delimiters inner' = closings s.delimiters inner)
    (h : (⟨inner ++ [.document], ⟨level, t⟩, true, cur⟩ : Outline).Writes p.recognise s w) :
    (⟨inner' ++ [.document], ⟨level', t⟩, true, cur'⟩ : Outline).Writes p.recognise s w := by
  -- The induction is on what is left to read: the rest of a headline is a headline again.
  induction hn : cur.size + t.length using Nat.strongRecOn
    generalizing inner inner' t w cur cur' with
  | _ n ih =>
    obtain ⟨found, opening, cur₁, more, hfound, hopen, rfl, hmore⟩ := writes_announced_iff.1 h
    obtain ⟨hne, hseen⟩ := Profile.headline_seen hp hfound
    have hreach := (Headline.forward_opening s level hseen).reaches hopen
    have hleft := Headline.opening_leftOver hseen hopen
    obtain ⟨opening', ⟨ahead', n'⟩, hopen', hahead₁, halike⟩ :=
      Headline.opening_alike level' hflat.margin hahead hseen hopen
    cases hahead₁
    have hflat₁ : FlatLines cur₁.ahead := hflat.of_subset fun raw hraw => hreach.mem_ahead hraw
    have hclosings₁ : closings s.delimiters (opening'.frames level' ++ inner') =
        closings s.delimiters (opening.frames level ++ inner) := by
      rw [closings_append, closings_append, halike.closings_eq s.delimiters level, hclosings]
    refine writes_announced_iff.2 ⟨found, opening', _, more, hfound, hopen', ?_, ?_⟩
    · rw [halike.written_eq]
    rw [← List.append_assoc] at hmore ⊢
    rw [halike.announces_eq]
    cases hannounces : opening.announces with
    | true =>
      rw [hannounces, Opening.line_eq_of_announces hannounces] at hmore
      rw [Opening.line_eq_of_announces (halike.announces_eq.trans hannounces),
        halike.body_eq level level']
      have hlt := hleft.size_lt hreach hne
      exact ih _ (hn ▸ hlt) hflat₁ rfl (document_not_mem_append hinner)
        (document_not_mem_append hinner') hclosings₁ hmore rfl
    | false =>
      rw [hannounces] at hmore
      by_cases hbody : (opening.line level).body = []
      · have hbody' := (halike.body_eq level level').trans hbody
        exact (writes_closings hp hflat₁.fresh (document_not_mem_append hinner)
          (document_not_mem_append hinner') hclosings₁ hbody hbody' _ _ _).1 hmore
      · obtain ⟨lines, hsub, hsettled⟩ := exists_settled hleft hannounces hbody
        rw [halike.line_eq level' hannounces hbody]
        exact (writes_settled hp (hflat.of_subset hsub).fresh (document_not_mem_append hinner)
          (document_not_mem_append hinner') hclosings₁ (hsettled _) (hsettled _) _).1 hmore

/-- What is written for an announced line in front of lines at the margin depends neither on its
indentation nor on the count of lines, and on the open blocks only by what they write at their
ends. -/
theorem writes_announced_congr (hp : p.IsStandard) (level level' : Nat) (t w : Text)
    (hflat : FlatLines lines) (n n' : Nat) (hinner : .document ∉ inner)
    (hinner' : .document ∉ inner')
    (hclosings : closings s.delimiters inner' = closings s.delimiters inner) :
    (⟨inner ++ [.document], ⟨level, t⟩, true, ⟨lines, n⟩⟩ : Outline).Writes p.recognise s w ↔
      (⟨inner' ++ [.document], ⟨level', t⟩, true, ⟨lines, n'⟩⟩ : Outline).Writes p.recognise s w :=
  ⟨.of_announced hp level' hflat rfl hinner hinner' hclosings,
    .of_announced hp level hflat rfl hinner' hinner hclosings.symm⟩

end Outline

/-! ## What a longer line announces -/

/-- A text without line feeds is its own first line. -/
theorem Text.firstLine_eq_self {t : Text} (h : '\n' ∉ t) : t.firstLine = t := by
  unfold Text.firstLine
  induction t with
  | nil => rfl
  | cons c t ih =>
    rw [List.mem_cons, not_or] at h
    rw [List.takeWhile_cons_of_pos (by simpa using Ne.symm h.1), ih h.2]

namespace Rule

/-- A rule for lines of a certain start sees nothing exactly in the others. -/
theorem byStart_eq_none_iff {name : String} {starts : Text → Bool} {headline : Text → Headline}
    {line : Text} :
    (byStart name starts headline).recognise line = none ↔ starts line = false := by
  simp [byStart]

/-- The rule for elements looks at the first character only. -/
theorem recognise_element (c : Char) (t : Text) :
    element.recognise (c :: t) = if (c == '#' || c == '.' || isElementStart c) = true then
      some ⟨Text.firstLine (c :: t), [], .element⟩ else none := rfl

/-- A text whose first character does not count has no such characters in front, whatever follows
it. -/
theorem takeWhile_append_eq_nil {q : Char → Bool} {x : Text} (hx : x ≠ [])
    (h : x.takeWhile q = []) (y : Text) : (x ++ y).takeWhile q = [] := by
  cases x with
  | nil => exact absurd rfl hx
  | cons c x =>
    by_cases hc : q c = true
    · simp [hc] at h
    · simp [hc]

/-- A line that is no document type is none with more behind it, if no name follows. -/
theorem doctype_append {d : Char} {t u : Text} (hd : d = ':' ∨ d = ' ')
    (hkey : (Text.trimStart (d :: u)).takeWhile isDoctypeChar = [])
    (h : doctype.recognise t = none) : doctype.recognise (t ++ d :: u) = none := by
  have hletter : ∀ letter ∈ "doctype".toList, isLetter letter d = false := by
    rcases hd with rfl | rfl
    · exact Text.forall_mem_of_all (by decide)
    · exact Text.forall_mem_of_all (by decide)
  simp only [doctype] at h ⊢
  rw [caselessAfter?_append_cons hletter]
  cases hafter : caselessAfter? "doctype".toList t with
  | none => rfl
  | some found =>
    obtain ⟨word, rest⟩ := found
    have hnone : rest.takeWhile isBlank = [] ∨
        (Text.trimStart rest).takeWhile isDoctypeChar = [] := by
      rw [hafter] at h
      rw [Decidable.or_iff_not_imp_left]
      simpa [Text.trimStart] using h
    have hnone' : (rest ++ d :: u).takeWhile isBlank = [] ∨
        (Text.trimStart (rest ++ d :: u)).takeWhile isDoctypeChar = [] := by
      by_cases hblank : Text.trimStart rest = []
      · right
        rw [Text.trimStart_append_blank (Text.trimStart_eq_nil_iff.1 hblank)]
        exact hkey
      · have hne : rest ≠ [] := by
          rintro rfl
          exact hblank rfl
        rw [Text.trimStart_append hblank]
        exact hnone.imp (takeWhile_append_eq_nil hne · _) (takeWhile_append_eq_nil hblank · _)
    simp only [Option.map_some]
    rw [if_pos]
    simpa [Text.trimStart] using hnone'

/-- A rule that does not recognise a line, does not with a colon or a blank behind it either. -/
theorem recognise_append_eq_none {rule : Rule} (hr : rule ∈ standard) {c d : Char} {t u : Text}
    (hc : c ≠ '$' ∧ c ≠ '&' ∧ c ≠ '-') (hd : d = ':' ∨ d = ' ')
    (hkey : (Text.trimStart (d :: u)).takeWhile isDoctypeChar = [])
    (h : rule.recognise (c :: t) = none) : rule.recognise (c :: t ++ d :: u) = none := by
  have hletter {word : Text}
      (hword : ∀ letter ∈ word, isLetter letter ':' = false ∧ isLetter letter ' ' = false) :
      ∀ letter ∈ word, isLetter letter d = false := by
    rintro letter hl
    rcases hd with rfl | rfl
    · exact (hword letter hl).1
    · exact (hword letter hl).2
  have hdash {words : List String} (v : Text) : dashWord? words (c :: v) = none := by
    simp [dashWord?, dash?, hc]
  simp only [standard, List.mem_cons, List.not_mem_nil, or_false] at hr
  rcases hr with rfl | rfl | rfl | rfl | rfl | rfl | rfl | rfl | rfl | rfl | rfl | rfl | rfl |
    rfl | rfl | rfl | rfl | rfl | rfl
  · refine byStart_eq_none_iff.2 ?_
    rw [caselessAfter?_append_cons (hletter (Text.forall_mem_of_all (by decide))),
      caselessAfter?_append_cons (hletter (Text.forall_mem_of_all (by decide))),
      Option.isSome_map, Option.isSome_map]
    exact byStart_eq_none_iff.1 h
  · exact doctype_append hd hkey h
  · refine byStart_eq_none_iff.2 ?_
    rw [Text.isPrefixOf_append_cons (by rcases hd with rfl | rfl <;> decide)]
    exact byStart_eq_none_iff.1 h
  any_goals exact Option.map_eq_none_iff.2 (hdash _)
  any_goals exact byStart_eq_none_iff.2 (byStart_eq_none_iff.1 h)
  · simp only [implicitLiteral, List.cons_append, startsText, hc.1, hc.2.1, if_false] at h ⊢
    split at h
    · cases h
    · rename_i hs
      rw [if_neg hs]
  · simp only [value, List.cons_append] at h ⊢
    split at h
    · cases h
    · rename_i hs
      rw [if_neg hs]
  · simp [fencedCode, Text.after?, Ne.symm hc.2.2]

end Rule

/-- A rule is looked up for a longer line as well, if it recognises that and no rule in front of it
begins to. -/
theorem Profile.lookUp_of_lookUp {p : Profile} {line line' : Text} {rule : Rule}
    {found found' : Recognition} (h : p.lookUp line = some (rule, found))
    (hnone : ∀ rule ∈ p.rules, rule.recognise line = none → rule.recognise line' = none)
    (hsome : rule.recognise line' = some found') : p.lookUp line' = some (rule, found') := by
  unfold Profile.lookUp at h ⊢
  obtain ⟨before, rule₁, after, hrules, hrule, hbefore⟩ := List.findSome?_eq_some_iff.1 h
  obtain ⟨found₁, -, heq⟩ := Option.map_eq_some_iff.1 hrule
  cases heq
  refine List.findSome?_eq_some_iff.2 ⟨before, rule, after, hrules, ?_, fun rule' hmem => ?_⟩
  · rw [hsome]
    rfl
  · have hin : rule' ∈ p.rules := hrules ▸ List.mem_append_left _ hmem
    have hline := Option.map_eq_none_iff.1 (hbefore rule' hmem)
    rw [hnone rule' hin hline]
    rfl

namespace Profile

variable {p : Profile} {head u : Text} {found : Recognition}

/-- The rule that is found sees what the profile sees. -/
theorem recognise_of_lookUp {line : Text} {rule : Rule} (h : p.lookUp line = some (rule, found)) :
    rule.recognise line = some found ∧ p.recognise line = some found := by
  refine ⟨?_, by rw [recognise, h]; rfl⟩
  obtain ⟨rule', -, hrule⟩ := List.exists_of_findSome?_eq_some h
  obtain ⟨found', hfound, heq⟩ := Option.map_eq_some_iff.1 hrule
  cases heq
  exact hfound

/-- The first character of an element's headline. -/
theorem exists_of_lookUp_element (h : p.lookUp head = some (Rule.element, found)) :
    ∃ c t, head = c :: t ∧ (c == '#' || c == '.' || isElementStart c) = true := by
  obtain ⟨hrule, -⟩ := recognise_of_lookUp h
  cases head with
  | nil => cases hrule
  | cons c t =>
    rw [Rule.recognise_element] at hrule
    split at hrule
    · rename_i hstart
      exact ⟨c, t, rfl, hstart⟩
    · cases hrule

/-- What the rule for elements sees is an element. -/
theorem headline_of_lookUp_element (h : p.lookUp head = some (Rule.element, found)) :
    found.headline = .element := by
  obtain ⟨hrule, -⟩ := recognise_of_lookUp h
  obtain ⟨c, t, rfl, hstart⟩ := exists_of_lookUp_element h
  rw [Rule.recognise_element, if_pos hstart] at hrule
  cases hrule
  rfl

/-- An element stays one with a colon behind it, or a blank and what cannot be part of the name of a
document type. -/
theorem lookUp_element_append (hp : p.IsStandard)
    (h : p.lookUp head = some (Rule.element, found)) {d : Char} (hd : d = ':' ∨ d = ' ')
    (hkey : (Text.trimStart (d :: u)).takeWhile Rule.isDoctypeChar = []) :
    ∃ found', p.lookUp (head ++ d :: u) = some (Rule.element, found') ∧
      found'.headline = .element := by
  obtain ⟨c, t, rfl, hstart⟩ := exists_of_lookUp_element h
  have hc : c ≠ '$' ∧ c ≠ '&' ∧ c ≠ '-' := by
    refine ⟨?_, ?_, ?_⟩ <;> rintro rfl <;> revert hstart <;> decide
  have hsome : Rule.element.recognise (c :: t ++ d :: u) =
      some ⟨Text.firstLine (c :: t ++ d :: u), [], .element⟩ := by
    rw [List.cons_append, Rule.recognise_element, if_pos hstart]
  refine ⟨_, lookUp_of_lookUp h (fun rule hr hnone => ?_) hsome, rfl⟩
  exact Rule.recognise_append_eq_none (hp.subset hr) hc hd hkey hnone

/-- A statement stays one with a colon behind it, and what follows belongs to its expression. -/
theorem lookUp_statement_append (hp : p.IsStandard)
    (h : p.lookUp head = some (Rule.statement, found)) {keyword t : Text}
    (hheadline : found.headline = .statement keyword t) (hhead : '\n' ∉ head) (hu : '\n' ∉ u) :
    ∃ found', p.lookUp (head ++ ':' :: u) = some (Rule.statement, found') ∧
      found'.headline = .statement keyword (t ++ ':' :: u) := by
  obtain ⟨hrule, -⟩ := recognise_of_lookUp h
  obtain ⟨⟨lead, word, rest⟩, hd, rfl⟩ := Option.map_eq_some_iff.1 hrule
  cases hheadline
  obtain ⟨heq, -, -⟩ := Rule.eq_append_of_dashWord? hd
  have hd' : Rule.dashWord? statementWords (head ++ ':' :: u) =
      some (lead, keyword, rest ++ ':' :: u) := by
    rw [Rule.dashWord?_append_cons (by decide) (by decide) (Rule.ne_nil_of_dashWord? hd)]
    exact congrArg _ hd
  have hrest : '\n' ∉ rest := fun hmem => hhead (heq ▸ by simp [hmem])
  have hline : '\n' ∉ rest ++ ':' :: u := by simp [hrest, hu]
  have hsome : Rule.statement.recognise (head ++ ':' :: u) =
      some ⟨lead ++ keyword ++ Text.firstLine (rest ++ ':' :: u),
        [("stmnt", some keyword), ("expr", some (Text.firstLine (rest ++ ':' :: u)))],
        .statement keyword (Text.firstLine (rest ++ ':' :: u))⟩ := by
    show Option.map _ (Rule.dashWord? statementWords _) = _
    rw [hd']
    rfl
  refine ⟨_, lookUp_of_lookUp h (fun rule hr hnone => ?_) hsome, ?_⟩
  · rcases Rule.recognise_of_dashWord? (hp.subset hr) hd' (by decide) (by decide) with rfl | hnone'
    · rw [hrule] at hnone
      cases hnone
    · exact hnone'
  · rw [Text.firstLine_eq_self hline, Text.firstLine_eq_self hrest]

end Profile

/-- Visible characters are not blank. -/
theorem isBlank_of_visible {c : Char} (hlow : '!' ≤ c) (hhigh : c ≤ '~') : isBlank c = false := by
  rw [Char.le_def, UInt32.le_iff_toNat_le] at hlow hhigh
  have hlow' : 33 ≤ c.toNat := hlow
  have hhigh' : c.toNat ≤ 126 := hhigh
  simp [isBlank, blankRanges]
  omega

/-- Nor are characters that lie between two visible ones. -/
theorem isBlank_of_between {low c high : Char} (hc : low ≤ c ∧ c ≤ high) (hlow : '!' ≤ low)
    (hhigh : high ≤ '~') : isBlank c = false :=
  isBlank_of_visible (Char.le_trans hlow hc.1) (Char.le_trans hc.2 hhigh)

/-- A character that starts an element is not blank. -/
theorem isBlank_of_elementStart {c : Char} (h : (c == '#' || c == '.' || isElementStart c) = true) :
    isBlank c = false := by
  simp only [isElementStart, Bool.or_eq_true, Bool.and_eq_true, beq_iff_eq, decide_eq_true_eq] at h
  rcases h with (rfl | rfl) | hc
  · decide
  · decide
  · exact isBlank_of_between hc (by decide) (by decide)

/-! ## The first lines of a template -/

/-- A raw line is measured by the blanks in front of it. -/
theorem Line.ofRaw_append {b : Text} (hb : ∀ c ∈ b, isBlank c = true) {c : Char}
    (hc : isBlank c = false) (u : Text) :
    Line.ofRaw (b ++ c :: u) = ⟨b.length, Text.dropTerminator (c :: u)⟩ := by
  have htrim : Text.trimStart (b ++ c :: u) = c :: u := by
    rw [Text.trimStart_append_blank hb]
    exact List.dropWhile_cons_of_neg (by simp [hc])
  unfold Line.ofRaw
  simp only [htrim]
  simp

/-- The text is the body of a line. -/
structure Text.LineBody (t : Text) : Prop where
  oneLine : '\n' ∉ t
  noReturn : t.getLast? ≠ some '\r'
  start : ∃ c u, t = c :: u ∧ isBlank c = false

namespace Text.LineBody

variable {t u : Text}

/-- A line body behind blanks is the body of the raw line. -/
theorem ofRaw (h : t.LineBody) {b : Text} (hb : ∀ c ∈ b, isBlank c = true) :
    Line.ofRaw (b ++ t ++ ['\n']) = ⟨b.length, t⟩ := by
  obtain ⟨c, u, rfl, hc⟩ := h.start
  have hterminator : Text.dropTerminator (c :: u ++ ['\n']) = c :: u := by
    unfold Text.dropTerminator
    rw [if_pos List.getLast?_concat, List.dropLast_concat, if_neg h.noReturn]
  rw [List.append_assoc, List.cons_append, Line.ofRaw_append hb hc, ← List.cons_append, hterminator]

/-- A trimmed text without line feeds can be the body of a line. -/
theorem of_trim (htrim : t.trim = t) (hne : t ≠ []) (hfeed : '\n' ∉ t) : t.LineBody := by
  refine ⟨hfeed, fun hlast => ?_, ?_⟩
  · rw [← htrim] at hlast
    have hblank := Text.isBlank_getLast?_trimEnd hlast
    cases hblank
  · cases ht : t with
    | nil => exact absurd ht hne
    | cons c u =>
      refine ⟨c, u, rfl, Bool.eq_false_iff.2 fun hc => ?_⟩
      have hlen := congrArg List.length htrim
      have hle := Text.length_trimEnd_le (Text.trimStart t)
      have hlt := Text.length_trimStart_le u
      rw [Text.trim, ht, Text.trimStart_cons, if_pos hc] at hlen
      rw [ht, Text.trimStart_cons, if_pos hc] at hle
      simp only [List.length_cons] at hlen
      omega

/-- A body stays one with another text behind it. -/
theorem append (h : t.LineBody) (hu : u.LineBody) {b : Text} (hb : '\n' ∉ b) :
    Text.LineBody (t ++ b ++ u) := by
  obtain ⟨c, t', rfl, hc⟩ := h.start
  obtain ⟨d, u', rfl, -⟩ := hu.start
  refine ⟨?_, ?_, c, t' ++ b ++ d :: u', rfl, hc⟩
  · simp only [List.mem_append, not_or]
    exact ⟨⟨h.oneLine, hb⟩, hu.oneLine⟩
  · have hreturn := hu.noReturn
    rw [List.getLast?_append, List.getLast?_cons, Option.some_or, ← List.getLast?_cons]
    exact hreturn

end Text.LineBody

namespace Outline

variable {p : Profile} {s : Setting} {cur : Cursor} {found : Recognition} {opening : Opening}

/-- The first line of a template is announced at its indentation. -/
theorem moves_firstLine {source raw : Text} {rest : List Text} {line : Line}
    (hlines : source.lines = raw :: rest) (hline : Line.ofRaw raw = line) (hne : line.body ≠ []) :
    Moves p.recognise s (.ofDocument source) [] ⟨[.document], line, true, ⟨rest, 1⟩⟩ := by
  have hpull : Steps p.recognise s (.ofDocument source) []
      ⟨[.document], line, false, ⟨rest, 1⟩⟩ := by
    rw [← hline]
    refine .pull trivial rfl ?_
    unfold Cursor.ofText
    rw [hlines]
    rfl
  exact .step hpull (.single (.announce (.document hne)))

/-- A document announces its first line at once, if that is not blank. -/
theorem moves_first {raw : Text} {line : Line} (hfeed : '\n' ∉ raw)
    (hline : Line.ofRaw (raw ++ ['\n']) = line) (hne : line.body ≠ []) (u : Text) :
    Moves p.recognise s (.ofDocument (raw ++ ['\n'] ++ u)) []
      ⟨[.document], line, true, ⟨u.lines, 1⟩⟩ :=
  moves_firstLine (Text.lines_append_feed hfeed u) hline hne

/-- The first line of a template is a headline at the margin. -/
theorem moves_headline {t : Text} (ht : t.LineBody) (u : Text) (hfound : p.recognise t = some found)
    (hopen : found.headline.opening s 0 t ⟨u.lines, 1⟩ = (.ok opening, cur)) :
    Moves p.recognise s (.ofDocument (t ++ ['\n'] ++ u)) opening.written
      ⟨opening.frames 0 ++ [.document], opening.line 0, opening.announces, cur⟩ := by
  have hline : Line.ofRaw (t ++ ['\n']) = ⟨0, t⟩ := ht.ofRaw (List.forall_mem_nil _)
  have hne : t ≠ [] := by
    obtain ⟨c, v, rfl, -⟩ := ht.start
    exact List.cons_ne_nil c v
  exact (moves_first ht.oneLine hline hne u).trans (.single (.look hfound hopen))

/-- The raw line of a text that stands two columns deep. -/
def nestedLine (t : Text) : Text :=
  "  ".toList ++ t ++ ['\n']

/-- A headline with a nested line below it, as raw lines. -/
theorem append_nestedLine (head t u : Text) :
    head ++ "\n  ".toList ++ t ++ ['\n'] ++ u = head ++ ['\n'] ++ (nestedLine t ++ u) := by
  simp [nestedLine]

/-- A line below a headline is announced by the block of the headline. -/
theorem moves_nested {head raw body : Text} (hhead : head.LineBody) (hfeed : '\n' ∉ raw)
    (hraw : Line.ofRaw (nestedLine raw) = ⟨2, body⟩) (u : Text)
    (hfound : p.recognise head = some found)
    (hopen : found.headline.opening s 0 head ⟨nestedLine raw :: u.lines, 1⟩ =
      (.ok opening, ⟨nestedLine raw :: u.lines, 1⟩)) {frame : Frame}
    (hframes : opening.frames 0 = [frame]) (hline : opening.line 0 = ⟨0, []⟩)
    (hpulls : frame.Pulls) (hannounces : frame.Announces ⟨2, body⟩ 2) :
    Moves p.recognise s (.ofDocument (head ++ ['\n'] ++ (nestedLine raw ++ u))) opening.written
      ⟨[frame] ++ [.document], ⟨2, body⟩, true, ⟨u.lines, 2⟩⟩ := by
  have hlines : Text.lines (nestedLine raw ++ u) = nestedLine raw :: u.lines :=
    Text.lines_append_feed (by simp [hfeed]) u
  rw [← hlines] at hopen
  have hfirst := moves_headline hhead _ hfound hopen
  have hquiet : opening.announces = false := by
    cases opening with
    | leaf | block => rfl
    | inline _ _ rest | statement _ _ rest =>
      cases hline
      rfl
  rw [hframes, hline, hquiet, hlines] at hfirst
  have hpull : Steps p.recognise s ⟨[frame] ++ [.document], ⟨0, []⟩, false,
      ⟨nestedLine raw :: u.lines, 1⟩⟩ [] ⟨[frame] ++ [.document], ⟨2, body⟩, false,
      ⟨u.lines, 2⟩⟩ := by
    rw [← hraw]
    exact .pull hpulls rfl rfl
  rw [← List.append_nil opening.written]
  exact hfirst.trans (.step hpull (.single (.announce hannounces)))

end Outline

/-! ## Bodies behind and below a headline -/

section

variable {s : Setting} {d : Delimiters} {line keyword t expr rest : Text} {e : Element}
  {cur cur' : Cursor}

/-- An element with something behind its colon goes on with it. -/
theorem openElement_of_rest {disguise : Option Disguise}
    (h : Element.read s disguise line.trim cur = (.ok e, cur')) (hne : e.rest ≠ []) :
    openElement s disguise line cur = (.ok (.inline e.opened e.closed e.rest), cur') := by
  refine Scan.bind_eq_ok_iff.2 ⟨e, cur', h, ?_⟩
  rw [if_neg (by simpa using hne)]
  rfl

/-- An element with nothing behind it has its content below it. -/
theorem openElement_of_nil {disguise : Option Disguise}
    (h : Element.read s disguise line.trim cur = (.ok e, cur')) (hnil : e.rest = []) :
    openElement s disguise line cur = (.ok (.block e.opened e.closed), cur') := by
  refine Scan.bind_eq_ok_iff.2 ⟨e, cur', h, ?_⟩
  rw [if_pos (by simpa using hnil)]
  rfl

/-- A statement with an expression is opened with what it is cut into. -/
theorem openStatement_of_split (hexpr : t.trim ≠ [])
    (h : splitStatement d t cur = (.ok (expr, rest), cur')) :
    openStatement d keyword t cur =
      (.ok (.statement (statementLine d (keyword ++ [' '] ++ expr)) keyword rest), cur') := by
  unfold openStatement
  rw [if_neg (by simpa using hexpr)]
  exact Scan.bind_eq_ok_iff.2 ⟨_, cur', h, rfl⟩

end

namespace Profile

/-- The headline `head` can have `body` behind it, after a colon, or below it. With a colon and the
body behind it, exactly the body is left of its line. Alone it opens the same and leaves nothing.
Both are read without pulling a line; those to come are `ahead`, and the line of the body. -/
inductive Takes (p : Profile) (s : Setting) (head body : Text) (ahead : List Text) : Prop
  | element {found : Recognition} {e e' : Element}
      (hfound : p.lookUp head = some (Rule.element, found))
      (hbehind : Element.read s none (Text.trim (head ++ ": ".toList ++ body)) ⟨ahead, 1⟩ =
        (.ok e, ⟨ahead, 1⟩))
      (hrest : e.rest = body)
      (halone : Element.read s none head.trim ⟨Outline.nestedLine body :: ahead, 1⟩ =
        (.ok e', ⟨Outline.nestedLine body :: ahead, 1⟩))
      (hrest' : e'.rest = []) (hopened : e'.opened = e.opened) (hclosed : e'.closed = e.closed)
  | statement {found : Recognition} {keyword t expr : Text}
      (hfound : p.lookUp head = some (Rule.statement, found))
      (hheadline : found.headline = .statement keyword t) (hexpr : t.trim ≠ [])
      (hbehind : splitStatement s.delimiters (t ++ ": ".toList ++ body) ⟨ahead, 1⟩ =
        (.ok (expr, body), ⟨ahead, 1⟩))
      (halone : splitStatement s.delimiters t ⟨Outline.nestedLine body :: ahead, 1⟩ =
        (.ok (expr, []), ⟨Outline.nestedLine body :: ahead, 1⟩))

variable {p : Profile} {s : Setting} {head body rest : Text}

/-- A headline starts with no blank. -/
theorem Takes.start {ahead : List Text} (h : p.Takes s head body ahead) :
    ∃ c t, head = c :: t ∧ isBlank c = false := by
  cases h with
  | element hfound =>
    obtain ⟨c, t, rfl, hc⟩ := exists_of_lookUp_element hfound
    exact ⟨c, t, rfl, isBlank_of_elementStart hc⟩
  | statement hfound =>
    obtain ⟨hrule, -⟩ := recognise_of_lookUp hfound
    obtain ⟨found, hd, -⟩ := Option.map_eq_some_iff.1 hrule
    obtain ⟨t, rfl, -⟩ := Rule.exists_dash_of_dashWord? (by decide) hd
    exact ⟨'-', t, rfl, by decide⟩

/-- Behind the headline or below it, a body comes to be announced inside blocks that write the same
at their ends. -/
theorem Takes.moves (hp : p.IsStandard) (h : p.Takes s head body rest.lines) (hhead : head.LineBody)
    (hbody : body.LineBody) :
    ∃ written frames frame, .document ∉ frames ∧ .document ∉ [frame] ∧
      Outline.closings s.delimiters [frame] = Outline.closings s.delimiters frames ∧
      Outline.Moves p.recognise s (.ofDocument (head ++ ": ".toList ++ body ++ ['\n'] ++ rest))
        written ⟨frames ++ [.document], ⟨0, body⟩, true, ⟨rest.lines, 1⟩⟩ ∧
      Outline.Moves p.recognise s
        (.ofDocument (head ++ ['\n'] ++ (Outline.nestedLine body ++ rest)))
        written ⟨[frame] ++ [.document], ⟨2, body⟩, true, ⟨rest.lines, 2⟩⟩ := by
  obtain ⟨c, body, rfl, -⟩ := hbody.start
  have hlong : Text.LineBody (head ++ ": ".toList ++ c :: body) := hhead.append hbody (by decide)
  have heq : head ++ ": ".toList ++ c :: body = head ++ ':' :: ' ' :: c :: body := by simp
  have hraw : Line.ofRaw (Outline.nestedLine (c :: body)) = ⟨2, c :: body⟩ :=
    hbody.ofRaw (Text.forall_mem_of_all (by decide : "  ".toList.all _ = true))
  cases h with
  | @element found e e' hfound hbehind hrest halone hrest' hopened hclosed =>
    have hkey : (Text.trimStart (':' :: ' ' :: c :: body)).takeWhile Rule.isDoctypeChar = [] := rfl
    obtain ⟨found', hfound', hheadline'⟩ := lookUp_element_append hp hfound (.inl rfl) hkey
    rw [← heq] at hfound'
    have hopen : found'.headline.opening s 0 (head ++ ": ".toList ++ c :: body) ⟨rest.lines, 1⟩ =
        (.ok (.inline e.opened e.closed (c :: body)), ⟨rest.lines, 1⟩) := by
      have hopen := openElement_of_rest hbehind (by simp [hrest])
      rw [hrest] at hopen
      rw [hheadline']
      exact hopen
    have hopen' : found.headline.opening s 0 head
        ⟨Outline.nestedLine (c :: body) :: rest.lines, 1⟩ =
          (.ok (.block e.opened e.closed), ⟨Outline.nestedLine (c :: body) :: rest.lines, 1⟩) := by
      rw [headline_of_lookUp_element hfound, ← hopened, ← hclosed]
      exact openElement_of_nil halone hrest'
    exact ⟨e.opened, [.inline 0 e.closed], .block 0 e.closed, by simp, by simp, rfl,
      Outline.moves_headline hlong rest (recognise_of_lookUp hfound').2 hopen,
      Outline.moves_nested hhead hbody.oneLine hraw rest (recognise_of_lookUp hfound).2 hopen' rfl
        rfl trivial (.block (by simp) Nat.two_pos)⟩
  | @statement found keyword t expr hfound hheadline hexpr hbehind halone =>
    have hfeed : '\n' ∉ ' ' :: c :: body := by simpa using hbody.oneLine
    obtain ⟨found', hfound', hheadline'⟩ :=
      lookUp_statement_append hp hfound hheadline hhead.oneLine hfeed
    rw [← heq] at hfound'
    have hexpr' : Text.trim (t ++ ": ".toList ++ c :: body) ≠ [] := by
      intro hnil
      have hcolon := Text.trim_eq_nil_iff.1 hnil ':' (by simp)
      cases hcolon
    have hopen : found'.headline.opening s 0 (head ++ ": ".toList ++ c :: body) ⟨rest.lines, 1⟩ =
        (.ok (.statement (statementLine s.delimiters (keyword ++ [' '] ++ expr)) keyword
          (c :: body)), ⟨rest.lines, 1⟩) := by
      rw [hheadline']
      exact openStatement_of_split (by simpa using hexpr') (by simpa using hbehind)
    have hopen' : found.headline.opening s 0 head
        ⟨Outline.nestedLine (c :: body) :: rest.lines, 1⟩ =
          (.ok (.statement (statementLine s.delimiters (keyword ++ [' '] ++ expr)) keyword []),
            ⟨Outline.nestedLine (c :: body) :: rest.lines, 1⟩) := by
      rw [hheadline]
      exact openStatement_of_split hexpr halone
    exact ⟨_, [.inline 0 [], .statement 0 keyword []], .statement 0 keyword [], by simp, by simp,
      rfl, Outline.moves_headline hlong rest (recognise_of_lookUp hfound').2 hopen,
      Outline.moves_nested hhead hbody.oneLine hraw rest (recognise_of_lookUp hfound).2 hopen' rfl
        rfl trivial (.statement (by simp) Nat.two_pos)⟩

/-- A body of one line may stand behind its headline, after a colon, or below it. -/
theorem compile_behind_iff_below (hp : p.IsStandard) (depth : Nat) (hhead : '\n' ∉ head)
    (hreturn : head.getLast? ≠ some '\r') (hbody : '\n' ∉ body) (hne : body ≠ [])
    (htrim : body.trim = body)
    (htakes : p.Takes (p.setting (p.compileEmbedded depth depth)) head body rest.lines)
    (hflat : FlatLines rest.lines) (written : Text) :
    p.compile ⟨false, depth⟩ (head ++ ": ".toList ++ body ++ ['\n'] ++ rest) = .ok written ↔
      p.compile ⟨false, depth⟩ (head ++ "\n  ".toList ++ body ++ ['\n'] ++ rest) =
        .ok written := by
  obtain ⟨w, frames, frame, hframes, hframe, hclosings, hm, hm'⟩ :=
    htakes.moves hp ⟨hhead, hreturn, htakes.start⟩ (.of_trim htrim hne hbody)
  rw [Outline.append_nestedLine, compile_eq_ok_iff_writes hp, compile_eq_ok_iff_writes hp]
  exact hm.writes_congr hm' (fun more =>
    Outline.writes_announced_congr hp 0 2 body more hflat 1 2 hframes hframe hclosings) written

/-- An element behind an element, whose attributes go on over the next line. -/
theorem compile_behind_attributes :
    (mako id).compile ⟨false, 3⟩ "li: p(a=1\nb=2) | z\n\n-if x: hr\n".toList =
        .ok "<li><p a=\"1\" b=\"2\">z</p></li>\n%if x:\n<hr/>\n%endif\n".toList ∧
      (mako id).compile ⟨false, 3⟩ "li\n  p(a=1\nb=2) | z\n\n-if x: hr\n".toList =
        .ok "<li><p a=\"1\" b=\"2\">z</p></li>\n%if x:\n<hr/>\n%endif\n".toList := by
  have htakes : (mako id).Takes ((mako id).setting ((mako id).compileEmbedded 3 3)) "li".toList
      "p(a=1".toList (Text.lines "b=2) | z\n\n-if x: hr\n".toList) := by
    refine @Takes.element _ _ _ _ _ _ ⟨"<li>".toList, "</li>".toList, "li".toList, [], [],
      "p(a=1".toList⟩ ⟨"<li>".toList, "</li>".toList, "li".toList, [], [], []⟩ rfl ?_ rfl ?_ rfl rfl
      rfl
    · decide +kernel
    · decide +kernel
  have hflat : FlatLines (Text.lines "b=2) | z\n\n-if x: hr\n".toList) := by
    refine ⟨by unfold MarginLines; decide +kernel, fun raw hraw clause => ?_⟩
    revert raw
    cases clause <;> decide +kernel
  have hbelow := compile_behind_iff_below mako_isStandard 3 (by decide) (by decide) (by decide)
    (by decide) (by decide) htakes hflat
  have hbehind : (mako id).compile ⟨false, 3⟩ "li: p(a=1\nb=2) | z\n\n-if x: hr\n".toList =
      .ok "<li><p a=\"1\" b=\"2\">z</p></li>\n%if x:\n<hr/>\n%endif\n".toList := by
    decide +kernel
  exact ⟨hbehind, (hbelow _).1 hbehind⟩

end Profile

end TerseMarkup
