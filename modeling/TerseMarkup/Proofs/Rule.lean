import TerseMarkup.Clause
import TerseMarkup.Profile
import TerseMarkup.Proofs.Reading

/-!
# What the standard rules see

Each standard rule looks at the start of a line and cuts texts out of it. `Headline.SeenIn` says,
once for all rules, how the texts of a headline lie in its line, and `Profile.headline_seen` that
every profile whose table is part of the standard one sees only such headlines, and none in an empty
line.

No standard rule recognises the line of a clause (`Rule.recognise_clause`): clauses can only go on a
statement.
-/

namespace TerseMarkup

/-! ## Words and what follows a text -/

namespace Text

variable {lead : Text} {d : Char}

/-- Behind a text, a character that is not part of the lead changes nothing. -/
theorem after?_append_cons (hd : d ∉ lead) (x u : Text) :
    after? lead (x ++ d :: u) = (after? lead x).map (· ++ d :: u) := by
  induction lead generalizing x with
  | nil => rfl
  | cons a lead ih =>
    rw [List.mem_cons, not_or] at hd
    cases x with
    | nil => simp [after?, Ne.symm hd.1]
    | cons c x =>
      simp only [List.cons_append, after?]
      split
      · exact ih hd.2 x
      · rfl

/-- A start is not changed by what follows a character that it does not have. -/
theorem isPrefixOf_append_cons (hd : d ∉ lead) (x u : Text) :
    lead.isPrefixOf (x ++ d :: u) = lead.isPrefixOf x := by
  induction lead generalizing x with
  | nil => rw [List.isPrefixOf_nil_left, List.isPrefixOf_nil_left]
  | cons a lead ih =>
    rw [List.mem_cons, not_or] at hd
    cases x with
    | nil => simp [List.isPrefixOf, Ne.symm hd.1]
    | cons c x =>
      rw [List.cons_append, List.isPrefixOf_cons_cons, List.isPrefixOf_cons_cons, ih hd.2 x]

/-- A word is found whatever follows a character that no word has. -/
theorem word?_append_cons {words : List Text} (hd : ∀ w ∈ words, d ∉ w) (x u : Text) :
    word? words (x ++ d :: u) =
      (word? words x).map fun found => (found.1, found.2 ++ d :: u) := by
  unfold word?
  induction words with
  | nil => rfl
  | cons w words ih =>
    rw [List.findSome?_cons, List.findSome?_cons,
      after?_append_cons (hd w List.mem_cons_self), ih fun w hw => hd w (List.mem_cons_of_mem _ hw)]
    cases after? w x <;> rfl

end Text

namespace Rule

/-- The same of a word of any case. -/
theorem caselessAfter?_append_cons {word : Text} {d : Char}
    (hd : ∀ letter ∈ word, isLetter letter d = false) (x u : Text) :
    caselessAfter? word (x ++ d :: u) =
      (caselessAfter? word x).map fun found => (found.1, found.2 ++ d :: u) := by
  induction word generalizing x with
  | nil => rfl
  | cons letter word ih =>
    obtain ⟨hletter, hrest⟩ := List.forall_mem_cons.1 hd
    cases x with
    | nil => simp [caselessAfter?, hletter]
    | cons c x =>
      simp only [List.cons_append, caselessAfter?]
      split
      · rw [ih hrest, Option.map_map, Option.map_map]
        rfl
      · rfl

/-! ## Dashes and words -/

/-- Behind a dash and a word, a character that is neither blank nor part of a word changes
nothing. -/
theorem dashWord?_append_cons {words : List String} {d : Char} (hblank : isBlank d = false)
    (hd : ∀ w ∈ words.map String.toList, d ∉ w) {x : Text} (hx : x ≠ []) (u : Text) :
    dashWord? words (x ++ d :: u) =
      (dashWord? words x).map fun found => (found.1, found.2.1, found.2.2 ++ d :: u) := by
  cases x with
  | nil => exact absurd rfl hx
  | cons c t =>
    unfold dashWord?
    by_cases hc : c = '-'
    · have htake : (t ++ d :: u).takeWhile isBlank = t.takeWhile isBlank := by
        induction t with
        | nil => simp [hblank]
        | cons b t ih => by_cases hb : isBlank b = true <;> simp_all
      have hdrop : (t ++ d :: u).dropWhile isBlank = t.dropWhile isBlank ++ d :: u := by
        induction t with
        | nil => simp [hblank]
        | cons b t ih => by_cases hb : isBlank b = true <;> simp_all
      simp only [List.cons_append, dash?, if_pos hc, htake, hdrop, Text.word?_append_cons hd,
        Option.map_map]
      rfl
    · simp only [List.cons_append, dash?, if_neg hc, Option.map_none]

/-- A dash with its blanks and what follows them make up the line. -/
theorem eq_append_of_dash? {line lead rest : Text} (h : dash? line = some (lead, rest)) :
    line = lead ++ rest ∧ lead ≠ [] := by
  unfold dash? at h
  split at h
  · simp at h
  · rename_i c t
    split at h
    · simp only [Option.some.injEq, Prod.mk.injEq] at h
      obtain ⟨rfl, rfl⟩ := h
      refine ⟨?_, List.cons_ne_nil _ _⟩
      rw [List.cons_append, List.takeWhile_append_dropWhile]
    · simp at h

/-- A word that is found stands at the front of the text. -/
theorem eq_append_of_word? {words : List Text} {t word rest : Text}
    (h : Text.word? words t = some (word, rest)) : t = word ++ rest ∧ word ∈ words := by
  obtain ⟨w, hw, hf⟩ := List.exists_of_findSome?_eq_some h
  obtain ⟨r, hr, hp⟩ := Option.map_eq_some_iff.1 hf
  simp only [Prod.mk.injEq] at hp
  obtain ⟨rfl, rfl⟩ := hp
  exact ⟨Text.after?_eq_some_iff.1 hr, hw⟩

/-- A dash, blanks and a word make up the start of the line. -/
theorem eq_append_of_dashWord? {words : List String} {line lead word rest : Text}
    (h : dashWord? words line = some (lead, word, rest)) :
    line = lead ++ (word ++ rest) ∧ lead ≠ [] ∧ word ∈ words.map String.toList := by
  unfold dashWord? at h
  split at h
  · simp at h
  · rename_i lead' t hd
    obtain ⟨⟨w, r⟩, hw, hp⟩ := Option.map_eq_some_iff.1 h
    simp only [Prod.mk.injEq] at hp
    obtain ⟨rfl, rfl, rfl⟩ := hp
    obtain ⟨rfl, hne⟩ := eq_append_of_dash? hd
    obtain ⟨rfl, hmem⟩ := eq_append_of_word? hw
    exact ⟨rfl, hne, hmem⟩

/-- A line starts with one word only, among words of which none begins with another. -/
theorem dashWord?_eq_none {words words' : List String} {line : Text} {r : Text × Text × Text}
    (h : dashWord? words line = some r)
    (hdiffer : ∀ w ∈ words.map String.toList, ∀ w' ∈ words'.map String.toList,
      ¬ w <+: w' ∧ ¬ w' <+: w) : dashWord? words' line = none := by
  unfold dashWord? at h ⊢
  split at h
  · cases h
  · rename_i lead t hd
    obtain ⟨⟨w, rest⟩, hw, -⟩ := Option.map_eq_some_iff.1 h
    obtain ⟨rfl, hmem⟩ := eq_append_of_word? hw
    rw [Option.map_eq_none_iff]
    refine List.findSome?_eq_none_iff.2 fun w' hw' => ?_
    cases hr : Text.after? w' (w ++ rest) with
    | none => rfl
    | some rest' =>
      have heq := Text.after?_eq_some_iff.1 hr
      have hdiffer := hdiffer w hmem w' hw'
      rcases List.prefix_or_prefix_of_prefix (List.prefix_append w rest)
        (heq ▸ List.prefix_append w' rest') with hpre | hpre
      · exact absurd hpre hdiffer.1
      · exact absurd hpre hdiffer.2

end Rule

/-! ## Headlines in their lines -/

/-- The words of control statements. -/
def statementWords : List String :=
  ["if", "for", "while", "with", "try"]

/-- The words of control statements with a negated condition. -/
def negatedWords : List String :=
  ["unless", "until"]

/-- The words of jumps. -/
def jumpWords : List String :=
  ["return", "continue", "break"]

/-- The words of the headlines that are read as elements. -/
def taggedWords : List String :=
  ["def", "block", "include", "inherit", "page", "namespace", "text", "call"]

/-- How the texts of a headline lie in its line, as far as they are read on. The expression of a
statement is the rest of the line behind a dash and a word; a tag of the template engine is a word
behind a dash, with the rest of the line if blanks follow; text and code are cut out of the line. -/
def Headline.SeenIn (line : Text) : Headline → Prop
  | literal text => text.drop 1 <:+: line
  | statement keyword expr => ∃ lead rest,
      Rule.dashWord? statementWords line = some (lead, keyword, rest) ∧ expr = rest.firstLine
  | negated keyword expr => keyword ∈ statementWords.map String.toList ∧ ∃ lead word rest,
      Rule.dashWord? negatedWords line = some (lead, word, rest) ∧ expr = rest.firstLine
  | fencedCode _ expr => ∀ t ∈ expr, t <:+: line
  | jump keyword => keyword ∈ jumpWords.map String.toList
  | definition t | directive t | shielded t | call t => ∃ lead word rest,
      line = lead ++ (word ++ rest) ∧ word ∈ taggedWords.map String.toList ∧
        t = word ++ Rule.spacedRest rest
  | custom _ => False
  | _ => True

namespace Rule

/-- What a rule for lines of a certain start sees lies in the line. -/
theorem byStart_seen {name : String} {starts : Text → Bool} {headline : Text → Headline}
    {line : Text} {found : Recognition}
    (h : (byStart name starts headline).recognise line = some found)
    (hnil : starts [] = false) (hseen : (headline line).SeenIn line) :
    line ≠ [] ∧ found.headline.SeenIn line := by
  simp only [byStart] at h
  split at h
  · rename_i hs
    cases h
    refine ⟨?_, hseen⟩
    rintro rfl
    rw [hnil] at hs
    cases hs
  · simp at h

/-- What a rule for a dash and a word sees lies in the line. -/
theorem bySpacedWord_seen {name : String} {words : List String} {headline : Text → Headline}
    {line : Text} {found : Recognition}
    (h : (bySpacedWord name words headline).recognise line = some found)
    (hsub : words ⊆ taggedWords)
    (hseen : ∀ lead word rest, line = lead ++ (word ++ rest) →
      word ∈ taggedWords.map String.toList → (headline (word ++ spacedRest rest)).SeenIn line) :
    line ≠ [] ∧ found.headline.SeenIn line := by
  obtain ⟨⟨lead, word, rest⟩, hd, rfl⟩ := Option.map_eq_some_iff.1 h
  obtain ⟨heq, hlead, hmem⟩ := eq_append_of_dashWord? hd
  refine ⟨?_, hseen lead word rest heq (List.map_subset _ hsub hmem)⟩
  rintro rfl
  exact hlead (List.append_eq_nil_iff.1 heq.symm).1

/-- A line that starts with a dash is not empty. -/
theorem ne_nil_of_dashWord? {words : List String} {line : Text} {r : Text × Text × Text}
    (h : dashWord? words line = some r) : line ≠ [] := by
  rintro rfl
  simp [dashWord?, dash?] at h

/-- The code behind a fence is cut out of the line. -/
theorem fencedCode_seen {line : Text} {found : Recognition}
    (h : fencedCode.recognise line = some found) : line ≠ [] ∧ found.headline.SeenIn line := by
  simp only [fencedCode] at h
  split at h
  · cases h
  · rename_i t ht
    cases h
    have hline := Text.after?_eq_some_iff.1 ht
    refine ⟨fun hnil => ?_, fun u hu => ?_⟩
    · rw [hnil] at hline
      cases hline
    · -- what is left of the line after the dashes, the mark and the blanks
      have hrest : ((optionalMark '!' (t.dropWhile (· == '-'))).2).dropWhile isBlank <:+ line := by
        refine (List.dropWhile_suffix _).trans <| (optionalMark_suffix _ _).trans <|
          (List.dropWhile_suffix _).trans ?_
        rw [hline]
        exact List.suffix_append _ t
      refine List.IsInfix.trans ?_ hrest.isInfix
      split at hu
      · cases hu
      · rename_i c v heq
        split at hu
        · cases hu
        · cases hu
          rw [heq]
          exact ((List.prefix_cons_inj c).2 (List.takeWhile_prefix _)).isInfix

/-- A standard rule sees only headlines whose texts lie in the line, and none in an empty line. -/
theorem standard_seen {rule : Rule} (hr : rule ∈ standard) {line : Text} {found : Recognition}
    (h : rule.recognise line = some found) : line ≠ [] ∧ found.headline.SeenIn line := by
  simp only [standard, List.mem_cons, List.not_mem_nil, or_false] at hr
  rcases hr with rfl | rfl | rfl | rfl | rfl | rfl | rfl | rfl | rfl | rfl | rfl | rfl | rfl |
    rfl | rfl | rfl | rfl | rfl | rfl
  · exact byStart_seen h rfl trivial
  · -- a document type
    cases line with
    | nil => simp [doctype, caselessAfter?] at h
    | cons c t =>
      refine ⟨List.cons_ne_nil _ _, ?_⟩
      simp only [doctype] at h
      split at h
      · simp at h
      · split at h
        · simp at h
        · cases h
          trivial
  · exact byStart_seen h rfl trivial
  · exact byStart_seen h rfl trivial
  · exact byStart_seen h rfl (List.drop_suffix 1 line).isInfix
  · -- text without a mark
    cases line with
    | nil => simp [implicitLiteral] at h
    | cons c t =>
      refine ⟨List.cons_ne_nil _ _, ?_⟩
      simp only [implicitLiteral] at h
      split at h
      · cases h
        exact ((List.prefix_cons_inj c).2 (List.takeWhile_prefix _)).isInfix
      · simp at h
  · exact byStart_seen h rfl trivial
  · -- a value
    cases line with
    | nil => simp [value] at h
    | cons c t =>
      refine ⟨List.cons_ne_nil _ _, ?_⟩
      simp only [value] at h
      split at h
      · cases h
        trivial
      · simp at h
  · exact byStart_seen h rfl trivial
  · obtain ⟨⟨lead, word, rest⟩, hd, rfl⟩ := Option.map_eq_some_iff.1 h
    exact ⟨ne_nil_of_dashWord? hd, lead, rest, hd, rfl⟩
  · obtain ⟨⟨lead, word, rest⟩, hd, rfl⟩ := Option.map_eq_some_iff.1 h
    have hword : (if word = "unless".toList then "if".toList else "while".toList) ∈
        statementWords.map String.toList := by
      split <;> decide
    exact ⟨ne_nil_of_dashWord? hd, hword, lead, word, rest, hd, rfl⟩
  · exact fencedCode_seen h
  · obtain ⟨⟨lead, word, rest⟩, hd, rfl⟩ := Option.map_eq_some_iff.1 h
    exact ⟨ne_nil_of_dashWord? hd, trivial⟩
  · exact bySpacedWord_seen h (by decide) fun _ _ _ heq hw => ⟨_, _, _, heq, hw, rfl⟩
  · exact bySpacedWord_seen h (by decide) fun _ _ _ heq hw => ⟨_, _, _, heq, hw, rfl⟩
  · exact bySpacedWord_seen h (by decide) fun _ _ _ heq hw => ⟨_, _, _, heq, hw, rfl⟩
  · exact bySpacedWord_seen h (by decide) fun _ _ _ heq hw => ⟨_, _, _, heq, hw, rfl⟩
  · obtain ⟨⟨lead, word, rest⟩, hd, rfl⟩ := Option.map_eq_some_iff.1 h
    exact ⟨ne_nil_of_dashWord? hd, (eq_append_of_dashWord? hd).2.2⟩
  · obtain ⟨⟨lead, word, rest⟩, hd, rfl⟩ := Option.map_eq_some_iff.1 h
    exact ⟨ne_nil_of_dashWord? hd, trivial⟩

/-! ## Lines that start with a dash -/

/-- The words behind the dashes of other headlines than statements. -/
def otherWords : List String :=
  negatedWords ++ taggedWords ++ ["python", "py"] ++ jumpWords ++
    ["md", "markdown", "rst", "rest", "coffee", "scss", "sass", "stylus"]

/-- A dash in front of a word is followed by blanks or a letter, not by another dash. -/
theorem exists_dash_of_dashWord? {words : List String} {line : Text} {r : Text × Text × Text}
    (hwords : ∀ w ∈ words.map String.toList, w ≠ [] ∧ w.head? ≠ some '-')
    (h : dashWord? words line = some r) : ∃ t, line = '-' :: t ∧ Text.after? ['-'] t = none := by
  unfold dashWord? dash? at h
  cases line with
  | nil => cases h
  | cons c t =>
    by_cases hc : c = '-'
    · subst hc
      refine ⟨t, rfl, ?_⟩
      cases ht : Text.after? ['-'] t with
      | none => rfl
      | some u =>
        have hdrop : List.dropWhile isBlank ('-' :: u) = '-' :: u :=
          List.dropWhile_cons_of_neg (by decide)
        rw [Text.after?_eq_some_iff.1 ht] at h
        simp only [if_true, List.singleton_append, hdrop] at h
        obtain ⟨⟨w, rest⟩, hw, -⟩ := Option.map_eq_some_iff.1 h
        obtain ⟨heq, hmem⟩ := eq_append_of_word? hw
        obtain ⟨hne, hhead⟩ := hwords w hmem
        cases w with
        | nil => exact absurd rfl hne
        | cons a w =>
          cases heq
          exact absurd rfl hhead
    · simp [hc] at h

/-- A line that starts with a dash and a word is recognised by no standard rule with other words. -/
theorem recognise_of_dashWord? {rule : Rule} (hr : rule ∈ standard) {words : List String}
    {line : Text} {r : Text × Text × Text} (h : dashWord? words line = some r)
    (hwords : ∀ w ∈ words.map String.toList, w ≠ [] ∧ w.head? ≠ some '-')
    (hdiffer : ∀ w ∈ words.map String.toList, ∀ w' ∈ otherWords.map String.toList,
      ¬ w <+: w' ∧ ¬ w' <+: w) : rule = statement ∨ rule.recognise line = none := by
  have hother {words' : List String} (hsub : words' ⊆ otherWords) : dashWord? words' line = none :=
    dashWord?_eq_none h fun w hw w' hw' => hdiffer w hw w' (List.map_subset _ hsub hw')
  obtain ⟨t, rfl, ht⟩ := exists_dash_of_dashWord? hwords h
  simp only [standard, List.mem_cons, List.not_mem_nil, or_false] at hr
  rcases hr with rfl | rfl | rfl | rfl | rfl | rfl | rfl | rfl | rfl | rfl | rfl | rfl | rfl |
    rfl | rfl | rfl | rfl | rfl | rfl
  any_goals exact .inl rfl
  -- most rules fail at the dash or at the word; that leaves the fence, which has more dashes
  all_goals right
  any_goals rfl
  any_goals exact Option.map_eq_none_iff.2 (hother (by decide))
  have hfence : Text.after? "---".toList ('-' :: t) = none := by
    cases hu : Text.after? "---".toList ('-' :: t) with
    | none => rfl
    | some u =>
      cases Text.after?_eq_some_iff.1 hu
      cases ht
  simp only [fencedCode, hfence]

/-- No standard rule recognises the line of a clause. -/
theorem recognise_clause {rule : Rule} (hr : rule ∈ standard) {clause : Clause} {line : Text}
    {r : Text × Text × Text} (h : dashWord? [clause.word] line = some r) :
    rule.recognise line = none := by
  rcases recognise_of_dashWord? hr h (by cases clause <;> decide) (by cases clause <;> decide) with
    rfl | hnone
  · exact Option.map_eq_none_iff.2 (dashWord?_eq_none h (by cases clause <;> decide))
  · exact hnone

end Rule

/-! ## Profiles -/

namespace Profile

/-- What a profile sees in a line is what one of its rules sees in it. -/
theorem exists_rule_of_recognise {p : Profile} {line : Text} {found : Recognition}
    (h : p.recognise line = some found) : ∃ rule ∈ p.rules, rule.recognise line = some found := by
  obtain ⟨⟨rule, found'⟩, hl, rfl⟩ := Option.map_eq_some_iff.1 h
  obtain ⟨rule', hmem, hf⟩ := List.exists_of_findSome?_eq_some hl
  obtain ⟨found'', hr, hp⟩ := Option.map_eq_some_iff.1 hf
  simp only [Prod.mk.injEq] at hp
  obtain ⟨rfl, rfl⟩ := hp
  exact ⟨rule', hmem, hr⟩

/-- The table of a profile is part of the standard one. -/
def IsStandard (p : Profile) : Prop :=
  p.rules.Sublist Rule.standard

/-- All rules of the Mako profile are standard, in their order. -/
theorem mako_isStandard {markdown : Transpiler} : (mako markdown).IsStandard :=
  List.Sublist.refl _

/-- The Django profile has only lost rules of the standard table. -/
theorem django_isStandard {markdown : Transpiler} : (django markdown).IsStandard :=
  (List.filter_sublist.trans List.filter_sublist).trans List.filter_sublist

/-- What a profile of standard rules sees lies in the line, and the line is not empty. -/
theorem headline_seen {p : Profile} (hp : p.IsStandard) {line : Text} {found : Recognition}
    (h : p.recognise line = some found) : line ≠ [] ∧ found.headline.SeenIn line := by
  obtain ⟨rule, hmem, hr⟩ := exists_rule_of_recognise h
  exact Rule.standard_seen (hp.subset hmem) hr

/-- A line that is recognised goes on no statement. -/
theorem next?_eq_none_of_recognise {p : Profile} (hp : p.IsStandard) {line : Text}
    {found : Recognition} (h : p.recognise line = some found) (keyword : Text)
    (taken : List Clause) : Clause.next? keyword taken line = none := by
  obtain ⟨rule, hmem, hr⟩ := exists_rule_of_recognise h
  unfold Clause.next?
  split
  · rfl
  · refine List.findSome?_eq_none_iff.2 fun clause _ => ?_
    cases hd : Rule.dashWord? [clause.word] line with
    | none => rfl
    | some r =>
      rw [Rule.recognise_clause (hp.subset hmem) hd] at hr
      cases hr

end Profile

end TerseMarkup
