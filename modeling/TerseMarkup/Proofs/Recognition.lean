import TerseMarkup.Proofs.Inlining

/-!
# Which lines are recognised

The rules overlap, and some of them look far into a line. Yet whether a line is recognised at all
depends on little: on its first character, and for three characters on what follows.

* A dollar sign has to open a placeholder, and an ampersand a character entity (`HasEntity`).
* A dash has to open a fence or stand before a keyword (`StartsWithKeyword`). A keyword may go on
  into a longer word.

`IsStray` says which lines are left over. `Profile.lookUp_eq_none_iff` shows that these are the
lines without a rule, in both dialects; the dialects differ only in their keywords.

The rules fall into two groups. Those of `Rule.markRules` go by the first character, which is told
by one test for all of them (`Rule.opensLine`). Those of `Rule.wordRules` go by a word behind a
dash, and the fence stands between them.
-/

namespace TerseMarkup

/-! ## Lines that nothing announces -/

/-- The characters that no line of any kind starts with. -/
def strayMarks : Text :=
  "!\"%')*+:;>?@\\]^_\x60\x7d~".toList

/-- The words that may follow a dash, where all rules are in force. -/
def keywords : List String :=
  ["if", "for", "while", "with", "try", "unless", "until", "py", "def", "block", "include",
    "inherit", "page", "namespace", "text", "call", "return", "continue", "break", "md",
    "markdown", "rst", "rest", "coffee", "scss", "sass", "stylus"]

/-- The keywords that only one dialect has. -/
def engineKeywords : List String :=
  ["include", "inherit", "page", "namespace", "text", "call"]

/-- The line is a dash, any number of blanks and one of the words, with anything behind it. -/
def StartsWithKeyword (words : List String) (line : Text) : Prop :=
  ∃ word ∈ words, ∃ gap rest : Text,
    (∀ c ∈ gap, isBlank c = true) ∧ line = '-' :: (gap ++ (word.toList ++ rest))

/-- A semicolon stands at the third character or later, and no line feed in front of it. -/
def HasEntity (t : Text) : Prop :=
  ∃ n, 2 ≤ n ∧ t[n]? = some ';' ∧ '\n' ∉ t.take n

/-- The line announces nothing, if `words` are the keywords. -/
inductive IsStray (words : List String) : Text → Prop where
  | mark {c : Char} (t : Text) (hmark : c ∈ strayMarks) : IsStray words (c :: t)
  | dollar {t : Text} (hopen : t.head? ≠ some '\x7b') : IsStray words ('$' :: t)
  | ampersand {t : Text} (hentity : ¬ HasEntity ('&' :: t)) : IsStray words ('&' :: t)
  | dash {t : Text} (hfence : ¬ "---".toList <+: '-' :: t)
      (hword : ¬ StartsWithKeyword words ('-' :: t)) : IsStray words ('-' :: t)

/-- Of two keywords, one of which goes on the other, only the shorter one counts. -/
theorem StartsWithKeyword.of_isPrefix {words words' : List String} {line : Text}
    (hshorter : ∀ w ∈ words, ∃ w' ∈ words', w'.toList <+: w.toList)
    (h : StartsWithKeyword words line) : StartsWithKeyword words' line := by
  obtain ⟨w, hw, gap, rest, hgap, rfl⟩ := h
  obtain ⟨w', hw', u, hu⟩ := hshorter w hw
  refine ⟨w', hw', gap, u ++ rest, hgap, ?_⟩
  rw [← hu, List.append_assoc]

/-- A line that announces nothing announces nothing with longer words either. -/
theorem IsStray.of_isPrefix {words words' : List String} {line : Text}
    (hshorter : ∀ w ∈ words', ∃ w' ∈ words, w'.toList <+: w.toList) (h : IsStray words line) :
    IsStray words' line := by
  cases h with
  | mark t hmark => exact .mark t hmark
  | dollar hopen => exact .dollar hopen
  | ampersand hentity => exact .ampersand hentity
  | dash hfence hword => exact .dash hfence fun h => hword (h.of_isPrefix hshorter)

/-! ## Entities -/

/-- A character of the first line stands in the text, with no line feed up to it. -/
theorem Text.getElem?_firstLine {t : Text} {n : Nat} {c : Char} :
    t.firstLine[n]? = some c ↔ t[n]? = some c ∧ '\n' ∉ t.take (n + 1) := by
  unfold Text.firstLine
  induction t generalizing n with
  | nil => simp
  | cons d t ih =>
    by_cases hd : d = '\n'
    · simp [hd]
    · rw [List.takeWhile_cons_of_pos (by simpa using hd), List.take_succ_cons, List.mem_cons,
        not_or]
      cases n with
      | zero => simp [Ne.symm hd]
      | succ n => simp [ih, Ne.symm hd]

/-- The entity ends on the first line, and has a character in it. -/
theorem hasEntity_iff {c : Char} (hc : c ≠ '\n') (t : Text) :
    HasEntity (c :: t) ↔ ';' ∈ (Text.firstLine t).drop 1 := by
  have hmem : ';' ∈ (Text.firstLine t).drop 1 ↔
      ∃ n, t[1 + n]? = some ';' ∧ '\n' ∉ t.take (1 + n + 1) := by
    rw [List.mem_iff_getElem?]
    simp only [List.getElem?_drop, Text.getElem?_firstLine]
  rw [hmem]
  constructor
  · rintro ⟨n, hn, hsemicolon, hline⟩
    obtain ⟨k, rfl⟩ : ∃ k, n = 1 + k + 1 := ⟨n - 2, by omega⟩
    rw [List.getElem?_cons_succ] at hsemicolon
    rw [List.take_succ_cons, List.mem_cons, not_or] at hline
    refine ⟨k, hsemicolon, ?_⟩
    rw [List.take_add_one, hsemicolon, List.mem_append, not_or]
    exact ⟨hline.2, by decide⟩
  · rintro ⟨k, hsemicolon, hline⟩
    refine ⟨1 + k + 1, by omega, by rwa [List.getElem?_cons_succ], ?_⟩
    rw [List.take_succ_cons, List.mem_cons, not_or]
    refine ⟨hc.symm, fun hmem => hline ?_⟩
    rw [List.take_add_one]
    exact List.mem_append_left _ hmem

namespace Rule

/-! ## Words behind a dash -/

/-- No blank is left in front of a word. -/
theorem isBlank_head?_word {words : List String}
    (hwords : ∀ w ∈ words, w.toList.head?.any (fun c => !isBlank c) = true) {word : Text}
    (hmem : word ∈ words.map String.toList) (rest : Text) :
    ∀ c, (word ++ rest).head? = some c → isBlank c = false := by
  intro c hc
  obtain ⟨w, hw, rfl⟩ := List.mem_map.1 hmem
  have hhead := hwords w hw
  cases hlist : w.toList with
  | nil => simp [hlist] at hhead
  | cons d u =>
    rw [hlist, List.cons_append, List.head?_cons] at hc
    cases hc
    simpa [hlist] using hhead

/-- The blanks behind a dash are passed over. -/
theorem dashWord?_gap {gap t : Text} (hgap : ∀ c ∈ gap, isBlank c = true)
    (ht : ∀ c, t.head? = some c → isBlank c = false) (words : List String) :
    dashWord? words ('-' :: (gap ++ t)) =
      (Text.word? (words.map String.toList) t).map (Prod.mk ('-' :: gap)) := by
  have htake : (gap ++ t).takeWhile isBlank = gap := by
    rw [List.takeWhile_append_of_pos hgap]
    cases t with
    | nil => simp
    | cons d u => simp [ht d rfl]
  have hdrop : (gap ++ t).dropWhile isBlank = t := by
    rw [List.dropWhile_append_of_pos hgap]
    exact Text.trimStart_eq_self ht
  simp only [dashWord?, dash?, if_true, htake, hdrop]

/-- A dash and a word, taken apart. -/
theorem exists_gap_of_dashWord? {words : List String} {line lead word rest : Text}
    (h : dashWord? words line = some (lead, word, rest)) :
    ∃ gap, (∀ c ∈ gap, isBlank c = true) ∧ lead = '-' :: gap ∧
      line = '-' :: (gap ++ (word ++ rest)) ∧ word ∈ words.map String.toList ∧
      Text.word? (words.map String.toList) (word ++ rest) = some (word, rest) := by
  unfold dashWord? dash? at h
  cases line with
  | nil => cases h
  | cons c t =>
    by_cases hc : c = '-'
    · subst hc
      simp only [if_true] at h
      obtain ⟨⟨w, r⟩, hword, hfound⟩ := Option.map_eq_some_iff.1 h
      simp only [Prod.mk.injEq] at hfound
      obtain ⟨rfl, rfl, rfl⟩ := hfound
      obtain ⟨heq, hmem⟩ := eq_append_of_word? hword
      rw [← heq]
      refine ⟨t.takeWhile isBlank, List.all_eq_true.1 List.all_takeWhile, rfl, ?_, hmem, hword⟩
      rw [List.takeWhile_append_dropWhile]
    · simp [hc] at h

/-- A dash and a word are found wherever they stand at the start of a line. -/
theorem dashWord?_eq_none_iff {words : List String} {line : Text}
    (hwords : ∀ w ∈ words, w.toList.head?.any (fun c => !isBlank c) = true) :
    dashWord? words line = none ↔ ¬ StartsWithKeyword words line := by
  constructor
  · rintro h ⟨w, hw, gap, rest, hgap, rfl⟩
    have hmem : w.toList ∈ words.map String.toList := List.mem_map_of_mem hw
    rw [dashWord?_gap hgap (isBlank_head?_word hwords hmem rest), Option.map_eq_none_iff] at h
    have hnone := List.findSome?_eq_none_iff.1 h w.toList hmem
    rw [Text.after?_eq_some_iff.2 rfl] at hnone
    cases hnone
  · intro h
    cases hd : dashWord? words line with
    | none => rfl
    | some r =>
      obtain ⟨lead, word, rest⟩ := r
      obtain ⟨gap, hgap, -, hline, hmem, -⟩ := exists_gap_of_dashWord? hd
      obtain ⟨w, hw, rfl⟩ := List.mem_map.1 hmem
      exact absurd ⟨w, hw, gap, rest, hgap, hline⟩ h

/-- The rule recognises the lines that start with a dash and one of the words. -/
def GoesByWord (words : List String) (rule : Rule) : Prop :=
  ∀ line, rule.recognise line = none ↔ ¬ StartsWithKeyword words line

/-- The rules that go by a word behind a dash, with their words. -/
def wordRules : List (List String × Rule) :=
  [(statementWords, statement), (negatedWords, negated), (["python", "py"], code),
    (["def", "block"], definition), (["include", "inherit", "page", "namespace"], directive),
    (["text"], shielded), (["call"], call), (jumpWords, jump),
    (["md", "markdown", "rst", "rest", "coffee", "scss", "sass", "stylus"], markup)]

/-- Every rule of the list goes by its words. -/
theorem wordRules_goByWord : ∀ entry ∈ wordRules, GoesByWord entry.1 entry.2 := by
  intro entry hentry line
  have hwords : ∀ w ∈ entry.1, w.toList.head?.any (fun c => !isBlank c) = true := by
    revert entry
    decide
  rw [← dashWord?_eq_none_iff hwords]
  simp only [wordRules, List.mem_cons, List.not_mem_nil, or_false] at hentry
  rcases hentry with rfl | rfl | rfl | rfl | rfl | rfl | rfl | rfl | rfl
  all_goals exact Option.map_eq_none_iff

/-- The rule for code behind a fence sees nothing exactly in lines without three dashes at the
front. -/
theorem fencedCode_eq_none_iff {line : Text} :
    fencedCode.recognise line = none ↔ ¬ "---".toList <+: line := by
  have hafter : Text.after? "---".toList line = none ↔ ¬ "---".toList <+: line := by
    constructor
    · rintro h ⟨rest, rfl⟩
      rw [Text.after?_eq_some_iff.2 rfl] at h
      cases h
    · intro h
      cases hrest : Text.after? "---".toList line with
      | none => rfl
      | some rest => exact absurd ⟨rest, (Text.after?_eq_some_iff.1 hrest).symm⟩ h
  rw [← hafter]
  simp only [fencedCode]
  cases Text.after? "---".toList line with
  | none => simp
  | some rest => simp

/-! ## First characters -/

/-- The rules that go by the first character. -/
def markRules : List Rule :=
  [verbatimElement, doctype, scriptTemplate, element, explicitLiteral, implicitLiteral, html, value,
    comment]

/-- Whether every line with this first character is recognised. -/
def opensLine (c : Char) : Bool :=
  c == '#' || c == '.' || isElementStart c || c == '|' || c == ',' || c == '\x7b' || c == '(' ||
    c == '[' || isDigit c || !('!' ≤ c && c ≤ '~') || ('A' ≤ c && c ≤ 'Z') || c == '<' ||
    c == '=' || c == '/'

/-- Every first character but the stray ones and three others opens a line. -/
theorem opensLine_eq_false_iff (c : Char) :
    opensLine c = false ↔ c ∈ strayMarks ∨ c = '-' ∨ c = '$' ∨ c = '&' := by
  have hascii : ∀ n < 127, opensLine (Char.ofNat n) = false ↔
      Char.ofNat n ∈ strayMarks ∨ Char.ofNat n = '-' ∨ Char.ofNat n = '$' ∨ Char.ofNat n = '&' := by
    decide +kernel
  by_cases hc : c.toNat < 127
  · simpa using hascii c.toNat hc
  · -- no character beyond the tilde is printable ASCII, so it opens a line of text
    have hbeyond : ¬ c ≤ '~' := by
      rw [Char.le_def, UInt32.le_iff_toNat_le]
      intro hle
      exact hc (Nat.lt_succ_of_le hle)
    have hopens : opensLine c = true := by simp [opensLine, hbeyond]
    have hmarks : ∀ d ∈ '-' :: '$' :: '&' :: strayMarks, d ≤ '~' :=
      Text.forall_mem_of_all (by decide)
    rw [hopens]
    refine ⟨fun h => absurd h (by decide), fun h => absurd (hmarks c ?_) hbeyond⟩
    simpa [or_comm, or_assoc, or_left_comm] using h

/-- The rule for text without a mark looks at how a line starts. -/
theorem implicitLiteral_eq_none_iff (c : Char) (t : Text) :
    implicitLiteral.recognise (c :: t) = none ↔ startsText (c :: t) = false := by
  simp [implicitLiteral]

/-- A line whose first character does not open it is text only behind a dollar sign or an
ampersand. -/
theorem startsText_eq_false_iff {c : Char} (hc : opensLine c = false) (t : Text) :
    startsText (c :: t) = false ↔
      (c = '$' → t.head? ≠ some '\x7b') ∧ (c = '&' → ¬ HasEntity (c :: t)) := by
  by_cases hdollar : c = '$'
  · subst hdollar
    simp [startsText]
  · by_cases hampersand : c = '&'
    · subst hampersand
      rw [hasEntity_iff (by decide)]
      simp [startsText]
    · have hother : startsText (c :: t) = false := by
        simp only [opensLine, Bool.or_eq_false_iff] at hc
        simp [startsText, hdollar, hampersand, hc]
      simp [hother, hdollar, hampersand]

/-- Each rule for first characters that fails excludes some of them. -/
theorem opensLine_eq_false_of_markRules {c : Char} {t : Text}
    (h : ∀ rule ∈ markRules, rule.recognise (c :: t) = none) : opensLine c = false := by
  have htext := (implicitLiteral_eq_none_iff c t).1 (h implicitLiteral (by simp [markRules]))
  have helement := byStart_eq_none_iff.1 (h element (by simp [markRules]))
  have hliteral := byStart_eq_none_iff.1 (h explicitLiteral (by simp [markRules]))
  have hhtml := byStart_eq_none_iff.1 (h html (by simp [markRules]))
  have hcomment := byStart_eq_none_iff.1 (h comment (by simp [markRules]))
  have hvalue := h value (by simp [markRules])
  by_cases hspecial : c = '$' ∨ c = '&'
  · rcases hspecial with rfl | rfl
    · decide
    · decide
  · rw [not_or] at hspecial
    simp only [startsText, hspecial, if_false, Bool.or_eq_false_iff] at htext
    simp only [List.head?_cons, Bool.or_eq_false_iff] at helement hliteral hhtml hcomment
    simp only [value] at hvalue
    simp_all [opensLine]

/-- The rules that go by the first character fail together. -/
theorem markRules_eq_none_iff (c : Char) (t : Text) :
    (∀ rule ∈ markRules, rule.recognise (c :: t) = none) ↔
      opensLine c = false ∧ startsText (c :: t) = false := by
  constructor
  · intro h
    refine ⟨opensLine_eq_false_of_markRules h, ?_⟩
    exact (implicitLiteral_eq_none_iff c t).1 (h implicitLiteral (by simp [markRules]))
  · rintro ⟨hopens, htext⟩ rule hrule
    have hfirst : ∀ d ∈ '-' :: '$' :: '&' :: strayMarks,
        isLetter 's' d = false ∧ isLetter 'd' d = false ∧ 'h' ≠ d ∧ d ≠ '=' ∧
          (d == '#' || d == '.' || isElementStart d) = false ∧ d ≠ '|' ∧ d ≠ ',' ∧ d ≠ '<' ∧
          d ≠ '/' :=
      Text.forall_mem_of_all (by decide)
    have hmem : c ∈ '-' :: '$' :: '&' :: strayMarks := by
      have hcases := (opensLine_eq_false_iff c).1 hopens
      simpa [or_comm, or_assoc, or_left_comm] using hcases
    obtain ⟨hs, hd, hh, hequals, helement, hbar, hcomma, hless, hslash⟩ := hfirst c hmem
    simp only [markRules, List.mem_cons, List.not_mem_nil, or_false] at hrule
    rcases hrule with rfl | rfl | rfl | rfl | rfl | rfl | rfl | rfl | rfl
    · exact byStart_eq_none_iff.2 (by simp [caselessAfter?, hs])
    · simp [doctype, caselessAfter?, hd]
    · exact byStart_eq_none_iff.2 (by simp [List.isPrefixOf, hh])
    · exact byStart_eq_none_iff.2 helement
    · exact byStart_eq_none_iff.2 (by simp [hbar, hcomma])
    · exact (implicitLiteral_eq_none_iff c t).2 htext
    · exact byStart_eq_none_iff.2 (by simp [hless])
    · simp [value, hequals]
    · exact byStart_eq_none_iff.2 (by simp [hslash])

end Rule

/-! ## The tables of the dialects -/

namespace Profile

/-- A line is unknown exactly if no rule sees anything in it. -/
theorem lookUp_eq_none {p : Profile} {line : Text} :
    p.lookUp line = none ↔ ∀ rule ∈ p.rules, rule.recognise line = none := by
  unfold lookUp
  rw [List.findSome?_eq_none_iff]
  simp only [Option.map_eq_none_iff]

/-- Rules that go by words fail together if none of the words is there. -/
theorem wordTable_eq_none_iff {table : List (List String × Rule)}
    (htable : ∀ entry ∈ table, Rule.GoesByWord entry.1 entry.2) (line : Text) :
    (∀ rule ∈ table.map Prod.snd, rule.recognise line = none) ↔
      ¬ StartsWithKeyword (table.flatMap Prod.fst) line := by
  constructor
  · rintro h ⟨w, hw, hline⟩
    obtain ⟨entry, hentry, hw⟩ := List.mem_flatMap.1 hw
    exact (htable entry hentry _).1 (h _ (List.mem_map_of_mem hentry)) ⟨w, hw, hline⟩
  · intro h rule hrule
    obtain ⟨entry, hentry, rfl⟩ := List.mem_map.1 hrule
    refine (htable entry hentry _).2 fun ⟨w, hw, hline⟩ => h ⟨w, ?_, hline⟩
    exact List.mem_flatMap.2 ⟨entry, hentry, hw⟩

/-- The stray lines, by the conditions under which the three kinds of rules fail. -/
theorem isStray_cons_iff {words : List String} {c : Char} {t : Text} :
    IsStray words (c :: t) ↔
      (Rule.opensLine c = false ∧ Rule.startsText (c :: t) = false) ∧
        ¬ "---".toList <+: c :: t ∧ ¬ StartsWithKeyword words (c :: t) := by
  have hdash : c ≠ '-' → ¬ "---".toList <+: c :: t ∧ ¬ StartsWithKeyword words (c :: t) := by
    intro hc
    constructor
    · rintro ⟨u, hu⟩
      cases hu
      exact hc rfl
    · rintro ⟨w, -, gap, rest, -, hline⟩
      cases hline
      exact hc rfl
  constructor
  · intro h
    have hopens : Rule.opensLine c = false := by
      apply (Rule.opensLine_eq_false_iff c).2
      cases h with
      | mark _ hmark => exact .inl hmark
      | dash _ _ => exact .inr (.inl rfl)
      | dollar _ => exact .inr (.inr (.inl rfl))
      | ampersand _ => exact .inr (.inr (.inr rfl))
    rw [Rule.startsText_eq_false_iff hopens]
    cases h with
    | mark _ hmark =>
      have hother : ∀ d ∈ strayMarks, d ≠ '$' ∧ d ≠ '&' ∧ d ≠ '-' :=
        Text.forall_mem_of_all (by decide)
      obtain ⟨hdollar, hampersand, hc⟩ := hother c hmark
      exact ⟨⟨hopens, fun h => absurd h hdollar, fun h => absurd h hampersand⟩, hdash hc⟩
    | dash hfence hnoword =>
      exact ⟨⟨hopens, fun h => absurd h (by decide), fun h => absurd h (by decide)⟩, hfence,
        hnoword⟩
    | dollar hopen =>
      exact ⟨⟨hopens, fun _ => hopen, fun h => absurd h (by decide)⟩, hdash (by decide)⟩
    | ampersand hentity =>
      exact ⟨⟨hopens, fun h => absurd h (by decide), fun _ => hentity⟩, hdash (by decide)⟩
  · rintro ⟨⟨hopens, htext⟩, hfence, hnoword⟩
    rw [Rule.startsText_eq_false_iff hopens] at htext
    rcases (Rule.opensLine_eq_false_iff c).1 hopens with hmark | rfl | rfl | rfl
    · exact .mark t hmark
    · exact .dash hfence hnoword
    · exact .dollar (htext.1 rfl)
    · exact .ampersand (htext.2 rfl)

/-- A table of the rules for first characters, the fence and some rules for words leaves over the
lines that are stray with these words. -/
theorem lookUp_eq_none_iff_isStray {p : Profile} {table : List (List String × Rule)}
    (hrules : ∀ rule, rule ∈ p.rules ↔
      rule ∈ Rule.markRules ∨ rule = Rule.fencedCode ∨ rule ∈ table.map Prod.snd)
    (htable : ∀ entry ∈ table, Rule.GoesByWord entry.1 entry.2) (c : Char) (t : Text) :
    p.lookUp (c :: t) = none ↔ IsStray (table.flatMap Prod.fst) (c :: t) := by
  rw [isStray_cons_iff, lookUp_eq_none, ← Rule.markRules_eq_none_iff,
    ← Rule.fencedCode_eq_none_iff, ← wordTable_eq_none_iff htable]
  constructor
  · intro h
    exact ⟨fun rule hr => h rule ((hrules rule).2 (.inl hr)),
      h _ ((hrules _).2 (.inr (.inl rfl))),
      fun rule hr => h rule ((hrules rule).2 (.inr (.inr hr)))⟩
  · rintro ⟨hmarks, hfence, hwords⟩ rule hr
    rcases (hrules rule).1 hr with hr | rfl | hr
    · exact hmarks rule hr
    · exact hfence
    · exact hwords rule hr

/-- The entries for words that both dialects have. -/
def commonRules : List (List String × Rule) :=
  Rule.wordRules.filter fun entry => entry.1.all (· ∉ engineKeywords)

/-- The rules of the Mako profile, sorted by how they recognise a line. -/
theorem mem_rules_mako (markdown : Transpiler) (rule : Rule) : rule ∈ (mako markdown).rules ↔
    rule ∈ Rule.markRules ∨ rule = Rule.fencedCode ∨ rule ∈ Rule.wordRules.map Prod.snd := by
  have hrules : (mako markdown).rules = Rule.markRules ++ [Rule.statement, Rule.negated,
      Rule.fencedCode, Rule.code, Rule.definition, Rule.directive, Rule.shielded, Rule.call,
      Rule.jump, Rule.markup] := rfl
  rw [hrules]
  simp [Rule.wordRules, or_left_comm]

/-- The Django profile has the same rules but for those of the engine's keywords. -/
theorem mem_rules_django (markdown : Transpiler) (rule : Rule) :
    rule ∈ (django markdown).rules ↔
    rule ∈ Rule.markRules ∨ rule = Rule.fencedCode ∨ rule ∈ commonRules.map Prod.snd := by
  have hrules : (django markdown).rules = Rule.markRules ++ [Rule.statement, Rule.negated,
      Rule.fencedCode, Rule.code, Rule.definition, Rule.jump, Rule.markup] := rfl
  have hcommon : commonRules.map Prod.snd = [Rule.statement, Rule.negated, Rule.code,
      Rule.definition, Rule.jump, Rule.markup] := rfl
  rw [hrules, hcommon]
  simp [or_left_comm]

/-- The lines without a rule are the stray ones; the dialects differ in their keywords. -/
theorem lookUp_eq_none_iff (markdown : Transpiler) (c : Char) (t : Text) :
    ((mako markdown).lookUp (c :: t) = none ↔ IsStray keywords (c :: t)) ∧
      ((django markdown).lookUp (c :: t) = none ↔
        IsStray (keywords.filter (· ∉ engineKeywords)) (c :: t)) := by
  -- the tables also have the long form of a keyword, which starts with the short one
  constructor
  · rw [lookUp_eq_none_iff_isStray (mem_rules_mako markdown) Rule.wordRules_goByWord]
    exact ⟨IsStray.of_isPrefix (by decide), IsStray.of_isPrefix (by decide)⟩
  · rw [lookUp_eq_none_iff_isStray (mem_rules_django markdown)
      fun entry hentry => Rule.wordRules_goByWord entry (List.mem_filter.1 hentry).1]
    exact ⟨IsStray.of_isPrefix (by decide), IsStray.of_isPrefix (by decide)⟩

end Profile

end TerseMarkup
