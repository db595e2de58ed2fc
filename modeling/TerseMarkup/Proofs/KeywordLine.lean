import TerseMarkup.Proofs.Recognition

/-!
# How far a keyword reaches

Five rules take a keyword behind a dash and the rest of the line behind blanks. The blanks are not
asked for: if the keyword goes on into a longer word, the rules still recognise the line and look at
nothing behind the keyword.

* `Rule.exists_cutsAt`: such a rule cuts a line at its keyword, and sees the rest only behind
  blanks. Where there is no blank it sees the line as if that ended at the keyword.
* `Profile.matched_eq_line_iff`: a rule has looked at the whole line exactly if a blank or nothing
  follows the keyword. All else is dropped: the line up to the keyword is seen in the same way.
* `Profile.definition_drops_text`: text can really be lost.
-/

namespace TerseMarkup

/-- The rules that take the rest of a line only behind blanks, with their keywords. -/
def spacedKeywords : List (String × List String) :=
  [("python", ["python", "py"]), ("def_block", ["def", "block"]),
    ("mako_one_liners", ["include", "inherit", "page", "namespace"]), ("mako_text", ["text"]),
    ("call", ["call"])]

namespace Rule

/-! ## The rest of a line behind blanks -/

/-- A rest that starts with a blank is seen, as it stands. -/
theorem spacedRest_eq_self {t : Text} (hblank : ∀ c, t.head? = some c → isBlank c = true)
    (hline : '\n' ∉ t) : spacedRest t = t := by
  unfold spacedRest
  cases t with
  | nil => rfl
  | cons c t =>
    have hfeed : '\n' ∉ (c :: t).dropWhile isBlank :=
      fun hmem => hline ((List.dropWhile_sublist isBlank).subset hmem)
    rw [if_neg (by simp [hblank c rfl]), Text.firstLine_eq_self hfeed,
      List.takeWhile_append_dropWhile]

/-- A rest that starts with anything else is not seen. -/
theorem spacedRest_eq_nil {t : Text} (h : ∃ c, t.head? = some c ∧ isBlank c = false) :
    spacedRest t = [] := by
  obtain ⟨c, hc, hblank⟩ := h
  obtain ⟨u, rfl⟩ := List.head?_eq_some_iff.1 hc
  simp [spacedRest, hblank]

/-- On one line, either all of the rest is seen or nothing. -/
theorem spacedRest_eq_self_iff {t : Text} (hline : '\n' ∉ t) :
    spacedRest t = t ↔ ∀ c, t.head? = some c → isBlank c = true := by
  constructor
  · intro h c hc
    cases hblank : isBlank c with
    | true => rfl
    | false =>
      rw [spacedRest_eq_nil ⟨c, hc, hblank⟩] at h
      rw [← h] at hc
      cases hc
  · exact fun h => spacedRest_eq_self h hline

/-! ## Lines cut behind their keyword -/

/-- A word is found in the same place if the text behind it is cut. -/
theorem word?_of_append {words : List Text} {word mark rest : Text}
    (h : Text.word? words (word ++ (mark ++ rest)) = some (word, mark ++ rest)) :
    Text.word? words (word ++ mark) = some (word, mark) := by
  obtain ⟨before, w, after, rfl, hw, hbefore⟩ := List.findSome?_eq_some_iff.1 h
  obtain ⟨r, -, heq⟩ := Option.map_eq_some_iff.1 hw
  cases heq
  refine List.findSome?_eq_some_iff.2 ⟨before, word, after, rfl, ?_, ?_⟩
  · rw [Text.after?_eq_some_iff.2 rfl]
    rfl
  · intro v hv
    cases hafter : Text.after? v (word ++ mark) with
    | none => rfl
    | some u =>
      have hlong : word ++ (mark ++ rest) = v ++ (u ++ rest) := by
        rw [← List.append_assoc, Text.after?_eq_some_iff.1 hafter, List.append_assoc]
      have hnone := hbefore v hv
      rw [Text.after?_eq_some_iff.2 hlong] at hnone
      cases hnone

/-- A dash and a word are found in the same way if the line is cut behind them. -/
theorem exists_cut_of_dashWord? {words : List String}
    (hwords : ∀ w ∈ words, w.toList.head?.any (fun c => !isBlank c) = true)
    {line lead word mark rest : Text} (h : dashWord? words line = some (lead, word, mark ++ rest)) :
    ∃ gap, (∀ c ∈ gap, isBlank c = true) ∧ lead = '-' :: gap ∧
      line = '-' :: (gap ++ (word ++ (mark ++ rest))) ∧ word ∈ words.map String.toList ∧
      dashWord? words ('-' :: (gap ++ (word ++ mark))) = some ('-' :: gap, word, mark) := by
  obtain ⟨gap, hgap, hlead, hline, hmem, hword⟩ := exists_gap_of_dashWord? h
  refine ⟨gap, hgap, hlead, hline, hmem, ?_⟩
  rw [dashWord?_gap hgap (isBlank_head?_word hwords hmem mark), word?_of_append hword]
  rfl

/-- A rule cuts a line at a keyword: it sees the rest behind blanks only, and without blanks it sees
the line as if it ended there. Code may have a mark behind its keyword. -/
structure CutsAt (rule : Rule) (words : List String) (line : Text) (found : Recognition)
    (gap word mark rest : Text) : Prop where
  gap_blank : ∀ c ∈ gap, isBlank c = true
  word_mem : word ∈ words.map String.toList
  mark_eq : mark = [] ∨ rule.name = "python" ∧ mark = ['!']
  line_eq : line = '-' :: (gap ++ (word ++ (mark ++ rest)))
  matched_eq : found.matched = '-' :: (gap ++ (word ++ (mark ++ spacedRest rest)))
  unseen : spacedRest rest = [] → rule.recognise ('-' :: (gap ++ (word ++ mark))) = some found

/-- A rule for a dash and a word cuts lines at the word. -/
theorem bySpacedWord_cutsAt {name : String} {words : List String} {headline : Text → Headline}
    (hwords : ∀ w ∈ words, w.toList.head?.any (fun c => !isBlank c) = true) {line : Text}
    {found : Recognition} (h : (bySpacedWord name words headline).recognise line = some found) :
    ∃ gap word mark rest,
      CutsAt (bySpacedWord name words headline) words line found gap word mark rest := by
  obtain ⟨⟨lead, word, rest⟩, hd, rfl⟩ := Option.map_eq_some_iff.1 h
  have hbare : dashWord? words line = some (lead, word, [] ++ rest) := hd
  obtain ⟨gap, hgap, rfl, hline, hword, hcut⟩ := exists_cut_of_dashWord? hwords hbare
  refine ⟨gap, word, [], rest, hgap, hword, .inl rfl, hline, ?_, ?_⟩
  · simp only [List.cons_append, List.append_assoc, List.nil_append]
  · intro hrest
    show (dashWord? words ('-' :: (gap ++ (word ++ [])))).map _ = _
    rw [hcut, Option.map_some]
    simp only [hrest]
    rfl

/-- Code may have an exclamation mark between its keyword and the rest. -/
theorem code_cutsAt {line : Text} {found : Recognition} (h : code.recognise line = some found) :
    ∃ gap word mark rest, CutsAt code ["python", "py"] line found gap word mark rest := by
  obtain ⟨⟨lead, word, tail⟩, hd, rfl⟩ := Option.map_eq_some_iff.1 h
  obtain ⟨mark, rest, rfl, hmark, hoptional, hbare⟩ : ∃ mark rest, tail = mark ++ rest ∧
      (mark = [] ∨ mark = ['!']) ∧
      optionalMark '!' (mark ++ rest) = (!mark.isEmpty, rest) ∧
      optionalMark '!' mark = (!mark.isEmpty, []) := by
    unfold optionalMark
    cases hafter : Text.after? ['!'] tail with
    | none => exact ⟨[], tail, rfl, .inl rfl, by rw [List.nil_append, hafter]; rfl, rfl⟩
    | some rest =>
      obtain rfl := Text.after?_eq_some_iff.1 hafter
      exact ⟨['!'], rest, rfl, .inr rfl, by rw [hafter]; rfl, rfl⟩
  obtain ⟨gap, hgap, rfl, hline, hword, hcut⟩ := exists_cut_of_dashWord? (by decide) hd
  have hseen : (if rest.takeWhile isBlank = [] then none else some (spacedRest rest)).getD [] =
      spacedRest rest := by
    unfold spacedRest
    split <;> rfl
  have hsign : (if (!mark.isEmpty) = true then ['!'] else []) = mark := by
    rcases hmark with rfl | rfl <;> rfl
  refine ⟨gap, word, mark, rest, hgap, hword, hmark.imp_right fun h => ⟨rfl, h⟩, hline, ?_, ?_⟩
  · simp only [hoptional, hseen, hsign, List.cons_append, List.append_assoc]
  · intro hrest
    have hnone : rest.takeWhile isBlank = [] := by
      cases rest with
      | nil => rfl
      | cons c t =>
        unfold spacedRest at hrest
        split at hrest
        · assumption
        · exact (List.append_eq_nil_iff.1 hrest).1
    show (dashWord? ["python", "py"] ('-' :: (gap ++ (word ++ mark)))).map _ = _
    rw [hcut, Option.map_some]
    simp only [hoptional, hbare, hnone]
    rfl

/-- The rules with spaced keywords cut a line at its keyword. -/
theorem exists_cutsAt {rule : Rule} (hrule : rule ∈ standard) {words : List String}
    (hspaced : (rule.name, words) ∈ spacedKeywords) {line : Text} {found : Recognition}
    (h : rule.recognise line = some found) :
    ∃ gap word mark rest, CutsAt rule words line found gap word mark rest := by
  -- no two rules have the same name
  have hname (name : String) (rule' : Rule)
      (hunique : standard.filter (fun r => decide (r.name = name)) = [rule'])
      (heq : rule.name = name) : rule = rule' := by
    apply List.mem_singleton.1
    rw [← hunique]
    exact List.mem_filter.2 ⟨hrule, decide_eq_true heq⟩
  simp only [spacedKeywords, List.mem_cons, Prod.mk.injEq, List.not_mem_nil, or_false] at hspaced
  rcases hspaced with ⟨heq, rfl⟩ | ⟨heq, rfl⟩ | ⟨heq, rfl⟩ | ⟨heq, rfl⟩ | ⟨heq, rfl⟩
  · obtain rfl := hname "python" code rfl heq
    exact code_cutsAt h
  · obtain rfl := hname "def_block" definition rfl heq
    exact bySpacedWord_cutsAt (by decide) h
  · obtain rfl := hname "mako_one_liners" directive rfl heq
    exact bySpacedWord_cutsAt (by decide) h
  · obtain rfl := hname "mako_text" shielded rfl heq
    exact bySpacedWord_cutsAt (by decide) h
  · obtain rfl := hname "call" call rfl heq
    exact bySpacedWord_cutsAt (by decide) h

/-- Behind a dash, a rule that does not recognise a line does not recognise the start of it. -/
theorem recognise_eq_none_of_append {rule : Rule} (hrule : rule ∈ standard) {t u : Text}
    (h : rule.recognise ('-' :: (t ++ u)) = none) : rule.recognise ('-' :: t) = none := by
  rcases (Profile.mem_rules_mako id rule).1 hrule with hmark | rfl | hword
  · have hdash : startsText ('-' :: t) = false := rfl
    exact (markRules_eq_none_iff '-' t).2 ⟨by decide, hdash⟩ rule hmark
  · rw [fencedCode_eq_none_iff] at h ⊢
    exact fun hfence => h (hfence.trans (List.prefix_append ('-' :: t) u))
  · obtain ⟨entry, hentry, rfl⟩ := List.mem_map.1 hword
    have hgoes := wordRules_goByWord entry hentry
    rw [hgoes] at h ⊢
    rintro ⟨w, hw, gap, rest, hgap, hline⟩
    cases hline
    refine h ⟨w, hw, gap, rest ++ u, hgap, ?_⟩
    simp only [List.append_assoc]

end Rule

namespace Profile

/-- A rule with a spaced keyword has looked at the whole of a line exactly if a blank or nothing
follows the keyword. Otherwise the line is seen as if it ended at the keyword. -/
theorem matched_eq_line_iff {markdown : Transpiler} {line : Text} (hline : '\n' ∉ line)
    {rule : Rule} {found : Recognition}
    (h : (mako markdown).lookUp line = some (rule, found)) {words : List String}
    (hspaced : (rule.name, words) ∈ spacedKeywords) :
    ∃ gap word mark rest : Text, (∀ c ∈ gap, isBlank c = true) ∧ word ∈ words.map String.toList ∧
      (mark = [] ∨ rule.name = "python" ∧ mark = ['!']) ∧
      line = '-' :: (gap ++ (word ++ (mark ++ rest))) ∧
      (found.matched = line ↔ ∀ c, rest.head? = some c → isBlank c = true) ∧
      (found.matched ≠ line → found.matched = '-' :: (gap ++ (word ++ mark)) ∧
        (mako markdown).lookUp found.matched = some (rule, found)) := by
  obtain ⟨hrecognise, -⟩ := recognise_of_lookUp h
  have hrule : rule ∈ Rule.standard := by
    obtain ⟨rule', hmem, hfound⟩ := List.exists_of_findSome?_eq_some h
    obtain ⟨found', -, heq⟩ := Option.map_eq_some_iff.1 hfound
    cases heq
    exact hmem
  obtain ⟨gap, word, mark, rest, hcut⟩ := Rule.exists_cutsAt hrule hspaced hrecognise
  have hrest : '\n' ∉ rest := by
    intro hmem
    apply hline
    rw [hcut.line_eq]
    simp [hmem]
  have hwhole : found.matched = line ↔ ∀ c, rest.head? = some c → isBlank c = true := by
    rw [← Rule.spacedRest_eq_self_iff hrest, hcut.matched_eq, hcut.line_eq]
    simp only [List.cons.injEq, List.append_cancel_left_eq, true_and]
  refine ⟨gap, word, mark, rest, hcut.gap_blank, hcut.word_mem, hcut.mark_eq, hcut.line_eq, hwhole,
    fun hpart => ?_⟩
  have hnone : Rule.spacedRest rest = [] := by
    apply Rule.spacedRest_eq_nil
    cases rest with
    | nil => exact absurd (hwhole.2 (by simp)) hpart
    | cons c t =>
      refine ⟨c, rfl, ?_⟩
      cases hc : isBlank c with
      | false => rfl
      | true => exact absurd (hwhole.2 (by simp [hc])) hpart
  have hmatched : found.matched = '-' :: (gap ++ (word ++ mark)) := by
    rw [hcut.matched_eq, hnone, List.append_nil]
  refine ⟨hmatched, ?_⟩
  rw [hmatched]
  apply lookUp_of_lookUp h
  · intro rule' hrule' hnone'
    apply Rule.recognise_eq_none_of_append (u := rest) hrule'
    rw [hcut.line_eq] at hnone'
    simpa only [List.append_assoc] using hnone'
  · exact hcut.unseen hnone

/-- A keyword with a mark that goes on into a word: the word is dropped. -/
theorem matched_eq_line_iff_python :
    '\n' ∉ "- python!os x".toList ∧ ("python", ["python", "py"]) ∈ spacedKeywords ∧
      ∃ rule found, (mako id).lookUp "- python!os x".toList = some (rule, found) ∧
        rule.name = "python" ∧ found.matched = "- python!".toList ∧
        (mako id).lookUp "- python!".toList = some (rule, found) := by
  have hline : '\n' ∉ "- python!os x".toList := by decide
  have hspaced : ("python", ["python", "py"]) ∈ spacedKeywords := by decide
  have hseen : ((mako id).lookUp "- python!os x".toList).map (fun r => (r.1.name, r.2.matched)) =
      some ("python", "- python!".toList) := by decide +kernel
  obtain ⟨⟨rule, found⟩, hfound, heq⟩ := Option.map_eq_some_iff.1 hseen
  simp only [Prod.mk.injEq] at heq
  obtain ⟨hname, hmatched⟩ := heq
  rw [← hname] at hspaced
  obtain ⟨gap, word, mark, rest, -, -, -, -, -, hcut⟩ := matched_eq_line_iff hline hfound hspaced
  rw [hmatched] at hcut
  exact ⟨hline, hname ▸ hspaced, rule, found, hfound, hname, hmatched, (hcut (by decide)).2⟩

/-- A word that only starts like a keyword is taken for it, and the text behind is lost. -/
theorem definition_drops_text :
    '\n' ∉ "-define x".toList ∧
      ((mako id).lookUp "-define x".toList).map (fun r => (r.1.name, r.2.matched, r.2.parts)) =
        some ("def_block", "-def".toList, [("line", some "def".toList)]) ∧
      "-def".toList ≠ "-define x".toList ∧
      (mako id).compile {} "-define x\n  p y\n".toList =
        (mako id).compile {} "-def\n  p y\n".toList := by
  refine ⟨by decide, ?_, by decide, ?_⟩
  · decide +kernel
  · decide +kernel

end Profile

end TerseMarkup
