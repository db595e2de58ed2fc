import TerseMarkup.Headline.Opening
import TerseMarkup.Proofs.Length
import TerseMarkup.Proofs.Passes
import TerseMarkup.Proofs.Rule

/-!
# Lines that nothing goes on

A line that ends in a backslash goes on with the next line, and so it matters to it whether there is
a next line. `Text.Tidy` says of a text that no backslash ends it, trailing blanks aside, and that
it is one line. The texts that are read on are ends of lines, and ends of tidy texts are tidy
(`Text.Tidy.of_suffix`); what an expression over tidy lines reads as is tidy too
(`expression_tidy`), and so is what follows its colon.

Literals and bracket groups need less: over texts of one line (`Text.OneLine`) they have no line
feed in them (`atom_enclosed`).
-/

namespace TerseMarkup

namespace Text

/-- A line feed can only be the last character of the text. -/
def OneLine (t : Text) : Prop :=
  ∀ front back, t = front ++ '\n' :: back → back = []

/-- A piece of one line is one line. -/
theorem OneLine.of_isInfix {t u : Text} (hu : u <:+: t) (h : OneLine t) : OneLine u := by
  obtain ⟨before, after, rfl⟩ := hu
  intro front back heq
  have hnil := h (before ++ front) (back ++ after) (by rw [heq]; simp)
  exact (List.append_eq_nil_iff.1 hnil).1

/-- A text is one line if a line feed stands nowhere but at its end. -/
theorem oneLine_iff {t : Text} : t.OneLine ↔ '\n' ∉ t.dropLast := by
  rcases List.eq_nil_or_concat t with rfl | ⟨u, c, rfl⟩
  · simp [OneLine]
  · rw [List.concat_eq_append, List.dropLast_concat]
    constructor
    · intro h hmem
      obtain ⟨front, back, rfl⟩ := List.append_of_mem hmem
      have hnil := h front (back ++ [c]) (by simp)
      simp at hnil
    · intro h front back heq
      rcases List.eq_nil_or_concat back with rfl | ⟨back, d, rfl⟩
      · rfl
      · rw [List.concat_eq_append, ← List.cons_append, ← List.append_assoc] at heq
        have hu := congrArg List.dropLast heq
        rw [List.dropLast_concat, List.dropLast_concat] at hu
        exact absurd (by rw [hu]; simp) h

instance decidableOneLine (t : Text) : Decidable t.OneLine :=
  decidable_of_iff _ oneLine_iff.symm

/-- A text of one line that does not end in a backslash. -/
structure Tidy (t : Text) : Prop where
  /-- A line feed can only be the last character. -/
  oneLine : ∀ front back, t = front ++ '\n' :: back → back = []
  /-- Something other than blanks follows every backslash. -/
  noBreak : ∀ front back, t = front ++ '\\' :: back → ∃ c ∈ back, isBlank c = false

/-- The empty text is tidy. -/
theorem tidy_nil : Tidy [] :=
  ⟨fun front back h => by simp at h, fun front back h => by simp at h⟩

/-- The end of a tidy text is tidy. -/
theorem Tidy.of_suffix {t u : Text} (hs : u <:+ t) (h : Tidy t) : Tidy u := by
  obtain ⟨lead, rfl⟩ := hs
  constructor
  · intro front back heq
    refine h.oneLine (lead ++ front) back ?_
    rw [heq, List.append_assoc]
  · intro front back heq
    refine h.noBreak (lead ++ front) back ?_
    rw [heq, List.append_assoc]

/-- A tidy text is not a backslash that goes on in the next line. -/
theorem Tidy.not_isBreak {t : Text} (h : Tidy t) : isBreak t = false := by
  cases t with
  | nil => rfl
  | cons c t =>
    by_cases hc : c = '\\'
    · subst hc
      obtain ⟨b, hb, hblank⟩ := h.noBreak [] t rfl
      have hall : t.all isBlank = false := List.all_eq_false.2 ⟨b, hb, by simp [hblank]⟩
      simp [isBreak, hall]
    · simp [isBreak, hc]

/-- Blanks may be dropped off the end. -/
theorem Tidy.of_append_blank {t u : Text} (h : Tidy (t ++ u)) (hu : u.all isBlank = true) :
    Tidy t := by
  constructor
  · intro front back heq
    have := h.oneLine front (back ++ u) (by rw [heq]; simp)
    exact (List.append_eq_nil_iff.1 this).1
  · intro front back heq
    obtain ⟨c, hc, hblank⟩ := h.noBreak front (back ++ u) (by rw [heq]; simp)
    rcases List.mem_append.1 hc with hc | hc
    · exact ⟨c, hc, hblank⟩
    · rw [List.all_eq_true.1 hu c hc] at hblank
      cases hblank

/-! ## Trimming and cutting -/

/-- Behind a trimmed text there were blanks only. -/
theorem exists_trimEnd_append (t : Text) : ∃ u, t = t.trimEnd ++ u ∧ u.all isBlank = true := by
  refine ⟨(t.reverse.takeWhile isBlank).reverse, ?_, ?_⟩
  · unfold trimEnd
    rw [← List.reverse_append, List.takeWhile_append_dropWhile, List.reverse_reverse]
  · rw [List.all_reverse]
    exact List.all_takeWhile

/-- A trimmed text does not end in a blank. -/
theorem isBlank_getLast?_trimEnd {t : Text} {c : Char} (h : t.trimEnd.getLast? = some c) :
    isBlank c = false := by
  have hhead := List.head?_dropWhile_not isBlank t.reverse
  unfold trimEnd at h
  rw [List.getLast?_reverse] at h
  rw [h] at hhead
  exact hhead

/-- A tidy text is tidy when it is trimmed at its end. -/
theorem Tidy.trimEnd {t : Text} (h : Tidy t) : Tidy t.trimEnd := by
  obtain ⟨u, hu, hblank⟩ := exists_trimEnd_append t
  rw [hu] at h
  exact h.of_append_blank hblank

/-- A tidy text is tidy when it is trimmed. -/
theorem Tidy.trim {t : Text} (h : Tidy t) : Tidy t.trim :=
  (h.of_suffix (trimStart_suffix t)).trimEnd

/-- Trimming at the end leaves the front of a text. -/
theorem trimEnd_isPrefix (t : Text) : t.trimEnd <+: t := by
  obtain ⟨u, hu, -⟩ := exists_trimEnd_append t
  exact ⟨u, hu.symm⟩

/-- Trimming leaves a piece of a text. -/
theorem trim_isInfix (t : Text) : t.trim <:+: t :=
  (trimEnd_isPrefix t.trimStart).isInfix.trans (trimStart_suffix t).isInfix

/-- The line feed of a line is trimmed at its end. -/
theorem OneLine.feed_not_mem_trimEnd {t : Text} (h : OneLine t) : '\n' ∉ t.trimEnd := by
  intro hmem
  obtain ⟨front, back, heq⟩ := List.append_of_mem hmem
  have hback := h.of_isInfix (trimEnd_isPrefix t).isInfix front back heq
  subst hback
  have hlast : t.trimEnd.getLast? = some '\n' := by simp [heq]
  exact absurd (isBlank_getLast?_trimEnd hlast) (by decide)

/-- So it is not in the trimmed line. -/
theorem OneLine.feed_not_mem_trim {t : Text} (h : OneLine t) : '\n' ∉ t.trim :=
  (h.of_isInfix (trimStart_suffix t).isInfix).feed_not_mem_trimEnd

/-- There are no line feeds in a tidy text that is trimmed. -/
theorem Tidy.newline_not_mem_trim {t : Text} (h : Tidy t) : '\n' ∉ t.trim :=
  OneLine.feed_not_mem_trim h.oneLine

/-- A tidy text without line feeds may get one at its end. -/
theorem Tidy.append_newline {t : Text} (h : Tidy t) (hnl : '\n' ∉ t) : Tidy (t ++ ['\n']) := by
  constructor
  · intro front back heq
    rcases List.eq_nil_or_concat back with rfl | ⟨back', c, rfl⟩
    · rfl
    · rw [List.concat_eq_append, ← List.cons_append, ← List.append_assoc] at heq
      obtain ⟨rfl, -⟩ := List.append_inj' heq rfl
      exact absurd (List.mem_append_right front List.mem_cons_self) hnl
  · intro front back heq
    rcases List.eq_nil_or_concat back with rfl | ⟨back', c, rfl⟩
    · obtain ⟨-, hc⟩ := List.append_inj' heq rfl
      cases hc
    · rw [List.concat_eq_append, ← List.cons_append, ← List.append_assoc] at heq
      obtain ⟨rfl, -⟩ := List.append_inj' heq rfl
      obtain ⟨b, hb, hblank⟩ := h.noBreak front back' rfl
      refine ⟨b, ?_, hblank⟩
      rw [List.concat_eq_append]
      exact List.mem_append_left _ hb

/-- The first line of a tidy text is the text up to blanks. -/
theorem Tidy.exists_firstLine_append {t : Text} (h : Tidy t) :
    ∃ u, t = t.firstLine ++ u ∧ u.all isBlank = true := by
  refine ⟨t.dropWhile (· != '\n'), List.takeWhile_append_dropWhile.symm, ?_⟩
  have hcut : t.firstLine ++ t.dropWhile (· != '\n') = t := List.takeWhile_append_dropWhile
  cases hd : t.dropWhile (· != '\n') with
  | nil => rfl
  | cons c back =>
    have hc : c = '\n' := by
      have hhead := List.head?_dropWhile_not (· != '\n') t
      rw [hd] at hhead
      simpa using hhead
    subst hc
    rw [hd] at hcut
    rw [h.oneLine _ back hcut.symm]
    decide

/-- The first line of a tidy text is tidy. -/
theorem Tidy.firstLine {t : Text} (h : Tidy t) : Tidy t.firstLine := by
  obtain ⟨u, hu, hblank⟩ := h.exists_firstLine_append
  rw [hu] at h
  exact h.of_append_blank hblank

/-- A tidy line is tidy without its terminator. -/
theorem Tidy.dropTerminator {t : Text} (h : Tidy t) : Tidy t.dropTerminator := by
  have hlast {u : Text} {c : Char} (hu : u.getLast? = some c) : u = u.dropLast ++ [c] := by
    obtain ⟨u', rfl⟩ := List.getLast?_eq_some_iff.1 hu
    rw [List.dropLast_concat]
  unfold Text.dropTerminator
  split
  · rename_i hn
    rw [hlast hn] at h
    have hdropped := h.of_append_blank (by decide)
    split
    · rename_i hr
      rw [hlast hr] at hdropped
      exact hdropped.of_append_blank (by decide)
    · exact hdropped
  · exact h

/-- The body of a tidy line is tidy. -/
theorem Tidy.ofRaw {raw : Text} (h : Tidy raw) : Tidy (Line.ofRaw raw).body := by
  unfold Line.ofRaw
  simp only
  split
  · exact tidy_nil
  · exact (h.of_suffix (trimStart_suffix raw)).dropTerminator

/-! ## Lines of a text -/

/-- The lines of a text are single lines. -/
theorem oneLine_of_mem_lines {t raw : Text} (h : raw ∈ t.lines) : OneLine raw := by
  induction t generalizing raw with
  | nil => simp [lines] at h
  | cons c t ih =>
    intro front back heq
    unfold lines at h
    split at h
    · rename_i hc
      subst hc
      rcases List.mem_cons.1 h with rfl | h
      · cases front with
        | nil =>
          cases heq
          rfl
        | cons a front => simp at heq
      · exact ih h front back heq
    · rename_i hc
      split at h
      · rw [List.mem_singleton] at h
        subst h
        cases front with
        | nil =>
          cases heq
          exact absurd rfl hc
        | cons a front => simp at heq
      · rename_i line rest hl
        rcases List.mem_cons.1 h with rfl | h
        · cases front with
          | nil =>
            cases heq
            exact absurd rfl hc
          | cons a front =>
            rw [List.cons_append, List.cons.injEq] at heq
            exact ih (hl ▸ List.mem_cons_self) front back heq.2
        · exact ih (hl ▸ List.mem_cons_of_mem line h) front back heq

/-- A line of a text is tidy unless it ends in a backslash, trailing blanks aside. -/
theorem tidy_of_mem_lines {t raw : Text} (h : raw ∈ t.lines)
    (hlast : raw.trimEnd.getLast? ≠ some '\\') : Tidy raw := by
  refine ⟨oneLine_of_mem_lines h, fun front back heq => ?_⟩
  refine Classical.byContradiction fun hnone => hlast ?_
  have hblank : ∀ c ∈ back.reverse, isBlank c = true := by
    intro c hc
    cases hb : isBlank c with
    | true => rfl
    | false => exact absurd ⟨c, List.mem_reverse.1 hc, hb⟩ hnone
  unfold Text.trimEnd
  rw [List.getLast?_reverse, heq, List.reverse_append, List.reverse_cons, List.append_assoc,
    List.dropWhile_append_of_pos hblank]
  rfl

/-! ## String literals and groups -/

/-- A text that a mark opens and a mark closes, on one line. -/
structure Enclosed (t : Text) : Prop where
  /-- It starts with something other than a blank. -/
  opens : ∃ c, t.head? = some c ∧ isBlank c = false
  /-- It ends with something other than a blank or a backslash. -/
  closes : ∃ c, t.getLast? = some c ∧ isBlank c = false ∧ c ≠ '\\'
  /-- It holds no line feed. -/
  oneLine : '\n' ∉ t

/-- A literal ends with its closing quote. -/
theorem getLast?_closing? {mark t body rest : Text} (h : closing? mark t = some (body, rest))
    (hne : mark ≠ []) : body.getLast? = mark.getLast? := by
  have hor {a b : Option Char} (hb : b = mark.getLast?) : b.or a = mark.getLast? := by
    rw [hb, Option.or_of_isSome]
    simpa using hne
  fun_induction closing? mark t generalizing body rest with
  | case1 => cases h
  | case2 => cases h
  | case3 e t' ih =>
    obtain ⟨⟨b, r⟩, hb, hp⟩ := Option.map_eq_some_iff.1 h
    cases hp
    show ([_, e] ++ b).getLast? = _
    rw [List.getLast?_append]
    exact hor (ih hb)
  | case4 c t hc rest' hr =>
    cases h
    rfl
  | case5 c t hc hr ih =>
    obtain ⟨⟨b, r⟩, hb, hp⟩ := Option.map_eq_some_iff.1 h
    cases hp
    show ([c] ++ b).getLast? = _
    rw [List.getLast?_append]
    exact hor (ih hb)

/-- A literal starts and ends with the same quote. -/
theorem exists_mark_of_quoted? {t q rest : Text} (h : quoted? t = some (q, rest)) :
    ∃ mark ∈ quoteMarks, q.head? = mark.head? ∧ q.getLast? = mark.getLast? := by
  unfold quoted? at h
  split at h
  · cases h
  · rename_i mark hm
    obtain ⟨⟨body, r⟩, hb, hp⟩ := Option.map_eq_some_iff.1 h
    cases hp
    have hmem := List.mem_of_find?_eq_some hm
    have hne : mark ≠ [] := by
      rintro rfl
      revert hmem
      decide
    refine ⟨mark, hmem, ?_, ?_⟩
    · rw [List.head?_append, Option.or_of_isSome]
      simpa using hne
    · rw [List.getLast?_append, getLast?_closing? hb hne, Option.or_of_isSome]
      simpa using hne

/-- A string literal on one line is enclosed. -/
theorem enclosed_of_quoted? {t q rest : Text} (h : quoted? t = some (q, rest))
    (ht : OneLine t) : Enclosed q := by
  obtain ⟨mark, hmem, hhead, hlast⟩ := exists_mark_of_quoted? h
  simp only [quoteMarks, List.mem_cons, List.not_mem_nil, or_false] at hmem
  have hopens : ∃ c, q.head? = some c ∧ isBlank c = false := by
    rw [hhead]
    rcases hmem with rfl | rfl | rfl | rfl <;> exact ⟨_, rfl, by decide⟩
  have hcloses : ∃ c, q.getLast? = some c ∧ isBlank c = false ∧ c ≠ '\\' := by
    rw [hlast]
    rcases hmem with rfl | rfl | rfl | rfl <;> exact ⟨_, rfl, by decide, by decide⟩
  refine ⟨hopens, hcloses, fun hnl => ?_⟩
  -- A line feed would end the text, and with it the literal, but that ends in a quote.
  obtain ⟨front, back, hq⟩ := List.append_of_mem hnl
  have hback := ht front (back ++ rest) (by rw [eq_append_of_quoted? h, hq]; simp)
  obtain ⟨rfl, -⟩ := List.append_eq_nil_iff.1 hback
  obtain ⟨c, hc, hblank, -⟩ := hcloses
  rw [hq, List.getLast?_append] at hc
  cases hc
  exact absurd hblank (by decide)

end Text

/-- A mark of a bracket group is a single bracket. -/
theorem Nesting.exists_bracket_of_mark? {t m rest : Text} {turn : Turn}
    (h : brackets.mark? t = some (turn, m, rest)) :
    ∃ c, m = [c] ∧ isBlank c = false ∧ c ≠ '\\' ∧ c ≠ '\n' := by
  unfold mark? at h
  cases t with
  | nil => cases h
  | cons c t =>
    simp only at h
    split at h
    · rename_i hc
      cases h
      rcases hc with rfl | rfl | rfl <;> exact ⟨_, rfl, by decide, by decide, by decide⟩
    · split at h
      · rename_i hc
        cases h
        rcases hc with rfl | rfl | rfl <;> exact ⟨_, rfl, by decide, by decide, by decide⟩
      · cases h

/-- A bracket group that is read over lines has no line feed in it and ends in a bracket. -/
theorem Nesting.close_brackets {depth : Nat} {read tail g rest : Text} {cur cur' : Cursor}
    (h : brackets.close depth read tail cur = (.ok (g, rest), cur')) (hread : '\n' ∉ read)
    (htail : tail.OneLine) (hahead : ∀ raw ∈ cur.ahead, raw.OneLine) :
    '\n' ∉ g ∧ ∃ c, g.getLast? = some c ∧ isBlank c = false ∧ c ≠ '\\' := by
  have happend {read m : Text} (hread : '\n' ∉ read) (hm : '\n' ∉ m) : '\n' ∉ read ++ m := by
    rw [List.mem_append]
    exact fun h => h.elim hread hm
  fun_induction Nesting.brackets.close depth read tail cur with
  | case1 depth read tail cur mark r hm ih =>
    obtain ⟨c, rfl, -, -, hnl⟩ := exists_bracket_of_mark? hm
    refine ih h (happend hread ?_) (htail.of_isInfix (suffix_of_mark? hm).isInfix) hahead
    exact fun hmem => hnl (List.mem_singleton.1 hmem).symm
  | case2 depth read tail cur mark r hm hd =>
    obtain ⟨c, rfl, hblank, hslash, hnl⟩ := exists_bracket_of_mark? hm
    cases h
    refine ⟨happend hread fun hmem => hnl (List.mem_singleton.1 hmem).symm, c, ?_, hblank, hslash⟩
    rw [List.getLast?_append]
    rfl
  | case3 depth read tail cur mark r hm hd ih =>
    obtain ⟨c, rfl, -, -, hnl⟩ := exists_bracket_of_mark? hm
    refine ih h (happend hread ?_) (htail.of_isInfix (suffix_of_mark? hm).isInfix) hahead
    exact fun hmem => hnl (List.mem_singleton.1 hmem).symm
  | case4 => cases h
  | case5 depth read tail cur hm hend raw cur₁ hn ih =>
    have hraw : raw ∈ cur.ahead := by
      rw [(Cursor.pulled_of_next? hn).ahead]
      exact List.mem_append_left _ (List.mem_singleton_self raw)
    have hstart := (hahead raw hraw).of_isInfix (Text.trimStart_suffix raw).isInfix
    refine ih h hread hstart fun r hr => ?_
    exact hahead r ((Cursor.reaches_of_next? hn).mem_ahead hr)
  | case6 depth read tail cur hm hend literal r hq ih =>
    have hliteral := Text.enclosed_of_quoted? hq htail
    have hr := htail.of_isInfix (Text.suffix_of_quoted? hq).isInfix
    exact ih h (happend hread hliteral.oneLine) hr hahead
  | case7 => cases h
  | case8 depth read cur c r hm hq hend ih =>
    refine ih h (happend hread ?_) (htail.of_isInfix (List.suffix_cons c r).isInfix) hahead
    intro hmem
    have hc := List.mem_singleton.1 hmem
    subst hc
    exact hend rfl

/-- A bracket opens a bracket group. -/
theorem Nesting.exists_bracket_of_opening? {t start rest : Text} {depth : Nat}
    (h : brackets.opening? t = some (start, rest, depth)) :
    ∃ c, start = [c] ∧ isBlank c = false ∧ c ≠ '\n' := by
  cases t with
  | nil => cases h
  | cons c t =>
    simp only [opening?] at h
    split at h
    · rename_i hc
      cases h
      rcases hc with rfl | rfl | rfl <;> exact ⟨_, rfl, by decide, by decide⟩
    · cases h

/-- The text read off `read ++ tail` starts as `read` does. -/
theorem Nesting.prefix_of_close {n : Nesting} {depth : Nat} {read tail g rest : Text}
    {cur cur' : Cursor} (h : n.close depth read tail cur = (.ok (g, rest), cur')) : read <+: g := by
  fun_induction n.close depth read tail cur with
  | case1 depth read tail cur mark r hm ih => exact (List.prefix_append _ _).trans (ih h)
  | case2 depth read tail cur mark r hm hd =>
    cases h
    exact List.prefix_append _ _
  | case3 depth read tail cur mark r hm hd ih => exact (List.prefix_append _ _).trans (ih h)
  | case4 => cases h
  | case5 depth read tail cur hm hend raw cur₁ hn ih => exact ih h
  | case6 depth read tail cur hm hend literal r hq ih => exact (List.prefix_append _ _).trans (ih h)
  | case7 => cases h
  | case8 depth read cur c r hm hend hq ih => exact (List.prefix_append _ _).trans (ih h)

/-- A group in brackets starts and ends with a bracket, and is one line if it is read from single
lines. -/
theorem Nesting.enclosed_of_group? {t g rest : Text} {cur cur' : Cursor}
    (h : brackets.group? t cur = (.ok (some (g, rest)), cur')) (ht : t.OneLine)
    (hahead : ∀ raw ∈ cur.ahead, raw.OneLine) : g.Enclosed := by
  unfold group? at h
  split at h
  · cases h
  · rename_i start after depth ho
    split at h
    · rename_i found cur₁ hc
      cases h
      obtain ⟨c, rfl, hblank, hnl⟩ := exists_bracket_of_opening? ho
      have hstart : '\n' ∉ [c] := fun hmem => hnl (List.mem_singleton.1 hmem).symm
      have hsuffix : after <:+ t := ⟨[c], (eq_append_of_opening? ho).symm⟩
      have hafter := ht.of_isInfix hsuffix.isInfix
      obtain ⟨hline, hlast⟩ := close_brackets hc hstart hafter hahead
      obtain ⟨u, rfl⟩ := prefix_of_close hc
      exact ⟨⟨c, rfl, hblank⟩, hlast, hline⟩
    · cases h

/-! ## Expressions -/

/-- An atom of an expression is a single character or enclosed. -/
theorem atom_enclosed {c : Char} {t a rest : Text} {cur cur' : Cursor}
    (h : atom none c t cur = (.ok (a, rest), cur')) (ht : Text.OneLine (c :: t))
    (hahead : ∀ raw ∈ cur.ahead, raw.OneLine) : a = [c] ∧ rest = t ∨ a.Enclosed := by
  rcases atom_cases h with hg | ⟨-, ⟨hq, -⟩ | ⟨-, hg | ⟨-, ha, hrest, -⟩⟩⟩
  · cases hg
  · exact .inr (Text.enclosed_of_quoted? hq ht)
  · exact .inr (Nesting.enclosed_of_group? hg ht hahead)
  · exact .inl ⟨ha, hrest⟩

/-- Every occurrence of a character in `a ++ more` lies in one of the two parts. -/
theorem append_eq_append_cons {a more front back : Text} {c : Char}
    (h : a ++ more = front ++ c :: back) :
    (∃ front', more = front' ++ c :: back) ∨ ∃ mid, a = front ++ c :: mid ∧ back = mid ++ more := by
  rcases List.append_eq_append_iff.1 h with ⟨front', -, hmore⟩ | ⟨mid, ha, hback⟩
  · exact .inl ⟨front', hmore⟩
  · cases mid with
    | nil => exact .inl ⟨[], hback.symm⟩
    | cons b mid =>
      rw [List.cons_append, List.cons.injEq] at hback
      obtain ⟨rfl, rfl⟩ := hback
      exact .inr ⟨mid, ha, rfl⟩

/-- An enclosed text may stand in front of a tidy one. -/
theorem Text.Enclosed.append_tidy {a more : Text} (ha : a.Enclosed) (hmore : more.Tidy) :
    Text.Tidy (a ++ more) := by
  constructor
  · intro front back heq
    rcases append_eq_append_cons heq with ⟨front', hm⟩ | ⟨mid, hin, -⟩
    · exact hmore.oneLine front' back hm
    · exact absurd (hin ▸ List.mem_append_right front List.mem_cons_self) ha.oneLine
  · intro front back heq
    rcases append_eq_append_cons heq with ⟨front', hm⟩ | ⟨mid, hin, rfl⟩
    · exact hmore.noBreak front' back hm
    · obtain ⟨z, hz, hblank, hslash⟩ := ha.closes
      rw [hin, List.getLast?_append] at hz
      cases mid with
      | nil =>
        cases hz
        exact absurd rfl hslash
      | cons b mid =>
        rw [List.getLast?_cons_cons] at hz
        refine ⟨z, List.mem_append_left _ (List.mem_of_getLast? ?_), hblank⟩
        rwa [Option.or_of_isSome (by simp)] at hz

/-- The first character of a tidy text may stand in front of what the rest is read as. -/
theorem Text.Tidy.cons_of_rest {c : Char} {t more : Text} (h : Text.Tidy (c :: t))
    (hmore : more.Tidy) (hnil : t = [] → more = [])
    (hnonblank : (∃ b ∈ t, isBlank b = false) → ∃ b ∈ more, isBlank b = false) :
    Text.Tidy (c :: more) := by
  constructor
  · intro front back heq
    cases front with
    | nil =>
      rw [List.nil_append, List.cons.injEq] at heq
      obtain ⟨rfl, rfl⟩ := heq
      exact hnil (h.oneLine [] t rfl)
    | cons b front =>
      rw [List.cons_append, List.cons.injEq] at heq
      exact hmore.oneLine front back heq.2
  · intro front back heq
    cases front with
    | nil =>
      rw [List.nil_append, List.cons.injEq] at heq
      obtain ⟨rfl, rfl⟩ := heq
      exact hnonblank (h.noBreak [] t rfl)
    | cons b front =>
      rw [List.cons_append, List.cons.injEq] at heq
      exact hmore.noBreak front back heq.2

/-- What is read as an expression over tidy lines is tidy, and more than blanks if the text was. -/
theorem expressionAtoms_tidy {tail read : Text} {cur cur' : Cursor} (htail : tail.Tidy)
    (hahead : ∀ raw ∈ cur.ahead, raw.Tidy)
    (h : expressionAtoms tail cur = (.ok read, cur')) :
    read.Tidy ∧ ((∃ c ∈ tail, isBlank c = false) → ∃ c ∈ read, isBlank c = false) := by
  fun_induction expressionAtoms tail cur generalizing read cur' with
  | case1 tail cur hnil =>
    cases h
    rw [List.isEmpty_iff.1 hnil]
    exact ⟨Text.tidy_nil, fun h => h⟩
  | case2 tail cur hne found cur₁ hs =>
    rw [followBreaks_of_not_isBreak htail.not_isBreak] at hs
    cases hs
    simp at hne
  | case3 => cases h
  | case4 => cases h
  | case5 tail cur hne found c t cur₁ hs a rest cur₂ ha more cur₃ hm ih =>
    rw [followBreaks_of_not_isBreak htail.not_isBreak] at hs
    cases hs
    cases h
    have hleads := atom_leads ha
    have hrest : rest.Tidy := hleads.carries (fun hs ht => ht.of_suffix hs) htail hahead
    have hlater : ∀ raw ∈ cur₂.ahead, raw.Tidy :=
      fun raw hr => hahead raw (hleads.reaches.mem_ahead hr)
    obtain ⟨hmore, hnonblank⟩ := ih hrest hlater hm
    show Text.Tidy (a ++ more) ∧ ((∃ b ∈ c :: t, isBlank b = false) →
      ∃ b ∈ a ++ more, isBlank b = false)
    have hlines : ∀ raw ∈ cur.ahead, raw.OneLine := fun raw hr => (hahead raw hr).oneLine
    rcases atom_enclosed ha htail.oneLine hlines with ⟨rfl, rfl⟩ | hclosed
    · refine ⟨htail.cons_of_rest hmore (fun hnil => ?_) hnonblank, ?_⟩
      · rw [hnil, expressionAtoms] at hm
        cases hm
        rfl
      · rintro ⟨b, hb, hblank⟩
        rcases List.mem_cons.1 hb with rfl | hb
        · exact ⟨b, List.mem_cons_self, hblank⟩
        · obtain ⟨b', hb', hblank'⟩ := hnonblank ⟨b, hb, hblank⟩
          exact ⟨b', List.mem_cons_of_mem c hb', hblank'⟩
    · refine ⟨hclosed.append_tidy hmore, fun _ => ?_⟩
      obtain ⟨b, hb, hblank⟩ := hclosed.opens
      exact ⟨b, List.mem_append_left _ (List.mem_of_head? hb), hblank⟩

/-- An expression over tidy lines is tidy, and has no line feed in it. -/
theorem expression_tidy {t e : Text} {cur cur' : Cursor} (ht : t.Tidy)
    (hahead : ∀ raw ∈ cur.ahead, raw.Tidy) (h : expression t cur = (.ok e, cur')) :
    e.Tidy ∧ '\n' ∉ e := by
  unfold expression at h
  split at h
  · rename_i read cur₁ hr
    cases h
    have hline := ht.trim.append_newline ht.newline_not_mem_trim
    have hread := (expressionAtoms_tidy hline hahead hr).1
    exact ⟨hread.trim, hread.newline_not_mem_trim⟩
  · cases h

/-! ## What follows a colon -/

/-- What follows the stop of a token is tidy. -/
theorem token?_tidy {n : Nesting} {lead : Text} {stops : List Text} {line v rest : Text}
    {cur cur' : Cursor} (hline : line.Tidy) (hahead : ∀ raw ∈ cur.ahead, raw.Tidy)
    (h : token? n lead stops line cur = (.ok (some (v, rest)), cur')) :
    (Text.trimStart (rest.drop 1)).Tidy := by
  have hrest : rest.Tidy := (token?_leads h).carries (fun hs ht => ht.of_suffix hs) hline hahead
  exact hrest.of_suffix ((Text.trimStart_suffix _).trans (List.drop_suffix 1 rest))

/-- What follows the colon of a statement is tidy. -/
theorem splitStatement_tidy {d : Delimiters} {t expr rest : Text} {cur cur' : Cursor}
    (ht : t.Tidy) (hahead : ∀ raw ∈ cur.ahead, raw.Tidy)
    (h : splitStatement d t cur = (.ok (expr, rest), cur')) : rest.Tidy := by
  obtain ⟨e, cur₁, he, h₁⟩ := Scan.bind_eq_ok_iff.1 h
  obtain ⟨found, cur₂, htoken, h₂⟩ := Scan.bind_eq_ok_iff.1 h₁
  cases found with
  | none =>
    cases h₂
    exact Text.tidy_nil
  | some found =>
    cases h₂
    refine token?_tidy (expression_tidy ht hahead he).1 (fun raw hr => ?_) htoken
    exact hahead raw (((forward_expression t).reaches he).mem_ahead hr)

/-- The rest behind a colon is tidy. -/
theorem restAfterColon_tidy {d : Delimiters} {t rest : Text} {cur cur' : Cursor} (ht : t.Tidy)
    (hahead : ∀ raw ∈ cur.ahead, raw.Tidy) (h : restAfterColon d t cur = (.ok rest, cur')) :
    rest.Tidy := by
  obtain ⟨found, cur₁, htoken, h₁⟩ := Scan.bind_eq_ok_iff.1 h
  cases found with
  | none =>
    cases h₁
    exact Text.tidy_nil
  | some found =>
    cases h₁
    exact token?_tidy ht hahead htoken

/-- A condition that was read can be negated and read again: it ends in a bracket then. -/
theorem tidy_negated {e : Text} (hnl : '\n' ∉ e) : Text.Tidy (" not (".toList ++ e ++ [')']) := by
  constructor
  · intro front back heq
    have hmem : '\n' ∈ " not (".toList ++ e ++ [')'] := by
      rw [heq]
      exact List.mem_append_right front List.mem_cons_self
    simp only [List.mem_append, hnl, or_false] at hmem
    exact absurd hmem (by decide)
  · intro front back heq
    rcases List.eq_nil_or_concat back with rfl | ⟨back', c, rfl⟩
    · obtain ⟨-, hc⟩ := List.append_inj' heq rfl
      cases hc
    · rw [List.concat_eq_append, ← List.cons_append, ← List.append_assoc] at heq
      obtain ⟨-, hc⟩ := List.append_inj' heq rfl
      cases hc
      refine ⟨')', ?_, by decide⟩
      rw [List.concat_eq_append]
      exact List.mem_append_right back' List.mem_cons_self

/-- A word of the template engine with what follows it on its line. -/
theorem tidy_spacedRest {word rest : Text} (hword : word ∈ taggedWords.map String.toList)
    (h : Text.Tidy (word ++ rest)) : Text.Tidy (word ++ Rule.spacedRest rest) := by
  have hplain : ∀ word ∈ taggedWords.map String.toList, '\n' ∉ word ∧ '\\' ∉ word := by decide
  unfold Rule.spacedRest
  split
  · rw [List.append_nil]
    constructor
    · intro front back heq
      refine absurd ?_ (hplain word hword).1
      rw [heq]
      exact List.mem_append_right front List.mem_cons_self
    · intro front back heq
      refine absurd ?_ (hplain word hword).2
      rw [heq]
      exact List.mem_append_right front List.mem_cons_self
  · have hcut : rest.takeWhile isBlank ++ rest.dropWhile isBlank = rest :=
      List.takeWhile_append_dropWhile
    rw [← hcut, ← List.append_assoc] at h
    obtain ⟨u, hu, hblank⟩ := (h.of_suffix (List.suffix_append _ _)).exists_firstLine_append
    rw [hu, ← List.append_assoc] at h
    rw [← List.append_assoc]
    exact h.of_append_blank hblank

end TerseMarkup
