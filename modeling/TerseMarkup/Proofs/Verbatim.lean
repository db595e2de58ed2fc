import TerseMarkup.Proofs.InlineContent
import TerseMarkup.Proofs.SpanFault

/-!
# Text written literally

Lines that are to be copied stand below a headline, deeper than it. A block of them is read back as
it was: the indentation goes, and all blanks inside and between the lines stay.

* `LiteralLines`: the texts that can be written so. Their lines have no blanks at the end, and the
  last one is not empty. The first one that is not empty stands at the margin, since the block is
  aligned on it.
* `Text.indentedLines` puts all lines that are not empty behind the same number of spaces.
* `alignLines_shown` is the run over the lines of a block: what is aligned is the lines again, one
  after the other.
* `renderSpans_doubleTicks`: with doubled backticks a text has no embedded markup.
* `Headline.opening_copies_lines`: the block is read back, up to the line that ends it, by each of
  the headlines that copy the lines below them.
-/

namespace TerseMarkup

/-! ## Lines joined and indented -/

namespace Text

/-- The lines with line feeds between them. -/
def joined (T : List Text) : Text :=
  List.intercalate ['\n'] T

/-- The line behind `k` spaces. An empty line stays empty. -/
def behind (k : Nat) (line : Text) : Text :=
  if line = [] then [] else List.replicate k ' ' ++ line

/-- The lines joined, each of them behind `k` spaces. -/
def indentedLines (k : Nat) (T : List Text) : Text :=
  joined (T.map (behind k))

/-- The text with every backtick doubled. -/
def doubleTicks (t : Text) : Text :=
  t.flatMap fun c => if c = '\x60' then [c, c] else [c]

@[simp] theorem joined_singleton (line : Text) : joined [line] = line :=
  List.intercalate_singleton

/-- A line in front of others, with a line feed between them. -/
theorem joined_cons (line : Text) {T : List Text} (hne : T ≠ []) :
    joined (line :: T) = line ++ '\n' :: joined T := by
  unfold joined
  rw [List.intercalate_cons_of_ne_nil hne, List.append_assoc]
  rfl

/-- A line that is not empty gets its spaces. -/
theorem behind_of_ne_nil (k : Nat) {line : Text} (hne : line ≠ []) :
    behind k line = List.replicate k ' ' ++ line :=
  if_neg hne

/-- Spaces put no line feeds into a line. -/
theorem feed_not_mem_behind (k : Nat) {line : Text} (h : '\n' ∉ line) : '\n' ∉ behind k line := by
  unfold behind
  split
  · exact List.not_mem_nil
  · intro hmem
    rcases List.mem_append.1 hmem with hmem | hmem
    · exact absurd (List.eq_of_mem_replicate hmem) (by decide)
    · exact h hmem

end Text

/-- Lines that can be written literally. -/
structure LiteralLines (T : List Text) : Prop where
  nonempty : T ≠ []
  oneLine : ∀ line ∈ T, '\n' ∉ line
  trimmed : ∀ line ∈ T, ∀ c, line.getLast? = some c → isBlank c = false
  last : T.getLast? ≠ some []
  /-- The first line that is not empty stands at the margin. -/
  first : ∀ line, T.find? (!·.isEmpty) = some line → ∀ c, line.head? = some c → isBlank c = false

/-! ## The lines of the source -/

/-- The raw line shows `line` behind `k` spaces, with nothing but blanks at its end. -/
def ShowsLine (k : Nat) (line raw : Text) : Prop :=
  ∃ e, (∀ c ∈ e, isBlank c = true) ∧ raw = Text.behind k line ++ e

/-- Raw lines that show the given lines, one by one. -/
inductive ShowsLines (k : Nat) : List Text → List Text → Prop
  | nil : ShowsLines k [] []
  | cons {line raw : Text} {T raws : List Text} (hraw : ShowsLine k line raw)
      (hraws : ShowsLines k T raws) : ShowsLines k (line :: T) (raw :: raws)

section

variable {k : Nat} {line raw : Text} {T raws : List Text}

/-- Indented lines are shown by the first lines of a text. What follows the last one starts with a
line feed, if there is anything. -/
theorem exists_lines_indentedLines (k : Nat) (hne : T ≠ []) (hline : ∀ line ∈ T, '\n' ∉ line)
    (hlast : T.getLast? ≠ some []) {rest : Text} (hrest : ∀ c, rest.head? = some c → c = '\n') :
    ∃ raws, Text.lines (Text.indentedLines k T ++ rest) = raws ++ Text.lines (rest.drop 1) ∧
      ShowsLines k T raws := by
  induction T with
  | nil => exact absurd rfl hne
  | cons line T ih =>
    obtain ⟨hfeed, hlines⟩ := List.forall_mem_cons.1 hline
    have hfeed' := Text.feed_not_mem_behind k hfeed
    have hshown (e : Text) (he : ∀ c ∈ e, isBlank c = true) :
        ShowsLine k line (Text.behind k line ++ e) := ⟨e, he, rfl⟩
    by_cases hT : T = []
    · subst hT
      have hindented : Text.indentedLines k [line] = Text.behind k line := Text.joined_singleton _
      rw [hindented]
      cases rest with
      | nil =>
        have hline : line ≠ [] := by simpa using hlast
        have hbehind : Text.behind k line ≠ [] := by
          rw [Text.behind_of_ne_nil k hline]
          simp [hline]
        refine ⟨[Text.behind k line ++ []], ?_, .cons (hshown [] (List.forall_mem_nil _)) .nil⟩
        rw [List.append_nil, Text.lines_of_not_mem hfeed' hbehind]
        rfl
      | cons c rest =>
        obtain rfl := hrest c rfl
        refine ⟨[Text.behind k line ++ ['\n']], ?_,
          .cons (hshown ['\n'] (Text.forall_mem_of_all (by decide))) .nil⟩
        exact (congrArg Text.lines (by simp)).trans (Text.lines_append_feed hfeed' rest)
    · have hlast' : T.getLast? ≠ some [] := by
        rwa [List.getLast?_cons_of_ne_nil hT] at hlast
      obtain ⟨raws, hraws, hshows⟩ := ih hT hlines hlast'
      have hindented : Text.indentedLines k (line :: T) ++ rest =
          Text.behind k line ++ ['\n'] ++ (Text.indentedLines k T ++ rest) := by
        unfold Text.indentedLines
        rw [List.map_cons, Text.joined_cons _ (by simpa using hT)]
        simp
      refine ⟨(Text.behind k line ++ ['\n']) :: raws, ?_,
        .cons (hshown ['\n'] (Text.forall_mem_of_all (by decide))) hshows⟩
      rw [hindented, Text.lines_append_feed hfeed', hraws]
      rfl

/-! ## What a raw line shows -/

/-- A line with anything on it is blanks and what starts behind them. -/
theorem Text.exists_blank_append {t : Text} (h : t.trimStart ≠ []) :
    ∃ b c u, t = b ++ c :: u ∧ (∀ x ∈ b, isBlank x = true) ∧ isBlank c = false := by
  obtain ⟨c, u, hcu⟩ := List.exists_cons_of_ne_nil h
  refine ⟨t.takeWhile isBlank, c, u, ?_, fun x hx => List.all_eq_true.1 List.all_takeWhile x hx, ?_⟩
  · rw [← hcu, Text.takeWhile_append_trimStart]
  · apply Text.isBlank_head?_trimStart
    rw [hcu]
    rfl

/-- A line that starts with a character other than a blank has a body. -/
theorem Text.dropTerminator_ne_nil {c : Char} (hc : isBlank c = false) (u : Text) :
    Text.dropTerminator (c :: u) ≠ [] := by
  rcases List.eq_nil_or_concat u with rfl | ⟨u, b, rfl⟩
  · have hfeed : c ≠ '\n' := by
      rintro rfl
      cases hc
    simp [Text.dropTerminator, hfeed]
  · rw [List.concat_eq_append]
    by_cases hb : b = '\n'
    · subst hb
      obtain ⟨t', e, -, -, hcons⟩ := Text.exists_dropTerminator_cons hc u
      exact fun hnil => List.cons_ne_nil c t' (hcons.symm.trans hnil)
    · unfold Text.dropTerminator
      rw [← List.cons_append, List.getLast?_concat, if_neg (by simpa using hb)]
      exact List.cons_ne_nil c _

/-- The lines without a body are the blank ones. -/
theorem Line.body_ofRaw_eq_nil_iff : (Line.ofRaw raw).body = [] ↔ ∀ c ∈ raw, isBlank c = true := by
  rw [← Text.trimStart_eq_nil_iff]
  constructor
  · intro h
    refine Decidable.byContradiction fun hne => ?_
    obtain ⟨b, c, u, rfl, hb, hc⟩ := Text.exists_blank_append hne
    rw [Line.ofRaw_append hb hc] at h
    exact Text.dropTerminator_ne_nil hc u h
  · intro h
    simp [Line.ofRaw, h]

/-- A raw line that shows the empty line is blank. -/
theorem ShowsLine.body_eq_nil (h : ShowsLine k [] raw) : (Line.ofRaw raw).body = [] := by
  obtain ⟨e, he, rfl⟩ := h
  exact Line.body_ofRaw_eq_nil_iff.2 he

/-- A line that is not empty is what its raw line holds behind the spaces. -/
theorem ShowsLine.of_ne_nil (h : ShowsLine k line raw) (hne : line ≠ [])
    (htrim : ∀ c, line.getLast? = some c → isBlank c = false) :
    (Line.ofRaw raw).body ≠ [] ∧ k ≤ (Line.ofRaw raw).indent ∧
      Text.trimEnd (raw.drop k) = line ∧
      ((∀ c, line.head? = some c → isBlank c = false) → (Line.ofRaw raw).indent = k) := by
  obtain ⟨e, he, rfl⟩ := h
  rw [Text.behind_of_ne_nil k hne]
  have htrimmed : Text.trimEnd line = line := Text.trimEnd_eq_self htrim
  have hvisible : Text.trimStart line ≠ [] := by
    intro hblank
    apply hne
    rw [← htrimmed, ← List.nil_append line,
      Text.trimEnd_append_blank [] (Text.trimStart_eq_nil_iff.1 hblank)]
    rfl
  obtain ⟨b, c, u, hline, hb, hc⟩ := Text.exists_blank_append hvisible
  -- The blanks at the front of the line join the spaces.
  have hraw : List.replicate k ' ' ++ line ++ e = (List.replicate k ' ' ++ b) ++ c :: (u ++ e) := by
    rw [hline]
    simp
  have hfront : ∀ x ∈ List.replicate k ' ' ++ b, isBlank x = true := by
    intro x hx
    rcases List.mem_append.1 hx with hx | hx
    · rw [List.eq_of_mem_replicate hx]
      decide
    · exact hb x hx
  have hmeasured := Line.ofRaw_append hfront hc (u ++ e)
  rw [← hraw] at hmeasured
  refine ⟨?_, ?_, ?_, ?_⟩
  · rw [hmeasured]
    exact Text.dropTerminator_ne_nil hc (u ++ e)
  · rw [hmeasured]
    simp
  · rw [List.append_assoc, List.drop_left' (by simp), Text.trimEnd_append_blank line he, htrimmed]
  · intro hhead
    have hnil : b = [] := by
      cases b with
      | nil => rfl
      | cons x b =>
        have hx := hb x List.mem_cons_self
        rw [hhead x (by rw [hline]; rfl)] at hx
        cases hx
    rw [hmeasured, hnil]
    simp

/-- Every line is shown by one raw line. -/
theorem ShowsLines.length_eq (h : ShowsLines k T raws) : raws.length = T.length := by
  induction h with
  | nil => rfl
  | cons hraw hraws ih => rw [List.length_cons, List.length_cons, ih]

/-! ## The block -/

/-- Raw lines that show lines behind `k` spaces are deeper than a headline with a smaller
indentation, unless they are blank. -/
theorem ShowsLines.deep {level : Nat} (hk : level < k) (h : ShowsLines k T raws)
    (htrim : ∀ line ∈ T, ∀ c, line.getLast? = some c → isBlank c = false) :
    ∀ raw ∈ raws, (Line.ofRaw raw).body ≠ [] → level < (Line.ofRaw raw).indent := by
  induction h with
  | nil => exact List.forall_mem_nil _
  | @cons line raw T raws hraw hraws ih =>
    obtain ⟨hline, hlines⟩ := List.forall_mem_cons.1 htrim
    refine List.forall_mem_cons.2 ⟨fun hbody => ?_, ih hlines⟩
    by_cases hne : line = []
    · subst hne
      exact absurd hraw.body_eq_nil hbody
    · exact Nat.lt_of_lt_of_le hk (hraw.of_ne_nil hne hline).2.1

/-- Lines that are blank or deeper are part of the block. -/
theorem blockOver_append_deep {level : Nat}
    (hdeep : ∀ raw ∈ raws, (Line.ofRaw raw).body ≠ [] → level < (Line.ofRaw raw).indent)
    (more : List Text) (n : Nat) :
    blockOver level (raws ++ more) n =
      (raws ++ (blockOver level more (n + raws.length)).1,
        (blockOver level more (n + raws.length)).2) := by
  induction raws generalizing n with
  | nil => rfl
  | cons raw raws ih =>
    obtain ⟨hraw, hraws⟩ := List.forall_mem_cons.1 hdeep
    have hgo : ¬ ((Line.ofRaw raw).body ≠ [] ∧ (Line.ofRaw raw).indent ≤ level) :=
      fun h => Nat.not_le_of_lt (hraw h.1) h.2
    simp only [List.cons_append, blockOver, if_neg hgo, ih hraws, List.length_cons]
    rw [Nat.add_assoc, Nat.add_comm 1]

end

/-- The lines from the first one on that is not blank. -/
def visibleLines (lines : List Text) : List Text :=
  lines.dropWhile fun raw => (Line.ofRaw raw).body.isEmpty

/-- The first line that is not blank, or the line handed back at the end of the template. -/
def Line.firstOf (lines : List Text) : Line :=
  ((visibleLines lines).head?.map Line.ofRaw).getD .none

/-- The position behind the first line that is not blank. -/
def Cursor.pastFirst (cur : Cursor) : Cursor :=
  ⟨(visibleLines cur.ahead).tail,
    cur.number + (cur.ahead.length - (visibleLines cur.ahead).tail.length)⟩

/-- Above a line that is not deeper a block is made of blank lines. -/
theorem blockOver_firstOf {level : Nat} {lines : List Text}
    (h : (Line.firstOf lines).indent ≤ level) (n : Nat) :
    ∃ blanks, (∀ raw ∈ blanks, (Line.ofRaw raw).body = []) ∧
      blockOver level lines n = (blanks, Line.firstOf lines, Cursor.pastFirst ⟨lines, n⟩) := by
  induction lines generalizing n with
  | nil => exact ⟨[], List.forall_mem_nil _, rfl⟩
  | cons raw lines ih =>
    by_cases hbody : (Line.ofRaw raw).body = []
    · have hvisible : visibleLines (raw :: lines) = visibleLines lines :=
        List.dropWhile_cons_of_pos (by simp [hbody])
      have hfirst : Line.firstOf (raw :: lines) = Line.firstOf lines := by
        unfold Line.firstOf
        rw [hvisible]
      have hlen : (visibleLines lines).tail.length ≤ lines.length :=
        ((List.tail_sublist _).trans (List.dropWhile_sublist _)).length_le
      have hpast : Cursor.pastFirst ⟨raw :: lines, n⟩ = Cursor.pastFirst ⟨lines, n + 1⟩ := by
        unfold Cursor.pastFirst
        simp only [hvisible, List.length_cons, Cursor.mk.injEq, true_and]
        omega
      have hgo : ¬ ((Line.ofRaw raw).body ≠ [] ∧ (Line.ofRaw raw).indent ≤ level) :=
        fun h => h.1 hbody
      rw [hfirst] at h
      obtain ⟨blanks, hblank, hblock⟩ := ih h (n + 1)
      refine ⟨raw :: blanks, List.forall_mem_cons.2 ⟨hbody, hblank⟩, ?_⟩
      simp only [blockOver, if_neg hgo, hblock, hfirst, hpast]
    · have hvisible : visibleLines (raw :: lines) = raw :: lines :=
        List.dropWhile_cons_of_neg (by simp [hbody])
      have hfirst : Line.firstOf (raw :: lines) = Line.ofRaw raw := by
        unfold Line.firstOf
        rw [hvisible]
        rfl
      have hpast : Cursor.pastFirst ⟨raw :: lines, n⟩ = ⟨lines, n + 1⟩ := by
        unfold Cursor.pastFirst
        simp [hvisible]
      have hstop : (Line.ofRaw raw).body ≠ [] ∧ (Line.ofRaw raw).indent ≤ level :=
        ⟨hbody, hfirst ▸ h⟩
      refine ⟨[], List.forall_mem_nil _, ?_⟩
      simp only [blockOver, if_pos hstop, hfirst, hpast]

/-! ## Aligning the lines -/

section

variable {k : Nat} {T raws : List Text}

/-- Lines that are all behind the margin are aligned as they were written. -/
theorem alignLines_some_shown (hshows : ShowsLines k T raws)
    (htrim : ∀ line ∈ T, ∀ c, line.getLast? = some c → isBlank c = false) :
    alignLines (some k) raws = T.flatMap (· ++ ['\n']) := by
  induction hshows with
  | nil => rfl
  | @cons line raw T raws hraw hraws ih =>
    obtain ⟨hline, hlines⟩ := List.forall_mem_cons.1 htrim
    rw [List.flatMap_cons, ← ih hlines]
    by_cases hne : line = []
    · subst hne
      simp only [alignLines, hraw.body_eq_nil, List.isEmpty_nil, if_true]
      rfl
    · obtain ⟨hbody, hindent, htext, -⟩ := hraw.of_ne_nil hne hline
      have hmargin : min (Line.ofRaw raw).indent k = k := Nat.min_eq_right hindent
      simp only [alignLines, List.isEmpty_iff, if_neg hbody, Option.map_some, Option.getD_some,
        hmargin, htext, List.append_assoc]
      rfl

/-- The margin is set by the first line that is not empty, and stays. -/
theorem alignLines_shown (hshows : ShowsLines k T raws)
    (htrim : ∀ line ∈ T, ∀ c, line.getLast? = some c → isBlank c = false)
    (hfirst : ∀ line, T.find? (!·.isEmpty) = some line →
      ∀ c, line.head? = some c → isBlank c = false) :
    alignLines none raws = T.flatMap (· ++ ['\n']) := by
  induction hshows with
  | nil => rfl
  | @cons line raw T raws hraw hraws ih =>
    obtain ⟨hline, hlines⟩ := List.forall_mem_cons.1 htrim
    rw [List.flatMap_cons]
    by_cases hne : line = []
    · subst hne
      have hskip : List.find? (!·.isEmpty) ([] :: T) = T.find? (!·.isEmpty) := rfl
      rw [hskip] at hfirst
      simp only [alignLines, hraw.body_eq_nil, List.isEmpty_nil, if_true, ih hlines hfirst]
      rfl
    · have hhead := hfirst line (List.find?_cons_of_pos (by simpa using hne))
      obtain ⟨hbody, -, htext, hindent⟩ := hraw.of_ne_nil hne hline
      simp only [alignLines, List.isEmpty_iff, if_neg hbody, Option.map_none, Option.getD_none,
        hindent hhead, htext, alignLines_some_shown hraws hlines, List.append_assoc]
      rfl

/-- The line feed behind the last line is no part of the text. -/
theorem flatMap_feed_eq_joined (hne : T ≠ []) :
    T.flatMap (· ++ ['\n']) = Text.joined T ++ ['\n'] := by
  induction T with
  | nil => exact absurd rfl hne
  | cons line T ih =>
    by_cases hT : T = []
    · subst hT
      simp
    · rw [List.flatMap_cons, ih hT, Text.joined_cons line hT]
      simp

/-- The joined lines end with the last one. -/
theorem exists_joined_eq (hne : T ≠ []) :
    ∃ front last, T.getLast? = some last ∧ Text.joined T = front ++ last := by
  induction T with
  | nil => exact absurd rfl hne
  | cons line T ih =>
    by_cases hT : T = []
    · subst hT
      exact ⟨[], line, rfl, Text.joined_singleton line⟩
    · obtain ⟨front, last, hlast, heq⟩ := ih hT
      refine ⟨line ++ '\n' :: front, last, ?_, ?_⟩
      · rw [List.getLast?_cons_of_ne_nil hT, hlast]
      · rw [Text.joined_cons line hT, heq]
        simp

/-- Lines that can be written literally are not all empty. -/
theorem LiteralLines.joined_ne_nil (h : LiteralLines T) : Text.joined T ≠ [] := by
  obtain ⟨front, last, hlast, heq⟩ := exists_joined_eq h.nonempty
  have hne : last ≠ [] := fun hnil => h.last (hnil ▸ hlast)
  rw [heq]
  exact List.append_ne_nil_of_right_ne_nil front hne

/-- There is nothing to trim at their end. -/
theorem LiteralLines.trimEnd_joined (h : LiteralLines T) :
    (Text.joined T).trimEnd = Text.joined T := by
  obtain ⟨front, last, hlast, heq⟩ := exists_joined_eq h.nonempty
  have htrimmed : Text.trimEnd last = last :=
    Text.trimEnd_eq_self (h.trimmed last (List.mem_of_getLast? hlast))
  have hne : last ≠ [] := fun hnil => h.last (hnil ▸ hlast)
  rw [heq, Text.trimEnd_append (by rwa [htrimmed]), htrimmed]

/-- The lines of a block are its text, whatever blank lines follow them. -/
theorem literalText_shown (hT : LiteralLines T) (hshows : ShowsLines k T raws) {blanks : List Text}
    (hblank : ∀ raw ∈ blanks, (Line.ofRaw raw).body = []) :
    literalText ['|'] (raws ++ blanks) = Text.joined T := by
  have htext : literalText ['|'] raws = Text.trimEnd (alignLines none raws) := rfl
  have hfeed : ∀ c ∈ ['\n'], isBlank c = true := Text.forall_mem_of_all (by decide)
  rw [literalText_append_blank _ _ hblank, htext, alignLines_shown hshows hT.trimmed hT.first,
    flatMap_feed_eq_joined hT.nonempty, Text.trimEnd_append_blank _ hfeed]
  exact hT.trimEnd_joined

end

/-! ## Doubled backticks -/

namespace Text

variable {t : Text}

/-- Backticks are doubled one by one. -/
theorem doubleTicks_cons (c : Char) (t : Text) :
    doubleTicks (c :: t) = (if c = '\x60' then [c, c] else [c]) ++ doubleTicks t :=
  List.flatMap_cons

/-- Doubling backticks brings in no other characters. -/
theorem mem_doubleTicks {c : Char} : c ∈ doubleTicks t ↔ c ∈ t := by
  unfold doubleTicks
  rw [List.mem_flatMap]
  constructor
  · rintro ⟨d, hd, hc⟩
    split at hc
    · simp only [List.mem_cons, List.not_mem_nil, or_false, or_self] at hc
      exact hc ▸ hd
    · exact List.mem_singleton.1 hc ▸ hd
  · intro hc
    refine ⟨c, hc, ?_⟩
    split
    · exact List.mem_cons_self
    · exact List.mem_cons_self

/-- A text with doubled backticks starts with the same character. -/
theorem exists_doubleTicks_cons (c : Char) (t : Text) : ∃ u, doubleTicks (c :: t) = c :: u := by
  rw [doubleTicks_cons]
  split
  · exact ⟨_, rfl⟩
  · exact ⟨_, rfl⟩

/-- The first character is the same. -/
theorem head?_doubleTicks : (doubleTicks t).head? = t.head? := by
  cases t with
  | nil => rfl
  | cons c t =>
    obtain ⟨u, hu⟩ := exists_doubleTicks_cons c t
    rw [hu]
    rfl

/-- The last character is the same. -/
theorem getLast?_doubleTicks : (doubleTicks t).getLast? = t.getLast? := by
  rcases List.eq_nil_or_concat t with rfl | ⟨u, c, rfl⟩
  · rfl
  · unfold doubleTicks
    rw [List.concat_eq_append, List.flatMap_append, List.flatMap_singleton, List.getLast?_concat]
    split
    · rw [List.append_cons, List.getLast?_concat]
    · rw [List.getLast?_concat]

/-- Both texts are empty or neither is. -/
theorem isEmpty_doubleTicks : (doubleTicks t).isEmpty = t.isEmpty := by
  cases t with
  | nil => rfl
  | cons c t =>
    obtain ⟨u, hu⟩ := exists_doubleTicks_cons c t
    rw [hu]
    rfl

/-- Backticks are doubled line by line. -/
theorem doubleTicks_joined (T : List Text) :
    doubleTicks (joined T) = joined (T.map doubleTicks) := by
  induction T with
  | nil => rfl
  | cons line T ih =>
    by_cases hT : T = []
    · subst hT
      simp
    · rw [joined_cons line hT, List.map_cons, joined_cons _ (by simpa using hT), ← ih]
      exact List.flatMap_append

end Text

/-- A doubled backtick is a literal one. -/
theorem renderSpans_doubleTicks (compile : Text → Except Diagnostic Text) (n : Nat) (t : Text) :
    renderSpans compile n t.doubleTicks = .ok t := by
  induction t generalizing n with
  | nil => exact renderSpans_of_not_mem compile n List.not_mem_nil
  | cons c t ih =>
    rw [Text.doubleTicks_cons]
    split
    · rename_i hc
      subst hc
      have hrest := ih n
      rw [List.cons_append, List.cons_append, List.nil_append, renderSpans]
      simp only [if_true, hrest]
      rfl
    · rename_i hc
      rw [List.singleton_append, renderSpans_cons compile n _ hc, ih]
      rfl

/-- Lines with doubled backticks can be written literally too. -/
theorem LiteralLines.doubleTicks {T : List Text} (h : LiteralLines T) :
    LiteralLines (T.map Text.doubleTicks) := by
  refine ⟨by simpa using h.nonempty, ?_, ?_, ?_, ?_⟩
  · intro line hline
    obtain ⟨line, hmem, rfl⟩ := List.mem_map.1 hline
    exact mt Text.mem_doubleTicks.1 (h.oneLine line hmem)
  · intro line hline
    obtain ⟨line, hmem, rfl⟩ := List.mem_map.1 hline
    rw [Text.getLast?_doubleTicks]
    exact h.trimmed line hmem
  · rw [List.getLast?_map]
    intro hlast
    obtain ⟨line, hline, hnil⟩ := Option.map_eq_some_iff.1 hlast
    rw [← List.isEmpty_iff, Text.isEmpty_doubleTicks, List.isEmpty_iff] at hnil
    exact h.last (hnil ▸ hline)
  · intro line hline
    have hsame : ((!·.isEmpty) ∘ Text.doubleTicks : Text → Bool) = (!·.isEmpty) := by
      funext line
      simp [Text.isEmpty_doubleTicks]
    rw [List.find?_map, hsame] at hline
    obtain ⟨line, hfound, rfl⟩ := Option.map_eq_some_iff.1 hline
    rw [Text.head?_doubleTicks]
    exact h.first line hfound

/-! ## Literal blocks -/

/-- The position above the lines, each behind `k` spaces. `rest` follows them. -/
def Cursor.aboveLines (k : Nat) (T : List Text) (rest : Text) (n : Nat) : Cursor :=
  ⟨Text.lines (Text.indentedLines k T ++ rest), n⟩

/-- The position behind the line that ends the block of the lines. -/
def Cursor.belowLines (T : List Text) (rest : Text) (n : Nat) : Cursor :=
  Cursor.pastFirst ⟨Text.lines (rest.drop 1), n + T.length⟩

/-- The line that ends the block of the lines in front of `rest`. -/
def Line.below (rest : Text) : Line :=
  Line.firstOf (Text.lines (rest.drop 1))

section

variable {s : Setting} {level k : Nat} {T : List Text} {rest : Text}

/-- The lines are a block, and its text. -/
theorem exists_rawBlock_aboveLines (hk : level < k) (hT : LiteralLines T)
    (hrest : ∀ c, rest.head? = some c → c = '\n') (hnext : (Line.below rest).indent ≤ level)
    (n : Nat) :
    ∃ block, rawBlock level (.aboveLines k T rest n) =
        (.ok (block, Line.below rest), .belowLines T rest n) ∧
      literalText ['|'] block = Text.joined T := by
  obtain ⟨raws, hlines, hshows⟩ := exists_lines_indentedLines k hT.nonempty hT.oneLine hT.last hrest
  obtain ⟨blanks, hblank, hblock⟩ := blockOver_firstOf hnext (n + T.length)
  have hdeep := hshows.deep hk hT.trimmed
  refine ⟨raws ++ blanks, ?_, literalText_shown hT hshows hblank⟩
  unfold rawBlock Cursor.aboveLines
  simp only [hlines, blockOver_append_deep hdeep, hshows.length_eq, hblock]
  rfl

/-- Below its headline, a block of such lines is read as the lines joined. The line behind it is
handed back. -/
theorem verbatimBlock_aboveLines (hk : level < k) (hT : LiteralLines T)
    (hrest : ∀ c, rest.head? = some c → c = '\n') (hnext : (Line.below rest).indent ≤ level)
    (n : Nat) :
    verbatimBlock s level (.aboveLines k T rest n) =
      (.ok (Text.joined T, Line.below rest), .belowLines T rest n) := by
  obtain ⟨block, hblock, htext⟩ := exists_rawBlock_aboveLines hk hT hrest hnext n
  exact literalBlock_eq_ok_iff.2 ⟨block, hblock, htext⟩

/-- With their backticks doubled, the lines are no markup. -/
theorem literalBlock_aboveLines (hk : level < k) (hT : LiteralLines T)
    (hrest : ∀ c, rest.head? = some c → c = '\n') (hnext : (Line.below rest).indent ≤ level)
    (n : Nat) :
    literalBlock s level ['|'] true (.aboveLines k (T.map Text.doubleTicks) rest n) =
      (.ok (Text.joined T, Line.below rest), .belowLines T rest n) := by
  obtain ⟨block, hblock, htext⟩ := exists_rawBlock_aboveLines hk hT.doubleTicks hrest hnext n
  have hbelow : Cursor.belowLines (T.map Text.doubleTicks) rest n = .belowLines T rest n := by
    unfold Cursor.belowLines
    rw [List.length_map]
  rw [hbelow] at hblock
  refine literalBlock_eq_ok_iff.2 ⟨block, hblock, n, ?_⟩
  rw [htext, ← Text.doubleTicks_joined]
  exact renderSpans_doubleTicks s.embedded n (Text.joined T)

/-- Indented lines are read back as they are, up to the first line that is neither blank nor deeper
than the headline: as a literal block, with their backticks doubled if markup is rendered, and below
all headlines that copy what is below them. These are the mark of literals, an element, code, and
text that is kept from the template engine. -/
theorem Headline.opening_copies_lines (hk : level < k) (hT : LiteralLines T)
    (hrest : ∀ c, rest.head? = some c → c = '\n') (hnext : (Line.below rest).indent ≤ level)
    (n : Nat) :
    literalBlock s level ['|'] false (.aboveLines k T rest n) =
      (.ok (Text.joined T, Line.below rest), .belowLines T rest n) ∧
    literalBlock s level ['|'] true (.aboveLines k (T.map Text.doubleTicks) rest n) =
      (.ok (Text.joined T, Line.below rest), .belowLines T rest n) ∧
    (∀ line, Headline.opening s level line (.literal ['|'])
        (.aboveLines k (T.map Text.doubleTicks) rest n) =
      (.ok (.leaf (Text.joined T) (Line.below rest)), .belowLines T rest n)) ∧
    (∀ line e cur, Element.read s none line.trim cur = (.ok e, .aboveLines k T rest n) →
      Headline.opening s level line .verbatimElement cur =
        (.ok (.leaf (e.opened ++ ['\n'] ++ Text.joined T ++ e.closed) (Line.below rest)),
          .belowLines T rest n)) ∧
    (∀ line moduleLevel,
      Headline.opening s level line (.code moduleLevel none) (.aboveLines k T rest n) =
        (.ok (.leaf (s.delimiters.codeStart ++ (if moduleLevel then ['!'] else []) ++ ['\n'] ++
          Text.joined T ++ ['\n'] ++ s.delimiters.codeEnd ++ ['\n']) (Line.below rest)),
          .belowLines T rest n)) ∧
    ∀ line tag e cur, Element.read s none tag cur = (.ok e, .aboveLines k T rest n) →
      Headline.opening s level line (.shielded tag) cur =
        (.ok (.leaf (['\n'] ++ engineTag e.name e.spacedAttributes ++
          (if e.content.isEmpty then [] else e.content ++ ['\n']) ++ (Text.joined T ++ ['\n']) ++
          engineEndTag e.name) (Line.below rest)), .belowLines T rest n) := by
  have hcopied := verbatimBlock_aboveLines (s := s) hk hT hrest hnext n
  have hrendered := literalBlock_aboveLines (s := s) hk hT hrest hnext n
  have hne : (Text.joined T).isEmpty = false := List.isEmpty_eq_false_iff.2 hT.joined_ne_nil
  refine ⟨hcopied, hrendered, ?_, ?_, ?_, ?_⟩
  · intro line
    exact Scan.bind_of_ok hrendered
  · intro line e cur hread
    exact (Scan.bind_of_ok hread).trans (Scan.bind_of_ok hcopied)
  · intro line moduleLevel
    refine (Scan.bind_of_ok hcopied).trans ?_
    simp only [hne, hT.trimEnd_joined]
    simp [Scan.pure_apply]
  · intro line tag e cur hread
    refine (Scan.bind_of_ok hread).trans ((Scan.bind_of_ok hcopied).trans ?_)
    simp only [hne, hT.trimEnd_joined]
    rfl

end

/-- Empty lines, deeper lines and backticks all come back. -/
theorem Headline.opening_copies_lines_ticks :
    LiteralLines ["".toList, "a \x60b\x60".toList, "".toList, "    c".toList] ∧
    literalBlock ⟨.mako, fun _ => none, .ok⟩ 0 ['|'] true
        ⟨Text.lines "\n  a \x60\x60b\x60\x60\n\n      c\n \nq\np\n".toList, 3⟩ =
      (.ok ("\na \x60b\x60\n\n    c".toList, ⟨0, "q".toList⟩), ⟨["p\n".toList], 9⟩) := by
  have hT : LiteralLines ["".toList, "a \x60b\x60".toList, "".toList, "    c".toList] := by
    have hends : isBlank '\x60' = false ∧ isBlank 'c' = false := by decide
    have hstart : isBlank 'a' = false := by decide
    exact ⟨by decide, by simp, by simpa using hends, by decide, by simpa using hstart⟩
  have hrest : ∀ c, List.head? "\n \nq\np\n".toList = some c → c = '\n' := by
    rintro c ⟨⟩
    rfl
  exact ⟨hT, (Headline.opening_copies_lines (k := 2) (by decide) hT hrest (by decide) 3).2.1⟩

end TerseMarkup
