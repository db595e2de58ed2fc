import TerseMarkup.Proofs.Tracking

/-!
# Headlines in another layout

What the standard rules make of a headline in two layouts. A line at hand has lost its line end, so
it is the same text in both; only the rest of a line that was pulled as a continuation still has
one. Each rule agrees on the two (`Rule.standard_agrees`): it does not see the line end, or it hands
it to a reader that trims it. Code behind a fence and the tags of the template engine do neither,
so the rest of a continuation must not start like them.

Blocks of raw lines are the same up to the layout of each line (`blockOver_laidOut`), and a text is
aligned to the same (`alignLines_laidOut`).
-/

namespace TerseMarkup

variable {ℓ : Layout}

/-! ## Blocks of raw lines -/

/-- A block has the same lines in both layouts, each put into the layout: blank lines are blank in
both, and all indentations are moved by the margin. -/
theorem blockOver_laidOut {ahead : List Text} (hfit : ∀ raw ∈ ahead, ℓ.Fit raw) (level n : Nat) :
    ∃ block next next' cur cur', blockOver level ahead n = (block, next, cur) ∧
      blockOver (level + ℓ.margin) (ahead.map ℓ.line) n = (block.map ℓ.line, next', cur') ∧
      (∀ raw ∈ block, ℓ.Fit raw) ∧ next.LaidOut ℓ next' ∧ cur.LaidOut ℓ cur' := by
  induction ahead generalizing n with
  | nil =>
    refine ⟨[], .none, .none, ⟨[], n⟩, ⟨[], n⟩, rfl, rfl, by simp, ⟨rfl, ?_⟩, rfl, rfl, by simp⟩
    exact fun h => absurd rfl h
  | cons raw ahead ih =>
    have hrest : ∀ r ∈ ahead, ℓ.Fit r := fun r hr => hfit r (List.mem_cons_of_mem _ hr)
    have hraw := Layout.laidOut_ofRaw (hfit raw List.mem_cons_self)
    have hiff : (Line.ofRaw (ℓ.line raw)).body ≠ [] ∧
        (Line.ofRaw (ℓ.line raw)).indent ≤ level + ℓ.margin ↔
          (Line.ofRaw raw).body ≠ [] ∧ (Line.ofRaw raw).indent ≤ level := by
      rw [hraw.body]
      refine and_congr_right fun hne => ?_
      rw [hraw.indent hne]
      omega
    simp only [List.map_cons, blockOver, hiff]
    split
    · exact ⟨[], _, _, _, _, rfl, rfl, by simp, hraw, rfl, rfl, hrest⟩
    · obtain ⟨block, next, next', cur, cur', h, h', hblock, hnext, hcur⟩ := ih hrest (n + 1)
      rw [h, h']
      refine ⟨raw :: block, next, next', cur, cur', rfl, rfl, ?_, hnext, hcur⟩
      exact List.forall_mem_cons.2 ⟨hfit raw List.mem_cons_self, hblock⟩

/-- The same of `rawBlock`, which is given a cursor. -/
theorem rawBlock_tracks (level : Nat) :
    Scan.Tracks ℓ (fun found found' => found'.1 = found.1.map ℓ.line ∧
        (∀ raw ∈ found.1, ℓ.Fit raw) ∧ found.2.LaidOut ℓ found'.2)
      (rawBlock level) (rawBlock (level + ℓ.margin)) := by
  rintro ⟨ahead, n⟩ ⟨ahead', n'⟩ ⟨hahead, hnumber, hfit⟩
  cases hahead
  cases hnumber
  obtain ⟨block, next, next', cur, cur', h, h', hblock, hnext, hcur⟩ :=
    blockOver_laidOut hfit level n
  simp only [rawBlock, h, h']
  exact .ok ⟨rfl, hblock, hnext⟩ hcur

/-- What is left of a line behind the margin of its block is the same up to blanks at its end. -/
theorem Layout.trimEnd_drop_line {raw : Text} (h : ℓ.Fit raw) (hne : (Line.ofRaw raw).body ≠ [])
    {m : Nat} (hm : m ≤ (Line.ofRaw raw).indent) :
    Text.trimEnd ((ℓ.line raw).drop (m + ℓ.margin)) = Text.trimEnd (raw.drop m) := by
  have hblank : raw.trimStart ≠ [] := by
    intro hnil
    exact hne (by simp [Line.ofRaw, hnil])
  have hindent : (Line.ofRaw raw).indent = raw.length - raw.trimStart.length := by
    simp [Line.ofRaw, hblank]
  obtain ⟨x, e, e', rfl, hline, hx, he, he'⟩ := exists_line_eq h hblank
  rw [Text.trimStart_append hx] at hindent
  simp only [List.length_append] at hindent
  have hspace : (Text.copies ℓ.margin ' ').length = ℓ.margin := List.length_replicate
  have hlen : m ≤ x.length := by omega
  have hdrop : (Text.copies ℓ.margin ' ' ++ (x ++ e')).drop (m + ℓ.margin) = (x ++ e').drop m := by
    rw [Nat.add_comm, ← List.drop_drop, List.drop_left' hspace]
  rw [hline, hdrop, List.drop_append_of_le_length hlen, List.drop_append_of_le_length hlen,
    Text.trimEnd_append_blank _ he', Text.trimEnd_append_blank _ he]

/-- Aligned lines do not show the layout, if the margin to start with is moved like the lines. -/
theorem alignLines_laidOut {block : List Text} (hfit : ∀ raw ∈ block, ℓ.Fit raw)
    (margin : Option Nat) :
    alignLines (margin.map (· + ℓ.margin)) (block.map ℓ.line) = alignLines margin block := by
  induction block generalizing margin with
  | nil => rfl
  | cons raw block ih =>
    have hraw := hfit raw List.mem_cons_self
    have hlaid := Layout.laidOut_ofRaw hraw
    have hrest := ih fun r hr => hfit r (List.mem_cons_of_mem _ hr)
    simp only [List.map_cons, alignLines, hlaid.body]
    split
    · rw [hrest]
    · rename_i hempty
      have hne : (Line.ofRaw raw).body ≠ [] := by simpa using hempty
      have hmargin : ((margin.map (· + ℓ.margin)).map (min (Line.ofRaw (ℓ.line raw)).indent)).getD
          (Line.ofRaw (ℓ.line raw)).indent =
            (margin.map (min (Line.ofRaw raw).indent)).getD (Line.ofRaw raw).indent + ℓ.margin := by
        rw [hlaid.indent hne]
        cases margin with
        | none => rfl
        | some m => simp [Nat.add_min_add_right]
      have hle : (margin.map (min (Line.ofRaw raw).indent)).getD (Line.ofRaw raw).indent ≤
          (Line.ofRaw raw).indent := by
        cases margin with
        | none => exact Nat.le_refl _
        | some m => exact Nat.min_le_left _ _
      rw [hmargin, Layout.trimEnd_drop_line hraw hne hle]
      exact congrArg _ (congrArg _ (hrest (some _)))

/-- The same text has been read from a block, and the line behind it corresponds. -/
def Layout.Blocks (ℓ : Layout) (found found' : Text × Line) : Prop :=
  found'.1 = found.1 ∧ found.2.LaidOut ℓ found'.2

/-- A literal block is the same in both layouts, if its headline is up to blanks. -/
theorem literalBlock_tracks (s : Setting) (level : Nat) {headline headline' : Text}
    (hhead : headline'.head? = headline.head?)
    (htrim : Text.trim (headline'.drop 1) = Text.trim (headline.drop 1)) (embedded : Bool) :
    Scan.Tracks ℓ ℓ.Blocks (literalBlock s level headline embedded)
      (literalBlock s (level + ℓ.margin) headline' embedded) := by
  refine Scan.tracks_lineNumber.bind fun n n' hn => ?_
  cases hn
  refine (rawBlock_tracks level).bind fun ⟨block, next⟩ ⟨block', next'⟩ h => ?_
  obtain ⟨hblock, hfit, hnext⟩ := h
  cases hblock
  have halign := alignLines_laidOut hfit none
  simp only [Option.map_none] at halign
  simp only [hhead, htrim, halign]
  split
  · refine (Scan.tracks_ofExcept _).bind fun text text' htext => ?_
    cases htext
    exact Scan.tracks_pure ⟨rfl, hnext⟩
  · exact Scan.tracks_pure ⟨rfl, hnext⟩

/-! ## What rules see -/

/-- The second headline is what the first one is in another layout: its texts are the same up to
blanks where they are trimmed later. -/
inductive Headline.LaidOut : Headline → Headline → Prop where
  | same (headline : Headline) : Headline.LaidOut headline headline
  | literal {t t' : Text} (hhead : t'.head? = t.head?)
      (htrim : Text.trim (t'.drop 1) = Text.trim (t.drop 1)) :
      Headline.LaidOut (.literal t) (.literal t')
  | value {unescaped spaced : Bool} {t t' : Text} (htrim : t'.trimEnd = t.trimEnd) :
      Headline.LaidOut (.value unescaped spaced t) (.value unescaped spaced t')
  | statement {keyword t t' : Text} (htrim : t'.trim = t.trim) :
      Headline.LaidOut (.statement keyword t) (.statement keyword t')
  | negated {keyword t t' : Text} (htrim : t'.trim = t.trim) :
      Headline.LaidOut (.negated keyword t) (.negated keyword t')
  | code {moduleLevel : Bool} {t t' : Option Text} (htrim : t'.map Text.trim = t.map Text.trim) :
      Headline.LaidOut (.code moduleLevel t) (.code moduleLevel t')

/-- A recognition of what is the same headline in another layout. -/
def Recognition.LaidOut (found found' : Recognition) : Prop :=
  found.headline.LaidOut found'.headline

namespace Text

variable {x e : Text}

/-- The first line of a text goes on over a front without line ends. -/
theorem firstLine_append (hx : x.Inner) (u : Text) : firstLine (x ++ u) = x ++ firstLine u := by
  refine List.takeWhile_append_of_pos fun c hc => ?_
  simpa using (hx c hc).1

end Text

/-- What stands behind the dash, by the first character. -/
theorem Rule.dashWord?_cons (words : List String) (c : Char) (t : Text) :
    dashWord? words (c :: t) =
      if c = '-' then
        (Text.word? (words.map String.toList) t.trimStart).map fun found =>
          (c :: t.takeWhile isBlank, found.1, found.2)
      else none := by
  unfold dashWord? dash?
  by_cases hc : c = '-'
  · simp only [if_pos hc]
    rfl
  · simp only [if_neg hc]

namespace Layout.Matches

variable {t t' : Text}

/-- The first lines of two texts that match differ in a carriage return at most. -/
theorem exists_firstLine (h : ℓ.Matches t t') :
    ∃ u : Text, t'.firstLine = t.firstLine ++ u ∧ (u = [] ∨ u = ['\r']) := by
  cases h with
  | same => exact ⟨[], (List.append_nil _).symm, .inl rfl⟩
  | ended _ hx =>
    refine ⟨['\r'], ?_, .inr rfl⟩
    rw [Text.firstLine_append hx.inner, Text.firstLine_append hx.inner, List.append_assoc]
    rfl

/-- The first lines of matching texts are the same up to blanks at their ends. -/
theorem trimEnd_firstLine (h : ℓ.Matches t t') (lead : Text) :
    Text.trimEnd (lead ++ t'.firstLine) = Text.trimEnd (lead ++ t.firstLine) := by
  obtain ⟨u, hu, rfl | rfl⟩ := h.exists_firstLine
  · rw [hu, List.append_nil]
  · rw [hu, ← List.append_assoc, Text.trimEnd_append_blank _ (Text.forall_mem_of_all (by decide))]

/-- The same with both ends trimmed. -/
theorem trim_firstLine (h : ℓ.Matches t t') (lead : Text) :
    Text.trim (lead ++ t'.firstLine) = Text.trim (lead ++ t.firstLine) := by
  obtain ⟨u, hu, rfl | rfl⟩ := h.exists_firstLine
  · rw [hu, List.append_nil]
  · rw [hu, ← List.append_assoc, Text.trim_append_blank _ (Text.forall_mem_of_all (by decide))]

/-- Characters of a kind that leaves out line ends are as many in front of both texts. -/
theorem takeWhile_eq (h : ℓ.Matches t t') {p : Char → Bool} (hfeed : p '\n' = false)
    (hreturn : p '\r' = false) : t'.takeWhile p = t.takeWhile p := by
  cases h with
  | same => rfl
  | @ended x _ _ =>
    rw [(span_append_lineEnd Text.isLineEnd_feed hfeed hreturn x).1,
      (span_append_lineEnd Text.isLineEnd_return hfeed hreturn x).1]

/-- Blanks follow in both texts or in none. -/
theorem takeWhile_isBlank_eq_nil_iff (h : ℓ.Matches t t') :
    t'.takeWhile isBlank = [] ↔ t.takeWhile isBlank = [] := by
  rcases h.head?_eq_or with hhead | ⟨-, rfl, rfl⟩
  · cases t <;> cases t' <;> simp_all [List.takeWhile_cons]
  · decide

/-- A word without line ends is cut off in both layouts or in neither. -/
theorem word? (h : ℓ.Matches t t') {words : List Text} (hwords : ∀ w ∈ words, w.Inner) :
    (Text.word? words t = none ∧ Text.word? words t' = none) ∨
      ∃ word r r', Text.word? words t = some (word, r) ∧ Text.word? words t' = some (word, r') ∧
        ℓ.Matches r r' := by
  unfold Text.word?
  induction words with
  | nil => exact .inl ⟨rfl, rfl⟩
  | cons w words ih =>
    rw [List.findSome?_cons, List.findSome?_cons]
    obtain ⟨hw, hw'⟩ | ⟨r, r', hw, hw', hr⟩ := h.after? w (hwords w List.mem_cons_self)
    · rw [hw, hw']
      exact ih fun v hv => hwords v (List.mem_cons_of_mem _ hv)
    · rw [hw, hw']
      exact .inr ⟨w, r, r', rfl, rfl, hr⟩

/-- A dash and a word are found in both texts or in none. -/
theorem dashWord? (h : ℓ.Matches t t') (words : List String)
    (hwords : ∀ w ∈ words.map String.toList, Text.Inner w) :
    (Rule.dashWord? words t = none ∧ Rule.dashWord? words t' = none) ∨
      ∃ lead lead' word r r', Rule.dashWord? words t = some (lead, word, r) ∧
        Rule.dashWord? words t' = some (lead', word, r') ∧ ℓ.Matches r r' := by
  rcases h.head?_eq_or with hhead | ⟨-, rfl, rfl⟩
  · cases t with
    | nil =>
      rw [h.eq_nil_iff.2 rfl]
      exact .inl ⟨rfl, rfl⟩
    | cons c t =>
      cases t' with
      | nil => cases hhead
      | cons c' t' =>
        cases hhead
        rw [Rule.dashWord?_cons, Rule.dashWord?_cons]
        split
        · obtain ⟨hw, hw'⟩ | ⟨word, r, r', hw, hw', hr⟩ := h.tail.trimStart.word? hwords
          · rw [hw, hw']
            exact .inl ⟨rfl, rfl⟩
          · rw [hw, hw']
            exact .inr ⟨_, _, word, r, r', rfl, rfl, hr⟩
        · exact .inl ⟨rfl, rfl⟩
  · exact .inl ⟨rfl, rfl⟩

end Layout.Matches

namespace Rule

variable {line line' : Text}

/-- What the rule sees in the two lines is nothing, or it is the same headline in two layouts. -/
def Agrees (rule : Rule) (line line' : Text) : Prop :=
  Option.Rel Recognition.LaidOut (rule.recognise line) (rule.recognise line')

/-- A rule sees the same in the same line. -/
theorem agrees_of_eq (rule : Rule) (line : Text) : rule.Agrees line line := by
  unfold Agrees
  cases rule.recognise line with
  | none => exact .none
  | some found => exact .some (.same _)

/-- A rule for lines of a certain start agrees if both lines start so, or neither does. -/
theorem byStart_agrees {name : String} {starts : Text → Bool} {headline : Text → Headline}
    (hstarts : starts line' = starts line) (hheadline : (headline line).LaidOut (headline line')) :
    (byStart name starts headline).Agrees line line' := by
  unfold Agrees byStart
  simp only [hstarts]
  split
  · exact .some hheadline
  · exact .none

/-- A rule for a dash and a word agrees if its headline does not depend on blanks around the
rest. -/
theorem byWord_agrees (h : ℓ.Matches line line') {name wordPart : String} {words : List String}
    (hwords : ∀ w ∈ words.map String.toList, Text.Inner w) {headline : Text → Text → Headline}
    (hheadline : ∀ word t t', Text.trim t' = Text.trim t →
      (headline word t).LaidOut (headline word t')) :
    (byWord name words wordPart headline).Agrees line line' := by
  unfold Agrees byWord
  obtain ⟨hd, hd'⟩ | ⟨lead, lead', word, r, r', hd, hd', hr⟩ := h.dashWord? words hwords
  · simp only [hd, hd']
    exact .none
  · simp only [hd, hd']
    exact .some (hheadline word _ _ (hr.trim_firstLine []))

/-- A rule that does not look behind its word agrees. -/
theorem byBareWord_agrees (h : ℓ.Matches line line') {name wordPart : String} {words : List String}
    (hwords : ∀ w ∈ words.map String.toList, Text.Inner w) {headline : Text → Headline} :
    (byBareWord name words wordPart headline).Agrees line line' := by
  unfold Agrees byBareWord
  obtain ⟨hd, hd'⟩ | ⟨lead, lead', word, r, r', hd, hd', hr⟩ := h.dashWord? words hwords
  · simp only [hd, hd']
    exact .none
  · simp only [hd, hd']
    exact .some (.same _)

/-- The rest behind blanks is the rest of the line, once it is trimmed. -/
theorem trim_spacedRest {t : Text} (h : ¬ t.takeWhile isBlank = []) :
    (spacedRest t).trim = Text.trim (Text.firstLine t.trimStart) := by
  rw [spacedRest, if_neg h]
  exact Text.trim_blank_append (List.all_eq_true.1 List.all_takeWhile) _

/-- The rule for code behind a keyword agrees, since the code is trimmed. -/
theorem code_agrees (h : ℓ.Matches line line') : code.Agrees line line' := by
  unfold Agrees code
  obtain ⟨hd, hd'⟩ | ⟨lead, lead', word, r, r', hd, hd', hr⟩ :=
    h.dashWord? ["python", "py"] (by decide)
  · simp only [hd, hd']
    exact .none
  · simp only [hd, hd', Option.map_some]
    obtain ⟨moduleLevel, t, t', hm, hm', ht⟩ := exists_optionalMark hr '!' (by decide)
    simp only [hm, hm']
    refine .some (.code ?_)
    have hiff := ht.takeWhile_isBlank_eq_nil_iff
    by_cases hgap : t.takeWhile isBlank = []
    · rw [if_pos hgap, if_pos (hiff.2 hgap)]
    · rw [if_neg hgap, if_neg (mt hiff.1 hgap), Option.map_some, Option.map_some,
        trim_spacedRest hgap, trim_spacedRest (mt hiff.1 hgap)]
      exact congrArg some (ht.trimStart.trim_firstLine [])

/-- The rule for values agrees, since values are trimmed at their ends. -/
theorem value_agrees (h : ℓ.Matches line line') (hhead : line'.head? = line.head?) :
    value.Agrees line line' := by
  unfold Agrees value
  cases line with
  | nil =>
    rw [h.eq_nil_iff.2 rfl]
    exact .none
  | cons c t =>
    cases line' with
    | nil => cases hhead
    | cons c' t' =>
      cases hhead
      simp only
      split
      · obtain ⟨unescaped, t₁, t₁', h₁, h₁', ht₁⟩ := exists_optionalMark h.tail '=' (by decide)
        obtain ⟨spaced, t₂, t₂', h₂, h₂', ht₂⟩ := exists_optionalMark ht₁ ',' (by decide)
        simp only [h₁, h₁', h₂, h₂']
        exact .some (.value (ht₂.trimStart.trimEnd_firstLine []))
      · exact .none

/-- Whether a line starts like text does not depend on its line end. -/
theorem startsText_append_lineEnd {c : Char} {x e : Text} (hx : Text.Inner x) (he : e.IsLineEnd) :
    startsText (c :: (x ++ e)) = startsText (c :: x) := by
  have hhead : ((x ++ e).head? == some '\x7b') = (x.head? == some '\x7b') := by
    cases x with
    | nil => rcases he with rfl | rfl <;> rfl
    | cons b x => rfl
  have hline : ((Text.firstLine (x ++ e)).drop 1).contains ';' =
      ((Text.firstLine x).drop 1).contains ';' := by
    have hx' := Text.firstLine_append hx []
    rw [List.append_nil] at hx'
    rw [Text.firstLine_append hx, hx']
    rcases he with rfl | rfl
    · rfl
    · cases x <;> simp [Text.firstLine]
  simp only [startsText, hhead, hline]

/-- The rule for text without a mark agrees: it looks for a semicolon in front of the line end, and
text is trimmed. -/
theorem implicitLiteral_agrees {x : Text} (hx : x.Inner) (hne : x ≠ []) :
    implicitLiteral.Agrees (x ++ ['\n']) (x ++ ['\r', '\n']) := by
  cases x with
  | nil => exact absurd rfl hne
  | cons c x =>
    have hx' : Text.Inner x := fun b hb => hx b (List.mem_cons_of_mem _ hb)
    unfold Agrees implicitLiteral
    simp only [List.cons_append, startsText_append_lineEnd hx' Text.isLineEnd_feed,
      startsText_append_lineEnd hx' Text.isLineEnd_return]
    split
    · refine .some (.literal rfl ?_)
      simp only [List.drop_succ_cons, List.drop_zero, Text.firstLine_append hx']
      rw [← List.cons_append, ← List.cons_append,
        Text.trim_append_blank _ (Text.forall_mem_of_all (by decide)),
        Text.trim_append_blank _ (Text.forall_mem_of_all (by decide))]
    · exact .none

/-- A word of any case does not reach into the line end. -/
theorem caselessAfter?_append_lineEnd (word : Text) {e : Text}
    (hword : ∀ letter ∈ word, isLetter letter '\n' = false ∧ isLetter letter '\r' = false)
    (he : e.IsLineEnd) (x : Text) :
    caselessAfter? word (x ++ e) =
      (caselessAfter? word x).map fun found => (found.1, found.2 ++ e) := by
  rcases he with rfl | rfl
  · exact caselessAfter?_append_cons (fun letter h => (hword letter h).1) x []
  · exact caselessAfter?_append_cons (fun letter h => (hword letter h).2) x ['\n']

/-- What follows a word of any case is the end of the text. -/
theorem suffix_of_caselessAfter? {word t lead rest : Text}
    (h : caselessAfter? word t = some (lead, rest)) : rest <:+ t := by
  fun_induction caselessAfter? word t generalizing lead rest with
  | case1 =>
    cases h
    exact List.suffix_refl _
  | case2 => cases h
  | case3 letter word c t hl ih =>
    obtain ⟨⟨lead', rest'⟩, hr, hp⟩ := Option.map_eq_some_iff.1 h
    cases hp
    exact (ih hr).trans (List.suffix_cons _ _)
  | case4 => cases h

/-- The rule for document types agrees: their names have no line ends. -/
theorem doctype_agrees (h : ℓ.Matches line line') : doctype.Agrees line line' := by
  unfold Agrees doctype
  obtain ⟨hw, hw'⟩ | ⟨word, t, t', hw, hw', ht⟩ := h.cut (f := caselessAfter? "doctype".toList)
    (fun (word, r) => ⟨word, r, rfl⟩) (fun _ _ _ => rfl)
    (fun _ x _ he => caselessAfter?_append_lineEnd _ (Text.forall_mem_of_all (by decide)) he x)
    fun _ _ _ hr => suffix_of_caselessAfter? hr
  · simp only [hw, hw']
    exact .none
  · have hkey := ht.trimStart.takeWhile_eq (p := isDoctypeChar) (by decide) (by decide)
    have hgap : (t'.takeWhile isBlank).isEmpty = (t.takeWhile isBlank).isEmpty := by
      rw [Bool.eq_iff_iff, List.isEmpty_iff, List.isEmpty_iff, ht.takeWhile_isBlank_eq_nil_iff]
    unfold Text.trimStart at hkey
    simp only [hw, hw', hkey, hgap]
    split
    · exact .none
    · exact .some (.same _)

/-- A line that starts with none of some words starts with none of fewer words. -/
theorem dashWord?_of_subset {words words' : List String} (hsub : words ⊆ words')
    (h : dashWord? words' line = none) : dashWord? words line = none := by
  unfold dashWord? at h ⊢
  split at h
  · rfl
  · rw [Option.map_eq_none_iff, Text.word?, List.findSome?_eq_none_iff] at h ⊢
    exact fun w hw => h w (List.map_subset _ hsub hw)

/-- A line that does not start like code is no tag of the template engine. -/
theorem bySpacedWord_agrees (h : ℓ.Matches line line') (hcode : line.startsCode = false)
    {name : String} {words : List String} (hsub : words ⊆ taggedWords)
    {headline : Text → Headline} : (bySpacedWord name words headline).Agrees line line' := by
  simp only [Text.startsCode, Bool.or_eq_false_iff, Option.isSome_eq_false_iff,
    Option.isNone_iff_eq_none] at hcode
  have hnone := dashWord?_of_subset hsub hcode.2
  have hinner : ∀ w ∈ words.map String.toList, Text.Inner w := fun w hw =>
    (by decide : ∀ w ∈ taggedWords.map String.toList, Text.Inner w) w (List.map_subset _ hsub hw)
  unfold Agrees bySpacedWord
  obtain ⟨hd, hd'⟩ | ⟨lead, lead', word, r, r', hd, -, -⟩ := h.dashWord? words hinner
  · simp only [hd, hd']
    exact .none
  · rw [hnone] at hd
    cases hd

/-- The rule for code behind a fence agrees on lines that do not start like code, since it sees
nothing there. -/
theorem fencedCode_agrees (h : ℓ.Matches line line') (hcode : line.startsCode = false) :
    fencedCode.Agrees line line' := by
  simp only [Text.startsCode, Bool.or_eq_false_iff] at hcode
  unfold Agrees fencedCode
  obtain ⟨ha, ha'⟩ | ⟨r, r', ha, -, -⟩ := h.after? "---".toList (by decide)
  · simp only [ha, ha']
    exact .none
  · have hfence : "---".toList.isPrefixOf line = true :=
      List.isPrefixOf_iff_prefix.2 ⟨r, (Text.after?_eq_some_iff.1 ha).symm⟩
    rw [hfence] at hcode
    cases hcode.1

/-- Every standard rule sees the same in a headline in two layouts, unless it is a tail that starts
like code. -/
theorem standard_agrees {rule : Rule} (hr : rule ∈ standard) (h : ℓ.Heads line line')
    (hcode : ℓ.Tail line → line.startsCode = false) : rule.Agrees line line' := by
  cases h with
  | same => exact rule.agrees_of_eq line
  | @ended x hcarriage hx hne htail =>
    have hcode := hcode htail
    have hm := Layout.Matches.ended hcarriage hx
    have hhead : (x ++ ['\r', '\n']).head? = (x ++ ['\n']).head? := by
      cases x with
      | nil => exact absurd rfl hne
      | cons c x => rfl
    simp only [standard, List.mem_cons, List.not_mem_nil, or_false] at hr
    rcases hr with rfl | rfl | rfl | rfl | rfl | rfl | rfl | rfl | rfl | rfl | rfl | rfl | rfl |
      rfl | rfl | rfl | rfl | rfl | rfl
    · refine byStart_agrees ?_ (.same _)
      simp only [caselessAfter?_append_lineEnd "style".toList (Text.forall_mem_of_all (by decide)),
        caselessAfter?_append_lineEnd "script".toList (Text.forall_mem_of_all (by decide)),
        Text.isLineEnd_feed, Text.isLineEnd_return, Option.isSome_map]
    · exact doctype_agrees hm
    · refine byStart_agrees ?_ (.same _)
      rw [Text.isPrefixOf_append_lineEnd (by decide) Text.isLineEnd_feed,
        Text.isPrefixOf_append_lineEnd (by decide) Text.isLineEnd_return]
    · refine byStart_agrees ?_ (.same _)
      cases x with
      | nil => exact absurd rfl hne
      | cons c x => rfl
    · refine byStart_agrees (by rw [hhead]) (.literal hhead ?_)
      cases x with
      | nil => exact absurd rfl hne
      | cons c x =>
        exact (Layout.Matches.ended hcarriage (hx.of_suffix (List.suffix_cons c x))).trim_eq
    · exact implicitLiteral_agrees hx.inner hne
    · exact byStart_agrees (by rw [hhead]) (.same _)
    · exact value_agrees hm hhead
    · exact byStart_agrees (by rw [hhead]) (.same _)
    · exact byWord_agrees hm (by decide) fun _ _ _ => .statement
    · exact byWord_agrees hm (by decide) fun _ _ _ => .negated
    · exact fencedCode_agrees hm hcode
    · exact code_agrees hm
    · exact bySpacedWord_agrees hm hcode (by decide)
    · exact bySpacedWord_agrees hm hcode (by decide)
    · exact bySpacedWord_agrees hm hcode (by decide)
    · exact bySpacedWord_agrees hm hcode (by decide)
    · exact byBareWord_agrees hm (by decide)
    · exact byBareWord_agrees hm (by decide)

end Rule

end TerseMarkup
