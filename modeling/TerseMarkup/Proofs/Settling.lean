import TerseMarkup.Proofs.Extension

/-!
# Headlines with more lines to come

Whole headlines are read in the same way when lines are added behind the others, with one exception:
a block of raw lines that runs to the end takes the blank lines that are added, and stops at the
first other one. If that line stands at the margin (`FreshLines`), it stops every block, and the
blank lines make no difference to what is written.

* `Line.Settled` says which line stops a block, and `Scan.Settles` that a reading carries over to
  more lines or settles in this way.
* `Headline.settles_opening` shows it of every headline that the standard rules see.
-/

namespace TerseMarkup

variable {extra : List Text} {cur cur' curₑ : Cursor} {α β γ : Type}

/-! ## Statements and clauses -/

/-- Trimming keeps a text fit. -/
theorem Text.FitFor.trim {t : Text} (ht : t.FitFor extra) : t.trim.FitFor extra :=
  ht.imp_right Text.Tidy.trim

/-- The first line of a fit text is fit. -/
theorem Text.FitFor.firstLine {t : Text} (ht : t.FitFor extra) : t.firstLine.FitFor extra :=
  ht.imp_right Text.Tidy.firstLine

/-- What is read off a fit text over fit lines is fit, if tidiness carries over to it. -/
theorem Text.FitFor.of_tidy {t u : Text} (ht : t.FitFor extra) (he : cur.Extends extra curₑ)
    (h : t.Tidy → (∀ raw ∈ cur.ahead, raw.Tidy) → u.Tidy) : u.FitFor extra := by
  by_cases hne : extra = []
  · exact .inl hne
  · exact .inr (h (ht.resolve_left hne) fun raw hr => (he.fit raw hr).resolve_left hne)

/-- The rest of a line behind a dash and a word. -/
theorem fit_of_dashWord? {line lead word rest : Text} {words : List String}
    (hline : line.FitFor extra) (hd : Rule.dashWord? words line = some (lead, word, rest)) :
    rest.firstLine.FitFor extra := by
  obtain ⟨rfl, -, -⟩ := Rule.eq_append_of_dashWord? hd
  refine (hline.of_suffix ?_).firstLine
  exact (List.suffix_append word rest).trans (List.suffix_append lead _)

/-- A statement is cut at the same colon with lines added. -/
theorem carries_splitStatement (d : Delimiters) {t : Text} (ht : t.FitFor extra) :
    Scan.Carries extra (splitStatement d t) := by
  refine (carries_expression ht).bind fun expr _ _ _ _ _ => ?_
  refine Scan.Carries.bind (carries_token? _ _ _ expr) fun found _ _ _ _ _ => ?_
  cases found <;> exact Scan.carries_pure _

/-- What follows the colon of a statement is fit again. -/
theorem fit_of_splitStatement {d : Delimiters} {t expr rest : Text} (ht : t.FitFor extra)
    (he : cur.Extends extra curₑ) (h : splitStatement d t cur = (.ok (expr, rest), cur')) :
    rest.FitFor extra :=
  ht.of_tidy he fun htidy hahead => splitStatement_tidy htidy hahead h

/-- The rest behind a colon is the same with lines added. -/
theorem carries_restAfterColon (d : Delimiters) (t : Text) :
    Scan.Carries extra (restAfterColon d t) := by
  refine Scan.Carries.bind (carries_token? _ _ _ t) fun found _ _ _ _ _ => ?_
  cases found <;> exact Scan.carries_pure _

/-- The rest behind a colon is fit again. -/
theorem fit_of_restAfterColon {d : Delimiters} {t rest : Text} (ht : t.FitFor extra)
    (he : cur.Extends extra curₑ) (h : restAfterColon d t cur = (.ok rest, cur')) :
    rest.FitFor extra :=
  ht.of_tidy he fun htidy hahead => restAfterColon_tidy htidy hahead h

/-- A statement opens the same with lines added. -/
theorem carries_openStatement (d : Delimiters) (keyword : Text) {t : Text} (ht : t.FitFor extra) :
    Scan.Carries extra (openStatement d keyword t) := by
  unfold openStatement
  split
  · exact Scan.carries_pure _
  · exact (carries_splitStatement d ht).bind fun _ _ _ _ _ _ => Scan.carries_pure _

/-- A statement leaves a fit line. -/
theorem fit_of_openStatement {d : Delimiters} {keyword t : Text} {level : Nat} {opening : Opening}
    (ht : t.FitFor extra) (he : cur.Extends extra curₑ)
    (h : openStatement d keyword t cur = (.ok opening, cur')) :
    (opening.line level).body.FitFor extra := by
  unfold openStatement at h
  split at h
  · cases h
    exact .inr Text.tidy_nil
  · obtain ⟨⟨expr, rest⟩, cur₁, hs, h₁⟩ := Scan.bind_eq_ok_iff.1 h
    cases h₁
    exact fit_of_splitStatement ht he hs

/-- A condition is negated in brackets, so it is fit to be read again. -/
theorem fit_negated {t e : Text} (ht : t.FitFor extra) (he : cur.Extends extra curₑ)
    (h : expression t cur = (.ok e, cur')) :
    Text.FitFor extra (" not (".toList ++ e ++ [')']) :=
  ht.of_tidy he fun htidy hahead => tidy_negated (expression_tidy htidy hahead h).2

/-- A negated statement opens the same with lines added. -/
theorem carries_openNegated (d : Delimiters) (keyword : Text) {t : Text} (ht : t.FitFor extra) :
    Scan.Carries extra (openNegated d keyword t) :=
  (carries_expression ht).bind fun _ _ _ _ he h =>
    carries_openStatement d keyword (fit_negated ht he h)

/-- Lines that are added can be put behind any cursor on the way. -/
theorem Cursor.Extends.of_reaches (he : cur.Extends extra curₑ) (hr : cur.Reaches cur') (n : Nat) :
    cur'.Extends extra ⟨cur'.ahead ++ extra, n⟩ :=
  ⟨rfl, fun raw hraw => he.fit raw (hr.mem_ahead hraw)⟩

/-- A negated statement leaves a fit line. -/
theorem fit_of_openNegated {d : Delimiters} {keyword t : Text} {level : Nat} {opening : Opening}
    (ht : t.FitFor extra) (he : cur.Extends extra curₑ)
    (h : openNegated d keyword t cur = (.ok opening, cur')) :
    (opening.line level).body.FitFor extra := by
  obtain ⟨e, cur₁, hx, h₁⟩ := Scan.bind_eq_ok_iff.1 h
  have hreach := (forward_expression t).reaches hx
  exact fit_of_openStatement (fit_negated ht he hx) (he.of_reaches hreach 0) h₁

namespace Clause

/-- A clause is the same with lines added. -/
theorem carries_read (d : Delimiters) (clause : Clause) {t : Text} (ht : t.FitFor extra) :
    Scan.Carries extra (clause.read d t) := by
  cases clause
  case elif | except =>
    exact (carries_splitStatement d ht).bind fun _ _ _ _ _ _ => Scan.carries_pure _
  case otherwise | lastly =>
    exact (carries_restAfterColon d t).bind fun _ _ _ _ _ _ => Scan.carries_pure _

/-- What follows the colon of a clause is fit again. -/
theorem fit_of_read {d : Delimiters} {clause : Clause} {t written rest : Text}
    (ht : t.FitFor extra) (he : cur.Extends extra curₑ)
    (h : clause.read d t cur = (.ok (written, rest), cur')) : rest.FitFor extra := by
  cases clause
  case elif | except =>
    obtain ⟨⟨expr, rest'⟩, cur₁, hs, h₁⟩ := Scan.bind_eq_ok_iff.1 h
    cases h₁
    exact fit_of_splitStatement ht he hs
  case otherwise | lastly =>
    obtain ⟨rest', cur₁, hs, h₁⟩ := Scan.bind_eq_ok_iff.1 h
    cases h₁
    exact fit_of_restAfterColon ht he hs

/-- What a clause goes on with is fit if its line is. -/
theorem fit_of_next? {keyword : Text} {taken : List Clause} {line t : Text} {clause : Clause}
    (hline : line.FitFor extra) (h : Clause.next? keyword taken line = some (clause, t)) :
    t.FitFor extra := by
  unfold Clause.next? at h
  split at h
  · cases h
  · obtain ⟨clause', -, hf⟩ := List.exists_of_findSome?_eq_some h
    obtain ⟨⟨lead, word, rest⟩, hd, hp⟩ := Option.map_eq_some_iff.1 hf
    cases hp
    exact fit_of_dashWord? hline hd

end Clause

/-! ## Blocks of raw lines -/

/-- The line `next` is the first of the lines that is not blank, and `cur` stands behind it; or
there is none, and `next` is empty. -/
inductive Line.Settled : List Text → Line → Cursor → Prop
  | ended {next : Line} (hbody : next.body = []) (n : Nat) : Settled [] next ⟨[], n⟩
  | stop {raw : Text} (rest : List Text) (hbody : (Line.ofRaw raw).body ≠ []) (n : Nat) :
      Settled (raw :: rest) (.ofRaw raw) ⟨rest, n⟩
  | blank {raw : Text} {rest : List Text} {next : Line} {cur : Cursor}
      (hbody : (Line.ofRaw raw).body = []) (h : Settled rest next cur) :
      Settled (raw :: rest) next cur

/-- The first of the lines that is not blank stands at the margin, and is no clause. -/
def FreshLines (lines : List Text) : Prop :=
  ∀ next cur, Line.Settled lines next cur → next.body ≠ [] →
    next.indent = 0 ∧ ∀ keyword taken, Clause.next? keyword taken next.body = none

/-- No lines at all count as fresh. -/
theorem freshLines_nil : FreshLines [] := by
  intro next cur h hbody
  cases h with
  | ended hnil => exact absurd hnil hbody

/-- A block above a line at the margin is made of blank lines. -/
theorem blockOver_settled (level : Nat) {lines : List Text}
    (hmargin : ∀ next cur, Line.Settled lines next cur → next.body ≠ [] → next.indent = 0)
    (n : Nat) :
    (∀ raw ∈ (blockOver level lines n).1, (Line.ofRaw raw).body = []) ∧
      (blockOver level lines n).2.1.Settled lines (blockOver level lines n).2.2 := by
  induction lines generalizing n with
  | nil => exact ⟨List.forall_mem_nil _, .ended rfl n⟩
  | cons raw lines ih =>
    by_cases hbody : (Line.ofRaw raw).body = []
    · have hgo : ¬ ((Line.ofRaw raw).body ≠ [] ∧ (Line.ofRaw raw).indent ≤ level) :=
        fun h => h.1 hbody
      obtain ⟨hblank, hsettled⟩ :=
        ih (fun next cur hs => hmargin next cur (.blank hbody hs)) (n + 1)
      simp only [blockOver, if_neg hgo]
      exact ⟨List.forall_mem_cons.2 ⟨hbody, hblank⟩, .blank hbody hsettled⟩
    · have hindent := hmargin _ _ (.stop lines hbody n) hbody
      have hstop : (Line.ofRaw raw).body ≠ [] ∧ (Line.ofRaw raw).indent ≤ level :=
        ⟨hbody, hindent ▸ Nat.zero_le level⟩
      simp only [blockOver, if_pos hstop]
      exact ⟨List.forall_mem_nil _, .stop lines hbody (n + 1)⟩

/-- A block stops at the same line with fresh lines added; or it runs to the end, and takes blank
lines up to the line that settles. -/
theorem blockOver_append (level : Nat) (hfresh : FreshLines extra) {ahead block : List Text}
    {n : Nat} {next : Line} (m : Nat) (h : blockOver level ahead n = (block, next, cur)) :
    (∃ k, blockOver level (ahead ++ extra) m = (block, next, ⟨cur.ahead ++ extra, k⟩)) ∨
      next = .none ∧ cur.ahead = [] ∧ ∃ blanks nextₑ curₑ,
        (∀ raw ∈ blanks, (Line.ofRaw raw).body = []) ∧ nextₑ.Settled extra curₑ ∧
          blockOver level (ahead ++ extra) m = (block ++ blanks, nextₑ, curₑ) := by
  induction ahead generalizing block n m with
  | nil =>
    cases h
    obtain ⟨hblank, hsettled⟩ :=
      blockOver_settled level (fun next cur hs hbody => (hfresh next cur hs hbody).1) m
    exact .inr ⟨rfl, rfl, _, _, _, hblank, hsettled, rfl⟩
  | cons raw ahead ih =>
    by_cases hstop : (Line.ofRaw raw).body ≠ [] ∧ (Line.ofRaw raw).indent ≤ level
    · simp only [blockOver, if_pos hstop] at h
      cases h
      left
      refine ⟨m + 1, ?_⟩
      simp only [List.cons_append, blockOver, if_pos hstop]
    · simp only [blockOver, if_neg hstop] at h
      cases h
      simp only [List.cons_append, blockOver, if_neg hstop]
      rcases ih (m + 1) rfl with ⟨k, hk⟩ | ⟨hnone, hnil, blanks, nextₑ, curₑ, hblank, hs, hb⟩
      · left
        refine ⟨k, ?_⟩
        rw [hk]
      · right
        refine ⟨hnone, hnil, blanks, nextₑ, curₑ, hblank, hs, ?_⟩
        rw [hb]

/-- Pulling a block, with fresh lines added. -/
theorem rawBlock_append {level : Nat} (hfresh : FreshLines extra) (he : cur.Extends extra curₑ)
    {block : List Text} {next : Line} (h : rawBlock level cur = (.ok (block, next), cur')) :
    (∃ curₑ', cur'.Extends extra curₑ' ∧ rawBlock level curₑ = (.ok (block, next), curₑ')) ∨
      next = .none ∧ cur'.ahead = [] ∧ ∃ blanks nextₑ curₑ',
        (∀ raw ∈ blanks, (Line.ofRaw raw).body = []) ∧ nextₑ.Settled extra curₑ' ∧
          rawBlock level curₑ = (.ok (block ++ blanks, nextₑ), curₑ') := by
  have hreach := (forward_rawBlock level).reaches h
  cases h
  unfold rawBlock
  rw [he.ahead]
  rcases blockOver_append level hfresh curₑ.number rfl with
    ⟨k, hk⟩ | ⟨hnone, hnil, blanks, nextₑ, curₑ', hblank, hs, hb⟩
  · left
    refine ⟨_, he.of_reaches hreach k, ?_⟩
    rw [hk]
  · right
    refine ⟨hnone, hnil, blanks, nextₑ, curₑ', hblank, hs, ?_⟩
    rw [hb]

/-! ## The text of a block -/

/-- Blanks at the end of a text are trimmed with the others. -/
theorem Text.trimEnd_append_blank (t : Text) {u : Text} (hu : ∀ c ∈ u, isBlank c = true) :
    Text.trimEnd (t ++ u) = Text.trimEnd t := by
  unfold Text.trimEnd
  rw [List.reverse_append, List.dropWhile_append_of_pos]
  intro c hc
  exact hu c (List.mem_reverse.1 hc)

/-- Blank lines at the end of a block stay as empty lines. -/
theorem alignLines_append_blank (margin : Option Nat) (block : List Text) {blanks : List Text}
    (hblank : ∀ raw ∈ blanks, (Line.ofRaw raw).body = []) :
    ∃ u, alignLines margin (block ++ blanks) = alignLines margin block ++ u ∧
      ∀ c ∈ u, isBlank c = true := by
  induction block generalizing margin with
  | nil =>
    induction blanks with
    | nil => exact ⟨[], rfl, List.forall_mem_nil _⟩
    | cons raw blanks ih =>
      obtain ⟨hraw, hrest⟩ := List.forall_mem_cons.1 hblank
      obtain ⟨u, hu, hall⟩ := ih hrest
      refine ⟨'\n' :: u, ?_, List.forall_mem_cons.2 ⟨by decide, hall⟩⟩
      simp only [List.nil_append] at hu
      simp only [List.nil_append, alignLines, hraw, List.isEmpty_nil, if_true, hu]
  | cons raw block ih =>
    by_cases hbody : (Line.ofRaw raw).body.isEmpty = true
    · obtain ⟨u, hu, hall⟩ := ih margin
      refine ⟨u, ?_, hall⟩
      simp only [List.cons_append, alignLines, if_pos hbody, hu]
    · obtain ⟨u, hu, hall⟩ :=
        ih (some ((margin.map (min (Line.ofRaw raw).indent)).getD (Line.ofRaw raw).indent))
      refine ⟨u, ?_, hall⟩
      simp only [List.cons_append, alignLines, if_neg hbody, hu, List.append_assoc]

/-- The text of a literal block, before its markup is rendered. -/
def literalText (headline : Text) (block : List Text) : Text :=
  let first := Text.trim (headline.drop 1)
  let aligned := alignLines .none block
  let text := Text.trimEnd (if first.isEmpty then aligned else first ++ '\n' :: aligned)
  if headline.head? = some ',' then text ++ [' '] else text

/-- Blank lines at the end of a literal block add nothing to its text. -/
theorem literalText_append_blank (headline : Text) (block : List Text) {blanks : List Text}
    (hblank : ∀ raw ∈ blanks, (Line.ofRaw raw).body = []) :
    literalText headline (block ++ blanks) = literalText headline block := by
  obtain ⟨u, hu, hall⟩ := alignLines_append_blank .none block hblank
  have htext (first : Text) :
      Text.trimEnd (if first.isEmpty then alignLines .none (block ++ blanks)
        else first ++ '\n' :: alignLines .none (block ++ blanks)) =
      Text.trimEnd (if first.isEmpty then alignLines .none block
        else first ++ '\n' :: alignLines .none block) := by
    rw [hu]
    split
    · exact Text.trimEnd_append_blank _ hall
    · rw [← List.cons_append, ← List.append_assoc]
      exact Text.trimEnd_append_blank _ hall
  simp only [literalText, htext]

/-- A literal block is a block and its text, with the markup rendered if that is asked for. -/
theorem literalBlock_eq_ok_iff {s : Setting} {level : Nat} {headline written : Text}
    {embedded : Bool} {next : Line} :
    literalBlock s level headline embedded cur = (.ok (written, next), cur') ↔
      ∃ block, rawBlock level cur = (.ok (block, next), cur') ∧
        if embedded then ∃ n, renderSpans s.embedded n (literalText headline block) = .ok written
        else literalText headline block = written := by
  constructor
  · intro h
    obtain ⟨n, cur₁, hn, h₁⟩ := Scan.bind_eq_ok_iff.1 h
    cases hn
    obtain ⟨⟨block, stop⟩, cur₂, hb, h₂⟩ := Scan.bind_eq_ok_iff.1 h₁
    cases embedded with
    | false =>
      cases h₂
      exact ⟨block, hb, rfl⟩
    | true =>
      obtain ⟨rendered, cur₃, hr, h₃⟩ := Scan.bind_eq_ok_iff.1 h₂
      cases h₃
      obtain ⟨hrendered, rfl⟩ := Scan.ofExcept_eq_ok_iff.1 hr
      exact ⟨block, hb, _, hrendered⟩
  · rintro ⟨block, hb, hwritten⟩
    refine Scan.bind_eq_ok_iff.2 ⟨cur.number, cur, rfl, ?_⟩
    refine Scan.bind_eq_ok_iff.2 ⟨(block, next), cur', hb, ?_⟩
    cases embedded with
    | false =>
      cases hwritten
      rfl
    | true =>
      obtain ⟨n, hr⟩ := hwritten
      refine Scan.bind_eq_ok_iff.2 ⟨written, cur', Scan.ofExcept_eq_ok_iff.2 ⟨?_, rfl⟩, rfl⟩
      exact renderSpans_number _ hr

/-! ## Readings that settle -/

/-- The first outcome comes to the end of the lines. The second is the same but for the line at
hand, which is the one that settles. -/
def Outcome.Settles (extra : List Text) (leaf : β → Line → α) (r rₑ : Outcome α) : Prop :=
  ∃ b cur next curₑ, r = (.ok (leaf b .none), cur) ∧ cur.ahead = [] ∧
    rₑ = (.ok (leaf b next), curₑ) ∧ next.Settled extra curₑ

namespace Scan

/-- The scan gives the same with lines added, or it comes to the end of the lines and settles. -/
def Settles (extra : List Text) (leaf : β → Line → α) (x : Scan α) : Prop :=
  ∀ cur curₑ : Cursor, cur.Extends extra curₑ →
    Outcome.Carries extra (x cur) (x curₑ) ∨ Outcome.Settles extra leaf (x cur) (x curₑ)

variable {leaf : β → Line → α}

/-- A scan that carries over settles. -/
theorem Carries.settles {x : Scan α} (hx : Carries extra x) : Settles extra leaf x :=
  fun cur curₑ he => .inl (hx cur curₑ he)

/-- A scan that carries over can come first. -/
theorem Carries.bind_settles {x : Scan γ} {f : γ → Scan α} (hx : Carries extra x)
    (hf : ∀ a, Settles extra leaf (f a)) : Settles extra leaf (x >>= f) := by
  intro cur curₑ he
  rw [bind_apply, bind_apply]
  cases hxa : x cur with
  | mk r cur₁ =>
    cases r with
    | error e => exact .inl Outcome.carries_error
    | ok a =>
      obtain ⟨curₑ₁, he₁, hxaₑ⟩ := hx cur curₑ he a cur₁ hxa
      simp only [hxaₑ]
      exact hf a cur₁ curₑ₁ he₁

/-- What is made of a text and the line at hand settles if these do. -/
theorem Settles.bind_leaf {x : Scan (γ × Line)} {f : γ × Line → Scan α}
    (hx : Settles extra Prod.mk x) (hf : ∀ a, ∃ b, ∀ next, f (a, next) = pure (leaf b next)) :
    Settles extra leaf (x >>= f) := by
  intro cur curₑ he
  rcases hx cur curₑ he with hcarries | ⟨a, cur₁, next, curₑ₁, hr, hnil, hrₑ, hs⟩
  · left
    intro c cur₂ h
    obtain ⟨⟨a, next⟩, cur₁, ha, h₁⟩ := bind_eq_ok_iff.1 h
    obtain ⟨curₑ₁, he₁, haₑ⟩ := hcarries _ cur₁ ha
    obtain ⟨b, hb⟩ := hf a
    rw [hb] at h₁
    cases h₁
    refine ⟨curₑ₁, he₁, bind_eq_ok_iff.2 ⟨_, curₑ₁, haₑ, ?_⟩⟩
    rw [hb]
    rfl
  · right
    obtain ⟨b, hb⟩ := hf a
    refine ⟨b, cur₁, next, curₑ₁, ?_, hnil, ?_, hs⟩
    · rw [bind_apply, hr]
      simp only [hb]
      rfl
    · rw [bind_apply, hrₑ]
      simp only [hb]
      rfl

/-- What is made of a block settles if blank lines at its end make no difference. -/
theorem settles_rawBlock (hfresh : FreshLines extra) (level : Nat)
    {f : List Text × Line → Scan α}
    (hf : ∀ block, ∃ b, ∀ next, f (block, next) = pure (leaf b next))
    (hblanks : ∀ block blanks next, (∀ raw ∈ blanks, (Line.ofRaw raw).body = []) →
      f (block ++ blanks, next) = f (block, next)) :
    Settles extra leaf (rawBlock level >>= f) := by
  intro cur curₑ he
  obtain ⟨⟨block, next⟩, cur', hb⟩ : ∃ a cur', rawBlock level cur = (.ok a, cur') := ⟨_, _, rfl⟩
  obtain ⟨b, hleaf⟩ := hf block
  have hrun : (rawBlock level >>= f) cur = (.ok (leaf b next), cur') := by
    rw [bind_apply, hb]
    simp only [hleaf]
    rfl
  rcases rawBlock_append hfresh he hb with
    ⟨curₑ', he', hbₑ⟩ | ⟨rfl, hnil, blanks, nextₑ, curₑ', hblank, hs, hbₑ⟩
  · left
    rw [hrun, bind_apply, hbₑ]
    simp only [hleaf]
    exact Outcome.carries_ok he'
  · right
    refine ⟨b, cur', nextₑ, curₑ', hrun, hnil, ?_, hs⟩
    rw [bind_apply, hbₑ]
    simp only [hblanks block blanks nextₑ hblank, hleaf]
    rfl

/-- A literal block settles: it takes added blank lines, which are trimmed, and stops at the first
other line. -/
theorem settles_literalBlock (hfresh : FreshLines extra) (s : Setting) (level : Nat)
    (headline : Text) (embedded : Bool) :
    Settles extra Prod.mk (literalBlock s level headline embedded) := by
  intro cur curₑ he
  cases hl : literalBlock s level headline embedded cur with
  | mk r cur' =>
    cases r with
    | error e => exact .inl Outcome.carries_error
    | ok found =>
      obtain ⟨written, next⟩ := found
      obtain ⟨block, hb, hwritten⟩ := literalBlock_eq_ok_iff.1 hl
      rcases rawBlock_append hfresh he hb with
        ⟨curₑ', he', hbₑ⟩ | ⟨rfl, hnil, blanks, nextₑ, curₑ', hblank, hs, hbₑ⟩
      · left
        rw [literalBlock_eq_ok_iff.2 ⟨block, hbₑ, hwritten⟩]
        exact Outcome.carries_ok he'
      · right
        refine ⟨written, cur', nextₑ, curₑ', rfl, hnil, ?_, hs⟩
        refine literalBlock_eq_ok_iff.2 ⟨block ++ blanks, hbₑ, ?_⟩
        rwa [literalText_append_blank headline block hblank]

end Scan

/-! ## Openings -/

section

variable {s : Setting} {level : Nat} {line : Text}

/-- An element opens the same with lines added. -/
theorem carries_openElement (s : Setting) (disguise : Option Disguise)
    (hline : line.FitFor extra) : Scan.Carries extra (openElement s disguise line) := by
  refine (Element.carries_read s disguise hline.trim).bind fun e _ _ _ _ _ => ?_
  split <;> exact Scan.carries_pure _

/-- An element that is copied as it is settles, as its block does. -/
theorem settles_openVerbatim (hfresh : FreshLines extra) (s : Setting) (level : Nat)
    (hline : line.FitFor extra) : Scan.Settles extra .leaf (openVerbatim s level line) := by
  refine (Element.carries_read s none hline.trim).bind_settles fun e => ?_
  exact (Scan.settles_literalBlock hfresh _ _ _ _).bind_leaf fun body => ⟨_, fun _ => rfl⟩

/-- Blank lines add nothing to a value. -/
theorem flatten_bodies_of_blank {blanks : List Text}
    (hblank : ∀ raw ∈ blanks, (Line.ofRaw raw).body = []) :
    (blanks.map fun raw => (Line.ofRaw raw).body.trim).flatten = [] := by
  refine List.flatten_eq_nil_iff.2 fun t ht => ?_
  obtain ⟨raw, hraw, rfl⟩ := List.mem_map.1 ht
  rw [hblank raw hraw]
  rfl

/-- A value settles, as the lines that it goes on over do. -/
theorem settles_openValue (hfresh : FreshLines extra) (s : Setting) (level : Nat)
    (unescaped spaced : Bool) (expr : Text) :
    Scan.Settles extra .leaf (openValue s level unescaped spaced expr) := by
  refine Scan.settles_rawBlock hfresh level (fun block => ⟨_, fun _ => rfl⟩) ?_
  intro block blanks next hblank
  simp only [List.map_append, List.flatten_append, flatten_bodies_of_blank hblank,
    List.append_nil]

/-- A block in another markup language settles. -/
theorem settles_openMarkup (hfresh : FreshLines extra) (s : Setting) (level : Nat)
    (language : Text) : Scan.Settles extra .leaf (openMarkup s level language) := by
  unfold openMarkup
  split
  · exact (Scan.carries_failAt _).settles
  · exact (Scan.settles_literalBlock hfresh _ _ _ _).bind_leaf fun body => ⟨_, fun _ => rfl⟩

/-- Code settles, as its block does. -/
theorem settles_openCode (hfresh : FreshLines extra) (s : Setting) (level : Nat)
    (moduleLevel : Bool) (expr : Option Text) :
    Scan.Settles extra .leaf (openCode s level moduleLevel expr) := by
  refine (Scan.settles_literalBlock hfresh _ _ _ _).bind_leaf fun body => ?_
  simp only
  split <;> exact ⟨_, fun _ => rfl⟩

/-- Code behind a fence settles, as its block does. -/
theorem settles_openFencedCode (hfresh : FreshLines extra) (s : Setting) (level : Nat)
    (moduleLevel : Bool) (expr : Option Text) :
    Scan.Settles extra .leaf (openFencedCode s level moduleLevel expr) := by
  cases expr with
  | none => exact settles_openCode hfresh _ _ _ _
  | some t =>
    exact Scan.Carries.bind_settles (carries_token? _ _ _ t) fun _ =>
      settles_openCode hfresh _ _ _ _

/-- A named piece of template opens the same with lines added. -/
theorem carries_openDefinition (s : Setting) (hline : line.FitFor extra) :
    Scan.Carries extra (openDefinition s line) :=
  (Element.carries_read s none hline).bind fun _ _ _ _ _ _ => Scan.carries_pure _

/-- A tag without content opens the same with lines added. -/
theorem carries_openDirective (s : Setting) (level : Nat) (hline : line.FitFor extra) :
    Scan.Carries extra (openDirective s level line) :=
  (Element.carries_read s none hline).bind fun _ _ _ _ _ _ => Scan.carries_pure _

/-- Content that is kept from the template engine settles, as its block does. -/
theorem settles_openShielded (hfresh : FreshLines extra) (s : Setting) (level : Nat)
    (hline : line.FitFor extra) : Scan.Settles extra .leaf (openShielded s level line) := by
  refine (Element.carries_read s none hline).bind_settles fun e => ?_
  exact (Scan.settles_literalBlock hfresh _ _ _ _).bind_leaf fun body => ⟨_, fun _ => rfl⟩

/-- A call opens the same with lines added. -/
theorem carries_openCall (s : Setting) (headline : Text) (hline : line.FitFor extra) :
    Scan.Carries extra (openCall s headline line) := by
  refine (Element.carries_read s none hline).bind fun e _ _ _ _ _ => ?_
  simp only
  split
  · exact Scan.carries_failAt _
  · exact Scan.carries_pure _

end

/-! ## All headlines -/

namespace Headline

/-- A tag of the template engine with what follows it on its line. -/
theorem fit_tagged {line lead word rest : Text} (hline : line.FitFor extra)
    (heq : line = lead ++ (word ++ rest)) (hword : word ∈ taggedWords.map String.toList) :
    Text.FitFor extra (word ++ Rule.spacedRest rest) := by
  have hsuffix : word ++ rest <:+ line := heq ▸ List.suffix_append lead _
  exact (hline.of_suffix hsuffix).imp_right (tidy_spacedRest hword)

/-- A headline that lies in its line is read in the same way with fresh lines added, or it runs to
the end of the lines and settles. -/
theorem settles_opening (hfresh : FreshLines extra) (s : Setting) (level : Nat) {line : Text}
    {headline : Headline} (hseen : headline.SeenIn line) (hline : line.FitFor extra) :
    Scan.Settles extra .leaf (headline.opening s level line) := by
  cases headline with
  | verbatimElement => exact settles_openVerbatim hfresh _ _ hline
  | doctype name => exact (Scan.carries_pure _).settles
  | scriptTemplate => exact (carries_openElement _ _ hline).settles
  | element => exact (carries_openElement _ _ hline).settles
  | literal text =>
    exact (Scan.settles_literalBlock hfresh _ _ _ _).bind_leaf fun body => ⟨_, fun _ => rfl⟩
  | html => exact (Scan.carries_pure _).settles
  | value unescaped spaced expr => exact settles_openValue hfresh _ _ _ _ _
  | comment =>
    exact Scan.settles_rawBlock hfresh level (fun _ => ⟨[], fun _ => rfl⟩) fun _ _ _ _ => rfl
  | statement keyword expr =>
    obtain ⟨lead, rest, hd, rfl⟩ := hseen
    exact (carries_openStatement _ _ (fit_of_dashWord? hline hd)).settles
  | negated keyword expr =>
    obtain ⟨-, lead, word, rest, hd, rfl⟩ := hseen
    exact (carries_openNegated _ _ (fit_of_dashWord? hline hd)).settles
  | fencedCode moduleLevel expr => exact settles_openFencedCode hfresh _ _ _ _
  | code moduleLevel expr => exact settles_openCode hfresh _ _ _ _
  | definition t =>
    obtain ⟨lead, word, rest, heq, hword, rfl⟩ := hseen
    exact (carries_openDefinition _ (fit_tagged hline heq hword)).settles
  | directive t =>
    obtain ⟨lead, word, rest, heq, hword, rfl⟩ := hseen
    exact (carries_openDirective _ _ (fit_tagged hline heq hword)).settles
  | shielded t =>
    obtain ⟨lead, word, rest, heq, hword, rfl⟩ := hseen
    exact settles_openShielded hfresh _ _ (fit_tagged hline heq hword)
  | call t =>
    obtain ⟨lead, word, rest, heq, hword, rfl⟩ := hseen
    exact (carries_openCall _ _ (fit_tagged hline heq hword)).settles
  | jump keyword => exact (Scan.carries_pure _).settles
  | markup language => exact settles_openMarkup hfresh _ _ _
  | custom read => exact hseen.elim

end Headline

/-! ## What an opening goes on with -/

/-- A line that is handed back is a line pulled, so it is fit. -/
theorem Line.HandedBack.fit {next : Line} {level : Nat} (h : next.HandedBack level cur cur')
    (he : cur.Extends extra curₑ) : next.body.FitFor extra := by
  by_cases hbody : next.body = []
  · rw [hbody]
    exact .inr Text.tidy_nil
  · obtain ⟨lines, raw, ⟨hahead, -⟩, rfl⟩ := h.2 hbody
    have hraw : raw ∈ cur.ahead := by
      rw [hahead]
      simp
    exact (he.fit raw hraw).imp_right Text.Tidy.ofRaw

/-- Whatever result the scan has, it satisfies `P`. -/
def Scan.Ensures (P : α → Prop) (x : Scan α) : Prop :=
  ∀ cur a cur', x cur = (.ok a, cur') → P a

theorem Scan.ensures_pure {P : α → Prop} {a : α} (ha : P a) : Scan.Ensures P (pure a) := by
  intro cur b cur' h
  cases h
  exact ha

theorem Scan.ensures_fail {P : α → Prop} {e : Diagnostic} : Scan.Ensures P (fail e) := by
  intro cur a cur' h
  cases h

/-- What the last of two scans ensures, both together do. -/
theorem Scan.Ensures.bind {P : α → Prop} {x : Scan β} {f : β → Scan α}
    (hf : ∀ b, Scan.Ensures P (f b)) : Scan.Ensures P (x >>= f) := by
  intro cur a cur'' h
  obtain ⟨b, cur', -, hb⟩ := Scan.bind_eq_ok_iff.1 h
  exact hf b cur' a cur'' hb

/-- Nothing of the headline is left to go on with. -/
def Opening.UsesLine : Opening → Prop
  | leaf _ _ | block _ _ => True
  | inline _ _ _ | statement _ _ _ => False

section

open Scan (ensures_pure ensures_fail Ensures)

variable {s : Setting} {level : Nat} {line : Text}

/-- Code uses up its headline. -/
theorem usesLine_openCode (s : Setting) (level : Nat) (moduleLevel : Bool) (expr : Option Text) :
    Ensures Opening.UsesLine (openCode s level moduleLevel expr) := by
  refine .bind fun ⟨body, next⟩ => ?_
  simp only
  split <;> exact ensures_pure trivial

/-- A block in another markup language uses up its headline. -/
theorem usesLine_openMarkup (s : Setting) (level : Nat) (language : Text) :
    Ensures Opening.UsesLine (openMarkup s level language) := by
  unfold openMarkup
  split
  · exact .bind fun _ => ensures_fail
  · exact .bind fun _ => ensures_pure trivial

/-- A call uses up its headline. -/
theorem usesLine_openCall (s : Setting) (headline line : Text) :
    Ensures Opening.UsesLine (openCall s headline line) := by
  refine .bind fun e => ?_
  simp only
  split
  · exact .bind fun _ => ensures_fail
  · exact ensures_pure trivial

/-- An element leaves a fit line. -/
theorem fit_of_openElement {disguise : Option Disguise} {opening : Opening}
    (hline : line.FitFor extra) (he : cur.Extends extra curₑ)
    (h : openElement s disguise line cur = (.ok opening, cur')) :
    (opening.line level).body.FitFor extra := by
  obtain ⟨e, cur₁, hread, h₁⟩ := Scan.bind_eq_ok_iff.1 h
  have hrest := Element.fit_of_read hline.trim he hread
  split at h₁
  · cases h₁
    exact .inr Text.tidy_nil
  · cases h₁
    exact hrest

/-- A headline leaves nothing of its line, or it is an element or a statement. -/
theorem Headline.usesLine_or {headline : Headline} (hseen : headline.SeenIn line) (s : Setting)
    (level : Nat) :
    Ensures Opening.UsesLine (headline.opening s level line) ∨
      (∃ disguise, headline.opening s level line = openElement s disguise line) ∨
      ∃ keyword words lead word rest,
        Rule.dashWord? words line = some (lead, word, rest) ∧
        (headline.opening s level line = openStatement s.delimiters keyword rest.firstLine ∨
          headline.opening s level line = openNegated s.delimiters keyword rest.firstLine) := by
  cases headline with
  | scriptTemplate => exact .inr (.inl ⟨_, rfl⟩)
  | element => exact .inr (.inl ⟨_, rfl⟩)
  | statement keyword expr =>
    obtain ⟨lead, rest, hd, rfl⟩ := hseen
    exact .inr (.inr ⟨_, _, _, _, _, hd, .inl rfl⟩)
  | negated keyword expr =>
    obtain ⟨-, lead, word, rest, hd, rfl⟩ := hseen
    exact .inr (.inr ⟨_, _, _, _, _, hd, .inr rfl⟩)
  | doctype name => exact .inl (ensures_pure trivial)
  | html => exact .inl (ensures_pure trivial)
  | jump keyword => exact .inl (ensures_pure trivial)
  | literal text => exact .inl (.bind fun _ => ensures_pure trivial)
  | value unescaped spaced expr => exact .inl (.bind fun _ => ensures_pure trivial)
  | comment => exact .inl (.bind fun _ => ensures_pure trivial)
  | definition t => exact .inl (.bind fun _ => ensures_pure trivial)
  | directive t => exact .inl (.bind fun _ => ensures_pure trivial)
  | verbatimElement => exact .inl (.bind fun _ => .bind fun _ => ensures_pure trivial)
  | shielded t => exact .inl (.bind fun _ => .bind fun _ => ensures_pure trivial)
  | fencedCode moduleLevel expr =>
    cases expr with
    | none => exact .inl (usesLine_openCode _ _ _ _)
    | some t => exact .inl (.bind fun _ => usesLine_openCode _ _ _ _)
  | code moduleLevel expr => exact .inl (usesLine_openCode _ _ _ _)
  | call t => exact .inl (usesLine_openCall _ _ _)
  | markup language => exact .inl (usesLine_openMarkup _ _ _)
  | custom read => exact hseen.elim

/-- The line at hand after a headline is fit if the headline and the lines to come are. -/
theorem Headline.fit_of_opening {headline : Headline} {opening : Opening}
    (hseen : headline.SeenIn line) (hline : line.FitFor extra) (he : cur.Extends extra curₑ)
    (h : headline.opening s level line cur = (.ok opening, cur')) :
    (opening.line level).body.FitFor extra := by
  have hleft := Headline.opening_leftOver hseen h
  rcases Headline.usesLine_or hseen s level with huses | ⟨disguise, heq⟩ |
      ⟨keyword, words, lead, word, rest, hd, heq | heq⟩
  · have huses := huses _ _ _ h
    cases opening with
    | leaf written next => exact Line.HandedBack.fit hleft he
    | block written close => exact .inr Text.tidy_nil
    | inline written close rest => exact huses.elim
    | statement written keyword rest => exact huses.elim
  · exact fit_of_openElement hline he (heq ▸ h)
  · exact fit_of_openStatement (fit_of_dashWord? hline hd) he (heq ▸ h)
  · exact fit_of_openNegated (fit_of_dashWord? hline hd) he (heq ▸ h)

end

end TerseMarkup
