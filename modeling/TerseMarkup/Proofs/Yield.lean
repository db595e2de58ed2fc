import TerseMarkup.Proofs.Moves
import TerseMarkup.Proofs.Settling

/-!
# What a reading can go on with

What is read on after a headline is the end of a line (`Place.Leads`), or it is cut out of an
expression that was put together from several lines. Either way it is made of what was there: no
character turns up more often than before, apart from the few that readings put in themselves
(`Place.glue`), and it is still one line. `Place.Yields` says this of two places of a reading.

* `expression_yields`: an expression is made of the lines that it was read from.
* `literalText_count_le`: so is the text of a literal block.
* `Headline.opening_yields`: so is what a headline goes on with, and a clause
  (`Clause.read_yields`).
* `Outline.Moves.yields`: so is every line that is ever at hand.
-/

namespace TerseMarkup

open Place (Leads)

/-! ## Places -/

/-- A text without line feeds is one line. -/
theorem Text.oneLine_of_not_mem {t : Text} (h : '\n' ∉ t) : t.OneLine := by
  intro front back heq
  refine absurd ?_ h
  rw [heq]
  exact List.mem_append_right front List.mem_cons_self

/-- A text without line feeds in front of one line makes one line. -/
theorem Text.OneLine.append {t x : Text} (hx : '\n' ∉ x) (ht : t.OneLine) :
    Text.OneLine (x ++ t) := by
  intro front back heq
  rcases append_eq_append_cons heq with ⟨front', ht'⟩ | ⟨mid, hmid, -⟩
  · exact ht front' back ht'
  · refine absurd ?_ hx
    rw [hmid]
    exact List.mem_append_right front List.mem_cons_self

namespace Place

/-- How often a character stands in the text at hand and in the lines still to come. -/
def count (place : Place) (c : Char) : Nat :=
  place.text.count c + place.cursor.ahead.flatten.count c

/-- The text at hand is one line, and so is every line still to come. -/
structure OneLine (place : Place) : Prop where
  text : place.text.OneLine
  ahead : ∀ raw ∈ place.cursor.ahead, raw.OneLine

/-- The characters that a reading may put in: a space for a continuation, a line feed behind an
expression, and the words of a negation. -/
def glue : Text :=
  "\n not ()".toList

/-- A reading can go on at `b` after it was at `a`: what is there is made of what was there. -/
structure Yields (a b : Place) : Prop where
  /-- The cursor has not moved back. -/
  reaches : a.cursor.Reaches b.cursor
  /-- No character is there more often than before. -/
  count_le : ∀ c, c ∉ glue → b.count c ≤ a.count c
  /-- The text at hand is still one line. -/
  oneLine : a.OneLine → b.text.OneLine

variable {a b c : Place} {cur cur' : Cursor}

/-- A place that yields single lines goes on with single lines. -/
theorem OneLine.of_yields (ha : a.OneLine) (h : a.Yields b) : b.OneLine :=
  ⟨h.oneLine ha, fun raw hraw => ha.ahead raw (h.reaches.mem_ahead hraw)⟩

/-- A reading can go on where it is. -/
theorem Yields.refl (a : Place) : a.Yields a :=
  ⟨.refl _, fun _ _ => Nat.le_refl _, fun ha => ha.text⟩

/-- What is made of something that is made of a text is made of it. -/
theorem Yields.trans (h : a.Yields b) (h' : b.Yields c) : a.Yields c :=
  ⟨h.reaches.trans h'.reaches,
    fun x hx => Nat.le_trans (h'.count_le x hx) (h.count_le x hx),
    fun ha => h'.oneLine (ha.of_yields h)⟩

/-- What stands at the end of a line has no character more often. -/
theorem Leads.count_le (h : a.Leads b) (x : Char) : b.count x ≤ a.count x := by
  obtain ⟨lines, hpulled, htext⟩ := h
  unfold count
  rw [hpulled.ahead, List.flatten_append, List.count_append]
  rcases htext with hs | ⟨raw, hraw, hs⟩
  · have hle := hs.sublist.count_le x
    omega
  · have hle := (hs.sublist.trans (List.sublist_flatten_of_mem hraw)).count_le x
    omega

/-- What stands at the end of a line is made of it. -/
theorem Leads.yields (h : a.Leads b) : a.Yields b :=
  ⟨h.reaches, fun x _ => h.count_le x,
    fun ha => h.carries (fun hs ht => ht.of_isInfix hs.isInfix) ha.text ha.ahead⟩

/-- A piece of a text is made of it. -/
theorem yields_of_isInfix (cur : Cursor) {t u : Text} (h : u <:+: t) : Yields ⟨t, cur⟩ ⟨u, cur⟩ :=
  ⟨.refl _, fun x _ => Nat.add_le_add_right (h.sublist.count_le x) _,
    fun ha => ha.text.of_isInfix h⟩

/-- A reading can always go on with nothing. -/
theorem yields_nil (h : a.cursor.Reaches cur) : a.Yields ⟨[], cur⟩ := by
  have hleads : Leads a ⟨a.text, cur⟩ := leads_of_reaches a.text h
  exact hleads.yields.trans (yields_of_isInfix cur (List.nil_infix))

/-- A line that is pulled last is made of the lines that were to come. -/
theorem yields_of_pulled (t : Text) {lines : List Text} {raw u : Text}
    (h : cur.Pulled (lines ++ [raw]) cur') (hu : u <:+: raw) : Yields ⟨t, cur⟩ ⟨u, cur'⟩ := by
  have hleads : Leads ⟨t, cur⟩ ⟨raw, cur'⟩ :=
    ⟨_, h, .inr ⟨raw, List.mem_append_right lines (List.mem_singleton_self raw),
      List.suffix_refl raw⟩⟩
  exact hleads.yields.trans (yields_of_isInfix cur' hu)

end Place

open Place (Yields yields_of_isInfix yields_nil yields_of_pulled)

/-! ## Expressions -/

variable {t rest : Text} {cur cur' : Cursor}

/-- A group is made of the text behind its opening mark and of the lines pulled for it, each
character used once. -/
theorem Nesting.close_count_le {n : Nesting} {depth : Nat} {read tail g rest : Text}
    {cur cur' : Cursor} (h : n.close depth read tail cur = (.ok (g, rest), cur')) (x : Char) :
    g.count x + Place.count ⟨rest, cur'⟩ x ≤ read.count x + Place.count ⟨tail, cur⟩ x := by
  fun_induction n.close depth read tail cur with
  | case1 depth read tail cur mark r hm ih =>
    have hle := ih h
    have htail := eq_append_of_mark? hm
    simp only [Place.count, htail, List.count_append] at hle ⊢
    omega
  | case2 depth read tail cur mark r hm hd =>
    cases h
    have htail := eq_append_of_mark? hm
    simp only [Place.count, htail, List.count_append]
    omega
  | case3 depth read tail cur mark r hm hd ih =>
    have hle := ih h
    have htail := eq_append_of_mark? hm
    simp only [Place.count, htail, List.count_append] at hle ⊢
    omega
  | case4 => cases h
  | case5 depth read tail cur hm hend raw cur₁ hn ih =>
    -- The end of the line is dropped, and the next line takes its place.
    have hle := ih h
    have hleads := Place.leads_of_next? tail hn (Text.trimStart_suffix raw)
    have hpull := hleads.count_le x
    omega
  | case6 depth read tail cur hm hend literal r hq ih =>
    have hle := ih h
    have htail := Text.eq_append_of_quoted? hq
    simp only [Place.count, htail, List.count_append] at hle ⊢
    omega
  | case7 => cases h
  | case8 depth read cur c r hm hend hq ih =>
    have hle := ih h
    simp only [Place.count, List.count_append, List.count_cons, List.count_nil] at hle ⊢
    omega

/-- The group at the front of a text is made of it and of the lines pulled. -/
theorem Nesting.group?_count_le {n : Nesting} {g : Text}
    (h : n.group? t cur = (.ok (some (g, rest)), cur')) (x : Char) :
    g.count x + Place.count ⟨rest, cur'⟩ x ≤ Place.count ⟨t, cur⟩ x := by
  unfold group? at h
  split at h
  · cases h
  · rename_i start after depth ho
    split at h
    · rename_i found cur₁ hc
      cases h
      have hle := close_count_le hc x
      simp only [Place.count, eq_append_of_opening? ho, List.count_append] at hle ⊢
      omega
    · cases h

/-- An atom and what follows it are made of what was there. -/
theorem atom_count_le {n : Option Nesting} {c : Char} {a : Text}
    (h : atom n c t cur = (.ok (a, rest), cur')) (x : Char) :
    a.count x + Place.count ⟨rest, cur'⟩ x ≤ Place.count ⟨c :: t, cur⟩ x := by
  rcases atom_cases h with hg | ⟨-, ⟨hq, rfl⟩ | ⟨-, hg | ⟨-, rfl, rfl, rfl⟩⟩⟩
  · cases n with
    | none => cases hg
    | some n => exact Nesting.group?_count_le hg x
  · simp only [Place.count, Text.eq_append_of_quoted? hq, List.count_append]
    omega
  · exact Nesting.group?_count_le hg x
  · simp only [Place.count, List.count_cons, List.count_nil]
    omega

/-- A continuation reads as a character that readings may put in. -/
theorem count_breakText {x : Char} (hx : x ∉ Place.glue) (found : Bool) :
    (breakText found).count x = 0 := by
  refine List.count_eq_zero.2 fun hmem => hx ?_
  cases found with
  | false => cases hmem
  | true =>
    rw [List.mem_singleton.1 hmem]
    decide

/-- The atoms of an expression are made of the lines that they are read from. -/
theorem expressionAtoms_count_le {tail read : Text}
    (h : expressionAtoms tail cur = (.ok read, cur')) {x : Char} (hx : x ∉ Place.glue) :
    Place.count ⟨read, cur'⟩ x ≤ Place.count ⟨tail, cur⟩ x := by
  fun_induction expressionAtoms tail cur generalizing read cur' with
  | case1 tail cur hnil =>
    cases h
    obtain rfl := List.isEmpty_iff.1 hnil
    exact Nat.le_refl _
  | case2 tail cur hne found cur₁ hs =>
    cases h
    have hle := (followBreaks_leads hs).count_le x
    simp only [Place.count, List.count_nil, count_breakText hx] at hle ⊢
    exact hle
  | case3 => cases h
  | case4 => cases h
  | case5 tail cur hne found c t cur₁ hs a rest cur₂ ha more cur₃ hm ih =>
    cases h
    have hbreaks := (followBreaks_leads hs).count_le x
    have hatom := atom_count_le ha x
    have hmore := ih hm
    simp only [Place.count, List.count_append, count_breakText hx] at hbreaks hatom hmore ⊢
    omega

/-- A continuation does not read as a line feed. -/
theorem feed_not_mem_breakText (found : Bool) : '\n' ∉ breakText found := by
  cases found <;> decide

/-- The atoms of an expression are one line, however many lines they are read from. -/
theorem expressionAtoms_oneLine {tail read : Text}
    (h : expressionAtoms tail cur = (.ok read, cur')) (hline : Place.OneLine ⟨tail, cur⟩) :
    read.OneLine := by
  fun_induction expressionAtoms tail cur generalizing read cur' with
  | case1 =>
    cases h
    exact Text.oneLine_of_not_mem (List.not_mem_nil)
  | case2 tail cur hne found cur₁ hs =>
    cases h
    exact Text.oneLine_of_not_mem (feed_not_mem_breakText found)
  | case3 => cases h
  | case4 => cases h
  | case5 tail cur hne found c t cur₁ hs a rest cur₂ ha more cur₃ hm ih =>
    cases h
    have hbroken := hline.of_yields (followBreaks_leads hs).yields
    have hmore := ih hm (hbroken.of_yields (atom_leads ha).yields)
    rw [List.append_assoc]
    refine Text.OneLine.append (feed_not_mem_breakText found) ?_
    rcases atom_enclosed ha hbroken.text hbroken.ahead with ⟨rfl, rfl⟩ | hclosed
    · by_cases hc : c = '\n'
      · -- A line feed ends the line, so there is nothing to go on with.
        subst hc
        have hnil : rest = [] := hbroken.text [] rest rfl
        rw [hnil, expressionAtoms_nil] at hm
        cases hm
        exact hbroken.text.of_isInfix ⟨[], rest, by simp⟩
      · exact Text.OneLine.append (fun hmem => hc (List.mem_singleton.1 hmem).symm) hmore
    · exact Text.OneLine.append hclosed.oneLine hmore

/-- An expression holds no line feed, over however many lines it was read. -/
theorem feed_not_mem_expression {e : Text} (h : expression t cur = (.ok e, cur'))
    (hline : Place.OneLine ⟨t, cur⟩) : '\n' ∉ e := by
  unfold expression at h
  split at h
  · rename_i read cur₁ hr
    cases h
    have hended : Text.OneLine (t.trim ++ ['\n']) :=
      Text.OneLine.append hline.text.feed_not_mem_trim fun front back heq => by
        cases front with
        | nil =>
          cases heq
          rfl
        | cons b front => simp at heq
    exact (expressionAtoms_oneLine hr ⟨hended, hline.ahead⟩).feed_not_mem_trim
  · cases h

/-- An expression is made of the lines that it is read from. -/
theorem expression_count_le {e : Text} (h : expression t cur = (.ok e, cur')) {x : Char}
    (hx : x ∉ Place.glue) : Place.count ⟨e, cur'⟩ x ≤ Place.count ⟨t, cur⟩ x := by
  unfold expression at h
  split at h
  · rename_i read cur₁ hr
    cases h
    have hread := expressionAtoms_count_le hr hx
    have htrim := (Text.trim_isInfix t).sublist.count_le x
    have htrim' := (Text.trim_isInfix read).sublist.count_le x
    have hfeed : List.count x ['\n'] = 0 := by
      refine List.count_eq_zero.2 fun hmem => hx ?_
      rw [List.mem_singleton.1 hmem]
      decide
    simp only [Place.count, List.count_append, hfeed] at hread ⊢
    omega
  · cases h

/-- An expression is made of the lines that it was read from. -/
theorem expression_yields {e : Text} (h : expression t cur = (.ok e, cur')) :
    Yields ⟨t, cur⟩ ⟨e, cur'⟩ :=
  ⟨(forward_expression t).reaches h, fun _ hx => expression_count_le h hx,
    fun hline => Text.oneLine_of_not_mem (feed_not_mem_expression h hline)⟩

/-- So is an expression that is put into a negation. -/
theorem negation_yields {e : Text} (h : expression t cur = (.ok e, cur')) :
    Yields ⟨t, cur⟩ ⟨" not (".toList ++ e ++ [')'], cur'⟩ := by
  refine ⟨(forward_expression t).reaches h, fun x hx => ?_, fun hline => ?_⟩
  · have hle := expression_count_le h hx
    have hlead : List.count x " not (".toList = 0 := by
      refine List.count_eq_zero.2 fun hmem => hx ?_
      have hsub : " not (".toList ⊆ Place.glue := by decide
      exact hsub hmem
    have hend : List.count x [')'] = 0 := by
      refine List.count_eq_zero.2 fun hmem => hx ?_
      rw [List.mem_singleton.1 hmem]
      decide
    simp only [Place.count, List.count_append, hlead, hend] at hle ⊢
    omega
  · refine Text.oneLine_of_not_mem ?_
    have he := feed_not_mem_expression h hline
    simp only [List.mem_append, not_or]
    exact ⟨⟨by decide, he⟩, by decide⟩

/-! ## Blocks of raw lines -/

/-- The lines of a block are the first of the lines pulled for it. -/
theorem blockOver_pulled (level : Nat) (ahead : List Text) (n : Nat) :
    ∃ stops, Cursor.Pulled ⟨ahead, n⟩ ((blockOver level ahead n).1 ++ stops)
      (blockOver level ahead n).2.2 := by
  induction ahead generalizing n with
  | nil => exact ⟨[], .refl _⟩
  | cons raw ahead ih =>
    have hnext : Cursor.Pulled ⟨raw :: ahead, n⟩ [raw] ⟨ahead, n + 1⟩ :=
      Cursor.pulled_of_next? (Cursor.next?_cons raw ahead n)
    obtain ⟨stops, hstops⟩ := ih (n + 1)
    unfold blockOver
    simp only
    split
    · exact ⟨[raw], hnext⟩
    · exact ⟨stops, hnext.trans hstops⟩

/-- The same of `rawBlock`, which is given a cursor. -/
theorem rawBlock_pulled {level : Nat} {block : List Text} {next : Line}
    (h : rawBlock level cur = (.ok (block, next), cur')) :
    ∃ stops, cur.Pulled (block ++ stops) cur' := by
  have hends : blockOver level cur.ahead cur.number = (block, next, cur') := by
    cases h
    rfl
  obtain ⟨stops, hpulled⟩ := blockOver_pulled level cur.ahead cur.number
  rw [hends] at hpulled
  exact ⟨stops, hpulled⟩

/-- The aligned lines of a block have no character more often, line feeds apart. -/
theorem count_alignLines_le {c : Char} (hc : c ≠ '\n') (margin : Option Nat) (block : List Text) :
    (alignLines margin block).count c ≤ block.flatten.count c := by
  induction block generalizing margin with
  | nil => exact Nat.le_refl _
  | cons raw block ih =>
    rw [List.flatten_cons, List.count_append]
    unfold alignLines
    simp only
    split
    · rw [List.count_cons_of_ne hc.symm]
      exact Nat.le_trans (ih margin) (Nat.le_add_left _ _)
    · generalize (margin.map (min (Line.ofRaw raw).indent)).getD (Line.ofRaw raw).indent = m
      rw [List.count_append, List.count_cons_of_ne hc.symm]
      have hcut : Text.trimEnd (raw.drop m) <:+: raw :=
        (Text.trimEnd_isPrefix _).isInfix.trans (List.drop_suffix m raw).isInfix
      exact Nat.add_le_add (hcut.sublist.count_le c) (ih (some m))

/-- A space that the mark puts behind a text does not count for other characters. -/
theorem count_literalText {c : Char} (hc : c ≠ ' ') (headline : Text) (block : List Text) :
    (literalText headline block).count c =
      (Text.trimEnd (if (Text.trim (headline.drop 1)).isEmpty then alignLines none block
        else Text.trim (headline.drop 1) ++ '\n' :: alignLines none block)).count c := by
  unfold literalText
  simp only
  split
  · rw [List.count_append, List.count_cons_of_ne hc.symm, List.count_nil, Nat.add_zero]
  · rfl

/-- The text of a literal block is made of its headline and of the lines that were to come. -/
theorem literalText_count_le {level : Nat} {headline line : Text} {block : List Text} {next : Line}
    (hblock : rawBlock level cur = (.ok (block, next), cur')) (hcut : headline.drop 1 <:+: line)
    {c : Char} (hc : c ∉ Place.glue) :
    (literalText headline block).count c ≤ Place.count ⟨line, cur⟩ c := by
  have hfeed : c ≠ '\n' := by
    rintro rfl
    exact hc (by decide)
  have hspace : c ≠ ' ' := by
    rintro rfl
    exact hc (by decide)
  obtain ⟨stops, hpulled⟩ := rawBlock_pulled hblock
  have haligned := count_alignLines_le hfeed none block
  have htrim := (Text.trim_isInfix (headline.drop 1)).sublist.count_le c
  have hhead := hcut.sublist.count_le c
  rw [count_literalText hspace]
  refine Nat.le_trans ((Text.trimEnd_isPrefix _).sublist.count_le c) ?_
  simp only [Place.count, hpulled.ahead, List.flatten_append, List.count_append]
  split
  · omega
  · rw [List.count_append, List.count_cons_of_ne hfeed.symm]
    omega

/-! ## Statements and elements -/

/-- What follows the stop of a token is made of what was there. -/
theorem token?_yields {n : Nesting} {lead v : Text} {stops : List Text}
    (h : token? n lead stops t cur = (.ok (some (v, rest)), cur')) :
    Yields ⟨t, cur⟩ ⟨Text.trimStart (rest.drop 1), cur'⟩ := by
  have hsuffix := (Text.trimStart_suffix (rest.drop 1)).trans (List.drop_suffix 1 rest)
  exact (token?_leads h).yields.trans (yields_of_isInfix cur' hsuffix.isInfix)

/-- What follows the colon of a statement is made of what was there. -/
theorem splitStatement_yields {d : Delimiters} {expr : Text}
    (h : splitStatement d t cur = (.ok (expr, rest), cur')) : Yields ⟨t, cur⟩ ⟨rest, cur'⟩ := by
  obtain ⟨e, cur₁, he, h₁⟩ := Scan.bind_eq_ok_iff.1 h
  obtain ⟨found, cur₂, htoken, h₂⟩ := Scan.bind_eq_ok_iff.1 h₁
  have hexpr := expression_yields he
  cases found with
  | none =>
    cases h₂
    have hreach := reaches_token? d.placeholder [] [[':'], ['\n']] e cur₁
    rw [htoken] at hreach
    exact yields_nil (hexpr.reaches.trans hreach)
  | some found =>
    cases h₂
    exact hexpr.trans (token?_yields htoken)

/-- The rest behind a colon is made of what was there. -/
theorem restAfterColon_yields {d : Delimiters}
    (h : restAfterColon d t cur = (.ok rest, cur')) : Yields ⟨t, cur⟩ ⟨rest, cur'⟩ := by
  obtain ⟨found, cur₁, htoken, h₁⟩ := Scan.bind_eq_ok_iff.1 h
  cases found with
  | none =>
    cases h₁
    exact yields_nil ((forward_restAfterColon d t).reaches h)
  | some found =>
    cases h₁
    exact token?_yields htoken

section

variable {s : Setting} {d : Delimiters} {level : Nat} {line keyword : Text} {opening : Opening}

/-- The line that a statement leaves is made of what was there. -/
theorem openStatement_yields (h : openStatement d keyword t cur = (.ok opening, cur')) :
    Yields ⟨t, cur⟩ ⟨(opening.line level).body, cur'⟩ := by
  unfold openStatement at h
  split at h
  · cases h
    exact yields_nil (.refl _)
  · obtain ⟨⟨expr, rest⟩, cur₁, hs, h₁⟩ := Scan.bind_eq_ok_iff.1 h
    cases h₁
    exact splitStatement_yields hs

/-- The line that a negated statement leaves is made of what was there and of the words put in. -/
theorem openNegated_yields (h : openNegated d keyword t cur = (.ok opening, cur')) :
    Yields ⟨t, cur⟩ ⟨(opening.line level).body, cur'⟩ := by
  obtain ⟨e, cur₁, he, h₁⟩ := Scan.bind_eq_ok_iff.1 h
  exact (negation_yields he).trans (openStatement_yields h₁)

/-- The line that an element leaves is made of what was there. -/
theorem openElement_yields {disguise : Option Disguise}
    (h : openElement s disguise line cur = (.ok opening, cur')) :
    Yields ⟨line, cur⟩ ⟨(opening.line level).body, cur'⟩ := by
  obtain ⟨e, cur₁, hread, h₁⟩ := Scan.bind_eq_ok_iff.1 h
  have hreach := (Element.forward_read s disguise line.trim).reaches hread
  split at h₁
  · cases h₁
    exact yields_nil hreach
  · cases h₁
    have htrim := yields_of_isInfix cur (Text.trim_isInfix line)
    rcases Element.read_rest hread with hnil | ⟨t, hleads, hrest⟩
    · show Yields _ ⟨e.rest, _⟩
      rw [hnil]
      exact yields_nil hreach
    · have hsuffix := (Text.trimStart_suffix t).trans (List.suffix_cons ':' t)
      show Yields _ ⟨e.rest, _⟩
      rw [hrest]
      exact htrim.trans (hleads.yields.trans (yields_of_isInfix _ hsuffix.isInfix))

/-! ## Headlines and clauses -/

/-- A line without its terminator is the front of it. -/
theorem Text.dropTerminator_isPrefix (t : Text) : t.dropTerminator <+: t := by
  unfold Text.dropTerminator
  split
  · split
    · exact (List.dropLast_prefix _).trans (List.dropLast_prefix t)
    · exact List.dropLast_prefix t
  · exact List.prefix_refl t

/-- The body of a line is a piece of it. -/
theorem Line.body_ofRaw_isInfix (raw : Text) : (Line.ofRaw raw).body <:+: raw := by
  unfold Line.ofRaw
  simp only
  split
  · exact List.nil_infix
  · exact (Text.dropTerminator_isPrefix _).isInfix.trans (Text.trimStart_suffix raw).isInfix

/-- A line that is handed back has been pulled, so it is made of what was there. -/
theorem Line.HandedBack.yields {next : Line} (h : next.HandedBack level cur cur')
    (hreach : cur.Reaches cur') (t : Text) : Yields ⟨t, cur⟩ ⟨next.body, cur'⟩ := by
  by_cases hbody : next.body = []
  · rw [hbody]
    exact yields_nil hreach
  · obtain ⟨lines, raw, hpulled, rfl⟩ := h.2 hbody
    exact yields_of_pulled t hpulled (Line.body_ofRaw_isInfix raw)

/-- The first line of a text is a piece of it. -/
theorem Text.firstLine_isInfix (t : Text) : t.firstLine <:+: t :=
  (List.takeWhile_prefix _).isInfix

/-- The rest of a line behind a dash and a word is a piece of it. -/
theorem Rule.isInfix_of_dashWord? {words : List String} {lead word rest : Text}
    (h : Rule.dashWord? words line = some (lead, word, rest)) : rest.firstLine <:+: line := by
  obtain ⟨rfl, -, -⟩ := Rule.eq_append_of_dashWord? h
  have hsuffix : rest <:+ lead ++ (word ++ rest) :=
    (List.suffix_append word rest).trans (List.suffix_append lead _)
  exact (Text.firstLine_isInfix rest).trans hsuffix.isInfix

/-- A tag of the template engine is cut out of its line. -/
theorem Headline.isInfix_of_tagged {lead word rest : Text} (heq : line = lead ++ (word ++ rest)) :
    word ++ Rule.spacedRest rest <:+: line := by
  have hrest : Rule.spacedRest rest <+: rest := by
    unfold Rule.spacedRest
    split
    · exact List.nil_prefix
    · have hfirst : Text.firstLine (rest.dropWhile isBlank) <+: rest.dropWhile isBlank :=
        List.takeWhile_prefix _
      have hjoined := (List.prefix_append_right_inj (rest.takeWhile isBlank)).2 hfirst
      rw [List.takeWhile_append_dropWhile] at hjoined
      exact hjoined
  have htagged : word ++ Rule.spacedRest rest <+: word ++ rest :=
    (List.prefix_append_right_inj word).2 hrest
  rw [heq]
  exact htagged.isInfix.trans (List.suffix_append lead _).isInfix

/-- What a headline goes on with is made of its line and of the lines that were to come. -/
theorem Headline.opening_yields {headline : Headline} (hseen : headline.SeenIn line)
    (h : headline.opening s level line cur = (.ok opening, cur')) :
    Yields ⟨line, cur⟩ ⟨(opening.line level).body, cur'⟩ := by
  have hreach := (Headline.forward_opening s level hseen).reaches h
  have hleft := Headline.opening_leftOver hseen h
  rcases Headline.usesLine_or hseen s level with huses | ⟨disguise, heq⟩ |
      ⟨keyword, words, lead, word, rest, hd, heq | heq⟩
  · have huses := huses _ _ _ h
    cases opening with
    | leaf written next => exact Line.HandedBack.yields hleft hreach line
    | block written close => exact yields_nil hreach
    | inline written close rest => exact huses.elim
    | statement written keyword rest => exact huses.elim
  · exact openElement_yields (heq ▸ h)
  · have hcut := yields_of_isInfix cur (Rule.isInfix_of_dashWord? hd)
    exact hcut.trans (openStatement_yields (heq ▸ h))
  · have hcut := yields_of_isInfix cur (Rule.isInfix_of_dashWord? hd)
    exact hcut.trans (openNegated_yields (heq ▸ h))

end

/-- The rest of a line behind the word of a clause is a piece of it. -/
theorem Clause.isInfix_of_next? {keyword line : Text} {taken : List Clause} {clause : Clause}
    (h : Clause.next? keyword taken line = some (clause, t)) : t <:+: line := by
  unfold Clause.next? at h
  split at h
  · cases h
  · obtain ⟨clause', -, hf⟩ := List.exists_of_findSome?_eq_some h
    obtain ⟨⟨lead, word, rest⟩, hd, hp⟩ := Option.map_eq_some_iff.1 hf
    cases hp
    exact Rule.isInfix_of_dashWord? hd

/-- What follows the colon of a clause is made of what was there. -/
theorem Clause.read_yields {d : Delimiters} {clause : Clause} {written : Text}
    (h : clause.read d t cur = (.ok (written, rest), cur')) : Yields ⟨t, cur⟩ ⟨rest, cur'⟩ := by
  cases clause
  case elif | except =>
    obtain ⟨⟨expr, rest'⟩, cur₁, hs, h₁⟩ := Scan.bind_eq_ok_iff.1 h
    cases h₁
    exact splitStatement_yields hs
  case otherwise | lastly =>
    obtain ⟨rest', cur₁, hs, h₁⟩ := Scan.bind_eq_ok_iff.1 h
    cases h₁
    exact restAfterColon_yields hs

/-! ## Moves -/

namespace Outline

variable {p : Profile} {s : Setting} {o o' : Outline} {w : Text}

/-- The line at hand after a move is made of what was there before it. -/
theorem Steps.yields (hp : p.IsStandard) (h : Steps p.recognise s o w o') :
    o.place.Yields o'.place := by
  cases h with
  | look hfound hopen => exact Headline.opening_yields (Profile.headline_seen hp hfound).2 hopen
  | announce _ => exact .refl _
  | handOn _ => exact .refl _
  | finish hpull hbody hnext => exact yields_nil (.refl _)
  | @pull frame outer line raw cur cur' hpull hbody hnext =>
    have hpulled : cur.Pulled ([] ++ [raw]) cur' := Cursor.pulled_of_next? hnext
    exact yields_of_pulled line.body hpulled (Line.body_ofRaw_isInfix raw)
  | clause hbody hnext hread =>
    exact (yields_of_isInfix _ (Clause.isInfix_of_next? hnext)).trans (Clause.read_yields hread)

/-- Every line that is ever at hand is made of what was there at the start. -/
theorem Moves.yields (hp : p.IsStandard) (h : Moves p.recognise s o w o') :
    o.place.Yields o'.place := by
  induction h with
  | refl o => exact .refl _
  | step hstep _ ih => exact (hstep.yields hp).trans ih

end Outline

end TerseMarkup
