import TerseMarkup.Proofs.LayoutHeadline
import TerseMarkup.Proofs.Piecewise

/-!
# Compilation in another layout

The outline machine makes the same moves on a template in two layouts: `Outline.LaidOut` says when
two outlines are the same up to the layout, `Outline.step_tracks` that one move keeps this, and
`Outline.run_passages` that whole runs write the same or fail together. Two results follow for
`Profile.compile`:

* `Profile.compile_indented`: spaces in front of all lines change nothing, faults included.
* `Profile.compile_carriageReturns`: carriage returns in front of all line feeds do not change what
  is written. The exception is code that is the rest of a continuation behind a colon, and
  `Profile.compile_code_sees_return` shows what the carriage return does there.
-/

namespace TerseMarkup

variable {ℓ : Layout}

/-! ## Openings -/

/-- The second opening is what the first one is in the layout. -/
inductive Opening.LaidOut (ℓ : Layout) : Opening → Opening → Prop where
  | leaf (written : Text) {next next' : Line} (h : next.LaidOut ℓ next') :
      Opening.LaidOut ℓ (.leaf written next) (.leaf written next')
  | block (written close : Text) : Opening.LaidOut ℓ (.block written close) (.block written close)
  | inline (written close : Text) {rest rest' : Text} (h : ℓ.Heads rest rest') :
      Opening.LaidOut ℓ (.inline written close rest) (.inline written close rest')
  | statement (written keyword : Text) {rest rest' : Text} (h : ℓ.Heads rest rest') :
      Opening.LaidOut ℓ (.statement written keyword rest) (.statement written keyword rest')

/-- Lines without a body correspond at any indentation. -/
theorem Line.laidOut_nil (level level' : Nat) : Line.LaidOut ℓ ⟨level, []⟩ ⟨level', []⟩ :=
  ⟨rfl, fun h => absurd rfl h⟩

/-- What follows the colon that ends a token is a headline. -/
theorem Layout.Rests.heads {rest rest' : Text} (h : ℓ.Rests [[':'], ['\n']] rest rest') :
    ℓ.Heads (Text.trimStart (rest.drop 1)) (Text.trimStart (rest'.drop 1)) := by
  obtain ⟨htext, hhead, hstop⟩ := h
  cases rest with
  | nil =>
    rw [htext.eq_nil_iff.2 rfl]
    exact .same _
  | cons c rest =>
    cases rest' with
    | nil => cases hhead
    | cons c' rest' =>
      cases hhead
      have hc : c = ':' ∨ c = '\n' := by
        rcases hstop with hnil | hstop
        · cases hnil
        · simp only [List.any_cons, List.any_nil, List.isPrefixOf_cons_cons,
            List.isPrefixOf_nil_left, Bool.and_true, Bool.or_false, Bool.or_eq_true, beq_iff_eq]
            at hstop
          exact hstop.imp Eq.symm Eq.symm
      rcases hc with rfl | rfl
      · exact htext.heads_of_colon
      · generalize ht : '\n' :: rest = t at htext
        generalize ht' : '\n' :: rest' = t' at htext
        cases htext with
        | same =>
          cases ht
          cases ht'
          exact .same _
        | @ended x hcarriage hx =>
          cases x with
          | nil => cases ht'
          | cons b x =>
            cases ht
            exact absurd rfl (hx.inner _ List.mem_cons_self).1

section

variable {s : Setting} (hd : s.delimiters.placeholder.FitFor ℓ) (level : Nat)

/-- The same piece has been cut off, and a headline follows it. -/
def Layout.Headed (ℓ : Layout) (found found' : Text × Text) : Prop :=
  found'.1 = found.1 ∧ ℓ.Heads found.2 found'.2

/-- Lines that are copied as they are, are the same in both layouts: they are cut at their own
margin and trimmed at their ends. -/
theorem verbatimBlock_tracks :
    Scan.Tracks ℓ ℓ.Blocks (verbatimBlock s level) (verbatimBlock s (level + ℓ.margin)) :=
  literalBlock_tracks s level rfl rfl false

/-- A value is the same in both layouts. -/
theorem openValue_tracks (unescaped spaced : Bool) {t t' : Text} (ht : t'.trimEnd = t.trimEnd) :
    Scan.Tracks ℓ (Opening.LaidOut ℓ) (openValue s level unescaped spaced t)
      (openValue s (level + ℓ.margin) unescaped spaced t') := by
  refine (rawBlock_tracks level).bind fun ⟨block, next⟩ ⟨block', next'⟩ h => ?_
  obtain ⟨hblock, hfit, hnext⟩ := h
  simp only at hblock hfit hnext
  have hbodies : (block'.map fun raw => (Line.ofRaw raw).body.trim) =
      block.map fun raw => (Line.ofRaw raw).body.trim := by
    rw [hblock, List.map_map]
    refine List.map_congr_left fun raw hraw => ?_
    exact congrArg Text.trim (Layout.laidOut_ofRaw (hfit raw hraw)).body
  simp only [ht, hbodies]
  exact Scan.tracks_pure (.leaf _ hnext)

/-- A block in another markup language is the same in both layouts. -/
theorem openMarkup_tracks (language : Text) :
    Scan.Tracks ℓ (Opening.LaidOut ℓ) (openMarkup s level language)
      (openMarkup s (level + ℓ.margin) language) := by
  unfold openMarkup
  split
  · refine Scan.tracks_lineNumber.bind fun n n' hn => ?_
    cases hn
    exact Scan.tracks_fail fun _ => rfl
  · refine (verbatimBlock_tracks level).bind fun ⟨body, next⟩ ⟨body', next'⟩ h => ?_
    obtain ⟨hbody, hnext⟩ := h
    cases hbody
    exact Scan.tracks_pure (.leaf _ hnext)

/-- Code is the same in both layouts, if its headline is up to blanks. -/
theorem openCode_tracks (moduleLevel : Bool) {t t' : Option Text}
    (ht : t'.map Text.trim = t.map Text.trim) :
    Scan.Tracks ℓ (Opening.LaidOut ℓ) (openCode s level moduleLevel t)
      (openCode s (level + ℓ.margin) moduleLevel t') := by
  unfold openCode
  rw [ht]
  refine (verbatimBlock_tracks level).bind fun ⟨body, next⟩ ⟨body', next'⟩ h => ?_
  obtain ⟨hbody, hnext⟩ := h
  cases hbody
  simp only
  split
  · exact Scan.tracks_pure (.leaf _ hnext)
  · exact Scan.tracks_pure (.leaf _ hnext)

include hd

/-- An element opens the same in both layouts, if its headline is up to blanks. -/
theorem openElement_tracks (disguise : Option Disguise) {line line' : Text}
    (hline : line'.trim = line.trim) :
    Scan.Tracks ℓ (Opening.LaidOut ℓ) (openElement s disguise line)
      (openElement s disguise line') := by
  unfold openElement
  rw [hline]
  refine (Element.read_tracks hd disguise line.trim).bind fun e e' h => ?_
  rw [h.rest.matches.isEmpty_eq, h.opened, h.closed]
  split
  · exact Scan.tracks_pure (.block _ _)
  · exact Scan.tracks_pure (.inline _ _ h.rest)

/-- An element that is copied as it is, is the same in both layouts. -/
theorem openVerbatim_tracks {line line' : Text} (hline : line'.trim = line.trim) :
    Scan.Tracks ℓ (Opening.LaidOut ℓ) (openVerbatim s level line)
      (openVerbatim s (level + ℓ.margin) line') := by
  unfold openVerbatim
  rw [hline]
  refine (Element.read_tracks hd none line.trim).bind fun e e' h => ?_
  refine (verbatimBlock_tracks level).bind fun ⟨body, next⟩ ⟨body', next'⟩ hb => ?_
  obtain ⟨hbody, hnext⟩ := hb
  cases hbody
  simp only [h.opened, h.closed]
  exact Scan.tracks_pure (.leaf _ hnext)

/-- A statement is cut at the same colon in both layouts. -/
theorem splitStatement_tracks {t t' : Text} (ht : t'.trim = t.trim) :
    Scan.Tracks ℓ ℓ.Headed (splitStatement s.delimiters t) (splitStatement s.delimiters t') := by
  refine (expression_tracks ht).bind fun expr expr' h => ?_
  cases h
  refine (token?_tracks hd [] (by decide) (by decide) (.same expr)).bind fun found found' h => ?_
  cases h with
  | none => exact Scan.tracks_pure ⟨rfl, .same []⟩
  | some h => exact Scan.tracks_pure ⟨congrArg Text.trimStart h.1, h.2.heads⟩

/-- The rests behind a colon are headlines that correspond. -/
theorem restAfterColon_tracks (t : Text) :
    Scan.Tracks ℓ ℓ.Heads (restAfterColon s.delimiters t) (restAfterColon s.delimiters t) := by
  refine (token?_tracks hd [] (by decide) (by decide) (.same t)).bind fun found found' h => ?_
  cases h with
  | none => exact Scan.tracks_pure (.same [])
  | some h => exact Scan.tracks_pure h.2.heads

/-- A statement opens the same in both layouts. -/
theorem openStatement_tracks (keyword : Text) {t t' : Text} (ht : t'.trim = t.trim) :
    Scan.Tracks ℓ (Opening.LaidOut ℓ) (openStatement s.delimiters keyword t)
      (openStatement s.delimiters keyword t') := by
  unfold openStatement
  rw [ht]
  split
  · exact Scan.tracks_pure (.statement _ _ (.same []))
  · refine (splitStatement_tracks hd ht).bind fun ⟨expr, rest⟩ ⟨expr', rest'⟩ h => ?_
    obtain ⟨hexpr, hrest⟩ := h
    cases hexpr
    exact Scan.tracks_pure (.statement _ _ hrest)

/-- A negated statement opens the same in both layouts. -/
theorem openNegated_tracks (keyword : Text) {t t' : Text} (ht : t'.trim = t.trim) :
    Scan.Tracks ℓ (Opening.LaidOut ℓ) (openNegated s.delimiters keyword t)
      (openNegated s.delimiters keyword t') := by
  refine (expression_tracks ht).bind fun expr expr' h => ?_
  cases h
  exact openStatement_tracks hd keyword rfl

/-- Code behind a fence is the same in both layouts, if its headline is. -/
theorem openFencedCode_tracks (moduleLevel : Bool) (t : Option Text) :
    Scan.Tracks ℓ (Opening.LaidOut ℓ) (openFencedCode s level moduleLevel t)
      (openFencedCode s (level + ℓ.margin) moduleLevel t) := by
  cases t with
  | none => exact openCode_tracks level moduleLevel rfl
  | some t =>
    refine (token?_tracks hd [] (by decide) (by decide) (.same t)).bind fun found found' h => ?_
    refine openCode_tracks level moduleLevel ?_
    cases h with
    | none => rfl
    | some h => simp [h.1]

/-- A named piece of template opens the same in both layouts. -/
theorem openDefinition_tracks (line : Text) :
    Scan.Tracks ℓ (Opening.LaidOut ℓ) (openDefinition s line) (openDefinition s line) := by
  refine (Element.read_tracks hd none line).bind fun e e' h => ?_
  simp only [Element.spacedAttributes, h.name, h.attributes, h.content]
  exact Scan.tracks_pure (.block _ _)

/-- A tag without content is the same in both layouts. -/
theorem openDirective_tracks (line : Text) :
    Scan.Tracks ℓ (Opening.LaidOut ℓ) (openDirective s level line)
      (openDirective s (level + ℓ.margin) line) := by
  refine (Element.read_tracks hd none line).bind fun e e' h => ?_
  simp only [Element.spacedAttributes, h.name, h.attributes, h.content]
  exact Scan.tracks_pure (.leaf _ (Line.laidOut_nil _ _))

/-- Content that is kept from the template engine is the same in both layouts. -/
theorem openShielded_tracks (line : Text) :
    Scan.Tracks ℓ (Opening.LaidOut ℓ) (openShielded s level line)
      (openShielded s (level + ℓ.margin) line) := by
  refine (Element.read_tracks hd none line).bind fun e e' h => ?_
  refine (verbatimBlock_tracks level).bind fun ⟨body, next⟩ ⟨body', next'⟩ hb => ?_
  obtain ⟨hbody, hnext⟩ := hb
  cases hbody
  simp only [Element.spacedAttributes, h.name, h.attributes, h.content]
  exact Scan.tracks_pure (.leaf _ hnext)

/-- A call opens the same in both layouts. Its fault shows the headline, so that has to be the same
unless carriage returns are added. -/
theorem openCall_tracks {headline headline' : Text}
    (hheadline : ℓ.carriage = false → headline' = headline) (line : Text) :
    Scan.Tracks ℓ (Opening.LaidOut ℓ) (openCall s headline line) (openCall s headline' line) := by
  refine (Element.read_tracks hd none line).bind fun e e' h => ?_
  simp only [Element.spacedAttributes, h.attributes, h.content]
  split
  · refine Scan.tracks_lineNumber.bind fun n n' hn => Scan.tracks_fail fun hcarriage => ?_
    rw [hn, hheadline hcarriage]
  · exact Scan.tracks_pure (.block _ _)

/-- Headlines that correspond open what corresponds. -/
theorem Headline.LaidOut.opening_tracks {headline headline' : Headline}
    (h : headline.LaidOut headline') {line line' : Text} (hline : ℓ.Heads line line')
    (hseen : headline.SeenIn line) :
    Scan.Tracks ℓ (Opening.LaidOut ℓ) (headline.opening s level line)
      (headline'.opening s (level + ℓ.margin) line') := by
  have htrim := hline.matches.trim_eq
  cases h with
  | literal hhead htrim =>
    refine (literalBlock_tracks s level hhead htrim true).bind fun ⟨w, next⟩ ⟨w', next'⟩ h => ?_
    obtain ⟨hw, hnext⟩ := h
    cases hw
    exact Scan.tracks_pure (.leaf _ hnext)
  | value htrim => exact openValue_tracks level _ _ htrim
  | statement htrim => exact openStatement_tracks hd _ htrim
  | negated htrim => exact openNegated_tracks hd _ htrim
  | code htrim => exact openCode_tracks level _ htrim
  | same =>
    cases headline with
    | verbatimElement => exact openVerbatim_tracks hd level htrim
    | doctype name => exact Scan.tracks_pure (.leaf _ (Line.laidOut_nil _ _))
    | scriptTemplate => exact openElement_tracks hd _ htrim
    | element => exact openElement_tracks hd _ htrim
    | literal text =>
      refine (literalBlock_tracks s level rfl rfl true).bind fun ⟨w, next⟩ ⟨w', next'⟩ h => ?_
      obtain ⟨hw, hnext⟩ := h
      cases hw
      exact Scan.tracks_pure (.leaf _ hnext)
    | html =>
      simp only [Headline.opening, htrim]
      exact Scan.tracks_pure (.block _ _)
    | value unescaped spaced expr => exact openValue_tracks level unescaped spaced rfl
    | comment =>
      refine (rawBlock_tracks level).bind fun ⟨block, next⟩ ⟨block', next'⟩ h => ?_
      exact Scan.tracks_pure (.leaf _ h.2.2)
    | statement keyword expr => exact openStatement_tracks hd keyword rfl
    | negated keyword expr => exact openNegated_tracks hd keyword rfl
    | fencedCode moduleLevel expr => exact openFencedCode_tracks hd level moduleLevel expr
    | code moduleLevel expr => exact openCode_tracks level moduleLevel rfl
    | definition t => exact openDefinition_tracks hd t
    | directive t => exact openDirective_tracks hd level t
    | shielded t => exact openShielded_tracks hd level t
    | call t => exact openCall_tracks hd hline.matches.eq t
    | jump keyword => exact Scan.tracks_pure (.leaf _ (Line.laidOut_nil _ _))
    | markup language => exact openMarkup_tracks level language
    | custom read => exact hseen.elim

/-- A clause is the same in both layouts. -/
theorem Clause.read_tracks (clause : Clause) (t : Text) :
    Scan.Tracks ℓ ℓ.Headed (clause.read s.delimiters t) (clause.read s.delimiters t) := by
  have hsplit := splitStatement_tracks hd (rfl : t.trim = t.trim)
  have hrest := restAfterColon_tracks hd t
  cases clause with
  | elif | except =>
    refine hsplit.bind fun ⟨expr, rest⟩ ⟨expr', rest'⟩ h => ?_
    obtain ⟨hexpr, hheads⟩ := h
    cases hexpr
    exact Scan.tracks_pure ⟨rfl, hheads⟩
  | otherwise | lastly =>
    exact hrest.bind fun rest rest' h => Scan.tracks_pure ⟨rfl, h⟩

end

/-- A profile of standard rules sees the same in a headline in two layouts, unless it is a tail that
starts like code. -/
theorem Profile.recognise_agrees {p : Profile} (hp : p.IsStandard) {line line' : Text}
    (h : ℓ.Heads line line') (hcode : ℓ.Tail line → line.startsCode = false) :
    Option.Rel Recognition.LaidOut (p.recognise line) (p.recognise line') := by
  have hrules : ∀ rule ∈ p.rules, rule.Agrees line line' := fun rule hmem =>
    Rule.standard_agrees (hp.subset hmem) h hcode
  unfold recognise lookUp
  generalize p.rules = rules at hrules ⊢
  induction rules with
  | nil => exact .none
  | cons rule rules ih =>
    have hrule := hrules rule List.mem_cons_self
    unfold Rule.Agrees at hrule
    rw [List.findSome?_cons, List.findSome?_cons]
    generalize rule.recognise line = found at hrule ⊢
    generalize rule.recognise line' = found' at hrule ⊢
    cases hrule with
    | none => exact ih fun r hr => hrules r (List.mem_cons_of_mem _ hr)
    | some hfound => exact .some hfound

/-! ## Moves -/

/-- The block, moved `k` columns to the right. -/
def Frame.moved (k : Nat) : Frame → Frame
  | document => document
  | block level close => block (level + k) close
  | inline level close => inline (level + k) close
  | statement level keyword taken => statement (level + k) keyword taken

/-- A block writes the same at its end, wherever it stands. -/
theorem Frame.closing_moved (d : Delimiters) (k : Nat) (frame : Frame) :
    (frame.moved k).closing d = frame.closing d := by
  cases frame <;> rfl

namespace Outline

/-- The second outline is where the first one is, in the layout. -/
structure LaidOut (ℓ : Layout) (o o' : Outline) : Prop where
  stack : o'.stack = o.stack.map (Frame.moved ℓ.margin)
  announced : o'.announced = o.announced
  head : o.announced = true →
    o'.line.indent = o.line.indent + ℓ.margin ∧ ℓ.Heads o.line.body o'.line.body
  line : o.announced = false → o.line.LaidOut ℓ o'.line
  cursor : o.cursor.LaidOut ℓ o'.cursor

/-- The headline at hand, if there is one, is no tail of a line that starts like code. -/
def ReadsNoCode (ℓ : Layout) (o : Outline) : Prop :=
  o.announced = true → ℓ.Tail o.line.body → o.line.body.startsCode = false

/-- Both moves go on from outlines that correspond to each other, or both stop, with success or with
a fault. -/
inductive Move.Tracks (ℓ : Layout) : Move → Move → Prop where
  | go (written : Text) {o o' : Outline} (h : o.LaidOut ℓ o') :
      Move.Tracks ℓ (.go written o) (.go written o')
  | done {line line' : Line} {cur cur' : Cursor} :
      Move.Tracks ℓ (.stop (.ok line) cur) (.stop (.ok line') cur')
  | fault {e e' : Diagnostic} {cur cur' : Cursor} (he : ℓ.carriage = false → e' = e) :
      Move.Tracks ℓ (.stop (.error e) cur) (.stop (.error e') cur')

variable {o o' : Outline} {stack : List Frame} {cur cur' : Cursor}

/-- What goes on with corresponding rests of a line corresponds. -/
theorem laidOut_enter (stack : List Frame) (level : Nat) {rest rest' : Text}
    (hrest : ℓ.Heads rest rest') (hcur : cur.LaidOut ℓ cur') :
    LaidOut ℓ ⟨stack, ⟨level, rest⟩, !rest.isEmpty, cur⟩
      ⟨stack.map (Frame.moved ℓ.margin), ⟨level + ℓ.margin, rest'⟩, !rest'.isEmpty, cur'⟩ := by
  refine ⟨rfl, ?_, fun _ => ⟨rfl, hrest⟩, fun h => ?_, hcur⟩
  · simp only [hrest.matches.isEmpty_eq]
  · have hnil : rest = [] := by simpa using h
    subst hnil
    cases hrest.matches.eq_nil_iff.2 rfl
    exact Line.laidOut_nil _ _

/-- Openings that correspond are carried out alike. -/
theorem perform_tracks (hstack : o'.stack = o.stack.map (Frame.moved ℓ.margin)) (level : Nat)
    {opening opening' : Opening} (h : opening.LaidOut ℓ opening') (hcur : cur.LaidOut ℓ cur') :
    Move.Tracks ℓ (o.perform level cur opening)
      (o'.perform (level + ℓ.margin) cur' opening') := by
  cases h with
  | leaf written hnext =>
    exact .go written ⟨hstack, rfl, (fun h => by cases h), fun _ => hnext, hcur⟩
  | block written close =>
    simp only [perform, enter, hstack]
    exact .go written (laidOut_enter (.block level close :: o.stack) level (.same []) hcur)
  | inline written close hrest =>
    simp only [perform, enter, hstack]
    exact .go written (laidOut_enter (.inline level close :: o.stack) level hrest hcur)
  | statement written keyword hrest =>
    simp only [perform, enter, hstack, hrest.matches.isEmpty_eq]
    split
    · exact .go written
        (laidOut_enter (.statement level keyword [] :: o.stack) level (.same []) hcur)
    · have hgo := laidOut_enter (.inline level [] :: .statement level keyword [] :: o.stack) level
        hrest hcur
      rw [hrest.matches.isEmpty_eq] at hgo
      exact .go written hgo

section

variable {p : Profile} (hp : p.IsStandard) {s : Setting}
  (hd : s.delimiters.placeholder.FitFor ℓ) (h : o.LaidOut ℓ o')

include hp hd h

/-- A headline is looked at alike in both layouts. -/
theorem look_tracks (hsafe : o.ReadsNoCode ℓ) (ho : o.announced = true) :
    Move.Tracks ℓ (o.look p.recognise s) (o'.look p.recognise s) := by
  obtain ⟨hindent, hbody⟩ := h.head ho
  unfold look
  have hfound := Profile.recognise_agrees hp hbody (hsafe ho)
  cases hr : p.recognise o.line.body with
  | none =>
    rw [hr] at hfound
    generalize p.recognise o'.line.body = found' at hfound ⊢
    cases hfound
    refine .fault fun hcarriage => ?_
    rw [h.cursor.number, hbody.matches.eq hcarriage]
  | some found =>
    rw [hr] at hfound
    generalize p.recognise o'.line.body = found' at hfound ⊢
    cases hfound with
    | some hfound =>
      have hseen := (Profile.headline_seen hp hr).2
      obtain ⟨opening, opening', cur, cur', hopen, hopen', hv, hcur⟩ |
          ⟨e, e', cur, cur', hopen, hopen', he⟩ :=
        (hfound.opening_tracks hd o.line.indent hbody hseen o.cursor o'.cursor h.cursor).dest
      · simp only [hindent, hopen, hopen']
        exact perform_tracks h.stack o.line.indent hv hcur
      · simp only [hindent, hopen, hopen']
        exact .fault he

end

/-- Blocks are closed alike in both layouts. -/
theorem close_tracks (h : o.LaidOut ℓ o') (ho : o.announced = false) (d : Delimiters)
    (frame : Frame) (outer : List Frame) {line line' : Line} (hline : line.LaidOut ℓ line') :
    Move.Tracks ℓ (o.close d frame outer line)
      (o'.close d (frame.moved ℓ.margin) (outer.map (Frame.moved ℓ.margin)) line') := by
  unfold close
  rw [Frame.closing_moved]
  refine .go _ ⟨rfl, h.announced, fun htrue => ?_, fun _ => hline, h.cursor⟩
  rw [show o.announced = true from htrue] at ho
  cases ho

/-- A line is announced alike in both layouts. -/
theorem announce_tracks (h : o.LaidOut ℓ o') (ho : o.announced = false) (level : Nat) :
    Move.Tracks ℓ (o.announce level) (o'.announce (level + ℓ.margin)) := by
  refine .go [] ⟨h.stack, rfl, fun _ => ⟨rfl, ?_⟩, (fun hfalse => by cases hfalse), h.cursor⟩
  rw [show o'.line.body = o.line.body from (h.line ho).body]
  exact .same _

/-- The next line is pulled alike in both layouts. -/
theorem pull_tracks (h : o.LaidOut ℓ o') (ho : o.announced = false) (d : Delimiters)
    (frame : Frame) (outer : List Frame) :
    Move.Tracks ℓ (o.pull d frame outer)
      (o'.pull d (frame.moved ℓ.margin) (outer.map (Frame.moved ℓ.margin))) := by
  unfold pull
  obtain ⟨hnext, hnext'⟩ | ⟨raw, cur, cur', hnext, hnext', hfit, hcur⟩ := h.cursor.next?
  · simp only [hnext, hnext']
    exact close_tracks h ho d frame outer (Line.laidOut_nil _ _)
  · simp only [hnext, hnext']
    refine .go [] ⟨h.stack, h.announced, fun htrue => ?_, fun _ => Layout.laidOut_ofRaw hfit, hcur⟩
    rw [show o.announced = true from htrue] at ho
    cases ho

/-- A statement goes on alike in both layouts: a clause at its own indentation is one in both. -/
theorem goOn_tracks {s : Setting} (hd : s.delimiters.placeholder.FitFor ℓ) (h : o.LaidOut ℓ o')
    (ho : o.announced = false) (level : Nat) (keyword : Text) (taken : List Clause)
    (outer : List Frame) :
    Move.Tracks ℓ (o.goOn s.delimiters level keyword taken outer)
      (o'.goOn s.delimiters (level + ℓ.margin) keyword taken
        (outer.map (Frame.moved ℓ.margin))) := by
  have hline := h.line ho
  unfold goOn
  rw [hline.body]
  split
  · exact close_tracks h ho _ (.statement level keyword taken) outer hline
  · rename_i clause t hclause
    obtain ⟨⟨w, rest⟩, ⟨w', rest'⟩, cur, cur', hr, hr', ⟨hw, hrest⟩, hcur⟩ |
        ⟨e, e', cur, cur', hr, hr', he⟩ :=
      (Clause.read_tracks hd clause t o.cursor o'.cursor h.cursor).dest
    · cases hw
      simp only [hr, hr', enter, hrest.matches.isEmpty_eq]
      split
      · exact .go w
          (laidOut_enter (.statement level keyword (clause :: taken) :: outer) level (.same [])
            hcur)
      · have hgo := laidOut_enter
          (.inline level [] :: .statement level keyword (clause :: taken) :: outer) level hrest hcur
        rw [hrest.matches.isEmpty_eq] at hgo
        exact .go w hgo
    · simp only [hr, hr']
      exact .fault he

/-- A line is handed on alike in both layouts, since all indentations are moved by the margin. -/
theorem hand_tracks {s : Setting} (hd : s.delimiters.placeholder.FitFor ℓ) (h : o.LaidOut ℓ o')
    (ho : o.announced = false) (frame : Frame) (outer : List Frame) :
    Move.Tracks ℓ (o.hand s.delimiters frame outer)
      (o'.hand s.delimiters (frame.moved ℓ.margin) (outer.map (Frame.moved ℓ.margin))) := by
  have hline := h.line ho
  cases hbody : o.line.body with
  | nil =>
    have hbody' : o'.line.body = [] := hline.body.trans hbody
    cases frame with
    | inline level close =>
      simp only [hand, Frame.moved, hbody, hbody', List.isEmpty_nil, Bool.true_or, if_true]
      exact close_tracks h ho _ (.inline level close) outer hline
    | document | block | statement =>
      simp only [hand, Frame.moved, hbody, hbody', List.isEmpty_nil, if_true]
      exact pull_tracks h ho _ _ outer
  | cons c body =>
    have hbody' : o'.line.body = c :: body := hline.body.trans hbody
    have hindent : o'.line.indent = o.line.indent + ℓ.margin := hline.indent (by simp [hbody])
    cases frame with
    | document =>
      simp only [hand, Frame.moved, hbody, hbody', hindent]
      exact announce_tracks h ho o.line.indent
    | block level close =>
      simp only [hand, Frame.moved, hbody, hbody', hindent, Nat.add_le_add_iff_right,
        List.isEmpty_cons, Bool.false_eq_true, if_false]
      split
      · exact close_tracks h ho _ (.block level close) outer hline
      · exact announce_tracks h ho o.line.indent
    | inline level close =>
      simp only [hand, Frame.moved, hbody, hbody', hindent, Nat.add_le_add_iff_right,
        List.isEmpty_cons, Bool.false_or]
      split
      · exact close_tracks h ho _ (.inline level close) outer hline
      · exact announce_tracks h ho level
    | statement level keyword taken =>
      simp only [hand, Frame.moved, hbody, hbody', hindent, Nat.add_lt_add_iff_right,
        Nat.add_right_cancel_iff, List.isEmpty_cons, Bool.false_eq_true, if_false]
      split
      · exact close_tracks h ho _ (.statement level keyword taken) outer hline
      · split
        · exact goOn_tracks hd h ho level keyword taken outer
        · exact announce_tracks h ho o.line.indent

/-- A move in one layout is the same move in the other. -/
theorem step_tracks {p : Profile} (hp : p.IsStandard) {s : Setting}
    (hd : s.delimiters.placeholder.FitFor ℓ) (h : o.LaidOut ℓ o') (hsafe : o.ReadsNoCode ℓ) :
    Move.Tracks ℓ (o.step p.recognise s) (o'.step p.recognise s) := by
  unfold step
  rw [h.announced, h.stack]
  cases ho : o.announced with
  | true => exact look_tracks hp hd h hsafe ho
  | false =>
    simp only [Bool.false_eq_true, if_false]
    cases o.stack with
    | nil => exact .done
    | cons frame outer => exact hand_tracks hd h ho frame outer

/-! ## Runs -/

/-- Both runs write the same, or both end with a fault, the same one unless carriage returns
are added. -/
inductive Passages (ℓ : Layout) : Except Diagnostic Passage → Except Diagnostic Passage → Prop where
  | ok (written : Text) (next next' : Line) :
      Passages ℓ (.ok ⟨written, next⟩) (.ok ⟨written, next'⟩)
  | error {e e' : Diagnostic} (he : ℓ.carriage = false → e' = e) : Passages ℓ (.error e) (.error e')

/-- A whole run comes to the same in both layouts, if it never comes to a tail that starts like
code. -/
theorem run_passages {p : Profile} (hp : p.IsStandard) {s : Setting}
    (hd : s.delimiters.placeholder.FitFor ℓ) (o o' : Outline) (h : o.LaidOut ℓ o')
    (hsafe : ∀ w o₁, Moves p.recognise s o w o₁ → o₁.ReadsNoCode ℓ) :
    Passages ℓ (o.run p.recognise s).1 (o'.run p.recognise s).1 := by
  induction hn : o.weight using Nat.strongRecOn generalizing o o' with
  | _ n ih =>
    have hstep := step_tracks hp hd h (hsafe _ _ (.refl o))
    generalize hm : o.step p.recognise s = m at hstep
    generalize hm' : o'.step p.recognise s = m' at hstep
    cases hstep with
    | done =>
      rw [run_of_stop hm, run_of_stop hm']
      exact .ok [] _ _
    | fault he =>
      rw [run_of_stop hm, run_of_stop hm']
      exact .error he
    | go w hnext =>
      have hs := step_eq_go_iff.1 hm
      -- what is reached from the next outline is reached from this one, so none of it reads code
      have hrest := ih _ (hn ▸ hs.weight_lt hp) _ _ hnext
        (fun w' o₂ hmoves => hsafe _ o₂ (.step hs hmoves)) rfl
      rw [run_of_steps hp hs, run_of_steps hp (step_eq_go_iff.1 hm')]
      generalize run p.recognise s _ = r at hrest ⊢
      generalize run p.recognise s _ = r' at hrest ⊢
      obtain ⟨r, cur⟩ := r
      obtain ⟨r', cur'⟩ := r'
      cases hrest with
      | ok written next next' => exact .ok (w ++ written) next next'
      | error he => exact .error he

end Outline

/-! ## Templates -/

namespace Text

/-- Raw lines as they are cut out of a text: every line but the last ends with its only line feed,
and the last one has one or is not empty. -/
inductive Lined : List Text → Prop where
  | nil : Lined []
  | last {x : Text} (hx : '\n' ∉ x) (hne : x ≠ []) : Lined [x]
  | cons {x : Text} {raws : List Text} (hx : '\n' ∉ x) (h : Lined raws) :
      Lined ((x ++ ['\n']) :: raws)

/-- A text is cut into such lines. -/
theorem lined_lines (t : Text) : Lined t.lines := by
  induction t with
  | nil => exact .nil
  | cons c t ih =>
    unfold lines
    split
    · rename_i hc
      subst hc
      exact .cons (x := []) (by simp) ih
    · rename_i hc
      have hadd {x : Text} (hx : '\n' ∉ x) : '\n' ∉ c :: x := by
        simpa [Ne.symm hc] using hx
      generalize lines t = raws at ih ⊢
      cases ih with
      | nil => exact .last (hadd (by simp)) (by simp)
      | last hx hne => exact .last (hadd hx) (by simp)
      | cons hx h => exact .cons (hadd hx) h

/-- Raw lines as they are cut out of a text are the lines of the text they make up. -/
theorem Lined.lines_flatten {raws : List Text} (h : Lined raws) : lines raws.flatten = raws := by
  induction h with
  | nil => rfl
  | last hx hne => rw [List.flatten_singleton, lines_of_not_mem hx hne]
  | cons hx h ih => rw [List.flatten_cons, lines_append_feed hx, ih]

/-- A raw line is a text without line feeds, with or without one behind it. -/
theorem Lined.exists_of_mem {raws : List Text} (h : Lined raws) {raw : Text} (hraw : raw ∈ raws) :
    '\n' ∉ raw ∨ ∃ x : Text, raw = x ++ ['\n'] ∧ '\n' ∉ x := by
  induction h with
  | nil => cases hraw
  | last hx hne =>
    rw [List.mem_singleton] at hraw
    subst hraw
    exact .inl hx
  | cons hx h ih =>
    rcases List.mem_cons.1 hraw with rfl | hraw
    · exact .inr ⟨_, rfl, hx⟩
    · exact ih hraw

end Text

namespace Layout

/-- A template in the layout. -/
def template (ℓ : Layout) (t : Text) : Text :=
  (t.lines.map ℓ.line).flatten

/-- A line is moved by spaces, or not at all. -/
theorem exists_indentLine_eq (k : Nat) (raw : Text) :
    ∃ m, raw.indentLine k = Text.copies m ' ' ++ raw := by
  unfold Text.indentLine
  split
  · exact ⟨0, rfl⟩
  · exact ⟨k, rfl⟩

/-- There are no line feeds in the margin. -/
theorem feed_not_mem_copies (m : Nat) : '\n' ∉ Text.copies m ' ' := by
  intro h
  exact absurd (List.eq_of_mem_replicate h) (by decide)

/-- Lines that are put into the layout are such lines again. -/
theorem lined_map_line (ℓ : Layout) {raws : List Text} (h : Text.Lined raws) :
    Text.Lined (raws.map ℓ.line) := by
  induction h with
  | nil => exact .nil
  | @last x hx hne =>
    have hreturns : (if ℓ.carriage then x.carriageReturns else x) = x := by
      rw [Text.carriageReturns_of_not_mem hx, ite_self]
    obtain ⟨m, hm⟩ := exists_indentLine_eq ℓ.margin x
    rw [List.map_singleton, line, hreturns, hm]
    refine .last ?_ (by simp [hne])
    simp [hx, feed_not_mem_copies]
  | @cons x raws hx h ih =>
    obtain ⟨e, he, hreturns⟩ : ∃ e, '\n' ∉ e ∧
        (if ℓ.carriage then Text.carriageReturns (x ++ ['\n']) else x ++ ['\n']) =
          x ++ (e ++ ['\n']) := by
      rw [Text.carriageReturns_append, Text.carriageReturns_of_not_mem hx]
      cases ℓ.carriage with
      | true => exact ⟨['\r'], by decide, rfl⟩
      | false => exact ⟨[], by decide, rfl⟩
    obtain ⟨m, hm⟩ := exists_indentLine_eq ℓ.margin (x ++ (e ++ ['\n']))
    rw [List.map_cons, line, hreturns, hm, ← List.append_assoc, ← List.append_assoc]
    refine .cons ?_ ih
    simp [hx, he, feed_not_mem_copies]

/-- The lines of a template in the layout are its lines, put into the layout. -/
theorem lines_template (ℓ : Layout) (t : Text) : (ℓ.template t).lines = t.lines.map ℓ.line :=
  (lined_map_line ℓ (Text.lined_lines t)).lines_flatten

end Layout

namespace Outline

/-- The headlines that an outline comes to, in their order, if it is done in less than the given
number of moves. -/
def headlines? (recognise : Text → Option Recognition) (s : Setting) :
    Nat → Outline → Option (List Text)
  | 0, _ => none
  | n + 1, o =>
    let here := if o.announced then [o.line.body] else []
    match o.step recognise s with
    | .go _ next => (headlines? recognise s n next).map (here ++ ·)
    | .stop .. => some here

/-- A headline that is reached is among them. -/
theorem Moves.mem_headlines? {recognise : Text → Option Recognition} {s : Setting} {w : Text}
    {o o' : Outline} (h : Moves recognise s o w o') (ho' : o'.announced = true) {n : Nat}
    {texts : List Text} (htexts : o.headlines? recognise s n = some texts) :
    o'.line.body ∈ texts := by
  induction h generalizing n texts with
  | refl o =>
    cases n with
    | zero => cases htexts
    | succ n =>
      simp only [headlines?, ho', if_true] at htexts
      split at htexts
      · obtain ⟨rest, -, rfl⟩ := Option.map_eq_some_iff.1 htexts
        exact List.mem_cons_self
      · cases htexts
        exact List.mem_cons_self
  | step hs hm ih =>
    cases n with
    | zero => cases htexts
    | succ n =>
      simp only [headlines?, step_of_steps hs] at htexts
      obtain ⟨rest, hrest, rfl⟩ := Option.map_eq_some_iff.1 htexts
      exact List.mem_append_right _ (ih ho' hrest)

end Outline

/-- The text is looked at as a headline when the template is compiled. -/
def Profile.Reads (p : Profile) (options : Options) (source t : Text) : Prop :=
  ∃ w o, Outline.Moves p.recognise (p.setting (p.compileEmbedded options.depth options.depth))
    (.ofDocument source) w o ∧ o.announced = true ∧ o.line.body = t

/-- A template compiles to the same in another layout, or fails in both, if no headline in it is a
tail that starts like code. -/
theorem Profile.compile_template {p : Profile} (hp : p.IsStandard)
    (hd : p.delimiters.placeholder.FitFor ℓ) (options : Options) {source : Text}
    (hfit : ∀ raw ∈ source.lines, ℓ.Fit raw)
    (hcode : ∀ t, p.Reads options source t → ℓ.Tail t → t.startsCode = false) :
    p.compile options (ℓ.template source) = p.compile options source ∨
      ℓ.carriage = true ∧ ∃ e e', p.compile options source = .error e ∧
        p.compile options (ℓ.template source) = .error e' := by
  have hstart : (Outline.ofDocument source).LaidOut ℓ (Outline.ofDocument (ℓ.template source)) := by
    refine ⟨rfl, rfl, (fun h => by cases h), fun _ => Line.laidOut_nil _ _, ?_, rfl, hfit⟩
    exact ℓ.lines_template source
  have hrun := Outline.run_passages hp
    (s := p.setting (p.compileEmbedded options.depth options.depth)) hd _ _ hstart
    fun w o hmoves ho => hcode _ ⟨w, o, hmoves, ho, rfl⟩
  unfold compile compileWith
  generalize (Outline.run _ _ (Outline.ofDocument source)).1 = r at hrun ⊢
  generalize (Outline.run _ _ (Outline.ofDocument (ℓ.template source))).1 = r' at hrun ⊢
  cases hrun with
  | ok written next next' => exact .inl rfl
  | @error e e' he =>
    cases hcarriage : ℓ.carriage with
    | true => exact .inr ⟨rfl, e, e', rfl, rfl⟩
    | false =>
      rw [he hcarriage]
      exact .inl rfl

/-! ## Indentation -/

/-- Only differences of indentation count: the same spaces in front of every line that is not blank
change nothing, neither what is written nor a fault. -/
theorem Profile.compile_indented {p : Profile} (hp : p.IsStandard) (options : Options) (k : Nat)
    (source : Text) : p.compile options (source.indented k) = p.compile options source := by
  have htemplate : source.indented k = Layout.template ⟨k, false, fun _ => False⟩ source := rfl
  rw [htemplate]
  refine (compile_template hp (fun h => ?_) options (fun raw _ h => ?_)
    fun _ _ htail => ?_).resolve_right fun h => ?_
  · cases h
  · cases h
  · cases htail
  · cases h.1

/-- A list with a text of uneven lines, and a conditional with attributes over two lines. -/
theorem Profile.compile_indented_list :
    (mako id).IsStandard ∧
    Text.indented 3
        "ul\n  li a\n\n  | one\n     two\n-if x\n  p(a=1\n    b=2): b t\n-else\n  hr\n".toList
      = ("   ul\n     li a\n\n     | one\n        two\n   -if x\n     p(a=1\n       b=2): b t\n" ++
          "   -else\n     hr\n").toList ∧
    (mako id).compile ⟨false, 3⟩ (Text.indented 3
        "ul\n  li a\n\n  | one\n     two\n-if x\n  p(a=1\n    b=2): b t\n-else\n  hr\n".toList) =
      .ok ("<ul><li>a</li>one\ntwo</ul>\n%if x:\n<p a=\"1\" b=\"2\"><b>t</b></p>\n" ++
        "%else:\n<hr/>\n%endif\n").toList := by
  refine ⟨mako_isStandard, by decide +kernel, ?_⟩
  rw [compile_indented mako_isStandard]
  decide +kernel

/-! ## Carriage returns -/

namespace Text

/-- The text is the end of a line behind a colon, up to and with the line feed, but for blanks in
front. A line at hand has lost its line feed, so only a line that was pulled by the headline in
front of it can be read like that. -/
def BehindColon (source t : Text) : Prop :=
  ∃ raw ∈ source.lines, ∃ front back : Text,
    raw = front ++ ':' :: back ∧ back.getLast? = some '\n' ∧ t = back.trimStart

/-- The end of a text ends as the text does. -/
theorem getLast?_of_suffix {t u : Text} (hs : t <:+ u) (hne : t ≠ []) :
    t.getLast? = u.getLast? := by
  obtain ⟨front, rfl⟩ := hs
  rw [List.getLast?_append, List.getLast?_eq_some_getLast hne, Option.some_or]

/-- A tail that starts like code ends with its line feed. -/
theorem BehindColon.getLast? {source t : Text} (h : source.BehindColon t)
    (hcode : t.startsCode = true) : t.getLast? = some '\n' := by
  obtain ⟨raw, -, front, back, -, hlast, rfl⟩ := h
  have hne : back.trimStart ≠ [] := by
    intro hnil
    rw [hnil] at hcode
    cases hcode
  rw [getLast?_of_suffix (trimStart_suffix back) hne, hlast]

end Text

namespace Layout

/-- A template with carriage returns is one in a layout. -/
theorem template_carriageReturns (Tail : Text → Prop) (source : Text) :
    template ⟨0, true, Tail⟩ source = source.carriageReturns := by
  have hline (raw : Text) : line ⟨0, true, Tail⟩ raw = raw.carriageReturns := by
    show Text.indentLine 0 raw.carriageReturns = raw.carriageReturns
    unfold Text.indentLine
    split <;> rfl
  have hflatten (raws : List Text) :
      (raws.map Text.carriageReturns).flatten = Text.carriageReturns raws.flatten := by
    induction raws with
    | nil => rfl
    | cons raw raws ih =>
      rw [List.map_cons, List.flatten_cons, List.flatten_cons, Text.carriageReturns_append, ih]
  unfold template
  rw [funext hline, hflatten, Text.flatten_lines]

/-- A line of a text without carriage returns may get one. -/
theorem fit_of_mem_lines {source raw : Text} (hreturn : '\r' ∉ source)
    (hraw : raw ∈ source.lines) : Fit ⟨0, true, source.BehindColon⟩ raw := by
  intro _
  refine ((Text.lined_lines source).exists_of_mem hraw).imp_right ?_
  rintro ⟨x, rfl, hfeed⟩
  refine ⟨x, rfl, fun c hc => ⟨?_, ?_⟩, fun front back heq => ?_⟩
  · rintro rfl
    exact hfeed hc
  · rintro rfl
    refine hreturn ?_
    rw [← Text.flatten_lines source]
    exact List.mem_flatten.2 ⟨_, hraw, List.mem_append_left _ hc⟩
  · have hlast : (front ++ ':' :: back).getLast? = some '\n' := by
      rw [← heq, List.getLast?_concat]
    refine ⟨_, hraw, front, back, heq, ?_, rfl⟩
    -- the colon is not the line feed, so the line feed is behind it
    have hne : back ≠ [] := by
      rintro rfl
      rw [List.getLast?_concat] at hlast
      cases hlast
    have hsuffix : back <:+ front ++ ':' :: back :=
      (List.suffix_cons ':' back).trans (List.suffix_append front _)
    rw [Text.getLast?_of_suffix hsuffix hne, hlast]

end Layout

/-- Carriage returns in front of the line feeds change neither whether a template compiles nor what
it compiles to, as long as no rest of a continuation behind a colon is read as code behind a fence
or as a tag of the template engine. Such a rest still has its line feed. -/
theorem Profile.compile_carriageReturns {p : Profile} (hp : p.IsStandard)
    (hstart : p.delimiters.variableStart.Inner) (hend : p.delimiters.variableEnd.Inner)
    (options : Options) {source : Text} (hreturn : '\r' ∉ source)
    (hcode : ∀ t, p.Reads options source t → source.BehindColon t → t.startsCode = false)
    (written : Text) :
    p.compile options source = .ok written ↔
      p.compile options source.carriageReturns = .ok written := by
  have hfit : ∀ raw ∈ source.lines, Layout.Fit ⟨0, true, source.BehindColon⟩ raw :=
    fun raw hraw => Layout.fit_of_mem_lines hreturn hraw
  have hsame := compile_template hp (fun _ => ⟨hstart, hend⟩) options hfit hcode
  rw [Layout.template_carriageReturns] at hsame
  rcases hsame with hsame | ⟨-, e, e', hfault, hfault'⟩
  · rw [hsame]
  · rw [hfault, hfault']
    exact ⟨(fun h => by cases h), fun h => by cases h⟩

/-- Attributes and a value that go on over several lines. There is code behind colons too, but in
a text and in a line for which nothing is pulled, so that it has no line feed where it is read. -/
def bracketsTemplate : Text :=
  "p(a=1\n  b=2): = f(x,\n  y)\n| so: --- z\nb: -include a=\n".toList

/-- Carriage returns change nothing there. -/
theorem Profile.compile_carriageReturns_brackets :
    '\r' ∉ bracketsTemplate ∧
    (∀ t, (mako id).Reads ⟨false, 3⟩ bracketsTemplate t → bracketsTemplate.BehindColon t →
      t.startsCode = false) ∧
    (mako id).compile ⟨false, 3⟩ bracketsTemplate.carriageReturns =
      .ok ("<p a=\"1\" b=\"2\">$\x7bf(x,y)\x7d</p>so: --- z" ++
        "<b><%include file=\"a=\"/></b>").toList := by
  have hreturn : '\r' ∉ bracketsTemplate := by decide
  have hcode : ∀ t, (mako id).Reads ⟨false, 3⟩ bracketsTemplate t →
      bracketsTemplate.BehindColon t → t.startsCode = false := by
    rintro t ⟨w, o, hmoves, ho, rfl⟩ htail
    -- one headline has its line feed, and the one that starts like code has not
    obtain ⟨texts, htexts, hends⟩ : ∃ texts : List Text,
        Outline.headlines? (mako id).recognise ((mako id).setting ((mako id).compileEmbedded 3 3))
          20 (.ofDocument bracketsTemplate) = some texts ∧
        texts.all (fun t => !(t.startsCode && t.getLast? == some '\n')) = true :=
      ⟨["p(a=1".toList, "= f(x,\n".toList, "| so: --- z".toList, "b: -include a=".toList,
        "-include a=".toList], by decide +kernel, by decide +kernel⟩
    have hplain := List.all_eq_true.1 hends _ (hmoves.mem_headlines? ho htexts)
    refine Bool.eq_false_iff.2 fun hcode => ?_
    rw [hcode, htail.getLast? hcode] at hplain
    cases hplain
  refine ⟨hreturn, hcode, ?_⟩
  refine (compile_carriageReturns mako_isStandard (by decide) (by decide) _ hreturn hcode _).1 ?_
  decide +kernel

/-- Code behind a colon does see the carriage return of a continuation: a fence keeps it inside open
brackets, and a tag of the template engine takes it for the value of an attribute. -/
theorem Profile.compile_code_sees_return :
    ('\r' ∉ "p(a=1\n): --- x (\nb)\n".toList ∧
      (mako id).compile ⟨false, 64⟩ "p(a=1\n): --- x (\nb)\n".toList =
        .ok "<p a=\"1\"><%\nx (b)\n\n%>\n</p>".toList ∧
      (mako id).compile ⟨false, 64⟩ (Text.carriageReturns "p(a=1\n): --- x (\nb)\n".toList) =
        .ok "<p a=\"1\"><%\nx (\rb)\n\n%>\n</p>".toList) ∧
    ('\r' ∉ "p(a=1\n): -include a=\n".toList ∧
      (mako id).compile ⟨false, 64⟩ "p(a=1\n): -include a=\n".toList =
        .ok "<p a=\"1\"><%include file=\"a=\"/></p>".toList ∧
      (mako id).compile ⟨false, 64⟩ (Text.carriageReturns "p(a=1\n): -include a=\n".toList) =
        .ok "<p a=\"1\"><%include a=\"$\x7b\x7d\"/></p>".toList) := by
  refine ⟨⟨by decide, ?_, ?_⟩, by decide, ?_, ?_⟩ <;> decide +kernel

end TerseMarkup
