import TerseMarkup.Proofs.Comparison
import TerseMarkup.Proofs.Termination

/-!
# Two compilations side by side

Two compilations of one template are compared move by move. `Comparison.Outlines` says when two
outlines are alike: they have the same line at hand and the same lines to come, and their open
blocks differ only in the texts that close them.

* `Comparison.Settings.scans_opening`: headlines open alike.
* `Outline.Moves.alike`: alike outlines stay alike, move by move, and what they write is alike.
* `Comparison.compileWith_alike`: so is what two compilations come to, if text with embedded markup
  is rendered alike; it is, if markup is compiled alike (`Comparison.renderSpans_alike`).
* `Profile.compile_with_more_depth`: more depth changes no result that is not for want of depth.
* `Profile.compile_under_delimiters`: delimiters do not change what is accepted.
-/

namespace TerseMarkup

open Place (Yields yields_of_isInfix)

namespace Comparison

variable {κ : Comparison} {α : Type} {t t' line : Text} {cur cur' : Cursor} {level : Nat}

/-- What is written for every kind of delimiters is alike if none of it is blank. -/
theorem texts_of_forall_solid (f : Delimiters → Text) (h : ∀ d, (f d).Solid) :
    κ.Texts (f κ.left) (f κ.right) :=
  texts_of_solid (fun heq => by rw [heq]) (h κ.left) (h κ.right)

/-- The line that starts a statement is not blank if its content is not, whatever the delimiters. -/
theorem solid_statementLine {content : Text} (h : content.Solid) (d : Delimiters) :
    (statementLine d content).Solid := by
  unfold statementLine Delimiters.statement
  exact (((h.prepend _).append _).prepend _).append _

/-- The line that ends a statement is never blank. -/
theorem solid_statementEndLine (keyword : Text) (d : Delimiters) :
    (statementEndLine d keyword).Solid := by
  have hend : Text.Solid "end".toList := by decide
  unfold statementEndLine Delimiters.statementEnd
  exact ((((hend.prepend _).append _).append _).prepend _).append _

/-- The opening tag of the template engine is never blank. -/
theorem solid_engineTag (name attributes : Text) : (engineTag name attributes).Solid :=
  Text.solid_of_head? rfl (by decide)

/-- The closing tag of the template engine is never blank. -/
theorem solid_engineEndTag (name : Text) : (engineEndTag name).Solid :=
  Text.solid_of_head? rfl (by decide)

/-! ## Statements -/

namespace BlindAt

/-- A statement is cut at the same colon in both readings. -/
theorem scans_splitStatement (h : κ.BlindAt ⟨t, cur⟩) :
    κ.Scans Eq cur (splitStatement κ.left t) (splitStatement κ.right t) := by
  apply Scans.bind (scans_refl (fun _ => rfl) _)
  rintro expr _ cur₁ hexpr rfl
  apply Scans.bind (h.of_yields (expression_yields hexpr)).scans_token?
  rintro found _ cur₂ - rfl
  exact scans_refl (fun _ => rfl) _

/-- The rest behind a colon is the same in both readings. -/
theorem scans_restAfterColon (h : κ.BlindAt ⟨t, cur⟩) :
    κ.Scans Eq cur (restAfterColon κ.left t) (restAfterColon κ.right t) := by
  apply Scans.bind h.scans_token?
  rintro found _ cur₁ - rfl
  exact scans_refl (fun _ => rfl) _

end BlindAt

/-- A text that is written, and what is read on with. -/
def Written (κ : Comparison) (found found' : Text × α) : Prop :=
  κ.Texts found.1 found'.1 ∧ found'.2 = found.2

/-- What two readings of a headline open. -/
inductive Openings (κ : Comparison) : Opening → Opening → Prop
  | leaf {w w' : Text} (hw : κ.Texts w w') (next : Line) : Openings κ (.leaf w next) (.leaf w' next)
  | block {w w' c c' : Text} (hw : κ.Texts w w') (hc : κ.Texts c c') :
      Openings κ (.block w c) (.block w' c')
  | inline {w w' c c' : Text} (hw : κ.Texts w w') (hc : κ.Texts c c') (rest : Text) :
      Openings κ (.inline w c rest) (.inline w' c' rest)
  | statement {w w' : Text} (hw : κ.Texts w w') (keyword rest : Text) :
      Openings κ (.statement w keyword rest) (.statement w' keyword rest)

/-- An opening is like itself. -/
theorem Openings.refl (opening : Opening) : κ.Openings opening opening := by
  cases opening with
  | leaf w next => exact .leaf (.refl w) next
  | block w c => exact .block (.refl w) (.refl c)
  | inline w c rest => exact .inline (.refl w) (.refl c) rest
  | statement w keyword rest => exact .statement (.refl w) keyword rest

/-- A statement opens alike: its line shows the delimiters, and is not blank. -/
theorem BlindAt.scans_openStatement {keyword : Text} (hkeyword : keyword.Solid)
    (h : κ.BlindAt ⟨t, cur⟩) :
    κ.Scans κ.Openings cur (openStatement κ.left keyword t) (openStatement κ.right keyword t) := by
  unfold openStatement
  split
  · refine scans_pure (.statement ?_ keyword [])
    exact texts_of_forall_solid (fun d => statementLine d keyword) (solid_statementLine hkeyword)
  · apply h.scans_splitStatement.bind
    rintro ⟨expr, rest⟩ _ cur₁ - rfl
    refine scans_pure (.statement ?_ keyword rest)
    exact texts_of_forall_solid (fun d => statementLine d (keyword ++ [' '] ++ expr))
      (solid_statementLine ((hkeyword.append _).append _))

/-- A negated statement opens alike. -/
theorem BlindAt.scans_openNegated {keyword : Text} (hkeyword : keyword.Solid)
    (h : κ.BlindAt ⟨t, cur⟩) :
    κ.Scans κ.Openings cur (openNegated κ.left keyword t) (openNegated κ.right keyword t) := by
  apply Scans.bind (scans_refl (fun _ => rfl) _)
  rintro expr _ cur₁ hexpr rfl
  exact (h.of_yields (negation_yields hexpr)).scans_openStatement hkeyword

/-- A clause is read alike. -/
theorem BlindAt.scans_clause (clause : Clause) (h : κ.BlindAt ⟨t, cur⟩) :
    κ.Scans κ.Written cur (clause.read κ.left t) (clause.read κ.right t) := by
  have hword : Text.Solid clause.word.toList := by
    cases clause <;> decide
  cases clause with
  | elif | except =>
    apply h.scans_splitStatement.bind
    rintro ⟨expr, rest⟩ _ cur₁ - rfl
    refine scans_pure ⟨?_, rfl⟩
    refine texts_of_forall_solid (fun d => statementLine d _) (solid_statementLine ?_)
    split
    · exact hword
    · exact (hword.append _).append _
  | otherwise | lastly =>
    apply h.scans_restAfterColon.bind
    rintro rest _ cur₁ - rfl
    refine scans_pure ⟨?_, rfl⟩
    exact texts_of_forall_solid (fun d => statementLine d _) (solid_statementLine hword)

/-! ## Blocks of raw lines -/

/-- Lines that are copied as they are do not depend on the setting. -/
theorem scans_verbatimBlock (s s' : Setting) :
    κ.Scans Eq cur (verbatimBlock s level) (verbatimBlock s' level) :=
  .inl (.of_eq rfl fun _ => rfl)

/-- A block that is copied is empty or not blank. -/
theorem solid_of_verbatimBlock {s : Setting} {body : Text} {next : Line}
    (h : verbatimBlock s level cur = (.ok (body, next), cur')) (hne : body ≠ []) : body.Solid := by
  obtain ⟨block, -, htext⟩ := literalBlock_eq_ok_iff.1 h
  have hbody : Text.trimEnd (alignLines none block) = body := htext
  rw [← hbody] at hne ⊢
  exact Text.solid_trimEnd hne

/-- Code on a headline is there only if it is not blank. -/
theorem solid_of_filter_trim {expr : Option Text} {first : Text}
    (h : (expr.map Text.trim).filter (!·.isEmpty) = some first) : first.Solid := by
  obtain ⟨hmem, hne⟩ := Option.filter_eq_some_iff.1 h
  obtain ⟨u, -, rfl⟩ := Option.map_eq_some_iff.1 hmem
  have hne : u.trim ≠ [] := by simpa using hne
  exact Text.solid_trimEnd hne

namespace Settings

variable {s s' : Setting} (hs : κ.Settings s s')

include hs

/-- A literal block is written alike, as its text is rendered alike. -/
theorem scans_literalBlock {headline : Text} (hcut : headline.drop 1 <:+: line)
    (h : κ.BlindAt ⟨line, cur⟩) :
    κ.Scans κ.Written cur (literalBlock s level headline true)
      (literalBlock s' level headline true) := by
  unfold literalBlock
  apply Scans.bind (scans_refl (fun _ => rfl) _)
  rintro n _ cur₁ hn rfl
  cases hn
  apply Scans.bind (scans_refl (fun _ => rfl) _)
  rintro ⟨block, next⟩ _ cur₂ hblock rfl
  have hblind : κ.Blind (literalText headline block) := by
    refine h.of_count_le ?_
    rw [List.count_append]
    exact literalText_count_le hblock hcut (by decide)
  apply ((hs.spans _ _ hblind).scans cur₂).bind
  intro written written' cur₃ _ hwritten
  exact scans_pure ⟨hwritten, rfl⟩

/-- Code is written alike. -/
theorem scans_openCode (moduleLevel : Bool) (expr : Option Text) :
    κ.Scans κ.Openings cur (openCode s level moduleLevel expr)
      (openCode s' level moduleLevel expr) := by
  unfold openCode
  rw [hs.left, hs.right]
  simp only
  generalize hfirst : (expr.map Text.trim).filter (!·.isEmpty) = first
  apply (scans_verbatimBlock s s').bind
  rintro ⟨body, next⟩ _ cur₁ hbody rfl
  simp only
  split
  · exact scans_pure (.refl _)
  · rename_i hwritten
    -- There is code on the headline or in the block, and neither is blank.
    have hcode : Text.Solid ((first.map (· ++ ['\n'])).getD []) ∨ Text.Solid body.trimEnd := by
      cases first with
      | none =>
        right
        have hne : body ≠ [] := fun hnil => hwritten (by rw [hnil]; rfl)
        exact (solid_of_verbatimBlock hbody hne).trimEnd
      | some first => exact .inl ((solid_of_filter_trim hfirst).append ['\n'])
    refine scans_pure (.leaf ?_ next)
    refine texts_of_forall_solid (fun d => d.codeStart ++ (if moduleLevel then ['!'] else []) ++
      ['\n'] ++ (first.map (· ++ ['\n'])).getD [] ++ body.trimEnd ++ ['\n'] ++ d.codeEnd ++
      ['\n']) fun d => ?_
    refine Text.Solid.append (Text.Solid.append (Text.Solid.append ?_ _) _) _
    rcases hcode with hcode | hcode
    · exact (hcode.prepend _).append _
    · exact hcode.prepend _

/-- Code behind a fence is cut at the same place, and written alike. -/
theorem scans_openFencedCode (moduleLevel : Bool) {expr : Option Text}
    (hcut : ∀ t ∈ expr, t <:+: line) (h : κ.BlindAt ⟨line, cur⟩) :
    κ.Scans κ.Openings cur (openFencedCode s level moduleLevel expr)
      (openFencedCode s' level moduleLevel expr) := by
  cases expr with
  | none => exact hs.scans_openCode moduleLevel none
  | some t =>
    unfold openFencedCode
    rw [hs.left, hs.right]
    have hblind := h.of_yields (yields_of_isInfix cur (hcut t rfl))
    apply Scans.bind hblind.scans_token?
    rintro found _ cur₁ - rfl
    exact hs.scans_openCode moduleLevel _

/-- A value is written alike. -/
theorem scans_openValue (unescaped spaced : Bool) (expr : Text) (h : κ.Blind line) :
    κ.Scans κ.Openings cur (openValue s level unescaped spaced expr)
      (openValue s' level unescaped spaced expr) := by
  unfold openValue
  rw [hs.left, hs.right]
  apply Scans.bind (scans_refl (fun _ => rfl) _)
  rintro ⟨block, next⟩ _ cur₁ - rfl
  refine scans_pure (.leaf (Texts.append ?_ (.refl _)) next)
  exact h.value fun d => if unescaped then d.withoutEscaping _ else _

/-- A block in another markup language is written alike, since the transpilers are the same. -/
theorem scans_openMarkup (language : Text) :
    κ.Scans κ.Openings cur (openMarkup s level language) (openMarkup s' level language) := by
  unfold openMarkup
  rw [hs.transpiler?]
  split
  · exact scans_refl .refl _
  · apply (scans_verbatimBlock s s').bind
    rintro ⟨body, next⟩ _ cur₁ - rfl
    exact scans_pure (.refl _)

/-! ## Elements -/

/-- An element opens alike. -/
theorem scans_openElement (disguise : Option Disguise) (h : κ.BlindAt ⟨line, cur⟩) :
    κ.Scans κ.Openings cur (openElement s disguise line) (openElement s' disguise line) := by
  have htrim := h.of_yields (yields_of_isInfix cur (Text.trim_isInfix line))
  apply (hs.scans_read disguise htrim).bind
  intro e e' cur₁ _ he
  rw [he.rest, he.closed]
  split
  · exact scans_pure (.block he.opened (.refl _))
  · exact scans_pure (.inline he.opened (.refl _) e.rest)

/-- An element that is copied as it is opens alike. -/
theorem scans_openVerbatim (h : κ.BlindAt ⟨line, cur⟩) :
    κ.Scans κ.Openings cur (openVerbatim s level line) (openVerbatim s' level line) := by
  have htrim := h.of_yields (yields_of_isInfix cur (Text.trim_isInfix line))
  apply (hs.scans_read none htrim).bind
  intro e e' cur₁ _ he
  apply (scans_verbatimBlock s s').bind
  rintro ⟨body, next⟩ _ cur₂ - rfl
  rw [he.closed]
  exact scans_pure (.leaf (((he.opened.append (.refl _)).append (.refl _)).append (.refl _)) next)

/-- A named piece of template opens alike. -/
theorem scans_openDefinition (h : κ.BlindAt ⟨t, cur⟩) :
    κ.Scans κ.Openings cur (openDefinition s t) (openDefinition s' t) := by
  apply (hs.scans_read none h).bind
  intro e e' cur₁ _ he
  refine scans_pure (.block (texts_of_solid (fun heq => ?_) ?_ ?_) ?_)
  · rw [he.eq heq]
  · exact solid_engineTag _ _
  · exact solid_engineTag _ _
  · rw [he.name]
    exact .refl _

/-- A tag without content is written alike. -/
theorem scans_openDirective (h : κ.BlindAt ⟨t, cur⟩) :
    κ.Scans κ.Openings cur (openDirective s level t) (openDirective s' level t) := by
  apply (hs.scans_read none h).bind
  intro e e' cur₁ _ he
  refine scans_pure (.leaf (texts_of_solid (fun heq => ?_) ?_ ?_) _)
  · rw [he.eq heq]
  · exact Text.solid_of_head? rfl (by decide)
  · exact Text.solid_of_head? rfl (by decide)

/-- Content that is kept from the template engine is written alike. -/
theorem scans_openShielded (h : κ.BlindAt ⟨t, cur⟩) :
    κ.Scans κ.Openings cur (openShielded s level t) (openShielded s' level t) := by
  apply (hs.scans_read none h).bind
  intro e e' cur₁ _ he
  apply (scans_verbatimBlock s s').bind
  rintro ⟨body, next⟩ _ cur₂ - rfl
  refine scans_pure (.leaf (texts_of_solid (fun heq => ?_) ?_ ?_) next)
  · rw [he.eq heq]
  · exact (solid_engineEndTag _).prepend _
  · exact (solid_engineEndTag _).prepend _

/-- A call has to be named, and what names it is blank in both readings or in neither. -/
theorem scans_openCall (headline : Text) (h : κ.BlindAt ⟨t, cur⟩) :
    κ.Scans κ.Openings cur (openCall s headline t) (openCall s' headline t) := by
  apply (hs.scans_read none h).bind
  intro e e' cur₁ _ he
  simp only [he.content.isEmpty_trim]
  split
  · exact scans_refl .refl _
  · refine scans_pure (.block (texts_of_solid (fun heq => ?_) ?_ ?_)
      (texts_of_solid (fun heq => ?_) (solid_engineEndTag _) (solid_engineEndTag _)))
    · rw [he.eq heq]
    · exact (solid_engineTag _ _).prepend _
    · exact (solid_engineTag _ _).prepend _
    · rw [he.eq heq]

/-! ## All headlines -/

/-- Headlines open alike. -/
theorem scans_opening {headline : Headline} (hseen : headline.SeenIn line)
    (h : κ.BlindAt ⟨line, cur⟩) :
    κ.Scans κ.Openings cur (headline.opening s level line) (headline.opening s' level line) := by
  have hstatement : ∀ word ∈ statementWords.map String.toList, Text.Solid word := by decide
  have hjump : ∀ word ∈ jumpWords.map String.toList, Text.Solid word := by decide
  have htagged {lead word rest : Text} (heq : line = lead ++ (word ++ rest)) :
      κ.BlindAt ⟨word ++ Rule.spacedRest rest, cur⟩ :=
    h.of_yields (yields_of_isInfix cur (Headline.isInfix_of_tagged heq))
  cases headline with
  | verbatimElement => exact hs.scans_openVerbatim h
  | doctype name => exact scans_refl .refl _
  | scriptTemplate => exact hs.scans_openElement _ h
  | element => exact hs.scans_openElement _ h
  | literal text =>
    apply (hs.scans_literalBlock hseen h).bind
    rintro ⟨written, next⟩ ⟨written', _⟩ cur₁ - ⟨hwritten, rfl⟩
    exact scans_pure (.leaf hwritten _)
  | html => exact scans_refl .refl _
  | value unescaped spaced expr => exact hs.scans_openValue unescaped spaced expr h.text
  | comment => exact scans_refl .refl _
  | statement keyword expr =>
    obtain ⟨lead, rest, hd, rfl⟩ := hseen
    have hcut := h.of_yields (yields_of_isInfix cur (Rule.isInfix_of_dashWord? hd))
    show κ.Scans _ _ (openStatement s.delimiters _ _) (openStatement s'.delimiters _ _)
    rw [hs.left, hs.right]
    exact hcut.scans_openStatement (hstatement keyword (Rule.eq_append_of_dashWord? hd).2.2)
  | negated keyword expr =>
    obtain ⟨hmem, lead, word, rest, hd, rfl⟩ := hseen
    have hcut := h.of_yields (yields_of_isInfix cur (Rule.isInfix_of_dashWord? hd))
    show κ.Scans _ _ (openNegated s.delimiters _ _) (openNegated s'.delimiters _ _)
    rw [hs.left, hs.right]
    exact hcut.scans_openNegated (hstatement keyword hmem)
  | fencedCode moduleLevel expr => exact hs.scans_openFencedCode moduleLevel hseen h
  | code moduleLevel expr => exact hs.scans_openCode moduleLevel expr
  | definition t =>
    obtain ⟨lead, word, rest, heq, -, rfl⟩ := hseen
    exact hs.scans_openDefinition (htagged heq)
  | directive t =>
    obtain ⟨lead, word, rest, heq, -, rfl⟩ := hseen
    exact hs.scans_openDirective (htagged heq)
  | shielded t =>
    obtain ⟨lead, word, rest, heq, -, rfl⟩ := hseen
    exact hs.scans_openShielded (htagged heq)
  | call t =>
    obtain ⟨lead, word, rest, heq, -, rfl⟩ := hseen
    exact hs.scans_openCall line (htagged heq)
  | jump keyword =>
    refine scans_pure (.leaf ?_ _)
    rw [hs.left, hs.right]
    refine texts_of_forall_solid (fun d => jumpLine d keyword) fun d => ?_
    have hkeyword := hjump keyword hseen
    exact (((hkeyword.prepend _).append _).append _).append _
  | markup language => exact hs.scans_openMarkup language
  | custom read => exact hseen.elim

end Settings

/-! ## Outlines -/

/-- Open blocks that differ in nothing but the text that closes them. -/
inductive Frames (κ : Comparison) : Frame → Frame → Prop
  | document : Frames κ .document .document
  | block (level : Nat) {c c' : Text} (hc : κ.Texts c c') :
      Frames κ (.block level c) (.block level c')
  | inline (level : Nat) {c c' : Text} (hc : κ.Texts c c') :
      Frames κ (.inline level c) (.inline level c')
  | statement (level : Nat) (keyword : Text) (taken : List Clause) :
      Frames κ (.statement level keyword taken) (.statement level keyword taken)

/-- Stacks of such blocks. -/
inductive Stacks (κ : Comparison) : List Frame → List Frame → Prop
  | nil : Stacks κ [] []
  | cons {frame frame' : Frame} {outer outer' : List Frame} (hframe : κ.Frames frame frame')
      (houter : Stacks κ outer outer') : Stacks κ (frame :: outer) (frame' :: outer')

/-- Outlines that differ in nothing but the texts that close their blocks. -/
inductive Outlines (κ : Comparison) : Outline → Outline → Prop
  | mk {stack stack' : List Frame} (h : κ.Stacks stack stack') (line : Line) (announced : Bool)
      (cur : Cursor) : Outlines κ ⟨stack, line, announced, cur⟩ ⟨stack', line, announced, cur⟩

/-- Stacks of alike blocks can be put together. -/
theorem Stacks.append {inner inner' outer outer' : List Frame} (h : κ.Stacks inner inner')
    (houter : κ.Stacks outer outer') : κ.Stacks (inner ++ outer) (inner' ++ outer') := by
  induction h with
  | nil => exact houter
  | cons hframe _ ih => exact .cons hframe ih

/-- What is alike to an outline with a block open has one open, too. -/
theorem Outlines.exists_cons {frame : Frame} {outer : List Frame} {line : Line} {announced : Bool}
    {o : Outline} (h : κ.Outlines ⟨frame :: outer, line, announced, cur⟩ o) :
    ∃ frame' outer', o = ⟨frame' :: outer', line, announced, cur⟩ ∧ κ.Frames frame frame' ∧
      κ.Stacks outer outer' := by
  cases h with
  | mk hstack =>
    cases hstack with
    | cons hframe houter => exact ⟨_, _, rfl, hframe, houter⟩

section

variable {frame frame' : Frame} {opening opening' : Opening}

/-- Alike blocks are closed alike. -/
theorem Frames.closing {s s' : Setting} (h : κ.Frames frame frame') (hs : κ.Settings s s') :
    κ.Texts (frame.closing s.delimiters) (frame'.closing s'.delimiters) := by
  cases h with
  | document => exact .refl _
  | block level hc => exact hc
  | inline level hc => exact hc
  | statement level keyword taken =>
    rw [hs.left, hs.right]
    exact texts_of_forall_solid (fun d => statementEndLine d keyword)
      (solid_statementEndLine keyword)

/-- Alike blocks announce the same lines. -/
theorem Frames.announces (h : κ.Frames frame frame') {line : Line}
    (ha : frame.Announces line level) : frame'.Announces line level := by
  cases h with
  | document => exact ha
  | block _ hc =>
    cases ha with
    | block hbody hdeep => exact .block hbody hdeep
  | inline _ hc =>
    cases ha with
    | inline hbody hdeep => exact .inline hbody hdeep
  | statement => exact ha

/-- Alike blocks hand on the same lines. -/
theorem Frames.handsOn (h : κ.Frames frame frame') {line : Line} (ha : frame.HandsOn line) :
    frame'.HandsOn line := by
  cases h with
  | document => exact ha
  | block _ hc =>
    cases ha with
    | block hbody hdeep => exact .block hbody hdeep
  | inline _ hc =>
    cases ha with
    | inline hline => exact .inline hline
  | statement => exact ha

/-- Alike blocks pull in the same cases. -/
theorem Frames.pulls (h : κ.Frames frame frame') (hpull : frame.Pulls) : frame'.Pulls := by
  cases h <;> exact hpull

/-- A statement has the same blocks open in both readings. -/
theorem stacks_statementFrames (level : Nat) (keyword : Text) (taken : List Clause) (rest : Text) :
    κ.Stacks (Opening.statementFrames level keyword taken rest)
      (Opening.statementFrames level keyword taken rest) := by
  unfold Opening.statementFrames
  refine Stacks.append ?_ (.cons (.statement level keyword taken) .nil)
  split
  · exact .nil
  · exact .cons (.inline level (.refl _)) .nil

/-- Alike openings write alike texts. -/
theorem Openings.written (h : κ.Openings opening opening') :
    κ.Texts opening.written opening'.written := by
  cases h with
  | leaf hw | block hw | inline hw | statement hw => exact hw

/-- Alike openings open alike blocks. -/
theorem Openings.stacks (h : κ.Openings opening opening') (level : Nat) :
    κ.Stacks (opening.frames level) (opening'.frames level) := by
  cases h with
  | leaf hw next => exact .nil
  | block hw hc => exact .cons (.block level hc) .nil
  | inline hw hc rest => exact .cons (.inline level hc) .nil
  | statement hw keyword rest => exact stacks_statementFrames level keyword [] rest

/-- Alike openings have the same line at hand. -/
theorem Openings.line_eq (h : κ.Openings opening opening') (level : Nat) :
    opening'.line level = opening.line level := by
  cases h <;> rfl

/-- Alike openings announce that line, or neither does. -/
theorem Openings.announces_eq (h : κ.Openings opening opening') :
    opening'.announces = opening.announces := by
  cases h <;> rfl

end

end Comparison

/-! ## Moves -/

namespace Outline

open Comparison

variable {κ : Comparison} {p : Profile} {s s' : Setting} {o o' q : Outline} {w : Text}
  {e : Diagnostic} {cur : Cursor}

/-- Alike outlines make the same move, and stay alike. -/
theorem Steps.alike (hp : p.IsStandard) (hs : κ.Settings s s') (h : Steps p.recognise s o w q)
    (ho : κ.Outlines o o') (hblind : κ.BlindAt o.place) :
    ∃ w' q', Steps p.recognise s' o' w' q' ∧ κ.Texts w w' ∧ κ.Outlines q q' := by
  -- Only headlines and clauses are read; the other moves depend on the line and the blocks.
  cases h with
  | look hfound hopen =>
    cases ho with
    | mk hstack line announced cur =>
      have hseen := (Profile.headline_seen hp hfound).2
      obtain ⟨opening', hopen', hopening⟩ := (hs.scans_opening hseen hblind).of_ok hopen
      refine ⟨_, _, .look hfound hopen', hopening.written, ?_⟩
      rw [hopening.line_eq, hopening.announces_eq]
      exact .mk ((hopening.stacks _).append hstack) _ _ _
  | announce h =>
    obtain ⟨frame', outer', rfl, hframe, houter⟩ := ho.exists_cons
    exact ⟨_, _, .announce (hframe.announces h), .refl _, .mk (.cons hframe houter) _ _ _⟩
  | handOn h =>
    obtain ⟨frame', outer', rfl, hframe, houter⟩ := ho.exists_cons
    exact ⟨_, _, .handOn (hframe.handsOn h), hframe.closing hs, .mk houter _ _ _⟩
  | finish hpull hbody hnext =>
    obtain ⟨frame', outer', rfl, hframe, houter⟩ := ho.exists_cons
    exact ⟨_, _, .finish (hframe.pulls hpull) hbody hnext, hframe.closing hs, .mk houter _ _ _⟩
  | pull hpull hbody hnext =>
    obtain ⟨frame', outer', rfl, hframe, houter⟩ := ho.exists_cons
    exact ⟨_, _, .pull (hframe.pulls hpull) hbody hnext, .refl _,
      .mk (.cons hframe houter) _ _ _⟩
  | clause hbody hnext hread =>
    obtain ⟨frame', outer', rfl, ⟨⟩, houter⟩ := ho.exists_cons
    have hcut := hblind.of_yields (yields_of_isInfix _ (Clause.isInfix_of_next? hnext))
    rw [hs.left] at hread
    obtain ⟨⟨w', rest'⟩, hread', hw, rfl⟩ := (hcut.scans_clause _).of_ok hread
    rw [← hs.right] at hread'
    exact ⟨_, _, .clause hbody hnext hread', hw,
      .mk ((stacks_statementFrames _ _ _ _).append houter) _ _ _⟩

/-- Alike outlines fail alike. -/
theorem Fails.alike (hp : p.IsStandard) (hs : κ.Settings s s') (h : Fails p.recognise s o e cur)
    (ho : κ.Outlines o o') (hblind : κ.BlindAt o.place) :
    Fails p.recognise s' o' e cur ∨ κ.excused e := by
  cases h with
  | unrecognised hnone =>
    cases ho with
    | mk hstack line announced cur => exact .inl (.unrecognised hnone)
  | headline hfound hopen =>
    cases ho with
    | mk hstack line announced cur =>
      have hseen := (Profile.headline_seen hp hfound).2
      exact ((hs.scans_opening hseen hblind).of_error hopen).imp_left (.headline hfound)
  | clause hbody hnext hread =>
    obtain ⟨frame', outer', rfl, ⟨⟩, houter⟩ := ho.exists_cons
    have hcut := hblind.of_yields (yields_of_isInfix _ (Clause.isInfix_of_next? hnext))
    rw [hs.left] at hread
    rcases (hcut.scans_clause _).of_error hread with hread' | he
    · rw [← hs.right] at hread'
      exact .inl (.clause hbody hnext hread')
    · exact .inr he

/-- Alike outlines stay alike, move by move. -/
theorem Moves.alike (hp : p.IsStandard) (hs : κ.Settings s s') (h : Moves p.recognise s o w q)
    (ho : κ.Outlines o o') (hblind : κ.BlindAt o.place) :
    ∃ w' q', Moves p.recognise s' o' w' q' ∧ κ.Texts w w' ∧ κ.Outlines q q' := by
  induction h generalizing o' with
  | refl o => exact ⟨[], o', .refl o', .refl _, ho⟩
  | step hstep hm ih =>
    obtain ⟨w₁, o₁, hstep', hw₁, ho₁⟩ := hstep.alike hp hs ho hblind
    obtain ⟨w₂, o₂, hm', hw₂, ho₂⟩ := ih ho₁ (hblind.of_yields (hstep.yields hp))
    exact ⟨w₁ ++ w₂, o₂, .step hstep' hm', hw₁.append hw₂, ho₂⟩

end Outline

/-! ## Lines of faults -/

namespace Diagnostic

/-- A diagnostic that is moved twice is at the second line. -/
theorem atLine_atLine (e : Diagnostic) (m n : Nat) : (e.atLine m).atLine n = e.atLine n := by
  cases e <;> rfl

/-- Faults that are the same but for their lines are the same at any one line. -/
theorem atLine_congr {e e' : Diagnostic} (h : e'.atLine 0 = e.atLine 0) (n : Nat) :
    e'.atLine n = e.atLine n := by
  rw [← e'.atLine_atLine 0 n, h, e.atLine_atLine 0 n]

/-- A fault that only differs in its line from an unrecognised line is one. -/
theorem eq_unrecognised_of_atLine {e : Diagnostic} {n : Nat} {body : Text}
    (h : e.atLine 0 = (unrecognised n body).atLine 0) : ∃ m, e = .unrecognised m body := by
  cases e with
  | unrecognised m body' =>
    cases h
    exact ⟨m, rfl⟩
  | _ => cases h

end Diagnostic

/-! ## Compilations -/

/-- Moves up to a stop settle what a compilation comes to. -/
theorem Profile.compileWith_of_moves {p : Profile} (hp : p.IsStandard)
    {embedded : Text → Except Diagnostic Text} {source written : Text} {last : Outline}
    {result : Except Diagnostic Line} {cur : Cursor}
    (hm : Outline.Moves p.recognise (p.setting embedded) (.ofDocument source) written last)
    (hstop : last.step p.recognise (p.setting embedded) = .stop result cur) :
    p.compileWith embedded source = result.map fun _ => written := by
  unfold compileWith
  rw [Outline.run_of_moves hp hm, Outline.run_of_stop hstop]
  cases result with
  | error e => rfl
  | ok line => simp [Outline.prependWritten, Except.map]

namespace Comparison

variable {κ : Comparison} {f g : Text → Except Diagnostic Text} {r r' : Except Diagnostic Text}
  {w w' t : Text}

/-- Compilations are alike if text with embedded markup is rendered alike. -/
theorem compileWith_alike {p : Profile} (hp : p.IsStandard)
    (hspans : ∀ n t, κ.Blind t → κ.Results (renderSpans f n t) (renderSpans g n t))
    (ht : κ.Blind t) :
    κ.Results ({ p with delimiters := κ.left }.compileWith f t)
      ({ p with delimiters := κ.right }.compileWith g t) := by
  have hs : κ.Settings ({ p with delimiters := κ.left }.setting f)
      ({ p with delimiters := κ.right }.setting g) := ⟨rfl, rfl, rfl, hspans⟩
  have hblind : κ.BlindAt (Outline.ofDocument t).place := by
    show κ.Blind (t.lines.flatten)
    rw [Text.flatten_lines]
    exact ht
  obtain ⟨w, last, result, cur, hm, hstop, hresult⟩ :=
    Profile.exists_moves_of_compileWith (p := { p with delimiters := κ.left }) hp f t
  obtain ⟨w', last', hm', hw, hlast⟩ :=
    hm.alike hp hs (.mk (.cons .document .nil) _ _ _) hblind
  rw [hresult]
  cases result with
  | ok line =>
    have hdone := Outline.eq_of_step_eq_stop hstop
    subst hdone
    cases hlast with
    | mk hstack =>
      cases hstack
      rw [Profile.compileWith_of_moves (p := { p with delimiters := κ.right }) hp hm' rfl]
      exact .ok hw
  | error e =>
    have hfails := Outline.step_eq_error_iff.1 hstop
    rcases hfails.alike hp hs hlast (hblind.of_yields (hm.yields hp)) with hfails' | he
    · rw [Profile.compileWith_of_moves (p := { p with delimiters := κ.right }) hp hm'
        (Outline.step_eq_error_iff.2 hfails')]
      exact .error e
    · exact .excused he _

/-! ## Embedded markup -/

/-- Alike texts can be put in front of alike results. -/
theorem Results.prepend (hw : κ.Texts w w') (h : κ.Results r r') :
    κ.Results (r.map (w ++ ·)) (r'.map (w' ++ ·)) := by
  cases h with
  | ok ht => exact .ok (hw.append ht)
  | error e => exact .error e
  | excused he r' => exact .excused he _

/-- With the same delimiters two compilations come to the same, or the first stops early. -/
theorem Results.eq_or_excused (h : κ.Results r r') (heq : κ.right = κ.left) :
    r' = r ∨ ∃ e, r = .error e ∧ κ.excused e := by
  cases h with
  | ok htexts => exact .inl (by rw [htexts.same heq])
  | error e => exact .inl rfl
  | excused he r' => exact .inr ⟨_, rfl, he⟩

/-- What two compilers of embedded markup come to: their faults are the same, up to the line. -/
inductive Fragments (κ : Comparison) : Except Diagnostic Text → Except Diagnostic Text → Prop
  | ok {t t' : Text} (h : κ.Texts t t') : Fragments κ (.ok t) (.ok t')
  | error {e e' : Diagnostic} (h : e'.atLine 0 = e.atLine 0) : Fragments κ (.error e) (.error e')
  | excused {e : Diagnostic} (h : κ.excused e) (r : Except Diagnostic Text) :
      Fragments κ (.error e) r

/-- Alike results are alike as fragments. -/
theorem Results.fragments (h : κ.Results r r') : κ.Fragments r r' := by
  cases h with
  | ok ht => exact .ok ht
  | error e => exact .error rfl
  | excused he r' => exact .excused he r'

/-- What is written for a span at line `n` and for the rest of the text, from what the markup of the
span comes to. -/
def inPlace (n : Nat) (shown : Text) (rest : Except Diagnostic Text) :
    Except Diagnostic Text → Except Diagnostic Text
  | .ok out => rest.map (out ++ ·)
  | .error (.unrecognised _ _) => rest.map (shown ++ ·)
  | .error d => .error (d.atLine n)

/-- A fault of the markup is the fault of the text, at the line of the span. A line that no rule
recognises is the exception. -/
theorem inPlace_error {n : Nat} {shown : Text} {d : Diagnostic}
    (hknown : ∀ line body, d ≠ .unrecognised line body) :
    inPlace n shown r (.error d) = .error (d.atLine n) := by
  unfold inPlace
  split
  · rename_i heq
    cases heq
  · rename_i heq
    cases heq
    exact absurd rfl (hknown _ _)
  · rename_i heq
    cases heq
    rfl

/-- A fault of markup shows where the markup stands, and not in its own lines. -/
theorem Fragments.inPlace {x x' : Except Diagnostic Text} (h : κ.Fragments x x') (n : Nat)
    (shown : Text) (hr : κ.Results r r') :
    κ.Results (inPlace n shown r x) (inPlace n shown r' x') := by
  cases h with
  | ok htexts => exact hr.prepend htexts
  | @error e e' he =>
    by_cases hbody : ∃ line body, e = .unrecognised line body
    · obtain ⟨line, body, rfl⟩ := hbody
      obtain ⟨line', rfl⟩ := Diagnostic.eq_unrecognised_of_atLine he
      exact hr.prepend (.refl shown)
    · have hknown : ∀ line body, e ≠ .unrecognised line body :=
        fun line body heq => hbody ⟨line, body, heq⟩
      have hknown' : ∀ line body, e' ≠ .unrecognised line body := by
        rintro line body rfl
        obtain ⟨line', rfl⟩ := Diagnostic.eq_unrecognised_of_atLine he.symm
        exact hknown line' body rfl
      rw [inPlace_error hknown, inPlace_error hknown', Diagnostic.atLine_congr he n]
      exact .error _
  | @excused e he =>
    rw [inPlace_error]
    · exact .excused (κ.excused_atLine n he) _
    · rintro line body rfl
      exact κ.not_excused_unrecognised line body he

/-- The delimiters make no difference to what follows a span, nor to the markup in it. -/
theorem Blind.of_closeSpan? {markup written rest : Text} (ht : κ.Blind ('\x60' :: t))
    (h : closeSpan? t = some (markup, written, rest)) : κ.Blind rest ∧ κ.Blind markup.trim := by
  have heq := eq_append_of_closeSpan? h
  have hrest : rest.Sublist t := by
    rw [heq]
    exact List.sublist_append_right written rest
  have hmarkup : markup.trim.Sublist t := by
    rw [heq]
    exact ((Text.trim_isInfix markup).sublist.trans (sublist_of_closeSpan? h)).trans
      (List.sublist_append_left written rest)
  exact ⟨ht.of_count_le ((hrest.cons _).count_le _), ht.of_count_le ((hmarkup.cons _).count_le _)⟩

/-- Text is rendered alike if markup is compiled alike, up to the lines of faults. -/
theorem renderSpans_alike (hfg : ∀ t, κ.Blind t → κ.Fragments (f t) (g t)) (n : Nat) (t : Text)
    (ht : κ.Blind t) : κ.Results (renderSpans f n t) (renderSpans g n t) := by
  fun_induction renderSpans f n t with
  | case1 =>
    rw [renderSpans]
    exact .ok (.refl _)
  | case2 n =>
    rw [renderSpans.eq_def]
    exact .error _
  | case3 n u ih =>
    have hrest := ih (ht.of_count_le (((List.sublist_cons_self _ _).cons _).count_le _))
    simp only [renderSpans, if_true]
    exact hrest.prepend (.refl ['\x60'])
  | case4 n b u hb hs =>
    rw [renderSpans_unclosed g n hb hs]
    exact .error _
  | case5 n b u hb markup shown rest hs after hnil ih =>
    rw [renderSpans_span g n hb hs, if_pos hnil]
    exact ih (ht.of_closeSpan? hs).1
  | case6 n b u hb markup shown rest hs after hnil out hc ih =>
    obtain ⟨hrest, hmarkup⟩ := ht.of_closeSpan? hs
    have hplaced := (hfg _ hmarkup).inPlace n ('\x60' :: shown) (ih hrest)
    rw [renderSpans_span g n hb hs, if_neg hnil]
    rw [hc] at hplaced
    exact hplaced
  | case7 n b u hb markup shown rest hs after hnil line body hc ih =>
    obtain ⟨hrest, hmarkup⟩ := ht.of_closeSpan? hs
    have hplaced := (hfg _ hmarkup).inPlace n ('\x60' :: shown) (ih hrest)
    rw [renderSpans_span g n hb hs, if_neg hnil]
    rw [hc] at hplaced
    exact hplaced
  | case8 n b u hb markup shown rest hs hnil d hknown hc =>
    have hmarkup := (ht.of_closeSpan? hs).2
    have hplaced := (hfg _ hmarkup).inPlace n ('\x60' :: shown)
      (.refl (renderSpans g (n + shown.count '\n') rest))
    rw [renderSpans_span g n hb hs, if_neg hnil]
    rw [hc, inPlace_error hknown] at hplaced
    exact hplaced
  | case9 n c t hc ih =>
    have hrest := ih (ht.of_count_le ((List.sublist_cons_self c t).count_le _))
    rw [renderSpans_cons g n t hc]
    exact hrest.prepend (.refl [c])

/-- Markup is compiled alike with the same number of levels, or with more of them if the first
compiler is excused where it has none left. -/
theorem compileEmbedded_alike {p : Profile} (hp : p.IsStandard) {limit limit' levels levels' : Nat}
    (hlevels : κ.excused (.tooDeep limit) ∧ levels ≤ levels' ∨ limit = limit' ∧ levels = levels')
    (ht : κ.Blind t) :
    κ.Results ({ p with delimiters := κ.left }.compileEmbedded limit levels t)
      ({ p with delimiters := κ.right }.compileEmbedded limit' levels' t) := by
  -- The induction is on the levels of the first compiler. The second one has as many, or it may do
  -- as it likes once the first one has none.
  induction levels generalizing levels' t with
  | zero =>
    rcases hlevels with ⟨he, -⟩ | ⟨rfl, rfl⟩
    · exact .excused he _
    · exact .error _
  | succ levels ih =>
    have hpos : 1 ≤ levels' := by omega
    obtain ⟨levels', rfl⟩ := Nat.exists_eq_add_of_le' hpos
    have hlevels : κ.excused (.tooDeep limit) ∧ levels ≤ levels' ∨
        limit = limit' ∧ levels = levels' :=
      hlevels.imp (And.imp_right Nat.le_of_succ_le_succ) (And.imp_right Nat.succ.inj)
    refine compileWith_alike hp (renderSpans_alike fun t ht => ?_) ht
    exact (ih hlevels ht).fragments

/-! ## Greater depth and other delimiters -/

/-- Two readings with the same delimiters, where the first may stop at markup that is nested too
deep for it. -/
def deeper (d : Delimiters) : Comparison where
  left := d
  right := d
  excused e := ∃ limit, e = .tooDeep limit
  excused_atLine n := by
    rintro ⟨limit, rfl⟩
    exact ⟨limit, rfl⟩
  not_excused_unrecognised n body := by
    rintro ⟨limit, h⟩
    cases h

/-- Two readings that stop at the same faults. -/
def between (d d' : Delimiters) : Comparison where
  left := d
  right := d'
  excused _ := False
  excused_atLine _ h := h
  not_excused_unrecognised _ _ h := h

end Comparison

namespace Profile

variable {p : Profile}

/-- A template is compiled like markup with one level more than the limit. -/
theorem compile_eq_compileEmbedded (p : Profile) (strip : Bool) (m : Nat) (source : Text) :
    p.compile ⟨strip, m⟩ source = (p.compileEmbedded m (m + 1) source).map fun out =>
      if strip then out.trim else out :=
  rfl

/-- A result that is not for want of depth stays the same with more depth. -/
theorem compile_with_more_depth (hp : p.rules.Sublist Rule.standard) {m m' : Nat} (hle : m ≤ m')
    (strip : Bool) (source : Text)
    (hdepth : ∀ limit, p.compile ⟨strip, m⟩ source ≠ .error (.tooDeep limit)) :
    p.compile ⟨strip, m'⟩ source = p.compile ⟨strip, m⟩ source := by
  have hresults : (Comparison.deeper p.delimiters).Results
      (p.compileEmbedded m (m + 1) source) (p.compileEmbedded m' (m' + 1) source) :=
    Comparison.compileEmbedded_alike hp (.inl ⟨⟨m, rfl⟩, Nat.succ_le_succ hle⟩) (.inl rfl)
  rcases hresults.eq_or_excused rfl with heq | ⟨e, he, limit, rfl⟩
  · rw [compile_eq_compileEmbedded, compile_eq_compileEmbedded, heq]
  · refine absurd ?_ (hdepth limit)
    rw [compile_eq_compileEmbedded, he]
    rfl

/-- Markup in the markup of a text is two levels deep, and a third does not hurt. -/
theorem compile_nested_with_more_depth :
    (mako id).compile ⟨true, 1⟩ "p a `b ``i x`` y` c".toList = .error (.tooDeep 1) ∧
    (mako id).compile ⟨true, 3⟩ "p a `b ``i x`` y` c".toList =
      .ok "<p>a <b><i>x</i> y</b> c</p>".toList := by
  have hdeep : (mako id).compile ⟨true, 2⟩ "p a `b ``i x`` y` c".toList =
      .ok "<p>a <b><i>x</i> y</b> c</p>".toList := by decide +kernel
  refine ⟨by decide +kernel, ?_⟩
  rw [compile_with_more_depth mako_isStandard (show 2 ≤ 3 by decide)]
  · exact hdeep
  · intro limit h
    cases hdeep.symm.trans h

/-- Delimiters never decide what is accepted: where no curly bracket stands, templates fail alike
under all that open values with one. -/
theorem compile_under_delimiters (hp : p.rules.Sublist Rule.standard) {d d' : Delimiters}
    (hd : d.Curly) (hd' : d'.Curly) (options : Options) {source : Text}
    (hsource : '\x7b' ∉ source) :
    (∃ out out', { p with delimiters := d }.compile options source = .ok out ∧
        { p with delimiters := d' }.compile options source = .ok out') ∨
      ∃ e, { p with delimiters := d }.compile options source = .error e ∧
        { p with delimiters := d' }.compile options source = .error e := by
  obtain ⟨strip, m⟩ := options
  have hresults : (Comparison.between d d').Results
      ({ p with delimiters := d }.compileEmbedded m (m + 1) source)
      ({ p with delimiters := d' }.compileEmbedded m (m + 1) source) :=
    Comparison.compileEmbedded_alike hp (.inr ⟨rfl, rfl⟩) (.inr ⟨hd, hd', hsource⟩)
  rw [compile_eq_compileEmbedded, compile_eq_compileEmbedded]
  generalize { p with delimiters := d }.compileEmbedded m (m + 1) source = r at hresults
  generalize { p with delimiters := d' }.compileEmbedded m (m + 1) source = r' at hresults
  cases hresults with
  | ok htexts => exact .inl ⟨_, _, rfl, rfl⟩
  | error e => exact .inr ⟨e, rfl, rfl⟩
  | excused he => exact he.elim

/-- A call that is not named is the same fault under delimiters that are all empty but for the
bracket. -/
theorem compile_call_under_delimiters :
    '\x7b' ∉ "p(a=1) = x\n-call".toList ∧
    { mako id with delimiters := ⟨['\x7b'], [], [], [], [], [], [], [], [], []⟩ }.compile {}
        "p(a=1) = x\n-call".toList =
      .error (.malformed "-call must contain namespace:defname declaration".toList
        "-call".toList 2) := by
  have hsource : '\x7b' ∉ "p(a=1) = x\n-call".toList := by decide
  have hcurly : Delimiters.mako.Curly := .inr (List.prefix_refl _)
  have hbare : Delimiters.Curly ⟨['\x7b'], [], [], [], [], [], [], [], [], []⟩ :=
    .inl (List.prefix_refl _)
  have hmako : { mako id with delimiters := .mako }.compile {} "p(a=1) = x\n-call".toList =
      .error (.malformed "-call must contain namespace:defname declaration".toList
        "-call".toList 2) := by decide +kernel
  refine ⟨hsource, ?_⟩
  rcases compile_under_delimiters mako_isStandard hcurly hbare {} hsource with
    ⟨out, out', hout, -⟩ | ⟨e, he, he'⟩
  · cases hmako.symm.trans hout
  · cases hmako.symm.trans he
    exact he'

end Profile

end TerseMarkup
