import TerseMarkup.Proofs.Attribute
import TerseMarkup.Proofs.Layout

/-!
# Layouts of a headline

The attributes of an element stand bare behind its name, id and classes, or in parentheses, where
they may be spread over any number of lines. A headline means the same in all of these layouts
(`Element.read_of_layout`): its tag has the attributes other than `class` in their order, then the
id, and then one `class` with the classes behind dots followed by those of the attributes.

`Selector` and `Attribute` are what a headline says, `HeadlineLayout` how it may be written. Lines
are broken inside the parentheses only: a line feed at any other place ends the headline.
-/

namespace TerseMarkup

/-! ## Name, id and classes -/

/-- The name of an element, its id, which may be missing, and classes. -/
structure Selector where
  name : Text
  id : Text
  classes : List Text
  name_valid : ∃ c u, name = c :: u ∧ isElementStart c = true ∧ ∀ b ∈ u, isElementRest b = true
  id_valid : ∀ c ∈ id, isPlainChar c = true
  classes_valid : ∀ word ∈ classes, ∀ c ∈ word, isPlainChar c = true

namespace Selector

variable (sel : Selector)

/-- The classes as they are written, each behind a dot. -/
def writtenClasses (classes : List Text) : Text :=
  (classes.map ('.' :: ·)).flatten

/-- The id as it is written, behind its mark. -/
def writtenId (id : Text) : Text :=
  if id = [] then [] else '#' :: id

/-- Name, id and classes as they are written. -/
def written : Text :=
  sel.name ++ (writtenId sel.id ++ writtenClasses sel.classes)

/-- A plain word is what is left behind its mark. -/
theorem trimEnd_drop_mark (mark : Char) {word : Text} (hword : ∀ c ∈ word, isPlainChar c = true)
    (hmark : isBlank mark = false) :
    Text.trimEnd ((Text.trimEnd (mark :: word)).drop 1) = word := by
  have hblank : ∀ c ∈ word, isBlank c = false := fun c hc =>
    Tag.isBlank_of_isMarkChar (isMarkChar_of_isPlainChar (hword c hc))
  have houter : Text.trimEnd (mark :: word) = mark :: word := by
    refine Text.trimEnd_eq_self fun c hc => ?_
    rcases List.mem_cons.1 (List.mem_of_getLast? hc) with rfl | hc
    · exact hmark
    · exact hblank c hc
  rw [houter, List.drop_succ_cons, List.drop_zero]
  exact Text.trimEnd_eq_self fun c hc => hblank c (List.mem_of_getLast? hc)

/-- A plain word behind a mark is a token up to what ends an id or a class. -/
theorem token?_plain {d : Delimiters} (hd : d.Foreign) (mark : Char) {word : Text}
    (hword : ∀ c ∈ word, isPlainChar c = true) {rest : Text}
    (hrest : ∀ c, rest.head? = some c → [c] ∈ shortcutStops) (cur : Cursor) :
    token? d.placeholder [mark] shortcutStops (mark :: (word ++ rest)) cur =
      (.ok (some (Text.trimEnd (mark :: word), rest)), cur) := by
  refine token?_word hd mark (fun c hc => ⟨isMarkChar_of_isPlainChar (hword c hc), ?_⟩) hrest cur
  rintro rfl
  exact absurd (hword '.' hc) (by decide)

/-- Classes are read as they are written. -/
theorem classShortcuts_written {d : Delimiters} (hd : d.Foreign) {classes : List Text}
    (hclasses : ∀ word ∈ classes, ∀ c ∈ word, isPlainChar c = true) {rest : Text}
    (hrest : ∀ c, rest.head? = some c → [c] ∈ shortcutStops ∧ c ≠ '.') (cur : Cursor) :
    classShortcuts d (writtenClasses classes ++ rest) cur = (.ok (classes, rest), cur) := by
  induction classes with
  | nil =>
    have hhead : rest.head? ≠ some '.' := fun hc => (hrest '.' hc).2 rfl
    have hpass := classPass_iterates d () ⟨rest, cur⟩
    simp only [classPass, token?_of_head? hhead cur] at hpass
    exact hpass
  | cons word classes ih =>
    obtain ⟨hword, hclasses'⟩ := List.forall_mem_cons.1 hclasses
    have hstops : ∀ c, (writtenClasses classes ++ rest).head? = some c → [c] ∈ shortcutStops := by
      intro c hc
      cases classes with
      | nil => exact (hrest c hc).1
      | cons next classes =>
        cases hc
        decide
    have hwritten : writtenClasses (word :: classes) ++ rest =
        '.' :: (word ++ (writtenClasses classes ++ rest)) := by
      simp [writtenClasses]
    have hpass := classPass_iterates d () ⟨'.' :: (word ++ (writtenClasses classes ++ rest)), cur⟩
    simp only [classPass, token?_plain hd '.' hword hstops cur] at hpass
    rw [hwritten]
    refine hpass.trans ?_
    simp only [Pass.finish, ih hclasses', prependClass, trimEnd_drop_mark '.' hword (by decide)]

/-- An id is read as it is written. -/
theorem idShortcut_written {d : Delimiters} (hd : d.Foreign) {id : Text}
    (hid : ∀ c ∈ id, isPlainChar c = true) {rest : Text}
    (hrest : ∀ c, rest.head? = some c → [c] ∈ shortcutStops) (cur : Cursor) :
    idShortcut d (writtenId id ++ rest) cur = (.ok (id, rest), cur) := by
  unfold writtenId
  split
  · rename_i hnil
    have hhead : rest.head? ≠ some '#' := fun hc => absurd (hrest '#' hc) (by decide)
    rw [hnil]
    exact Scan.bind_eq_ok_iff.2 ⟨none, cur, token?_of_head? hhead cur, rfl⟩
  · refine Scan.bind_eq_ok_iff.2 ⟨_, cur, token?_plain hd '#' hid hrest cur, ?_⟩
    simp only [trimEnd_drop_mark '#' hid (by decide), Scan.pure_apply]

/-- The name of an element is read as it is written. -/
theorem elementName_written {rest : Text}
    (hrest : ∀ c, rest.head? = some c → isElementRest c = false) :
    elementName (sel.name ++ rest) = (sel.name, rest) := by
  obtain ⟨c, u, hname, hc, hu⟩ := sel.name_valid
  rw [hname]
  exact elementName_append hc hu hrest

/-- A headline is read name first, then id and classes, and then the attributes. -/
theorem read_written {s : Setting} (hd : s.delimiters.Foreign) {rest t tail tail' : Text}
    (hrest : ∀ c, rest.head? = some c → c = ' ' ∨ c = '(')
    (hbreak : isBreak rest.trimStart = false) {parens : Bool}
    (hmark : optionalMark '(' rest.trimStart = (parens, t)) {list : AttributeList}
    {cur cur' : Cursor}
    (hread : readAttributes s.delimiters parens (sel.written ++ rest) sel.id ⟨[], sel.classes⟩ t
      cur = (.ok (list, tail), cur'))
    (hclose : closeParens parens tail cur' = (.ok tail', cur')) :
    Element.read s none (sel.written ++ rest) cur =
      Element.finish s sel.name (list.written sel.id) tail' cur' := by
  have hstops : ∀ c, rest.head? = some c → [c] ∈ shortcutStops ∧ c ≠ '.' := by
    intro c hc
    rcases hrest c hc with rfl | rfl <;> decide
  have hclasses : ∀ c, (writtenClasses sel.classes ++ rest).head? = some c →
      [c] ∈ shortcutStops := by
    intro c hc
    cases hlist : sel.classes with
    | nil =>
      rw [hlist] at hc
      exact (hstops c hc).1
    | cons word classes =>
      rw [hlist] at hc
      cases hc
      decide
  have hname : ∀ c, (writtenId sel.id ++ (writtenClasses sel.classes ++ rest)).head? = some c →
      isElementRest c = false := by
    intro c hc
    unfold writtenId at hc
    split at hc
    · have hmem := hclasses c hc
      simp only [shortcutStops, List.mem_cons, List.cons.injEq, and_true, List.not_mem_nil,
        or_false] at hmem
      rcases hmem with rfl | rfl | rfl | rfl <;> decide
    · cases hc
      decide
  have helement := sel.elementName_written hname
  have hwritten : sel.written ++ rest =
      sel.name ++ (writtenId sel.id ++ (writtenClasses sel.classes ++ rest)) := by
    simp [written]
  have hcontinued : continued rest.trimStart cur = (.ok rest.trimStart, cur) := by
    unfold continued
    rw [followBreaks_of_not_isBreak hbreak]
  rw [← hwritten] at helement
  unfold Element.read
  simp only [helement]
  refine (Scan.bind_of_ok (idShortcut_written hd sel.id_valid hclasses cur)).trans ?_
  refine (Scan.bind_of_ok (classShortcuts_written hd sel.classes_valid hstops cur)).trans ?_
  refine (Scan.bind_of_ok hcontinued).trans ?_
  simp only [hmark]
  refine (Scan.bind_of_ok hread).trans ?_
  exact Scan.bind_of_ok hclose

end Selector

/-! ## Content behind the attributes -/

section Content

variable {s : Setting} {t t' : Text}

/-- Blanks behind content make no difference. -/
theorem inlineContent_append_blank {c : Char} (hc : c = '=' ∨ c = '|' ∨ c = ',') (t : Text)
    {e : Text} (he : ∀ b ∈ e, isBlank b = true) :
    inlineContent s (c :: (t ++ e)) = inlineContent s (c :: t) := by
  have htrim := Text.trim_append_blank t he
  rcases hc with rfl | rfl | rfl
  · have hexpr (u : Text) : expression (u ++ e) = expression u :=
      funext (expression_append_blank u he)
    have hvalue : inlineValue s.delimiters (t ++ e) = inlineValue s.delimiters t := by
      unfold inlineValue
      simp only [optionalMark_append_blank (by decide : isBlank '=' = false) _ he,
        optionalMark_append_blank (by decide : isBlank ',' = false) _ he, hexpr]
    exact hvalue
  · exact congrArg (renderText s) htrim
  · exact congrArg (fun u => renderText s u >>= fun shown => pure (shown ++ [' '])) htrim

/-- Blanks at the end of content do not matter. -/
theorem inlineContent_congr (ht : t.Content) (ht' : t'.Content) (h : t.trimEnd = t'.trimEnd) :
    inlineContent s t = inlineContent s t' := by
  cases t with
  | nil =>
    cases t' with
    | nil => rfl
    | cons c' u' =>
      have hhead := Text.head?_eq_of_trimEnd_eq (isBlank_of_contentMark (ht' c' rfl)) h.symm rfl
      cases hhead
  | cons c u =>
    have hhead := Text.head?_eq_of_trimEnd_eq (isBlank_of_contentMark (ht c rfl)) h rfl
    obtain ⟨u', rfl⟩ := List.head?_eq_some_iff.1 hhead
    obtain ⟨v, e, rfl, he, hv⟩ := Text.exists_trimEnd_cons (isBlank_of_contentMark (ht c rfl)) u
    obtain ⟨v', e', rfl, he', hv'⟩ :=
      Text.exists_trimEnd_cons (isBlank_of_contentMark (ht c rfl)) u'
    rw [hv, hv'] at h
    cases h
    rw [inlineContent_append_blank (ht c rfl) v he, inlineContent_append_blank (ht c rfl) v he']

/-- Content that pulls no line comes to the same wherever its lines are counted from. -/
theorem inlineContent_number {ahead : List Text} {n : Nat} {content : Text}
    (h : inlineContent s t ⟨ahead, n⟩ = (.ok content, ⟨ahead, n⟩)) (m : Nat) :
    inlineContent s t ⟨ahead, m⟩ = (.ok content, ⟨ahead, m⟩) := by
  have hextends : Cursor.Extends [] ⟨ahead, n⟩ ⟨ahead, m⟩ :=
    ⟨(List.append_nil ahead).symm, fun _ _ => .inl rfl⟩
  obtain ⟨cur, hcur, hm⟩ := carries_inlineContent s (.inl rfl) _ _ hextends _ _ h
  have hreaches := forward_inlineContent s t ⟨ahead, m⟩
  rw [hm] at hreaches
  have hahead : cur.ahead = ahead := hcur.ahead.trans (List.append_nil ahead)
  have heq : cur = ⟨ahead, m⟩ := hreaches.eq_of_length_ahead (congrArg List.length hahead)
  rw [hm, heq]

end Content

/-! ## Headlines -/

namespace Selector

variable (sel : Selector)

/-- The attributes as they stand in the tag: those that give no classes, then the id, and then all
classes in one. -/
def attributes (attrs : List Attribute) : Text :=
  let classes := sel.classes ++ (attrs.filter Attribute.isClass).map Attribute.value
  List.intercalate [' ']
    ((attrs.filter (!·.isClass)).map Attribute.written ++
      (if sel.id = [] then [] else [attributePair "id".toList sel.id]) ++
      (if classes = [] then []
        else [attributePair "class".toList (List.intercalate [' '] classes)]))

/-- The element with the given attributes and content on its line. -/
def element (attrs : List Attribute) (content : Text) : Element where
  opened := ['<'] ++ sel.name ++
    (if sel.attributes attrs = [] then [] else [' '] ++ sel.attributes attrs) ++
    (if Html.isVoid sel.name then "/>".toList else ['>']) ++ content
  closed := if Html.isVoid sel.name then [] else "</".toList ++ sel.name ++ ['>']
  name := sel.name
  attributes := sel.attributes attrs
  content := content
  rest := []

/-- Attributes are collected into those of the tag. -/
theorem written_addAll (attrs : List Attribute) :
    (Attribute.addAll attrs ⟨[], sel.classes⟩).written sel.id = sel.attributes attrs := by
  rw [Attribute.addAll_eq]
  simp only [AttributeList.written, attributes, List.nil_append, List.isEmpty_iff]

/-- The element is finished with its content, whatever blanks are at the end of it. -/
theorem finish_content {s : Setting} {C tail content : Text} (hC : C.Content) (htail : tail.Content)
    (htrim : tail.trimEnd = C.trimEnd) {ahead : List Text} {n : Nat}
    (hcontent : inlineContent s C ⟨ahead, n⟩ = (.ok content, ⟨ahead, n⟩))
    (attrs : List Attribute) (m : Nat) :
    Element.finish s sel.name (sel.attributes attrs) tail ⟨ahead, m⟩ =
      (.ok (sel.element attrs content), ⟨ahead, m⟩) := by
  have hcolon : Text.after? [':'] tail = none := by
    cases tail with
    | nil => rfl
    | cons c u => rcases htail c rfl with rfl | rfl | rfl <;> rfl
  have hread := inlineContent_number hcontent m
  rw [← inlineContent_congr htail hC htrim] at hread
  unfold Element.finish
  simp only [hcolon]
  refine (Scan.bind_of_ok hread).trans ?_
  simp only [element, List.isEmpty_iff, Scan.pure_apply]

end Selector

/-! ## Layouts -/

/-- The ways to lay out a headline: attributes bare, or in parentheses and spread at will. -/
inductive HeadlineLayout (sel : Selector) (attrs : List Attribute) (C : Text) : Text → Prop
  | bare : HeadlineLayout sel attrs C (sel.written ++ (Attribute.row attrs ++ ' ' :: C))
  | parenthesised {g t b : Text} (hg : ∀ c ∈ g, c = ' ') (h : Attribute.Spread attrs t)
      (hb : ∀ c ∈ b, isBlank c = true ∧ c ≠ '\n') :
      HeadlineLayout sel attrs C (sel.written ++ (g ++ '(' :: (t ++ ')' :: (b ++ C))))

namespace Text

variable {x z : Text}

/-- A line end is blank, if there is any. -/
theorem isBlank_of_lineEnd (hz : z = [] ∨ z.IsLineEnd) : ∀ c ∈ z, isBlank c = true := by
  rcases hz with rfl | hz
  · exact fun c hc => absurd hc List.not_mem_nil
  · exact hz.isBlank

/-- A text has one line if there is a line feed at most at its end. -/
theorem lines_append_lineEnd (hx : '\n' ∉ x) (hne : x ≠ []) (hz : z = [] ∨ z.IsLineEnd) :
    lines (x ++ z) = [x ++ z] := by
  rcases hz with rfl | rfl | rfl
  · rw [List.append_nil]
    exact lines_of_not_mem hx hne
  · have hlines := lines_append_feed hx []
    rwa [List.append_nil] at hlines
  · have hreturn : '\n' ∉ x ++ ['\r'] := by simpa using hx
    have hlines := lines_append_feed hreturn []
    rwa [List.append_nil, List.append_assoc] at hlines

end Text

/-- A mark that does not come first is not there. -/
theorem optionalMark_of_head? {mark : Char} {t : Text} (h : t.head? ≠ some mark) :
    optionalMark mark t = (false, t) := by
  cases t with
  | nil => rfl
  | cons c t =>
    have hc : ¬ mark = c := fun heq => h (by rw [heq]; rfl)
    simp [optionalMark, Text.after?, hc]

/-- What does not start with a backslash is no continuation. -/
theorem isBreak_of_head? {t : Text} (h : t.head? ≠ some '\\') : isBreak t = false := by
  cases t with
  | nil => rfl
  | cons c t =>
    have hc : c ≠ '\\' := fun heq => h (by rw [heq]; rfl)
    simp [isBreak, hc]

namespace Selector

variable (sel : Selector)

/-- Name, id and classes are written with the characters of tags. -/
theorem isMarkChar_of_mem_written {c : Char} (hc : c ∈ sel.written) : Tag.isMarkChar c = true := by
  unfold written writtenId writtenClasses at hc
  rcases List.mem_append.1 hc with hc | hc
  · obtain ⟨b, u, hname, hb, hu⟩ := sel.name_valid
    have hrest : isElementRest c = true := by
      rw [hname] at hc
      rcases List.mem_cons.1 hc with rfl | hc
      · simp [isElementRest, hb]
      · exact hu c hc
    exact isMarkChar_of_isPlainChar (by simp [isPlainChar, hrest])
  rcases List.mem_append.1 hc with hc | hc
  · split at hc
    · cases hc
    · rcases List.mem_cons.1 hc with rfl | hc
      · decide
      · exact isMarkChar_of_isPlainChar (sel.id_valid c hc)
  · obtain ⟨piece, hpiece, hc⟩ := List.mem_flatten.1 hc
    obtain ⟨word, hword, rfl⟩ := List.mem_map.1 hpiece
    rcases List.mem_cons.1 hc with rfl | hc
    · decide
    · exact isMarkChar_of_isPlainChar (sel.classes_valid word hword c hc)

/-- They are on one line. -/
theorem feed_not_mem_written : '\n' ∉ sel.written := fun hmem =>
  absurd (sel.isMarkChar_of_mem_written hmem) (by decide)

/-- They do not end in a blank. -/
theorem isBlank_getLast?_written {c : Char} (hc : sel.written.getLast? = some c) :
    isBlank c = false :=
  Tag.isBlank_of_isMarkChar (sel.isMarkChar_of_mem_written (List.mem_of_getLast? hc))

section Read

variable {s : Setting} {attrs : List Attribute} {C content line e z : Text} {ahead : List Text}
  {n : Nat}

/-- A headline with bare attributes. -/
theorem read_bare (hd : s.delimiters.Foreign)
    (hid : sel.id = [] ∨ ∀ a ∈ attrs, a.name ≠ "id".toList) (hC : C.Content)
    (hcontent : inlineContent s C ⟨ahead, n⟩ = (.ok content, ⟨ahead, n⟩))
    (he : ∀ c ∈ e, isBlank c = true) (hz : ∀ c ∈ z, isBlank c = true)
    (hline : line ++ e = sel.written ++ (Attribute.row attrs ++ ' ' :: C) ++ z) (m : Nat) :
    Element.read s none line ⟨ahead, m⟩ = (.ok (sel.element attrs content), ⟨ahead, m⟩) := by
  have htrim : line.trimEnd = Text.trimEnd (sel.written ++ (Attribute.row attrs ++ ' ' :: C)) := by
    rw [← Text.trimEnd_append_blank line he, hline, Text.trimEnd_append_blank _ hz]
  obtain ⟨rest, rfl, hrest⟩ :=
    Text.exists_append_of_trimEnd_eq (fun c => sel.isBlank_getLast?_written) htrim
  have hspace : ∀ c, rest.head? = some c → c = ' ' ∨ c = '(' := by
    intro c hc
    rw [List.append_assoc, List.append_assoc, List.append_cancel_left_eq] at hline
    have hhead := congrArg List.head? hline
    rw [List.head?_append, hc] at hhead
    cases attrs <;> cases hhead <;> exact .inl rfl
  obtain ⟨hround, hslash⟩ := Attribute.head?_trimStart_row hC hrest
  obtain ⟨tail, htail, htailEnd, hread⟩ :=
    Attribute.exists_readAttributes_row hd hid hC hrest ⟨[], sel.classes⟩ ⟨ahead, m⟩
  rw [← readAttributes_trimStart] at hread
  rw [sel.read_written hd hspace (isBreak_of_head? hslash) (optionalMark_of_head? hround) hread rfl,
    written_addAll]
  exact sel.finish_content hC htail htailEnd hcontent attrs m

/-- A headline with attributes in parentheses. -/
theorem read_parenthesised (hd : s.delimiters.Foreign)
    (hid : sel.id = [] ∨ ∀ a ∈ attrs, a.name ≠ "id".toList) (hC : C.Content) (hfeed : '\n' ∉ C)
    (hcontent : inlineContent s C ⟨ahead, n⟩ = (.ok content, ⟨ahead, n⟩)) {g t b : Text}
    (hg : ∀ c ∈ g, c = ' ') (h : Attribute.Spread attrs t)
    (hb : ∀ c ∈ b, isBlank c = true ∧ c ≠ '\n') (he : ∀ c ∈ e, isBlank c = true)
    (hz : z = [] ∨ z.IsLineEnd) {more : List Text}
    (hlines : Text.lines (sel.written ++ (g ++ '(' :: (t ++ ')' :: (b ++ C))) ++ z) =
      (line ++ e) :: more) (m : Nat) :
    Element.read s none line ⟨more ++ ahead, m⟩ =
      (.ok (sel.element attrs content), ⟨ahead, m + more.length⟩) := by
  have hopen : '\n' ∉ sel.written ++ (g ++ ['(']) := by
    simp only [List.mem_append, List.mem_singleton, not_or]
    exact ⟨sel.feed_not_mem_written, fun hmem => absurd (hg _ hmem) (by decide), by decide⟩
  have hw : Text.lines (')' :: (b ++ C ++ z)) = [')' :: (b ++ C ++ z)] := by
    refine Text.lines_append_lineEnd (x := ')' :: (b ++ C)) ?_ (List.cons_ne_nil _ _) hz
    simp only [List.mem_cons, List.mem_append, not_or]
    exact ⟨by decide, fun hmem => (hb _ hmem).2 rfl, hfeed⟩
  -- The first line goes on behind the parenthesis, in all that may be left of it.
  obtain ⟨next, more', hnext⟩ := Text.exists_lines_cons (t := t ++ ')' :: (b ++ C ++ z)) (by simp)
  have hfirst := Text.lines_append_left hopen hnext
  have hwhole : sel.written ++ (g ++ '(' :: (t ++ ')' :: (b ++ C))) ++ z =
      sel.written ++ (g ++ ['(']) ++ (t ++ ')' :: (b ++ C ++ z)) := by simp
  rw [hwhole, hfirst, List.cons.injEq] at hlines
  obtain ⟨hline, rfl⟩ := hlines
  have htrim : line.trimEnd = Text.trimEnd (sel.written ++ (g ++ ['(']) ++ next) := by
    rw [hline, Text.trimEnd_append_blank line he]
  obtain ⟨tail, rfl, htail⟩ := Text.exists_append_of_trimEnd_eq (fun c hc => by
    rw [← List.append_assoc, List.getLast?_concat] at hc
    cases hc
    decide) htrim
  obtain ⟨rest, hrest, hread⟩ := h.exists_readAttributes hd hid hw hnext
    (Text.trim_eq_of_trimEnd_eq htail) ⟨[], sel.classes⟩ ahead m
  have hrestTrim : rest.trim = C.trim := by
    rw [Text.trim_eq_of_trimEnd_eq hrest, Text.trim_append_blank _ (Text.isBlank_of_lineEnd hz),
      Text.trim_blank_append fun c hc => (hb c hc).1]
  obtain ⟨hcontent', hrestEnd⟩ := hC.trimStart_of_trim_eq hrestTrim
  have hround : ∀ c, (g ++ ['('] ++ tail).head? = some c → c = ' ' ∨ c = '(' := by
    intro c hc
    cases g with
    | nil =>
      cases hc
      exact .inr rfl
    | cons b g =>
      cases hc
      exact .inl (hg _ List.mem_cons_self)
  have hstart : Text.trimStart (g ++ ['('] ++ tail) = '(' :: tail := by
    rw [List.append_assoc, Text.trimStart_append_blank fun c hc => by rw [hg c hc]; decide]
    exact Text.trimStart_eq_self (by rintro c ⟨⟩; decide)
  have hbreak : isBreak (Text.trimStart (g ++ ['('] ++ tail)) = false := by
    rw [hstart]
    rfl
  have hmark : optionalMark '(' (Text.trimStart (g ++ ['('] ++ tail)) = (true, tail) := by
    rw [hstart]
    rfl
  rw [List.append_assoc, sel.read_written hd hround hbreak hmark hread rfl, written_addAll]
  exact sel.finish_content hC hcontent' hrestEnd hcontent attrs _

end Read

end Selector

/-- A headline means the same in every layout of its attributes. The text `X` is cut into its lines,
of which the reader is handed the first one, with or without the blanks at its end, and pulls the
others; `ahead` are the lines behind them. -/
theorem Element.read_of_layout {s : Setting}
    (hs : s.delimiters = .mako ∨ s.delimiters = .django) (sel : Selector) {attrs : List Attribute}
    (hid : sel.id = [] ∨ ∀ a ∈ attrs, a.name ≠ "id".toList) {C content : Text} (hC : C.Content)
    (hfeed : '\n' ∉ C) {ahead : List Text} {n : Nat}
    (hcontent : inlineContent s C ⟨ahead, n⟩ = (.ok content, ⟨ahead, n⟩)) {X z line e : Text}
    (hX : HeadlineLayout sel attrs C X) (hz : z = [] ∨ z.IsLineEnd)
    (he : ∀ c ∈ e, isBlank c = true) {more : List Text}
    (hlines : Text.lines (X ++ z) = (line ++ e) :: more) (m : Nat) :
    Element.read s none line ⟨more ++ ahead, m⟩ =
      (.ok (sel.element attrs content), ⟨ahead, m + more.length⟩) := by
  have hd : s.delimiters.Foreign := by
    rcases hs with h | h <;> rw [h] <;> rintro c ⟨⟩ <;> decide
  cases hX with
  | bare =>
    have hfeeds : '\n' ∉ sel.written ++ (Attribute.row attrs ++ ' ' :: C) := by
      simp only [List.mem_append, List.mem_cons, not_or]
      exact ⟨sel.feed_not_mem_written, Attribute.feed_not_mem_row attrs, by decide, hfeed⟩
    rw [Text.lines_append_lineEnd hfeeds (by simp) hz, List.cons.injEq] at hlines
    obtain ⟨hline, rfl⟩ := hlines
    exact sel.read_bare hd hid hC hcontent he (Text.isBlank_of_lineEnd hz) hline.symm m
  | parenthesised hg h hb =>
    exact sel.read_parenthesised hd hid hC hfeed hcontent hg h hb he hz hlines m

/-- A link with a blank line and a backslash between its attributes. -/
theorem Element.read_of_layout_spread :
    Element.read ⟨.mako, fun _ => none, .ok⟩ none "a#home.nav(".toList
        ⟨[" href=\"/a(1)\"\n".toList, "\n".toList, "class=\"big\" \\\n".toList,
          ") = page\n".toList] ++ ["p\n".toList], 1⟩ =
      (.ok {
        opened := "<a href=\"/a(1)\" id=\"home\" class=\"nav big\">$\x7bpage\x7d".toList
        closed := "</a>".toList
        name := "a".toList
        attributes := "href=\"/a(1)\" id=\"home\" class=\"nav big\"".toList
        content := "$\x7bpage\x7d".toList
        rest := [] }, ⟨["p\n".toList], 5⟩) := by
  have hcontent : inlineContent ⟨.mako, fun _ => none, .ok⟩ "= page".toList ⟨["p\n".toList], 0⟩ =
      (.ok "$\x7bpage\x7d".toList, ⟨["p\n".toList], 0⟩) := by
    decide +kernel
  refine (Element.read_of_layout (C := "= page".toList) (.inl rfl)
    ⟨"a".toList, "home".toList, ["nav".toList], ⟨'a', [], rfl, rfl, by simp⟩,
      Text.forall_mem_of_all (by decide), fun word hmem => by
        rw [List.mem_singleton.1 hmem]
        exact Text.forall_mem_of_all (by decide)⟩
    (.inr ?_) (by rintro c ⟨⟩; exact .inl rfl) (by decide) hcontent
    (.parenthesised (g := []) (b := [' ']) (by simp)
      (.lineEnd (b := []) (.inl rfl) (by decide) <| .blank (c := ' ') rfl (by decide) <|
        .cons ⟨"href".toList, "/a(1)".toList,
          ⟨'h', _, rfl, rfl, Text.forall_mem_of_all (by decide)⟩,
          Text.forall_mem_of_all (by decide), by decide⟩ <|
        .lineEnd (b := []) (.inl rfl) (by decide) <| .lineEnd (b := []) (.inl rfl) (by decide) <|
        .cons ⟨"class".toList, "big".toList,
          ⟨'c', _, rfl, rfl, Text.forall_mem_of_all (by decide)⟩,
          Text.forall_mem_of_all (by decide), by decide⟩ <|
        .lineEnd (b := " \\".toList) (.inr rfl) (by decide) .nil)
      (Text.forall_mem_of_all (by decide)))
    (.inr Text.isLineEnd_feed) (e := ['\n']) (Text.forall_mem_of_all (by decide)) ?_ 1).trans ?_
  · simp
  · decide +kernel
  · decide +kernel

end TerseMarkup
