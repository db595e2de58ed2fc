import TerseMarkup.Proofs.Headline
import TerseMarkup.Proofs.Passes

/-!
# Plain tags

A tag is the name of an element with marks for its id and its classes behind it. In letters, digits,
dashes and underscores nothing in it opens a group or a literal, so it is read as a whole, whatever
follows it behind a space (`Element.read_tag`). What follows starts with a mark of content here, so
it is no attribute.
-/

namespace TerseMarkup

/-! ## Tags -/

/-- Whether a character may stand in the plain form of an id or a class. -/
def isPlainChar (c : Char) : Bool :=
  isElementRest c || ('A' ≤ c && c ≤ 'Z') || c == '-' || c == '_'

/-- The name of an element, which may be missing, and marks for an id and classes with plain words
behind them. -/
structure Tag where
  name : Text
  marks : List (Char × Text)
  name_valid : ∀ c u, name = c :: u → isElementStart c = true ∧ ∀ b ∈ u, isElementRest b = true
  marks_valid : ∀ mark ∈ marks, (mark.1 = '#' ∨ mark.1 = '.') ∧
    ∀ c ∈ mark.2, isPlainChar c = true

namespace Tag

/-- The marks of a tag as they are written. -/
def writtenMarks (tag : Tag) : Text :=
  (tag.marks.map fun mark => mark.1 :: mark.2).flatten

/-- A tag as it is written. -/
def written (tag : Tag) : Text :=
  tag.name ++ tag.writtenMarks

/-- Whether a character may stand behind the name of a tag. -/
def isMarkChar (c : Char) : Bool :=
  isPlainChar c || c == '#' || c == '.'

/-- The text is made of marks with plain words behind them. -/
structure Marked (t : Text) : Prop where
  chars : ∀ c ∈ t, isMarkChar c = true
  start : ∀ c, t.head? = some c → c = '#' ∨ c = '.'

/-- The marks of a tag are marks with plain words behind them. -/
theorem marked_writtenMarks (tag : Tag) : Marked tag.writtenMarks := by
  have hvalid := tag.marks_valid
  unfold writtenMarks
  constructor
  · intro c hc
    obtain ⟨piece, hpiece, hc⟩ := List.mem_flatten.1 hc
    obtain ⟨mark, hmark, rfl⟩ := List.mem_map.1 hpiece
    obtain ⟨hfirst, hword⟩ := hvalid mark hmark
    rcases List.mem_cons.1 hc with rfl | hc
    · rcases hfirst with h | h <;> rw [h] <;> decide
    · simp [isMarkChar, hword c hc]
  · intro c hc
    cases hmarks : tag.marks with
    | nil =>
      rw [hmarks] at hc
      cases hc
    | cons mark marks =>
      rw [hmarks] at hc
      cases hc
      exact (hvalid mark (hmarks ▸ List.mem_cons_self)).1

end Tag

/-- The text is empty or starts with a space. -/
def Text.Spaced (t : Text) : Prop :=
  ∀ c, t.head? = some c → c = ' '

theorem Text.spaced_nil : Text.Spaced [] := by
  intro c hc
  cases hc

theorem Text.spaced_cons (t : Text) : Text.Spaced (' ' :: t) := by
  intro c hc
  cases hc
  rfl

/-- A name ends in front of the first character that cannot be part of it. -/
theorem elementName_append {c : Char} {u rest : Text} (hc : isElementStart c = true)
    (hu : ∀ b ∈ u, isElementRest b = true)
    (hrest : ∀ b, rest.head? = some b → isElementRest b = false) :
    elementName (c :: u ++ rest) = (c :: u, rest) := by
  have hcut : rest.takeWhile isElementRest = [] ∧ rest.dropWhile isElementRest = rest := by
    cases rest with
    | nil => exact ⟨rfl, rfl⟩
    | cons b v => simp [hrest b rfl]
  rw [List.cons_append]
  simp only [elementName, hc, if_true]
  rw [List.takeWhile_append_of_pos hu, List.dropWhile_append_of_pos hu, hcut.1, hcut.2,
    List.append_nil]

namespace Tag

/-- A name ends where the marks or a space begin. -/
theorem elementName_written (tag : Tag) :
    ∃ name, ∀ rest : Text, rest.Spaced →
      elementName (tag.written ++ rest) = (name, tag.writtenMarks ++ rest) := by
  have hmarked := tag.marked_writtenMarks
  have hvalid := tag.name_valid
  have hhead {rest : Text} (hrest : rest.Spaced) (c : Char)
      (hc : (tag.writtenMarks ++ rest).head? = some c) : c = '#' ∨ c = '.' ∨ c = ' ' := by
    cases hw : tag.writtenMarks with
    | nil =>
      rw [hw] at hc
      exact .inr (.inr (hrest c hc))
    | cons b u =>
      rw [hw] at hc
      cases hc
      exact (hmarked.start c (by rw [hw]; rfl)).imp_right .inl
  unfold written
  cases hname : tag.name with
  | nil =>
    refine ⟨"div".toList, fun rest hrest => ?_⟩
    rw [List.nil_append]
    cases hw : tag.writtenMarks ++ rest with
    | nil => rfl
    | cons c u =>
      have hc : isElementStart c = false := by
        rcases hhead hrest c (by rw [hw]; rfl) with rfl | rfl | rfl <;> decide
      simp [elementName, hc]
  | cons c u =>
    obtain ⟨hc, hu⟩ := hvalid c u hname
    refine ⟨c :: u, fun rest hrest => ?_⟩
    rw [List.append_assoc]
    refine elementName_append hc hu fun b hb => ?_
    rcases hhead hrest b hb with rfl | rfl | rfl <;> decide

end Tag

/-! ## Plain words -/

/-- A character of a tag is not one that tags do not have. -/
theorem Tag.ne_of_isMarkChar {c d : Char} (hc : Tag.isMarkChar c = true)
    (hd : Tag.isMarkChar d = false) : c ≠ d := by
  rintro rfl
  rw [hc] at hd
  cases hd

/-- Values in the dialect start with a character that no plain word has. -/
def Delimiters.Foreign (d : Delimiters) : Prop :=
  ∀ c, d.variableStart.head? = some c → Tag.isMarkChar c = false

/-- No literal starts with a character other than a quote. -/
theorem Text.quoted?_cons_eq_none {c : Char} (hdouble : c ≠ '"') (hsingle : c ≠ '\'') (t : Text) :
    Text.quoted? (c :: t) = none := by
  simp [quoted?, quoteMark?, quoteMarks, List.isPrefixOf, Ne.symm hdouble, Ne.symm hsingle]

/-- A character that opens no value, no literal and no group is an atom by itself. -/
theorem atom_single {d : Delimiters} {c : Char} (hstart : d.variableStart.head? ≠ some c)
    (hquote : c ≠ '"' ∧ c ≠ '\'') (hopen : c ≠ '(' ∧ c ≠ '[' ∧ c ≠ '\x7b') (t : Text)
    (cur : Cursor) : atom (some d.placeholder) c t cur = (.ok ([c], t), cur) := by
  have hplaceholder : d.placeholder.opening? (c :: t) = none := by
    unfold Delimiters.placeholder Nesting.opening?
    cases hvariable : d.variableStart with
    | nil => rfl
    | cons b u =>
      have hb : b ≠ c := by
        rintro rfl
        exact hstart (by rw [hvariable]; rfl)
      simp [Text.after?, hb]
  have hquoted := Text.quoted?_cons_eq_none hquote.1 hquote.2 t
  have hbrackets : Nesting.brackets.opening? (c :: t) = none := by
    simp [Nesting.opening?, hopen]
  simp only [atom, groupOf?, Nesting.group?, hplaceholder, hquoted, hbrackets]

/-- A character of a plain word is an atom by itself. -/
theorem atom_of_isMarkChar {d : Delimiters} (hd : d.Foreign) {c : Char}
    (hc : Tag.isMarkChar c = true) (t : Text) (cur : Cursor) :
    atom (some d.placeholder) c t cur = (.ok ([c], t), cur) := by
  have hne {b : Char} (hb : Tag.isMarkChar b = false) : c ≠ b := Tag.ne_of_isMarkChar hc hb
  refine atom_single (fun hhead => ?_) ⟨hne (by decide), hne (by decide)⟩
    ⟨hne (by decide), hne (by decide), hne (by decide)⟩ t cur
  exact hne (hd c hhead) rfl

/-- A word of single atoms is read up to a terminator, if all terminators are single characters. -/
theorem atoms_singles {n : Nesting} {stops : List Text} (hstops : ∀ stop ∈ stops, stop.length = 1)
    {cur : Cursor} {word : Text}
    (hword : ∀ c ∈ word, (∀ t, atom (some n) c t cur = (.ok ([c], t), cur)) ∧ [c] ∉ stops)
    {rest : Text} (hrest : ∀ c, rest.head? = some c → [c] ∈ stops) :
    atoms n stops (word ++ rest) cur = (.ok (word, rest), cur) := by
  induction word with
  | nil =>
    cases rest with
    | nil => exact atoms_nil _ _ cur
    | cons c t =>
      refine atoms_of_stop cur (List.any_eq_true.2 ⟨[c], hrest c rfl, ?_⟩)
      simp [List.isPrefixOf]
  | cons c word ih =>
    obtain ⟨⟨hatom, hgoes⟩, hword'⟩ := List.forall_mem_cons.1 hword
    have hstop : stops.any (·.isPrefixOf (c :: (word ++ rest))) = false := by
      refine List.any_eq_false.2 fun stop hmem hlead => hgoes ?_
      obtain ⟨b, rfl⟩ := List.length_eq_one_iff.1 (hstops stop hmem)
      have hb : b = c := by simpa [List.isPrefixOf] using hlead
      exact hb ▸ hmem
    rw [List.cons_append, atoms_of_atom hstop (hatom _), ih hword']
    rfl

/-- A plain word is read up to a terminator, if all terminators are single characters. -/
theorem atoms_plain {d : Delimiters} (hd : d.Foreign) {stops : List Text}
    (hstops : ∀ stop ∈ stops, stop.length = 1) {word : Text}
    (hword : ∀ c ∈ word, Tag.isMarkChar c = true ∧ [c] ∉ stops) {rest : Text}
    (hrest : ∀ c, rest.head? = some c → [c] ∈ stops) (cur : Cursor) :
    atoms d.placeholder stops (word ++ rest) cur = (.ok (word, rest), cur) := by
  apply atoms_singles hstops _ hrest
  intro c hc
  exact ⟨fun t => atom_of_isMarkChar hd (hword c hc).1 t cur, (hword c hc).2⟩

/-- A word behind a mark is a token up to what ends an id or a class. -/
theorem token?_word {d : Delimiters} (hd : d.Foreign) (mark : Char) {word : Text}
    (hword : ∀ c ∈ word, Tag.isMarkChar c = true ∧ c ≠ '.') {rest : Text}
    (hrest : ∀ c, rest.head? = some c → [c] ∈ shortcutStops) (cur : Cursor) :
    token? d.placeholder [mark] shortcutStops (mark :: (word ++ rest)) cur =
      (.ok (some (Text.trimEnd (mark :: word), rest)), cur) := by
  have hafter : Text.after? [mark] (mark :: (word ++ rest)) = some (word ++ rest) :=
    Text.after?_eq_some_iff.2 rfl
  have hgoes : ∀ c ∈ word, Tag.isMarkChar c = true ∧ [c] ∉ shortcutStops := by
    intro c hc
    obtain ⟨hmark, hdot⟩ := hword c hc
    have hspace := Tag.ne_of_isMarkChar hmark (by decide : Tag.isMarkChar ' ' = false)
    have hround := Tag.ne_of_isMarkChar hmark (by decide : Tag.isMarkChar '(' = false)
    have hcolon := Tag.ne_of_isMarkChar hmark (by decide : Tag.isMarkChar ':' = false)
    exact ⟨hmark, by simp [shortcutStops, hdot, hspace, hround, hcolon]⟩
  simp only [token?, List.isEmpty_cons, Bool.false_eq_true, if_false, hafter,
    atoms_plain hd (by decide) hgoes hrest]
  rfl

/-- There is no token where its mark is missing. -/
theorem token?_of_head? {n : Nesting} {mark : Char} {stops : List Text} {t : Text}
    (h : t.head? ≠ some mark) (cur : Cursor) :
    token? n [mark] stops t cur = (.ok none, cur) := by
  cases t with
  | nil => rfl
  | cons c t =>
    have hc : ¬ mark = c := fun heq => h (by rw [heq]; rfl)
    simp [token?, Text.after?, hc]

/-! ## Ids and classes -/

/-- The text is made of marks for classes. -/
structure Tag.Classes (t : Text) : Prop where
  chars : ∀ c ∈ t, Tag.isMarkChar c = true
  start : ∀ c, t.head? = some c → c = '.'

/-- A mark takes the plain word behind it, up to the next dot. -/
theorem Tag.exists_word {t : Text} (h : ∀ c ∈ t, Tag.isMarkChar c = true) :
    ∃ word rest, t = word ++ rest ∧ (∀ c ∈ word, Tag.isMarkChar c = true ∧ c ≠ '.') ∧
      Tag.Classes rest := by
  refine ⟨t.takeWhile (· != '.'), t.dropWhile (· != '.'), List.takeWhile_append_dropWhile.symm,
    fun c hc => ?_, fun c hc => h c ((List.dropWhile_sublist _).mem hc), fun c hc => ?_⟩
  · refine ⟨h c ((List.takeWhile_sublist _).mem hc), ?_⟩
    simpa using List.all_eq_true.1 List.all_takeWhile c hc
  · have hhead := List.head?_dropWhile_not (· != '.') t
    rw [hc] at hhead
    simpa using hhead

/-- What follows an id, be it classes or a space, ends it. -/
theorem Tag.Classes.head?_append {t rest : Text} (h : Tag.Classes t) (hrest : rest.Spaced)
    (c : Char) (hc : (t ++ rest).head? = some c) : [c] ∈ shortcutStops := by
  cases t with
  | nil =>
    rw [hrest c hc]
    decide
  | cons b u =>
    cases hc
    rw [h.start c rfl]
    decide

/-- An id is read off marks; only classes follow it. -/
theorem Tag.Marked.exists_id {d : Delimiters} (hd : d.Foreign) {t : Text} (h : Tag.Marked t) :
    ∃ id classes, Tag.Classes classes ∧ ∀ (rest : Text) (cur : Cursor), rest.Spaced →
      idShortcut d (t ++ rest) cur = (.ok (id, classes ++ rest), cur) := by
  by_cases hid : t.head? = some '#'
  · obtain ⟨u, rfl⟩ : ∃ u, t = '#' :: u := List.head?_eq_some_iff.1 hid
    obtain ⟨word, classes, rfl, hword, hclasses⟩ :=
      Tag.exists_word fun c hc => h.chars c (List.mem_cons_of_mem _ hc)
    refine ⟨Text.trimEnd ((Text.trimEnd ('#' :: word)).drop 1), classes, hclasses,
      fun rest cur hrest => ?_⟩
    rw [List.cons_append, List.append_assoc]
    exact Scan.bind_eq_ok_iff.2
      ⟨_, cur, token?_word hd '#' hword (hclasses.head?_append hrest) cur, rfl⟩
  · have hclasses : Tag.Classes t := by
      refine ⟨h.chars, fun c hc => (h.start c hc).resolve_left ?_⟩
      rintro rfl
      exact hid hc
    refine ⟨[], t, hclasses, fun rest cur hrest => ?_⟩
    have hhead : (t ++ rest).head? ≠ some '#' := fun heq =>
      absurd (hclasses.head?_append hrest '#' heq) (by decide)
    exact Scan.bind_eq_ok_iff.2 ⟨none, cur, token?_of_head? hhead cur, rfl⟩

/-- All classes are read off marks for classes. -/
theorem Tag.Classes.exists_classes {d : Delimiters} (hd : d.Foreign) {t : Text}
    (h : Tag.Classes t) : ∃ classes, ∀ (rest : Text) (cur : Cursor), rest.Spaced →
      classShortcuts d (t ++ rest) cur = (.ok (classes, rest), cur) := by
  induction hn : t.length using Nat.strongRecOn generalizing t with
  | _ n ih =>
    cases t with
    | nil =>
      refine ⟨[], fun rest cur hrest => ?_⟩
      have hhead : rest.head? ≠ some '.' := fun heq => by cases hrest '.' heq
      have hpass := classPass_iterates d () ⟨rest, cur⟩
      simp only [classPass, token?_of_head? hhead cur] at hpass
      exact hpass
    | cons c u =>
      obtain rfl := h.start c rfl
      obtain ⟨word, more, rfl, hword, hmore⟩ :=
        Tag.exists_word fun c hc => h.chars c (List.mem_cons_of_mem _ hc)
      have hlt : more.length < n := by
        rw [← hn, List.length_cons, List.length_append]
        omega
      obtain ⟨classes, hclasses⟩ := ih more.length hlt hmore rfl
      refine ⟨Text.trimEnd ((Text.trimEnd ('.' :: word)).drop 1) :: classes,
        fun rest cur hrest => ?_⟩
      have hpass := classPass_iterates d () ⟨'.' :: (word ++ (more ++ rest)), cur⟩
      simp only [classPass, token?_word hd '.' hword (hmore.head?_append hrest) cur] at hpass
      rw [List.cons_append, List.append_assoc]
      refine hpass.trans ?_
      simp only [Pass.finish, hclasses rest cur hrest, prependClass]

/-! ## Headlines -/

/-- The text is empty or starts with a mark of content. -/
def Text.Content (t : Text) : Prop :=
  ∀ c, t.head? = some c → c = '=' ∨ c = '|' ∨ c = ','

/-- The marks of content are not blank. -/
theorem isBlank_of_contentMark {c : Char} (hc : c = '=' ∨ c = '|' ∨ c = ',') :
    isBlank c = false := by
  rcases hc with rfl | rfl | rfl <;> decide

/-- Content is no continuation. -/
theorem Text.Content.not_isBreak {t : Text} (ht : t.Content) : isBreak t = false := by
  cases t with
  | nil => rfl
  | cons c t => rcases ht c rfl with rfl | rfl | rfl <;> rfl

/-- Content does not open a parenthesis. -/
theorem Text.Content.optionalMark_eq {t : Text} (ht : t.Content) :
    optionalMark '(' t = (false, t) := by
  cases t with
  | nil => rfl
  | cons c t => rcases ht c rfl with rfl | rfl | rfl <;> rfl

/-- Behind a scan that succeeds, the next one starts. -/
theorem Scan.bind_of_ok {α β : Type} {x : Scan α} {f : α → Scan β} {a : α} {cur cur' : Cursor}
    (h : x cur = (.ok a, cur')) : (x >>= f) cur = f a cur' := by
  rw [bind_apply, h]

/-- Content is no attribute. -/
theorem readAttributes_content {d : Delimiters} {t : Text} (ht : t.Content) (line id : Text)
    (list : AttributeList) (cur : Cursor) :
    readAttributes d false line id list t cur = (.ok (list, t), cur) := by
  have hpass := attributePass_iterates d false line id list ⟨t, cur⟩
  cases t with
  | nil =>
    have hbreak : followBreaks (Text.trimStart []) cur = (false, [], cur) :=
      followBreaks_of_not_isBreak rfl cur
    simp only [attributePass, hbreak] at hpass
    exact hpass
  | cons c t =>
    have hblank : isBlank c = false := isBlank_of_contentMark (ht c rfl)
    have hstop : (nameStops false).any (·.isPrefixOf (c :: t)) = true := by
      rcases ht c rfl with rfl | rfl | rfl <;> rfl
    have hsplat : splat? d false (c :: t) cur = (.ok none, cur) := by
      rcases ht c rfl with rfl | rfl | rfl <;> rfl
    have htrim : Text.trimStart (c :: t) = c :: t := List.dropWhile_cons_of_neg (by simp [hblank])
    have hname : attribute? d false (c :: t) cur = (.ok none, cur) := by
      simp [attribute?, token?, Text.after?, atoms_of_stop cur hstop, Text.trimEnd]
    simp only [attributePass, htrim, followBreaks_of_not_isBreak ht.not_isBreak, hsplat, hname]
      at hpass
    exact hpass

/-- A tag is read as a whole, and then the element is finished with what follows behind a space. -/
theorem Element.read_tag (s : Setting) (hd : s.delimiters.Foreign) (tag : Tag) :
    ∃ name attributes, ∀ (rest : Text) (cur : Cursor), rest.Spaced → rest.trimStart.Content →
      Element.read s none (tag.written ++ rest) cur =
        Element.finish s name attributes rest.trimStart cur := by
  obtain ⟨name, hname⟩ := tag.elementName_written
  obtain ⟨id, marks, hmarks, hid⟩ := tag.marked_writtenMarks.exists_id hd
  obtain ⟨classes, hclasses⟩ := hmarks.exists_classes hd
  refine ⟨name, AttributeList.written ⟨[], classes⟩ id, fun rest cur hrest hcontent => ?_⟩
  have hread := hname rest hrest
  have hcontinued : continued rest.trimStart cur = (.ok rest.trimStart, cur) := by
    unfold continued
    rw [followBreaks_of_not_isBreak hcontent.not_isBreak]
  unfold Element.read
  simp only [hread]
  refine (Scan.bind_of_ok (hid rest cur hrest)).trans ?_
  refine (Scan.bind_of_ok (hclasses rest cur hrest)).trans ?_
  refine (Scan.bind_of_ok hcontinued).trans ?_
  simp only [hcontent.optionalMark_eq]
  refine (Scan.bind_of_ok (readAttributes_content hcontent _ _ _ cur)).trans ?_
  rfl

end TerseMarkup
