import TerseMarkup.Proofs.InlineContent
import TerseMarkup.Proofs.Quotation

/-!
# Attributes as they are written

An attribute with a plain name and a quoted value is read back as it is written, among bare
attributes and in parentheses alike (`Attribute.attribute?_written`), although a name ends at other
characters in the one case than in the other. From this follows what the reader makes of a row of
bare attributes (`Attribute.exists_readAttributes_row`) and of attributes in parentheses, which may
be spread over lines (`Attribute.Spread.exists_readAttributes`). Lines are pulled with the blanks at
their ends, so texts are compared up to trimming all along.
-/

namespace TerseMarkup

/-! ## Attributes -/

/-- Whether a character is a letter. -/
def isLetter (c : Char) : Bool :=
  isElementStart c || ('A' ≤ c && c ≤ 'Z')

/-- An attribute with a plain name and a value that means itself between double quotes. -/
structure Attribute where
  name : Text
  value : Text
  name_valid : ∃ c u, name = c :: u ∧ isLetter c = true ∧ ∀ b ∈ u, isPlainChar b = true
  value_valid : ∀ c ∈ value, c ≠ '\n' ∧ c ≠ '\\' ∧ c ≠ '"'
  value_trimmed : value.trimEnd = value

namespace Attribute

/-- An attribute as it is written. -/
def written (a : Attribute) : Text :=
  attributePair a.name a.value

/-- Whether an attribute gives classes. -/
def isClass (a : Attribute) : Bool :=
  a.name == "class".toList

end Attribute

/-- Letters may stand in plain words. -/
theorem isPlainChar_of_isLetter {c : Char} (h : isLetter c = true) : isPlainChar c = true := by
  unfold isLetter at h
  unfold isPlainChar isElementRest
  rcases Bool.or_eq_true_iff.1 h with h | h <;> simp [h]

/-- What may stand in plain words may stand in tags. -/
theorem isMarkChar_of_isPlainChar {c : Char} (h : isPlainChar c = true) :
    Tag.isMarkChar c = true := by
  simp [Tag.isMarkChar, h]

/-- What may stand in plain words may stand in names. -/
theorem isNameChar_of_isPlainChar {c : Char} (h : isPlainChar c = true) : isNameChar c = true := by
  have hmark := isMarkChar_of_isPlainChar h
  have hother : ∀ b ∈ "=:|,)([\x7b$\"'".toList, c ≠ b := by
    intro b hb
    have hforeign : ∀ b ∈ "=:|,)([\x7b$\"'".toList, Tag.isMarkChar b = false :=
      Text.forall_mem_of_all (by decide)
    exact Tag.ne_of_isMarkChar hmark (hforeign b hb)
  have hmem : "=:|,)([\x7b$\"'".toList.contains c = false := by
    simpa using fun hmem => hother c hmem rfl
  simp only [isNameChar, Tag.isBlank_of_isMarkChar hmark, hmem, Bool.not_false, Bool.and_self]

/-! ## Reading an attribute -/

namespace Attribute

variable (a : Attribute)

/-- An attribute starts with a letter. -/
theorem exists_written_cons : ∃ c u, a.written = c :: u ∧ isLetter c = true := by
  obtain ⟨c, u, hname, hc, -⟩ := a.name_valid
  exact ⟨c, _, by rw [written, attributePair, hname]; rfl, hc⟩

/-- Names of attributes are plain words. -/
theorem isPlainChar_of_mem_name {c : Char} (hc : c ∈ a.name) : isPlainChar c = true := by
  obtain ⟨b, u, hname, hb, hu⟩ := a.name_valid
  rw [hname] at hc
  rcases List.mem_cons.1 hc with rfl | hc
  · exact isPlainChar_of_isLetter hb
  · exact hu c hc

/-- An attribute as name, equals sign and value between quotes. -/
theorem written_eq : a.written = a.name ++ '=' :: ('"' :: (a.value ++ ['"'])) := by
  simp [written, attributePair]

/-- An attribute does not end in a blank. -/
theorem isBlank_getLast?_written {c : Char} (hc : a.written.getLast? = some c) :
    isBlank c = false := by
  rw [written, attributePair, List.getLast?_concat, Option.some.injEq] at hc
  rw [← hc]
  decide

/-- An attribute does not start with a blank, whatever follows it. -/
theorem isBlank_head?_written_append (t : Text) {c : Char}
    (hc : (a.written ++ t).head? = some c) : isBlank c = false := by
  obtain ⟨b, u, hwritten, hb⟩ := a.exists_written_cons
  rw [hwritten] at hc
  cases hc
  exact Tag.isBlank_of_isMarkChar (isMarkChar_of_isPlainChar (isPlainChar_of_isLetter hb))

/-- An attribute is on one line. -/
theorem feed_not_mem_written : '\n' ∉ a.written := by
  rw [written_eq]
  simp only [List.mem_append, List.mem_cons, List.not_mem_nil, or_false, not_or]
  refine ⟨fun hmem => ?_, by decide, by decide, fun hmem => (a.value_valid _ hmem).1 rfl, by decide⟩
  exact absurd (a.isPlainChar_of_mem_name hmem) (by decide)

/-- The name of an attribute is read in either layout. -/
theorem token?_name {d : Delimiters} (hd : d.Foreign) (parens : Bool) (t : Text) (cur : Cursor) :
    token? d.placeholder [] (nameStops parens) (a.name ++ '=' :: t) cur =
      (.ok (some (a.name, '=' :: t)), cur) := by
  apply token?_equals
  · intro c hc hhead
    have hmark := isMarkChar_of_isPlainChar (a.isPlainChar_of_mem_name hc)
    exact Tag.ne_of_isMarkChar hmark (hd c hhead) rfl
  · intro c hc
    exact isNameChar_of_isPlainChar (a.isPlainChar_of_mem_name hc)

/-- An attribute is read back in either layout, whatever follows it but a quote sign. -/
theorem attribute?_written {d : Delimiters} (hd : d.Foreign) (parens : Bool) {rest : Text}
    (hrest : rest.head? ≠ some '"') (cur : Cursor) :
    attribute? d parens (a.written ++ rest) cur = (.ok (some (a.written, rest)), cur) := by
  have hne : a.name ≠ [] := by
    obtain ⟨c, u, hcons, -⟩ := a.name_valid
    rw [hcons]
    exact List.cons_ne_nil c u
  have hvalue := quotedValue?_escape (.inl rfl) (.inl rfl) a.value hrest
  rw [Text.escape_eq_self fun c hc => (a.value_valid c hc).2] at hvalue
  have hread := attribute?_literal hne (a.token?_name hd parens _ cur) hvalue
  have hpair : a.written ++ rest = a.name ++ '=' :: (['"'] ++ (a.value ++ (['"'] ++ rest))) := by
    simp [written_eq]
  rw [hpair, hread, a.value_trimmed]
  rfl

/-- An attribute that starts with a name and an equals sign has this name. -/
theorem name_eq_of_prefix {key t : Text} (hkey : '=' ∉ key) (h : a.written = key ++ '=' :: t) :
    a.name = key := by
  have hcut {x : Text} (u : Text) (hx : '=' ∉ x) :
      (x ++ '=' :: u).takeWhile (· != '=') = x := by
    have hall : ∀ c ∈ x, (c != '=') = true := fun c hc => by
      rw [bne_iff_ne]
      rintro rfl
      exact hx hc
    rw [List.takeWhile_append_of_pos hall]
    simp
  have hname : '=' ∉ a.name := fun hmem => absurd (a.isPlainChar_of_mem_name hmem) (by decide)
  rw [← hcut t hkey, ← h, written_eq, hcut _ hname]

/-- An attribute with another name is not taken for an id. -/
theorem not_isPrefixOf_id (h : a.name ≠ "id".toList) :
    "id=\"".toList.isPrefixOf a.written = false := by
  refine Bool.eq_false_iff.2 fun hlead => h ?_
  obtain ⟨t, ht⟩ := List.isPrefixOf_iff_prefix.1 hlead
  exact a.name_eq_of_prefix (t := '"' :: t) (by decide) ht.symm

/-- An attribute that gives classes joins the classes, any other one the attributes. -/
theorem add_written (list : AttributeList) :
    list.add a.written =
      if a.isClass then ⟨list.pairs, list.classes ++ [a.value]⟩
      else ⟨list.pairs ++ [a.written], list.classes⟩ := by
  by_cases hclass : a.name = "class".toList
  · have hafter : Text.after? "class=\"".toList a.written = some (a.value ++ ['"']) := by
      rw [Text.after?_eq_some_iff, written_eq, hclass]
      rfl
    have hlast : (a.value ++ ['"']).getLast? = some '"' := List.getLast?_concat
    simp only [AttributeList.add, hafter, hlast, if_true, List.dropLast_concat, isClass, hclass,
      beq_self_eq_true]
  · have hafter : Text.after? "class=\"".toList a.written = none := by
      cases h : Text.after? "class=\"".toList a.written with
      | none => rfl
      | some t =>
        have hlead := Text.after?_eq_some_iff.1 h
        exact absurd (a.name_eq_of_prefix (t := '"' :: t) (by decide) hlead) hclass
    have hname : a.isClass = false := by simpa [isClass] using hclass
    simp only [AttributeList.add, hafter, hname, Bool.false_eq_true, if_false]

/-- All attributes added in their order. -/
def addAll (attrs : List Attribute) (list : AttributeList) : AttributeList :=
  attrs.foldl (fun list a => list.add a.written) list

/-- Attributes are added in their order: classes to the classes, and the others to the pairs. -/
theorem addAll_eq (attrs : List Attribute) (list : AttributeList) :
    addAll attrs list =
      ⟨list.pairs ++ (attrs.filter (!·.isClass)).map written,
        list.classes ++ (attrs.filter isClass).map value⟩ := by
  induction attrs generalizing list with
  | nil => simp [addAll]
  | cons a attrs ih =>
    have hstep : addAll (a :: attrs) list = addAll attrs (list.add a.written) := rfl
    rw [hstep, ih, add_written]
    cases ha : a.isClass <;> simp [ha]

end Attribute

/-! ## Steps through the attributes -/

section Steps

variable {d : Delimiters} {parens : Bool} {line id t : Text} {list : AttributeList} {cur : Cursor}

/-- Attributes are read off what is left behind blanks and continuations. -/
theorem readAttributes_congr {t' : Text} {cur' : Cursor}
    (h : (followBreaks t.trimStart cur).2 = (followBreaks t'.trimStart cur').2) :
    readAttributes d parens line id list t cur = readAttributes d parens line id list t' cur' := by
  have hpass := attributePass_iterates d parens line id list ⟨t, cur⟩
  have hpass' := attributePass_iterates d parens line id list ⟨t', cur'⟩
  rcases hbreaks : followBreaks t.trimStart cur with ⟨found, u, cur₁⟩
  rcases hbreaks' : followBreaks t'.trimStart cur' with ⟨found', u', cur₁'⟩
  rw [hbreaks, hbreaks'] at h
  cases h
  simp only [attributePass, hbreaks] at hpass
  simp only [attributePass, hbreaks'] at hpass'
  exact hpass.trans hpass'.symm

/-- Blanks in front of the attributes make no difference. -/
theorem readAttributes_trimStart (t : Text) (cur : Cursor) :
    readAttributes d parens line id list t.trimStart cur =
      readAttributes d parens line id list t cur := by
  have htrim : Text.trimStart t.trimStart = t.trimStart :=
    Text.trimStart_eq_self fun _ => Text.isBlank_head?_trimStart
  exact readAttributes_congr (by rw [htrim])

/-- An attribute at the front is added, and reading goes on behind it. There must not be a second
id. -/
theorem readAttributes_attribute (hd : d.Foreign) (a : Attribute)
    (hid : id = [] ∨ a.name ≠ "id".toList) {rest : Text} (hrest : rest.head? ≠ some '"')
    (ht : t.trimStart = a.written ++ rest) :
    readAttributes d parens line id list t cur =
      readAttributes d parens line id (list.add a.written) rest cur := by
  obtain ⟨c, u, hcons, hc⟩ := a.exists_written_cons
  have hmark := isMarkChar_of_isPlainChar (isPlainChar_of_isLetter hc)
  have hslash := Tag.ne_of_isMarkChar hmark (by decide : Tag.isMarkChar '\\' = false)
  have hstar := Tag.ne_of_isMarkChar hmark (by decide : Tag.isMarkChar '*' = false)
  have hbreak : isBreak (a.written ++ rest) = false := by
    simp [hcons, isBreak, hslash]
  have hsplat : splat? d parens (a.written ++ rest) cur = (.ok none, cur) := by
    simp [hcons, splat?, Text.after?, Ne.symm hstar]
  have hsecond : ¬ ("id=\"".toList.isPrefixOf a.written = true ∧ id ≠ []) := by
    rintro ⟨hlead, hne⟩
    rw [a.not_isPrefixOf_id (hid.resolve_left hne)] at hlead
    cases hlead
  have hpass := attributePass_iterates d parens line id list ⟨t, cur⟩
  simp only [attributePass, ht, followBreaks_of_not_isBreak hbreak, hsplat,
    a.attribute?_written hd parens hrest, if_neg hsecond] at hpass
  exact hpass

/-- A line that is used up, or is continued by a backslash, is followed by the next one. -/
theorem readAttributes_next (ht : t.trim = [] ∨ t.trim = ['\\']) (raw : Text)
    (ahead : List Text) (n : Nat) :
    readAttributes d true line id list t ⟨raw :: ahead, n⟩ =
      readAttributes d true line id list raw ⟨ahead, n + 1⟩ := by
  rcases ht with ht | ht
  · have htrim : t.trimStart = [] := Text.trimStart_eq_nil_iff.2 (Text.trim_eq_nil_iff.1 ht)
    have hbreak : isBreak [] = false := rfl
    have hpass := attributePass_iterates d true line id list ⟨t, ⟨raw :: ahead, n⟩⟩
    simp only [attributePass, htrim, followBreaks_of_not_isBreak hbreak] at hpass
    exact hpass
  · obtain ⟨b, htrim, hb⟩ := Text.exists_trimStart_eq_append (t := t) (x := ['\\']) (y := [])
      (by rintro c ⟨⟩; decide) (by rintro c ⟨⟩; decide) ht
    have hbreak : isBreak ('\\' :: b) = true := by
      have hblank := Text.trim_eq_nil_iff.1 (Text.trim_eq_of_trimEnd_eq hb)
      simpa [isBreak] using hblank
    apply readAttributes_congr
    rw [htrim, List.singleton_append, followBreaks, followBreaksOver, if_pos hbreak]
    rfl

/-- A closing parenthesis ends the attributes. -/
theorem readAttributes_close {rest : Text} (ht : t.trimStart = ')' :: rest) :
    readAttributes d true line id list t cur = (.ok (list, ')' :: rest), cur) := by
  have hbreak : isBreak (')' :: rest) = false := rfl
  have hsplat : splat? d true (')' :: rest) cur = (.ok none, cur) := rfl
  have hstop : (nameStops true).any (·.isPrefixOf (')' :: rest)) = true := rfl
  have hname : attribute? d true (')' :: rest) cur = (.ok none, cur) := by
    simp [attribute?, token?, Text.after?, atoms_of_stop cur hstop, Text.trimEnd]
  have hpass := attributePass_iterates d true line id list ⟨t, cur⟩
  simp only [attributePass, ht, followBreaks_of_not_isBreak hbreak, hsplat, hname] at hpass
  exact hpass

end Steps

/-- Blanks around content leave it content. -/
theorem Text.Content.trimStart_of_trim_eq {t t' : Text} (ht' : t'.Content) (h : t.trim = t'.trim) :
    t.trimStart.Content ∧ Text.trimEnd t.trimStart = t'.trimEnd := by
  have hstart : t'.trimStart = t' :=
    Text.trimStart_eq_self fun c hc => isBlank_of_contentMark (ht' c hc)
  have htrim : Text.trimEnd t.trimStart = t'.trimEnd := by
    rw [← Text.trim, h, Text.trim, hstart]
  refine ⟨fun c hc => ?_, htrim⟩
  exact ht' c (Text.head?_eq_of_trimEnd_eq (Text.isBlank_head?_trimStart hc) htrim hc)

/-! ## Attributes in parentheses -/

namespace Attribute

/-- The text holds the attributes in their order, with blanks and line feeds before, between and
after them. A backslash may stand in front of a line feed. -/
inductive Spread : List Attribute → Text → Prop
  | nil : Spread [] []
  | blank {attrs : List Attribute} {t : Text} {c : Char} (hc : isBlank c = true) (hfeed : c ≠ '\n')
      (h : Spread attrs t) : Spread attrs (c :: t)
  | lineEnd {attrs : List Attribute} {b t : Text} (hb : b.trim = [] ∨ b.trim = ['\\'])
      (hfeed : '\n' ∉ b) (h : Spread attrs t) : Spread attrs (b ++ ['\n'] ++ t)
  | cons {attrs : List Attribute} {t : Text} (a : Attribute) (h : Spread attrs t) :
      Spread (a :: attrs) (a.written ++ t)

namespace Spread

variable {attrs : List Attribute} {t : Text}

/-- No quote sign follows an attribute. -/
theorem head?_ne (h : Spread attrs t) (w : Text) : (t ++ ')' :: w).head? ≠ some '"' := by
  intro hhead
  cases h with
  | nil => cases hhead
  | blank hc hfeed h =>
    cases hhead
    exact absurd hc (by decide)
  | @lineEnd _ b _ hb hfeed h =>
    cases b with
    | nil => cases hhead
    | cons c b =>
      cases hhead
      have htrim : Text.trimStart ('"' :: b) = '"' :: b :=
        Text.trimStart_eq_self (by rintro c ⟨⟩; decide)
      obtain ⟨u, -, -, -, hu⟩ := Text.exists_trimEnd_cons (by decide : isBlank '"' = false) b
      rw [Text.trim, htrim, hu] at hb
      rcases hb with hb | hb <;> cases hb
  | cons a h =>
    obtain ⟨c, u, hcons, hc⟩ := a.exists_written_cons
    rw [hcons] at hhead
    cases hhead
    exact absurd hc (by decide)

/-- All attributes are read, and all lines they stand on are pulled. What is left starts with the
closing parenthesis. -/
theorem exists_readAttributes (h : Spread attrs t) {d : Delimiters} (hd : d.Foreign)
    {line id w tail first : Text} (hid : id = [] ∨ ∀ a ∈ attrs, a.name ≠ "id".toList)
    (hw : Text.lines (')' :: w) = [')' :: w]) {more : List Text}
    (hlines : Text.lines (t ++ ')' :: w) = first :: more) (htail : tail.trim = first.trim)
    (list : AttributeList) (ahead : List Text) (n : Nat) :
    ∃ rest : Text, rest.trimEnd = w.trimEnd ∧
      readAttributes d true line id list tail ⟨more ++ ahead, n⟩ =
        (.ok (addAll attrs list, ')' :: rest), ⟨ahead, n + more.length⟩) := by
  have hsplit (u : Text) : ∃ next more', Text.lines (u ++ ')' :: w) = next :: more' :=
    Text.exists_lines_cons (by simp)
  -- Blanks leave the reader where it is; the other pieces of the text are a step each.
  induction h generalizing tail first more list n with
  | nil =>
    rw [List.nil_append, hw] at hlines
    cases hlines
    obtain ⟨rest, hrest, htrim⟩ := Text.exists_trimStart_eq_append (x := [')']) (y := w)
      (by rintro c ⟨⟩; decide) (by rintro c ⟨⟩; decide) htail
    exact ⟨rest, htrim, readAttributes_close hrest⟩
  | @blank attrs t c hc hfeed h ih =>
    obtain ⟨next, more', hnext⟩ := hsplit t
    have hfirst := Text.lines_append_left (x := [c]) (by simpa using Ne.symm hfeed) hnext
    rw [List.cons_append] at hlines
    cases hlines.symm.trans hfirst
    refine ih hid hnext (htail.trans ?_) list n
    exact Text.trim_blank_append (by simpa using hc) next
  | @lineEnd attrs b t hb hfeed h ih =>
    obtain ⟨next, more', hnext⟩ := hsplit t
    rw [List.append_assoc, Text.lines_append_feed hfeed, hnext] at hlines
    cases hlines
    rw [Text.trim_append_blank b (Text.forall_mem_of_all (by decide))] at htail
    obtain ⟨rest, htrim, hread⟩ := ih hid hnext rfl list (n + 1)
    refine ⟨rest, htrim, ?_⟩
    rw [List.cons_append, readAttributes_next (by rwa [htail]), hread, List.length_cons]
    congr 2
    omega
  | @cons attrs t a h ih =>
    obtain ⟨next, more', hnext⟩ := hsplit t
    have hfirst := Text.lines_append_left a.feed_not_mem_written hnext
    rw [List.append_assoc] at hlines
    cases hlines.symm.trans hfirst
    obtain ⟨rest, hrest, htrim⟩ := Text.exists_trimStart_eq_append
      (fun c hc => a.isBlank_head?_written_append next hc)
      (fun c hc => a.isBlank_getLast?_written hc) htail
    have hquote : rest.head? ≠ some '"' := by
      intro hhead
      have hhead' := Text.head?_eq_of_trimEnd_eq (by decide) htrim hhead
      have hflat := Text.flatten_lines (t ++ ')' :: w)
      rw [hnext, List.flatten_cons] at hflat
      exact h.head?_ne w (by rw [← hflat, List.head?_append, hhead']; rfl)
    rw [readAttributes_attribute hd a (hid.imp_right (· a List.mem_cons_self)) hquote hrest]
    refine ih (hid.imp_right fun h b hb => h b (List.mem_cons_of_mem a hb)) hnext ?_ _ n
    exact Text.trim_eq_of_trimEnd_eq htrim

end Spread

/-! ## Bare attributes -/

/-- Bare attributes with a space in front of each. -/
def row (attrs : List Attribute) : Text :=
  (attrs.map fun a => ' ' :: a.written).flatten

/-- A row of attributes is on one line. -/
theorem feed_not_mem_row (attrs : List Attribute) : '\n' ∉ row attrs := by
  intro hmem
  obtain ⟨piece, hpiece, hmem⟩ := List.mem_flatten.1 hmem
  obtain ⟨a, -, rfl⟩ := List.mem_map.1 hpiece
  rcases List.mem_cons.1 hmem with h | h
  · cases h
  · exact a.feed_not_mem_written h

section Row

variable {attrs : List Attribute} {C t : Text}

/-- Without attributes, only the content is left. -/
theorem trim_row_nil (ht : t.trimEnd = Text.trimEnd (row [] ++ ' ' :: C)) : t.trim = C.trim :=
  (Text.trim_eq_of_trimEnd_eq ht).trans
    (Text.trim_blank_append (t := [' ']) (Text.forall_mem_of_all (by decide)) C)

/-- A row starts with its first attribute, and the others follow. -/
theorem exists_trimStart_row (a : Attribute)
    (ht : t.trimEnd = Text.trimEnd (row (a :: attrs) ++ ' ' :: C)) :
    ∃ rest : Text, t.trimStart = a.written ++ rest ∧ rest.head? ≠ some '"' ∧
      rest.trimEnd = Text.trimEnd (row attrs ++ ' ' :: C) := by
  have hrow : Text.trim (row (a :: attrs) ++ ' ' :: C) =
      Text.trim (a.written ++ (row attrs ++ ' ' :: C)) := by
    have hspace := Text.trim_blank_append (t := [' ']) (Text.forall_mem_of_all (by decide))
      (a.written ++ (row attrs ++ ' ' :: C))
    simpa [row] using hspace
  obtain ⟨rest, hrest, htrim⟩ := Text.exists_trimStart_eq_append
    (fun c hc => a.isBlank_head?_written_append _ hc) (fun c hc => a.isBlank_getLast?_written hc)
    ((Text.trim_eq_of_trimEnd_eq ht).trans hrow)
  refine ⟨rest, hrest, fun hhead => ?_, htrim⟩
  have hhead' := Text.head?_eq_of_trimEnd_eq (by decide) htrim hhead
  cases attrs <;> cases hhead'

/-- Bare attributes and content open no parentheses and are no continuation. -/
theorem head?_trimStart_row (hC : C.Content)
    (ht : t.trimEnd = Text.trimEnd (row attrs ++ ' ' :: C)) :
    t.trimStart.head? ≠ some '(' ∧ t.trimStart.head? ≠ some '\\' := by
  cases attrs with
  | nil =>
    obtain ⟨hcontent, -⟩ := hC.trimStart_of_trim_eq (trim_row_nil ht)
    constructor <;> intro hhead <;> rcases hcontent _ hhead with h | h | h <;> cases h
  | cons a attrs =>
    obtain ⟨rest, hrest, -⟩ := exists_trimStart_row a ht
    obtain ⟨c, u, hcons, hc⟩ := a.exists_written_cons
    rw [hrest, hcons]
    constructor <;> rintro ⟨⟩ <;> exact absurd hc (by decide)

/-- What stands behind bare attributes is left as it is, if it is content. -/
theorem exists_readAttributes_row {d : Delimiters} (hd : d.Foreign) {line id : Text}
    (hid : id = [] ∨ ∀ a ∈ attrs, a.name ≠ "id".toList) (hC : C.Content)
    (ht : t.trimEnd = Text.trimEnd (row attrs ++ ' ' :: C)) (list : AttributeList) (cur : Cursor) :
    ∃ rest : Text, rest.Content ∧ rest.trimEnd = C.trimEnd ∧
      readAttributes d false line id list t cur = (.ok (addAll attrs list, rest), cur) := by
  induction attrs generalizing t list with
  | nil =>
    obtain ⟨hcontent, htrim⟩ := hC.trimStart_of_trim_eq (trim_row_nil ht)
    refine ⟨t.trimStart, hcontent, htrim, ?_⟩
    rw [← readAttributes_trimStart]
    exact readAttributes_content hcontent _ _ _ cur
  | cons a attrs ih =>
    obtain ⟨rest, hrest, hquote, htrim⟩ := exists_trimStart_row a ht
    rw [readAttributes_attribute hd a (hid.imp_right (· a List.mem_cons_self)) hquote hrest]
    exact ih (hid.imp_right fun h b hb => h b (List.mem_cons_of_mem a hb)) htrim _

end Row

end Attribute

end TerseMarkup
