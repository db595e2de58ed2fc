import TerseMarkup.Filter
import TerseMarkup.Proofs.Inlining
import TerseMarkup.Proofs.Trimming

/-!
# Filters behind the last bar

An expression may hold any number of bars: as operators, in string literals, in front of filters. It
has filters if one of its bars has blanks, a list of filters and blanks behind it, up to the end
(`FilterTail`). No bar can stand in there, so this can only be the last bar, and every part of the
expression is determined.

`filterNames` reads what is behind a bar character by character, in two states. It is compared with
the form of a list by what the parts of a list do to its state: blanks in front of a name leave it,
a name takes it inside, a comma takes it out again.

* `filterNames_eq_true_iff`: the reader accepts the texts that have the form of a `FilterTail`.
* `splitFilters?_append`: an expression is cut at its last bar.
* `FilterTail.eq_of_append_eq`: the parts of an expression with filters are determined.
* `Delimiters.withoutEscaping_filters`: the filter that switches escaping off is put in front of the
  filters that are there, and all else is kept as it is.
-/

namespace TerseMarkup

/-! ## Characters of a list -/

/-- What may start a name may go on with it. -/
theorem isFilterRest_of_isFilterStart {c : Char} (h : isFilterStart c = true) :
    isFilterRest c = true := by
  simp [isFilterRest, h]

/-- Names have no blanks in them. -/
theorem isBlank_of_isFilterRest {c : Char} (h : isFilterRest c = true) : isBlank c = false := by
  simp only [isFilterRest, isFilterStart, Bool.or_eq_true, Bool.and_eq_true, beq_iff_eq,
    decide_eq_true_eq] at h
  rcases h with (((h | h) | h) | rfl) | rfl
  · exact isBlank_of_between h (by decide) (by decide)
  · exact isBlank_of_between h (by decide) (by decide)
  · exact isBlank_of_between h (by decide) (by decide)
  all_goals decide

/-! ## Lists of filters -/

/-- A letter, and letters, digits, underscores and points behind it. -/
structure IsFilterName (name : Text) : Prop where
  starts : ∃ c, name.head? = some c ∧ isFilterStart c = true
  rest : ∀ c ∈ name, isFilterRest c = true

/-- Filter names with commas between them. Blanks may stand behind a comma. -/
inductive IsFilterList : Text → Prop
  | name {name : Text} (h : IsFilterName name) : IsFilterList name
  | more {name gap filters : Text} (hname : IsFilterName name)
      (hgap : ∀ c ∈ gap, isBlank c = true) (h : IsFilterList filters) :
      IsFilterList (name ++ ',' :: (gap ++ filters))

/-- What stands behind the bar of an expression with filters: blanks, a list and blanks. -/
@[ext]
structure FilterTail where
  gap : Text
  filters : Text
  trail : Text
  gap_blank : ∀ c ∈ gap, isBlank c = true
  isList : IsFilterList filters
  trail_blank : ∀ c ∈ trail, isBlank c = true

/-- The text of the parts. -/
def FilterTail.text (x : FilterTail) : Text :=
  x.gap ++ x.filters ++ x.trail

/-! ## The parts of a list -/

section

variable {name filters : Text}

/-- A letter is a name. -/
theorem IsFilterName.singleton {c : Char} (hc : isFilterStart c = true) : IsFilterName [c] := by
  refine ⟨⟨c, rfl, hc⟩, ?_⟩
  intro b hb
  rw [List.mem_singleton.1 hb]
  exact isFilterRest_of_isFilterStart hc

/-- A name goes on with one more character. -/
theorem IsFilterName.append_singleton (h : IsFilterName name) {c : Char}
    (hc : isFilterRest c = true) : IsFilterName (name ++ [c]) := by
  obtain ⟨b, hhead, hb⟩ := h.starts
  refine ⟨⟨b, ?_, hb⟩, ?_⟩
  · rw [List.head?_append, hhead]
    rfl
  · intro x hx
    rcases List.mem_append.1 hx with hx | hx
    · exact h.rest x hx
    · rwa [List.mem_singleton.1 hx]

namespace IsFilterList

/-- A list starts with a letter. -/
theorem exists_cons (h : IsFilterList filters) :
    ∃ c t, filters = c :: t ∧ isFilterStart c = true := by
  have hname : ∃ name t, IsFilterName name ∧ filters = name ++ t := by
    cases h with
    | name hname => exact ⟨_, [], hname, (List.append_nil _).symm⟩
    | more hname _ _ => exact ⟨_, _, hname, rfl⟩
  obtain ⟨name, t, hname, rfl⟩ := hname
  obtain ⟨c, hhead, hc⟩ := hname.starts
  obtain ⟨u, rfl⟩ := List.head?_eq_some_iff.1 hhead
  exact ⟨c, u ++ t, rfl, hc⟩

/-- A list does not start with a blank. -/
theorem isBlank_head? (h : IsFilterList filters) :
    ∀ c, filters.head? = some c → isBlank c = false := by
  obtain ⟨b, t, rfl, hb⟩ := h.exists_cons
  intro c hc
  obtain rfl : b = c := Option.some.inj hc
  exact isBlank_of_isFilterRest (isFilterRest_of_isFilterStart hb)

/-- A list ends with a character of its last name. -/
theorem isBlank_getLast? (h : IsFilterList filters) :
    ∀ c, filters.getLast? = some c → isBlank c = false := by
  induction h with
  | name hname =>
    intro c hc
    exact isBlank_of_isFilterRest (hname.rest c (List.mem_of_getLast? hc))
  | @more name gap filters _ _ h ih =>
    intro c hc
    apply ih
    obtain ⟨b, t, rfl, -⟩ := h.exists_cons
    rw [← List.cons_append, ← List.append_assoc, List.getLast?_append, List.getLast?_cons,
      Option.some_or] at hc
    rw [List.getLast?_cons, hc]

/-- No bar stands in a list. -/
theorem bar_not_mem (h : IsFilterList filters) : '|' ∉ filters := by
  induction h with
  | name hname =>
    intro hbar
    exact absurd (hname.rest '|' hbar) (by decide)
  | more hname hgap _ ih =>
    intro hbar
    simp only [List.mem_append, List.mem_cons] at hbar
    rcases hbar with hbar | hbar | hbar | hbar
    · exact absurd (hname.rest '|' hbar) (by decide)
    · exact absurd hbar (by decide)
    · exact absurd (hgap '|' hbar) (by decide)
    · exact ih hbar

end IsFilterList

end

/-! ## The reader of a list -/

section

variable {name gap filters t : Text}

/-- Blanks in front of a name are skipped. -/
theorem filterNames_gap (hgap : ∀ c ∈ gap, isBlank c = true) (t : Text) :
    filterNames false (gap ++ t) = filterNames false t := by
  induction gap with
  | nil => rfl
  | cons c gap ih =>
    obtain ⟨hc, hgap⟩ := List.forall_mem_cons.1 hgap
    rw [List.cons_append, filterNames, if_pos hc]
    exact ih hgap

/-- A name is gone on with, character by character. -/
theorem filterNames_rest (hname : ∀ c ∈ name, isFilterRest c = true) (t : Text) :
    filterNames true (name ++ t) = filterNames true t := by
  induction name with
  | nil => rfl
  | cons c name ih =>
    obtain ⟨hc, hname⟩ := List.forall_mem_cons.1 hname
    rw [List.cons_append, filterNames, if_pos hc]
    exact ih hname

/-- Behind a name the reader is inside of it. -/
theorem filterNames_name (hname : IsFilterName name) (t : Text) :
    filterNames false (name ++ t) = filterNames true t := by
  obtain ⟨c, hhead, hc⟩ := hname.starts
  obtain ⟨u, rfl⟩ := List.head?_eq_some_iff.1 hhead
  have hvisible := isBlank_of_isFilterRest (isFilterRest_of_isFilterStart hc)
  have hrest : ∀ x ∈ u, isFilterRest x = true := (List.forall_mem_cons.1 hname.rest).2
  rw [List.cons_append, filterNames, hvisible, hc]
  exact filterNames_rest hrest t

/-- Behind a comma, a name is still to come. -/
theorem filterNames_comma (t : Text) : filterNames true (',' :: t) = filterNames false t := by
  rw [filterNames, if_neg (by decide), if_pos rfl]

/-- Only blanks may stand behind the last name. -/
theorem filterNames_trail (ht : ∀ c ∈ t, isBlank c = true) : filterNames true t = true := by
  cases t with
  | nil => rfl
  | cons c t =>
    have hc : isBlank c = true := ht c List.mem_cons_self
    have hrest : ¬ isFilterRest c = true := by
      intro hrest
      rw [isBlank_of_isFilterRest hrest] at hc
      cases hc
    have hcomma : c ≠ ',' := by
      rintro rfl
      exact absurd hc (by decide)
    rw [filterNames, if_neg hrest, if_neg hcomma]
    exact List.all_eq_true.2 ht

/-- Behind a list the reader is inside of its last name. -/
theorem filterNames_list (h : IsFilterList filters) (t : Text) :
    filterNames false (filters ++ t) = filterNames true t := by
  induction h with
  | name hname => exact filterNames_name hname t
  | @more name gap filters hname hgap _ ih =>
    calc filterNames false (name ++ ',' :: (gap ++ filters) ++ t)
        = filterNames false (name ++ (',' :: (gap ++ (filters ++ t)))) := by
          simp only [List.append_assoc, List.cons_append]
      _ = filterNames true (',' :: (gap ++ (filters ++ t))) := filterNames_name hname _
      _ = filterNames false (gap ++ (filters ++ t)) := filterNames_comma _
      _ = filterNames false (filters ++ t) := filterNames_gap hgap _
      _ = filterNames true t := ih

namespace FilterTail

/-- What stands behind the bar of an expression with filters is accepted. -/
theorem filterNames_text (x : FilterTail) : filterNames false x.text = true := by
  rw [text, List.append_assoc, filterNames_gap x.gap_blank, filterNames_list x.isList]
  exact filterNames_trail x.trail_blank

/-- A name alone, with blanks behind it. -/
def ofName {name : Text} (h : IsFilterName name) (trail : Text)
    (htrail : ∀ c ∈ trail, isBlank c = true) : FilterTail where
  gap := []
  filters := name
  trail := trail
  gap_blank := List.forall_mem_nil _
  isList := .name h
  trail_blank := htrail

/-- The same list with other blanks in front of it. -/
def withGap (x : FilterTail) (gap : Text) (hgap : ∀ c ∈ gap, isBlank c = true) : FilterTail :=
  { x with gap := gap, gap_blank := hgap }

/-- The list with a name in front of it. The blanks that were in front are behind the comma. -/
def behind (x : FilterTail) {name : Text} (h : IsFilterName name) : FilterTail where
  gap := []
  filters := name ++ ',' :: (x.gap ++ x.filters)
  trail := x.trail
  gap_blank := List.forall_mem_nil _
  isList := .more h x.gap_blank x.isList
  trail_blank := x.trail_blank

/-- A name can be put in front of a list. -/
theorem text_behind (x : FilterTail) (h : IsFilterName name) :
    (x.behind h).text = name ++ ',' :: x.text := by
  simp only [behind, text, List.nil_append, List.append_assoc, List.cons_append]

end FilterTail

/-- What the reader accepts has the form of a list. Inside of a name this holds with the part of the
name in front that has been read. -/
theorem exists_of_filterNames {inside : Bool} (h : filterNames inside t = true) :
    (inside = false → ∃ x : FilterTail, x.text = t) ∧
      (inside = true → ∀ name, IsFilterName name → ∃ x : FilterTail, x.text = name ++ t) := by
  fun_induction filterNames inside t with
  | case1 => cases h
  | case2 c t hc ih =>
    refine ⟨fun _ => ?_, Bool.noConfusion⟩
    obtain ⟨x, rfl⟩ := (ih h).1 rfl
    exact ⟨x.withGap (c :: x.gap) (List.forall_mem_cons.2 ⟨hc, x.gap_blank⟩), rfl⟩
  | case3 c t hc ih =>
    refine ⟨fun _ => ?_, Bool.noConfusion⟩
    obtain ⟨hstart, hnames⟩ := Bool.and_eq_true_iff.1 h
    exact (ih hnames).2 rfl [c] (.singleton hstart)
  | case4 =>
    refine ⟨Bool.noConfusion, fun _ name hname => ?_⟩
    exact ⟨.ofName hname [] (List.forall_mem_nil _), rfl⟩
  | case5 c t hc ih =>
    refine ⟨Bool.noConfusion, fun _ name hname => ?_⟩
    obtain ⟨x, hx⟩ := (ih h).2 rfl (name ++ [c]) (hname.append_singleton hc)
    exact ⟨x, hx.trans (List.append_assoc name [c] t)⟩
  | case6 t hc ih =>
    refine ⟨Bool.noConfusion, fun _ name hname => ?_⟩
    obtain ⟨x, rfl⟩ := (ih h).1 rfl
    exact ⟨x.behind hname, x.text_behind hname⟩
  | case7 c t hc hcomma =>
    refine ⟨Bool.noConfusion, fun _ name hname => ?_⟩
    exact ⟨.ofName hname (c :: t) (List.all_eq_true.1 h), rfl⟩

/-- A text is accepted exactly if it is blanks, a list and blanks. -/
theorem filterNames_eq_true_iff : filterNames false t = true ↔ ∃ x : FilterTail, x.text = t := by
  constructor
  · intro h
    exact (exists_of_filterNames h).1 rfl
  · rintro ⟨x, rfl⟩
    exact x.filterNames_text

end

/-! ## The last bar -/

namespace FilterTail

/-- No bar stands behind the bar of an expression with filters. -/
theorem bar_not_mem_text (x : FilterTail) : '|' ∉ x.text := by
  intro hbar
  simp only [text, List.mem_append] at hbar
  rcases hbar with (hbar | hbar) | hbar
  · exact absurd (x.gap_blank '|' hbar) (by decide)
  · exact x.isList.bar_not_mem hbar
  · exact absurd (x.trail_blank '|' hbar) (by decide)

/-- Behind the blanks stand the list and the blanks behind it. -/
theorem trimStart_text (x : FilterTail) : Text.trimStart x.text = x.filters ++ x.trail := by
  obtain ⟨c, t, ht, -⟩ := x.isList.exists_cons
  rw [text, List.append_assoc, Text.trimStart_append_blank x.gap_blank]
  apply Text.trimStart_eq_self
  intro b hb
  apply x.isList.isBlank_head? b
  rw [ht] at hb ⊢
  exact hb

/-- Without the blanks, the list is left. -/
theorem trim_text (x : FilterTail) : Text.trim x.text = x.filters := by
  have hstart := Text.trimStart_eq_self x.isList.isBlank_head?
  rw [text, Text.trim_append_blank _ x.trail_blank, Text.trim_blank_append x.gap_blank, Text.trim,
    hstart]
  exact Text.trimEnd_eq_self x.isList.isBlank_getLast?

/-- The parts are determined by their text. -/
theorem eq_of_text_eq {x y : FilterTail} (h : x.text = y.text) : x = y := by
  have hfilters : x.filters = y.filters := by
    rw [← x.trim_text, h, y.trim_text]
  have hrest : x.filters ++ x.trail = y.filters ++ y.trail := by
    rw [← x.trimStart_text, h, y.trimStart_text]
  have hgap : x.gap = y.gap := by
    rw [text, text, List.append_assoc, List.append_assoc, hrest] at h
    exact List.append_cancel_right h
  rw [hfilters] at hrest
  exact FilterTail.ext hgap hfilters (List.append_cancel_left hrest)

end FilterTail

section

variable {expr base names : Text}

/-- An expression is cut at its last bar, whatever is in front of it. -/
theorem splitFilters?_append (base : Text) (x : FilterTail) :
    splitFilters? (base ++ '|' :: x.text) = some (base, x.filters ++ x.trail) := by
  induction base with
  | nil =>
    rw [List.nil_append, splitFilters?, if_pos, x.trimStart_text]
    simp [x.filterNames_text]
  | cons c base ih =>
    -- From a bar in front of the last one on, the reader comes to the last one.
    have hearly : filterNames false (base ++ '|' :: x.text) = false := by
      apply Bool.eq_false_iff.2
      intro hnames
      obtain ⟨y, hy⟩ := filterNames_eq_true_iff.1 hnames
      apply y.bar_not_mem_text
      rw [hy]
      exact List.mem_append_right base List.mem_cons_self
    rw [List.cons_append, splitFilters?, if_neg, ih]
    · rfl
    · simp [hearly]

/-- Where an expression is cut, there are filters behind the bar. -/
theorem exists_of_splitFilters? (h : splitFilters? expr = some (base, names)) :
    ∃ x : FilterTail, expr = base ++ '|' :: x.text := by
  fun_induction splitFilters? expr generalizing base names with
  | case1 => cases h
  | case2 c t hbar =>
    simp only [Bool.and_eq_true, decide_eq_true_eq] at hbar
    obtain ⟨rfl, hnames⟩ := hbar
    obtain ⟨x, rfl⟩ := filterNames_eq_true_iff.1 hnames
    cases h
    exact ⟨x, rfl⟩
  | case3 c t _ ih =>
    obtain ⟨⟨base', names'⟩, hcut, hpair⟩ := Option.map_eq_some_iff.1 h
    cases hpair
    obtain ⟨x, hx⟩ := ih hcut
    exact ⟨x, congrArg (c :: ·) hx⟩

/-- An expression without filters is not cut. -/
theorem splitFilters?_eq_none (h : ∀ base (x : FilterTail), expr ≠ base ++ '|' :: x.text) :
    splitFilters? expr = none := by
  cases hcut : splitFilters? expr with
  | none => rfl
  | some found =>
    obtain ⟨x, hx⟩ := exists_of_splitFilters? hcut
    exact absurd hx (h found.1 x)

/-- The parts of an expression with filters are determined. -/
theorem FilterTail.eq_of_append_eq {base base' : Text} {x y : FilterTail}
    (h : base ++ '|' :: x.text = base' ++ '|' :: y.text) : base = base' ∧ x = y := by
  have hcut := congrArg splitFilters? h
  rw [splitFilters?_append, splitFilters?_append] at hcut
  obtain rfl : base = base' := congrArg Prod.fst (Option.some.inj hcut)
  exact ⟨rfl, FilterTail.eq_of_text_eq (List.cons.inj (List.append_cancel_left h)).2⟩

end

/-! ## Escaping switched off -/

namespace Delimiters

variable {d : Delimiters} {expr : Text}

/-- With filters there already, the one that switches escaping off comes first. -/
theorem withoutEscaping_append (d : Delimiters) (base : Text) (x : FilterTail) :
    d.withoutEscaping (base ++ '|' :: x.text) =
      base ++ ['|'] ++ d.noEscape ++ d.filterSeparator ++ x.filters ++ x.trail := by
  rw [withoutEscaping, splitFilters?_append]
  simp only [List.append_assoc]

/-- Without filters, a bar is added for it. -/
theorem withoutEscaping_of_no_filters (d : Delimiters)
    (h : ∀ base (x : FilterTail), expr ≠ base ++ '|' :: x.text) :
    d.withoutEscaping expr = expr ++ ['|'] ++ d.noEscape := by
  rw [withoutEscaping, splitFilters?_eq_none h]

/-- If the filter that switches escaping off is a name and goes with a comma, the result has filters
again. -/
theorem withoutEscaping_append_eq_behind (hname : IsFilterName d.noEscape)
    (hcomma : d.filterSeparator = [',']) (base : Text) (x : FilterTail) :
    d.withoutEscaping (base ++ '|' :: x.text) =
      base ++ '|' :: ((x.withGap [] (List.forall_mem_nil _)).behind hname).text := by
  rw [withoutEscaping_append, FilterTail.text_behind, hcomma]
  simp only [FilterTail.withGap, FilterTail.text, List.append_assoc, List.cons_append,
    List.nil_append]

/-- Then the expression has that filter, and no other. -/
theorem withoutEscaping_eq_ofName (hname : IsFilterName d.noEscape)
    (h : ∀ base (x : FilterTail), expr ≠ base ++ '|' :: x.text) :
    d.withoutEscaping expr =
      expr ++ '|' :: (FilterTail.ofName hname [] (List.forall_mem_nil _)).text := by
  rw [d.withoutEscaping_of_no_filters h]
  simp only [FilterTail.ofName, FilterTail.text, List.append_assoc, List.cons_append,
    List.nil_append, List.append_nil]

/-- The filter that switches escaping off is a name, in Mako. -/
theorem isFilterName_noEscape_mako : IsFilterName mako.noEscape :=
  .singleton (by decide)

/-- Escaping switched off. In an expression that is `base`, a bar and a list of filters with blanks
around it, the filter that does so is put in front of the list, and only the blanks between the bar
and the list are lost. In an expression that is nothing of this kind it is put behind a bar at the
end. With the delimiters of Mako the result is again an expression with filters, in exactly one way:
the base is as it was (or it is the whole expression), and the list has a new first name. -/
theorem withoutEscaping_filters (d : Delimiters) (expr : Text) :
    (∀ (base : Text) (x : FilterTail), expr = base ++ '|' :: x.text →
      d.withoutEscaping expr =
        base ++ ['|'] ++ d.noEscape ++ d.filterSeparator ++ x.filters ++ x.trail ∧
      ∃ y : FilterTail, y.filters = "n,".toList ++ x.filters ∧ y.trail = x.trail ∧
        ∀ (base' : Text) (z : FilterTail),
          mako.withoutEscaping expr = base' ++ '|' :: z.text ↔ base' = base ∧ z = y) ∧
    ((∀ (base : Text) (x : FilterTail), expr ≠ base ++ '|' :: x.text) →
      d.withoutEscaping expr = expr ++ ['|'] ++ d.noEscape ∧
      ∃ y : FilterTail, y.filters = "n".toList ∧ y.trail = [] ∧
        ∀ (base' : Text) (z : FilterTail),
          mako.withoutEscaping expr = base' ++ '|' :: z.text ↔ base' = expr ∧ z = y) := by
  have hunique (base base' : Text) (y z : FilterTail) :
      base ++ '|' :: y.text = base' ++ '|' :: z.text ↔ base' = base ∧ z = y := by
    constructor
    · intro h
      obtain ⟨rfl, rfl⟩ := FilterTail.eq_of_append_eq h
      exact ⟨rfl, rfl⟩
    · rintro ⟨rfl, rfl⟩
      rfl
  constructor
  · rintro base x rfl
    refine ⟨d.withoutEscaping_append base x,
      (x.withGap [] (List.forall_mem_nil _)).behind isFilterName_noEscape_mako, rfl, rfl, ?_⟩
    intro base' z
    rw [withoutEscaping_append_eq_behind isFilterName_noEscape_mako rfl]
    exact hunique base base' _ z
  · intro hno
    refine ⟨d.withoutEscaping_of_no_filters hno,
      .ofName isFilterName_noEscape_mako [] (List.forall_mem_nil _), rfl, rfl, ?_⟩
    intro base' z
    rw [withoutEscaping_eq_ofName isFilterName_noEscape_mako hno]
    exact hunique expr base' _ z

/-- Bars as operators and in a string literal, with filters at the end and without. -/
theorem withoutEscaping_filters_bars :
    django.withoutEscaping "a | f('x|y') |\t h, trim ".toList =
        "a | f('x|y') |safe|h, trim ".toList ∧
      django.withoutEscaping "a | f('x|y')".toList = "a | f('x|y')|safe".toList := by
  have hname {name : Text} {c : Char} (hhead : name.head? = some c) (hc : isFilterStart c = true)
      (hrest : name.all isFilterRest = true) : IsFilterName name :=
    ⟨⟨c, hhead, hc⟩, List.all_eq_true.1 hrest⟩
  have hfirst : IsFilterName "h".toList := hname rfl (by decide) (by decide)
  have hsecond : IsFilterName "trim".toList := hname rfl (by decide) (by decide)
  have hblank : ∀ c ∈ " ".toList, isBlank c = true := List.all_eq_true.1 (by decide)
  have htab : ∀ c ∈ "\t ".toList, isBlank c = true := List.all_eq_true.1 (by decide)
  let x : FilterTail :=
    ⟨"\t ".toList, "h, trim".toList, " ".toList, htab, .more hfirst hblank (.name hsecond), hblank⟩
  have hno : ∀ (base : Text) (x : FilterTail), "a | f('x|y')".toList ≠ base ++ '|' :: x.text := by
    intro base x h
    have hnone : splitFilters? "a | f('x|y')".toList = none := by decide
    rw [h, splitFilters?_append] at hnone
    cases hnone
  exact ⟨((withoutEscaping_filters django _).1 "a | f('x|y') ".toList x rfl).1,
    ((withoutEscaping_filters django _).2 hno).1⟩

end Delimiters

end TerseMarkup
