import TerseMarkup.Proofs.Decline
import TerseMarkup.Proofs.Fault
import TerseMarkup.Proofs.Quotation
import TerseMarkup.Proofs.Wrapper

/-!
# A second id

A headline with an id behind `#` must not have an attribute `id` as well. The check looks at what is
written for an attribute, which depends on the form of its value: a literal, a number, any other
value and a name by itself are all written as a pair that starts with the name
(`ReadsAttribute.exists_pair`). A value with a question mark behind it is not. What is written for
it starts with the delimiter of values, so such an attribute passes the check, whatever its name is.

* `ReadsAttribute` has the five forms of an attribute, and `attribute?_eq_some_iff` says that there
  are no others.
* `ReadsAttribute.isPrefixOf_id_iff`: what the check finds.
* `AttributeStep` and `ReadsAttributes` are the reading of attributes one by one, without the check.
* `Element.read_secondId`: a headline with an id is refused for a second one if an attribute `id` is
  read in one of the other four forms, and only then, as far as its own attributes go. Markup
  embedded in its content has headlines of its own.
* `Element.read_marked_id`: the fifth form is not refused.
-/

namespace TerseMarkup

/-! ## The forms of an attribute -/

/-- The forms that an attribute can have. -/
inductive AttributeForm where
  /-- A string literal behind the equals sign. -/
  | quoted
  /-- A number. -/
  | numeric
  /-- Any other value. -/
  | dynamic
  /-- Such a value with a question mark behind it. -/
  | marked
  /-- A name without a value. -/
  | bare
  deriving DecidableEq, Repr

/-- An attribute with the given name stands at the front of a text, in the given form. `pair` is
what is written for it, and the reading goes on at the place that comes last. -/
inductive ReadsAttribute (d : Delimiters) (parens : Bool) (t : Text) (cur : Cursor) (name : Text) :
    AttributeForm → Text → Place → Prop
  | quoted {u v rest : Text} {cur₁ : Cursor}
      (hname : token? d.placeholder [] (nameStops parens) t cur =
        (.ok (some (name, '=' :: u)), cur₁))
      (hvalue : quotedValue? u = some (v, rest)) :
      ReadsAttribute d parens t cur name .quoted (attributePair name v.trimEnd) ⟨rest, cur₁⟩
  | numeric {u v rest : Text} {cur₁ : Cursor}
      (hname : token? d.placeholder [] (nameStops parens) t cur =
        (.ok (some (name, '=' :: u)), cur₁))
      (hquoted : quotedValue? u = none) (hvalue : numericValue? u = some (v, rest)) :
      ReadsAttribute d parens t cur name .numeric (attributePair name v) ⟨rest, cur₁⟩
  | dynamic {u token rest : Text} {cur₁ cur₂ : Cursor}
      (hname : token? d.placeholder [] (nameStops parens) t cur =
        (.ok (some (name, '=' :: u)), cur₁))
      (hquoted : quotedValue? u = none) (hnumeric : numericValue? u = none)
      (hvalue : token? d.placeholder [] (valueStops parens) u cur₁ =
        (.ok (some (token, rest)), cur₂)) (hmark : rest.head? ≠ some '?') :
      ReadsAttribute d parens t cur name .dynamic
        (attributePair name (d.value (unwrapValue d u token).trimEnd)) ⟨rest, cur₂⟩
  | marked {u token rest : Text} {cur₁ cur₂ : Cursor}
      (hname : token? d.placeholder [] (nameStops parens) t cur =
        (.ok (some (name, '=' :: u)), cur₁))
      (hquoted : quotedValue? u = none) (hnumeric : numericValue? u = none)
      (hvalue : token? d.placeholder [] (valueStops parens) u cur₁ =
        (.ok (some (token, '?' :: rest)), cur₂)) :
      ReadsAttribute d parens t cur name .marked
        (d.switch name (unwrapValue d u token).trimEnd) ⟨rest, cur₂⟩
  | bare {rest : Text} {cur₁ : Cursor}
      (hname : token? d.placeholder [] (nameStops parens) t cur =
        (.ok (some (name, rest)), cur₁))
      (hequals : rest.head? ≠ some '=') (hswitch : isSwitch parens rest = true) :
      ReadsAttribute d parens t cur name .bare (attributePair name name) ⟨rest, cur₁⟩

section

variable {d : Delimiters} {parens : Bool} {t name pair rest : Text} {cur cur' : Cursor}
  {form : AttributeForm} {place place' : Place}

/-- An attribute is read exactly if it stands there in one of the forms, with a name. -/
theorem attribute?_eq_some_iff :
    attribute? d parens t cur = (.ok (some (pair, rest)), cur') ↔
      ∃ name form, name ≠ [] ∧ ReadsAttribute d parens t cur name form pair ⟨rest, cur'⟩ := by
  constructor
  · intro h
    unfold attribute? at h
    split at h
    · cases h
    · cases h
    · rename_i name after cur₁ hname
      split at h
      · cases h
      · rename_i hempty
        refine ⟨name, ?_⟩
        have hne : name ≠ [] := mt List.isEmpty_iff.2 hempty
        split at h
        · rename_i u hafter
          rw [Text.after?_eq_some_iff.1 hafter] at hname
          unfold assignment? at h
          split at h
          · rename_i v rest₁ hquoted
            cases h
            exact ⟨.quoted, hne, .quoted hname hquoted⟩
          · rename_i hquoted
            split at h
            · rename_i v rest₁ hnumeric
              cases h
              exact ⟨.numeric, hne, .numeric hname hquoted hnumeric⟩
            · rename_i hnumeric
              split at h
              · cases h
              · cases h
              · rename_i token rest₁ cur₂ hvalue
                simp only at h
                split at h
                · rename_i rest₂ hmark
                  cases h
                  rw [Text.after?_eq_some_iff.1 hmark] at hvalue
                  exact ⟨.marked, hne, .marked hname hquoted hnumeric hvalue⟩
                · rename_i hmark
                  cases h
                  exact ⟨.dynamic, hne, .dynamic hname hquoted hnumeric hvalue
                    (Text.after?_singleton_eq_none_iff.1 hmark)⟩
        · rename_i hafter
          split at h
          · rename_i hswitch
            cases h
            exact ⟨.bare, hne,
              .bare hname (Text.after?_singleton_eq_none_iff.1 hafter) hswitch⟩
          · cases h
  · rintro ⟨name, form, hne, h⟩
    have hempty : name.isEmpty = false := by simpa using hne
    cases h with
    | quoted hname hvalue =>
      simp [attribute?, hname, hempty, Text.after?, assignment?, hvalue]
    | numeric hname hquoted hvalue =>
      simp [attribute?, hname, hempty, Text.after?, assignment?, hquoted, hvalue]
    | dynamic hname hquoted hnumeric hvalue hmark =>
      simp [attribute?, hname, hempty, Text.after?, assignment?, hquoted, hnumeric, hvalue,
        Text.after?_singleton_eq_none_iff.2 hmark]
    | marked hname hquoted hnumeric hvalue =>
      simp [attribute?, hname, hempty, Text.after?, assignment?, hquoted, hnumeric, hvalue]
    | bare hname hequals hswitch =>
      simp [attribute?, hname, hempty, Text.after?_singleton_eq_none_iff.2 hequals, hswitch]

/-! ## What the check finds -/

/-- What is read starts with the first character of the text, which is no terminator. -/
theorem exists_of_atoms_cons {n : Nesting} {stops : List Text} {c : Char} {t more rest : Text}
    {cur cur' : Cursor} (h : atoms n stops t cur = (.ok (c :: more, rest), cur')) :
    ∃ u, t = c :: u ∧ stops.any (·.isPrefixOf (c :: u)) = false := by
  cases t with
  | nil =>
    rw [atoms_nil] at h
    cases h
  | cons b u =>
    by_cases hb : stops.any (·.isPrefixOf (b :: u)) = true
    · rw [atoms_of_stop cur hb] at h
      cases h
    · have hhead := head?_of_atoms (eq_false_of_ne_true hb) h
      cases hhead
      exact ⟨u, rfl, eq_false_of_ne_true hb⟩

/-- In what is read, no terminator stands behind a word of single atoms. -/
theorem not_prefix_of_atoms {n : Nesting} {stops : List Text} {stop : Char} (hstop : [stop] ∈ stops)
    {word : Text} (hword : ∀ c ∈ word, ∀ t cur, atom (some n) c t cur = (.ok ([c], t), cur))
    {t read rest : Text} {cur cur' : Cursor}
    (h : atoms n stops t cur = (.ok (read, rest), cur')) : ¬ word ++ [stop] <+: read := by
  rintro ⟨more, rfl⟩
  induction word generalizing t cur cur' rest with
  | nil =>
    obtain ⟨u, rfl, hgoes⟩ := exists_of_atoms_cons h
    have hlead := List.any_eq_false.1 hgoes [stop] hstop
    simp [List.isPrefixOf] at hlead
  | cons c word ih =>
    obtain ⟨u, rfl, hgoes⟩ := exists_of_atoms_cons h
    rw [atoms_of_atom hgoes (hword c List.mem_cons_self u cur)] at h
    rcases hread : atoms n stops u cur with ⟨e | ⟨read, rest₁⟩, cur₁⟩
    · rw [hread] at h
      cases h
    · rw [hread] at h
      cases h
      exact ih (fun b hb => hword b (List.mem_cons_of_mem c hb)) hread

/-- An equals sign does not stand behind a word in a name. -/
theorem not_prefix_of_name (hd : d = .mako ∨ d = .django) {word : Text}
    (hword : ∀ c ∈ word, isNameChar c = true)
    (h : token? d.placeholder [] (nameStops parens) t cur = (.ok (some (name, rest)), cur')) :
    ¬ word ++ ['='] <+: name := by
  intro hname
  unfold token? at h
  split at h
  · cases h
  · split at h
    · cases h
    · split at h
      · cases h
      · rename_i read rest₁ cur₁ hatoms
        cases h
        have hstop : ['='] ∈ nameStops parens := by cases parens <;> decide
        refine not_prefix_of_atoms hstop ?_ hatoms (hname.trans (Text.trimEnd_isPrefix read))
        intro c hc t cur
        exact atom_of_isNameChar (Delimiters.head?_variableStart_ne hd (hword c hc))
          (hword c hc) t cur

namespace ReadsAttribute

/-- An attribute starts with a token that is its name. -/
theorem exists_token (h : ReadsAttribute d parens t cur name form pair place) :
    ∃ rest cur', token? d.placeholder [] (nameStops parens) t cur =
      (.ok (some (name, rest)), cur') := by
  cases h with
  | quoted hname | numeric hname | dynamic hname | marked hname | bare hname =>
    exact ⟨_, _, hname⟩

/-- All forms but one are written as a pair. -/
theorem exists_pair (h : ReadsAttribute d parens t cur name form pair place) :
    form ≠ .marked ∧ (∃ v, pair = attributePair name v) ∨
      form = .marked ∧ ∃ v, pair = d.switch name v := by
  cases h with
  | quoted | numeric | dynamic | bare => exact .inl ⟨by decide, _, rfl⟩
  | marked => exact .inr ⟨rfl, _, rfl⟩

/-- The check finds the attributes with the name `id`, in all forms but one. -/
theorem isPrefixOf_id_iff (hd : d = .mako ∨ d = .django)
    (h : ReadsAttribute d parens t cur name form pair place) :
    "id=\"".toList.isPrefixOf pair = true ↔ name = "id".toList ∧ form ≠ .marked := by
  obtain ⟨rest, cur', htoken⟩ := h.exists_token
  rcases h.exists_pair with ⟨hform, v, rfl⟩ | ⟨rfl, v, rfl⟩
  · have hid : ¬ "id".toList ++ ['='] <+: name :=
      not_prefix_of_name hd (Text.forall_mem_of_all (by decide)) htoken
    constructor
    · intro hlead
      refine ⟨?_, hform⟩
      obtain ⟨u, hu⟩ : ['i', 'd', '=', '"'] <+: name ++ ['=', '"'] ++ v ++ ['"'] :=
        List.isPrefixOf_iff_prefix.1 hlead
      -- The equals sign that the check looks for is the one behind the name.
      rcases name with _ | ⟨a, _ | ⟨b, _ | ⟨c, more⟩⟩⟩
      · simp at hu
      · simp at hu
      · simp only [List.cons_append, List.cons.injEq] at hu
        rw [← hu.1, ← hu.2.1]
        rfl
      · simp only [List.cons_append, List.cons.injEq] at hu
        refine absurd ⟨more, ?_⟩ hid
        rw [← hu.1, ← hu.2.1, ← hu.2.2.1]
        rfl
    · rintro ⟨rfl, -⟩
      rfl
  · obtain ⟨c, u, hstart, hc⟩ := Delimiters.exists_variableStart hd
    have hswitch : "id=\"".toList.isPrefixOf (d.switch name v) = false := by
      rcases hc with rfl | rfl <;> simp [Delimiters.switch, hstart, List.isPrefixOf]
    rw [hswitch]
    simp

end ReadsAttribute

/-! ## Reading attributes one by one -/

/-- The attribute is an id, in a form that the check finds. -/
def IsSecondId (a : Text × AttributeForm) : Prop :=
  a.1 = "id".toList ∧ a.2 ≠ .marked

/-- One step in the reading of attributes: a mapping, an attribute or, in parentheses, the next
line. An attribute is given with its form. -/
inductive AttributeStep (d : Delimiters) (parens : Bool) :
    Place → Option (Text × AttributeForm) → Place → Prop
  | mapping {t u text rest : Text} {cur cur₁ cur₂ : Cursor} {found : Bool}
      (hbreaks : followBreaks t.trimStart cur = (found, u, cur₁))
      (hsplat : splat? d parens u cur₁ = (.ok (some (text, rest)), cur₂)) :
      AttributeStep d parens ⟨t, cur⟩ none ⟨rest, cur₂⟩
  | named {t u name pair : Text} {form : AttributeForm} {cur cur₁ : Cursor} {found : Bool}
      {place : Place} (hbreaks : followBreaks t.trimStart cur = (found, u, cur₁))
      (hsplat : splat? d parens u cur₁ = (.ok none, cur₁)) (hne : name ≠ [])
      (hread : ReadsAttribute d parens u cur₁ name form pair place) :
      AttributeStep d parens ⟨t, cur⟩ (some (name, form)) place
  | line {t raw : Text} {cur cur₁ cur₂ : Cursor} {found : Bool} (hparens : parens = true)
      (hbreaks : followBreaks t.trimStart cur = (found, [], cur₁))
      (hnext : cur₁.next? = some (raw, cur₂)) :
      AttributeStep d parens ⟨t, cur⟩ none ⟨raw, cur₂⟩

/-- The attributes that are read on the way from one place to another, in their order. -/
inductive ReadsAttributes (d : Delimiters) (parens : Bool) :
    Place → List (Text × AttributeForm) → Place → Prop
  | nil (place : Place) : ReadsAttributes d parens place [] place
  | cons {place place₁ place' : Place} {found : Option (Text × AttributeForm)}
      {attrs : List (Text × AttributeForm)} (hstep : AttributeStep d parens place found place₁)
      (h : ReadsAttributes d parens place₁ attrs place') :
      ReadsAttributes d parens place (found.toList ++ attrs) place'

section

variable {line id : Text} {found : Option (Text × AttributeForm)}
  {attrs : List (Text × AttributeForm)}

/-- A step without a second id leads to the place where the reading goes on. -/
theorem AttributeStep.exists_readAttributes (hd : d = .mako ∨ d = .django)
    (h : AttributeStep d parens place found place') (hfound : ∀ a ∈ found, ¬ IsSecondId a)
    (list : AttributeList) :
    ∃ list', readAttributes d parens line id list place.text place.cursor =
      readAttributes d parens line id list' place'.text place'.cursor := by
  have hpass := attributePass_iterates d parens line id list place
  cases h with
  | mapping hbreaks hsplat =>
    simp only [attributePass, hbreaks, hsplat] at hpass
    exact ⟨_, hpass⟩
  | named hbreaks hsplat hne hread =>
    have hread' := attribute?_eq_some_iff.2 ⟨_, _, hne, hread⟩
    have hpasses := mt (hread.isPrefixOf_id_iff hd).1 (hfound _ rfl)
    simp only [attributePass, hbreaks, hsplat, hread', if_neg (mt And.left hpasses)] at hpass
    exact ⟨_, hpass⟩
  | line hparens hbreaks hnext =>
    subst hparens
    have hsplat (cur : Cursor) : splat? d true [] cur = (.ok none, cur) := rfl
    have hread (cur : Cursor) : attribute? d true [] cur = (.ok none, cur) := rfl
    simp only [attributePass, hbreaks, hsplat, hread, hnext, and_self, if_true] at hpass
    exact ⟨_, hpass⟩

/-- A step to a second id is the last one. -/
theorem AttributeStep.readAttributes_eq (hd : d = .mako ∨ d = .django)
    {a : Text × AttributeForm} (h : AttributeStep d parens place (some a) place')
    (ha : IsSecondId a) (hid : id ≠ []) (list : AttributeList) :
    readAttributes d parens line id list place.text place.cursor =
      (.error (secondId line place'.cursor.number), place'.cursor) := by
  have hpass := attributePass_iterates d parens line id list place
  cases h with
  | named hbreaks hsplat hne hread =>
    have hread' := attribute?_eq_some_iff.2 ⟨_, _, hne, hread⟩
    have hfails := (hread.isPrefixOf_id_iff hd).2 ha
    simp only [attributePass, hbreaks, hsplat, hread', hfails, true_and, if_pos hid] at hpass
    exact hpass

/-- A second id among the attributes is reported, at the line where it is read. -/
theorem ReadsAttributes.exists_secondId (hd : d = .mako ∨ d = .django)
    (h : ReadsAttributes d parens place attrs place') (ha : ∃ a ∈ attrs, IsSecondId a)
    (hid : id ≠ []) (list : AttributeList) :
    ∃ cur', readAttributes d parens line id list place.text place.cursor =
      (.error (secondId line cur'.number), cur') := by
  induction h generalizing list with
  | nil =>
    obtain ⟨a, hmem, -⟩ := ha
    cases hmem
  | @cons place place₁ place' found attrs hstep h ih =>
    by_cases hfound : ∀ a ∈ found, ¬ IsSecondId a
    · obtain ⟨list', hnext⟩ := hstep.exists_readAttributes hd hfound list
      rw [hnext]
      refine ih ?_ list'
      obtain ⟨a, hmem, ha⟩ := ha
      rcases List.mem_append.1 hmem with hmem | hmem
      · exact absurd ha (hfound a (Option.mem_toList.1 hmem))
      · exact ⟨a, hmem, ha⟩
    · obtain ⟨b, rfl, hb⟩ : ∃ b ∈ found, IsSecondId b := by simpa using hfound
      exact ⟨_, hstep.readAttributes_eq hd hb hid list⟩

/-- An open parenthesis is not reported as a second id. -/
theorem unclosedParens_ne_secondId (locus locus' : Text) (n n' : Nat) :
    unclosedParens locus n ≠ secondId locus' n' := by
  intro h
  injection h with hmessage
  exact absurd hmessage (by decide)

/-- Nor is a group left open. -/
theorem Scan.FailsOpen.ne_secondId {α : Type} {x : Scan α} (hx : Scan.FailsOpen x)
    {cur cur' : Cursor} {e : Diagnostic} (h : x cur = (.error e, cur')) (locus : Text) (n : Nat) :
    e ≠ secondId locus n := by
  obtain ⟨read, rfl⟩ := hx cur e cur' h
  intro hopen
  cases hopen

/-- A pass over the attributes is a step, or it ends the reading; with a second id only if it has
found one. -/
def Pass.StepsFrom (d : Delimiters) (parens : Bool) (line : Text) (place : Place) {σ α : Type} :
    Pass σ (Outcome α) → Prop
  | .done r => ∀ locus n cur, r = (.error (secondId locus n), cur) →
      locus = line ∧ n = cur.number ∧
        ∃ a rest, IsSecondId a ∧ AttributeStep d parens place (some a) ⟨rest, cur⟩
  | .again _ place' wrap => (wrap = fun r => r) ∧ ∃ found, AttributeStep d parens place found place'

/-- A pass over the attributes is one of the steps, or ends the reading; and a second id is reported
for an attribute that is one. -/
theorem attributePass_stepsFrom (hd : d = .mako ∨ d = .django) (parens : Bool) (line id : Text)
    (list : AttributeList) (place : Place) :
    (attributePass d parens line id list place).StepsFrom d parens line place := by
  unfold attributePass
  split
  rename_i found u cur₁ hbreaks
  split
  · rename_i e cur₂ hsplat
    intro locus n cur h
    injection (Prod.mk.inj h).1 with hfault
    exact absurd hfault ((failsOpen_splat? d parens u).ne_secondId hsplat locus n)
  · rename_i text rest cur₂ hsplat
    exact ⟨rfl, none, .mapping hbreaks hsplat⟩
  · rename_i cur₂ hsplat
    obtain rfl := eq_of_splat?_eq_none hsplat
    split
    · rename_i e cur₃ hread
      intro locus n cur h
      injection (Prod.mk.inj h).1 with hfault
      exact absurd hfault ((failsOpen_attribute? d parens u).ne_secondId hread locus n)
    · rename_i pair rest cur₃ hread
      obtain ⟨name, form, hne, hread⟩ := attribute?_eq_some_iff.1 hread
      split
      · rename_i hcheck
        intro locus n cur h
        cases h
        refine ⟨rfl, rfl, (name, form), rest, ?_, .named hbreaks hsplat hne hread⟩
        exact (hread.isPrefixOf_id_iff hd).1 hcheck.1
      · exact ⟨rfl, some (name, form), .named hbreaks hsplat hne hread⟩
    · rename_i cur₃ hread
      split
      · rename_i hempty
        obtain ⟨hparens, rfl⟩ := hempty
        split
        · intro locus n cur h
          injection (Prod.mk.inj h).1 with hfault
          exact absurd hfault (unclosedParens_ne_secondId _ _ _ _)
        · rename_i raw cur₄ hnext
          have hcur : cur₃ = cur₂ := congrArg Prod.snd hread.symm
          exact ⟨rfl, none, .line hparens hbreaks (hcur ▸ hnext)⟩
      · intro locus n cur h
        cases h

/-- A second id is reported only if there is one, at the line where it is read. -/
theorem ReadsAttributes.of_secondId (hd : d = .mako ∨ d = .django) {t : Text} {cur cur' : Cursor}
    {list : AttributeList} {locus : Text} {n : Nat}
    (h : readAttributes d parens line id list t cur = (.error (secondId locus n), cur')) :
    locus = line ∧ n = cur'.number ∧
      ∃ attrs place', ReadsAttributes d parens ⟨t, cur⟩ attrs place' ∧
        ∃ a ∈ attrs, IsSecondId a := by
  refine (attributePass_iterates d parens line id).induction
    (attributePass_advances d parens line id)
    (Q := fun _ place r => ∀ locus n cur', r = (.error (secondId locus n), cur') →
      locus = line ∧ n = cur'.number ∧
        ∃ attrs place', ReadsAttributes d parens place attrs place' ∧ ∃ a ∈ attrs, IsSecondId a)
    ?_ ?_ list ⟨t, cur⟩ locus n cur' h
  · intro list place r hdone locus n cur' hr
    have hpass := attributePass_stepsFrom hd parens line id list place
    rw [hdone] at hpass
    obtain ⟨hlocus, hn, a, rest, ha, hstep⟩ := hpass locus n cur' hr
    exact ⟨hlocus, hn, [a], _, .cons hstep (.nil _), a, List.mem_singleton_self a, ha⟩
  · intro list place list' place' wrap hagain ih locus n cur' hr
    have hpass := attributePass_stepsFrom hd parens line id list place
    rw [hagain] at hpass
    obtain ⟨rfl, found, hstep⟩ := hpass
    obtain ⟨hlocus, hn, attrs, place'', hreads, a, hmem, ha⟩ := ih locus n cur' hr
    exact ⟨hlocus, hn, _, _, .cons hstep hreads, a, List.mem_append_right _ hmem, ha⟩

end

end

/-! ## Headlines -/

/-- What stands before the attributes: the id and the classes behind their marks and, if there is
one, the parenthesis. The last part is the text where the attributes start. -/
def Element.shortcuts (d : Delimiters) (line : Text) : Scan (Text × List Text × Bool × Text) := do
  let (id, tail) ← idShortcut d (elementName line).2
  let (classes, tail) ← classShortcuts d tail
  let tail ← continued tail.trimStart
  let (parens, tail) := optionalMark '(' tail
  return (id, classes, parens, tail)

section

variable {s : Setting} {disguise : Option Disguise} {line id tail locus : Text}
  {classes : List Text} {parens : Bool} {n : Nat} {cur cur₁ cur' : Cursor}

/-- The reading of a headline, from its attributes on. -/
theorem Element.read_of_shortcuts
    (h : Element.shortcuts s.delimiters line cur = (.ok (id, classes, parens, tail), cur₁)) :
    Element.read s disguise line cur =
      (readAttributes s.delimiters parens line id
          ⟨(disguise.map Disguise.leading).toList, classes⟩ tail >>= fun found =>
        closeParens parens found.2 >>= Element.finish s
          ((disguise.map Disguise.name).getD (elementName line).1) (found.1.written id)) cur₁ := by
  obtain ⟨⟨id, t₁⟩, cur₂, hid, h⟩ := Scan.bind_eq_ok_iff.1 h
  obtain ⟨⟨classes, t₂⟩, cur₃, hclasses, h⟩ := Scan.bind_eq_ok_iff.1 h
  obtain ⟨t₃, cur₄, hbreaks, h⟩ := Scan.bind_eq_ok_iff.1 h
  cases h
  refine (Scan.bind_of_ok hid).trans ?_
  refine (Scan.bind_of_ok hclasses).trans ?_
  exact Scan.bind_of_ok hbreaks

/-- Content is refused for a second id only by markup embedded in it. -/
theorem inlineContent_secondId {t : Text}
    (h : inlineContent s t cur = (.error (secondId locus n), cur')) :
    cur' = cur ∧ ∃ content, content <:+: t ∧
      renderSpans s.embedded cur.number content = .error (secondId locus n) := by
  have htext {u : Text} (hu : u <:+: t)
      (h : renderText s u.trim cur = (.error (secondId locus n), cur')) :
      cur' = cur ∧ ∃ content, content <:+: t ∧
        renderSpans s.embedded cur.number content = .error (secondId locus n) := by
    have hrender : (renderSpans s.embedded cur.number u.trim, cur) =
      (.error (secondId locus n), cur') := h
    obtain ⟨hspans, rfl⟩ := Prod.mk.inj hrender
    exact ⟨rfl, u.trim, (Text.trim_isInfix u).trans hu, hspans⟩
  unfold inlineContent at h
  split at h
  · cases h
  · rename_i c t
    have hrest : t <:+: c :: t := (List.suffix_cons c t).isInfix
    split at h
    · exact absurd rfl ((failsOpen_inlineValue s.delimiters t).ne_secondId h locus n)
    · split at h
      · exact htext hrest h
      · split at h
        · rcases Scan.bind_eq_error_iff.1 h with h | ⟨written, cur₁, -, h⟩
          · exact htext hrest h
          · cases h
        · exact htext (List.infix_refl _) h

/-- Behind the attributes, a second id is only reported for markup embedded in the content. -/
theorem Element.finish_secondId {name attributes t : Text}
    (h : Element.finish s name attributes t cur = (.error (secondId locus n), cur')) :
    cur' = cur ∧ ∃ content, content <:+: t ∧
      renderSpans s.embedded cur.number content = .error (secondId locus n) := by
  rcases hcolon : Text.after? [':'] t with _ | rest
  · simp only [Element.finish, hcolon] at h
    rcases Scan.bind_eq_error_iff.1 h with h | ⟨content, cur₁, -, h⟩
    · exact inlineContent_secondId h
    · cases h
  · simp only [Element.finish, hcolon] at h
    cases h

/-- A missing closing parenthesis is not reported as a second id. -/
theorem closeParens_ne_secondId {t : Text} {e : Diagnostic}
    (h : closeParens parens t cur = (.error e, cur')) (locus : Text) (n : Nat) :
    e ≠ secondId locus n := by
  cases parens with
  | false => cases h
  | true =>
    rcases hclose : Text.after? [')'] t with _ | rest
    · simp only [closeParens, hclose] at h
      cases h
      exact unclosedParens_ne_secondId t locus cur.number n
    · simp only [closeParens, hclose] at h
      cases h

/-- A headline with an id is refused for a second one as soon as an attribute `id` is read that has
no question mark behind its value. It is refused for nothing else, unless all attributes are read
and the content holds markup that is refused for a second id of its own. -/
theorem Element.read_secondId (hd : s.delimiters = .mako ∨ s.delimiters = .django)
    (h : Element.shortcuts s.delimiters line cur = (.ok (id, classes, parens, tail), cur₁))
    (hid : id ≠ []) :
    (∀ attrs place, ReadsAttributes s.delimiters parens ⟨tail, cur₁⟩ attrs place →
      (∃ a ∈ attrs, a.1 = "id".toList ∧ a.2 ≠ .marked) →
      ∃ cur', Element.read s disguise line cur = (.error (secondId line cur'.number), cur')) ∧
    ∀ locus n cur', Element.read s disguise line cur = (.error (secondId locus n), cur') →
      (locus = line ∧ n = cur'.number ∧
        ∃ attrs place, ReadsAttributes s.delimiters parens ⟨tail, cur₁⟩ attrs place ∧
          ∃ a ∈ attrs, a.1 = "id".toList ∧ a.2 ≠ .marked) ∨
      ∃ list rest content,
        readAttributes s.delimiters parens line id
            ⟨(disguise.map Disguise.leading).toList, classes⟩ tail cur₁ = (.ok (list, rest), cur') ∧
        content <:+: rest ∧
          renderSpans s.embedded cur'.number content = .error (secondId locus n) := by
  rw [Element.read_of_shortcuts h]
  constructor
  · intro attrs place hreads ha
    obtain ⟨cur', hfault⟩ := hreads.exists_secondId hd ha hid _
    exact ⟨cur', Scan.bind_eq_error_iff.2 (.inl hfault)⟩
  · intro locus n cur' hfault
    rcases Scan.bind_eq_error_iff.1 hfault with hfault | ⟨⟨list, rest⟩, cur₂, hread, hbehind⟩
    · exact .inl (ReadsAttributes.of_secondId hd hfault)
    · rcases Scan.bind_eq_error_iff.1 hbehind with hfault | ⟨rest', cur₃, hclose, hfault⟩
      · exact absurd rfl (closeParens_ne_secondId hfault locus n)
      · obtain ⟨hsuffix, rfl⟩ := closeParens_suffix hclose
        obtain ⟨rfl, content, hcontent, hspans⟩ := Element.finish_secondId hfault
        exact .inr ⟨list, rest, content, hread, hcontent.trans hsuffix.isInfix, hspans⟩

end

/-- The second id may stand on a later line, in parentheses. -/
theorem Element.read_secondId_parens :
    ReadsAttributes .django true ⟨"x=\"1\"".toList, ⟨["  id=(b))\n".toList], 1⟩⟩
      [("x".toList, .quoted), ("id".toList, .dynamic)] ⟨")\n".toList, ⟨[], 2⟩⟩ ∧
    ∃ cur', Element.read ⟨.django, fun _ => none, .ok⟩ none "div#a.c (x=\"1\"".toList
        ⟨["  id=(b))\n".toList], 1⟩ =
      (.error (secondId "div#a.c (x=\"1\"".toList cur'.number), cur') := by
  have hx : AttributeStep .django true ⟨"x=\"1\"".toList, ⟨["  id=(b))\n".toList], 1⟩⟩
      (some ("x".toList, .quoted)) ⟨[], ⟨["  id=(b))\n".toList], 1⟩⟩ := by
    have hbreaks : followBreaks (Text.trimStart "x=\"1\"".toList) ⟨["  id=(b))\n".toList], 1⟩ =
        (false, "x=\"1\"".toList, ⟨["  id=(b))\n".toList], 1⟩) := by decide +kernel
    have hvalue : quotedValue? "\"1\"".toList = some (['1'], []) := by decide +kernel
    exact .named hbreaks (by decide +kernel) (by decide) (.quoted (by decide +kernel) hvalue)
  have hline : AttributeStep .django true ⟨[], ⟨["  id=(b))\n".toList], 1⟩⟩ none
      ⟨"  id=(b))\n".toList, ⟨[], 2⟩⟩ := by
    have hbreaks : followBreaks (Text.trimStart []) ⟨["  id=(b))\n".toList], 1⟩ =
        (false, [], ⟨["  id=(b))\n".toList], 1⟩) := by decide +kernel
    exact .line rfl hbreaks rfl
  have hid : AttributeStep .django true ⟨"  id=(b))\n".toList, ⟨[], 2⟩⟩
      (some ("id".toList, .dynamic)) ⟨")\n".toList, ⟨[], 2⟩⟩ := by
    have hbreaks : followBreaks (Text.trimStart "  id=(b))\n".toList) ⟨[], 2⟩ =
        (false, "id=(b))\n".toList, ⟨[], 2⟩) := by decide +kernel
    have hname : token? Delimiters.django.placeholder [] (nameStops true) "id=(b))\n".toList
        ⟨[], 2⟩ = (.ok (some ("id".toList, "=(b))\n".toList)), ⟨[], 2⟩) := by decide +kernel
    have hvalue : token? Delimiters.django.placeholder [] (valueStops true) "(b))\n".toList
        ⟨[], 2⟩ = (.ok (some ("(b)".toList, ")\n".toList)), ⟨[], 2⟩) := by decide +kernel
    exact .named hbreaks (by decide +kernel) (by decide)
      (.dynamic hname (by decide +kernel) (by decide +kernel) hvalue (by decide))
  have hshortcuts : Element.shortcuts .django "div#a.c (x=\"1\"".toList
      ⟨["  id=(b))\n".toList], 1⟩ =
        (.ok (['a'], [['c']], true, "x=\"1\"".toList), ⟨["  id=(b))\n".toList], 1⟩) := by
    decide +kernel
  have hreads := ReadsAttributes.cons hx (.cons hline (.cons hid (.nil _)))
  refine ⟨hreads, (Element.read_secondId (.inr rfl) hshortcuts ?_).1 _ _ hreads
    ⟨("id".toList, .dynamic), ?_, rfl, ?_⟩⟩
  · decide
  · decide
  · decide

/-- A value with a question mark behind it gives the headline two ids. -/
theorem Element.read_marked_id :
    ReadsAttributes .mako false ⟨"id=x?".toList, ⟨[], 1⟩⟩ [("id".toList, .marked)]
      ⟨[], ⟨[], 1⟩⟩ ∧
    (Profile.mako id).compile ⟨false, 64⟩ "div#a id=x?".toList =
      .ok "<div $\x7b(x) and 'id=\"id\"' or ''|n\x7d id=\"a\"></div>".toList := by
  constructor
  · have hbreaks : followBreaks (Text.trimStart "id=x?".toList) ⟨[], 1⟩ =
        (false, "id=x?".toList, ⟨[], 1⟩) := by decide +kernel
    have hname : token? Delimiters.mako.placeholder [] (nameStops false) "id=x?".toList ⟨[], 1⟩ =
        (.ok (some ("id".toList, "=x?".toList)), ⟨[], 1⟩) := by decide +kernel
    have hvalue : token? Delimiters.mako.placeholder [] (valueStops false) "x?".toList ⟨[], 1⟩ =
        (.ok (some (['x'], ['?'])), ⟨[], 1⟩) := by decide +kernel
    have hid : AttributeStep .mako false ⟨"id=x?".toList, ⟨[], 1⟩⟩ (some ("id".toList, .marked))
        ⟨[], ⟨[], 1⟩⟩ :=
      .named hbreaks (by decide +kernel) (by decide)
        (.marked hname (by decide +kernel) (by decide +kernel) hvalue)
    exact .cons hid (.nil _)
  · decide +kernel

end TerseMarkup
