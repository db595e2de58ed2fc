import TerseMarkup.Proofs.Layout

/-!
# Reading in another layout

A reader that is given the same lines in another layout comes to the same, up to the line ends in
what it leaves. `Outcome.Tracks` relates what two readers come to: both succeed with related
results, or both fail, and then with the same fault unless carriage returns are added. It is carried
through binds (`Scan.Tracks.bind`) and through loops (`Iterates.tracks`), so there is one lemma for
each reader, from groups and tokens over expressions and attributes to `Element.read_tracks`.

A continuation keeps its line end while it is read, and each reader drops the carriage return in a
way of its own: a group trims before it pulls, a token is trimmed at its end, and stops match line
feeds only (`atoms_lineEnd_tracks`, `Layout.Rests`).
-/

namespace TerseMarkup

variable {ℓ : Layout} {α β γ δ : Type}

/-! ## Cursors -/

/-- The cursor `cur'` has the lines of `cur` to come, in the layout. -/
structure Cursor.LaidOut (ℓ : Layout) (cur cur' : Cursor) : Prop where
  ahead : cur'.ahead = cur.ahead.map ℓ.line
  number : cur'.number = cur.number
  fit : ∀ raw ∈ cur.ahead, ℓ.Fit raw

/-- Corresponding cursors hand out corresponding lines, or both are at the end. -/
theorem Cursor.LaidOut.next? {cur cur' : Cursor} (h : cur.LaidOut ℓ cur') :
    (cur.next? = none ∧ cur'.next? = none) ∨
      ∃ raw cur₁ cur₁', cur.next? = some (raw, cur₁) ∧ cur'.next? = some (ℓ.line raw, cur₁') ∧
        ℓ.Fit raw ∧ cur₁.LaidOut ℓ cur₁' := by
  obtain ⟨ahead, n⟩ := cur
  obtain ⟨ahead', n'⟩ := cur'
  obtain ⟨hahead, hnumber, hfit⟩ := h
  cases ahead with
  | nil =>
    cases hahead
    exact .inl ⟨rfl, rfl⟩
  | cons raw ahead =>
    cases hahead
    cases hnumber
    refine .inr ⟨raw, _, _, rfl, rfl, hfit _ List.mem_cons_self, rfl, rfl, fun r hr => ?_⟩
    exact hfit r (List.mem_cons_of_mem _ hr)

/-! ## Outcomes -/

/-- Both outcomes are successes with related results, at cursors that correspond to each other; or
both are faults, and the same one unless carriage returns are added. -/
inductive Outcome.Tracks (ℓ : Layout) (V : α → β → Prop) : Outcome α → Outcome β → Prop where
  | ok {a : α} {b : β} {cur cur' : Cursor} (hv : V a b) (hcur : cur.LaidOut ℓ cur') :
      Outcome.Tracks ℓ V (.ok a, cur) (.ok b, cur')
  | error {e e' : Diagnostic} {cur cur' : Cursor} (he : ℓ.carriage = false → e' = e) :
      Outcome.Tracks ℓ V (.error e, cur) (.error e', cur')

namespace Outcome.Tracks

variable {V : α → β → Prop} {W : γ → δ → Prop} {r : Outcome α} {r' : Outcome β}

/-- The two ways in which outcomes correspond, with the outcomes spelled out. -/
theorem dest (h : Outcome.Tracks ℓ V r r') :
    (∃ a b cur cur', r = (.ok a, cur) ∧ r' = (.ok b, cur') ∧ V a b ∧ cur.LaidOut ℓ cur') ∨
      ∃ e e' cur cur', r = (.error e, cur) ∧ r' = (.error e', cur') ∧
        (ℓ.carriage = false → e' = e) := by
  cases h with
  | ok hv hcur => exact .inl ⟨_, _, _, _, rfl, rfl, hv, hcur⟩
  | error he => exact .inr ⟨_, _, _, _, rfl, rfl, he⟩

/-- A change of the result on success keeps two outcomes related, if it keeps results related. -/
theorem wrap {V : α → α → Prop} {W : β → β → Prop} {r r' : Outcome α} (h : Outcome.Tracks ℓ V r r')
    {f : Outcome α → Outcome β} {g : α → β} (hok : ∀ a cur, f (.ok a, cur) = (.ok (g a), cur))
    (herror : ∀ e cur, f (.error e, cur) = (.error e, cur)) (hg : ∀ a b, V a b → W (g a) (g b)) :
    Outcome.Tracks ℓ W (f r) (f r') := by
  cases h with
  | ok hab hcur =>
    rw [hok, hok]
    exact .ok (hg _ _ hab) hcur
  | error he =>
    rw [herror, herror]
    exact .error he

end Outcome.Tracks

namespace Scan

/-- The two scans come to related results over lines that correspond to each other. -/
def Tracks (ℓ : Layout) (V : α → β → Prop) (x : Scan α) (x' : Scan β) : Prop :=
  ∀ cur cur' : Cursor, cur.LaidOut ℓ cur' → Outcome.Tracks ℓ V (x cur) (x' cur')

variable {V : α → β → Prop} {W : γ → δ → Prop} {x : Scan α} {x' : Scan β}

/-- Handing back related values is the same in both layouts. -/
theorem tracks_pure {a : α} {b : β} (h : V a b) :
    Tracks ℓ V (pure a : Scan α) (pure b : Scan β) :=
  fun _ _ hcur => .ok h hcur

/-- Lines have the same numbers in both layouts. -/
theorem tracks_lineNumber : Tracks ℓ Eq lineNumber lineNumber :=
  fun _ _ hcur => .ok hcur.number.symm hcur

/-- A result that needs no reading is the same in both layouts. -/
theorem tracks_ofExcept (r : Except Diagnostic α) : Tracks ℓ Eq (ofExcept r) (ofExcept r) := by
  intro cur cur' hcur
  cases r with
  | ok a => exact .ok rfl hcur
  | error e => exact .error fun _ => rfl

/-- Faults correspond when they are the same one, or when carriage returns are added. -/
theorem tracks_fail {e e' : Diagnostic} (he : ℓ.carriage = false → e' = e) :
    Tracks ℓ V (fail e : Scan α) (fail e' : Scan β) :=
  fun _ _ _ => .error he

/-- Readers that correspond can be followed by readers that do, on related values. -/
theorem Tracks.bind {f : α → Scan γ} {f' : β → Scan δ} (hx : Tracks ℓ V x x')
    (hf : ∀ a b, V a b → Tracks ℓ W (f a) (f' b)) : Tracks ℓ W (x >>= f) (x' >>= f') := by
  intro cur cur' hcur
  rw [bind_apply, bind_apply]
  obtain ⟨a, b, cur₁, cur₁', h, h', hv, hcur₁⟩ | ⟨e, e', cur₁, cur₁', h, h', he⟩ :=
    (hx cur cur' hcur).dest
  · simp only [h, h']
    exact hf a b hv cur₁ cur₁' hcur₁
  · simp only [h, h']
    exact .error he

end Scan

/-! ## Loops -/

/-- The two passes end with related outcomes, or go on in the same state at related places. -/
inductive Pass.Tracks {σ : Type} (ℓ : Layout) (V : α → β → Prop) (R : Place → Place → Prop) :
    Pass σ (Outcome α) → Pass σ (Outcome β) → Prop where
  | done {r : Outcome α} {r' : Outcome β} (h : Outcome.Tracks ℓ V r r') :
      Pass.Tracks ℓ V R (.done r) (.done r')
  | again {state : σ} {place place' : Place} {wrap : Outcome α → Outcome α}
      {wrap' : Outcome β → Outcome β} (hplace : R place place')
      (hwrap : ∀ r r', Outcome.Tracks ℓ V r r' → Outcome.Tracks ℓ V (wrap r) (wrap' r')) :
      Pass.Tracks ℓ V R (.again state place wrap) (.again state place' wrap')

/-- Two loops come to related outcomes if their passes do. A pass need not be looked at where the
outcomes of the loops are known to be related. -/
theorem Iterates.tracks {σ : Type} {body : σ → Place → Pass σ (Outcome α)}
    {body' : σ → Place → Pass σ (Outcome β)} {loop : σ → Place → Outcome α}
    {loop' : σ → Place → Outcome β} {V : α → β → Prop} {R : Place → Place → Prop}
    (hi : Iterates body loop) (ha : Advances body) (hi' : Iterates body' loop')
    (hbody : ∀ state place place', R place place' →
      Pass.Tracks ℓ V R (body state place) (body' state place') ∨
        Outcome.Tracks ℓ V (loop state place) (loop' state place'))
    (state : σ) (place place' : Place) (h : R place place') :
    Outcome.Tracks ℓ V (loop state place) (loop' state place') := by
  refine hi.induction ha (Q := fun state place r => ∀ place', R place place' →
    Outcome.Tracks ℓ V r (loop' state place')) ?_ ?_ state place place' h
  · intro state place r hr place' hplace
    rcases hbody state place place' hplace with hpass | hloop
    · rw [hr] at hpass
      rw [hi']
      generalize body' state place' = pass' at hpass
      cases hpass with
      | done h => exact h
    · rw [hi, hr] at hloop
      exact hloop
  · intro state place state₁ place₁ wrap hr ih place' hplace
    rcases hbody state place place' hplace with hpass | hloop
    · rw [hr] at hpass
      rw [hi']
      generalize body' state place' = pass' at hpass
      cases hpass with
      | again hplace₁ hwrap => exact hwrap _ _ (ih _ hplace₁)
    · rw [hi, hr] at hloop
      exact hloop

/-! ## Groups -/

/-- The second place is where the first one is, in the layout. -/
structure Place.LaidOut (ℓ : Layout) (place place' : Place) : Prop where
  text : ℓ.Matches place.text place'.text
  cursor : place.cursor.LaidOut ℓ place'.cursor

/-- The same piece has been cut off, and what follows it matches. -/
def Layout.Pieces (ℓ : Layout) (found found' : α × Text) : Prop :=
  found'.1 = found.1 ∧ ℓ.Matches found.2 found'.2

namespace Nesting

variable {n : Nesting}

/-- A pass through a group does the same in both layouts. It trims a line before it pulls the next
one, so the carriage return is gone by then. -/
theorem closePass_tracks (hn : n.FitFor ℓ) (state : Nat × Text) {place place' : Place}
    (h : place.LaidOut ℓ place') :
    Pass.Tracks ℓ ℓ.Pieces (Place.LaidOut ℓ) (n.closePass state place)
      (n.closePass state place') := by
  obtain ⟨t, cur⟩ := place
  obtain ⟨t', cur'⟩ := place'
  obtain ⟨htext, hcur⟩ := h
  simp only at htext hcur
  unfold closePass
  simp only
  obtain ⟨hm, hm'⟩ | ⟨turn, m, r, r', hm, hm', hr⟩ := htext.mark? hn
  · simp only [hm, hm', htext.atLineEnd_eq]
    split
    · obtain ⟨hnext, hnext'⟩ | ⟨raw, cur₁, cur₁', hnext, hnext', hfit, hcur₁⟩ := hcur.next?
      · simp only [hnext, hnext', hcur.number]
        exact .done (.error fun _ => rfl)
      · simp only [hnext, hnext']
        exact .again ⟨Layout.matches_line hfit, hcur₁⟩ fun _ _ h => h
    · rename_i hend
      obtain ⟨hq, hq'⟩ | ⟨q, r, r', hq, hq', hr⟩ := htext.quoted?
      · simp only [hq, hq']
        cases t with
        | nil => exact absurd rfl hend
        | cons c r =>
          obtain ⟨r', rfl, hr⟩ := htext.exists_cons (by simpa using hend)
          exact .again ⟨hr, hcur⟩ fun _ _ h => h
      · simp only [hq, hq']
        exact .again ⟨hr, hcur⟩ fun _ _ h => h
  · simp only [hm, hm']
    cases turn with
    | deeper => exact .again ⟨hr, hcur⟩ fun _ _ h => h
    | back =>
      simp only
      split
      · exact .done (.ok ⟨rfl, hr⟩ hcur)
      · exact .again ⟨hr, hcur⟩ fun _ _ h => h

/-- A group is closed by the same mark in both layouts. -/
theorem close_tracks (hn : n.FitFor ℓ) (depth : Nat) (read : Text) {t t' : Text}
    (ht : ℓ.Matches t t') :
    Scan.Tracks ℓ ℓ.Pieces (n.close depth read t) (n.close depth read t') :=
  fun cur cur' hcur => n.closePass_iterates.tracks n.closePass_advances n.closePass_iterates
    (fun state _ _ h => .inl (closePass_tracks hn state h)) (depth, read) ⟨t, cur⟩ ⟨t', cur'⟩
    ⟨ht, hcur⟩

/-- The group at the front of a text is the same in both layouts. -/
theorem group?_tracks (hn : n.FitFor ℓ) {t t' : Text} (ht : ℓ.Matches t t') :
    Scan.Tracks ℓ (Option.Rel ℓ.Pieces) (n.group? t) (n.group? t') := by
  intro cur cur' hcur
  unfold group?
  obtain ⟨ho, ho'⟩ | ⟨start, depth, r, r', ho, ho', hr⟩ := ht.opening? hn
  · simp only [ho, ho']
    exact .ok .none hcur
  · simp only [ho, ho']
    obtain ⟨found, found', cur₁, cur₁', h, h', hv, hcur₁⟩ | ⟨e, e', cur₁, cur₁', h, h', he⟩ :=
      (close_tracks hn depth start hr cur cur' hcur).dest
    · simp only [h, h']
      exact .ok (.some hv) hcur₁
    · simp only [h, h']
      exact .error he

end Nesting

/-- So is a group of a nesting that may be missing. -/
theorem groupOf?_tracks {n : Option Nesting} (hn : ∀ m ∈ n, m.FitFor ℓ) {t t' : Text}
    (ht : ℓ.Matches t t') :
    Scan.Tracks ℓ (Option.Rel ℓ.Pieces) (groupOf? n t) (groupOf? n t') := by
  cases n with
  | none => exact fun _ _ hcur => .ok .none hcur
  | some n => exact Nesting.group?_tracks (hn n rfl) ht

/-- Brackets have no line ends in them. -/
theorem Nesting.fitFor_brackets : Nesting.brackets.FitFor ℓ :=
  fun _ => trivial

/-! ## Tokens -/

/-- An atom is the same in both layouts, since the first character is. -/
theorem atom_tracks {n : Option Nesting} (hn : ∀ m ∈ n, m.FitFor ℓ) {c : Char} {t t' : Text}
    (ht : ℓ.Matches (c :: t) (c :: t')) :
    Scan.Tracks ℓ ℓ.Pieces (atom n c t) (atom n c t') := by
  intro cur cur' hcur
  unfold atom
  obtain ⟨found, found', cur₁, cur₁', h, h', hv, hcur₁⟩ | ⟨e, e', cur₁, cur₁', h, h', he⟩ :=
    (groupOf?_tracks hn ht cur cur' hcur).dest
  · simp only [h, h']
    cases hv with
    | some hv => exact .ok hv hcur₁
    | none =>
      obtain ⟨hq, hq'⟩ | ⟨q, r, r', hq, hq', hr⟩ := ht.quoted?
      · simp only [hq, hq']
        obtain ⟨found, found', cur₂, cur₂', hb, hb', hv, hcur₂⟩ |
            ⟨e, e', cur₂, cur₂', hb, hb', he⟩ :=
          (Nesting.group?_tracks Nesting.fitFor_brackets ht cur₁ cur₁' hcur₁).dest
        · simp only [hb, hb']
          cases hv with
          | some hv => exact .ok hv hcur₂
          | none => exact .ok ⟨rfl, ht.tail⟩ hcur₂
        · simp only [hb, hb']
          exact .error he
      · simp only [hq, hq']
        exact .ok ⟨rfl, hr⟩ hcur₁
  · simp only [h, h']
    exact .error he

/-- Where a token ends: at a line feed, or at a sequence that has no character of a line end. -/
def Text.IsStop (w : Text) : Prop :=
  w = ['\n'] ∨ w ≠ [] ∧ w.Inner

instance Text.decidableIsStop (w : Text) : Decidable w.IsStop :=
  inferInstanceAs (Decidable (w = ['\n'] ∨ w ≠ [] ∧ w.Inner))

/-- Texts that match end tokens alike, unless one of them starts with the line end. -/
theorem Layout.Matches.any_isPrefixOf_eq {t t' : Text} (h : ℓ.Matches t t')
    (hhead : t'.head? = t.head?) {stops : List Text} (hstops : ∀ w ∈ stops, w.IsStop) :
    stops.any (·.isPrefixOf t') = stops.any (·.isPrefixOf t) := by
  cases h with
  | same => rfl
  | @ended x hcarriage hx =>
    cases x with
    | nil => cases hhead
    | cons c x =>
      have hc := hx.inner c List.mem_cons_self
      rw [Bool.eq_iff_iff, List.any_eq_true, List.any_eq_true]
      refine exists_congr fun w => and_congr_right fun hw => ?_
      rcases hstops w hw with rfl | ⟨-, hinner⟩
      · simp [List.isPrefixOf, Ne.symm hc.1]
      · rw [Text.isPrefixOf_append_lineEnd hinner Text.isLineEnd_feed,
          Text.isPrefixOf_append_lineEnd hinner Text.isLineEnd_return]

/-- What follows a token matches, and does not start with a line end that differs. It is nothing, or
it starts with what ends the token. -/
structure Layout.Rests (ℓ : Layout) (stops : List Text) (rest rest' : Text) : Prop where
  text : ℓ.Matches rest rest'
  head : rest'.head? = rest.head?
  stop : rest = [] ∨ stops.any (·.isPrefixOf rest) = true

/-- The same token has been read, up to blanks at its end. -/
structure Layout.Tokens (ℓ : Layout) (stops : List Text) (found found' : Text × Text) : Prop where
  read : ∀ lead, Text.trimEnd (lead ++ found'.1) = Text.trimEnd (lead ++ found.1)
  rest : ℓ.Rests stops found.2 found'.2

/-- A piece in front of corresponding tokens keeps them so. -/
theorem Layout.Tokens.prepend {stops : List Text} {found found' : Text × Text}
    (h : ℓ.Tokens stops found found') (a : Text) :
    ℓ.Tokens stops (a ++ found.1, found.2) (a ++ found'.1, found'.2) := by
  refine ⟨fun lead => ?_, h.rest⟩
  rw [← List.append_assoc, ← List.append_assoc]
  exact h.read (lead ++ a)

/-- A character of a line end is an atom. -/
theorem atom_lineEnd {n : Option Nesting} (hn : ∀ m ∈ n, m.Inner) {c : Char}
    (hc : c = '\n' ∨ c = '\r') (t : Text) (cur : Cursor) :
    atom n c t cur = (.ok ([c], t), cur) := by
  have hopening (m : Nesting) (hm : m.Inner) : m.opening? (c :: t) = none := by
    cases m with
    | brackets => rcases hc with rfl | rfl <;> rfl
    | placeholder start stop =>
      cases start with
      | nil => rfl
      | cons a start =>
        have ha := hm.1 a List.mem_cons_self
        rcases hc with rfl | rfl
        · simp [Nesting.opening?, Text.after?, ha.1]
        · simp [Nesting.opening?, Text.after?, ha.2]
  have hgroup (m : Nesting) (hm : m.Inner) : m.group? (c :: t) cur = (.ok none, cur) := by
    simp only [Nesting.group?, hopening m hm]
  have hgroupOf : groupOf? n (c :: t) cur = (.ok none, cur) := by
    cases n with
    | none => rfl
    | some m => exact hgroup m (hn m rfl)
  have hquoted : Text.quoted? (c :: t) = none := by
    rcases hc with rfl | rfl <;> rfl
  simp only [atom, hgroupOf, hquoted, hgroup .brackets trivial]

/-- A pass through a token does the same in both layouts, as long as the text does not start with a
line end that differs. -/
theorem atomsPass_tracks {n : Nesting} (hn : n.FitFor ℓ) {stops : List Text}
    (hstops : ∀ w ∈ stops, w.IsStop) {place place' : Place} (h : place.LaidOut ℓ place')
    (hhead : place'.text.head? = place.text.head?) :
    Pass.Tracks ℓ (ℓ.Tokens stops) (Place.LaidOut ℓ) (atomsPass n stops () place)
      (atomsPass n stops () place') := by
  obtain ⟨t, cur⟩ := place
  obtain ⟨t', cur'⟩ := place'
  obtain ⟨htext, hcur⟩ := h
  simp only at htext hcur hhead
  unfold atomsPass
  cases t with
  | nil =>
    rw [htext.eq_nil_iff.2 rfl]
    exact .done (.ok ⟨fun _ => rfl, .same [], rfl, .inl rfl⟩ hcur)
  | cons c t =>
    cases t' with
    | nil => cases hhead
    | cons c' t' =>
      cases hhead
      simp only [htext.any_isPrefixOf_eq rfl hstops]
      split
      · rename_i hstop
        exact .done (.ok ⟨fun _ => rfl, htext, rfl, .inr hstop⟩ hcur)
      · obtain ⟨⟨a, r⟩, ⟨a', r'⟩, cur₁, cur₁', ha, ha', ⟨rfl, hr⟩, hcur₁⟩ |
            ⟨e, e', cur₁, cur₁', ha, ha', he⟩ :=
          (atom_tracks (n := some n) (by rintro m ⟨⟩; exact hn) htext cur cur' hcur).dest
        · simp only [ha, ha']
          refine .again ⟨hr, hcur₁⟩ fun r r' h => ?_
          exact h.wrap (g := fun found => (a' ++ found.1, found.2)) (fun _ _ => rfl)
            (fun _ _ => rfl) fun _ _ h => h.prepend a'
        · simp only [ha, ha']
          exact .done (.error he)

/-- A line feed and a carriage return in front of it come to the same token. -/
theorem atoms_lineEnd_tracks {n : Nesting} (hn : n.Inner) {stops : List Text}
    (hstops : ∀ w ∈ stops, w.IsStop) {cur cur' : Cursor} (hcur : cur.LaidOut ℓ cur') :
    Outcome.Tracks ℓ (ℓ.Tokens stops) (atoms n stops ['\n'] cur)
      (atoms n stops ['\r', '\n'] cur') := by
  have hinner : ∀ m ∈ some n, m.Inner := by
    rintro m ⟨⟩
    exact hn
  have hreturn : stops.any (·.isPrefixOf ['\r', '\n']) = false := by
    rw [List.any_eq_false]
    intro w hw
    rcases hstops w hw with rfl | ⟨hne, hw⟩
    · decide
    · cases w with
      | nil => exact absurd rfl hne
      | cons a w => simp [List.isPrefixOf, (hw a List.mem_cons_self).2]
  obtain ⟨found, hfound, hblank, hstop⟩ :
      ∃ found, (∀ cur, atoms n stops ['\n'] cur = (.ok found, cur)) ∧
        (∀ c ∈ found.1, isBlank c = true) ∧
        (found.2 = [] ∨ stops.any (·.isPrefixOf found.2) = true) := by
    by_cases hstop : stops.any (·.isPrefixOf ['\n']) = true
    · refine ⟨([], ['\n']), fun cur => ?_, by simp, .inr hstop⟩
      exact atoms_of_stop cur hstop
    · refine ⟨(['\n'], []), fun cur => ?_, Text.forall_mem_of_all (by decide), .inl rfl⟩
      rw [atoms_of_atom (Bool.eq_false_iff.2 hstop) (atom_lineEnd hinner (.inl rfl) [] cur),
        atoms_nil]
      rfl
  have hboth : atoms n stops ['\r', '\n'] cur' = (.ok ('\r' :: found.1, found.2), cur') := by
    rw [atoms_of_atom hreturn (atom_lineEnd hinner (.inr rfl) ['\n'] cur'), hfound]
    rfl
  rw [hfound, hboth]
  refine .ok ⟨fun lead => ?_, .same _, rfl, hstop⟩ hcur
  have hall : ∀ c ∈ '\r' :: found.1, isBlank c = true := by
    simp only [List.forall_mem_cons]
    exact ⟨by decide, hblank⟩
  rw [Text.trimEnd_append_blank _ hall, Text.trimEnd_append_blank _ hblank]

/-- The atoms up to a stop are the same in both layouts, up to blanks at their end. -/
theorem atoms_tracks {n : Nesting} (hn : n.FitFor ℓ) {stops : List Text}
    (hstops : ∀ w ∈ stops, w.IsStop) {t t' : Text} (ht : ℓ.Matches t t') :
    Scan.Tracks ℓ (ℓ.Tokens stops) (atoms n stops t) (atoms n stops t') := by
  intro cur cur' hcur
  refine (atomsPass_iterates n stops).tracks (atomsPass_advances n stops)
    (atomsPass_iterates n stops) (R := Place.LaidOut ℓ) (fun _ place place' h => ?_) () ⟨t, cur⟩
    ⟨t', cur'⟩ ⟨ht, hcur⟩
  rcases h.text.head?_eq_or with hhead | ⟨hcarriage, heq, heq'⟩
  · exact .inl (atomsPass_tracks hn hstops h hhead)
  · -- here the carriage return makes one pass more
    rw [heq, heq']
    exact .inr (atoms_lineEnd_tracks (hn hcarriage) hstops h.cursor)

/-- A token is the same in both layouts: it is trimmed at its end, where the carriage return is. -/
theorem token?_tracks {n : Nesting} (hn : n.FitFor ℓ) (lead : Text) (hlead : lead.Inner)
    {stops : List Text} (hstops : ∀ w ∈ stops, w.IsStop) {t t' : Text} (ht : ℓ.Matches t t') :
    Scan.Tracks ℓ
      (Option.Rel fun found found' => found'.1 = found.1 ∧ ℓ.Rests stops found.2 found'.2)
      (token? n lead stops t) (token? n lead stops t') := by
  intro cur cur' hcur
  unfold token?
  rw [ht.isEmpty_eq]
  split
  · exact .ok .none hcur
  · obtain ⟨h, h'⟩ | ⟨r, r', h, h', hr⟩ := ht.after? lead hlead
    · simp only [h, h']
      exact .ok .none hcur
    · simp only [h, h']
      obtain ⟨found, found', cur₁, cur₁', ha, ha', hv, hcur₁⟩ |
          ⟨e, e', cur₁, cur₁', ha, ha', he⟩ := (atoms_tracks hn hstops hr cur cur' hcur).dest
      · simp only [ha, ha']
        exact .ok (.some ⟨hv.read lead, hv.rest⟩) hcur₁
      · simp only [ha, ha']
        exact .error he

/-! ## Expressions -/

/-- Continuations are followed alike. The lines that take the place of a continuation start with the
same character. -/
theorem followBreaks_laidOut {t t' : Text} (ht : ℓ.Matches t t') {cur cur' : Cursor}
    (hcur : cur.LaidOut ℓ cur') :
    ∃ found u u' cur₁ cur₁', followBreaks t cur = (found, u, cur₁) ∧
      followBreaks t' cur' = (found, u', cur₁') ∧ ℓ.Matches u u' ∧
      (t'.head? = t.head? → u'.head? = u.head?) ∧ cur₁.LaidOut ℓ cur₁' := by
  obtain ⟨ahead, n⟩ := cur
  obtain ⟨ahead', n'⟩ := cur'
  obtain ⟨hahead, hnumber, hfit⟩ := hcur
  cases hahead
  cases hnumber
  unfold followBreaks
  induction ahead generalizing t t' n with
  | nil =>
    simp only [List.map_nil, followBreaksOver, ht.isBreak_eq]
    split
    · exact ⟨_, _, _, _, _, rfl, rfl, .same [], fun _ => rfl, rfl, rfl, hfit⟩
    · exact ⟨_, _, _, _, _, rfl, rfl, ht, id, rfl, rfl, hfit⟩
  | cons raw ahead ih =>
    simp only [List.map_cons, followBreaksOver, ht.isBreak_eq]
    split
    · have hraw := Layout.matches_line (hfit raw List.mem_cons_self)
      obtain ⟨found, u, u', cur₁, cur₁', h, h', hu, hhead, hcur₁⟩ :=
        ih hraw (n + 1) fun r hr => hfit r (List.mem_cons_of_mem _ hr)
      simp only at h h'
      rw [h, h']
      refine ⟨true, u, u', cur₁, cur₁', rfl, rfl, hu, fun _ => hhead ?_, hcur₁⟩
      exact hraw.head?_eq (Text.trimStart_ne_lineFeed raw)
    · exact ⟨_, _, _, _, _, rfl, rfl, ht, id, rfl, rfl, hfit⟩

/-- The two texts are the same up to blanks at their ends, whatever is put in front of them. -/
def Text.SameTrimmed (t t' : Text) : Prop :=
  ∀ lead : Text, Text.trim (lead ++ t') = Text.trim (lead ++ t)

/-- A pass through an expression does the same in both layouts, as long as the text does not start
with a line end that differs. -/
theorem expressionPass_tracks {place place' : Place} (h : place.LaidOut ℓ place')
    (hhead : place'.text.head? = place.text.head?) :
    Pass.Tracks ℓ Text.SameTrimmed (Place.LaidOut ℓ) (expressionPass () place)
      (expressionPass () place') := by
  obtain ⟨t, cur⟩ := place
  obtain ⟨t', cur'⟩ := place'
  obtain ⟨htext, hcur⟩ := h
  simp only at htext hcur hhead
  unfold expressionPass
  simp only [htext.isEmpty_eq]
  split
  · exact .done (.ok (fun _ => rfl) hcur)
  · obtain ⟨found, u, u', cur₁, cur₁', hb, hb', hu, hhead₁, hcur₁⟩ :=
      followBreaks_laidOut htext hcur
    have hhead₁ := hhead₁ hhead
    simp only [hb, hb']
    cases u with
    | nil =>
      rw [hu.eq_nil_iff.2 rfl]
      exact .done (.ok (fun _ => rfl) hcur₁)
    | cons c u =>
      cases u' with
      | nil => cases hhead₁
      | cons c' u' =>
        cases hhead₁
        obtain ⟨⟨a, r⟩, ⟨a', r'⟩, cur₂, cur₂', ha, ha', ⟨rfl, hr⟩, hcur₂⟩ |
            ⟨e, e', cur₂, cur₂', ha, ha', he⟩ :=
          (atom_tracks (n := none) (by simp) hu cur₁ cur₁' hcur₁).dest
        · simp only [ha, ha']
          refine .again ⟨hr, hcur₂⟩ fun r r' h => ?_
          refine h.wrap (g := fun more => breakText found ++ a' ++ more) (fun _ _ => rfl)
            (fun _ _ => rfl) fun more more' hsame lead => ?_
          simpa only [List.append_assoc] using hsame (lead ++ (breakText found ++ a'))
        · simp only [ha, ha']
          exact .done (.error he)

/-- A line end reads as itself at the end of an expression. -/
theorem expressionAtoms_lineEnd {e : Text} (he : e.IsLineEnd) (cur : Cursor) :
    expressionAtoms e cur = (.ok e, cur) := by
  have hone (c : Char) (t : Text) (hc : c = '\n' ∨ c = '\r') :
      expressionAtoms (c :: t) cur = prependPiece false [c] (expressionAtoms t cur) := by
    have hbreak : isBreak (c :: t) = false := by rcases hc with rfl | rfl <;> rfl
    exact expressionAtoms_of_atom rfl (followBreaks_of_not_isBreak hbreak cur)
      (atom_lineEnd (n := none) (by simp) hc t cur)
  rcases he with rfl | rfl
  · rw [hone _ _ (.inl rfl), expressionAtoms_nil]
    rfl
  · rw [hone _ _ (.inr rfl), hone _ _ (.inl rfl), expressionAtoms_nil]
    rfl

/-- An expression is the same in both layouts, up to blanks at its end. -/
theorem expressionAtoms_tracks {t t' : Text} (ht : ℓ.Matches t t') :
    Scan.Tracks ℓ Text.SameTrimmed (expressionAtoms t) (expressionAtoms t') := by
  intro cur cur' hcur
  refine expressionPass_iterates.tracks expressionPass_advances expressionPass_iterates
    (R := Place.LaidOut ℓ) (fun _ place place' h => ?_) () ⟨t, cur⟩ ⟨t', cur'⟩ ⟨ht, hcur⟩
  rcases h.text.head?_eq_or with hhead | ⟨-, heq, heq'⟩
  · exact .inl (expressionPass_tracks h hhead)
  · rw [heq, heq', expressionAtoms_lineEnd Text.isLineEnd_feed,
      expressionAtoms_lineEnd Text.isLineEnd_return]
    refine .inr (.ok (fun lead => ?_) h.cursor)
    rw [Text.trim_append_blank _ Text.isLineEnd_return.isBlank,
      Text.trim_append_blank _ Text.isLineEnd_feed.isBlank]

/-- An expression depends on the text it starts with up to its outer blanks only. -/
theorem expression_tracks {t t' : Text} (ht : t'.trim = t.trim) :
    Scan.Tracks ℓ Eq (expression t) (expression t') := by
  intro cur cur' hcur
  unfold expression
  rw [ht]
  obtain ⟨read, read', cur₁, cur₁', h, h', hv, hcur₁⟩ | ⟨e, e', cur₁, cur₁', h, h', he⟩ :=
    (expressionAtoms_tracks (.same (t.trim ++ ['\n'])) cur cur' hcur).dest
  · simp only [h, h']
    exact .ok (hv []).symm hcur₁
  · simp only [h, h']
    exact .error he

/-! ## Attributes -/

/-- A string literal does not reach into the line end. -/
theorem quotedValue?_append_lineEnd {e : Text} (he : e.IsLineEnd) (x : Text) :
    quotedValue? (x ++ e) = (quotedValue? x).map fun found => (found.1, found.2 ++ e) := by
  unfold quotedValue?
  rw [Text.quoteMark?_append_lineEnd he, Text.quoted?_append_lineEnd he]
  cases Text.quoteMark? x with
  | none => rfl
  | some mark => cases Text.quoted? x <;> rfl

/-- The front of a text up to the first character that fails a test stays the same when a line end
is added, if the test fails for it. -/
theorem span_append_lineEnd {e : Text} (he : e.IsLineEnd) {p : Char → Bool} (hfeed : p '\n' = false)
    (hreturn : p '\r' = false) (x : Text) :
    (x ++ e).takeWhile p = x.takeWhile p ∧ (x ++ e).dropWhile p = x.dropWhile p ++ e := by
  induction x with
  | nil => rcases he with rfl | rfl <;> simp [hfeed, hreturn]
  | cons c x ih =>
    rw [List.cons_append, List.takeWhile_cons, List.takeWhile_cons, List.dropWhile_cons,
      List.dropWhile_cons]
    split
    · exact ⟨congrArg _ ih.1, ih.2⟩
    · exact ⟨rfl, rfl⟩

/-- A number does not reach into the line end. -/
theorem numericValue?_append_lineEnd {e : Text} (he : e.IsLineEnd) (x : Text) :
    numericValue? (x ++ e) = (numericValue? x).map fun found => (found.1, found.2 ++ e) := by
  have hsign : splitSign (x ++ e) = ((splitSign x).1, (splitSign x).2 ++ e) := by
    cases x with
    | nil => rcases he with rfl | rfl <;> rfl
    | cons c x =>
      simp only [List.cons_append, splitSign]
      split <;> rfl
  have hdigits := span_append_lineEnd he (p := isDigit) rfl rfl
  unfold numericValue?
  rw [hsign]
  simp only [hdigits]
  cases (splitSign x).2.dropWhile isDigit with
  | nil =>
    have hne : e.head? ≠ some '.' ∧ e.head? ≠ some '%' := by
      rcases he with rfl | rfl <;> decide
    simp only [List.nil_append, hne, List.head?_nil, reduceCtorEq, false_and, if_false]
    split <;> rfl
  | cons c rest =>
    simp only [List.cons_append, List.head?_cons, List.drop_succ_cons, List.drop_zero, hdigits]
    split
    · rfl
    · split
      · rfl
      · split <;> rfl

namespace Layout.Matches

variable {t t' : Text}

/-- A quoted value is the same in both layouts. -/
theorem quotedValue? (h : ℓ.Matches t t') :
    (TerseMarkup.quotedValue? t = none ∧ TerseMarkup.quotedValue? t' = none) ∨
      ∃ v r r', TerseMarkup.quotedValue? t = some (v, r) ∧
        TerseMarkup.quotedValue? t' = some (v, r') ∧ ℓ.Matches r r' :=
  h.cut (f := TerseMarkup.quotedValue?) (fun (v, r) => ⟨v, r, rfl⟩) (fun _ _ _ => rfl)
    (fun _ x _ he => quotedValue?_append_lineEnd he x) fun _ _ _ hr => suffix_of_quotedValue? hr

/-- A numeric value is the same in both layouts. -/
theorem numericValue? (h : ℓ.Matches t t') :
    (TerseMarkup.numericValue? t = none ∧ TerseMarkup.numericValue? t' = none) ∨
      ∃ v r r', TerseMarkup.numericValue? t = some (v, r) ∧
        TerseMarkup.numericValue? t' = some (v, r') ∧ ℓ.Matches r r' :=
  h.cut (f := TerseMarkup.numericValue?) (fun (v, r) => ⟨v, r, rfl⟩) (fun _ _ _ => rfl)
    (fun _ x _ he => numericValue?_append_lineEnd he x) fun _ _ _ hr => suffix_of_numericValue? hr

/-- A value loses the same wrapper in both layouts, since only the first characters of the text
count. -/
theorem unwrapValue_eq {d : Delimiters} (hd : d.placeholder.FitFor ℓ) (h : ℓ.Matches t t')
    (token : Text) : unwrapValue d t' token = unwrapValue d t token := by
  cases h with
  | same => rfl
  | @ended x hcarriage hx =>
    have hhead (c : Char) (hc : c = '\n' ∨ c = '\r') (u : Text) :
        (x ++ c :: u).head? = some '(' ↔ x.head? = some '(' := by
      cases x with
      | nil => rcases hc with rfl | rfl <;> simp
      | cons b x => rfl
    unfold unwrapValue
    rw [Text.isPrefixOf_append_lineEnd (hd hcarriage).1 Text.isLineEnd_feed,
      Text.isPrefixOf_append_lineEnd (hd hcarriage).1 Text.isLineEnd_return]
    simp only [hhead '\n' (.inl rfl), hhead '\r' (.inr rfl)]

end Layout.Matches

section

variable {d : Delimiters} (hd : d.placeholder.FitFor ℓ) {t t' : Text} (ht : ℓ.Matches t t')

/-- The ends of names are line feeds or have no line ends in them. -/
theorem isStop_nameStops (parens : Bool) : ∀ w ∈ nameStops parens, w.IsStop := by
  cases parens <;> decide

/-- So are the ends of dynamic values. -/
theorem isStop_valueStops (parens : Bool) : ∀ w ∈ valueStops parens, w.IsStop := by
  cases parens <;> decide

/-- So are the ends of mappings. -/
theorem isStop_splatStops (parens : Bool) : ∀ w ∈ splatStops parens, w.IsStop := by
  cases parens <;> decide

include hd ht

/-- A mapping is expanded to the same in both layouts. -/
theorem splat?_tracks (parens : Bool) :
    Scan.Tracks ℓ (Option.Rel ℓ.Pieces) (splat? d parens t) (splat? d parens t') := by
  intro cur cur' hcur
  unfold splat?
  obtain ⟨h, h'⟩ | ⟨r, r', h, h', hr⟩ := ht.after? "**".toList (by decide)
  · simp only [h, h']
    exact .ok .none hcur
  · simp only [h, h']
    obtain ⟨found, found', cur₁, cur₁', hk, hk', hv, hcur₁⟩ | ⟨e, e', cur₁, cur₁', hk, hk', he⟩ :=
      (token?_tracks hd [] (by decide) (isStop_splatStops parens) hr cur cur' hcur).dest
    · simp only [hk, hk']
      cases hv with
      | none => exact .ok .none hcur₁
      | some hv =>
        simp only [hv.1]
        split
        · exact .ok .none hcur₁
        · exact .ok (.some ⟨rfl, hv.2.text⟩) hcur₁
    · simp only [hk, hk']
      exact .error he

/-- An attribute has the same value in both layouts. -/
theorem assignment?_tracks (parens : Bool) (name : Text) :
    Scan.Tracks ℓ (Option.Rel ℓ.Pieces) (assignment? d parens name t)
      (assignment? d parens name t') := by
  intro cur cur' hcur
  unfold assignment?
  obtain ⟨hq, hq'⟩ | ⟨v, r, r', hq, hq', hr⟩ := ht.quotedValue?
  · simp only [hq, hq']
    obtain ⟨hm, hm'⟩ | ⟨v, r, r', hm, hm', hr⟩ := ht.numericValue?
    · simp only [hm, hm']
      obtain ⟨found, found', cur₁, cur₁', hk, hk', hv, hcur₁⟩ |
          ⟨e, e', cur₁, cur₁', hk, hk', he⟩ :=
        (token?_tracks hd [] (by decide) (isStop_valueStops parens) ht cur cur'
          hcur).dest
      · simp only [hk, hk']
        cases hv with
        | none => exact .ok .none hcur₁
        | some hv =>
          obtain ⟨htoken, hrest⟩ := hv
          simp only [htoken, ht.unwrapValue_eq hd]
          obtain ⟨h, h'⟩ | ⟨r, r', h, h', hr⟩ := hrest.text.after? ['?'] (by decide)
          · simp only [h, h']
            exact .ok (.some ⟨rfl, hrest.text⟩) hcur₁
          · simp only [h, h']
            exact .ok (.some ⟨rfl, hr⟩) hcur₁
      · simp only [hk, hk']
        exact .error he
    · simp only [hm, hm']
      exact .ok (.some ⟨rfl, hr⟩) hcur
  · simp only [hq, hq']
    exact .ok (.some ⟨rfl, hr⟩) hcur

/-- An attribute is the same in both layouts. -/
theorem attribute?_tracks (parens : Bool) :
    Scan.Tracks ℓ (Option.Rel ℓ.Pieces) (attribute? d parens t) (attribute? d parens t') := by
  intro cur cur' hcur
  unfold attribute?
  obtain ⟨found, found', cur₁, cur₁', hk, hk', hv, hcur₁⟩ | ⟨e, e', cur₁, cur₁', hk, hk', he⟩ :=
    (token?_tracks hd [] (by decide) (isStop_nameStops parens) ht cur cur' hcur).dest
  · simp only [hk, hk']
    cases hv with
    | none => exact .ok .none hcur₁
    | @some found found' hv =>
      obtain ⟨name, r⟩ := found
      obtain ⟨name', r'⟩ := found'
      obtain ⟨hname, hrest, hhead, -⟩ := hv
      simp only at hname hrest hhead
      subst hname
      simp only
      split
      · exact .ok .none hcur₁
      · obtain ⟨h, h'⟩ | ⟨r, r', h, h', hr⟩ := hrest.after? ['='] (by decide)
        · have hswitch : isSwitch parens r' = isSwitch parens r := by
            cases r <;> cases r' <;> simp_all [isSwitch]
          simp only [h, h', hswitch]
          split
          · exact .ok (.some ⟨rfl, hrest⟩) hcur₁
          · exact .ok .none hcur₁
        · simp only [h, h']
          exact assignment?_tracks hd hr parens name' cur₁ cur₁' hcur₁
  · simp only [hk, hk']
    exact .error he

end

/-- The place of the attributes: what counts is the text without the blanks in front of it. -/
def Place.TrimmedLaidOut (ℓ : Layout) (place place' : Place) : Prop :=
  ℓ.Matches place.text.trimStart place'.text.trimStart ∧ place.cursor.LaidOut ℓ place'.cursor

/-- A pass through the attributes does the same in both layouts, once the blanks in front are
off. -/
theorem attributePass_tracks {d : Delimiters} (hd : d.placeholder.FitFor ℓ) (parens : Bool)
    (line idText : Text) (list : AttributeList) {place place' : Place}
    (h : place.TrimmedLaidOut ℓ place') :
    Pass.Tracks ℓ ℓ.Pieces (Place.TrimmedLaidOut ℓ) (attributePass d parens line idText list place)
      (attributePass d parens line idText list place') := by
  unfold attributePass
  obtain ⟨found, t, t', cur₁, cur₁', hb, hb', ht, -, hcur₁⟩ := followBreaks_laidOut h.1 h.2
  simp only [hb, hb']
  obtain ⟨found, found', cur₂, cur₂', hs, hs', hv, hcur₂⟩ | ⟨e, e', cur₂, cur₂', hs, hs', he⟩ :=
    (splat?_tracks hd ht parens cur₁ cur₁' hcur₁).dest
  · simp only [hs, hs']
    cases hv with
    | @some found found' hv =>
      obtain ⟨text, r⟩ := found
      obtain ⟨text', r'⟩ := found'
      obtain ⟨htext, hr⟩ := hv
      cases htext
      exact .again ⟨hr.trimStart, hcur₂⟩ fun _ _ h => h
    | none =>
      obtain ⟨found, found', cur₃, cur₃', ha, ha', hv, hcur₃⟩ |
          ⟨e, e', cur₃, cur₃', ha, ha', he⟩ :=
        (attribute?_tracks hd ht parens cur₂ cur₂' hcur₂).dest
      · simp only [ha, ha']
        cases hv with
        | @some found found' hv =>
          obtain ⟨pair, r⟩ := found
          obtain ⟨pair', r'⟩ := found'
          obtain ⟨hpair, hr⟩ := hv
          cases hpair
          simp only
          split
          · exact .done (.error fun _ => by rw [hcur₃.number])
          · exact .again ⟨hr.trimStart, hcur₃⟩ fun _ _ h => h
        | none =>
          simp only [ht.eq_nil_iff]
          split
          · obtain ⟨hnext, hnext'⟩ | ⟨raw, cur₄, cur₄', hnext, hnext', hfit, hcur₄⟩ := hcur₃.next?
            · simp only [hnext, hnext']
              exact .done (.error fun _ => by rw [hcur₃.number])
            · simp only [hnext, hnext']
              exact .again ⟨Layout.matches_line hfit, hcur₄⟩ fun _ _ h => h
          · exact .done (.ok ⟨rfl, ht⟩ hcur₃)
      · simp only [ha, ha']
        exact .done (.error he)
  · simp only [hs, hs']
    exact .done (.error he)

/-- The attributes of a headline are the same in both layouts. -/
theorem readAttributes_tracks {d : Delimiters} (hd : d.placeholder.FitFor ℓ) (parens : Bool)
    (line idText : Text) (list : AttributeList) {t t' : Text} (ht : ℓ.Matches t t') :
    Scan.Tracks ℓ ℓ.Pieces (readAttributes d parens line idText list t)
      (readAttributes d parens line idText list t') :=
  fun cur cur' hcur => (attributePass_iterates d parens line idText).tracks
    (attributePass_advances d parens line idText) (attributePass_iterates d parens line idText)
    (fun list _ _ h => .inl (attributePass_tracks hd parens line idText list h)) list ⟨t, cur⟩
    ⟨t', cur'⟩ ⟨ht.trimStart, hcur⟩

/-! ## Elements -/

/-- The ends of ids and classes have no line ends in them. -/
theorem isStop_shortcutStops : ∀ w ∈ shortcutStops, w.IsStop := by
  decide

/-- The id behind its mark is the same in both layouts. -/
theorem idShortcut_tracks {d : Delimiters} (hd : d.placeholder.FitFor ℓ) {t t' : Text}
    (ht : ℓ.Matches t t') : Scan.Tracks ℓ ℓ.Pieces (idShortcut d t) (idShortcut d t') := by
  refine (token?_tracks hd ['#'] (by decide) isStop_shortcutStops ht).bind fun found found' h => ?_
  cases h with
  | none => exact Scan.tracks_pure ⟨rfl, ht⟩
  | some h => exact Scan.tracks_pure ⟨by rw [h.1], h.2.text⟩

/-- A pass through the classes does the same in both layouts. -/
theorem classPass_tracks {d : Delimiters} (hd : d.placeholder.FitFor ℓ) {place place' : Place}
    (h : place.LaidOut ℓ place') :
    Pass.Tracks ℓ ℓ.Pieces (Place.LaidOut ℓ) (classPass d () place) (classPass d () place') := by
  unfold classPass
  obtain ⟨found, found', cur, cur', hk, hk', hv, hcur⟩ | ⟨e, e', cur, cur', hk, hk', he⟩ :=
    (token?_tracks hd ['.'] (by decide) isStop_shortcutStops h.text _ _ h.cursor).dest
  · simp only [hk, hk']
    cases hv with
    | none => exact .done (.ok ⟨rfl, h.text⟩ hcur)
    | @some found found' hv =>
      obtain ⟨name, r⟩ := found
      obtain ⟨name', r'⟩ := found'
      obtain ⟨hname, hr⟩ := hv
      cases hname
      refine .again ⟨hr.text, hcur⟩ fun r r' h => ?_
      exact h.wrap (g := fun found => (Text.trimEnd (name.drop 1) :: found.1, found.2))
        (fun _ _ => rfl) (fun _ _ => rfl) fun _ _ h => ⟨congrArg (List.cons _) h.1, h.2⟩
  · simp only [hk, hk']
    exact .done (.error he)

/-- The classes behind their dots are the same in both layouts. -/
theorem classShortcuts_tracks {d : Delimiters} (hd : d.placeholder.FitFor ℓ) {t t' : Text}
    (ht : ℓ.Matches t t') : Scan.Tracks ℓ ℓ.Pieces (classShortcuts d t) (classShortcuts d t') :=
  fun cur cur' hcur => (classPass_iterates d).tracks (classPass_advances d) (classPass_iterates d)
    (fun _ _ _ h => .inl (classPass_tracks hd h)) () ⟨t, cur⟩ ⟨t', cur'⟩ ⟨ht, hcur⟩

/-- An optional mark is there in both layouts or in neither. -/
theorem exists_optionalMark {t t' : Text} (ht : ℓ.Matches t t') (mark : Char)
    (hmark : Text.Inner [mark]) :
    ∃ found r r', optionalMark mark t = (found, r) ∧ optionalMark mark t' = (found, r') ∧
      ℓ.Matches r r' := by
  unfold optionalMark
  obtain ⟨h, h'⟩ | ⟨r, r', h, h', hr⟩ := ht.after? [mark] hmark
  · simp only [h, h']
    exact ⟨false, t, t', rfl, rfl, ht⟩
  · simp only [h, h']
    exact ⟨true, r, r', rfl, rfl, hr⟩

/-- The same text is rendered to the same in both layouts. -/
theorem renderText_tracks (s : Setting) (t : Text) :
    Scan.Tracks ℓ Eq (renderText s t) (renderText s t) := by
  refine Scan.tracks_lineNumber.bind fun n n' hn => ?_
  rw [hn]
  exact Scan.tracks_ofExcept _

/-- A value on the line is the same in both layouts. -/
theorem inlineValue_tracks (d : Delimiters) {t t' : Text} (ht : ℓ.Matches t t') :
    Scan.Tracks ℓ Eq (inlineValue d t) (inlineValue d t') := by
  obtain ⟨unescaped, t₁, t₁', h₁, h₁', ht₁⟩ := exists_optionalMark ht '=' (by decide)
  obtain ⟨spaced, t₂, t₂', h₂, h₂', ht₂⟩ := exists_optionalMark ht₁ ',' (by decide)
  simp only [inlineValue, h₁, h₁', h₂, h₂']
  refine (expression_tracks ht₂.trim_eq).bind fun expr expr' h => ?_
  cases h
  exact Scan.tracks_pure rfl

/-- The content of a headline is the same in both layouts, because it is trimmed. -/
theorem inlineContent_tracks (s : Setting) {t t' : Text} (ht : ℓ.Matches t t') :
    Scan.Tracks ℓ Eq (inlineContent s t) (inlineContent s t') := by
  rcases ht.head?_eq_or with hhead | ⟨-, rfl, rfl⟩
  · cases t with
    | nil =>
      rw [ht.eq_nil_iff.2 rfl]
      exact Scan.tracks_pure rfl
    | cons c r =>
      cases t' with
      | nil => cases hhead
      | cons c' r' =>
        cases hhead
        simp only [inlineContent]
        split
        · exact inlineValue_tracks s.delimiters ht.tail
        · split
          · rw [ht.tail.trim_eq]
            exact renderText_tracks s _
          · split
            · rw [ht.tail.trim_eq]
              refine (renderText_tracks s _).bind fun text text' h => ?_
              cases h
              exact Scan.tracks_pure rfl
            · rw [ht.trim_eq]
              exact renderText_tracks s _
  · exact renderText_tracks s []

/-- Continuations lead to matching texts in both layouts. -/
theorem continued_tracks {t t' : Text} (ht : ℓ.Matches t t') :
    Scan.Tracks ℓ ℓ.Matches (continued t) (continued t') := by
  intro cur cur' hcur
  obtain ⟨found, u, u', cur₁, cur₁', h, h', hu, -, hcur₁⟩ := followBreaks_laidOut ht hcur
  unfold continued
  rw [h, h']
  exact .ok hu hcur₁

/-- The attributes are closed in both layouts or in neither. -/
theorem closeParens_tracks (parens : Bool) {t t' : Text} (ht : ℓ.Matches t t') :
    Scan.Tracks ℓ ℓ.Matches (closeParens parens t) (closeParens parens t') := by
  unfold closeParens
  split
  · obtain ⟨h, h'⟩ | ⟨r, r', h, h', hr⟩ := ht.after? [')'] (by decide)
    · simp only [h, h']
      refine Scan.tracks_lineNumber.bind fun n n' hn => Scan.tracks_fail fun hcarriage => ?_
      rw [hn, ht.eq hcarriage]
    · simp only [h, h']
      exact Scan.tracks_pure hr.trimStart
  · exact Scan.tracks_pure ht

/-- The same element, with matching headlines behind its colon. -/
structure Element.LaidOut (ℓ : Layout) (e e' : Element) : Prop where
  opened : e'.opened = e.opened
  closed : e'.closed = e.closed
  name : e'.name = e.name
  attributes : e'.attributes = e.attributes
  content : e'.content = e.content
  rest : ℓ.Heads e.rest e'.rest

/-- The rest of the headline of an element makes the same element in both layouts. -/
theorem Element.finish_tracks (s : Setting) (name attributes : Text) {t t' : Text}
    (ht : ℓ.Matches t t') :
    Scan.Tracks ℓ (Element.LaidOut ℓ) (Element.finish s name attributes t)
      (Element.finish s name attributes t') := by
  unfold Element.finish
  obtain ⟨h, h'⟩ | ⟨r, r', h, h', hr⟩ := ht.after? [':'] (by decide)
  · simp only [h, h']
    refine (inlineContent_tracks s ht).bind fun content content' hcontent => ?_
    cases hcontent
    exact Scan.tracks_pure ⟨rfl, rfl, rfl, rfl, rfl, .same []⟩
  · simp only [h, h']
    rw [Text.after?_eq_some_iff.1 h, Text.after?_eq_some_iff.1 h'] at ht
    exact Scan.tracks_pure ⟨rfl, rfl, rfl, rfl, rfl, ht.heads_of_colon⟩

/-- The headline of an element is read to the same element in both layouts. -/
theorem Element.read_tracks {s : Setting} (hd : s.delimiters.placeholder.FitFor ℓ)
    (disguise : Option Disguise) (line : Text) :
    Scan.Tracks ℓ (Element.LaidOut ℓ) (Element.read s disguise line)
      (Element.read s disguise line) := by
  unfold Element.read
  refine (idShortcut_tracks hd (.same _)).bind fun found₁ found₁' h₁ => ?_
  obtain ⟨idText, t₁⟩ := found₁
  obtain ⟨idText', t₁'⟩ := found₁'
  obtain ⟨hid, ht₁⟩ := h₁
  cases hid
  refine (classShortcuts_tracks hd ht₁).bind fun found₂ found₂' h₂ => ?_
  obtain ⟨classes, t₂⟩ := found₂
  obtain ⟨classes', t₂'⟩ := found₂'
  obtain ⟨hclasses, ht₂⟩ := h₂
  cases hclasses
  refine (continued_tracks ht₂.trimStart).bind fun t₃ t₃' ht₃ => ?_
  obtain ⟨parens, t₄, t₄', h₄, h₄', ht₄⟩ := exists_optionalMark ht₃ '(' (by decide)
  simp only [h₄, h₄']
  refine (readAttributes_tracks hd parens line idText _ ht₄).bind fun found₅ found₅' h₅ => ?_
  obtain ⟨list, t₅⟩ := found₅
  obtain ⟨list', t₅'⟩ := found₅'
  obtain ⟨hlist, ht₅⟩ := h₅
  cases hlist
  refine (closeParens_tracks parens ht₅).bind fun t₆ t₆' ht₆ => ?_
  exact Element.finish_tracks s _ _ ht₆

end TerseMarkup
