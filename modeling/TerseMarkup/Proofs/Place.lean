import TerseMarkup.Scan

/-!
# Places of a reading

A reading stands at a place: a text at hand and the lines still to come. It goes on by dropping
characters off the front of the text, or by pulling a line and going on with that.

* `Cursor.Pulled cur lines cur'` says that exactly `lines` were handed out between two cursors, and
  `Cursor.Reaches` that some lines were.
* `Place.Leads` says that a reading can come from one place to another: the text at hand is the
  end of the text that was at hand, or of a line that was pulled.
* `Place.Before` is the order in which readings make progress: fewer lines to come, or as many and
  less text at hand. It is well-founded (`Place.wellFounded_before`).
* `Scan.Forward` says that a scan never moves the cursor back, whatever its outcome.
-/

namespace TerseMarkup

/-! ## Lines handed out -/

namespace Cursor

/-- Between `cur` and `cur'` exactly `lines` were handed out. -/
structure Pulled (cur : Cursor) (lines : List Text) (cur' : Cursor) : Prop where
  /-- The lines come off the front of what was to come. -/
  ahead : cur.ahead = lines ++ cur'.ahead
  /-- Each of them is counted. -/
  number : cur'.number = cur.number + lines.length

/-- The cursor has moved forward or not at all. -/
def Reaches (cur cur' : Cursor) : Prop :=
  ∃ lines, cur.Pulled lines cur'

variable {cur cur' cur'' : Cursor}

/-- Nothing is pulled by staying where one is. -/
theorem Pulled.refl (cur : Cursor) : cur.Pulled [] cur :=
  ⟨rfl, rfl⟩

/-- Lines can be pulled in two goes. -/
theorem Pulled.trans {lines lines' : List Text} (h : cur.Pulled lines cur')
    (h' : cur'.Pulled lines' cur'') : cur.Pulled (lines ++ lines') cur'' := by
  constructor
  · rw [h.ahead, h'.ahead, List.append_assoc]
  · rw [h'.number, h.number, List.length_append, Nat.add_assoc]

/-- A single pull. -/
theorem pulled_of_next? {raw : Text} (h : cur.next? = some (raw, cur')) :
    cur.Pulled [raw] cur' := by
  obtain ⟨ahead, n⟩ := cur
  cases ahead with
  | nil => simp at h
  | cons r rest =>
    simp only [next?_cons, Option.some.injEq, Prod.mk.injEq] at h
    obtain ⟨rfl, rfl⟩ := h
    exact ⟨rfl, rfl⟩

/-- Where nothing was pulled, the cursor has not moved. -/
theorem Pulled.eq_of_nil (h : cur.Pulled [] cur') : cur' = cur := by
  obtain ⟨ahead, number⟩ := cur
  obtain ⟨ahead', number'⟩ := cur'
  obtain rfl : ahead = ahead' := h.ahead
  obtain rfl : number' = number := h.number
  rfl

/-- The first of the lines is pulled before the others. -/
theorem Pulled.exists_next? {raw : Text} {lines : List Text}
    (h : cur.Pulled (raw :: lines) cur') :
    ∃ cur₁, cur.next? = some (raw, cur₁) ∧ cur₁.Pulled lines cur' := by
  obtain ⟨ahead, number⟩ := cur
  obtain ⟨hahead, hnumber⟩ := h
  obtain rfl : ahead = raw :: (lines ++ cur'.ahead) := hahead
  refine ⟨⟨lines ++ cur'.ahead, number + 1⟩, rfl, rfl, ?_⟩
  rw [hnumber, List.length_cons, Nat.add_comm lines.length, Nat.add_assoc]

/-- Lines can be pulled in two parts. -/
theorem Pulled.mem_ahead {lines : List Text} (h : cur.Pulled lines cur') {raw : Text}
    (hr : raw ∈ lines) : raw ∈ cur.ahead := by
  rw [h.ahead]
  exact List.mem_append_left _ hr

/-- There is a cursor between two goes. -/
theorem Pulled.exists_append {lines lines' : List Text} (h : cur.Pulled (lines ++ lines') cur') :
    ∃ cur₁, cur.Pulled lines cur₁ ∧ cur₁.Pulled lines' cur' := by
  refine ⟨⟨lines' ++ cur'.ahead, cur.number + lines.length⟩, ⟨?_, rfl⟩, ⟨rfl, ?_⟩⟩
  · rw [h.ahead, List.append_assoc]
  · rw [h.number, List.length_append, Nat.add_assoc]

/-- Lines that come next can be pulled. -/
theorem exists_pulled {lines : List Text} (h : lines <+: cur.ahead) :
    ∃ cur', cur.Pulled lines cur' := by
  obtain ⟨ahead, hahead⟩ := h
  exact ⟨⟨ahead, cur.number + lines.length⟩, hahead.symm, rfl⟩

/-- There is no next line exactly at the end. -/
theorem next?_eq_none_iff : cur.next? = none ↔ cur.ahead = [] := by
  obtain ⟨ahead, n⟩ := cur
  cases ahead <;> simp

theorem Reaches.refl (cur : Cursor) : cur.Reaches cur :=
  ⟨[], .refl cur⟩

/-- A cursor that moves forward twice has moved forward. -/
theorem Reaches.trans (h : cur.Reaches cur') (h' : cur'.Reaches cur'') : cur.Reaches cur'' := by
  obtain ⟨lines, hl⟩ := h
  obtain ⟨lines', hl'⟩ := h'
  exact ⟨lines ++ lines', hl.trans hl'⟩

/-- Handing out a line moves the cursor forward. -/
theorem reaches_of_next? {raw : Text} (h : cur.next? = some (raw, cur')) : cur.Reaches cur' :=
  ⟨[raw], pulled_of_next? h⟩

/-- The lines to come stay among the lines that were to come. -/
theorem Reaches.mem_ahead (h : cur.Reaches cur') {raw : Text} (hr : raw ∈ cur'.ahead) :
    raw ∈ cur.ahead := by
  obtain ⟨lines, hl⟩ := h
  rw [hl.ahead]
  exact List.mem_append_right _ hr

/-- A cursor that moves forward has fewer lines to come, or as many. -/
theorem Reaches.length_ahead_le (h : cur.Reaches cur') :
    cur'.ahead.length ≤ cur.ahead.length := by
  obtain ⟨lines, hl⟩ := h
  rw [hl.ahead, List.length_append]
  omega

/-- A cursor that has as many lines to come as it had has not moved. -/
theorem Reaches.eq_of_length_ahead (h : cur.Reaches cur')
    (hlen : cur'.ahead.length = cur.ahead.length) : cur' = cur := by
  obtain ⟨lines, hl⟩ := h
  have hahead := hl.ahead
  have hnumber := hl.number
  have hnil : lines = [] := by
    have := congrArg List.length hahead
    rw [List.length_append] at this
    exact List.length_eq_zero_iff.1 (by omega)
  subst hnil
  obtain ⟨ahead, n⟩ := cur
  obtain ⟨ahead', n'⟩ := cur'
  simp only [List.nil_append] at hahead
  simp only [List.length_nil, Nat.add_zero] at hnumber
  rw [hahead, hnumber]

/-- The size of lines is that of both parts, however they are counted. -/
theorem size_append (lines rest : List Text) (n m k : Nat) :
    size ⟨lines ++ rest, n⟩ = size ⟨lines, m⟩ + size ⟨rest, k⟩ := by
  induction lines with
  | nil => exact (Nat.zero_add _).symm
  | cons raw lines ih =>
    rw [List.cons_append, size_cons _ _ n n, size_cons _ _ m m, ih]
    omega

/-- What is left to read shrinks by every line handed out. -/
theorem Pulled.size_eq {lines : List Text} (h : cur.Pulled lines cur') :
    cur.size = size ⟨lines, 0⟩ + cur'.size := by
  obtain ⟨ahead, n⟩ := cur
  obtain ⟨hahead, -⟩ := h
  cases hahead
  exact size_append lines cur'.ahead n 0 cur'.number

/-- A cursor that moves forward has no more characters to come. -/
theorem Reaches.size_le (h : cur.Reaches cur') : cur'.size ≤ cur.size := by
  obtain ⟨lines, hl⟩ := h
  rw [hl.size_eq]
  omega

end Cursor

/-! ## Places -/

/-- Where a reading stands. -/
structure Place where
  /-- The text at hand. -/
  text : Text
  /-- The lines still to come. -/
  cursor : Cursor
  deriving DecidableEq, Repr

namespace Place

/-- A reading can come from `a` to `b`: it has pulled lines, and the text at hand is the end of
the text that was at hand or of a line pulled since. -/
def Leads (a b : Place) : Prop :=
  ∃ lines, a.cursor.Pulled lines b.cursor ∧
    (b.text <:+ a.text ∨ ∃ raw ∈ lines, b.text <:+ raw)

/-- There are fewer lines to come at `b` than at `a`, or as many and less text at hand. -/
def Before (b a : Place) : Prop :=
  Prod.Lex (· < ·) (· < ·) (b.cursor.ahead.length, b.text.length)
    (a.cursor.ahead.length, a.text.length)

variable {a b c : Place}

theorem Leads.refl (a : Place) : a.Leads a :=
  ⟨[], .refl _, .inl (List.suffix_refl _)⟩

/-- A reading can come further in two goes. -/
theorem Leads.trans (h : a.Leads b) (h' : b.Leads c) : a.Leads c := by
  obtain ⟨lines, hl, ht⟩ := h
  obtain ⟨lines', hl', ht'⟩ := h'
  refine ⟨lines ++ lines', hl.trans hl', ?_⟩
  rcases ht' with ht' | ⟨raw, hr, hs⟩
  · rcases ht with ht | ⟨raw, hr, hs⟩
    · exact .inl (ht'.trans ht)
    · exact .inr ⟨raw, List.mem_append_left _ hr, ht'.trans hs⟩
  · exact .inr ⟨raw, List.mem_append_right _ hr, hs⟩

/-- The cursor of a reading never moves back. -/
theorem Leads.reaches (h : a.Leads b) : a.cursor.Reaches b.cursor := by
  obtain ⟨lines, hl, -⟩ := h
  exact ⟨lines, hl⟩

/-- Dropping characters off the front. -/
theorem leads_of_suffix {t t' : Text} (cur : Cursor) (h : t' <:+ t) :
    Leads ⟨t, cur⟩ ⟨t', cur⟩ :=
  ⟨[], .refl _, .inl h⟩

/-- Pulling a line and going on with the end of it. -/
theorem leads_of_next? {cur cur' : Cursor} {raw : Text} (t : Text) {t' : Text}
    (h : cur.next? = some (raw, cur')) (hs : t' <:+ raw) : Leads ⟨t, cur⟩ ⟨t', cur'⟩ :=
  ⟨[raw], Cursor.pulled_of_next? h, .inr ⟨raw, List.mem_singleton_self raw, hs⟩⟩

/-- Lines may be pulled without the text at hand being given up. -/
theorem leads_of_reaches {cur cur' : Cursor} (t : Text) (h : cur.Reaches cur') :
    Leads ⟨t, cur⟩ ⟨t, cur'⟩ := by
  obtain ⟨lines, hl⟩ := h
  exact ⟨lines, hl, .inl (List.suffix_refl t)⟩

/-- A reading never has more to read than before. -/
theorem Leads.size_le (h : a.Leads b) :
    b.cursor.size + b.text.length ≤ a.cursor.size + a.text.length := by
  obtain ⟨lines, hl, ht⟩ := h
  rw [hl.size_eq]
  rcases ht with ht | ⟨raw, hr, hs⟩
  · have := ht.length_le
    omega
  · obtain ⟨before, after, rfl⟩ := List.append_of_mem hr
    rw [Cursor.size_append before (raw :: after) 0 0 0, Cursor.size_cons raw after 0 0]
    have := hs.length_le
    omega

/-- What holds of the text at hand and of all lines to come, and of the ends of whatever it holds
of, holds all along a reading. -/
theorem Leads.carries {P : Text → Prop} (h : a.Leads b)
    (hend : ∀ {t t' : Text}, t' <:+ t → P t → P t') (ht : P a.text)
    (hl : ∀ raw ∈ a.cursor.ahead, P raw) : P b.text := by
  obtain ⟨lines, hp, ht' | ⟨raw, hr, hs⟩⟩ := h
  · exact hend ht' ht
  · refine hend hs (hl raw ?_)
    rw [hp.ahead]
    exact List.mem_append_left _ hr

/-- Progress, by the lines to come and by the text at hand. -/
theorem before_iff : b.Before a ↔ b.cursor.ahead.length < a.cursor.ahead.length ∨
    b.cursor.ahead.length = a.cursor.ahead.length ∧ b.text.length < a.text.length := by
  unfold Before
  rw [Prod.lex_def]

/-- Progress cannot go on for ever. -/
theorem wellFounded_before : WellFounded Before :=
  InvImage.wf (fun a : Place => (a.cursor.ahead.length, a.text.length))
    (Prod.lex Nat.lt_wfRel Nat.lt_wfRel).wf

/-- Progress in two goes is progress. -/
theorem Before.trans (h : c.Before b) (h' : b.Before a) : c.Before a := by
  rw [before_iff] at *
  omega

/-- A reading that leaves less to read has made progress. If no line was pulled, it is the text at
hand that has become shorter. -/
theorem before_of_size_lt (hr : a.cursor.Reaches b.cursor)
    (h : b.cursor.size + b.text.length < a.cursor.size + a.text.length) : b.Before a := by
  rw [before_iff]
  rcases Nat.lt_or_eq_of_le hr.length_ahead_le with hlt | heq
  · exact .inl hlt
  · rw [hr.eq_of_length_ahead heq] at h
    exact .inr ⟨heq, by omega⟩

/-- A pull makes progress, whatever the text at hand is afterwards. -/
theorem before_of_next? {cur cur' : Cursor} {raw : Text} (t t' : Text)
    (h : cur.next? = some (raw, cur')) : Before ⟨t', cur'⟩ ⟨t, cur⟩ := by
  rw [before_iff]
  left
  have hlen : cur.ahead.length = 1 + cur'.ahead.length := by
    rw [(Cursor.pulled_of_next? h).ahead, List.length_append, List.length_singleton]
  show cur'.ahead.length < cur.ahead.length
  omega

end Place

/-! ## Scans -/

namespace Scan

variable {α β : Type}

/-- A scan of two steps succeeds if both do, one after the other. -/
theorem bind_eq_ok_iff {x : Scan α} {f : α → Scan β} {cur cur'' : Cursor} {b : β} :
    (x >>= f) cur = (.ok b, cur'') ↔
      ∃ a cur', x cur = (.ok a, cur') ∧ f a cur' = (.ok b, cur'') := by
  rw [bind_apply]
  constructor
  · intro h
    split at h
    · rename_i a cur' hx
      exact ⟨a, cur', hx, h⟩
    · simp at h
  · rintro ⟨a, cur', hx, hf⟩
    rw [hx]
    exact hf

/-- Two scans in a row fail if the first one does, or else the second one. -/
theorem bind_eq_error_iff {x : Scan α} {f : α → Scan β} {cur cur' : Cursor} {e : Diagnostic} :
    (x >>= f) cur = (.error e, cur') ↔
      x cur = (.error e, cur') ∨ ∃ a cur₁, x cur = (.ok a, cur₁) ∧ f a cur₁ = (.error e, cur') := by
  rw [bind_apply]
  rcases x cur with ⟨d | a, cur₁⟩
  · simp
  · constructor
    · intro h
      exact .inr ⟨a, cur₁, rfl, h⟩
    · rintro (h | ⟨b, cur₂, h, hfault⟩)
      · cases h
      · cases h
        exact hfault

/-- A result that needs no reading is a value only if it is one, and then the cursor stays. -/
theorem ofExcept_eq_ok_iff {r : Except Diagnostic α} {a : α} {cur cur' : Cursor} :
    ofExcept r cur = (.ok a, cur') ↔ r = .ok a ∧ cur = cur' := by
  unfold ofExcept
  rw [Prod.mk.injEq]

/-- A scan that never moves the cursor back. -/
def Forward (x : Scan α) : Prop :=
  ∀ cur : Cursor, cur.Reaches (x cur).2

theorem forward_pure (a : α) : Forward (pure a : Scan α) :=
  fun cur => .refl cur

theorem forward_fail (e : Diagnostic) : Forward (fail e : Scan α) :=
  fun cur => .refl cur

theorem forward_lineNumber : Forward lineNumber :=
  fun cur => .refl cur

theorem forward_ofExcept (r : Except Diagnostic α) : Forward (ofExcept r) :=
  fun cur => .refl cur

/-- Two scans in a row move forward if each of them does. -/
theorem Forward.bind {x : Scan α} {f : α → Scan β} (hx : Forward x) (hf : ∀ a, Forward (f a)) :
    Forward (x >>= f) := by
  intro cur
  rw [bind_apply]
  have h := hx cur
  split
  · rename_i a cur' heq
    rw [heq] at h
    exact h.trans (hf a cur')
  · rename_i e cur' heq
    rw [heq] at h
    exact h

/-- The cursor after a successful scan. -/
theorem Forward.reaches {x : Scan α} (hx : Forward x) {cur cur' : Cursor}
    {r : Except Diagnostic α} (h : x cur = (r, cur')) : cur.Reaches cur' := by
  have := hx cur
  rwa [h] at this

end Scan

end TerseMarkup
