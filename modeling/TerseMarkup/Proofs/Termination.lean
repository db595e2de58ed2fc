import TerseMarkup.Compile
import TerseMarkup.Proofs.Moves

/-!
# Compilation comes to an end

`Profile.Terminates` collects what the end of a compilation rests on: moves up to a stop, lines that
are looked up ever further on, embedded markup down to the limit, and loops of which every pass
makes progress. `Profile.terminates` shows it of every profile whose table is part of the standard
one, whatever its delimiters are.

Progress is `Place.Before`: fewer lines to come, or as many and less text at hand. There is no
infinite chain of it (`Place.wellFounded_before`).
-/

namespace TerseMarkup

/-! ## Lines looked up -/

namespace Outline

variable {p : Profile} {s : Setting} {o o' next : Outline} {w w' : Text}

/-- Everything that happens after a line has been looked up is further on. -/
theorem before_of_announced (hp : p.IsStandard) (ho : o.announced = true)
    (h : Steps p.recognise s o w next) (hm : Moves p.recognise s next w' o') :
    o'.place.Before o.place := by
  have hnext : next.place.Before o.place := by
    cases h with
    | look hfound hopen => exact (readsOn_of_look hp hfound hopen).before
    | announce h => cases ho
    | handOn h => cases ho
    | finish hpull hbody hnext => cases ho
    | pull hpull hbody hnext => cases ho
    | clause hbody hnext hread => cases ho
  rcases hm.progress hp with hbefore | ⟨hplace, -⟩
  · exact hbefore.trans hnext
  · rw [hplace]
    exact hnext

/-- An outline that has moved and has no less pending than before is further on. -/
theorem before_of_pending_le (hp : p.IsStandard) (h : Steps p.recognise s o w next)
    (hm : Moves p.recognise s next w' o') (hle : o.pending ≤ o'.pending) :
    o'.place.Before o.place := by
  have hlater := hm.progress hp
  rcases h.progress hp with hreads | ⟨hplace, hpending⟩
  · rcases hlater with hbefore | ⟨hplace, -⟩
    · exact hbefore.trans hreads.before
    · rw [hplace]
      exact hreads.before
  · rw [hplace] at hlater
    rcases hlater with hbefore | ⟨-, hlt | rfl⟩
    · exact hbefore
    · omega
    · omega

end Outline

/-! ## Embedded markup -/

/-- Markup that stands in a text at some depth is compiled one level deeper, if the limit allows,
and is a fault otherwise. -/
theorem Profile.compileEmbedded_at_depth (p : Profile) (limit depth : Nat) (text : Text) :
    p.compileEmbedded limit (limit - depth) text =
      if depth + 1 ≤ limit then p.compileWith (p.compileEmbedded limit (limit - (depth + 1))) text
      else .error (.tooDeep limit) := by
  split
  · rename_i hle
    have hsucc : limit - depth = limit - (depth + 1) + 1 := by omega
    rw [hsucc]
    rfl
  · rename_i hgt
    have hzero : limit - depth = 0 := by omega
    rw [hzero]
    rfl

/-! ## All together -/

/-- Compilations with the profile come to an end. -/
structure Profile.Terminates (p : Profile) : Prop where
  /-- A compilation consists of finitely many moves and gives what they write, or the fault at which
  they stop. -/
  compile : ∀ (options : Options) (source : Text), ∃ written last result cur,
    Outline.Moves p.recognise (p.setting (p.compileEmbedded options.depth options.depth))
      (.ofDocument source) written last ∧
    last.step p.recognise (p.setting (p.compileEmbedded options.depth options.depth)) =
      .stop result cur ∧
    p.compile options source =
      result.map fun _ => if options.strip then written.trim else written
  /-- So does a compilation of embedded markup, whatever compiles the markup embedded in it. -/
  compileWith : ∀ (embedded : Text → Except Diagnostic Text) (text : Text),
    ∃ written last result cur,
      Outline.Moves p.recognise (p.setting embedded) (.ofDocument text) written last ∧
      last.step p.recognise (p.setting embedded) = .stop result cur ∧
      p.compileWith embedded text = result.map fun _ => written
  /-- Embedded markup at depth `depth + 1` is compiled only if the limit allows that depth. -/
  compileEmbedded : ∀ (limit depth : Nat) (text : Text),
    p.compileEmbedded limit (limit - depth) text =
      if depth + 1 ≤ limit then p.compileWith (p.compileEmbedded limit (limit - (depth + 1))) text
      else .error (.tooDeep limit)
  /-- After a line has been looked up, a line that is looked up has fewer lines to come, or as many
  and is shorter. -/
  lookUp : ∀ (embedded : Text → Except Diagnostic Text) {o next o' : Outline} {w w' : Text},
    o.announced = true → Outline.Steps p.recognise (p.setting embedded) o w next →
    Outline.Moves p.recognise (p.setting embedded) next w' o' → o'.announced = true →
    o'.cursor.ahead.length < o.cursor.ahead.length ∨
      o'.cursor.ahead.length = o.cursor.ahead.length ∧
        o'.line.body.length < o.line.body.length
  /-- When an open block gets a line to deal with once more, there is progress since it last did. -/
  blocks : ∀ (embedded : Text → Except Diagnostic Text) {o next o' : Outline} {w w' : Text},
    Outline.Steps p.recognise (p.setting embedded) o w next →
    Outline.Moves p.recognise (p.setting embedded) next w' o' →
    o'.stack.length = o.stack.length → o'.announced = o.announced → o'.place.Before o.place
  /-- Every pass through a bracket group makes progress. -/
  groups : ∀ n : Nesting,
    Iterates n.closePass (fun state place => n.close state.1 state.2 place.text place.cursor) ∧
      Advances n.closePass
  /-- Every pass through a token makes progress. -/
  tokens : ∀ (n : Nesting) (stops : List Text),
    Iterates (atomsPass n stops) (fun _ place => atoms n stops place.text place.cursor) ∧
      Advances (atomsPass n stops)
  /-- Every pass through an expression makes progress. -/
  expressions :
    Iterates expressionPass (fun _ place => expressionAtoms place.text place.cursor) ∧
      Advances expressionPass
  /-- Every pass through the classes of an element makes progress. -/
  classes :
    Iterates (classPass p.delimiters)
        (fun _ place => classShortcuts p.delimiters place.text place.cursor) ∧
      Advances (classPass p.delimiters)
  /-- Every pass through the attributes of an element makes progress. -/
  attributes : ∀ (parens : Bool) (line idText : Text),
    Iterates (attributePass p.delimiters parens line idText)
        (fun list place =>
          readAttributes p.delimiters parens line idText list place.text place.cursor) ∧
      Advances (attributePass p.delimiters parens line idText)

/-- Under standard rules a compilation gives what its moves write, up to the stop. -/
theorem Profile.exists_moves_of_compileWith {p : Profile} (hp : p.IsStandard)
    (embedded : Text → Except Diagnostic Text) (text : Text) :
    ∃ written last result cur,
      Outline.Moves p.recognise (p.setting embedded) (.ofDocument text) written last ∧
      last.step p.recognise (p.setting embedded) = .stop result cur ∧
      p.compileWith embedded text = result.map fun _ => written := by
  obtain ⟨written, last, result, cur, hmoves, hstop, hrun⟩ :=
    Outline.exists_moves_of_run hp (p.setting embedded) (.ofDocument text)
  refine ⟨written, last, result, cur, hmoves, hstop, ?_⟩
  unfold Profile.compileWith
  rw [hrun]
  cases result <;> rfl

/-- Every compilation with a part of the standard table comes to an end. -/
theorem Profile.terminates (p : Profile) (hp : p.rules.Sublist Rule.standard) :
    p.Terminates where
  compile options source := by
    obtain ⟨written, last, result, cur, hmoves, hstop, hcompile⟩ :=
      p.exists_moves_of_compileWith hp (p.compileEmbedded options.depth options.depth) source
    refine ⟨written, last, result, cur, hmoves, hstop, ?_⟩
    unfold Profile.compile
    rw [hcompile]
    cases result <;> rfl
  compileWith := p.exists_moves_of_compileWith hp
  compileEmbedded := p.compileEmbedded_at_depth
  lookUp embedded _ _ _ _ _ ho hs hm _ :=
    Place.before_iff.1 (Outline.before_of_announced hp ho hs hm)
  blocks embedded _ _ _ _ _ hs hm hstack hannounced := by
    refine Outline.before_of_pending_le hp hs hm (Nat.le_of_eq ?_)
    unfold Outline.pending
    rw [hstack, hannounced]
  groups n := ⟨n.closePass_iterates, n.closePass_advances⟩
  tokens n stops := ⟨atomsPass_iterates n stops, atomsPass_advances n stops⟩
  expressions := ⟨expressionPass_iterates, expressionPass_advances⟩
  classes := ⟨classPass_iterates p.delimiters, classPass_advances p.delimiters⟩
  attributes parens line idText :=
    ⟨attributePass_iterates p.delimiters parens line idText,
      attributePass_advances p.delimiters parens line idText⟩

/-- Empty delimiters are no exception. -/
theorem Profile.terminates_without_delimiters :
    (django id).rules.Sublist Rule.standard ∧
      Terminates { django id with delimiters := ⟨[], [], [], [], [], [], [], [], [], []⟩ } :=
  ⟨django_isStandard, terminates _ (@django_isStandard id)⟩

end TerseMarkup
