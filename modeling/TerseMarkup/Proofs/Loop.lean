import TerseMarkup.Proofs.Place

/-!
# Loops over places

A loop reads on pass by pass. `Pass` is what a single pass comes to, `Iterates body loop` says that
`loop` does nothing but passes of `body`, and `Advances body` that each pass that is not the last
makes progress. The two together give an induction over the passes, `Iterates.induction`, and with
it loops are compared pass by pass (`Iterates.congr`).
-/

namespace TerseMarkup

/-- What one pass through a loop comes to. -/
inductive Pass (σ ρ : Type) where
  /-- The loop ends. -/
  | done (result : ρ)
  /-- The loop goes on at another place with another state. `wrap` makes the result of this pass out
  of the result of the passes that follow. -/
  | again (state : σ) (place : Place) (wrap : ρ → ρ)

namespace Pass

variable {σ ρ : Type}

/-- The result of a pass, if `loop` does the passes that follow. -/
def finish (loop : σ → Place → ρ) : Pass σ ρ → ρ
  | done result => result
  | again state place wrap => wrap (loop state place)

end Pass

variable {σ ρ : Type} {body : σ → Place → Pass σ ρ} {loop : σ → Place → ρ}

/-- The loop does passes of `body` and nothing else. -/
def Iterates (body : σ → Place → Pass σ ρ) (loop : σ → Place → ρ) : Prop :=
  ∀ state place, loop state place = (body state place).finish loop

/-- Every pass that is not the last one makes progress. -/
def Advances (body : σ → Place → Pass σ ρ) : Prop :=
  ∀ state place state' place' wrap,
    body state place = .again state' place' wrap → place'.Before place

/-- What holds of the result of every last pass, and of the result of a pass if it holds of the
result of those that follow, holds of the result of the loop. -/
theorem Iterates.induction (hi : Iterates body loop) (ha : Advances body)
    {Q : σ → Place → ρ → Prop}
    (done : ∀ state place result, body state place = .done result → Q state place result)
    (again : ∀ state place state' place' wrap, body state place = .again state' place' wrap →
      Q state' place' (loop state' place') → Q state place (wrap (loop state' place')))
    (state : σ) (place : Place) : Q state place (loop state place) := by
  induction place using Place.wellFounded_before.induction generalizing state with
  | _ place ih =>
    rw [hi]
    cases hb : body state place with
    | done result => exact done state place result hb
    | again state' place' wrap =>
      exact again state place state' place' wrap hb
        (ih place' (ha state place state' place' wrap hb) state')

/-- Two loops do the same from a place where `P` holds, if they make the same passes there and `P`
goes on to hold. -/
theorem Iterates.congr {body' : σ → Place → Pass σ ρ} {loop' : σ → Place → ρ} {P : Place → Prop}
    (hi : Iterates body loop) (ha : Advances body) (hi' : Iterates body' loop')
    (hbody : ∀ state place, P place → body' state place = body state place)
    (hnext : ∀ state place state' place' wrap, body state place = .again state' place' wrap →
      P place → P place') (state : σ) (place : Place) :
    P place → loop' state place = loop state place := by
  refine hi.induction ha (Q := fun state place r => P place → loop' state place = r) ?_ ?_
    state place
  · intro state place result hdone hplace
    rw [hi', hbody state place hplace, hdone]
    rfl
  · intro state place state' place' wrap hagain ih hplace
    rw [hi', hbody state place hplace, hagain]
    exact congrArg wrap (ih (hnext state place state' place' wrap hagain hplace))

end TerseMarkup
