namespace Retrace

/-!
# Instants and durations

A replay does three things with time: it subtracts one instant from another, it
compares, and it adds durations up.  `Timescale` names exactly these, so that
every definition of the replay works alike on the binary fractions of a capture
file and on exact numbers.
-/

/-- A scale on which both instants and durations are measured, in seconds. -/
class Timescale (τ : Type) where
  /-- The empty duration, and the instant that stands for "nothing seen yet". -/
  zero : τ
  /-- The sum of two durations. -/
  add : τ → τ → τ
  /-- `sub later earlier` is the time from `earlier` to `later`. -/
  sub : τ → τ → τ
  /-- Whether the first lies strictly before (is strictly shorter than) the second. -/
  less : τ → τ → Bool

/-- Capture files hold their times as binary fractions. -/
instance : Timescale Float where
  zero := 0.0
  add := Float.add
  sub := Float.sub
  less first second := decide (Float.lt first second)

namespace Timescale

/-- Durations added up in order. -/
def total {τ : Type} [Timescale τ] (durations : List τ) : τ :=
  durations.foldl add zero

theorem total_concat
    {τ : Type}
    [Timescale τ]
    (earlier : List τ)
    (duration : τ) :
    total (earlier ++ [duration]) = add (total earlier) duration := by
  simp [total]

/-- Whether two instants lie further apart than a tolerance, in either order. -/
def farApart {τ : Type} [Timescale τ] (tolerance first second : τ) : Bool :=
  less tolerance (sub first second) || less tolerance (sub second first)

end Timescale

end Retrace
