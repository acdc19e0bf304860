import Mathlib.Data.Option.Basic
import Mathlib.Logic.Function.Basic

/-!
# Values in places of their own

A store prints each of its values into a place of its own: a file, a page, a row. What is
printed says what the value is, but one value may be printed in several ways. `Keeps` says
that the places hold the values, and `Keeps.put` that printing a value changes this one only.
-/

namespace Libamg.Semantics

universe u v w x

/-- Where each value is and how it is printed there. -/
structure Placement (Slot : Type u) (Value : Slot → Type v) (Place : Type w) (Content : Type x) where
  place : Slot → Place
  apart : Function.Injective place
  Printed : (slot : Slot) → Value slot → Content → Prop

namespace Placement

variable {Slot : Type u} {Value : Slot → Type v} {Place : Type w} {Content : Type x}
  {placement : Placement Slot Value Place Content} {contents : Place → Option Content}
  {values : (slot : Slot) → Option (Value slot)} {slot : Slot}

/-- The places hold the values. -/
def Keeps (placement : Placement Slot Value Place Content) (contents : Place → Option Content)
    (values : (slot : Slot) → Option (Value slot)) : Prop :=
  ∀ slot, Option.Rel (placement.Printed slot) (values slot) (contents (placement.place slot))

/-- Empty places hold no values. -/
theorem keeps_none (nothing : ∀ slot, contents (placement.place slot) = none) :
    placement.Keeps contents fun _ => none := by
  intro slot
  rw [nothing]
  exact .none

/-- The value of a place that is printed into. -/
theorem Keeps.put [DecidableEq Slot] [DecidableEq Place] (keeps : placement.Keeps contents values)
    {value : Value slot} {content : Content} (printed : placement.Printed slot value content) :
    placement.Keeps (Function.update contents (placement.place slot) (some content))
      (Function.update values slot (some value)) := by
  intro other
  by_cases same : other = slot
  · subst same
    rw [Function.update_self, Function.update_self]
    exact .some printed
  · have different : placement.place other ≠ placement.place slot :=
      fun samePlace => same (placement.apart samePlace)
    rw [Function.update_of_ne same, Function.update_of_ne different]
    exact keeps other

end Placement

end Libamg.Semantics
