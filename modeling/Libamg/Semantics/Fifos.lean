import Mathlib.Logic.Function.Basic

/-!
# Families of FIFOs

One FIFO for each key. `ofEvents` is the family that a single list of keyed events
stands for: appending an event enqueues it under its key, and removing the first
event of a key dequeues that key.
-/

namespace Libamg.Semantics

/-- One FIFO for each key. -/
abbrev Fifos (Key Value : Type) := Key → List Value

namespace Fifos

variable {Event Key Value : Type}

/-- All FIFOs empty. -/
def empty : Fifos Key Value := fun _ => []

section Operations

variable [DecidableEq Key]

def enqueue (fifos : Fifos Key Value) (key : Key) (value : Value) : Fifos Key Value :=
  Function.update fifos key (fifos key ++ [value])

/-- The oldest value of a key and the FIFOs without it. -/
def dequeue (fifos : Fifos Key Value) (key : Key) : Option Value × Fifos Key Value :=
  match fifos key with
  | [] => (none, fifos)
  | value :: rest => (some value, Function.update fifos key rest)

theorem dequeue_of_nil {fifos : Fifos Key Value} {key : Key} (nothing : fifos key = []) :
    fifos.dequeue key = (none, fifos) := by
  rw [dequeue, nothing]

theorem dequeue_of_cons {fifos : Fifos Key Value} {key : Key} {value : Value} {rest : List Value}
    (waiting : fifos key = value :: rest) :
    fifos.dequeue key = (some value, Function.update fifos key rest) := by
  rw [dequeue, waiting]

/-- The FIFOs of a list of events. -/
def ofEvents (key : Event → Key) (value : Event → Value) (events : List Event) :
    Fifos Key Value := fun k => (events.filter (key · = k)).map value

variable {key : Event → Key} {value : Event → Value}

@[simp] theorem ofEvents_nil : ofEvents key value [] = empty := rfl

theorem ofEvents_snoc (events : List Event) (event : Event) :
    ofEvents key value (events ++ [event]) =
      (ofEvents key value events).enqueue (key event) (value event) := by
  funext k
  by_cases same : key event = k
  · subst same
    simp [ofEvents, enqueue]
  · rw [enqueue, Function.update_of_ne (Ne.symm same)]
    simp [ofEvents, same]

theorem dequeue_ofEvents_of_forall_ne {events : List Event} {k : Key}
    (others : ∀ event ∈ events, key event ≠ k) :
    (ofEvents key value events).dequeue k = (none, ofEvents key value events) := by
  apply dequeue_of_nil
  have noEvent : events.filter (key · = k) = [] := by
    rw [List.filter_eq_nil_iff]
    simpa using others
  rw [ofEvents, noEvent, List.map_nil]

theorem dequeue_ofEvents_append {front back : List Event} {event : Event}
    (others : ∀ other ∈ front, key other ≠ key event) :
    (ofEvents key value (front ++ event :: back)).dequeue (key event) =
      (some (value event), ofEvents key value (front ++ back)) := by
  have noEvent : front.filter (key · = key event) = [] := by
    rw [List.filter_eq_nil_iff]
    simpa using others
  have waiting : ofEvents key value (front ++ event :: back) (key event) =
      value event :: (back.filter (key · = key event)).map value := by
    simp [ofEvents, noEvent]
  rw [dequeue_of_cons waiting]
  refine congrArg (some (value event), ·) (funext fun k => ?_)
  by_cases same : k = key event
  · subst same
    simp [ofEvents, noEvent]
  · rw [Function.update_of_ne same]
    simp [ofEvents, Ne.symm same]

end Operations

end Fifos

end Libamg.Semantics
