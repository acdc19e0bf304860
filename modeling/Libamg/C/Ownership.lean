import Libamg.C.LinkedList

/-!
# Which objects may be freed

The calls of `malloc` and `free` leave a history. `Owned` says that an address was
handed out and not freed since. `Tracks` says that the objects of a heap that are not
static are the owned ones; it survives a `malloc` and a `free` that enter the history.
-/

namespace Libamg.C

/-- A `malloc` that succeeded, or a `free`. -/
inductive HeapEvent (Address : Type) where
  | malloc (address : Address)
  | free (address : Address)
deriving DecidableEq

variable {Address Value : Type}

/-- The address came from `malloc` and was not freed since. The last event comes first. -/
def Owned (history : List (HeapEvent Address)) (address : Address) : Prop :=
  ∃ later earlier, history = later ++ .malloc address :: earlier ∧ .free address ∉ later

theorem not_owned_nil (address : Address) : ¬ Owned [] address := by
  rintro ⟨later, earlier, shape, _⟩
  exact List.append_ne_nil_of_right_ne_nil later (List.cons_ne_nil _ earlier) shape.symm

/-- The last event is the `malloc` itself, or it is not the `free` and tells nothing. -/
theorem owned_cons {history : List (HeapEvent Address)} {event : HeapEvent Address}
    {address : Address} :
    Owned (event :: history) address ↔
      event = .malloc address ∨ event ≠ .free address ∧ Owned history address := by
  constructor
  · rintro ⟨later, earlier, shape, notFreed⟩
    cases later with
    | nil => exact .inl (List.cons.inj shape).1
    | cons last later =>
        obtain ⟨rfl, rfl⟩ := List.cons.inj shape
        rw [List.mem_cons, not_or] at notFreed
        exact .inr ⟨Ne.symm notFreed.1, later, earlier, rfl, notFreed.2⟩
  · rintro (rfl | ⟨notFree, later, earlier, rfl, notFreed⟩)
    · exact ⟨[], history, rfl, List.not_mem_nil⟩
    · refine ⟨event :: later, earlier, rfl, ?_⟩
      rw [List.mem_cons, not_or]
      exact ⟨Ne.symm notFree, notFreed⟩

theorem owned_malloc {history : List (HeapEvent Address)} {added address : Address} :
    Owned (.malloc added :: history) address ↔ address = added ∨ Owned history address := by
  have notFree : HeapEvent.malloc added ≠ .free address := by
    intro same
    cases same
  rw [owned_cons, HeapEvent.malloc.injEq, and_iff_right notFree, eq_comm]

theorem owned_free {history : List (HeapEvent Address)} {removed address : Address} :
    Owned (.free removed :: history) address ↔ address ≠ removed ∧ Owned history address := by
  have notMalloc : ¬ HeapEvent.free removed = .malloc address := by
    intro same
    cases same
  rw [owned_cons, or_iff_right notMalloc, ne_eq, HeapEvent.free.injEq, eq_comm]

/-- The owned objects are the allocated ones that are not static. -/
def Tracks (Static : Address → Prop) (heap : Heap Address Value)
    (history : List (HeapEvent Address)) : Prop :=
  ∀ address, Owned history address ↔ ¬ Static address ∧ (heap address).isSome

section Histories

variable {Static : Address → Prop} {heap after : Heap Address Value}
  {history : List (HeapEvent Address)}

theorem Tracks.malloc {added : Address} (tracks : Tracks Static heap history)
    (notStatic : ¬ Static added)
    (allocated : ∀ address, (after address).isSome ↔ address = added ∨ (heap address).isSome) :
    Tracks Static after (.malloc added :: history) := by
  intro address
  rw [owned_malloc, allocated, tracks address]
  constructor
  · rintro (rfl | ⟨other, before⟩)
    · exact ⟨notStatic, .inl rfl⟩
    · exact ⟨other, .inr before⟩
  · rintro ⟨other, isAdded | before⟩
    · exact .inl isAdded
    · exact .inr ⟨other, before⟩

theorem Tracks.free {removed : Address} (tracks : Tracks Static heap history)
    (allocated : ∀ address, (after address).isSome ↔ address ≠ removed ∧ (heap address).isSome) :
    Tracks Static after (.free removed :: history) := by
  intro address
  rw [owned_free, allocated, tracks address, and_left_comm]

end Histories

end Libamg.C
