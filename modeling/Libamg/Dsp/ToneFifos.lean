import Libamg.Dsp.ToneQueue
import Libamg.Semantics.Fifos

/-!
# What the tone queue is for

Each connection has a FIFO of tones. `queueRun_refines` carries the list of events
through whole runs, whatever memory `malloc` hands out and whenever it fails; a run
answers as the FIFOs do.
-/

namespace Libamg.Dsp

open C Semantics

/-- A call on the FIFOs. A queue call does nothing where `malloc` fails. -/
def fifosStep (fifos : Fifos Int32 Int32) : QueueCall → Int32 × Fifos Int32 Int32
  | .queue _ none => (-1, fifos)
  | .queue tone (some _) => (0, fifos.enqueue tone.connId tone.tone)
  | .dequeue connId => ((fifos.dequeue connId).1.getD (-1), (fifos.dequeue connId).2)

/-- The tones that wait for each connection. -/
def waiting (events : List Tone) : Fifos Int32 Int32 := .ofEvents Tone.connId Tone.tone events

/-- The list of events behaves as the FIFOs it stands for. -/
theorem eventsStep_waiting (events : List Tone) (call : QueueCall) :
    fifosStep (waiting events) call =
      ((eventsStep events call).1, waiting (eventsStep events call).2) := by
  cases call with
  | queue tone malloc =>
      cases malloc with
      | none => rfl
      | some allocator =>
          exact congrArg ((0 : Int32), ·) (Fifos.ofEvents_snoc events tone).symm
  | dequeue connId =>
      rcases dequeueEvent_cases connId events with ⟨others, unchanged⟩ |
        ⟨front, event, back, rfl, others, rfl, removed⟩
      · have nothing : (waiting events).dequeue connId = (none, waiting events) :=
          Fifos.dequeue_ofEvents_of_forall_ne others
        rw [fifosStep, nothing, eventsStep, unchanged]
        rfl
      · have oldest : (waiting (front ++ event :: back)).dequeue event.connId =
            (some event.tone, waiting (front ++ back)) := Fifos.dequeue_ofEvents_append others
        rw [fifosStep, oldest, eventsStep, removed]
        rfl

/-- The memory holds a list of events that stands for the FIFOs, and its length leaves
fuel for the calls to come. -/
def Holds (fuel remaining : Nat) (memory : Memory) (fifos : Fifos Int32 Int32) : Prop :=
  ∃ events, Represents memory events ∧ waiting events = fifos ∧ events.length + remaining + 1 < fuel

/-- One call. -/
theorem queueStep_refines {fuel remaining : Nat} {memory : Memory} {fifos : Fifos Int32 Int32}
    {call : QueueCall} (named : call.connId ≠ -1) (holds : Holds fuel (remaining + 1) memory fifos) :
    ∃ next, queueStep fuel memory call = .ok ((fifosStep fifos call).1, next) ∧
      Holds fuel remaining next (fifosStep fifos call).2 := by
  obtain ⟨events, represents, rfl, enough⟩ := holds
  have notHead : call ≠ .dequeue (-1) := by
    rintro rfl
    exact named rfl
  have fuelLeft : events.length + 1 < fuel := by omega
  obtain ⟨after, returned, representsAfter⟩ := queueStep_represents represents notHead fuelLeft
  have longer := eventsStep_length events call
  rw [eventsStep_waiting]
  exact ⟨after, returned, _, representsAfter, rfl, by omega⟩

/-- Whole runs, under any interleaving of the connections: every call returns, and
returns what the FIFO of its connection says. -/
theorem queueRun_refines {calls : List QueueCall} (named : ∀ call ∈ calls, call.connId ≠ -1)
    {fuel : Nat} (enough : calls.length + 1 < fuel) :
    ∃ memory events,
      runChecked (queueStep fuel) initialMemory calls =
        .ok ((run fifosStep .empty calls).1, memory) ∧
      Represents memory events ∧ waiting events = (run fifosStep .empty calls).2 := by
  have initial : Holds fuel calls.length initialMemory .empty :=
    ⟨[], initialMemory_represents, rfl, by simpa using enough⟩
  obtain ⟨memory, ran, events, represents, stands, _⟩ :=
    run_simulates (Holds fuel) (fun _ _ _ _ => queueStep_refines) named initial
  exact ⟨memory, events, ran, represents, stands⟩

open Classical in
/-- A `malloc` that returns any memory that is not in use. -/
noncomputable def anyAllocator : Allocator where
  pick := fun memory =>
    if unused : ∃ number, memory (.heap number) = none then unused.choose else 0
  fresh := by
    intro memory unused
    rw [dif_pos unused]
    exact unused.choose_spec

theorem queueRun_refines_witness :
    ∃ memory events,
      runChecked (queueStep 8) initialMemory
        [.queue ⟨5, 1⟩ (some anyAllocator), .queue ⟨7, 2⟩ (some anyAllocator),
          .queue ⟨5, 3⟩ none, .dequeue 7, .dequeue 5, .dequeue 5] =
        .ok ([0, 0, -1, 2, 1, -1], memory) ∧
      Represents memory events ∧ waiting events = .empty := by
  have named : ∀ call ∈ [QueueCall.queue ⟨5, 1⟩ (some anyAllocator),
      .queue ⟨7, 2⟩ (some anyAllocator), .queue ⟨5, 3⟩ none, .dequeue 7, .dequeue 5, .dequeue 5],
      call.connId ≠ -1 := by
    simp [QueueCall.connId]
  obtain ⟨memory, events, ran, represents, stands⟩ := queueRun_refines named (show 6 + 1 < 8 by decide)
  refine ⟨memory, events, ran, represents, stands.trans (funext fun connId => ?_)⟩
  by_cases first : connId = 5
  · subst first
    rfl
  by_cases second : connId = 7
  · subst second
    rfl
  simp [run, fifosStep, Fifos.enqueue, Fifos.dequeue, Fifos.empty, first, second]

end Libamg.Dsp
