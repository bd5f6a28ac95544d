import Shashlik.WaylandClient

set_option autoImplicit false

/-!
# The lifecycle of the connection

`disconnect` uses what `connect` and the handlers have left in the fields of the client. It
destroys the event queue when its display is gone, and clears one field.
-/
namespace Shashlik.WaylandClient
open SystemRuns World

/-- The object was made since the last successful connect, and can still be used. -/
def Use.Sound (u : Use) : Prop := ∃ o ∈ u.usable, u.object = some o

def GettersNull (c : Client) : Prop :=
  c.getDisplay = none ∧ c.getCompositor = none ∧ c.getShell = none ∧ c.getShm = none ∧
    c.getEventQueue = none

def LifecycleKept (w : World) (e : Event) : Prop :=
  (∀ u ∈ (w.step e).uses, u.Sound) ∧
    (e = .disconnect → GettersNull (w.step e).client)

/-- A connected client has an event queue of its display. -/
def QueueOfDisplay (w : World) : Prop :=
  ∀ display, w.client.mDisplay = some display →
    ∃ queue, w.client.mEventQueue = some queue ∧ (queue, display) ∈ w.queues

/-! ### Connections -/

theorem connect_uses (w : World) (display : Bool) (delivery : List Message) :
    (w.connect display delivery).uses = w.uses := by
  unfold connect
  split
  · rfl
  · split
    · exact (sameConnection_run _ delivery).uses
    · rfl

theorem queueOfDisplay_connect {w : World} (h : QueueOfDisplay w) (display : Bool)
    (delivery : List Message) : QueueOfDisplay (w.connect display delivery) := by
  unfold connect
  split
  · exact h
  · split
    · intro display' hdisplay
      refine ⟨_, rfl, ?_⟩
      have hsame : some w.nextObject = some display' :=
        (sameConnection_run _ delivery).display.symm.trans hdisplay
      obtain rfl := Option.some.inj hsame
      exact List.mem_cons_self
    · exact h

theorem queueOfDisplay_step {w : World} (h : QueueOfDisplay w) (e : Event) :
    QueueOfDisplay (w.step e) := by
  have hcleared : QueueOfDisplay { w with uses := [] } := h
  cases e with
  | connect display delivery => exact queueOfDisplay_connect hcleared display delivery
  | dispatch message =>
    rw [step, perform]
    split
    · obtain ⟨hdisplay, hqueue, hqueues, -⟩ :=
        sameConnection_receive { w with uses := [] } message
      rw [QueueOfDisplay, hdisplay, hqueue, hqueues]
      exact h
    · exact hcleared
  | disconnect =>
    intro display hdisplay
    exact absurd hdisplay (by simp [step, perform, disconnect])

/-! ### Disconnecting -/

theorem destroyIfSet_queues (w : World) (object : Option Object) :
    (w.destroyIfSet object).queues = w.queues := by
  unfold destroyIfSet
  split
  · rfl
  · rfl

theorem uses_disconnect (w : World) : ∃ w' : World, w'.queues = w.queues ∧
    (w.disconnect).uses = w'.uses ++
      [⟨.flush, w.client.mDisplay, w'.usable⟩, ⟨.disconnect, w.client.mDisplay, w'.usable⟩,
        ⟨.destroy, w.client.mEventQueue, w'.left .disconnect w.client.mDisplay⟩] := by
  refine ⟨((w.destroyIfSet w.client.mCursorTheme).destroyIfSet w.client.mCompositor).use .destroy
    w.client.mRegistry, ?_, ?_⟩
  · exact (destroyIfSet_queues _ _).trans (destroyIfSet_queues _ _)
  · rw [disconnect]
    simp only [use, List.append_assoc, List.cons_append, List.nil_append]
    cases w.client.mDisplay with
    | none => rfl
    | some display => rfl

/-- Every disconnect uses something that it should not. -/
theorem not_kept_disconnect {w : World} (h : QueueOfDisplay w) :
    ¬ LifecycleKept w .disconnect := by
  rintro ⟨hsound, -⟩
  obtain ⟨w', hqueues, huses⟩ := uses_disconnect { w with uses := [] }
  rw [step, perform, huses] at hsound
  obtain ⟨display, -, hdisplay⟩ := hsound ⟨.flush, w.client.mDisplay, w'.usable⟩ (by simp)
  obtain ⟨queue, hqueue, hmem⟩ := h display hdisplay
  obtain ⟨o, ho, heq⟩ := hsound
    ⟨.destroy, w.client.mEventQueue, w'.left .disconnect w.client.mDisplay⟩ (by simp)
  obtain rfl : queue = o := Option.some.inj (hqueue.symm.trans heq)
  have hdisplay' : w.client.mDisplay = some display := hdisplay
  rw [hdisplay', left, List.mem_filter, decide_eq_true_eq] at ho
  rw [hqueues] at ho
  exact ho.2.2 hmem

theorem kept_of_connected (w : World) {e : Event} (h : e ≠ .disconnect) : LifecycleKept w e := by
  refine ⟨fun u hu => ?_, fun he => absurd he h⟩
  cases e with
  | connect display delivery =>
    rw [step, perform, connect_uses] at hu
    exact absurd hu (by simp)
  | dispatch message =>
    rw [step, perform] at hu
    split at hu
    · rw [(sameConnection_receive _ message).uses] at hu
      exact absurd hu (by simp)
    · exact absurd hu (by simp)
  | disconnect => exact absurd rfl h

/-- In a run every disconnect is sound exactly if there is none. -/
theorem lifecycle_sound_iff (uninitialised : Option Object) (es : List Event) :
    Along step LifecycleKept (initial uninitialised) es ↔ ∀ e ∈ es, e ≠ .disconnect := by
  rw [← along_iff_forall step (fun e => e ≠ .disconnect) (initial uninitialised) es]
  refine along_congr step QueueOfDisplay LifecycleKept (fun _ e => e ≠ .disconnect)
    (fun w e h _ => queueOfDisplay_step h e) (fun w e h => ?_) (initial uninitialised) es ?_
  · constructor
    · rintro hkept rfl
      exact not_kept_disconnect h hkept
    · exact kept_of_connected w
  · intro display hdisplay
    exact absurd hdisplay (by simp [initial])

def oneCycle : List Event :=
  [.connect true [.global "wl_compositor" true true], .disconnect]

theorem queue_destroyed_behind_display :
    (run step (initial none) oneCycle).uses.getLast? = some ⟨.destroy, some 3, []⟩ ∧
      (run step (initial none) oneCycle).client.getCompositor = some 2 ∧
        ¬ Along step LifecycleKept (initial none) oneCycle := by
  refine ⟨rfl, rfl, fun h => ?_⟩
  have hnull := (h.2.1.2 rfl).2.1
  exact absurd (show some 2 = none from hnull) (by simp)

end Shashlik.WaylandClient
