import Shashlik.WaylandClient

set_option autoImplicit false

/-!
# The globals of the compositor

`connect` dispatches once. What the compositor announces after that delivery is bound by later
calls, if there are any, but the windows and the allocator take the globals without looking.
-/
namespace Shashlik.WaylandClient
open SystemRuns World

inductive Needed where
  | compositor
  | shell
  | shm

namespace Needed

@[simp] def interface : Needed → String
  | .compositor => "wl_compositor"
  | .shell => "wl_shell"
  | .shm => "wl_shm"

@[simp] def getter : Needed → Client → Option Object
  | .compositor => Client.getCompositor
  | .shell => Client.getShell
  | .shm => Client.getShm

end Needed

def Announces (message : Message) (n : Needed) : Prop :=
  ∃ theme cursor, message = .global n.interface theme cursor

structure Disconnected where
  world : World
  disconnected : world.client.mDisplay = none

/-- What the compositor has to announce, as it is delivered: the first delivery is there when
    `connect` dispatches. -/
structure Announcements where
  first : List Message
  rest : List (List Message)

def Announcements.Advertise (a : Announcements) (n : Needed) : Prop :=
  ∃ message ∈ a.first ++ a.rest.flatten, Announces message n

def Disconnected.connected (w : Disconnected) (display : Bool) (a : Announcements) : World :=
  w.world.connect display a.first

/-- If `connect` leaves a display and the compositor advertises the three globals, they are
    bound from then on, whatever is dispatched next. -/
def BoundFromThenOn (w : World) (a : Announcements) : Prop :=
  w.client.getDisplay ≠ none → (∀ n, a.Advertise n) →
    ∀ (messages : List Message) (n : Needed), n.getter (run receive w messages).client ≠ none

theorem getter_loadCursor (w : World) (theme cursor : Bool) (n : Needed) :
    n.getter (w.loadCursor theme cursor).client = n.getter w.client := by
  obtain ⟨_, _, _, _, -, hloaded⟩ := loadCursor_eq w theme cursor
  rw [hloaded]
  cases n <;> rfl

theorem getter_toggle (w : World) (d : Device) (caps : BitVec 32) (n : Needed) :
    n.getter (w.toggle d caps).client = n.getter w.client := by
  rcases toggle_cases w d caps with ⟨-, -, h⟩ | ⟨-, h⟩ | ⟨o, -, -, h⟩
  · rw [h]
    cases n <;> rfl
  · rw [h]
  · rw [h]
    cases n <;> rfl

theorem announces_global (interface : String) (theme cursor : Bool) (n : Needed) :
    Announces (.global interface theme cursor) n ↔ interface = n.interface := by
  constructor
  · rintro ⟨theme', cursor', h⟩
    injection h
  · rintro rfl
    exact ⟨theme, cursor, rfl⟩

theorem getter_handleRegistry (w : World) (interface : String) (theme cursor : Bool)
    (n : Needed) : n.getter (w.handleRegistry interface theme cursor).client ≠ none ↔
      interface = n.interface ∨ n.getter w.client ≠ none := by
  rcases handleRegistry_cases w interface theme cursor with
    ⟨rfl, h⟩ | ⟨rfl, h⟩ | ⟨rfl, h⟩ | ⟨rfl, h⟩ | ⟨hother, h⟩
  · rw [h]
    cases n <;> simp
  · rw [h]
    cases n <;> simp
  · rw [h]
    cases n <;> simp
  · rw [h, getter_loadCursor]
    cases n <;> simp
  · rw [h]
    refine (or_iff_right fun hinterface => hother ?_).symm
    subst hinterface
    cases n <;> simp

theorem getter_receive (w : World) (message : Message) (n : Needed) :
    n.getter (w.receive message).client ≠ none ↔
      Announces message n ∨ n.getter w.client ≠ none := by
  cases message with
  | global interface theme cursor =>
    rw [announces_global]
    exact getter_handleRegistry w interface theme cursor n
  | globalRemove =>
    refine (or_iff_right ?_).symm
    rintro ⟨theme, cursor, h⟩
    exact absurd h (by simp)
  | capabilities seat caps =>
    have hother : ¬ Announces (.capabilities seat caps) n := by
      rintro ⟨theme, cursor, h⟩
      exact absurd h (by simp)
    rw [or_iff_right hother, receive]
    split
    · rw [seatHandleCapabilities, getter_toggle, getter_toggle, getter_toggle]
    · rfl

theorem getter_run (w : World) (messages : List Message) (n : Needed) :
    n.getter (run receive w messages).client ≠ none ↔
      (∃ message ∈ messages, Announces message n) ∨ n.getter w.client ≠ none := by
  induction messages generalizing w with
  | nil => simp
  | cons message messages ih =>
    rw [run_cons, ih, getter_receive, List.exists_mem_cons_iff, or_assoc, or_left_comm]

theorem getter_connect (w : Disconnected) (a : Announcements) (n : Needed) :
    n.getter (w.connected true a).client ≠ none ↔
      (∃ message ∈ a.first, Announces message n) ∨ n.getter w.world.client ≠ none := by
  rw [Disconnected.connected, connect, if_neg (not_not.mpr w.disconnected), if_pos rfl]
  cases n with
  | compositor => exact getter_run _ a.first .compositor
  | shell => exact getter_run _ a.first .shell
  | shm => exact getter_run _ a.first .shm

theorem display_connect (w : Disconnected) (display : Bool) (a : Announcements) :
    (w.connected display a).client.getDisplay ≠ none ↔ display = true := by
  rw [Disconnected.connected, connect, if_neg (not_not.mpr w.disconnected)]
  cases display with
  | false => exact iff_of_false (not_not.mpr w.disconnected) (by simp)
  | true =>
    refine iff_of_true ?_ rfl
    rw [if_pos rfl]
    change (run receive _ a.first).client.mDisplay ≠ none
    rw [(sameConnection_run _ a.first).display]
    simp

/-- The globals are bound when `connect` returns and from then on, exactly if those that are
    advertised come with the first delivery, or were bound by an earlier connection. -/
theorem globals_bound_iff (w : Disconnected) (display : Bool) (a : Announcements) :
    BoundFromThenOn (w.connected display a) a ↔
      (display = true → (∀ n, a.Advertise n) →
        ∀ n : Needed, (∃ message ∈ a.first, Announces message n) ∨
          n.getter w.world.client ≠ none) := by
  rw [BoundFromThenOn, display_connect]
  refine imp_congr_right fun hdisplay => imp_congr_right fun _ => ?_
  subst hdisplay
  constructor
  · intro h n
    exact (getter_connect w a n).mp (h [] n)
  · intro h messages n
    rw [getter_run]
    exact Or.inr ((getter_connect w a n).mpr (h n))

def newClient : Disconnected := ⟨initial none, rfl⟩

def twoDeliveries : Announcements where
  first := [.global "wl_compositor" true true]
  rest := [[.global "wl_shell" true true, .global "wl_shm" true true]]

theorem shell_and_shm_missing :
    (newClient.connected true twoDeliveries).client.getDisplay = some 0 ∧
      (newClient.connected true twoDeliveries).client.getShell = none ∧
        (newClient.connected true twoDeliveries).client.getShm = none ∧
          ¬ BoundFromThenOn (newClient.connected true twoDeliveries) twoDeliveries := by
  refine ⟨rfl, rfl, rfl, fun h => ?_⟩
  have hadvertised : ∀ n, twoDeliveries.Advertise n := by
    intro n
    refine ⟨.global n.interface true true, ?_, true, true, rfl⟩
    cases n <;> simp [twoDeliveries]
  exact h (by rw [display_connect]) hadvertised [] .shell rfl

end Shashlik.WaylandClient
