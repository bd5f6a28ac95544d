import Mathlib.Data.Nat.Notation
import Mathlib.Logic.Function.Basic
import Mathlib.Tactic.Common
import Shashlik.Library.SystemRuns

set_option autoImplicit false

/-!
# The Wayland client

`WaylandClient` connects to the compositor, binds the globals that it announces and takes the
input devices of its seats. The state is the client with the objects that the client library
has made for it.
-/
namespace Shashlik.WaylandClient
open SystemRuns

abbrev Object := ℕ

inductive Device where
  | pointer
  | keyboard
  | touch
  deriving DecidableEq

def Device.capability : Device → BitVec 32
  | .pointer => 1#32
  | .keyboard => 2#32
  | .touch => 4#32

def Advertised (caps : BitVec 32) (d : Device) : Prop := caps &&& d.capability ≠ 0

instance (caps : BitVec 32) (d : Device) : Decidable (Advertised caps d) :=
  inferInstanceAs (Decidable (_ ≠ _))

/-- A device object, and the seat that it was obtained from. -/
structure DeviceObject where
  object : Object
  seat : Option Object
  deriving DecidableEq

structure Client where
  /-- The constructor does not set it. -/
  mEventQueue : Option Object
  mDisplay : Option Object := none
  mRegistry : Option Object := none
  mCompositor : Option Object := none
  mSeat : Option Object := none
  /-- `mPointer`, `mKeyboard` and `mTouch`. -/
  mDevice : Device → Option DeviceObject := fun _ => none
  mShell : Option Object := none
  mShm : Option Object := none
  mCursorTheme : Option Object := none
  mDefaultCursor : Option Object := none

namespace Client

@[simp] def getCompositor (c : Client) : Option Object := c.mCompositor
@[simp] def getShell (c : Client) : Option Object := c.mShell
@[simp] def getDisplay (c : Client) : Option Object := c.mDisplay
@[simp] def getEventQueue (c : Client) : Option Object := c.mEventQueue
@[simp] def getShm (c : Client) : Option Object := c.mShm

end Client

/-- A seat that was announced and bound, with what its last capability event says. -/
structure Seat where
  object : Object
  caps : Option (BitVec 32)

inductive Operation where
  | destroy
  | flush
  | disconnect

/-- What `disconnect` does with an object, and the objects that could be used at that moment. -/
structure Use where
  operation : Operation
  object : Option Object
  usable : List Object

structure World where
  client : Client
  nextObject : Object
  /-- The objects made since the last successful connect that were neither destroyed nor
      invalidated. -/
  usable : List Object
  /-- The event queues, each with its display. -/
  queues : List (Object × Object)
  /-- The seats that were announced since then. -/
  seats : List Seat
  obtained : Device → List Object
  destroyed : Device → List Object
  uses : List Use

/-- What the compositor sends. The flags say whether the cursor theme and the cursor can be
    loaded. -/
inductive Message where
  | global (interface : String) (theme cursor : Bool)
  | globalRemove
  | capabilities (seat : Object) (caps : BitVec 32)

namespace World

def create (w : World) : World :=
  { w with nextObject := w.nextObject + 1, usable := w.nextObject :: w.usable }

/-! ### The handlers -/

def loadCursor (w : World) (theme cursor : Bool) : World :=
  if theme then
    let w' := { w.create with client := { w.client with mCursorTheme := some w.nextObject } }
    if cursor then
      { w'.create with client := { w'.client with mDefaultCursor := some w'.nextObject } }
    else { w' with client := { w'.client with mDefaultCursor := none } }
  else { w with client := { w.client with mCursorTheme := none } }

def handleRegistry (w : World) (interface : String) (theme cursor : Bool) : World :=
  if interface = "wl_compositor" then
    { w.create with client := { w.client with mCompositor := some w.nextObject } }
  else if interface = "wl_seat" then
    { w.create with
      client := { w.client with mSeat := some w.nextObject }
      seats := w.seats ++ [⟨w.nextObject, none⟩] }
  else if interface = "wl_shell" then
    { w.create with client := { w.client with mShell := some w.nextObject } }
  else if interface = "wl_shm" then
    loadCursor { w.create with client := { w.client with mShm := some w.nextObject } } theme cursor
  else w

def handleRegistryRemove (w : World) : World := w

def toggle (d : Device) (caps : BitVec 32) (w : World) : World :=
  match w.client.mDevice d with
  | none =>
    if Advertised caps d then
      { w.create with
        client := { w.client with
          mDevice := Function.update w.client.mDevice d (some ⟨w.nextObject, w.client.mSeat⟩) }
        obtained := Function.update w.obtained d (w.obtained d ++ [w.nextObject]) }
    else w
  | some o =>
    if Advertised caps d then w
    else
      { w with
        client := { w.client with mDevice := Function.update w.client.mDevice d none }
        usable := w.usable.filter (fun o' => o' ≠ o.object)
        destroyed := Function.update w.destroyed d (w.destroyed d ++ [o.object]) }

def seatHandleCapabilities (w : World) (caps : BitVec 32) : World :=
  ((w.toggle .pointer caps).toggle .keyboard caps).toggle .touch caps

def told (seats : List Seat) (seat : Object) (caps : BitVec 32) : List Seat :=
  seats.map (fun s => if s.object = seat then { s with caps := some caps } else s)

/-- Only the seats that were announced have a listener. -/
def receive (w : World) : Message → World
  | .global interface theme cursor => w.handleRegistry interface theme cursor
  | .globalRemove => w.handleRegistryRemove
  | .capabilities seat caps =>
    if ∃ s ∈ w.seats, s.object = seat then
      { w with seats := told w.seats seat caps }.seatHandleCapabilities caps
    else w

/-! ### The connection -/

/-- `display` says whether `wl_display_connect` succeeds, and `delivery` is what the one call
    of `wl_display_dispatch` has to dispatch. -/
def connect (w : World) (display : Bool) (delivery : List Message) : World :=
  -- the assertion stops the program
  if w.client.mDisplay ≠ none then w
  else if display then
    let w₁ := { { w with usable := [], seats := [] }.create with
      client := { w.client with mDisplay := some w.nextObject } }
    let w₂ := { w₁.create with client := { w₁.client with mRegistry := some w₁.nextObject } }
    let w₃ := run receive w₂ delivery
    { w₃.create with
      client := { w₃.client with mEventQueue := some w₃.nextObject }
      queues := (w₃.nextObject, w.nextObject) :: w₃.queues }
  else w

/-- What an operation leaves usable; to disconnect a display invalidates its event queues. -/
def left (w : World) : Operation → Option Object → List Object
  | .destroy, some o => w.usable.filter (fun o' => o' ≠ o)
  | .disconnect, some o => w.usable.filter (fun o' => o' ≠ o ∧ (o', o) ∉ w.queues)
  | _, _ => w.usable

def use (w : World) (operation : Operation) (object : Option Object) : World :=
  { w with
    usable := w.left operation object
    uses := w.uses ++ [⟨operation, object, w.usable⟩] }

def destroyIfSet (w : World) (object : Option Object) : World :=
  if object ≠ none then w.use .destroy object else w

def disconnect (w : World) : World :=
  let c := w.client
  { (((((w.destroyIfSet c.mCursorTheme).destroyIfSet c.mCompositor).use .destroy c.mRegistry).use
      .flush c.mDisplay).use .disconnect c.mDisplay).use .destroy c.mEventQueue with
    client := { c with mDisplay := none } }

end World

inductive Event where
  | connect (display : Bool) (delivery : List Message)
  | dispatch (message : Message)
  | disconnect

namespace World

def perform (w : World) : Event → World
  | .connect display delivery => w.connect display delivery
  | .dispatch message => if w.client.mDisplay ≠ none then w.receive message else w
  | .disconnect => w.disconnect

def step (w : World) (e : Event) : World := { w with uses := [] }.perform e

end World

def initial (uninitialised : Option Object) : World where
  client := { mEventQueue := uninitialised }
  nextObject := 0
  usable := []
  queues := []
  seats := []
  obtained _ := []
  destroyed _ := []
  uses := []

open World

/-! ### What a handler does -/

theorem loadCursor_eq (w : World) (theme cursor : Bool) :
    ∃ nextObject usable mCursorTheme mDefaultCursor, w.nextObject ≤ nextObject ∧
      w.loadCursor theme cursor =
        { w with
          client := { w.client with mCursorTheme := mCursorTheme, mDefaultCursor := mDefaultCursor }
          nextObject := nextObject
          usable := usable } := by
  cases theme with
  | false => exact ⟨_, _, _, _, Nat.le_refl _, rfl⟩
  | true =>
    cases cursor with
    | false => exact ⟨_, _, _, _, Nat.le_succ _, rfl⟩
    | true => exact ⟨_, _, _, _, Nat.le_add_right _ 2, rfl⟩

theorem handleRegistry_cases (w : World) (interface : String) (theme cursor : Bool) :
    (interface = "wl_compositor" ∧ w.handleRegistry interface theme cursor =
        { w.create with client := { w.client with mCompositor := some w.nextObject } }) ∨
      (interface = "wl_seat" ∧ w.handleRegistry interface theme cursor =
        { w.create with
          client := { w.client with mSeat := some w.nextObject }
          seats := w.seats ++ [⟨w.nextObject, none⟩] }) ∨
      (interface = "wl_shell" ∧ w.handleRegistry interface theme cursor =
        { w.create with client := { w.client with mShell := some w.nextObject } }) ∨
      (interface = "wl_shm" ∧ w.handleRegistry interface theme cursor =
        loadCursor { w.create with client := { w.client with mShm := some w.nextObject } }
          theme cursor) ∨
      (interface ∉ ["wl_compositor", "wl_seat", "wl_shell", "wl_shm"] ∧
        w.handleRegistry interface theme cursor = w) := by
  unfold handleRegistry
  by_cases hcompositor : interface = "wl_compositor"
  · exact .inl ⟨hcompositor, if_pos hcompositor⟩
  rw [if_neg hcompositor]
  by_cases hseat : interface = "wl_seat"
  · exact .inr (.inl ⟨hseat, if_pos hseat⟩)
  rw [if_neg hseat]
  by_cases hshell : interface = "wl_shell"
  · exact .inr (.inr (.inl ⟨hshell, if_pos hshell⟩))
  rw [if_neg hshell]
  by_cases hshm : interface = "wl_shm"
  · exact .inr (.inr (.inr (.inl ⟨hshm, if_pos hshm⟩)))
  rw [if_neg hshm]
  exact .inr (.inr (.inr (.inr ⟨by simp [*], rfl⟩)))

theorem toggle_cases (w : World) (d : Device) (caps : BitVec 32) :
    (w.client.mDevice d = none ∧ Advertised caps d ∧ w.toggle d caps =
        { w.create with
          client := { w.client with
            mDevice := Function.update w.client.mDevice d (some ⟨w.nextObject, w.client.mSeat⟩) }
          obtained := Function.update w.obtained d (w.obtained d ++ [w.nextObject]) }) ∨
      ((w.client.mDevice d ≠ none ↔ Advertised caps d) ∧ w.toggle d caps = w) ∨
      ∃ o, w.client.mDevice d = some o ∧ ¬ Advertised caps d ∧ w.toggle d caps =
        { w with
          client := { w.client with mDevice := Function.update w.client.mDevice d none }
          usable := w.usable.filter (fun o' => o' ≠ o.object)
          destroyed := Function.update w.destroyed d (w.destroyed d ++ [o.object]) } := by
  unfold toggle
  by_cases hcaps : Advertised caps d
  · cases hdevice : w.client.mDevice d with
    | none => exact .inl ⟨rfl, hcaps, if_pos hcaps⟩
    | some o => exact .inr (.inl ⟨iff_of_true (by simp) hcaps, if_pos hcaps⟩)
  · cases hdevice : w.client.mDevice d with
    | none => exact .inr (.inl ⟨iff_of_false (by simp) hcaps, if_neg hcaps⟩)
    | some o => exact .inr (.inr ⟨o, rfl, hcaps, if_neg hcaps⟩)

/-! ### What the handlers leave alone -/

/-- The fields that no handler changes. -/
structure SameConnection (w w' : World) : Prop where
  display : w'.client.mDisplay = w.client.mDisplay
  eventQueue : w'.client.mEventQueue = w.client.mEventQueue
  queues : w'.queues = w.queues
  uses : w'.uses = w.uses

theorem SameConnection.refl (w : World) : SameConnection w w := ⟨rfl, rfl, rfl, rfl⟩

theorem SameConnection.trans {w w' w'' : World} (h : SameConnection w w')
    (h' : SameConnection w' w'') : SameConnection w w'' :=
  ⟨h'.display.trans h.display, h'.eventQueue.trans h.eventQueue, h'.queues.trans h.queues,
    h'.uses.trans h.uses⟩

theorem sameConnection_loadCursor (w : World) (theme cursor : Bool) :
    SameConnection w (w.loadCursor theme cursor) := by
  obtain ⟨_, _, _, _, -, hloaded⟩ := loadCursor_eq w theme cursor
  rw [hloaded]
  exact ⟨rfl, rfl, rfl, rfl⟩

theorem sameConnection_handleRegistry (w : World) (interface : String) (theme cursor : Bool) :
    SameConnection w (w.handleRegistry interface theme cursor) := by
  rcases handleRegistry_cases w interface theme cursor with
    ⟨-, h⟩ | ⟨-, h⟩ | ⟨-, h⟩ | ⟨-, h⟩ | ⟨-, h⟩
  · rw [h]
    exact ⟨rfl, rfl, rfl, rfl⟩
  · rw [h]
    exact ⟨rfl, rfl, rfl, rfl⟩
  · rw [h]
    exact ⟨rfl, rfl, rfl, rfl⟩
  · rw [h]
    refine SameConnection.trans ?_ (sameConnection_loadCursor _ theme cursor)
    exact ⟨rfl, rfl, rfl, rfl⟩
  · rw [h]
    exact SameConnection.refl w

theorem sameConnection_toggle (w : World) (d : Device) (caps : BitVec 32) :
    SameConnection w (w.toggle d caps) := by
  rcases toggle_cases w d caps with ⟨-, -, h⟩ | ⟨-, h⟩ | ⟨o, -, -, h⟩
  · rw [h]
    exact ⟨rfl, rfl, rfl, rfl⟩
  · rw [h]
    exact SameConnection.refl w
  · rw [h]
    exact ⟨rfl, rfl, rfl, rfl⟩

theorem sameConnection_receive (w : World) (message : Message) :
    SameConnection w (w.receive message) := by
  cases message with
  | global interface theme cursor => exact sameConnection_handleRegistry w interface theme cursor
  | globalRemove => exact SameConnection.refl w
  | capabilities seat caps =>
    rw [receive]
    split
    · have htold : SameConnection w { w with seats := told w.seats seat caps } :=
        ⟨rfl, rfl, rfl, rfl⟩
      exact ((htold.trans (sameConnection_toggle _ _ _)).trans (sameConnection_toggle _ _ _)).trans
        (sameConnection_toggle _ _ _)
    · exact SameConnection.refl w

theorem sameConnection_run (w : World) (messages : List Message) :
    SameConnection w (run receive w messages) :=
  run_invariant_always receive (SameConnection w)
    (fun w' message h => h.trans (sameConnection_receive w' message)) w messages
    (SameConnection.refl w)

end Shashlik.WaylandClient
