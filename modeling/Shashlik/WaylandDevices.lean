import Shashlik.WaylandClient

set_option autoImplicit false

/-!
# What the handlers do to the input devices

A capability event obtains a device, keeps what is there, or destroys it; a registry event
leaves the devices alone, and may announce a seat.
-/
namespace Shashlik.WaylandClient
open World

/-! ### The three devices -/

inductive Toggled (w w' : World) (d : Device) (caps : BitVec 32) : Prop where
  | obtained (o : Object) (hnone : w.client.mDevice d = none) (hcaps : Advertised caps d)
      (hfresh : w.nextObject ≤ o) (hlt : o < w'.nextObject)
      (hdevice : w'.client.mDevice d = some ⟨o, w.client.mSeat⟩)
      (hobtained : w'.obtained d = w.obtained d ++ [o])
      (hdestroyed : w'.destroyed d = w.destroyed d)
  | kept (hcaps : w.client.mDevice d ≠ none ↔ Advertised caps d)
      (hdevice : w'.client.mDevice d = w.client.mDevice d)
      (hobtained : w'.obtained d = w.obtained d)
      (hdestroyed : w'.destroyed d = w.destroyed d) (hnext : w.nextObject ≤ w'.nextObject)
  | destroyed (o : DeviceObject) (hsome : w.client.mDevice d = some o)
      (hcaps : ¬ Advertised caps d) (hdevice : w'.client.mDevice d = none)
      (hobtained : w'.obtained d = w.obtained d)
      (hdestroyed : w'.destroyed d = w.destroyed d ++ [o.object])
      (hnext : w.nextObject ≤ w'.nextObject)

/-- What an event leaves alone, of the seats and of a device. -/
structure SameSeats (w w' : World) : Prop where
  seat : w'.client.mSeat = w.client.mSeat
  seats : w'.seats = w.seats

structure SameDevice (w w' : World) (d : Device) : Prop where
  device : w'.client.mDevice d = w.client.mDevice d
  obtained : w'.obtained d = w.obtained d
  destroyed : w'.destroyed d = w.destroyed d
  nextObject : w.nextObject ≤ w'.nextObject

theorem SameSeats.trans {w w' w'' : World} (h : SameSeats w w') (h' : SameSeats w' w'') :
    SameSeats w w'' :=
  ⟨h'.seat.trans h.seat, h'.seats.trans h.seats⟩

theorem SameDevice.trans {w w' w'' : World} {d : Device} (h : SameDevice w w' d)
    (h' : SameDevice w' w'' d) : SameDevice w w'' d :=
  ⟨h'.device.trans h.device, h'.obtained.trans h.obtained, h'.destroyed.trans h.destroyed,
    Nat.le_trans h.nextObject h'.nextObject⟩

theorem Toggled.after {w w' w'' : World} {d : Device} {caps : BitVec 32} (hs : SameSeats w w')
    (h : SameDevice w w' d) (h' : Toggled w' w'' d caps) : Toggled w w'' d caps := by
  cases h' with
  | obtained o hnone hcaps hfresh hlt hdevice hobtained hdestroyed =>
    refine .obtained o (h.device ▸ hnone) hcaps (Nat.le_trans h.nextObject hfresh) hlt ?_ ?_ ?_
    · rw [hdevice, hs.seat]
    · rw [hobtained, h.obtained]
    · rw [hdestroyed, h.destroyed]
  | kept hcaps hdevice hobtained hdestroyed hnext =>
    exact .kept (h.device ▸ hcaps) (hdevice.trans h.device) (hobtained.trans h.obtained)
      (hdestroyed.trans h.destroyed) (Nat.le_trans h.nextObject hnext)
  | destroyed o hsome hcaps hdevice hobtained hdestroyed hnext =>
    exact .destroyed o (h.device ▸ hsome) hcaps hdevice (hobtained.trans h.obtained)
      (hdestroyed.trans (by rw [h.destroyed])) (Nat.le_trans h.nextObject hnext)

theorem Toggled.before {w w' w'' : World} {d : Device} {caps : BitVec 32}
    (h : Toggled w w' d caps) (h' : SameDevice w' w'' d) : Toggled w w'' d caps := by
  cases h with
  | obtained o hnone hcaps hfresh hlt hdevice hobtained hdestroyed =>
    exact .obtained o hnone hcaps hfresh (Nat.lt_of_lt_of_le hlt h'.nextObject)
      (h'.device.trans hdevice) (h'.obtained.trans hobtained) (h'.destroyed.trans hdestroyed)
  | kept hcaps hdevice hobtained hdestroyed hnext =>
    exact .kept hcaps (h'.device.trans hdevice) (h'.obtained.trans hobtained)
      (h'.destroyed.trans hdestroyed) (Nat.le_trans hnext h'.nextObject)
  | destroyed o hsome hcaps hdevice hobtained hdestroyed hnext =>
    exact .destroyed o hsome hcaps (h'.device.trans hdevice) (h'.obtained.trans hobtained)
      (h'.destroyed.trans hdestroyed) (Nat.le_trans hnext h'.nextObject)

theorem toggled_toggle (w : World) (d : Device) (caps : BitVec 32) :
    Toggled w (w.toggle d caps) d caps := by
  rcases toggle_cases w d caps with ⟨hnone, hcaps, h⟩ | ⟨hcaps, h⟩ | ⟨o, hsome, hcaps, h⟩
  · rw [h]
    exact .obtained w.nextObject hnone hcaps (Nat.le_refl _) (Nat.lt_succ_self _)
      (Function.update_self _ _ _) (Function.update_self _ _ _) rfl
  · rw [h]
    exact .kept hcaps rfl rfl rfl (Nat.le_refl _)
  · rw [h]
    exact .destroyed o hsome hcaps (Function.update_self _ _ _) rfl (Function.update_self _ _ _)
      (Nat.le_refl _)

theorem sameSeats_toggle (w : World) (d : Device) (caps : BitVec 32) :
    SameSeats w (w.toggle d caps) := by
  rcases toggle_cases w d caps with ⟨-, -, h⟩ | ⟨-, h⟩ | ⟨o, -, -, h⟩
  · rw [h]
    exact ⟨rfl, rfl⟩
  · rw [h]
    exact ⟨rfl, rfl⟩
  · rw [h]
    exact ⟨rfl, rfl⟩

theorem sameDevice_toggle (w : World) {d d' : Device} (hne : d' ≠ d) (caps : BitVec 32) :
    SameDevice w (w.toggle d caps) d' := by
  rcases toggle_cases w d caps with ⟨-, -, h⟩ | ⟨-, h⟩ | ⟨o, -, -, h⟩
  · rw [h]
    exact ⟨Function.update_of_ne hne _ _, Function.update_of_ne hne _ _, rfl, Nat.le_succ _⟩
  · rw [h]
    exact ⟨rfl, rfl, rfl, Nat.le_refl _⟩
  · rw [h]
    exact ⟨Function.update_of_ne hne _ _, rfl, Function.update_of_ne hne _ _, Nat.le_refl _⟩

theorem sameSeats_capabilities (w : World) (caps : BitVec 32) :
    SameSeats w (w.seatHandleCapabilities caps) :=
  ((sameSeats_toggle w .pointer caps).trans (sameSeats_toggle _ .keyboard caps)).trans
    (sameSeats_toggle _ .touch caps)

theorem toggled_capabilities (w : World) (d : Device) (caps : BitVec 32) :
    Toggled w (w.seatHandleCapabilities caps) d caps := by
  have hseats := (sameSeats_toggle w .pointer caps).trans (sameSeats_toggle _ .keyboard caps)
  cases d with
  | pointer =>
    exact ((toggled_toggle w .pointer caps).before
      (sameDevice_toggle _ (by decide) caps)).before (sameDevice_toggle _ (by decide) caps)
  | keyboard =>
    exact (Toggled.after (sameSeats_toggle w .pointer caps) (sameDevice_toggle w (by decide) caps)
      (toggled_toggle _ .keyboard caps)).before (sameDevice_toggle _ (by decide) caps)
  | touch =>
    exact Toggled.after hseats ((sameDevice_toggle w (by decide) caps).trans
      (sameDevice_toggle _ (by decide) caps)) (toggled_toggle _ .touch caps)

/-! ### The registry -/

theorem sameSeats_loadCursor (w : World) (theme cursor : Bool) :
    SameSeats w (w.loadCursor theme cursor) := by
  obtain ⟨_, _, _, _, -, hloaded⟩ := loadCursor_eq w theme cursor
  rw [hloaded]
  exact ⟨rfl, rfl⟩

theorem sameDevice_loadCursor (w : World) (theme cursor : Bool) (d : Device) :
    SameDevice w (w.loadCursor theme cursor) d := by
  obtain ⟨_, _, _, _, hnext, hloaded⟩ := loadCursor_eq w theme cursor
  rw [hloaded]
  exact ⟨rfl, rfl, rfl, hnext⟩

theorem sameDevice_handleRegistry (w : World) (interface : String) (theme cursor : Bool)
    (d : Device) : SameDevice w (w.handleRegistry interface theme cursor) d := by
  rcases handleRegistry_cases w interface theme cursor with
    ⟨-, h⟩ | ⟨-, h⟩ | ⟨-, h⟩ | ⟨-, h⟩ | ⟨-, h⟩
  · rw [h]
    exact ⟨rfl, rfl, rfl, Nat.le_succ _⟩
  · rw [h]
    exact ⟨rfl, rfl, rfl, Nat.le_succ _⟩
  · rw [h]
    exact ⟨rfl, rfl, rfl, Nat.le_succ _⟩
  · rw [h]
    refine SameDevice.trans ?_ (sameDevice_loadCursor _ theme cursor d)
    exact ⟨rfl, rfl, rfl, Nat.le_succ _⟩
  · rw [h]
    exact ⟨rfl, rfl, rfl, Nat.le_refl _⟩

theorem seats_handleRegistry (w : World) (interface : String) (theme cursor : Bool) :
    SameSeats w (w.handleRegistry interface theme cursor) ∨
      ((w.handleRegistry interface theme cursor).client.mSeat = some w.nextObject ∧
        (w.handleRegistry interface theme cursor).seats = w.seats ++ [⟨w.nextObject, none⟩]) := by
  rcases handleRegistry_cases w interface theme cursor with
    ⟨-, h⟩ | ⟨-, h⟩ | ⟨-, h⟩ | ⟨-, h⟩ | ⟨-, h⟩
  · rw [h]
    exact .inl ⟨rfl, rfl⟩
  · rw [h]
    exact .inr ⟨rfl, rfl⟩
  · rw [h]
    exact .inl ⟨rfl, rfl⟩
  · rw [h]
    refine .inl (SameSeats.trans ?_ (sameSeats_loadCursor _ theme cursor))
    exact ⟨rfl, rfl⟩
  · rw [h]
    exact .inl ⟨rfl, rfl⟩

end Shashlik.WaylandClient
