import Shashlik.WaylandDevices

set_option autoImplicit false

/-!
# The input devices of the seats

The client keeps one seat, the one announced last, and one pointer, keyboard and touch. Every
seat reports what it has, and each report is taken for the whole truth.
-/
namespace Shashlik.WaylandClient
open SystemRuns World

def Seat.Advertises (s : Seat) (d : Device) : Prop := ∃ caps, s.caps = some caps ∧ Advertised caps d

/-- The device is there exactly if a seat advertises it, and it is the device of such a seat. -/
structure Mirrors (w : World) (d : Device) : Prop where
  present : w.client.mDevice d ≠ none ↔ ∃ s ∈ w.seats, s.Advertises d
  source : ∀ o, w.client.mDevice d = some o →
    ∃ s ∈ w.seats, o.seat = some s.object ∧ s.Advertises d

/-- All devices that were obtained but the one in use were destroyed, in order, each once. -/
structure DestroyedOnce (w : World) (d : Device) : Prop where
  apart : (w.obtained d).Nodup
  inOrder : w.obtained d =
    w.destroyed d ++ (w.client.mDevice d).toList.map DeviceObject.object

def SeatsMirrored (w : World) : Prop := ∀ d, Mirrors w d ∧ DestroyedOnce w d

def IsLast (w : World) (seat : Object) : Prop :=
  w.seats.getLast?.map Seat.object = some seat

/-- A seat that advertises what no seat did before is the last one announced, and one that does
    not advertise a device is the only one that did. -/
def SeatOrderly (w : World) : Message → Prop
  | .capabilities seat caps => (∃ s ∈ w.seats, s.object = seat) → ∀ d,
      (Advertised caps d → (∀ s ∈ w.seats, ¬ s.Advertises d) → IsLast w seat) ∧
        (¬ Advertised caps d → ∀ s ∈ w.seats, s.object ≠ seat → ¬ s.Advertises d)
  | _ => True

/-! ### What is known of the seats -/

structure SeatsKnown (w : World) : Prop where
  last : w.client.mSeat = w.seats.getLast?.map Seat.object
  made : ∀ d, ∀ o ∈ w.obtained d, o < w.nextObject
  once : ∀ d, DestroyedOnce w d

theorem mem_told {seats : List Seat} {seat : Object} {caps : BitVec 32} {s : Seat} :
    s ∈ told seats seat caps ↔
      ((∃ s' ∈ seats, s'.object = seat) ∧ s = ⟨seat, some caps⟩) ∨
        (s ∈ seats ∧ s.object ≠ seat) := by
  rw [told, List.mem_map]
  constructor
  · rintro ⟨s', hs', rfl⟩
    by_cases hseat : s'.object = seat
    · rw [if_pos hseat]
      exact .inl ⟨⟨s', hs', hseat⟩, by rw [hseat]⟩
    · rw [if_neg hseat]
      exact .inr ⟨hs', hseat⟩
  · rintro (⟨⟨s', hs', hseat⟩, rfl⟩ | ⟨hs, hseat⟩)
    · exact ⟨s', hs', by rw [if_pos hseat, hseat]⟩
    · exact ⟨s, hs, if_neg hseat⟩

theorem getLast?_told (seats : List Seat) (seat : Object) (caps : BitVec 32) :
    (told seats seat caps).getLast?.map Seat.object = seats.getLast?.map Seat.object := by
  rw [told, List.getLast?_map, Option.map_map]
  congr 1
  funext s
  rw [Function.comp_apply]
  split
  · rfl
  · rfl

theorem advertises_self {seat : Object} {caps : BitVec 32} {d : Device} :
    Seat.Advertises ⟨seat, some caps⟩ d ↔ Advertised caps d := by
  constructor
  · rintro ⟨caps', hcaps, hadv⟩
    obtain rfl := Option.some.inj hcaps
    exact hadv
  · exact fun hadv => ⟨caps, rfl, hadv⟩

theorem advertises_told {seats : List Seat} {seat : Object} {caps : BitVec 32} {d : Device}
    (hseat : ∃ s ∈ seats, s.object = seat) :
    (∃ s ∈ told seats seat caps, s.Advertises d) ↔
      Advertised caps d ∨ ∃ s ∈ seats, s.object ≠ seat ∧ s.Advertises d := by
  constructor
  · rintro ⟨s, hs, hadv⟩
    rcases mem_told.mp hs with ⟨-, rfl⟩ | ⟨hmem, hne⟩
    · exact .inl (advertises_self.mp hadv)
    · exact .inr ⟨s, hmem, hne, hadv⟩
  · rintro (hadv | ⟨s, hmem, hne, hadv⟩)
    · exact ⟨⟨seat, some caps⟩, mem_told.mpr (.inl ⟨hseat, rfl⟩), advertises_self.mpr hadv⟩
    · exact ⟨s, mem_told.mpr (.inr ⟨hmem, hne⟩), hadv⟩

/-! ### Each device once -/

theorem DestroyedOnce.same {w w' : World} {d : Device} (h : DestroyedOnce w d)
    (h' : SameDevice w w' d) : DestroyedOnce w' d := by
  constructor
  · rw [h'.obtained]
    exact h.apart
  · rw [h'.obtained, h'.destroyed, h'.device]
    exact h.inOrder

theorem DestroyedOnce.toggled {w w' : World} {d : Device} {caps : BitVec 32}
    (h : DestroyedOnce w d) (hmade : ∀ o ∈ w.obtained d, o < w.nextObject)
    (h' : Toggled w w' d caps) : DestroyedOnce w' d := by
  cases h' with
  | obtained o hnone hcaps hfresh hlt hdevice hobtained hdestroyed =>
    have hnew : ∀ o' ∈ w.obtained d, o' ≠ o := fun o' hmem =>
      Nat.ne_of_lt (Nat.lt_of_lt_of_le (hmade o' hmem) hfresh)
    constructor
    · rw [hobtained, List.nodup_append]
      refine ⟨h.apart, List.pairwise_singleton _ o, fun o' hmem o'' hmem' => ?_⟩
      rw [List.mem_singleton.mp hmem']
      exact hnew o' hmem
    · rw [hobtained, hdestroyed, hdevice, h.inOrder, hnone]
      simp
  | kept hcaps hdevice hobtained hdestroyed hnext =>
    constructor
    · rw [hobtained]
      exact h.apart
    · rw [hobtained, hdestroyed, hdevice]
      exact h.inOrder
  | destroyed o hsome hcaps hdevice hobtained hdestroyed hnext =>
    constructor
    · rw [hobtained]
      exact h.apart
    · rw [hobtained, hdestroyed, hdevice, h.inOrder, hsome]
      simp

theorem Toggled.made {w w' : World} {d : Device} {caps : BitVec 32} (h : Toggled w w' d caps)
    (hmade : ∀ o ∈ w.obtained d, o < w.nextObject) : ∀ o ∈ w'.obtained d, o < w'.nextObject := by
  intro o ho
  cases h with
  | obtained o' hnone hcaps hfresh hlt hdevice hobtained hdestroyed =>
    rw [hobtained, List.mem_append, List.mem_singleton] at ho
    rcases ho with ho | rfl
    · exact Nat.lt_trans (Nat.lt_of_lt_of_le (hmade o ho) hfresh) hlt
    · exact hlt
  | kept hcaps hdevice hobtained hdestroyed hnext =>
    rw [hobtained] at ho
    exact Nat.lt_of_lt_of_le (hmade o ho) hnext
  | destroyed o' hsome hcaps hdevice hobtained hdestroyed hnext =>
    rw [hobtained] at ho
    exact Nat.lt_of_lt_of_le (hmade o ho) hnext

/-! ### One event -/

theorem SeatsKnown.capabilities {w : World} (h : SeatsKnown w) (seat : Object)
    (caps : BitVec 32) :
    SeatsKnown ({ w with seats := told w.seats seat caps }.seatHandleCapabilities caps) := by
  have hsame := sameSeats_capabilities { w with seats := told w.seats seat caps } caps
  have htoggled := fun d => toggled_capabilities { w with seats := told w.seats seat caps } d caps
  refine ⟨?_, fun d => (htoggled d).made (h.made d), fun d => ?_⟩
  · rw [hsame.seat, hsame.seats, getLast?_told]
    exact h.last
  · have honce : DestroyedOnce { w with seats := told w.seats seat caps } d :=
      ⟨(h.once d).apart, (h.once d).inOrder⟩
    exact honce.toggled (h.made d) (htoggled d)

theorem seatsKnown_receive {w : World} (h : SeatsKnown w) (message : Message) :
    SeatsKnown (w.receive message) := by
  cases message with
  | global interface theme cursor =>
    have hsame := sameDevice_handleRegistry w interface theme cursor
    refine ⟨?_, fun d o ho => ?_, fun d => (h.once d).same (hsame d)⟩
    · rcases seats_handleRegistry w interface theme cursor with hseats | ⟨hseat, hseats⟩
      · rw [receive, hseats.seat, hseats.seats]
        exact h.last
      · rw [receive, hseat, hseats, List.getLast?_concat]
        rfl
    · rw [receive, (hsame d).obtained] at ho
      exact Nat.lt_of_lt_of_le (h.made d o ho) (hsame d).nextObject
  | globalRemove => exact h
  | capabilities seat caps =>
    rw [receive]
    split
    · exact h.capabilities seat caps
    · exact h

section Report
variable {w w' : World} {seat : Object} {caps : BitVec 32} {d : Device}

theorem mirrors_obtained (hlast : w.client.mSeat = w.seats.getLast?.map Seat.object)
    (hannounced : ∃ s ∈ w.seats, s.object = seat) (hm : Mirrors w d)
    (hseats : w'.seats = told w.seats seat caps) (hcaps : Advertised caps d)
    (hnone : w.client.mDevice d = none) {o : Object}
    (hdevice : w'.client.mDevice d = some ⟨o, w.client.mSeat⟩) :
    Mirrors w' d ↔ IsLast w seat := by
  have hquiet : ∀ s ∈ w.seats, ¬ s.Advertises d := fun s hs hadv =>
    absurd hnone (hm.present.mpr ⟨s, hs, hadv⟩)
  rw [IsLast, ← hlast]
  constructor
  · intro h
    obtain ⟨s, hs, hsource, hadv⟩ := h.source _ hdevice
    rw [hseats] at hs
    rcases mem_told.mp hs with ⟨-, rfl⟩ | ⟨hmem, -⟩
    · exact hsource
    · exact absurd hadv (hquiet s hmem)
  · intro hseat
    have htold : ⟨seat, some caps⟩ ∈ w'.seats := by
      rw [hseats]
      exact mem_told.mpr (.inl ⟨hannounced, rfl⟩)
    refine ⟨iff_of_true (by simp [hdevice]) ⟨_, htold, advertises_self.mpr hcaps⟩, ?_⟩
    intro o' ho'
    obtain rfl := Option.some.inj (hdevice.symm.trans ho')
    exact ⟨_, htold, hseat, advertises_self.mpr hcaps⟩

theorem mirrors_kept (hannounced : ∃ s ∈ w.seats, s.object = seat) (hm : Mirrors w d)
    (hseats : w'.seats = told w.seats seat caps)
    (hcaps : w.client.mDevice d ≠ none ↔ Advertised caps d)
    (hdevice : w'.client.mDevice d = w.client.mDevice d) : Mirrors w' d := by
  constructor
  · rw [hdevice, hseats, advertises_told hannounced, hcaps]
    refine ⟨.inl, ?_⟩
    rintro (hadv | ⟨s, hmem, -, hadv⟩)
    · exact hadv
    · exact hcaps.mp (hm.present.mpr ⟨s, hmem, hadv⟩)
  · intro o ho
    rw [hdevice] at ho
    have hadv : Advertised caps d := hcaps.mp (by simp [ho])
    obtain ⟨s, hmem, hsource, hs⟩ := hm.source o ho
    by_cases hseat : s.object = seat
    · refine ⟨⟨seat, some caps⟩, ?_, by rw [hsource, hseat], advertises_self.mpr hadv⟩
      rw [hseats]
      exact mem_told.mpr (.inl ⟨hannounced, rfl⟩)
    · refine ⟨s, ?_, hsource, hs⟩
      rw [hseats]
      exact mem_told.mpr (.inr ⟨hmem, hseat⟩)

theorem mirrors_destroyed (hannounced : ∃ s ∈ w.seats, s.object = seat)
    (hseats : w'.seats = told w.seats seat caps) (hcaps : ¬ Advertised caps d)
    (hdevice : w'.client.mDevice d = none) :
    Mirrors w' d ↔ ∀ s ∈ w.seats, s.object ≠ seat → ¬ s.Advertises d := by
  constructor
  · intro h s hmem hne hadv
    have hstill : ∃ s ∈ w'.seats, s.Advertises d := by
      rw [hseats]
      exact (advertises_told hannounced).mpr (.inr ⟨s, hmem, hne, hadv⟩)
    exact h.present.mpr hstill hdevice
  · intro hquiet
    constructor
    · rw [hdevice, hseats, advertises_told hannounced]
      refine iff_of_false (by simp) ?_
      rintro (hadv | ⟨s, hmem, hne, hadv⟩)
      · exact hcaps hadv
      · exact hquiet s hmem hne hadv
    · intro o ho
      rw [hdevice] at ho
      exact absurd ho (by simp)

theorem mirrors_toggled (hlast : w.client.mSeat = w.seats.getLast?.map Seat.object)
    (hannounced : ∃ s ∈ w.seats, s.object = seat) (hm : Mirrors w d)
    (hseats : w'.seats = told w.seats seat caps)
    (h : Toggled { w with seats := told w.seats seat caps } w' d caps) :
    Mirrors w' d ↔
      (Advertised caps d → (∀ s ∈ w.seats, ¬ s.Advertises d) → IsLast w seat) ∧
        (¬ Advertised caps d → ∀ s ∈ w.seats, s.object ≠ seat → ¬ s.Advertises d) := by
  have hquiet : w.client.mDevice d = none → ∀ s ∈ w.seats, ¬ s.Advertises d :=
    fun hnone s hs hadv => absurd hnone (hm.present.mpr ⟨s, hs, hadv⟩)
  cases h with
  | obtained o hnone hcaps hfresh hlt hdevice hobtained hdestroyed =>
    rw [mirrors_obtained hlast hannounced hm hseats hcaps hnone hdevice]
    exact ⟨fun h => ⟨fun _ _ => h, fun hcaps' => absurd hcaps hcaps'⟩,
      fun h => h.1 hcaps (hquiet hnone)⟩
  | kept hcaps hdevice hobtained hdestroyed hnext =>
    refine iff_of_true (mirrors_kept hannounced hm hseats hcaps hdevice) ⟨?_, ?_⟩
    · intro hadv hnobody
      obtain ⟨s, hs, hs'⟩ := hm.present.mp (hcaps.mpr hadv)
      exact absurd hs' (hnobody s hs)
    · intro hadv s hs _
      have hnone : w.client.mDevice d = none := by
        by_contra hsome
        exact hadv (hcaps.mp hsome)
      exact hquiet hnone s hs
  | destroyed o hsome hcaps hdevice hobtained hdestroyed hnext =>
    rw [mirrors_destroyed hannounced hseats hcaps hdevice]
    exact ⟨fun h => ⟨fun hcaps' => absurd hcaps' hcaps, fun _ => h⟩, fun h => h.2 hcaps⟩

theorem mirrors_handleRegistry (h : Mirrors w d) (interface : String) (theme cursor : Bool) :
    Mirrors (w.handleRegistry interface theme cursor) d := by
  have hdevice := (sameDevice_handleRegistry w interface theme cursor d).device
  rcases seats_handleRegistry w interface theme cursor with hsame | ⟨-, hseats⟩
  · constructor
    · rw [hdevice, hsame.seats]
      exact h.present
    · rw [hdevice, hsame.seats]
      exact h.source
  · have hnew : ¬ Seat.Advertises ⟨w.nextObject, none⟩ d := fun ⟨_, hcaps, _⟩ =>
      absurd hcaps (by simp)
    constructor
    · rw [hdevice, hseats, h.present]
      constructor
      · rintro ⟨s, hs, hadv⟩
        exact ⟨s, List.mem_append_left _ hs, hadv⟩
      · rintro ⟨s, hs, hadv⟩
        rw [List.mem_append, List.mem_singleton] at hs
        rcases hs with hs | rfl
        · exact ⟨s, hs, hadv⟩
        · exact absurd hadv hnew
    · intro o ho
      rw [hdevice] at ho
      obtain ⟨s, hs, hsource⟩ := h.source o ho
      rw [hseats]
      exact ⟨s, List.mem_append_left _ hs, hsource⟩

end Report

theorem seatsMirrored_receive {w : World} (h : SeatsKnown w) (hm : SeatsMirrored w)
    (message : Message) : SeatsMirrored (w.receive message) ↔ SeatOrderly w message := by
  have honce := (seatsKnown_receive h message).once
  rw [SeatsMirrored, forall_congr' fun d => and_iff_left (honce d)]
  cases message with
  | global interface theme cursor =>
    exact iff_of_true (fun d => mirrors_handleRegistry (hm d).1 interface theme cursor) trivial
  | globalRemove => exact iff_of_true (fun d => (hm d).1) trivial
  | capabilities seat caps =>
    rw [receive, SeatOrderly]
    split
    · rename_i hannounced
      rw [imp_iff_right hannounced]
      refine forall_congr' fun d => ?_
      exact mirrors_toggled h.last hannounced (hm d).1 (sameSeats_capabilities _ caps).seats
        (toggled_capabilities _ d caps)
    · rename_i hannounced
      exact iff_of_true (fun d => (hm d).1) (fun h => absurd h hannounced)

/-! ### The runs of a connection -/

def registered (uninitialised : Option Object) : World :=
  let w := (initial uninitialised).create
  { w.create with client := { (initial uninitialised).client with
      mDisplay := some (initial uninitialised).nextObject
      mRegistry := some w.nextObject } }

theorem connect_initial (uninitialised : Option Object) (delivery : List Message) :
    let w := run receive (registered uninitialised) delivery
    (initial uninitialised).connect true delivery =
      { w.create with
        client := { w.client with mEventQueue := some w.nextObject }
        queues := (w.nextObject, (initial uninitialised).nextObject) :: w.queues } := rfl

theorem seatsKnown_registered (uninitialised : Option Object) :
    SeatsKnown (registered uninitialised) :=
  ⟨rfl, fun _ _ ho => absurd ho List.not_mem_nil, fun _ => ⟨List.Pairwise.nil, rfl⟩⟩

theorem seatsMirrored_registered (uninitialised : Option Object) :
    SeatsMirrored (registered uninitialised) := by
  intro d
  refine ⟨⟨iff_of_false (by simp [registered, initial, create]) ?_, ?_⟩,
    (seatsKnown_registered uninitialised).once d⟩
  · rintro ⟨s, hs, -⟩
    exact absurd hs List.not_mem_nil
  · intro o ho
    exact absurd ho (by simp [registered, initial, create])

theorem seatsKnown_connect (uninitialised : Option Object) (delivery : List Message) :
    SeatsKnown ((initial uninitialised).connect true delivery) := by
  have h : SeatsKnown (run receive (registered uninitialised) delivery) :=
    run_invariant_always receive SeatsKnown (fun _ message h => seatsKnown_receive h message) _
      delivery (seatsKnown_registered uninitialised)
  rw [connect_initial]
  refine ⟨h.last, fun d o ho => Nat.lt_succ_of_lt (h.made d o ho), fun d => ?_⟩
  exact ⟨(h.once d).apart, (h.once d).inOrder⟩

theorem seatsMirrored_connect {uninitialised : Option Object} {delivery : List Message}
    (h : SeatsMirrored (run receive (registered uninitialised) delivery)) :
    SeatsMirrored ((initial uninitialised).connect true delivery) := by
  rw [connect_initial]
  intro d
  obtain ⟨hm, honce⟩ := h d
  exact ⟨⟨hm.present, hm.source⟩, honce.apart, honce.inOrder⟩

theorem seats_mirrored_always {w : World} (h : SeatsKnown w) (hm : SeatsMirrored w)
    (messages : List Message) :
    (∀ ms, ms <+: messages → SeatsMirrored (run receive w ms)) ↔
      Along receive SeatOrderly w messages :=
  always_iff_along receive SeatsKnown SeatsMirrored SeatOrderly
    (fun _ message h _ _ => seatsKnown_receive h message)
    (fun _ message h hm => seatsMirrored_receive h hm message) w messages h hm

/-- After every message, of the first delivery and of all later ones, the devices mirror the
    seats exactly if every report was orderly. -/
theorem devices_mirrored_iff (uninitialised : Option Object) (delivery later : List Message) :
    ((∀ ms, ms <+: delivery → SeatsMirrored (run receive (registered uninitialised) ms)) ∧
        ∀ ms, ms <+: later →
          SeatsMirrored (run receive ((initial uninitialised).connect true delivery) ms)) ↔
      Along receive SeatOrderly (registered uninitialised) delivery ∧
        Along receive SeatOrderly ((initial uninitialised).connect true delivery) later := by
  rw [← seats_mirrored_always (seatsKnown_registered uninitialised)
    (seatsMirrored_registered uninitialised) delivery]
  refine and_congr_right fun hdelivery => ?_
  exact seats_mirrored_always (seatsKnown_connect uninitialised delivery)
    (seatsMirrored_connect (hdelivery delivery List.prefix_rfl)) later

def twoSeats : List Message := [.global "wl_seat" true true, .global "wl_seat" true true]

def onePointer : List Message := [.capabilities 2 1, .capabilities 3 0]

theorem pointer_of_wrong_seat :
    (run receive ((initial none).connect true twoSeats)
        (onePointer.take 1)).client.mDevice .pointer = some ⟨5, some 3⟩ ∧
      (run receive ((initial none).connect true twoSeats) onePointer).client.mDevice .pointer =
        none ∧
      ¬ SeatsMirrored (run receive ((initial none).connect true twoSeats)
        (onePointer.take 1)) ∧
      ¬ SeatsMirrored (run receive ((initial none).connect true twoSeats) onePointer) := by
  refine ⟨rfl, rfl, fun h => ?_, fun h => ?_⟩
  · obtain ⟨s, hs, hsource, caps, hcaps, -⟩ := (h .pointer).1.source ⟨5, some 3⟩ rfl
    change s ∈ [⟨2, some 1⟩, ⟨3, none⟩] at hs
    simp only [List.mem_cons, List.not_mem_nil, or_false] at hs
    rcases hs with rfl | rfl
    · exact absurd hsource (by decide)
    · exact absurd hcaps (by simp)
  · have hfirst : Seat.Advertises ⟨2, some 1⟩ .pointer := ⟨1, rfl, by decide⟩
    exact (h .pointer).1.present.mpr ⟨⟨2, some 1⟩, List.mem_cons_self, hfirst⟩ rfl

end Shashlik.WaylandClient
