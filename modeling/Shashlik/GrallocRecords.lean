import Shashlik.GrallocFrees

set_option autoImplicit false

/-!
# The record of what is on screen

`currentBuffer` and `info.yoffset` describe the buffer that was posted last. A post writes the
second before the driver has answered, and the driver may answer with another row. A free looks
at neither, but no buffer on screen survives a free: the process ends in it.
-/
namespace Shashlik.GrallocRecords
open SystemRuns Gralloc Gralloc.World GrallocGeometry GrallocFramebuffer GrallocEffects
  GrallocRuns GrallocFrees

/-- `currentBuffer` is a live buffer, and `yoffset` its first row. -/
def RecordTrue (s : State) : Prop :=
  ∀ hnd, s.world.module.currentBuffer = some hnd →
    (∃ b ∈ s.live, s.posted = some b.serial ∧ b.handle = hnd) ∧
      s.world.module.info.yoffset.toNat * s.world.module.finfo.lineLength.toNat =
        hnd.offset.toNat

/-- What the post of a slot asks for: the row in which the slot starts. -/
def request (m : PrivateModule) (hnd : PrivateHandle) : VarScreeninfo :=
  { m.info with yoffset := hnd.offset / m.finfo.lineLength }

/-- What the post of a slot leaves in the record: a request that is granted comes back with the
    row of the slot, and one that fails was for the row on screen. -/
def RowKept (m : PrivateModule) (hnd : PrivateHandle)
    (putVscreeninfo : VarScreeninfo → Answer VarScreeninfo) : Prop :=
  match putVscreeninfo (request m hnd) with
  | .ok granted => granted.yoffset.toNat * m.finfo.lineLength.toNat = hnd.offset.toNat
  | .error _ => ∀ current, m.currentBuffer = some current →
      (request m hnd).yoffset.toNat * m.finfo.lineLength.toNat = current.offset.toNat

/-- A post of a slot, while there is a process, keeps the row. -/
def RecordKept (s : State) : Event → Prop
  | .post i putVscreeninfo => s.world.faults = [] → ∀ b, s.live[i]? = some b →
      IsSlotHandle b.handle → s.world.module.finfo.lineLength ≠ 0 →
        RowKept s.world.module b.handle putVscreeninfo
  | _ => True

/-- Only slots are recorded as being on screen. -/
def CurrentIsSlot (s : State) : Prop :=
  ∀ hnd, s.world.module.currentBuffer = some hnd → IsSlotHandle hnd

theorem recordTrue_start (w : World) : RecordTrue (start w) := by
  intro hnd hcurrent
  simp [start, loadModule] at hcurrent

/-! ### Allocations -/

/-- What the record consists of. The first initialisation changes the row, but then there is
    nothing on screen. -/
structure SameRecord (m m' : PrivateModule) : Prop where
  currentBuffer : m'.currentBuffer = m.currentBuffer
  row : m.framebuffer ≠ none → m'.info.yoffset = m.info.yoffset ∧ m'.finfo = m.finfo

theorem SameRecord.of_eq {m m' : PrivateModule} (h : m' = m) : SameRecord m m' := by
  rw [h]
  exact ⟨rfl, fun _ => ⟨rfl, rfl⟩⟩

theorem sameRecord_initialises {w w' : World} {a : FramebufferAnswers} {code : Option ℤ}
    (hnone : w.module.framebuffer = none) (h : Initialises w a code w') :
    SameRecord w.module w'.module := by
  cases h with
  | absent code w' _ hmodule _ _ _ _ => exact .of_eq hmodule
  | divided w' framebuffer flags info finfo _ _ hmodule _ _ _ _ _ =>
    rw [hmodule]
    exact ⟨rfl, fun hsome => absurd hnone hsome⟩
  | unmapped e w' framebuffer flags info finfo _ _ hmodule _ _ _ _ _ =>
    rw [hmodule]
    exact ⟨rfl, fun hsome => absurd hnone hsome⟩
  | mapped w' framebuffer flags info finfo start fd _ _ hmodule _ _ _ _ _ _ _ _ _ _ _ _ _ _ =>
    rw [hmodule]
    exact ⟨rfl, fun hsome => absurd hnone hsome⟩

theorem sameRecord_allocates {w w' : World} {a : Answers} {width height : BitVec 32}
    {format : PixelFormat} {usage : BitVec 32} {pHandle pStride : Bool} {r : Outcome}
    (h : Allocates w a width height format usage pHandle pStride r w') :
    SameRecord w.module w'.module := by
  obtain ⟨-, mask, hmodule⟩ | ⟨⟨-, -, hnone⟩, mask, hmodule⟩ := allocates_module h
  · rw [hmodule]
    exact ⟨rfl, fun _ => ⟨rfl, rfl⟩⟩
  · have hinit := sameRecord_initialises hnone
      (mapFrameBufferLocked_initialises w a.framebuffer hnone)
    rw [hmodule]
    exact ⟨hinit.currentBuffer, fun hsome => absurd hnone hsome⟩

theorem RecordTrue.stays {s s' : State} (h : RecordTrue s) (consistent : Consistent s)
    (same : SameRecord s.world.module s'.world.module) (live : ∀ b ∈ s.live, b ∈ s'.live)
    (posted : s'.posted = s.posted) : RecordTrue s' := by
  intro hnd hcurrent
  have hcurrent' := same.currentBuffer.symm.trans hcurrent
  have hsome : s.world.module.framebuffer ≠ none := by
    intro hnone
    rw [(consistent.absent hnone).currentBuffer] at hcurrent'
    exact absurd hcurrent' (by simp)
  obtain ⟨⟨b, hb, hposted, hhandle⟩, hrow⟩ := h hnd hcurrent'
  obtain ⟨hyoffset, hfinfo⟩ := same.row hsome
  rw [hyoffset, hfinfo]
  exact ⟨⟨b, live b hb, posted.trans hposted, hhandle⟩, hrow⟩

/-! ### Frees -/

theorem recordTrue_free {s : State} (h : RecordTrue s) (consistent : Consistent s) {i : ℕ}
    {b : Buffer} (hi : s.live[i]? = some b) {w' : World} (frees : Frees s.world b.handle w') :
    RecordTrue { s with world := w', live := s.live.eraseIdx i } ↔
      (s.world.module.currentBuffer ≠ none → s.posted ≠ some b.serial) := by
  obtain ⟨kept, hmodule⟩ := frees.module
  rw [RecordTrue, hmodule]
  constructor
  · intro hrecord hsome hposted
    obtain ⟨hnd, hcurrent⟩ := Option.ne_none_iff_exists'.mp hsome
    obtain ⟨⟨b', hb', hposted', -⟩, -⟩ := hrecord hnd hcurrent
    have hapart := mem_eraseIdx_apart consistent.apart hi b' hb'
    exact hapart.serial (Option.some.inj (hposted.symm.trans hposted'))
  · intro hother hnd hcurrent
    obtain ⟨⟨b', hb', hposted, hhandle⟩, hrow⟩ := h hnd hcurrent
    have hne : s.live[i]? ≠ some b' := by
      intro hi'
      obtain rfl := Option.some.inj (hi.symm.trans hi')
      exact hother (by rw [hcurrent]; simp) hposted
    obtain ⟨j, hj⟩ := List.getElem?_of_mem hb'
    have hij : j ≠ i := by
      rintro rfl
      exact hne hj
    exact ⟨⟨b', List.mem_eraseIdx_iff_getElem?.mpr ⟨j, hij, hj⟩, hposted, hhandle⟩, hrow⟩

theorem current_not_freed {s : State} (h : RecordTrue s) (consistent : Consistent s)
    (slots : CurrentIsSlot s) {i : ℕ} {b : Buffer} (hi : s.live[i]? = some b)
    (hsome : s.world.module.currentBuffer ≠ none) (hposted : s.posted = some b.serial) :
    (grallocFree s.world (some b.handle)).2.faults ≠ [] := by
  obtain ⟨hnd, hcurrent⟩ := Option.ne_none_iff_exists'.mp hsome
  obtain ⟨⟨b', hb', hposted', rfl⟩, -⟩ := h hnd hcurrent
  obtain ⟨j, hj⟩ := List.getElem?_of_mem hb'
  have hij : j = i := by
    by_contra hne
    have hmem := List.mem_eraseIdx_iff_getElem?.mpr ⟨j, hne, hj⟩
    have hapart := (mem_eraseIdx_apart consistent.apart hi b' hmem).serial
    exact hapart (Option.some.inj (hposted.symm.trans hposted'))
  obtain rfl : b = b' := Option.some.inj (hi.symm.trans (hij ▸ hj))
  have hpresent := consistent.present b hb'
  have hscreen : ForScreen b.usage := by
    by_contra hclient
    exact (hpresent.shared hclient).1 (slots b.handle hcurrent)
  have hfaults := grallocFree_nullPool (w := s.world) hpresent.magic (hpresent.screen hscreen)
  intro hnil
  rw [hnil] at hfaults
  exact absurd hfaults (Nat.not_lt_zero _)

/-! ### Posts -/

theorem panned_eq_request {s : State} (consistent : Consistent s) {b : Buffer} (hb : b ∈ s.live)
    (hslot : IsSlotHandle b.handle) {framebuffer : PrivateHandle}
    (hpublished : s.world.module.framebuffer = some framebuffer) :
    (panned s.world.module (panRow s.world.module framebuffer b.handle)).info =
      request s.world.module b.handle := by
  have hrow : panRow s.world.module framebuffer b.handle =
      b.handle.offset / s.world.module.finfo.lineLength := by
    apply BitVec.eq_of_toNat_eq
    rw [panRow_toNat consistent hb hslot hpublished, BitVec.toNat_udiv]
  rw [panned, hrow]
  rfl

theorem recordTrue_post {s : State} (h : RecordTrue s) (consistent : Consistent s) {i : ℕ}
    {b : Buffer} (hi : s.live[i]? = some b)
    {putVscreeninfo : VarScreeninfo → Answer VarScreeninfo} {r : ℤ × Option Display × World}
    (posts : Posts s.world b.handle putVscreeninfo r) :
    RecordTrue { s with
      world := r.2.2
      posted := if setsCurrent r.1 r.2.1 then some b.serial else s.posted } ↔
    (IsSlotHandle b.handle → s.world.module.finfo.lineLength ≠ 0 →
      RowKept s.world.module b.handle putVscreeninfo) := by
  have hb : b ∈ s.live := List.mem_of_getElem? hi
  have hrequired (hslot : IsSlotHandle b.handle) (hline : s.world.module.finfo.lineLength ≠ 0) :
      (IsSlotHandle b.handle → s.world.module.finfo.lineLength ≠ 0 →
        RowKept s.world.module b.handle putVscreeninfo) ↔
          RowKept s.world.module b.handle putVscreeninfo :=
    ⟨fun hkept => hkept hslot hline, fun hkept _ _ => hkept⟩
  cases posts with
  | lost hnone =>
    refine iff_of_true h fun hslot => ?_
    have hclient : ForScreen b.usage := by
      by_contra hclient
      exact ((consistent.present b hb).shared hclient).1 hslot
    exact absurd hclient ((consistent.absent hnone).live b hb)
  | divided framebuffer hpublished _ hline =>
    exact iff_of_true h fun _ hne => absurd hline hne
  | refused e framebuffer hpublished hslot hline hanswer =>
    have hrequest := panned_eq_request consistent hb hslot hpublished
    have hfailed : setsCurrent (-(e : ℤ))
        (some (.pan (panRow s.world.module framebuffer b.handle))) = false := by
      have hpos := e.pos
      exact decide_eq_false (by omega)
    have hyoffset : (panned s.world.module
        (panRow s.world.module framebuffer b.handle)).info.yoffset =
          (request s.world.module b.handle).yoffset := by rw [hrequest]
    rw [hrequest] at hanswer
    rw [hrequired hslot hline, RowKept, hanswer]
    simp only [hfailed, Bool.false_eq_true, if_false]
    constructor
    · intro hrecord current hcurrent
      obtain ⟨-, hoffset⟩ := hrecord current hcurrent
      rw [← hyoffset]
      exact hoffset
    · intro hsame current hcurrent
      obtain ⟨hlive, -⟩ := h current hcurrent
      refine ⟨hlive, ?_⟩
      have hoffset := hsame current hcurrent
      rw [← hyoffset] at hoffset
      exact hoffset
  | shown granted framebuffer hpublished hslot hline hanswer =>
    rw [panned_eq_request consistent hb hslot hpublished] at hanswer
    rw [hrequired hslot hline, RowKept, hanswer]
    constructor
    · intro hrecord
      exact (hrecord b.handle rfl).2
    · intro hoffset hnd hcurrent
      obtain rfl : b.handle = hnd := Option.some.inj hcurrent
      exact ⟨⟨b, hb, rfl, rfl⟩, hoffset⟩
  | copied framebuffer _ hflags =>
    exact iff_of_true h fun hslot => absurd hflags hslot

theorem posts_faults {s : State} (consistent : Consistent s) {b : Buffer} (hb : b ∈ s.live)
    (hslot : IsSlotHandle b.handle) (hline : s.world.module.finfo.lineLength ≠ 0)
    {putVscreeninfo : VarScreeninfo → Answer VarScreeninfo} {r : ℤ × Option Display × World}
    (posts : Posts s.world b.handle putVscreeninfo r) : r.2.2.faults = s.world.faults := by
  cases posts with
  | lost hnone =>
    have hclient : ForScreen b.usage := by
      by_contra hclient
      exact ((consistent.present b hb).shared hclient).1 hslot
    exact absurd hclient ((consistent.absent hnone).live b hb)
  | divided framebuffer _ _ hzero => exact absurd hzero hline
  | refused e framebuffer _ _ _ _ => rfl
  | shown granted framebuffer _ _ _ _ => rfl
  | copied framebuffer _ _ => rfl

/-! ### Runs -/

theorem CurrentIsSlot.act {s : State} (h : CurrentIsSlot s) (consistent : Consistent s)
    (e : Event) : CurrentIsSlot (act s e) := by
  have hsame {s' : State} (hcurrent : s'.world.module.currentBuffer =
      s.world.module.currentBuffer) : CurrentIsSlot s' := fun hnd hhnd =>
    h hnd (hcurrent.symm.trans hhnd)
  cases e with
  | alloc a width height format usage pHandle pStride =>
    exact hsame (sameRecord_allocates
      (grallocAlloc_allocates s.world a width height format usage pHandle pStride)).currentBuffer
  | free i =>
    cases hi : s.live[i]? with
    | none => exact hsame (by rw [act_free_none hi])
    | some b =>
      have hmagic := (consistent.present b (List.mem_of_getElem? hi)).magic
      obtain ⟨kept, hmodule⟩ := (grallocFree_frees s.world hmagic).2.module
      exact hsame (by rw [act_free hi, hmodule])
  | openFramebuffer a =>
    by_cases hnone : s.world.module.framebuffer = none
    · exact hsame (sameRecord_initialises hnone
        (mapFrameBufferLocked_initialises s.world a hnone)).currentBuffer
    · exact hsame (by rw [act_open_again a hnone])
  | post i putVscreeninfo =>
    cases hi : s.live[i]? with
    | none => exact hsame (by rw [act_post_none putVscreeninfo hi])
    | some b =>
      have hmagic := (consistent.present b (List.mem_of_getElem? hi)).magic
      have hposts := fbPost_posts s.world putVscreeninfo hmagic
      rw [act_post putVscreeninfo hi]
      generalize fbPost s.world putVscreeninfo (some b.handle) = r at hposts ⊢
      cases hposts with
      | lost _ => exact hsame rfl
      | divided framebuffer _ _ _ => exact hsame rfl
      | refused e framebuffer _ _ _ _ => exact hsame rfl
      | shown granted framebuffer _ hslot _ _ =>
        intro hnd hhnd
        obtain rfl := Option.some.inj hhnd
        exact hslot
      | copied framebuffer _ _ => exact hsame rfl

theorem CurrentIsSlot.step {s : State} (h : CurrentIsSlot s) (consistent : Consistent s)
    (e : Event) : CurrentIsSlot (step s e) := by
  obtain ⟨-, -, hact⟩ | ⟨-, faults, hstopped⟩ := step_cases s e
  · rw [hact]
    exact h.act consistent e
  · rw [hstopped]
    exact h

theorem recordTrue_act_iff {s : State} (consistent : Consistent s) (slots : CurrentIsSlot s)
    (h : RecordTrue s) (e : Event) (hlives : s.world.faults = [])
    (hreturns : (act s e).world.faults = []) : RecordTrue (act s e) ↔ RecordKept s e := by
  cases e with
  | alloc a width height format usage pHandle pStride =>
    have hallocates := grallocAlloc_allocates s.world a width height format usage pHandle pStride
    rw [act_alloc]
    refine iff_of_true ?_ trivial
    exact h.stays consistent (sameRecord_allocates hallocates)
      (fun b hb => List.mem_append_left _ hb) rfl
  | free i =>
    refine iff_of_true ?_ trivial
    cases hi : s.live[i]? with
    | none =>
      rw [act_free_none hi]
      exact h
    | some b =>
      have hmagic := (consistent.present b (List.mem_of_getElem? hi)).magic
      rw [act_free hi] at hreturns ⊢
      rw [recordTrue_free h consistent hi (grallocFree_frees s.world hmagic).2]
      exact fun hsome hposted => current_not_freed h consistent slots hi hsome hposted hreturns
  | openFramebuffer a =>
    refine iff_of_true ?_ trivial
    by_cases hnone : s.world.module.framebuffer = none
    · exact h.stays consistent
        (sameRecord_initialises hnone (mapFrameBufferLocked_initialises s.world a hnone))
        (fun b hb => hb) rfl
    · rw [act_open_again a hnone]
      exact h
  | post i putVscreeninfo =>
    cases hi : s.live[i]? with
    | none =>
      rw [act_post_none putVscreeninfo hi]
      exact iff_of_true h fun _ b hb => absurd (hi.symm.trans hb) (by simp)
    | some b =>
      have hmagic := (consistent.present b (List.mem_of_getElem? hi)).magic
      rw [act_post putVscreeninfo hi,
        recordTrue_post h consistent hi (fbPost_posts s.world putVscreeninfo hmagic)]
      simp only [RecordKept, hi, hlives, Option.some.injEq, forall_eq', forall_const]

theorem recordTrue_step_iff {s : State} (consistent : Consistent s) (slots : CurrentIsSlot s)
    (h : RecordTrue s) (e : Event) : RecordTrue (step s e) ↔ RecordKept s e := by
  obtain ⟨hlives, hreturns, hact⟩ | ⟨hends, faults, hstopped⟩ := step_cases s e
  · rw [hact]
    exact recordTrue_act_iff consistent slots h e hlives hreturns
  · rw [hstopped]
    refine iff_of_true h ?_
    cases e with
    | alloc a width height format usage pHandle pStride => trivial
    | free i => trivial
    | openFramebuffer a => trivial
    | post i putVscreeninfo =>
      intro hlives b hi hslot hline
      have hb := List.mem_of_getElem? hi
      have hposts := fbPost_posts s.world putVscreeninfo (consistent.present b hb).magic
      have hfaults := hends hlives
      rw [act_post putVscreeninfo hi] at hfaults
      exact absurd ((posts_faults consistent hb hslot hline hposts).trans hlives) hfaults

/-- The record is true in all states of a run exactly if all its steps keep it. -/
theorem record_true_iff (w : World) (es : List Event) :
    (∀ es', es' <+: es → RecordTrue (run step (start w) es')) ↔
      Along step RecordKept (start w) es :=
  always_iff_along step (fun s => Consistent s ∧ CurrentIsSlot s) RecordTrue RecordKept
    (fun _ e h _ _ => ⟨h.1.step e, h.2.step h.1 e⟩)
    (fun _ e h hrecord => recordTrue_step_iff h.1 h.2 hrecord e) (start w) es
    ⟨consistent_start w, fun hnd hcurrent => by simp [start, loadModule] at hcurrent⟩
    (recordTrue_start w)

def failedPost : List Event :=
  [allocScreen (screenAnswers (.ok 0x30000#32)), .post 0 Except.ok,
    allocScreen (screenAnswers (.ok 0x30000#32)), .post 1 fun _ => .error einval]

theorem failed_post_moves_row :
    (run step (start loaded) failedPost).world.faults = [] ∧
    (run step (start loaded) failedPost).world.module.currentBuffer.map (·.offset) = some 0 ∧
    (run step (start loaded) failedPost).world.module.info.yoffset = 1 ∧
    ¬ ∀ es', es' <+: failedPost → RecordTrue (run step (start loaded) es') := by
  have hcurrent : (run step (start loaded) failedPost).world.module.currentBuffer.map (·.offset) =
      some 0 := by decide +kernel
  have hrow : (run step (start loaded) failedPost).world.module.info.yoffset = 1 := by
    decide +kernel
  have hline : (run step (start loaded) failedPost).world.module.finfo.lineLength = 4096 := by
    decide +kernel
  refine ⟨by decide +kernel, hcurrent, hrow, fun hall => ?_⟩
  obtain ⟨hnd, hhnd, hoffset⟩ := Option.map_eq_some_iff.mp hcurrent
  obtain ⟨-, hrecord⟩ := hall _ (List.prefix_refl _) hnd hhnd
  rw [hrow, hline, hoffset] at hrecord
  exact absurd hrecord (by decide)

end Shashlik.GrallocRecords
