import Shashlik.GrallocRuns

set_option autoImplicit false

/-!
# The framebuffer, mapped or absent

`mapFrameBufferLocked` takes a framebuffer that is not null as the sign that an earlier call has
succeeded. It publishes the handle before it divides by the rows and maps the memory, and a
failure after that leaves it there.
-/
namespace Shashlik.GrallocInitialisation
open SystemRuns Gralloc Gralloc.World GrallocGeometry GrallocFramebuffer GrallocEffects
  GrallocRuns

/-- The base is a mapping of the device, of the recorded size. -/
def FullyMapped (w : World) (framebuffer : PrivateHandle) : Prop :=
  framebuffer.base ≠ 0 ∧ framebuffer.size ≠ 0 ∧
    ∃ fd, w.mappings.lookup (framebuffer.base.setWidth 32) = some ⟨framebuffer.size, fd⟩ ∧
      w.files.lookup fd = some .framebuffer

def MappedOrAbsent (w : World) : Prop :=
  ∀ framebuffer, w.module.framebuffer = some framebuffer → FullyMapped w framebuffer

/-- The call returns. If it fails, it leaves no framebuffer, and if it succeeds, it leaves it
    mapped; the first time with the bytes of all rows. -/
def Honest (w : World) (r : Option ℤ × World) : Prop :=
  ∃ code, r.1 = some code ∧ (code < 0 → r.2.module.framebuffer = none) ∧
    (0 ≤ code → ∃ framebuffer, r.2.module.framebuffer = some framebuffer ∧
      FullyMapped r.2 framebuffer ∧ (w.module.framebuffer = none →
        framebuffer.size = fbSize r.2.module.info r.2.module.finfo))

/-- The event calls `mapFrameBufferLocked`, with these answers: `fb_device_open` always does,
    and an allocation for the screen when there is no framebuffer. -/
def Calls (w : World) (a : FramebufferAnswers) : Event → Prop
  | .openFramebuffer a' => a' = a
  | .alloc a' _ _ format usage pHandle pStride => a'.framebuffer = a ∧
      Accepted format pHandle pStride ∧ ForScreen usage ∧ w.module.framebuffer = none
  | _ => False

/-- What every step should do, as long as there is a process: the framebuffer is mapped or absent
    after it, or where it ends, and the calls say so. -/
def InitKept (s : State) (e : Event) : Prop :=
  s.world.faults = [] → MappedOrAbsent (act s e).world ∧
    ∀ a, Calls s.world a e → Honest s.world (mapFrameBufferLocked s.world a)

/-- The initialisation, if it is due, maps what it publishes. -/
def InitCompletes (s : State) (e : Event) : Prop :=
  s.world.faults = [] → ∀ a, Calls s.world a e → s.world.module.framebuffer = none →
    InitSafe s.world a

theorem act_framebuffer {s : State} (consistent : Consistent s) (e : Event) :
    (∃ a, (∀ a', Calls s.world a' e ↔ a' = a) ∧ (act s e).world.module.framebuffer =
      (mapFrameBufferLocked s.world a).2.module.framebuffer) ∨
    ((∀ a, ¬ Calls s.world a e) ∧
      (act s e).world.module.framebuffer = s.world.module.framebuffer) := by
  cases e with
  | alloc a width height format usage pHandle pStride =>
    obtain ⟨hnot, mask, hmodule⟩ | ⟨hcalls, mask, hmodule⟩ := allocates_module
      (grallocAlloc_allocates s.world a width height format usage pHandle pStride)
    · refine Or.inr ⟨fun a' h => hnot h.2, ?_⟩
      rw [act_alloc, State.allocated, hmodule]
    · refine Or.inl ⟨a.framebuffer, fun a' => ⟨fun h => h.1.symm, fun h => ⟨h.symm, hcalls⟩⟩, ?_⟩
      rw [act_alloc, State.allocated, hmodule]
  | free i =>
    refine Or.inr ⟨fun a h => h, ?_⟩
    cases hi : s.live[i]? with
    | none => rw [act_free_none hi]
    | some b =>
      have hmagic := (consistent.present b (List.mem_of_getElem? hi)).magic
      obtain ⟨kept, hmodule⟩ := (grallocFree_frees s.world hmagic).2.module
      rw [act_free hi, hmodule]
  | openFramebuffer a => exact Or.inl ⟨a, fun a' => eq_comm, rfl⟩
  | post i putVscreeninfo =>
    refine Or.inr ⟨fun a h => h, ?_⟩
    cases hi : s.live[i]? with
    | none => rw [act_post_none putVscreeninfo hi]
    | some b =>
      have hmagic := (consistent.present b (List.mem_of_getElem? hi)).magic
      rw [act_post putVscreeninfo hi]
      exact (sameScreen_posts (fbPost_posts s.world putVscreeninfo hmagic)).framebuffer

theorem fullyMapped_iff {s : State} (consistent : Consistent s) {framebuffer : PrivateHandle}
    (hpublished : s.world.module.framebuffer = some framebuffer) :
    FullyMapped s.world framebuffer ↔ framebuffer.base ≠ 0 := by
  constructor
  · exact fun h => h.1
  · intro hbase
    obtain ⟨fd, hmapped⟩ := (consistent.screen framebuffer hpublished).mapped hbase
    exact ⟨hbase, hmapped.size_ne, fd, hmapped.mapping, hmapped.device⟩

theorem mappedOrAbsent_iff {s : State} (consistent : Consistent s) :
    MappedOrAbsent s.world ↔
      ∀ framebuffer, s.world.module.framebuffer = some framebuffer → framebuffer.base ≠ 0 :=
  forall₂_congr fun _ hpublished => fullyMapped_iff consistent hpublished

theorem initialises_honest {w w' : World} {a : FramebufferAnswers} {code : Option ℤ}
    (hnone : w.module.framebuffer = none) (h : Initialises w a code w') :
    (Honest w (code, w') ∧
      ∀ framebuffer, w'.module.framebuffer = some framebuffer → framebuffer.base ≠ 0) ↔
        InitSafe w a := by
  cases h with
  | absent code w' hcode hmodule _ hsafe _ _ =>
    have hnone' : w'.module.framebuffer = none := by rw [hmodule, hnone]
    rw [hsafe]
    constructor
    · rintro ⟨⟨code', hreturned, -, hmapped⟩, -⟩ hzero
      obtain rfl : code = code' := Option.some.inj hreturned
      obtain ⟨framebuffer, hsome, -⟩ := hmapped (Int.le_of_eq hzero.symm)
      exact absurd (hnone'.symm.trans hsome) (by simp)
    · intro hne
      refine ⟨⟨code, rfl, fun _ => hnone', fun hnonneg => absurd ?_ hne⟩,
        fun framebuffer hsome => ?_⟩
      · exact Int.le_antisymm hcode hnonneg
      · exact absurd (hnone'.symm.trans hsome) (by simp)
  | divided w' framebuffer flags info finfo _ _ _ _ _ _ hunsafe _ =>
    refine iff_of_false ?_ hunsafe
    rintro ⟨⟨code, hreturned, -⟩, -⟩
    exact absurd hreturned (by simp)
  | unmapped e w' framebuffer flags info finfo _ _ hmodule _ hbase _ hunsafe _ =>
    refine iff_of_false (fun h => h.2 framebuffer ?_ hbase) hunsafe
    rw [hmodule]
    rfl
  | mapped w' framebuffer flags info finfo start fd _ _ hmodule _ hbase hstart hsize hsize_ne
      hmapping _ hdevice _ _ _ _ hsafe _ =>
    have haddress : framebuffer.base.setWidth 32 = start := by rw [hbase, setWidth_signExtend]
    have hne : framebuffer.base ≠ 0 := by
      intro hzero
      rw [hzero] at haddress
      exact hstart (haddress.symm.trans (by decide))
    have hpublished : w'.module.framebuffer = some framebuffer := by
      rw [hmodule]
      rfl
    refine iff_of_true ⟨⟨0, rfl, fun hneg => absurd hneg (Int.lt_irrefl 0), fun _ => ?_⟩, ?_⟩ hsafe
    · refine ⟨framebuffer, hpublished, ⟨hne, ?_, fd, ?_, hdevice⟩, fun _ => ?_⟩
      · rw [hsize]
        exact hsize_ne
      · rw [haddress, hsize]
        exact hmapping
      · rw [hmodule]
        exact hsize
    · intro framebuffer' hpublished'
      obtain rfl := Option.some.inj (hpublished.symm.trans hpublished')
      exact hne

theorem initKept_iff {s : State} (consistent : Consistent s) (h : MappedOrAbsent s.world)
    (e : Event) : InitKept s e ↔ InitCompletes s e := by
  have hnext := consistent.act e
  rw [InitKept, mappedOrAbsent_iff hnext, InitCompletes]
  rw [mappedOrAbsent_iff consistent] at h
  refine imp_congr_right fun _ => ?_
  obtain ⟨a, hcalls, hframebuffer⟩ | ⟨hcalls, hframebuffer⟩ := act_framebuffer consistent e
  · simp only [hframebuffer, hcalls, forall_eq]
    by_cases hnone : s.world.module.framebuffer = none
    · rw [forall_prop_of_true hnone, and_comm]
      exact initialises_honest hnone (mapFrameBufferLocked_initialises s.world a hnone)
    · rw [mapFrameBufferLocked_again s.world a hnone]
      obtain ⟨framebuffer, hpublished⟩ := Option.ne_none_iff_exists'.mp hnone
      have hmapped := (fullyMapped_iff consistent hpublished).mpr (h framebuffer hpublished)
      refine iff_of_true ⟨h, 0, rfl, fun hneg => absurd hneg (Int.lt_irrefl 0), fun _ => ?_⟩
        fun hnone' => absurd hnone' hnone
      exact ⟨framebuffer, hpublished, hmapped, fun hnone' => absurd hnone' hnone⟩
  · simp only [hframebuffer]
    exact iff_of_true ⟨h, fun a hcall => absurd hcall (hcalls a)⟩
      fun a hcall => absurd hcall (hcalls a)

theorem mappedOrAbsent_step {s : State} (consistent : Consistent s) (h : MappedOrAbsent s.world)
    (e : Event) (hcompletes : InitCompletes s e) : MappedOrAbsent (step s e).world := by
  obtain ⟨hlives, -, hact⟩ | ⟨-, faults, hstopped⟩ := step_cases s e
  · rw [hact]
    exact ((initKept_iff consistent h e).mpr hcompletes hlives).1
  · rw [hstopped]
    exact h

/-- In every run the framebuffer is mapped or absent, and the calls say so, exactly if every
    initialisation that is due maps what it publishes. -/
theorem mapped_or_absent_iff (w : World) (es : List Event) :
    Along step InitKept (start w) es ↔ Along step InitCompletes (start w) es :=
  along_congr step (fun s => Consistent s ∧ MappedOrAbsent s.world) InitKept InitCompletes
    (fun _ e h hcompletes => ⟨h.1.step e, mappedOrAbsent_step h.1 h.2 e hcompletes⟩)
    (fun _ e h => initKept_iff h.1 h.2 e) (start w) es
    ⟨consistent_start w, fun framebuffer hsome => by simp [start, loadModule] at hsome⟩

theorem unmapped_framebuffer_published :
    (mapFrameBuffer (start loaded).world (screenAnswers (.error einval)).framebuffer).1 =
        some (-(einval : ℤ)) ∧
    (mapFrameBuffer (run step (start loaded)
      [.openFramebuffer (screenAnswers (.error einval)).framebuffer]).world
        (screenAnswers (.error einval)).framebuffer).1 = some 0 ∧
    ¬ Along step InitKept (start loaded)
      [.openFramebuffer (screenAnswers (.error einval)).framebuffer,
        .openFramebuffer (screenAnswers (.error einval)).framebuffer] := by
  refine ⟨by decide +kernel, by decide +kernel, fun hkept => ?_⟩
  have hpublished : (act (start loaded) (.openFramebuffer
      (screenAnswers (.error einval)).framebuffer)).world.module.framebuffer =
        some (PrivateHandle.new 11 8192#32 0 none none) := by decide +kernel
  exact ((hkept.1 rfl).1 _ hpublished).1 rfl

end Shashlik.GrallocInitialisation
