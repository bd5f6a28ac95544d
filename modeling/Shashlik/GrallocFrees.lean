import Shashlik.GrallocRuns

set_option autoImplicit false

/-!
# Freeing a buffer

`gralloc_free` treats the handles of all three ways of allocation alike: each gives back its
pool. The buffers for the screen have none, and `wl_shm_pool_destroy` follows a null pointer.
-/
namespace Shashlik.GrallocFrees
open SystemRuns Gralloc Gralloc.World GrallocGeometry GrallocBalance GrallocFramebuffer
  GrallocEffects GrallocRuns

/-- The free returns 0 and follows no null pointer. It closes the handle's file, unmaps its own
    memory and destroys its pool if it has these, and the other buffers and the framebuffer
    keep all that is theirs. -/
structure Released (s : State) (i : ℕ) (b : Buffer) (r : ℤ × World) : Prop where
  code : r.1 = 0
  noFault : r.2.faults = s.world.faults
  file : (b.handle.fd < 0 ∨ b.handle.fd ∈ s.world.files) ∧
    r.2.files = s.world.files.erase b.handle.fd
  memory : if IsSlotHandle b.handle then r.2.mappings = s.world.mappings else
    s.world.mappings.lookup (b.handle.base.setWidth 32) =
      some ⟨b.handle.size, b.handle.fd⟩ ∧
    r.2.mappings = s.world.mappings.erase (b.handle.base.setWidth 32)
  pool : match b.handle.pool with
    | none => r.2.pools = s.world.pools
    | some p => (∃ size, s.world.pools.lookup p = some ⟨b.handle.fd, size⟩) ∧
      r.2.pools = s.world.pools.erase p
  buffers : r.2.buffers = s.world.buffers
  others : ∀ b' ∈ s.live.eraseIdx i, Present r.2 b'
  screen : ∀ framebuffer, s.world.module.framebuffer = some framebuffer →
    Screen r.2 (s.live.eraseIdx i) framebuffer

/-- The buffer at this place among the live ones, if there is one, can be freed. -/
def Freeable (s : State) (i : ℕ) : Prop :=
  ∀ b, s.live[i]? = some b → Released s i b (grallocFree s.world (some b.handle))

/-! ### The faults of a free -/

theorem terminateBuffer_faults (w : World) (hnd : PrivateHandle) :
    (terminateBuffer w hnd).faults = w.faults := by
  unfold terminateBuffer grallocUnmap
  split
  · split <;> rfl
  · rfl

theorem freeSlot_faults (w : World) (hnd : PrivateHandle) :
    w.faults.length ≤ (freeSlot w hnd).faults.length := by
  obtain ⟨f, hfault⟩ | ⟨kept, hkept⟩ := freeSlot_cases w hnd
  · rw [hfault]
    exact Nat.le_succ _
  · rw [hkept]

theorem grallocFree_faults {w : World} {hnd : PrivateHandle} (hmagic : hnd.magic = sMagic)
    (hslot : ¬ IsSlotHandle hnd) (hpool : hnd.pool ≠ none) :
    (grallocFree w (some hnd)).2.faults = w.faults := by
  obtain ⟨p, hp⟩ := Option.ne_none_iff_exists'.mp hpool
  unfold grallocFree
  dsimp only
  rw [if_neg (valid_of_magic hmagic),
    if_neg (show ¬ hnd.flags &&& privFlagsFramebuffer ≠ 0 from hslot), hp]
  exact terminateBuffer_faults w hnd

theorem grallocFree_nullPool {w : World} {hnd : PrivateHandle} (hmagic : hnd.magic = sMagic)
    (hpool : hnd.pool = none) : w.faults.length < (grallocFree w (some hnd)).2.faults.length := by
  unfold grallocFree
  dsimp only
  rw [if_neg (valid_of_magic hmagic), hpool]
  apply Nat.lt_succ_of_le
  split
  · exact freeSlot_faults w hnd
  · rw [terminateBuffer_faults]

/-! ### In a run -/

theorem released_of_shared {s : State} (h : Consistent s) {i : ℕ} {b : Buffer}
    (hi : s.live[i]? = some b) (hclient : ¬ ForScreen b.usage) :
    Released s i b (grallocFree s.world (some b.handle)) := by
  have hpresent := h.present b (List.mem_of_getElem? hi)
  obtain ⟨hslot, -, hpool⟩ := hpresent.shared hclient
  obtain ⟨hbase, -, hmapping⟩ := hpresent.mapping hslot
  obtain ⟨hcode, hfrees⟩ := grallocFree_frees s.world hpresent.magic
  have hrest := h.free hi hfrees
  have hpools := hfrees.pools
  have hmappings := hfrees.mappings
  rw [if_pos ⟨not_not.mp hslot, hbase⟩] at hmappings
  refine ⟨hcode, grallocFree_faults hpresent.magic hslot hpool, ⟨hpresent.fd, hfrees.files⟩, ?_, ?_,
    hfrees.buffers, hrest.present, fun framebuffer hpublished => ?_⟩
  · rw [if_neg hslot]
    exact ⟨hmapping, hmappings⟩
  · obtain ⟨p, hp⟩ := Option.ne_none_iff_exists'.mp hpool
    rw [hp] at hpools ⊢
    exact ⟨hpresent.pool p hp, hpools⟩
  · apply hrest.screen
    obtain ⟨kept, hmodule⟩ := hfrees.module
    rw [hmodule]
    exact hpublished

theorem not_released_of_screen {s : State} (h : Consistent s) {i : ℕ} {b : Buffer}
    (hi : s.live[i]? = some b) (hscreen : ForScreen b.usage) :
    ¬ Released s i b (grallocFree s.world (some b.handle)) := by
  have hpresent := h.present b (List.mem_of_getElem? hi)
  have hfaults := grallocFree_nullPool (w := s.world) hpresent.magic (hpresent.screen hscreen)
  intro hreleased
  rw [hreleased.noFault] at hfaults
  exact absurd hfaults (Nat.lt_irrefl _)

/-- In every state of a run, a live buffer can be freed exactly if it was not asked for the
    screen. -/
theorem freeable_iff_not_for_screen (w : World) (es : List Event) (i : ℕ) :
    Freeable (run step (start w) es) i ↔
      ∀ b, (run step (start w) es).live[i]? = some b → ¬ ForScreen b.usage := by
  have h := consistent_run w es
  constructor
  · intro hfreeable b hi hscreen
    exact not_released_of_screen h hi hscreen (hfreeable b hi)
  · intro hclient b hi
    exact released_of_shared h hi (hclient b hi)

theorem screen_buffer_not_freeable :
    (run step (start loaded) [allocScreen (screenAnswers (.ok 0x30000#32)), .free 0]).world.faults =
        [.nullPool] ∧
      ¬ Freeable (run step (start loaded) [allocScreen (screenAnswers (.ok 0x30000#32))]) 0 := by
  have hfaults : (run step (start loaded)
      [allocScreen (screenAnswers (.ok 0x30000#32)), .free 0]).world.faults = [.nullPool] := by
    decide +kernel
  refine ⟨hfaults, fun hfreeable => ?_⟩
  obtain ⟨b, hb, hscreen⟩ : ∃ b, (run step (start loaded)
      [allocScreen (screenAnswers (.ok 0x30000#32))]).live[0]? = some b ∧ ForScreen b.usage :=
    ⟨_, rfl, by decide⟩
  exact not_released_of_screen (consistent_run loaded _) hb hscreen (hfreeable b hb)

end Shashlik.GrallocFrees
