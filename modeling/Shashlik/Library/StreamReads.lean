import Mathlib.Data.List.SplitLengths
import Mathlib.Tactic.Common

set_option autoImplicit false

/-!
# Bounded reads of a byte stream

Data arrives in chunks. Each arrival causes one read of at most `limit` symbols of what is
buffered by then, and a handler turns every block read into effects. Nothing is lost or
duplicated between the chunks and the blocks, and the sizes of the blocks depend on the sizes
of the chunks alone.
-/
namespace StreamReads

section Reads
variable {α : Type}

def blocks (limit : ℕ) : List α → List (List α) → List (List α)
  | _, [] => []
  | buffer, c :: cs => (buffer ++ c).take limit :: blocks limit ((buffer ++ c).drop limit) cs

def leftover (limit : ℕ) : List α → List (List α) → List α
  | buffer, [] => buffer
  | buffer, c :: cs => leftover limit ((buffer ++ c).drop limit) cs

def sizes (limit : ℕ) : ℕ → List ℕ → List ℕ
  | _, [] => []
  | n, m :: ms => min limit (n + m) :: sizes limit (n + m - limit) ms

theorem flatten_blocks (limit : ℕ) (buffer : List α) (cs : List (List α)) :
    (blocks limit buffer cs).flatten ++ leftover limit buffer cs = buffer ++ cs.flatten := by
  induction cs generalizing buffer with
  | nil => simp [blocks, leftover]
  | cons c cs ih =>
    simp only [blocks, leftover, List.flatten_cons, List.append_assoc]
    rw [ih, ← List.append_assoc, List.take_append_drop, List.append_assoc]

theorem map_length_blocks (limit : ℕ) (buffer : List α) (cs : List (List α)) :
    (blocks limit buffer cs).map List.length =
      sizes limit buffer.length (cs.map List.length) := by
  induction cs generalizing buffer with
  | nil => rfl
  | cons c cs ih => simp [blocks, sizes, ih]

theorem blocks_ne_nil (limit : ℕ) (hl : 0 < limit) (buffer : List α) (cs : List (List α))
    (hc : ∀ c ∈ cs, c ≠ []) : ∀ b ∈ blocks limit buffer cs, b ≠ [] := by
  induction cs generalizing buffer with
  | nil => simp [blocks]
  | cons c cs ih =>
    intro b hb
    rcases List.mem_cons.mp hb with rfl | hb
    · have hne := List.length_pos_iff.mpr (hc c List.mem_cons_self)
      apply List.ne_nil_of_length_pos
      rw [List.length_take, List.length_append]
      omega
    · exact ih _ (fun c h => hc c (List.mem_cons_of_mem _ h)) b hb

end Reads

section Serve
variable {α σ ω : Type}

/-- A handler applied to one block after the other, its effects collected in order. -/
def serve (handle : σ → List α → Option (σ × List ω)) : σ → List (List α) → Option (σ × List ω)
  | s, [] => some (s, [])
  | s, b :: bs =>
    (handle s b).bind (fun r => (serve handle r.1 bs).map (fun r' => (r'.1, r.2 ++ r'.2)))

theorem serve_cons_eq_some {handle : σ → List α → Option (σ × List ω)} {s s' : σ} {b : List α}
    {bs : List (List α)} {os : List ω} (h : serve handle s (b :: bs) = some (s', os)) :
    ∃ s₁ os₁ os₂, handle s b = some (s₁, os₁) ∧ serve handle s₁ bs = some (s', os₂) ∧
      os = os₁ ++ os₂ := by
  simp only [serve, Option.bind_eq_some_iff, Option.map_eq_some_iff, Prod.mk.injEq] at h
  obtain ⟨⟨s₁, os₁⟩, hb, ⟨s₂, os₂⟩, hbs, rfl, rfl⟩ := h
  exact ⟨s₁, os₁, os₂, hb, hbs, rfl⟩

theorem serve_cons {handle : σ → List α → Option (σ × List ω)} {s s₁ : σ} {b : List α}
    {os₁ : List ω} (bs : List (List α)) (h : handle s b = some (s₁, os₁)) :
    serve handle s (b :: bs) = (serve handle s₁ bs).map (fun r => (r.1, os₁ ++ r.2)) := by
  simp [serve, h]

/-- A kind of effect that a block only has if it contains a marked symbol is had at most as
    often as there are marked symbols in the stream. -/
theorem count_effects_le (handle : σ → List α → Option (σ × List ω)) (good : ω → Bool)
    (mark : α → Bool)
    (hmark : ∀ s b s' os, handle s b = some (s', os) → os.countP good ≤ b.countP mark)
    (s s' : σ) (bs : List (List α)) (os : List ω) (h : serve handle s bs = some (s', os)) :
    os.countP good ≤ bs.flatten.countP mark := by
  induction bs generalizing s os with
  | nil =>
    simp only [serve, Option.some.injEq, Prod.mk.injEq] at h
    simp [← h.2]
  | cons b bs ih =>
    obtain ⟨s₁, os₁, os₂, hb, hbs, rfl⟩ := serve_cons_eq_some h
    have hfirst := hmark s b s₁ os₁ hb
    have hrest := ih s₁ os₂ hbs
    simp only [List.countP_append, List.flatten_cons]
    omega

end Serve

end StreamReads
