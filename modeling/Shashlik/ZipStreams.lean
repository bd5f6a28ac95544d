import Shashlik.ZipExtraction

set_option autoImplicit false

/-!
# Streams that are whole

What comes out of an entry whose data is all there. That zlib goes on with a stream that is whole,
in whatever parts it gets it, is an assumption.
-/
namespace Shashlik.ZipArchives
open ByteFields

section
variable {σ : Type} {host : Host} {s : InflateProgress σ}

/-- The call takes input or gives output, or the stream has come to its end with both. -/
def Inflated.GoesOn (r : Inflated σ) (will : σ → List UInt8 → List UInt8 → Prop)
    (availIn more output : List UInt8) : Prop :=
  ∃ rest, output = r.produced ++ rest ∧
    ((r.zerr = Z_STREAM_END ∧ rest = [] ∧ availIn.drop r.consumed ++ more = []) ∨
      (r.zerr = Z_OK ∧ 0 < r.consumed + r.produced.length ∧
        will r.state (availIn.drop r.consumed ++ more) rest))

/-- A state that will make some output of some input goes on with a part of the input, if there is
    room for output. -/
def Zlib.Decodes (z : Zlib σ) (will : σ → List UInt8 → List UInt8 → Prop) : Prop :=
  ∀ state availIn more output availOut, will state (availIn ++ more) output → 0 < availOut →
    (availIn = [] → more = []) →
    (z.inflate state availIn availOut).GoesOn will availIn more output

/-- The input that is still to be inflated. -/
def InflateProgress.pending (host : Host) (s : InflateProgress σ) : List UInt8 :=
  s.availIn ++ (host.file.drop s.pos).take s.compressedLength

theorem refill_of_fits (hreads : ∀ n, host.fails (.readBlock n) = false)
    (hfile : s.pos + s.compressedLength ≤ host.file.length) :
    ∃ s', refill host s = some s' ∧ s'.pending host = s.pending host ∧
      (s'.availIn = [] → s'.compressedLength = 0) := by
  have hbuf : kBufSize = 32768 := rfl
  rw [refill]
  by_cases hempty : s.availIn = []
  · have hget : min kBufSize s.compressedLength ≤ s.compressedLength := Nat.min_le_right _ _
    rw [if_pos hempty]
    dsimp only
    rw [readBlock_of_fits (hreads _) (by omega)]
    refine ⟨_, rfl, ?_, fun hnone => ?_⟩
    · rw [InflateProgress.pending, InflateProgress.pending, hempty, List.nil_append]
      dsimp only
      rw [← take_drop_add, Nat.add_sub_of_le hget]
    · have hlength := congrArg List.length hnone
      dsimp only at hlength ⊢
      rw [List.length_take, List.length_drop, List.length_nil] at hlength
      omega
  · exact ⟨s, if_neg hempty, rfl, fun hnone => absurd hnone hempty⟩

theorem flush_of_fits (zerr : ℤ) (hlimit : s.writer.limit < 2 ^ 32)
    (hfits : s.writer.written.length + s.writeBuf.length ≤ s.writer.limit)
    (hwrites : ∀ n, s.writer.refuses n = false) : ∃ s', flush zerr s = some s' := by
  rw [flush]
  refine exists_ite ?_ ⟨s, rfl⟩
  rw [append_of_fits hlimit hfits hwrites]
  exact ⟨_, rfl⟩

/-- The loop is on its way from a stream that is whole to all of its output, with this output
    still to come and room for it. -/
structure Decoding (host : Host) (will : σ → List UInt8 → List UInt8 → Prop) (base stop : ℕ)
    (all coming : List UInt8) (s : InflateProgress σ) : Prop extends Counted base stop s where
  stream : will s.zstream (s.pending host) coming
  fits : s.writer.written.length + s.writeBuf.length + coming.length ≤ s.writer.limit
  writes : ∀ n, s.writer.refuses n = false
  whole : s.writer.written ++ s.writeBuf ++ coming = all

theorem Decoding.refill {will : σ → List UInt8 → List UInt8 → Prop} {base stop : ℕ}
    {all output : List UInt8} (h : Decoding host will base stop all output s)
    (hreads : ∀ n, host.fails (.readBlock n) = false) (hstop : stop ≤ host.file.length) :
    ∃ s', refill host s = some s' ∧ Decoding host will base stop all output s' ∧
      (s'.availIn = [] → s'.compressedLength = 0) ∧
      s'.availIn.length + s'.compressedLength = s.availIn.length + s.compressedLength := by
  obtain ⟨s', hrefill, hpending, hempty⟩ := refill_of_fits hreads (h.input.trans_le hstop)
  obtain ⟨hinput, hleft, hwriter, hstate, hbuf, hout⟩ := refill_eq_some hrefill
  refine ⟨s', hrefill, ?_, hempty, hleft⟩
  exact
    { narrow := by rw [hwriter]; exact h.narrow
      bound := by rw [hwriter]; exact h.bound
      room := by rw [hbuf]; exact h.room
      output := by rw [hwriter, hbuf, hout]; exact h.output
      input := hinput.trans h.input
      stream := by rw [hstate, hpending]; exact h.stream
      fits := by rw [hwriter, hbuf]; exact h.fits
      writes := by rw [hwriter]; exact h.writes
      whole := by rw [hwriter, hbuf]; exact h.whole }

theorem Decoding.inflateLoop_succ {z : Zlib σ} {will : σ → List UInt8 → List UInt8 → Prop}
    (hz : z.Decodes will) (hreads : ∀ n, host.fails (.readBlock n) = false) {base stop : ℕ}
    (hstop : stop ≤ host.file.length) {all output : List UInt8}
    (h : Decoding host will base stop all output s) :
    (∃ s', (∀ fuel, inflateLoop host z (fuel + 1) s = some (0, s')) ∧
      s'.compressedLength = 0 ∧ s'.writer.written = all) ∨
    ∃ s' rest, (∀ fuel, inflateLoop host z (fuel + 1) s = inflateLoop host z fuel s') ∧
      Decoding host will base stop all rest s' ∧
      s'.availIn.length + s'.compressedLength + rest.length <
        s.availIn.length + s.compressedLength + output.length := by
  obtain ⟨s₁, hrefill, h₁, hempty, hleft⟩ := h.refill hreads hstop
  have hgoes := hz s₁.zstream s₁.availIn _ output (kBufSize - s₁.writeBuf.length) h₁.stream
    (Nat.sub_pos_of_lt h₁.room) (fun hnone => by rw [hempty hnone, List.take_zero])
  have hproduced := z.produced_le s₁.zstream s₁.availIn (kBufSize - s₁.writeBuf.length)
  have hconsumed := z.consumed_le s₁.zstream s₁.availIn (kBufSize - s₁.writeBuf.length)
  simp only [inflateLoop, hrefill]
  generalize z.inflate s₁.zstream s₁.availIn (kBufSize - s₁.writeBuf.length) = r
    at hgoes hproduced hconsumed ⊢
  obtain ⟨rest, rfl, hcases⟩ := hgoes
  have hok : ¬ (r.zerr ≠ Z_OK ∧ r.zerr ≠ Z_STREAM_END) := by
    rintro ⟨hnot, hnotEnd⟩
    rcases hcases with ⟨hend, -⟩ | ⟨hgo, -⟩
    · exact hnotEnd hend
    · exact hnot hgo
  simp only [if_neg hok]
  have hfits := h₁.fits
  have hwhole := h₁.whole
  rw [← List.append_assoc, List.append_assoc s₁.writer.written] at hwhole
  rw [List.length_append] at hfits
  generalize hstep : ({ s₁ with
    zstream := r.state
    availIn := s₁.availIn.drop r.consumed
    writeBuf := s₁.writeBuf ++ r.produced
    totalOut := s₁.totalOut + UInt32.ofNat r.produced.length } : InflateProgress σ) = s₂
  have hwriter₂ : s₂.writer = s₁.writer := by rw [← hstep]
  have hbuf₂ : s₂.writeBuf = s₁.writeBuf ++ r.produced := by rw [← hstep]
  have hlength₂ := congrArg List.length hbuf₂
  rw [List.length_append] at hlength₂
  have hnarrow : s₁.writer.limit + kBufSize < 2 ^ 32 := h₁.narrow
  obtain ⟨s₃, hflush⟩ := flush_of_fits r.zerr
    (show s₂.writer.limit < 2 ^ 32 by
      rw [hwriter₂]
      omega)
    (show s₂.writer.written.length + s₂.writeBuf.length ≤ s₂.writer.limit by
      rw [hwriter₂]
      omega) (by rw [hwriter₂]; exact h₁.writes)
  obtain ⟨hfields, hkept, hsplit, hfull, hlast, hbound⟩ := flush_eq_some hflush
  rw [hwriter₂] at hkept hsplit hbound
  rw [hbuf₂] at hsplit
  simp only [hflush]
  have hcompressed₃ : s₃.compressedLength = s₁.compressedLength := by rw [hfields, ← hstep]
  have hpos₃ : s₃.pos = s₁.pos := by rw [hfields, ← hstep]
  rcases hcases with ⟨hend, rfl, hnone⟩ | ⟨hgo, hmore, hwill⟩
  · refine Or.inl ⟨s₃, fun _ => if_neg (by rw [hend]; decide), ?_, ?_⟩
    · have htake := congrArg List.length (List.append_eq_nil_iff.mp hnone).2
      have hinput := h₁.input.trans_le hstop
      rw [List.length_take, List.length_drop, List.length_nil] at htake
      omega
    · rw [hlast hend, List.append_nil] at hsplit
      rw [hsplit, ← hwhole, List.append_nil]
  · have hlengths := congrArg List.length hsplit
    simp only [List.length_append] at hlengths
    have hroom := h₁.room
    have houtput := h₁.output
    have htotal : s₃.totalOut.toNat = s₁.totalOut.toNat + r.produced.length := by
      rw [hfields, ← hstep]
      exact toNat_add_ofNat (by omega)
    have hstream : s₃.zstream = r.state := by rw [hfields, ← hstep]
    have havail : s₃.availIn = s₁.availIn.drop r.consumed := by rw [hfields, ← hstep]
    have hlimit : s₃.writer.limit = s₁.writer.limit := by rw [hkept]
    refine Or.inr ⟨s₃, rest, fun _ => if_pos hgo, ?_, ?_⟩
    · exact
        { narrow := by
            rw [Writer.Narrow, hlimit]
            exact h₁.narrow
          bound := hbound h₁.narrow h₁.bound (by
            have hroom := h₁.room
            omega)
          room := hfull (by omega)
          output := by omega
          input := by rw [hpos₃, hcompressed₃]; exact h₁.input
          stream := by
            rw [hstream, InflateProgress.pending, hpos₃, hcompressed₃, havail]
            exact hwill
          fits := by omega
          writes := by rw [hkept]; exact h₁.writes
          whole := by rw [hsplit, ← hwhole] }
    · rw [← hleft, List.length_append, havail, List.length_drop]
      omega

theorem inflateLoop_complete {z : Zlib σ} {will : σ → List UInt8 → List UInt8 → Prop}
    (hz : z.Decodes will) (hreads : ∀ n, host.fails (.readBlock n) = false)
    {base stop fuel : ℕ} (hstop : stop ≤ host.file.length) {all output : List UInt8}
    (h : Decoding host will base stop all output s)
    (hfuel : s.availIn.length + s.compressedLength + output.length < fuel) :
    ∃ s', inflateLoop host z fuel s = some (0, s') ∧ s'.compressedLength = 0 ∧
      s'.writer.written = all := by
  induction fuel generalizing s output with
  | zero => exact absurd hfuel (Nat.not_lt_zero _)
  | succ fuel ih =>
    rcases h.inflateLoop_succ hz hreads hstop with
      ⟨s', hloop, hdone⟩ | ⟨s', rest, hloop, h', hless⟩
    · exact ⟨s', hloop fuel, hdone⟩
    · rw [hloop]
      exact ih h' (Nat.lt_of_lt_of_le hless (Nat.le_of_lt_succ hfuel))

/-- How the content lies in the archive. -/
def Packs (z : Zlib σ) (will : σ → List UInt8 → List UInt8 → Prop) (method : UInt16)
    (payload content : List UInt8) : Prop :=
  (method = kCompressStored ∧ payload = content) ∨
    (method = kCompressDeflated ∧
      ∃ initial, z.inflateInit2 = some initial ∧ will initial payload content)

theorem inflateEntryToWriter_complete {z : Zlib σ}
    {will : σ → List UInt8 → List UInt8 → Prop} (hz : z.Decodes will)
    (hreads : ∀ n, host.fails (.readBlock n) = false) {fuel pos size : ℕ} {entry : ZipEntry}
    {payload content : List UInt8} {initial : σ} (hinit : z.inflateInit2 = some initial)
    (hwill : will initial payload content) (hdata : Stands (ofBytes host.file) pos payload)
    (hfile : pos + payload.length ≤ host.file.length)
    (hcompressed : entry.compressedLength.toNat = payload.length)
    (huncompressed : entry.uncompressedLength.toNat = content.length)
    (hsize : content.length ≤ size) (hnarrow : size + kBufSize < 2 ^ 32)
    (hfuel : payload.length + content.length < fuel) :
    ∃ p, inflateEntryToWriter host z fuel pos entry (memoryWriter size) = some (0, p) ∧
      p.writer.written = content ∧ p.pos = pos + payload.length := by
  have hdecoding : Decoding host will 0 (pos + entry.compressedLength.toNat) content content
      ⟨⟨pos, 0, memoryWriter size⟩, initial, [], entry.compressedLength.toNat, [], 0⟩ :=
    { narrow := hnarrow
      bound := Nat.zero_le _
      room := Nat.zero_lt_succ _
      output := rfl
      input := rfl
      stream := by
        rw [InflateProgress.pending, List.nil_append]
        dsimp only
        rw [hcompressed, stands_ofBytes.mp hdata]
        exact hwill
      fits := show 0 + 0 + content.length ≤ size by omega
      writes := fun _ => rfl
      whole := rfl }
  obtain ⟨s', hloop, hzero, hwritten⟩ := inflateLoop_complete hz hreads (hcompressed ▸ hfile)
    hdecoding (show 0 + entry.compressedLength.toNat + content.length < fuel by omega)
  obtain ⟨-, -, hdone⟩ := inflateLoop_sound hdecoding.toCounted hloop
  obtain ⟨hfinal, hempty⟩ := hdone rfl
  have houtput := hfinal.output
  rw [hwritten, hempty, List.length_nil] at houtput
  have hinput := hfinal.input
  refine ⟨s'.toProgress, ?_, hwritten, by omega⟩
  rw [inflateEntryToWriter, hinit]
  simp only [hloop, Option.bind_eq_bind, Option.bind_some]
  rw [if_neg (by decide), if_neg]
  rw [not_or, not_not, not_not, ← UInt32.toNat_inj]
  exact ⟨by omega, hzero⟩

theorem updateEntryFromDataDescriptor_complete {pos : ℕ} {entry entry' : ZipEntry}
    (hreads : host.fails .readDescriptor = false) (hfile : pos + 16 ≤ host.file.length)
    (h : Descriptor host.file pos entry entry') :
    updateEntryFromDataDescriptor host pos entry = some (0, entry') := by
  rcases updateEntryFromDataDescriptor_ends host pos entry with hnone | ⟨found, hfound, hread⟩
  · obtain ⟨ddBuf, hbuf⟩ : ∃ ddBuf, readAtOffset host .readDescriptor 16 pos = some ddBuf := by
      have hload := load_ofBytes hfile
      exact ⟨_, readAtOffset_iff.mpr ⟨hreads, load_length hload, stands_of_load hload⟩⟩
    rw [updateEntryFromDataDescriptor, hbuf] at hnone
    simp only [Option.bind_eq_bind, Option.bind_eq_some_iff, Option.some.injEq, Prod.mk.injEq]
      at hnone
    obtain ⟨-, -, -, -, -, -, -, -, hstatus, -⟩ := hnone
    exact absurd hstatus (by decide)
  · rw [hfound, h.unique hread]

theorem extractToMemory_complete {z : Zlib σ} {will : σ → List UInt8 → List UInt8 → Prop}
    (hz : z.Decodes will) (hcalls : ∀ call, host.fails call = false) {fuel size : ℕ}
    {entry : ZipEntry} {payload content : List UInt8} (hpacks : Packs z will entry.method
      payload content) (hdata : Stands (ofBytes host.file) entry.offset payload)
    (hfile : entry.offset + payload.length + 16 ≤ host.file.length)
    (hcompressed : entry.compressedLength.toNat = payload.length)
    (huncompressed : entry.uncompressedLength.toNat = content.length)
    (hdescriptor : entry.hasDataDescriptor = true →
      Descriptor host.file (entry.offset + payload.length) entry entry)
    (hsize : content.length ≤ size) (hnarrow : size + kBufSize < 2 ^ 32)
    (hfuel : payload.length + content.length < fuel) :
    ∃ writer, extractToMemory host z fuel entry size = some (0, entry, writer) ∧
      writer.written = content := by
  have hrun : ∃ p, extractData host z fuel entry (memoryWriter size) = some (0, p) ∧
      p.writer.written = content ∧ p.pos = entry.offset + payload.length := by
    rw [extractData]
    rcases hpacks with ⟨hmethod, rfl⟩ | ⟨hmethod, initial, hinit, hwill⟩
    · rw [if_pos hmethod]
      obtain ⟨p, hcopy⟩ := copyLoop_complete (le_refl entry.uncompressedLength.toNat)
        (fun n => hcalls (.readBlock n))
        (show (Progress.mk entry.offset 0 (memoryWriter size)).pos +
          entry.uncompressedLength.toNat ≤ host.file.length by
            rw [huncompressed]
            dsimp only
            omega)
        (show size < 2 ^ 32 by omega)
        (show 0 + entry.uncompressedLength.toNat ≤ size by omega) (fun _ => rfl)
      obtain ⟨status, p', hcopy', -, -, n, -, hwritten, hdone⟩ := copyLoop_sound host
        (le_refl entry.uncompressedLength.toNat)
        (show (Progress.mk entry.offset 0 (memoryWriter size)).writer.Narrow from hnarrow)
        (Nat.zero_le _)
      obtain ⟨rfl, rfl⟩ := Prod.mk.inj (Option.some.inj (hcopy.symm.trans hcopy'))
      obtain ⟨rfl, hpos, -⟩ := hdone rfl
      refine ⟨p, hcopy, hwritten.trans ?_, by rw [hpos, huncompressed]⟩
      dsimp only [memoryWriter]
      rw [List.nil_append, huncompressed]
      exact stands_ofBytes.mp hdata
    · rw [if_neg (by rw [hmethod]; decide), if_pos hmethod]
      exact inflateEntryToWriter_complete hz (fun n => hcalls _) hinit hwill hdata (by omega)
        hcompressed huncompressed hsize hnarrow hfuel
  obtain ⟨p, hrun, hwritten, hpos⟩ := hrun
  refine ⟨p.writer, ?_, hwritten⟩
  rw [extractToMemory, extractToWriter, if_neg (Bool.eq_false_iff.mp (hcalls _)), hrun]
  simp only [Option.bind_eq_bind, Option.bind_some]
  by_cases hflag : entry.hasDataDescriptor = true
  · rw [if_pos ⟨trivial, hflag⟩, hpos, updateEntryFromDataDescriptor_complete (hcalls _) hfile
      (hdescriptor hflag), Option.bind_some]
  · rw [if_neg fun h => hflag h.2]

end

/-! ### A zlib for one stream -/

theorem expecting_decodes (stream content : List UInt8) :
    (expecting stream content).Decodes fun s input output => s = (input, output) := by
  rintro state availIn more output availOut rfl hroom hempty
  have htaken : availIn = (availIn ++ more).take availIn.length := (List.take_left).symm
  have hdrop : (availIn ++ more).drop availIn.length = more := List.drop_left
  simp only [expecting, if_pos htaken, hdrop]
  by_cases hmore : more = []
  · refine ⟨output.drop availOut, ?_, ?_⟩
    · rw [if_pos hmore, List.take_append_drop]
    · have hrest : output.drop (output.take availOut).length = output.drop availOut := by
        rw [List.length_take]
        rcases Nat.le_total availOut output.length with hle | hle
        · rw [Nat.min_eq_left hle]
        · rw [Nat.min_eq_right hle, List.drop_length, List.drop_eq_nil_of_le hle]
      simp only [hmore, if_true, true_and, hrest, List.append_nil, List.drop_length, and_true]
      by_cases hend : output.drop availOut = []
      · exact Or.inl ⟨if_pos hend, hend⟩
      · have hsome : output ≠ [] := by
          rintro rfl
          exact hend List.drop_nil
        have hlength := List.length_pos_iff.mpr hsome
        refine Or.inr ⟨?_, ?_⟩
        · rw [if_neg hend, if_neg]
          rintro ⟨-, hnone⟩
          have hzero := congrArg List.length hnone
          rw [List.length_take, List.length_nil] at hzero
          omega
        · rw [List.length_take]
          omega
  · have havail : availIn ≠ [] := fun hnone => hmore (hempty hnone)
    have hpos := List.length_pos_iff.mpr havail
    refine ⟨output, ?_, Or.inr ⟨?_, ?_, ?_⟩⟩
    · rw [if_neg hmore]
      rfl
    · rw [if_neg fun h => hmore h.1, if_neg fun h => havail h.1]
    · exact Nat.lt_add_right _ hpos
    · rw [if_neg hmore, List.drop_length]
      rfl

end Shashlik.ZipArchives
