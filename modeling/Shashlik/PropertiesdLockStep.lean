import Shashlik.PropertiesdFrames
import Shashlik.Library.SystemRuns

set_option autoImplicit false

/-!
# One request at a time

A client that waits for its reply before it sends the next request reads a fixed number of
bytes, 93 after a Get and one after a Set. The Get reply has a length; the Set reply is a C
string started in a one-byte array, so it goes on until the first NUL behind that array.
-/
namespace Shashlik.PropertiesdLockStep
open Settings CStrings SystemRuns Propertiesd PropertiesdPaths PropertiesdFrames

inductive Packet where
  | get (name : Field PROPERTY_KEY_MAX)
  | set (name : Field PROPERTY_KEY_MAX) (value : Field PROP_VALUE_MAX)

def Packet.bytes : Packet → QByteArray
  | .get name => kSystemPropertyGet :: name.bytes
  | .set name value => kSystemPropertySet :: (name.bytes ++ value.bytes)

def Packet.key : Packet → QString
  | .get name => fromLatin1 name.text
  | .set name _ => fromLatin1 name.text

def ofFrame : Frame → Packet
  | .get f => .get f.name
  | .set f => .set f.name f.value

/-- The daemon is undefined for a name of nothing but dots. -/
structure Request where
  packet : Packet
  defined : packet.key = [] ∨ Named packet.key
  stack : Stack

def replySize : Packet → ℕ
  | .get _ => PROP_VALUE_MAX + 1
  | .set _ _ => 1

structure Answer where
  read : QByteArray
  sent : QByteArray

/-- The daemon's store and the reply bytes still in the connection. -/
structure Link where
  settings : QSettings
  pending : QByteArray

def exchange (l : Link) (r : Request) : Option (Link × Answer) :=
  (readRequest r.stack l.settings r.packet.bytes).map (fun o =>
    let bytes := l.pending ++ o.1.reply
    (⟨o.1.settings, bytes.drop (replySize r.packet)⟩,
      ⟨bytes.take (replySize r.packet), o.1.reply⟩))

/-- Nothing is left in the connection before a request, nor after the last one, and every
    request is answered by the bytes sent for it. -/
def LockStep : Link → List Request → Prop
  | l, [] => l.pending = []
  | l, r :: rs =>
    l.pending = [] ∧ ∃ l' a, exchange l r = some (l', a) ∧ a.read = a.sent ∧ LockStep l' rs

theorem setReply_eq (stack : Stack) :
    setReply stack = 1 :: cString ((dump stack.byte stack.bound).drop 1) := by
  obtain ⟨n, hn⟩ : ∃ n, stack.bound = n + 1 := ⟨stack.bound - 1, by have := stack.bound_pos; omega⟩
  have hdump : dump (writeAll stack.byte [(0, 1)]) stack.bound =
      1 :: (dump stack.byte stack.bound).drop 1 := by
    rw [hn]
    simp [dump, writeAll, List.range_succ_eq_map, Function.comp_def]
  rw [setReply, hdump]
  rfl

/-- The Set reply is the one byte that the client waits for exactly when a NUL happens to
    follow the array. -/
theorem setReply_eq_singleton_iff (stack : Stack) : setReply stack = [1] ↔ stack.byte 1 = 0 := by
  have hpos := stack.bound_pos
  have hzero := stack.bound_zero
  rw [setReply_eq]
  by_cases hone : stack.bound = 1
  · rw [hone] at hzero ⊢
    simp [hzero, dump, cString]
  · obtain ⟨n, hn⟩ : ∃ n, stack.bound = n + 2 := ⟨stack.bound - 2, by omega⟩
    simp [hn, dump, List.range_succ_eq_map, cString, List.takeWhile_cons]

theorem getReply_length (stack : Stack) (rv : QByteArray) :
    (getReply stack rv).length = PROP_VALUE_MAX + 1 := by
  simp [getReply, dump]

theorem readRequest_packet (stack : Stack) (q : QSettings) (p : Packet) :
    readRequest stack q p.bytes = (answer stack q p.bytes).map (fun o => (o, [])) := by
  have hle : p.bytes.length ≤ requestSize := by
    cases p <;> simp only [Packet.bytes, List.length_cons, List.length_append,
      Field.bytes_length] <;> decide
  rw [readRequest, List.take_of_length_le hle, List.drop_of_length_le hle]

theorem exchange_get (q : QSettings) (stack : Stack) (name : Field PROPERTY_KEY_MAX)
    (defined : (Packet.get name).key = [] ∨ Named (Packet.get name).key) (hq : q.groups = []) :
    ∃ sent, exchange ⟨q, []⟩ ⟨.get name, defined, stack⟩ = some (⟨q, []⟩, ⟨sent, sent⟩) := by
  obtain ⟨value, hread⟩ : ∃ value, readProperty q (fromLatin1 name.text) = some (value, q) := by
    rcases defined with hempty | hnamed
    · exact ⟨[], if_pos hempty⟩
    · exact ⟨_, readProperty_eq q _ hq hnamed⟩
  have hlen := getReply_length stack (toLatin1 value)
  refine ⟨getReply stack (toLatin1 value), ?_⟩
  rw [exchange, readRequest_packet, Packet.bytes, answer_getField, hread]
  simp only [Option.map_some, replySize, List.nil_append]
  rw [List.drop_of_length_le hlen.le, List.take_of_length_le hlen.le]

theorem exchange_set (q : QSettings) (stack : Stack) (name : Field PROPERTY_KEY_MAX)
    (value : Field PROP_VALUE_MAX)
    (defined : (Packet.set name value).key = [] ∨ Named (Packet.set name value).key)
    (hq : q.groups = []) : ∃ q', q'.groups = [] ∧
      exchange ⟨q, []⟩ ⟨.set name value, defined, stack⟩ =
        some (⟨q', (setReply stack).drop 1⟩, ⟨(setReply stack).take 1, setReply stack⟩) := by
  obtain ⟨q', hq', hwrite⟩ : ∃ q', q'.groups = [] ∧
      writeProperty q (fromLatin1 name.text) (fromLatin1 value.text) = some q' := by
    rcases defined with hempty | hnamed
    · exact ⟨q, hq, if_pos hempty⟩
    · exact ⟨cells.set q (propertyPath (fromLatin1 name.text)) (fromLatin1 value.text), hq,
        writeProperty_eq q _ _ hq hnamed⟩
  refine ⟨q', hq', ?_⟩
  rw [exchange, readRequest_packet, Packet.bytes, answer_setField, hwrite]
  rfl

def NulBehind (r : Request) : Prop :=
  match r.packet with
  | .get _ => True
  | .set _ _ => r.stack.byte 1 = 0

theorem lockStep_iff (q : QSettings) (rs : List Request) (hq : q.groups = []) :
    LockStep ⟨q, []⟩ rs ↔ ∀ r ∈ rs, NulBehind r := by
  induction rs generalizing q with
  | nil => simp [LockStep]
  | cons r rs ih =>
    obtain ⟨packet, defined, stack⟩ := r
    cases packet with
    | get name =>
      obtain ⟨sent, hx⟩ := exchange_get q stack name defined hq
      simp only [LockStep, hx, List.forall_mem_cons, ← ih q hq]
      constructor
      · rintro ⟨_, l', a', he, _, hl⟩
        obtain ⟨rfl, rfl⟩ := Prod.mk.inj (Option.some.inj he)
        exact ⟨trivial, hl⟩
      · rintro ⟨_, hl⟩
        exact ⟨trivial, _, _, rfl, rfl, hl⟩
    | set name value =>
      obtain ⟨q', hq', hx⟩ := exchange_set q stack name value defined hq
      have hnext := ih q' hq'
      have hone := setReply_eq_singleton_iff stack
      simp only [LockStep, hx, List.forall_mem_cons, NulBehind]
      constructor
      · rintro ⟨_, l', a, he, hread, hl⟩
        obtain ⟨rfl, rfl⟩ := Prod.mk.inj (Option.some.inj he)
        have hreply : setReply stack = [1] := by
          rw [setReply_eq] at hread ⊢
          simpa using hread.symm
        have hl' := hl
        rw [hreply] at hl'
        exact ⟨hone.mp hreply, hnext.mp hl'⟩
      · rintro ⟨hnul, hrest⟩
        have hreply := hone.mpr hnul
        refine ⟨trivial, _, _, rfl, ?_, ?_⟩
        · simp [hreply]
        · rw [hreply]
          exact hnext.mpr hrest

/-- The exchange stays in lock-step exactly when a NUL byte follows `rv` at every Set. -/
theorem replies_stay_in_lock_step (entries : AList (fun _ : QString => QString))
    (rs : List Request) :
    LockStep ⟨⟨entries, []⟩, []⟩ rs ↔
      ∀ r ∈ rs, ∀ name value, r.packet = .set name value → r.stack.byte 1 = 0 := by
  rw [lockStep_iff _ _ rfl]
  apply forall₂_congr
  intro r _
  cases hp : r.packet <;> simp [NulBehind, hp]

def sampleSet : SetFrame where
  name := ⟨[97], List.replicate 30 0xdd, by decide, by decide⟩
  value := ⟨[98], List.replicate 90 0xdd, by decide, by decide⟩
  valid := by decide

def surplusStack : Stack := ⟨fun i => if i = 1 then 65 else 0, 2, by decide, by decide⟩

theorem set_reply_leaves_surplus :
    ¬ LockStep ⟨QSettings.empty, []⟩
      [⟨ofFrame (.set sampleSet), Or.inr sampleSet.valid.named, surplusStack⟩] := by
  rw [lockStep_iff _ _ rfl]
  simp [NulBehind, ofFrame, surplusStack]

end Shashlik.PropertiesdLockStep
