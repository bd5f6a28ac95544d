import Shashlik.PropertiesdFrames
import Shashlik.Library.SystemRuns

set_option autoImplicit false

/-!
# Reading your writes over the wire

The abstract property map gives every name a byte string, empty when it was never set. The
daemon, on whole frames of any clients in any order, simulates it: its store holds the
latest value of every name, and a reply shows the value the map has at that moment.
-/
namespace Shashlik.PropertiesdReadYourWrites
open Settings CStrings LatestWrites SystemRuns Propertiesd PropertiesdPaths PropertiesdFrames

abbrev PropertyMap := QString → QByteArray

/-- One frame, from one of the clients, answered with some content of the local memory. -/
structure Call where
  client : ℕ
  frame : Frame
  stack : Stack

structure Reply where
  client : ℕ
  bytes : QByteArray

def serveCall (q : QSettings) (c : Call) : Option (QSettings × Reply) :=
  (readRequest c.stack q c.frame.bytes).map (fun r => (r.1.settings, ⟨c.client, r.1.reply⟩))

/-- What a client makes of a Get reply: its first byte and the string after it. -/
def replyView (bytes : QByteArray) : UInt8 × QByteArray := (bytes.headD 0, cString (bytes.drop 1))

def expectedView (value : QByteArray) : UInt8 × QByteArray := (if value = [] then 0 else 1, value)

def specCall (m : PropertyMap) (c : Call) : PropertyMap × ℕ × Option (UInt8 × QByteArray) :=
  match c.frame with
  | .get f => (m, c.client, some (expectedView (m (fromLatin1 f.name.text))))
  | .set f => (Function.update m (fromLatin1 f.name.text) f.value.text, c.client, none)

/-- The reply goes to the caller and, for a Get, shows the expected value. -/
def Meets (r : Reply) (expected : ℕ × Option (UInt8 × QByteArray)) : Prop :=
  r.client = expected.1 ∧ ∀ v, expected.2 = some v → replyView r.bytes = v

def Storable (value : QByteArray) : Prop := 0 ∉ value ∧ value.length < PROP_VALUE_MAX

instance (value : QByteArray) : Decidable (Storable value) :=
  inferInstanceAs (Decidable (0 ∉ value ∧ value.length < PROP_VALUE_MAX))

def storedValue (q : QSettings) (name : QString) : QByteArray :=
  toLatin1 ((cells.get q (propertyPath name)).getD [])

/-- The store between two requests: no group is open and every name has its value. -/
structure Represents (q : QSettings) (m : PropertyMap) : Prop where
  closed : q.groups = []
  stored : ∀ name, ValidName name → storedValue q name = m name
  storable : ∀ name, ValidName name → Storable (m name)

theorem respMemory_apply (m : Memory) (rv : QByteArray) (i : ℕ) :
    writeAll m (respWrites rv) i =
      if i = rv.length + 2 then 0
      else if 1 ≤ i then (cString rv ++ [0]).getD (i - 1) (m i)
      else if rv.length < 1 then 0 else 1 := by
  have happ : writeAll m (respWrites rv) = Function.update
      (writeAll (Function.update m 0 (if rv.length < 1 then 0 else 1)) (strcpyWrites 1 rv))
      (rv.length + 2) 0 := by
    rw [respWrites, writeAll_append]
    rfl
  rw [happ]
  by_cases hlast : i = rv.length + 2
  · simp [hlast]
  · rw [Function.update_of_ne hlast, if_neg hlast, strcpyWrites, writeAll_writesFrom]
    by_cases hi : 1 ≤ i
    · rw [if_pos hi, if_pos hi, Function.update_of_ne (by omega)]
    · have hzero : i = 0 := by omega
      subst hzero
      simp

theorem replyView_getReply (stack : Stack) (value : QByteArray) (h : Storable value) :
    replyView (getReply stack value) = expectedView value := by
  obtain ⟨hz, hlen⟩ := h
  have hlen' : value.length < 92 := hlen
  have hfirst : (getReply stack value).headD 0 = if value = [] then 0 else 1 := by
    change writeAll stack.byte (respWrites value) 0 = _
    rw [respMemory_apply, if_neg (by omega), if_neg (by omega)]
    cases value <;> simp
  have hstring : cString ((getReply stack value).drop 1) = value := by
    apply cString_dump _ _ _ _ hz
    · intro i hi
      rw [respMemory_apply, if_neg (by omega), if_pos (by omega), cString_of_not_mem value hz]
      simp [List.getD_eq_getElem?_getD, List.getElem?_append_left hi, List.getElem?_eq_getElem hi]
    · rw [respMemory_apply, if_neg (by omega), if_pos (by omega), cString_of_not_mem value hz]
      simp [List.getD_eq_getElem?_getD]
    · simp only [PROP_VALUE_MAX]; omega
  rw [replyView, expectedView, hfirst, hstring]

theorem serveCall_get (q : QSettings) (f : GetFrame) (c : Call) (hc : c.frame = .get f)
    (hq : q.groups = []) :
    serveCall q c =
      some (q, ⟨c.client, getReply c.stack (storedValue q (fromLatin1 f.name.text))⟩) := by
  rw [serveCall, hc, readRequest_frame, answer_get c.stack q f hq]
  rfl

theorem serveCall_set (q : QSettings) (f : SetFrame) (c : Call) (hc : c.frame = .set f)
    (hq : q.groups = []) :
    serveCall q c =
      some (cells.set q (propertyPath (fromLatin1 f.name.text)) (fromLatin1 f.value.text),
        ⟨c.client, setReply c.stack⟩) := by
  rw [serveCall, hc, readRequest_frame, answer_set c.stack q f hq]
  rfl

theorem storedValue_set (q : QSettings) (name name' value : QString) (h : ValidName name)
    (h' : ValidName name') :
    storedValue (cells.set q (propertyPath name) value) name' =
      if name' = name then toLatin1 value else storedValue q name' := by
  have hpath : propertyPath name' = propertyPath name ↔ name' = name :=
    ⟨propertyPath_injective name' name h' h, fun e => e ▸ rfl⟩
  rw [storedValue, cells.get_set]
  by_cases he : name' = name
  · simp [he]
  · rw [if_neg (fun e => he (hpath.mp e)), if_neg he, storedValue]

theorem Represents.set {q : QSettings} {m : PropertyMap} (h : Represents q m) (f : SetFrame) :
    Represents (cells.set q (propertyPath (fromLatin1 f.name.text)) (fromLatin1 f.value.text))
      (Function.update m (fromLatin1 f.name.text) f.value.text) := by
  refine ⟨h.closed, ?_, ?_⟩
  · intro name hv
    rw [storedValue_set q _ name _ f.valid hv, toLatin1_fromLatin1, cString_text]
    by_cases he : name = fromLatin1 f.name.text
    · simp [he]
    · rw [if_neg he, Function.update_of_ne he, h.stored name hv]
  · intro name hv
    by_cases he : name = fromLatin1 f.name.text
    · subst he
      rw [Function.update_self]
      exact ⟨f.value.no_nul, f.value.text_length⟩
    · rw [Function.update_of_ne he]
      exact h.storable name hv

theorem serveCall_simulates : Simulates serveCall specCall Represents Meets := by
  intro q m c h
  cases hf : c.frame with
  | get f =>
    have hv := f.valid
    refine ⟨q, _, serveCall_get q f c hf h.closed, ?_⟩
    simp only [specCall, hf]
    refine ⟨h, rfl, ?_⟩
    intro v hsome
    rw [h.stored _ hv, replyView_getReply _ _ (h.storable _ hv)]
    exact Option.some.inj hsome
  | set f =>
    refine ⟨_, _, serveCall_set q f c hf h.closed, ?_⟩
    simp only [specCall, hf]
    exact ⟨h.set f, rfl, fun v hsome => absurd hsome (by simp)⟩

def initialMap : PropertyMap := fun name => toLatin1 ((latest initialWrites name).getD [])

theorem initialWrites_storable : ∀ p ∈ initialWrites, Storable (toLatin1 p.2) := by
  decide +kernel

theorem initialMap_storable (name : QString) : Storable (initialMap name) := by
  cases hl : latest initialWrites name with
  | none => simp [initialMap, hl, Storable, toLatin1, PROP_VALUE_MAX]
  | some v =>
    have hs := initialWrites_storable _ (mem_of_latest_eq_some initialWrites name v hl)
    simpa [initialMap, hl] using hs

def initialStore : QSettings :=
  initialWrites.foldl (fun q p => cells.set q (propertyPath p.1) p.2) QSettings.empty

theorem initialStore_represents : Represents initialStore initialMap := by
  refine ⟨foldl_paths_groups _ _, ?_, fun name _ => initialMap_storable name⟩
  intro name hv
  have hlatest := latest_map propertyPath initialWrites name
    (fun p hp => propertyPath_injective p.1 name (initialWrites_valid p hp) hv)
  rw [storedValue, initialStore, get_foldl_paths, hlatest, initialMap]
  simp [cells, QSettings.empty]

def setsOf : List Call → List (QString × QByteArray)
  | [] => []
  | c :: cs =>
    match c.frame with
    | .get _ => setsOf cs
    | .set f => (fromLatin1 f.name.text, f.value.text) :: setsOf cs

theorem specCall_run (m : PropertyMap) (calls : List Call) (name : QString) :
    specRun specCall m calls name =
      (latest (setsOf calls) name).getD (m name) := by
  induction calls generalizing m with
  | nil => rfl
  | cons c calls ih =>
    rw [specRun, run_cons, ← specRun, ih]
    cases hf : c.frame with
    | get f => simp [specCall, setsOf, hf]
    | set f =>
      simp only [specCall, setsOf, hf, latest]
      cases latest (setsOf calls) name with
      | some v => simp
      | none =>
        by_cases he : fromLatin1 f.name.text = name
        · simp [he]
        · simp [he, Function.update_of_ne (Ne.symm he)]

/-- The value a Get of `name` has to show after the calls: the latest Set of that very name,
    or else the value of `initProperties`, or else nothing. -/
def lastWritten (calls : List Call) (name : QString) : QByteArray :=
  (latest (setsOf calls) name).getD (initialMap name)

/-- From a first start on an empty store, every frame of every interleaving is answered, the
    reply goes to the client that asked, and a Get shows the latest value of its name. -/
theorem replies_show_latest_writes (calls : List Call) :
    ∃ q₀ q replies, initProperties QSettings.empty = some q₀ ∧
      outputs serveCall q₀ calls = some (q, replies) ∧ replies.length = calls.length ∧
      ∀ (i : ℕ) (c : Call) (f : GetFrame), calls[i]? = some c → c.frame = .get f →
        ∃ r, replies[i]? = some r ∧ r.client = c.client ∧
          replyView r.bytes = expectedView (lastWritten (calls.take i) (Frame.get f).key) := by
  obtain ⟨q, replies, hrun, _, hlen, hmeets⟩ :=
    serveCall_simulates.outputs initialStore initialMap calls initialStore_represents
  refine ⟨initialStore, q, replies, initProperties_empty, hrun, hlen, ?_⟩
  intro i c f hi hf
  obtain ⟨r, hr, hclient, hview⟩ := hmeets i c hi
  refine ⟨r, hr, ?_, ?_⟩
  · simpa [specCall, hf] using hclient
  · apply hview
    simp only [specCall, hf, specCall_run]
    rfl

end Shashlik.PropertiesdReadYourWrites
