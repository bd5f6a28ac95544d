import Shashlik.Library.Linearizability
import Shashlik.PropertiesdLockStep
import Shashlik.PropertiesdReplies

set_option autoImplicit false

/-!
# Many clients of the property daemon

Every client has a connection of its own and waits on it for the reply before it sends again.
The event loop takes the connections with unread bytes in any order, and finds on each a request
as a whole. A Get of a value that its array has no room for has no outcome.
-/
namespace Shashlik.PropertiesdClients
open Settings CStrings SystemRuns Linearizability Propertiesd PropertiesdPaths PropertiesdFrames
open PropertiesdLockStep PropertiesdReadYourWrites PropertiesdReplies LatestWrites

/-- A connection: the bytes that the daemon has not read, those that the client has not read,
    and the request that the client waits for. -/
structure Connection where
  inbox : QByteArray
  outbox : QByteArray
  waiting : Option Frame

structure World where
  settings : QSettings
  connection : ℕ → Connection

def start (q : QSettings) : World := ⟨q, fun _ => ⟨[], [], none⟩⟩

inductive ClientEvent where
  | send (client : ℕ) (frame : Frame)
  | readyRead (client : ℕ) (stack : Stack)
  | receive (client : ℕ)

abbrev Answer := UInt8 × QByteArray

def clientView : Frame → QByteArray → Answer
  | .get _, bytes => replyView bytes
  | .set _, bytes => (bytes.headD 0, [])

def World.update (w : World) (client : ℕ) (conn : Connection) : World :=
  { w with connection := Function.update w.connection client conn }

def step (w : World) : ClientEvent → Option (World × List (Label ℕ Frame Answer))
  | .send client frame =>
    let conn := w.connection client
    match conn.waiting with
    | some _ => some (w, [])
    | none =>
      some (w.update client { conn with inbox := conn.inbox ++ frame.bytes, waiting := some frame },
        [.event (.invoke client frame)])
  | .readyRead client stack =>
    let conn := w.connection client
    (readRequestInside stack w.settings conn.inbox).map fun r =>
      ({ w with settings := r.1.settings }.update client
          { conn with inbox := r.2, outbox := conn.outbox ++ r.1.reply },
        if r.1.reply = [] then [] else [.point client])
  | .receive client =>
    let conn := w.connection client
    match conn.waiting with
    | none => some (w, [])
    | some frame =>
      if conn.outbox.length < replySize (ofFrame frame) then some (w, [])
      else some (w.update client { conn with
          outbox := conn.outbox.drop (replySize (ofFrame frame)), waiting := none },
        [.event (.respond client (clientView frame (conn.outbox.take (replySize (ofFrame frame)))))])

/-- The property map as the clients see it. -/
def specFrame (m : PropertyMap) : Frame → PropertyMap × Answer
  | .get f => (m, expectedView (m (fromLatin1 f.name.text)))
  | .set f => (Function.update m (fromLatin1 f.name.text) f.value.text, (1, []))

/-- A value that is set leaves room for the byte that a Get writes behind its NUL. -/
def Short : Frame → Prop
  | .get _ => True
  | .set f => f.value.text.length ≤ 90

/-- A connection as the client's place in its call has it. -/
def Attends (conn : Connection) : Status Frame Answer → Prop
  | .idle => conn = ⟨[], [], none⟩
  | .pending frame => conn = ⟨frame.bytes, [], some frame⟩ ∧ Short frame
  | .done answer => ∃ frame bytes, conn = ⟨[], bytes, some frame⟩ ∧
      bytes.length = replySize (ofFrame frame) ∧ clientView frame bytes = answer

structure Follow (w : World) (x : PropertyMap × (ℕ → Status Frame Answer)) : Prop where
  represents : Represents w.settings x.1
  short : ∀ name, (x.1 name).length ≤ 90
  attends : ∀ client, Attends (w.connection client) (x.2 client)

/-- A NUL follows the array of a Set reply, and the values that are set are short. -/
def Allowed : ClientEvent → Prop
  | .readyRead _ stack => stack.byte 1 = 0
  | .send _ frame => Short frame
  | .receive _ => True

theorem connection_update (w : World) (client : ℕ) (conn : Connection) :
    (w.update client conn).connection client = conn := Function.update_self ..

theorem connection_update_of_ne (w : World) {client client' : ℕ} (conn : Connection)
    (h : client' ≠ client) : (w.update client conn).connection client' = w.connection client' :=
  Function.update_of_ne h ..

theorem Attends.update {w : World} {status : ℕ → Status Frame Answer} (q : QSettings)
    (h : ∀ client, Attends (w.connection client) (status client)) (client : ℕ)
    {conn : Connection} {st : Status Frame Answer} (hconn : Attends conn st) (client' : ℕ) :
    Attends (({ w with settings := q }.update client conn).connection client')
      (Function.update status client st client') := by
  by_cases hc : client' = client
  · subst hc
    rwa [connection_update, Function.update_self]
  · rw [connection_update_of_ne _ _ hc, Function.update_of_ne hc]
    exact h client'

theorem readRequestInside_empty (stack : Stack) (q : QSettings) :
    readRequestInside stack q [] = some (⟨q, none, []⟩, []) := by
  rw [readRequestInside, if_pos (by simp [requestWrites]), readRequest, List.take_nil,
    List.drop_nil, answer_short _ _ _ (by decide)]
  rfl

theorem readRequestInside_get {q : QSettings} {m : PropertyMap} (h : Represents q m)
    (f : GetFrame) (hshort : (m (fromLatin1 f.name.text)).length ≤ 90) (stack : Stack) :
    ∃ o, readRequestInside stack q (Frame.get f).bytes = some (o, []) ∧
      o.settings = q ∧ o.reply.length = PROP_VALUE_MAX + 1 ∧
      replyView o.reply = expectedView (m (fromLatin1 f.name.text)) := by
  have hvalue : toLatin1 ((cells.get q (propertyPath (fromLatin1 f.name.text))).getD []) =
      m (fromLatin1 f.name.text) := h.stored _ f.valid
  have hkey : fromLatin1 ((Frame.get f).bytes.drop 1) = fromLatin1 f.name.text :=
    f.name.fromLatin1_bytes
  have hwrites : requestWrites q (Frame.get f).bytes =
      respWrites (m (fromLatin1 f.name.text)) := by
    rw [requestWrites, if_neg (by
      rw [not_or, not_not]
      exact ⟨(Frame.get f).not_short, rfl⟩), hkey, readProperty_eq q _ h.closed f.valid.named,
      ← hvalue]
    rfl
  have hinside : ∀ w ∈ requestWrites q ((Frame.get f).bytes.take requestSize),
      w.1 ≤ PROP_VALUE_MAX := by
    rw [List.take_of_length_le (Frame.get f).bytes_length_le, hwrites]
    exact (respWrites_inside_iff _).mpr hshort
  rw [readRequestInside, if_pos hinside, readRequest_frame, answer_get stack q f h.closed, hvalue]
  exact ⟨_, rfl, rfl, getReply_length _ _, replyView_getReply stack _ (h.storable _ f.valid)⟩

theorem readRequestInside_follows {q : QSettings} {m : PropertyMap} (h : Represents q m)
    (hshort : ∀ name, (m name).length ≤ 90) (frame : Frame) {stack : Stack}
    (hstack : stack.byte 1 = 0) :
    ∃ o, readRequestInside stack q frame.bytes = some (o, []) ∧
      Represents o.settings (specFrame m frame).1 ∧ o.reply.length = replySize (ofFrame frame) ∧
      clientView frame o.reply = (specFrame m frame).2 := by
  cases frame with
  | get f =>
    obtain ⟨o, hread, hsettings, hlength, hview⟩ := readRequestInside_get h f (hshort _) stack
    refine ⟨o, hread, ?_, hlength, hview⟩
    rw [hsettings]
    exact h
  | set f =>
    have hwrites : requestWrites q ((Frame.set f).bytes.take requestSize) = [] := by
      rw [List.take_of_length_le (Frame.set f).bytes_length_le]
      exact if_pos (Or.inr (by decide : kSystemPropertySet ≠ kSystemPropertyGet))
    rw [readRequestInside, hwrites, if_pos (List.forall_mem_nil _), readRequest_frame,
      answer_set stack q f h.closed]
    have hreply := (setReply_eq_singleton_iff stack).mpr hstack
    refine ⟨_, rfl, h.set f, ?_, ?_⟩
    · rw [hreply]
      rfl
    · rw [hreply]
      rfl

theorem specFrame_short {m : PropertyMap} (h : ∀ name, (m name).length ≤ 90) {frame : Frame}
    (hframe : Short frame) (name : QString) : ((specFrame m frame).1 name).length ≤ 90 := by
  cases frame with
  | get f => exact h name
  | set f =>
    change (Function.update m (fromLatin1 f.name.text) f.value.text name).length ≤ 90
    by_cases he : name = fromLatin1 f.name.text
    · rw [he, Function.update_self]
      exact hframe
    · rw [Function.update_of_ne he]
      exact h name

theorem initialMap_short (name : QString) : (initialMap name).length ≤ 90 := by
  rw [initialMap, toLatin1, List.length_map]
  cases hl : latest initialWrites name with
  | none => exact Nat.zero_le _
  | some v => exact initialWrites_short _ (mem_of_latest_eq_some initialWrites name v hl)

theorem replySize_pos (frame : Frame) : 0 < replySize (ofFrame frame) := by
  cases frame with
  | get f => exact Nat.succ_pos _
  | set f => exact Nat.one_pos

/-! ### Steps -/

section Steps
variable {w : World} {client : ℕ}

theorem step_send (frame : Frame) (h : w.connection client = ⟨[], [], none⟩) :
    step w (.send client frame) = some (w.update client ⟨frame.bytes, [], some frame⟩,
      [.event (.invoke client frame)]) := by
  unfold step
  dsimp only
  rw [h]
  rfl

theorem step_send_waiting (frame : Frame) {frame' : Frame}
    (h : (w.connection client).waiting = some frame') :
    step w (.send client frame) = some (w, []) := by
  unfold step
  dsimp only
  rw [h]

theorem step_readyRead_empty (stack : Stack) {outbox : QByteArray} {waiting : Option Frame}
    (h : w.connection client = ⟨[], outbox, waiting⟩) :
    step w (.readyRead client stack) = some (w, []) := by
  unfold step
  dsimp only
  rw [h, readRequestInside_empty]
  have hupdate : w.update client ⟨[], outbox, waiting⟩ = w := by
    unfold World.update
    rw [← h, Function.update_eq_self]
  dsimp only [Option.map_some]
  rw [List.append_nil, if_pos rfl]
  exact congrArg (fun w => some (w, [])) hupdate

theorem step_readyRead {stack : Stack} {frame : Frame} {o : Outcome}
    (h : w.connection client = ⟨frame.bytes, [], some frame⟩)
    (hread : readRequestInside stack w.settings frame.bytes = some (o, []))
    (hreply : o.reply ≠ []) :
    step w (.readyRead client stack) = some (({ w with settings := o.settings } : World).update
      client ⟨[], o.reply, some frame⟩, [.point client]) := by
  unfold step
  dsimp only
  rw [h, hread]
  dsimp only [Option.map_some]
  rw [if_neg hreply]
  rfl

theorem step_receive_idle (h : (w.connection client).waiting = none) :
    step w (.receive client) = some (w, []) := by
  unfold step
  dsimp only
  rw [h]

theorem step_receive_early {inbox : QByteArray} {frame : Frame}
    (h : w.connection client = ⟨inbox, [], some frame⟩) :
    step w (.receive client) = some (w, []) := by
  unfold step
  dsimp only
  rw [h]
  exact if_pos (replySize_pos frame)

theorem step_receive {frame : Frame} {bytes : QByteArray}
    (h : w.connection client = ⟨[], bytes, some frame⟩) (hlength : bytes.length = replySize (ofFrame frame)) :
    step w (.receive client) = some (w.update client ⟨[], [], none⟩,
      [.event (.respond client (clientView frame bytes))]) := by
  unfold step
  dsimp only
  rw [h]
  dsimp only
  rw [if_neg (by omega), ← hlength, List.drop_length, List.take_length]

end Steps

theorem step_follows : Follows step specFrame Follow Allowed := by
  intro w x e hfollow hallowed
  obtain ⟨hrepresents, hshort, hattends⟩ := hfollow
  obtain ⟨m, status⟩ := x
  dsimp only at hrepresents hshort hattends
  cases e with
  | send client frame =>
    have hclient := hattends client
    cases hstatus : status client with
    | idle =>
      rw [hstatus] at hclient
      refine ⟨_, _, step_send frame hclient, Or.inr ⟨_, _, rfl,
        .invoke m status client frame hstatus, hrepresents, hshort, ?_⟩⟩
      exact Attends.update w.settings hattends client ⟨rfl, hallowed⟩
    | pending frame' =>
      rw [hstatus] at hclient
      exact ⟨w, [], step_send_waiting frame (congrArg Connection.waiting hclient.1),
        Or.inl ⟨rfl, hrepresents, hshort, hattends⟩⟩
    | done answer =>
      rw [hstatus] at hclient
      obtain ⟨frame', bytes, hconn, -, -⟩ := hclient
      exact ⟨w, [], step_send_waiting frame (congrArg Connection.waiting hconn),
        Or.inl ⟨rfl, hrepresents, hshort, hattends⟩⟩
  | readyRead client stack =>
    have hclient := hattends client
    cases hstatus : status client with
    | idle =>
      rw [hstatus] at hclient
      exact ⟨w, [], step_readyRead_empty stack hclient,
        Or.inl ⟨rfl, hrepresents, hshort, hattends⟩⟩
    | pending frame =>
      rw [hstatus] at hclient
      obtain ⟨o, hread, hrepresents', hlength, hview⟩ :=
        readRequestInside_follows hrepresents hshort frame hallowed
      have hreply : o.reply ≠ [] := by
        rw [← List.length_pos_iff, hlength]
        exact replySize_pos frame
      refine ⟨_, _, step_readyRead hclient.1 hread hreply, Or.inr ⟨_, _, rfl,
        .point m status client frame hstatus, hrepresents',
        specFrame_short hshort hclient.2, ?_⟩⟩
      exact Attends.update o.settings hattends client ⟨frame, o.reply, rfl, hlength, hview⟩
    | done answer =>
      rw [hstatus] at hclient
      obtain ⟨frame, bytes, hconn, -, -⟩ := hclient
      exact ⟨w, [], step_readyRead_empty stack hconn,
        Or.inl ⟨rfl, hrepresents, hshort, hattends⟩⟩
  | receive client =>
    have hclient := hattends client
    cases hstatus : status client with
    | idle =>
      rw [hstatus] at hclient
      exact ⟨w, [], step_receive_idle (congrArg Connection.waiting hclient),
        Or.inl ⟨rfl, hrepresents, hshort, hattends⟩⟩
    | pending frame =>
      rw [hstatus] at hclient
      exact ⟨w, [], step_receive_early hclient.1, Or.inl ⟨rfl, hrepresents, hshort, hattends⟩⟩
    | done answer =>
      rw [hstatus] at hclient
      obtain ⟨frame, bytes, hconn, hlength, rfl⟩ := hclient
      refine ⟨_, _, step_receive hconn hlength, Or.inr ⟨_, _, rfl,
        .respond m status client _ hstatus, hrepresents, hshort, ?_⟩⟩
      exact Attends.update w.settings hattends client rfl

theorem follow_start : Follow (start initialStore) (initialMap, fun _ => .idle) :=
  ⟨initialStore_represents, initialMap_short, fun _ => rfl⟩

theorem step_invoke {w : World} {e : ClientEvent} {r : World × List (Label ℕ Frame Answer)}
    (h : step w e = some r) {client : ℕ} {frame : Frame}
    (hmem : .event (.invoke client frame) ∈ r.2) : e = .send client frame := by
  cases e with
  | send client' frame' =>
    rw [step] at h
    split at h
    · rw [← Option.some.inj h] at hmem
      cases hmem
    · rw [← Option.some.inj h] at hmem
      obtain ⟨rfl, rfl⟩ : client = client' ∧ frame = frame' := by simpa using hmem
      rfl
  | readyRead client' stack =>
    rw [step] at h
    obtain ⟨o, -, rfl⟩ := Option.map_eq_some_iff.mp h
    dsimp only at hmem
    split at hmem
    · cases hmem
    · simp at hmem
  | receive client' =>
    rw [step] at h
    split at h
    · rw [← Option.some.inj h] at hmem
      cases hmem
    · split at h
      · rw [← Option.some.inj h] at hmem
        cases hmem
      · rw [← Option.some.inj h] at hmem
        simp at hmem

/-! ### Histories -/

theorem clients_explained (es : List ClientEvent) (hallowed : ∀ e ∈ es, Allowed e) :
    ∃ w labels order x, outputs step (start initialStore) es = some (w, labels) ∧ Follow w x ∧
      Explains specFrame initialMap (history labels.flatten) order x := by
  obtain ⟨w, labels, order, x, hrun, hfollow, hexplains⟩ := step_follows.explains
    follow_start (explains_start specFrame initialMap) es hallowed
  exact ⟨w, labels, order, x, hrun, hfollow, hexplains⟩

theorem mem_history_iff {ls : List (Label ℕ Frame Answer)} {e : Event ℕ Frame Answer} :
    e ∈ history ls ↔ .event e ∈ ls := by
  rw [history, List.mem_filterMap]
  constructor
  · rintro ⟨l, hl, he⟩
    cases l with
    | event e' =>
      rw [← Option.some.inj he]
      exact hl
    | point client => cases he
  · intro h
    exact ⟨_, h, rfl⟩

theorem invoked_sent {es : List ClientEvent} {w w' : World}
    {labels : List (List (Label ℕ Frame Answer))}
    (hrun : outputs step w es = some (w', labels)) {client : ℕ} {frame : Frame}
    (h : .event (.invoke client frame) ∈ labels.flatten) : .send client frame ∈ es := by
  induction es generalizing w labels with
  | nil =>
    obtain ⟨-, rfl⟩ := Prod.mk.inj (Option.some.inj hrun)
    simp at h
  | cons e es ih =>
    rw [outputs] at hrun
    cases hstep : step w e with
    | none =>
      rw [hstep] at hrun
      cases hrun
    | some r =>
      rw [hstep] at hrun
      obtain ⟨s, hs, heq⟩ := Option.map_eq_some_iff.mp hrun
      obtain ⟨rfl, rfl⟩ := Prod.mk.inj heq
      rw [List.flatten_cons, List.mem_append] at h
      obtain h | h := h
      · rw [step_invoke hstep h]
        exact List.mem_cons_self
      · exact List.mem_cons_of_mem _ (ih hs h)

theorem specRun_untouched (name : QString) (frames : List Frame)
    (h : ∀ f, .set f ∈ frames → fromLatin1 f.name.text ≠ name) (m : PropertyMap) :
    specRun specFrame m frames name = m name := by
  induction frames generalizing m with
  | nil => rfl
  | cons frame frames ih =>
    rw [specRun, run_cons, ← specRun, ih fun f hf => h f (List.mem_cons_of_mem _ hf)]
    cases frame with
    | get f => rfl
    | set f => exact Function.update_of_ne (h f List.mem_cons_self).symm _ _

def overlapping : List ClientEvent :=
  [.send 0 (.set sampleSet), .send 1 (.set sampleSet), .readyRead 1 plainStack, .receive 1,
    .readyRead 0 plainStack, .receive 0]

theorem overlapping_allowed : ∀ e ∈ overlapping, Allowed e := by
  have hshort : Short (.set sampleSet) := show sampleSet.value.text.length ≤ 90 by decide
  simp [overlapping, Allowed, hshort, plainStack]

theorem Follow.answered {w : World} {x : PropertyMap × (ℕ → Status Frame Answer)}
    (h : Follow w x) {client : ℕ} {frame : Frame}
    (hwaiting : (w.connection client).waiting = some frame) {stack : Stack}
    (hnul : stack.byte 1 = 0) : ∃ w' labels answer,
      outputs step w [.readyRead client stack, .receive client] = some (w', labels) ∧
      .event (.respond client answer) ∈ labels.flatten ∧
      (w'.connection client).waiting = none ∧
      ∀ client', client' ≠ client → w'.connection client' = w.connection client' := by
  have hclient := h.attends client
  cases hstatus : x.2 client with
  | idle =>
    rw [hstatus] at hclient
    rw [show w.connection client = ⟨[], [], none⟩ from hclient] at hwaiting
    cases hwaiting
  | pending frame' =>
    rw [hstatus] at hclient
    obtain ⟨o, hread, -, hlength, -⟩ :=
      readRequestInside_follows h.represents h.short frame' hnul
    have hreply : o.reply ≠ [] := by
      rw [← List.length_pos_iff, hlength]
      exact replySize_pos frame'
    set w₁ : World := ({ w with settings := o.settings } : World).update client
      ⟨[], o.reply, some frame'⟩ with hw₁
    have hconn : w₁.connection client = ⟨[], o.reply, some frame'⟩ := connection_update ..
    refine ⟨w₁.update client ⟨[], [], none⟩,
      [[.point client], [.event (.respond client (clientView frame' o.reply))]],
      clientView frame' o.reply, ?_, by simp, ?_, fun client' hne => ?_⟩
    · simp only [outputs, step_readyRead hclient.1 hread hreply, ← hw₁, step_receive hconn hlength]
      rfl
    · rw [connection_update]
    · rw [connection_update_of_ne _ _ hne, hw₁, connection_update_of_ne _ _ hne]
  | done answer =>
    rw [hstatus] at hclient
    obtain ⟨frame', bytes, hconn, hlength, -⟩ := hclient
    refine ⟨w.update client ⟨[], [], none⟩,
      [[], [.event (.respond client (clientView frame' bytes))]],
      clientView frame' bytes, ?_, by simp, ?_, fun client' hne => ?_⟩
    · simp only [outputs, step_readyRead_empty stack hconn, step_receive hconn hlength]
      rfl
    · rw [connection_update]
    · rw [connection_update_of_ne _ _ hne]

end Shashlik.PropertiesdClients
