import Mathlib.Data.List.TakeWhile
import Shashlik.ServiceController
import Shashlik.Library.TextTemplates

set_option autoImplicit false

/-!
# Relaying what the processes print

`logSomething` puts an origin and a line into a template and hands the result to `printf` as
its format. Both the origin and the line are read as templates on the way.
-/
namespace Shashlik.ControllerLogs
open ServiceController TextTemplates

def nul : Char := Char.ofNat 0

/-- What is left of a text that is read up to a NUL. -/
def cText (s : List Char) : List Char := s.takeWhile (fun c => c ≠ nul)

def origin (w : World) (proc : QProcess) : List Char :=
  if w.isProcess .zygote proc then "Zygote".toList
  else if w.isProcess .servicemanager proc then "Servicemanager".toList
  else if w.isProcess .surfaceflinger proc then "SurfaceFlinger".toList
  else if w.isProcess .installd proc then "Installer Daemon".toList
  else if w.isProcess .bootanimation proc then "Bootanimation".toList
  else if w.isProcess .adbd proc then "ADBD".toList
  else if w.controller.applications.any (fun q => q.object = proc.object) then
    proc.objectName.toList
  else arg "Unknown Process (%1)".toList (toString proc.processId).toList

/-- `printf(qPrintable(output))`; undefined where the format asks for an argument. -/
def relay (origin line : List Char) : Option (List Char) :=
  let output := arg (arg "%1: %2".toList origin) (cText line)
  format (cText output)

/-- The complete lines in what a process has printed, and the rest; `line` is read already. -/
def readLines : List Char → List Char → List (List Char) × List Char
  | line, [] => ([], line)
  | line, c :: s =>
    if c = '\n' then ((line ++ [c]) :: (readLines [] s).1, (readLines [] s).2)
    else readLines (line ++ [c]) s

def printAll (w : World) (outputs : List (List Char)) : World :=
  outputs.foldl (fun w output => w.emit (.print (String.ofList output))) w

/-- The slot for one sender, with what it has printed and nobody has read. -/
def logSomething (w : World) (proc : QProcess) (buffer : List Char) :
    Option (World × List Char) :=
  let lines := readLines [] buffer
  (lines.1.mapM (relay (origin w proc))).map (fun outputs => (printAll w outputs, lines.2))

/-- Nothing in the text is a marker or a conversion, and nothing ends it early. -/
def Plain (s : List Char) : Prop := '%' ∉ s ∧ nul ∉ s

instance (s : List Char) : Decidable (Plain s) := inferInstanceAs (Decidable (_ ∧ _))

def prefixed (origin line : List Char) : List Char := origin ++ ':' :: ' ' :: line

theorem cText_of_not_mem (s : List Char) (h : nul ∉ s) : cText s = s := by
  apply List.takeWhile_eq_self_iff.mpr
  intro c hc
  exact decide_eq_true (fun he => h (he ▸ hc))

theorem nul_not_mem_cText (s : List Char) : nul ∉ cText s := by
  intro h
  have hne := List.mem_takeWhile_imp h
  simp at hne

theorem arg_origin (origin : List Char) :
    arg "%1: %2".toList origin = origin ++ ':' :: ' ' :: ['%', '2'] := rfl

theorem separates_colon : Separates ':' := by decide

theorem markers_origin (origin : List Char) :
    markers (origin ++ ':' :: ' ' :: ['%', '2']) = markers origin ++ [2] := by
  rw [markers_append origin ':' _ separates_colon]
  rfl

theorem replaceMarkers_origin (n : ℕ) (value origin : List Char) :
    replaceMarkers n value 0 (origin ++ ':' :: ' ' :: ['%', '2']) =
      replaceMarkers n value 0 origin ++
        ':' :: ' ' :: if 2 = n then value else ['%', '2'] := by
  rw [replaceMarkers_append n value origin ':' _ separates_colon 0 (Nat.zero_le _)]
  by_cases hn : 2 = n
  · subst hn
    simp [replaceMarkers, marker, number, digit]
  · simp [replaceMarkers, marker, number, digit, hn]

theorem arg_line (origin line : List Char) :
    ∃ text, arg (arg "%1: %2".toList origin) line = text ++ ':' :: ' ' :: ['%', '2'] ∨
      arg (arg "%1: %2".toList origin) line = text ++ ':' :: ' ' :: line ∧
        text = replaceMarkers 2 line 0 origin := by
  rw [arg_origin, arg, markers_origin]
  cases hmin : (markers origin ++ [2]).min? with
  | none => exact absurd hmin (by simp)
  | some n =>
    refine ⟨replaceMarkers n line 0 origin, ?_⟩
    simp only [replaceMarkers_origin]
    by_cases hn : 2 = n
    · subst hn
      exact Or.inr ⟨by simp, rfl⟩
    · exact Or.inl (by simp [hn])

theorem no_percent_of_format {text line origin out : List Char}
    (h : format (text ++ ':' :: ' ' :: line) = some out) (hout : out = prefixed origin line) :
    '%' ∉ line ∧ format text = some origin := by
  rw [format_append text ':' _ (by decide), format_cons_of_ne ' ' line (by decide)] at h
  obtain ⟨text', htext, h⟩ := Option.bind_eq_some_iff.mp h
  obtain ⟨blank, hblank, h⟩ := Option.map_eq_some_iff.mp h
  obtain ⟨line', hline, rfl⟩ := Option.map_eq_some_iff.mp hblank
  obtain ⟨hcount, hlength⟩ := (formats_of_eq_some line line' hline).count
  have hsplit : (text' ++ [':', ' ']) ++ line' = (origin ++ [':', ' ']) ++ line := by
    rw [List.append_assoc, List.append_assoc]
    exact h.trans hout
  -- the line loses as many characters as it has pairs of '%', all of them in front
  obtain ⟨lost, hlost, hrest⟩ : ∃ lost, text' ++ [':', ' '] = origin ++ [':', ' '] ++ lost ∧
      line = lost ++ line' := by
    rcases List.append_eq_append_iff.mp hsplit with ⟨lost, hlost, hrest⟩ | ⟨lost, hlost, hrest⟩
    · have hnil : lost = [] := by
        have hle := congrArg List.length hrest
        rw [List.length_append] at hle
        exact List.length_eq_zero_iff.mp (by omega)
      refine ⟨[], ?_, ?_⟩
      · rw [hlost, hnil]
        simp
      · rw [hrest, hnil]
        simp
    · exact ⟨lost, hlost, hrest⟩
  have hall : lost.count '%' = lost.length := by
    rw [hrest, List.count_append] at hcount
    rw [hrest, List.length_append] at hlength
    omega
  have hnil : lost = [] := by
    by_contra hne
    have hlast := congrArg List.getLast? hlost
    rw [List.getLast?_append_of_ne_nil _ hne, List.getLast?_append_of_ne_nil _ (by simp)] at hlast
    have hmem : ' ' ∈ lost := List.mem_of_getLast? (hlast.symm.trans rfl)
    exact absurd (List.count_eq_length.mp hall ' ' hmem) (by decide)
  subst hnil
  refine ⟨?_, ?_⟩
  · rw [List.nil_append] at hrest
    rw [← hrest] at hcount
    exact List.count_eq_zero.mp (by omega)
  · rw [htext, List.append_nil] at *
    exact congrArg some (List.append_cancel_right hlost)

theorem relay_plain (origin line : List Char) (ho : Plain origin) (hl : Plain line) :
    relay origin line = some (prefixed origin line) := by
  have hpercent : '%' ∉ prefixed origin line := by
    simp only [prefixed, List.mem_append, List.mem_cons, not_or]
    exact ⟨ho.1, by decide, by decide, hl.1⟩
  have hnul : nul ∉ prefixed origin line := by
    simp only [prefixed, List.mem_append, List.mem_cons, not_or]
    exact ⟨ho.2, by decide, by decide, hl.2⟩
  have houtput : arg (arg "%1: %2".toList origin) line = prefixed origin line := by
    rw [arg_origin, arg, markers_origin, markers_of_not_mem origin ho.1]
    simp only [List.nil_append, List.min?_singleton, replaceMarkers_origin, ↓reduceIte,
      replaceMarkers_of_not_mem 2 line origin ho.1]
    rfl
  rw [relay, cText_of_not_mem line hl.2, houtput, cText_of_not_mem _ hnul,
    format_of_not_mem _ hpercent]

theorem relay_eq_iff (origin line : List Char) :
    relay origin line = some (prefixed origin line) ↔ Plain origin ∧ Plain line := by
  constructor
  · intro h
    have hnul : nul ∉ prefixed origin line := fun hm =>
      nul_not_mem_cText _ ((formats_of_eq_some _ _ h).subset hm)
    simp only [prefixed, List.mem_append, List.mem_cons, not_or] at hnul
    obtain ⟨hnulo, -, -, hnull⟩ := hnul
    have hkept : nul ∉ arg (arg "%1: %2".toList origin) line := by
      intro hm
      rcases mem_arg _ _ _ hm with hm | hm
      · exact hnull hm
      · rw [arg_origin, List.mem_append] at hm
        exact hm.elim hnulo (by decide)
    rw [relay, cText_of_not_mem line hnull, cText_of_not_mem _ hkept] at h
    obtain ⟨text, htext | ⟨htext, hreplaced⟩⟩ := arg_line origin line
    · rw [htext, format_append text ':' _ (by decide)] at h
      have hstuck : format (' ' :: ['%', '2']) = none := rfl
      simp [hstuck] at h
    · rw [htext] at h
      obtain ⟨hline, hformat⟩ := no_percent_of_format h rfl
      refine ⟨⟨?_, hnulo⟩, hline, hnull⟩
      have hcount := (formats_of_eq_some _ _ hformat).count.1
      have hle := count_replaceMarkers_le 2 line hline 0 origin
      rw [← hreplaced, hcount] at hle
      exact List.count_eq_zero.mp (by omega)
  · rintro ⟨ho, hl⟩
    exact relay_plain origin line ho hl

/-- The sender is no service and one of the applications, so that its name is the origin. -/
def IsApplication (w : World) (proc : QProcess) : Prop :=
  (∀ s, w.isProcess s proc = false) ∧
    w.controller.applications.any (fun q => q.object = proc.object) = true

theorem plain_toString (n : ℕ) : Plain (toString n).toList := by
  have hdigits : ∀ c ∈ (toString n).toList, c.isDigit = true := by
    intro c hc
    rw [Nat.toString_eq_repr, Nat.toList_repr] at hc
    exact Nat.isDigit_of_mem_toDigits (by decide) (by decide) hc
  exact ⟨fun h => absurd (hdigits _ h) (by decide), fun h => absurd (hdigits _ h) (by decide)⟩

theorem arg_unknown (n : ℕ) : arg "Unknown Process (%1)".toList (toString n).toList =
    "Unknown Process (".toList ++ ((toString n).toList ++ [')']) := rfl

theorem plain_unknown (n : ℕ) :
    Plain (arg "Unknown Process (%1)".toList (toString n).toList) := by
  obtain ⟨hpercent, hnul⟩ := plain_toString n
  rw [arg_unknown, Plain, List.mem_append, List.mem_append, List.mem_append, List.mem_append, not_or,
    not_or, not_or, not_or]
  exact ⟨⟨by decide, hpercent, by decide⟩, by decide, hnul, by decide⟩

theorem plain_origin_of_service {w : World} {proc : QProcess} {s : Service}
    (h : w.isProcess s proc = true) : Plain (origin w proc) := by
  unfold origin
  split_ifs with hzygote hservicemanager hsurfaceflinger hinstalld hbootanimation hadbd
  · decide
  · decide
  · decide
  · decide
  · decide
  · decide
  all_goals
    -- no service is left for the process
    cases s <;> contradiction

theorem plain_origin_iff (w : World) (proc : QProcess) :
    Plain (origin w proc) ↔ (IsApplication w proc → Plain proc.objectName.toList) := by
  by_cases hservice : ∃ s, w.isProcess s proc = true
  · refine iff_of_true (plain_origin_of_service hservice.choose_spec) (fun h => ?_)
    obtain ⟨s, hs⟩ := hservice
    rw [h.1 s] at hs
    exact absurd hs (by decide)
  · push Not at hservice
    have hfalse : ∀ s, w.isProcess s proc = false := fun s => Bool.eq_false_iff.mpr (hservice s)
    simp only [origin, hfalse, Bool.false_eq_true, ↓reduceIte]
    by_cases happ : w.controller.applications.any (fun q => q.object = proc.object) = true
    · rw [if_pos happ]
      exact ⟨fun h _ => h, fun h => h ⟨hfalse, happ⟩⟩
    · rw [if_neg happ]
      exact iff_of_true (plain_unknown _) (fun h => absurd h.2 happ)

/-! ### Lines and origins -/

/-- The buffer is its lines, each with the newline that ends it, and a rest without one. -/
structure Lines (buffer : List Char) (lines : List (List Char)) (rest : List Char) : Prop where
  whole : lines.flatten ++ rest = buffer
  ends : ∀ line ∈ lines, ∃ text, line = text ++ ['\n'] ∧ '\n' ∉ text
  rest : '\n' ∉ rest

theorem readLines_lines (line s : List Char) (hline : '\n' ∉ line) :
    Lines (line ++ s) (readLines line s).1 (readLines line s).2 := by
  induction s generalizing line with
  | nil =>
    rw [List.append_nil, readLines]
    exact
      { whole := rfl
        ends := fun _ h => absurd h List.not_mem_nil
        rest := hline }
  | cons c s ih =>
    by_cases hc : c = '\n'
    · have hrest := ih [] List.not_mem_nil
      rw [readLines, if_pos hc]
      exact
        { whole := by
            rw [List.flatten_cons, List.append_assoc, hrest.whole, List.append_assoc]
            rfl
          ends := List.forall_mem_cons.mpr ⟨⟨line, by rw [hc], hline⟩, hrest.ends⟩
          rest := hrest.rest }
    · rw [readLines, if_neg hc, List.append_cons]
      apply ih
      rw [List.mem_append, List.mem_singleton, not_or]
      exact ⟨hline, fun h => hc h.symm⟩

def serviceName : Service → List Char
  | .zygote => "Zygote".toList
  | .servicemanager => "Servicemanager".toList
  | .surfaceflinger => "SurfaceFlinger".toList
  | .installd => "Installer Daemon".toList
  | .bootanimation => "Bootanimation".toList
  | .adbd => "ADBD".toList

/-- What a process is called: by the service it is the process of, by the name of its object, or by
    its number. -/
structure IsOrigin (w : World) (proc : QProcess) (text : List Char) : Prop where
  service : ∀ s, w.isProcess s proc = true → (∀ s', w.isProcess s' proc = true → s' = s) →
    text = serviceName s
  application : IsApplication w proc → text = proc.objectName.toList
  unknown : (∀ s, w.isProcess s proc = false) →
    w.controller.applications.any (fun q => q.object = proc.object) = false →
    text = "Unknown Process (".toList ++ ((toString proc.processId).toList ++ [')'])

theorem origin_isOrigin (w : World) (proc : QProcess) : IsOrigin w proc (origin w proc) where
  service s hs hunique := by
    have hother (s' : Service) (hne : s' ≠ s) : ¬ w.isProcess s' proc = true :=
      fun h => hne (hunique s' h)
    rw [origin]
    cases s with
    | zygote => rw [if_pos hs]; rfl
    | servicemanager => rw [if_neg (hother .zygote (by decide)), if_pos hs]; rfl
    | surfaceflinger =>
      rw [if_neg (hother .zygote (by decide)), if_neg (hother .servicemanager (by decide)),
        if_pos hs]
      rfl
    | installd =>
      rw [if_neg (hother .zygote (by decide)), if_neg (hother .servicemanager (by decide)),
        if_neg (hother .surfaceflinger (by decide)), if_pos hs]
      rfl
    | bootanimation =>
      rw [if_neg (hother .zygote (by decide)), if_neg (hother .servicemanager (by decide)),
        if_neg (hother .surfaceflinger (by decide)), if_neg (hother .installd (by decide)),
        if_pos hs]
      rfl
    | adbd =>
      rw [if_neg (hother .zygote (by decide)), if_neg (hother .servicemanager (by decide)),
        if_neg (hother .surfaceflinger (by decide)), if_neg (hother .installd (by decide)),
        if_neg (hother .bootanimation (by decide)), if_pos hs]
      rfl
  application h := by
    simp only [origin, h.1, Bool.false_eq_true, ↓reduceIte]
    exact if_pos h.2
  unknown hservice happ := by
    have hnone (s : Service) : ¬ w.isProcess s proc = true := by
      rw [hservice s]
      exact Bool.false_ne_true
    rw [origin, if_neg (hnone _), if_neg (hnone _), if_neg (hnone _), if_neg (hnone _),
      if_neg (hnone _), if_neg (hnone _), if_neg (Bool.eq_false_iff.mp happ), arg_unknown]

theorem printAll_eq (w : World) (outputs : List (List Char)) :
    printAll w outputs =
      { w with actions := w.actions ++ outputs.map (fun o => .print (String.ofList o)) } := by
  induction outputs generalizing w with
  | nil => simp [printAll]
  | cons output outputs ih =>
    have hcons : printAll w (output :: outputs) =
        printAll (w.emit (.print (String.ofList output))) outputs := rfl
    rw [hcons, ih]
    simp [World.emit]

theorem printAll_injective (w : World) {outputs outputs' : List (List Char)}
    (h : printAll w outputs = printAll w outputs') : outputs = outputs' := by
  rw [printAll_eq, printAll_eq] at h
  have hactions := List.append_cancel_left (congrArg World.actions h)
  refine List.map_injective_iff.mpr (fun o o' he => ?_) hactions
  exact String.ofList_injective (Action.print.inj he)

theorem mapM_eq_map_iff {α β : Type} (f : α → Option β) (g : α → β) (xs : List α) :
    xs.mapM f = some (xs.map g) ↔ ∀ x ∈ xs, f x = some (g x) := by
  induction xs with
  | nil => simp
  | cons x xs ih =>
    rw [List.mapM_cons, List.forall_mem_cons, ← ih]
    cases hf : f x with
    | none => simp
    | some y =>
      cases hxs : xs.mapM f with
      | none => simp
      | some ys => simp

/-- Every complete line that a process has printed is relayed as it is, behind its origin,
    exactly when no line has a '%' or a NUL and neither has the name of an application. -/
theorem output_relayed_iff (w : World) (proc : QProcess) (buffer : List Char) :
    Lines buffer (readLines [] buffer).1 (readLines [] buffer).2 ∧
    IsOrigin w proc (origin w proc) ∧
    (logSomething w proc buffer =
        some (printAll w ((readLines [] buffer).1.map (prefixed (origin w proc))),
          (readLines [] buffer).2) ↔
      ∀ line ∈ (readLines [] buffer).1,
        Plain line ∧ (IsApplication w proc → Plain proc.objectName.toList)) := by
  refine ⟨readLines_lines [] buffer List.not_mem_nil, origin_isOrigin w proc, ?_⟩
  have hlines : ∀ line, relay (origin w proc) line = some (prefixed (origin w proc) line) ↔
      Plain line ∧ (IsApplication w proc → Plain proc.objectName.toList) := fun line => by
    rw [relay_eq_iff, plain_origin_iff, and_comm]
  simp only [← hlines, ← mapM_eq_map_iff, logSomething, Option.map_eq_some_iff, Prod.mk.injEq,
    and_true]
  constructor
  · rintro ⟨outputs, houtputs, hprinted⟩
    rw [houtputs, printAll_injective w hprinted]
  · exact fun h => ⟨_, h, rfl⟩

def gameProcess : QProcess :=
  ⟨0, "/opt/shashlik/system/bin/shashlik_launcher",
    ["/opt/shashlik/system/bin/", "com.android.commands.launch.Launch", "/tmp/game.apk"],
    "game.apk", 0, none⟩

def gameWorld : World :=
  (World.initial ProcessTables.ProcessTable.empty "/opt/shashlik").runApk "/tmp/game.apk"
    (fun _ => true) none

theorem doubled_percent_not_relayed :
    gameProcess ∈ gameWorld.controller.applications ∧
      readLines [] "100%%\n".toList = (["100%%\n".toList], []) ∧
      logSomething gameWorld gameProcess "100%%\n".toList =
        some (printAll gameWorld ["game.apk: 100%\n".toList], []) ∧
      logSomething gameWorld gameProcess "100%%\n".toList ≠ some (printAll gameWorld
        [prefixed (origin gameWorld gameProcess) "100%%\n".toList], []) := by
  have hmem : gameProcess ∈ gameWorld.controller.applications := by decide +kernel
  have horigin : origin gameWorld gameProcess = "game.apk".toList := by decide +kernel
  have hrelay : relay "game.apk".toList "100%%\n".toList = some "game.apk: 100%\n".toList := by
    decide +kernel
  have hlog : logSomething gameWorld gameProcess "100%%\n".toList =
      some (printAll gameWorld ["game.apk: 100%\n".toList], []) := by
    rw [logSomething, horigin]
    simp only [show readLines [] "100%%\n".toList = (["100%%\n".toList], []) by decide,
      List.mapM_cons, hrelay]
    rfl
  refine ⟨hmem, by decide, hlog, ?_⟩
  rw [hlog]
  intro hsame
  have houtputs := printAll_injective _ (Prod.mk.inj (Option.some.inj hsame)).1
  rw [horigin] at houtputs
  exact absurd houtputs (by decide)

end Shashlik.ControllerLogs
