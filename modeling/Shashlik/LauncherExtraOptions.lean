import Shashlik.LauncherVmOptions

set_option autoImplicit false

/-!
# The extra options

`parseExtraOpts` cuts an array up where it is: it writes a NUL over the space behind every token
and keeps a pointer to the token. The pointers are read when all of the array has been cut.
-/
namespace Shashlik.LauncherVmOptions
open LauncherArguments NamedArrays NamedArrays.Arrays SegmentPaths


theorem segments_spaces {spaces : List Char} (h : ∀ c ∈ spaces, c = ' ') (rest : List Char) :
    segments ' ' (spaces ++ rest) = segments ' ' rest := by
  induction spaces with
  | nil => rfl
  | cons c spaces ih =>
    rw [List.forall_mem_cons] at h
    rw [h.1, List.cons_append, segments_cons_self, ih h.2]

section
variable {a : CharArray} {l : Locals} {front : Cells Char}

theorem parseExtraOpts_end {spaces : List Char} {rest : Cells Char}
    (hspaces : ∀ c ∈ spaces, c = ' ')
    (h : l.arrays a = some (front ++ (spaces.map some ++ some nul :: rest))) (rounds : ℕ) :
    parseExtraOpts a (rounds + 1) front.length l = some l := by
  cases spaces with
  | nil =>
    rw [parseExtraOpts, read_append h, Option.bind_eq_bind, Option.bind_some, if_pos rfl]
  | cons c spaces =>
    have hc : c ≠ nul := by
      rw [hspaces c List.mem_cons_self]
      decide
    have hstart : l.arrays.read a (front.length + (c :: spaces).length) = some nul := by
      have hlength : (front ++ (c :: spaces).map some).length =
          front.length + (c :: spaces).length := by
        rw [List.length_append, List.length_map]
      rw [← List.append_assoc] at h
      rw [← hlength]
      exact read_append h
    have hskip : skipSpaces ((front ++ ((c :: spaces).map some ++ some nul :: rest)).drop
        front.length) front.length = some (front.length + (c :: spaces).length) := by
      rw [List.drop_left]
      exact advance_run _ hspaces (by decide) _ _
    rw [parseExtraOpts, read_append h]
    simp only [Option.bind_eq_bind, Option.bind_some, if_neg hc, h, hskip, hstart, if_true]

theorem parseExtraOpts_token {spaces token : List Char} {c behind : Char} {rest : Cells Char}
    (hspaces : ∀ c ∈ spaces, c = ' ') (hfirst : c ≠ ' ') (htoken : ' ' ∉ c :: token)
    (hnul : nul ∉ c :: token)
    (h : l.arrays a = some (front ++ (spaces.map some ++ ((c :: token).map some ++
      some behind :: rest)))) (hbehind : behind = ' ' ∨ behind = nul) (rounds : ℕ) :
    parseExtraOpts a (rounds + 1) front.length l =
      (endToken a (front.length + spaces.length + (c :: token).length) l).bind fun next =>
        parseExtraOpts a rounds next.1 (next.2.add (.array a (front.length + spaces.length))) := by
  obtain ⟨b, more, hb, hmore⟩ : ∃ b more, b ≠ nul ∧
      spaces.map some ++ ((c :: token).map some ++ some behind :: rest) = some b :: more := by
    cases spaces with
    | nil => exact ⟨c, _, fun hc => hnul (hc ▸ List.mem_cons_self), rfl⟩
    | cons b spaces =>
      rw [List.forall_mem_cons] at hspaces
      exact ⟨b, _, by rw [hspaces.1]; decide, rfl⟩
  have hread : l.arrays.read a front.length = some b := by
    rw [hmore] at h
    exact read_append h
  have hassoc : l.arrays a = some ((front ++ spaces.map some) ++
      (some c :: (token.map some ++ some behind :: rest))) := by
    rw [h, List.append_assoc]
    rfl
  have hlength : (front ++ spaces.map some).length = front.length + spaces.length := by
    rw [List.length_append, List.length_map]
  have hstart : l.arrays.read a (front.length + spaces.length) = some c := by
    rw [← hlength]
    exact read_append hassoc
  have hskip : skipSpaces ((front ++ (spaces.map some ++ ((c :: token).map some ++
      some behind :: rest))).drop front.length) front.length =
        some (front.length + spaces.length) := by
    rw [List.drop_left]
    exact advance_run _ hspaces hfirst _ _
  have hfind : findEnd ((front ++ (spaces.map some ++ ((c :: token).map some ++
      some behind :: rest))).drop (front.length + spaces.length + 1))
        (front.length + spaces.length + 1) =
          some (front.length + spaces.length + (c :: token).length) := by
    rw [← hlength, ← List.append_assoc, List.drop_length_add_append]
    rw [List.mem_cons, not_or] at htoken hnul
    refine (advance_run token (c := behind) ?_ ?_ rest _).trans ?_
    · intro b hb
      exact ⟨fun h => htoken.2 (h ▸ hb), fun h => hnul.2 (h ▸ hb)⟩
    · obtain rfl | rfl := hbehind <;> decide
    · rw [List.length_cons]
      congr 1
      omega
  rw [parseExtraOpts, hread]
  simp only [Option.bind_eq_bind, Option.bind_some, if_neg hb, h, hskip, hstart, hfind,
    if_neg (fun hc : c = nul => hnul (hc ▸ List.mem_cons_self))]

end

theorem exists_token (text : List Char) : (∀ c ∈ text, c = ' ') ∨
    ∃ spaces c token tail, text = spaces ++ (c :: token ++ tail) ∧ (∀ c ∈ spaces, c = ' ') ∧
      ' ' ∉ c :: token ∧ (tail = [] ∨ ∃ text', tail = ' ' :: text') := by
  obtain ⟨spaces, more, rfl, hspaces, hstop⟩ := exists_run (fun c => c = ' ') text
  cases more with
  | nil => exact Or.inl (by simpa using hspaces)
  | cons c more =>
    obtain ⟨token, tail, rfl, htoken, htail⟩ := exists_run (fun c => c ≠ ' ') more
    refine Or.inr ⟨spaces, c, token, tail, rfl, hspaces, ?_, ?_⟩
    · rw [List.mem_cons, not_or]
      exact ⟨fun hc => hstop c rfl hc.symm, fun hmem => htoken _ hmem rfl⟩
    · cases tail with
      | nil => exact Or.inl rfl
      | cons b text' =>
        have hb : b = ' ' := not_not.mp (htail b rfl)
        exact Or.inr ⟨text', by rw [hb]⟩

theorem endToken_nul {a : CharArray} {l : Locals} {front rest : Cells Char}
    (h : l.arrays a = some (front ++ some nul :: rest)) :
    endToken a front.length l = some (front.length, l) := by
  rw [endToken, read_append h, Option.bind_eq_bind, Option.bind_some, if_neg (by decide)]

theorem endToken_space {a : CharArray} {l : Locals} {front rest : Cells Char}
    (h : l.arrays a = some (front ++ some ' ' :: rest)) :
    endToken a front.length l = some (front.length + 1, { l with
      arrays := Function.update l.arrays a (some (front ++ some nul :: rest)) }) := by
  rw [endToken, read_append h]
  simp only [Option.bind_eq_bind, Option.bind_some, if_true, write_append h]

theorem scan_token (front : Cells Char) (spaces : List Char) {token : List Char}
    (h : nul ∉ token) (more : Cells Char) :
    scan nul ((front ++ (spaces.map some ++ (token.map some ++ some nul :: more))).drop
      (front.length + spaces.length)) = some token := by
  have hlength : (front ++ spaces.map some).length = front.length + spaces.length := by
    rw [List.length_append, List.length_map]
  rw [← List.append_assoc, ← hlength, List.drop_left]
  exact scan_text h more

/-- The pointers point to the pieces of the text between its spaces. -/
theorem parseExtraOpts_segments (a : CharArray) (rounds : ℕ) (front : Cells Char)
    (text : List Char) (rest : Cells Char) (l : Locals)
    (h : l.arrays a = some (front ++ (text.map some ++ some nul :: rest))) (hnul : nul ∉ text)
    (hrounds : text.length < rounds) : ∃ (cells : Cells Char) (starts : List ℕ),
      parseExtraOpts a rounds front.length l = some { l with
        arrays := Function.update l.arrays a (some (front ++ cells))
        mOptions := l.mOptions ++ starts.map fun i => ⟨.array a i, none⟩ } ∧
      starts.map (fun i => scan nul ((front ++ cells).drop i)) =
        (segments ' ' text).map some := by
  induction rounds generalizing front text l with
  | zero => exact absurd hrounds (Nat.not_lt_zero _)
  | succ rounds ih =>
    obtain hspaces | ⟨spaces, c, token, tail, rfl, hspaces, htoken, htail⟩ := exists_token text
    · refine ⟨text.map some ++ some nul :: rest, [], ?_, ?_⟩
      · rw [parseExtraOpts_end hspaces h, ← h, Function.update_eq_self, List.map_nil,
          List.append_nil]
      · rw [(segments_eq_nil_iff ' ' text).mpr hspaces]
        rfl
    have hfirst : c ≠ ' ' := fun hc => htoken (hc ▸ List.mem_cons_self)
    simp only [List.mem_append, not_or] at hnul
    obtain ⟨-, hnulToken, hnulTail⟩ := hnul
    have hpiece : segments ' ' (c :: token) = [c :: token] :=
      segments_of_not_mem ' ' _ (List.cons_ne_nil _ _) htoken
    have hfront (more : Cells Char) :
        front ++ (spaces.map some ++ ((c :: token).map some ++ more)) =
        (front ++ (spaces.map some ++ (c :: token).map some)) ++ more := by
      simp only [List.append_assoc]
    have hlength : (front ++ (spaces.map some ++ (c :: token).map some)).length =
        front.length + spaces.length + (c :: token).length := by
      simp only [List.length_append, List.length_map, Nat.add_assoc]
    have hscan := scan_token front spaces hnulToken
    obtain rfl | ⟨text', rfl⟩ := htail
    · rw [List.append_nil] at h hrounds ⊢
      rw [List.map_append, List.append_assoc] at h
      obtain ⟨r, rfl⟩ : ∃ r, rounds = r + 1 := by
        rw [List.length_append, List.length_cons] at hrounds
        exact ⟨rounds - 1, by omega⟩
      refine ⟨spaces.map some ++ ((c :: token).map some ++ some nul :: rest),
        [front.length + spaces.length], ?_, ?_⟩
      · have hread := h
        rw [hfront] at hread
        have hend := endToken_nul hread
        rw [hlength] at hend
        rw [parseExtraOpts_token hspaces hfirst htoken hnulToken h (Or.inr rfl), hend, ← h,
          Function.update_eq_self, Option.bind_some, ← hlength]
        exact parseExtraOpts_end (l := l.add (.array a (front.length + spaces.length)))
          (List.forall_mem_nil _) hread r
      · rw [segments_spaces hspaces, hpiece, List.map_singleton, hscan]
        rfl
    · set front' := front ++ (spaces.map some ++ (c :: token).map some) with hfront'
      rw [List.map_append, List.append_assoc, List.map_append, List.append_assoc] at h
      have hread : l.arrays a =
          some (front' ++ some ' ' :: (text'.map some ++ some nul :: rest)) := by
        rw [h, hfront]
        rfl
      set arrays := Function.update l.arrays a
        (some (front' ++ some nul :: (text'.map some ++ some nul :: rest))) with harrays
      have hend : endToken a (front.length + spaces.length + (c :: token).length) l =
          some (front'.length + 1, { l with arrays := arrays }) := by
        rw [← hlength]
        exact endToken_space hread
      have hnext : arrays a =
          some ((front' ++ [some nul]) ++ (text'.map some ++ some nul :: rest)) := by
        rw [harrays, Function.update_self, List.append_cons]
      rw [List.mem_cons, not_or] at hnulTail
      obtain ⟨cells, starts, hparse, hstarts⟩ := ih (front' ++ [some nul]) text'
        (Locals.add { l with arrays := arrays } (.array a (front.length + spaces.length))) hnext
        hnulTail.2 (by
          simp only [List.length_append, List.length_cons] at hrounds
          omega)
      have hcells : front ++ (spaces.map some ++ ((c :: token).map some ++ some nul :: cells)) =
          (front' ++ [some nul]) ++ cells := by
        rw [hfront, List.append_cons]
      refine ⟨spaces.map some ++ ((c :: token).map some ++ some nul :: cells),
        (front.length + spaces.length) :: starts, ?_, ?_⟩
      · rw [parseExtraOpts_token hspaces hfirst htoken hnulToken h (Or.inl rfl), hend]
        rw [List.length_append, List.length_singleton] at hparse
        refine hparse.trans ?_
        rw [hcells]
        unfold Locals.add
        dsimp only
        rw [harrays, Function.update_idem, List.append_assoc l.mOptions]
        rfl
      · rw [segments_spaces hspaces, segments_append_cons, hpiece, List.map_cons, hscan, hcells,
          hstarts]
        rfl

end Shashlik.LauncherVmOptions
