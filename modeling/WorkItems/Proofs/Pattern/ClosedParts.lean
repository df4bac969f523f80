import WorkItems.Proofs.Pattern.Copied

namespace WorkItems.PatternToken

/-! Escapes and classes of a text whose dollar signs are closed.

Closing tells an escape by its backslash and a class by its brackets.  Scanning reads both as a
whole, and leaves off where closing is done with them.
-/

open Pattern

variable {region : Region} {text rest : List Char} {c : Char}

theorem hexValue?_inert {value : Nat} (read : hexValue? c = some value) : Inert c :=
  inert_of_accepted
    (by decide : ['\\', '$', '[', ']'].any (fun special => (hexValue? special).isSome) = false)
    (read ▸ rfl)

theorem hexDigits_inert {digits : List Char} {start code : Nat}
    (read : digits.foldlM (fun value c => (hexValue? c).map (value * 16 + ·)) start = some code) :
    ∀ c ∈ digits, Inert c := by
  induction digits generalizing start with
  | nil => exact List.forall_mem_nil _
  | cons c digits ih =>
      rw [List.foldlM_cons] at read
      obtain ⟨value, first, others⟩ := Option.bind_eq_some_iff.mp read
      obtain ⟨digit, valued, -⟩ := Option.map_eq_some_iff.mp first
      exact List.forall_mem_cons.mpr ⟨hexValue?_inert valued, ih others⟩

theorem coded?_closed (region : Region) {width : Nat} {found : Char}
    (read : coded? width text = some (found, rest)) :
    ReadsAlike (coded? width) region region text found rest := by
  rw [coded?] at read
  split at read
  · cases read
  · next enough =>
      obtain ⟨code, valued, checked⟩ := Option.bind_eq_some_iff.mp read
      have inert : ∀ c ∈ text.take width, Inert c := hexDigits_inert valued
      have length : (text.take width).length = width := by
        rw [List.length_take]
        omega
      split at checked
      · next valid =>
          obtain ⟨rfl, rfl⟩ := Prod.mk.inj (Option.some.inj checked)
          have whole := List.take_append_drop width text
          have closed : closeEndsFrom region text =
              text.take width ++ closeEndsFrom region (text.drop width) := by
            rw [← closeEndsFrom_inert_append region _ inert, whole]
          refine ⟨?_, text.take width, whole.symm, closed⟩
          rw [closed, coded?, List.take_left' length, List.drop_left' length, valued]
          simp [length, valid]
      · cases checked

theorem isOctal_inert (octal : isOctal c = true) : Inert c :=
  inert_of_accepted (by decide) octal

/-- The octal digits that an escape takes, at most so many. -/
def octalRun (limit : Nat) (text : List Char) : List Char :=
  (text.take limit).takeWhile isOctal

theorem octalRun_inert {limit : Nat} : ∀ c ∈ octalRun limit text, Inert c :=
  fun _ member => isOctal_inert (List.all_eq_true.mp List.all_takeWhile _ member)

/-- A run of octal digits of limited length is the same in the closed text. -/
theorem octalRun_closed {limit : Nat} :
    octalRun limit (closeEndsFrom region text) = octalRun limit text := by
  simp only [octalRun, ← List.take_takeWhile,
    (takeWhile_closeEndsFrom region text fun _ => isOctal_inert).1]

theorem octalRun_append (limit : Nat) (text : List Char) :
    octalRun limit text ++ text.drop (octalRun limit text).length = text := by
  have first : octalRun limit text <+: text :=
    (List.takeWhile_prefix isOctal).trans (List.take_prefix limit text)
  obtain ⟨after, whole⟩ := first
  have dropped := congrArg (List.drop (octalRun limit text).length) whole
  rw [List.drop_left] at dropped
  rw [← dropped, whole]

theorem drop_octalRun_closed {limit : Nat} :
    (closeEndsFrom region text).drop (octalRun limit text).length =
      closeEndsFrom region (text.drop (octalRun limit text).length) := by
  have closed := congrArg (closeEndsFrom region) (octalRun_append limit text)
  rw [← closed, closeEndsFrom_inert_append region _ octalRun_inert, List.drop_left]

theorem copies_octalRun {limit : Nat} :
    Copies region region text (text.drop (octalRun limit text).length) := by
  have copied : Copies region region
      (octalRun limit text ++ text.drop (octalRun limit text).length) _ :=
    copies_inert octalRun_inert
  rwa [octalRun_append] at copied

/-- The character of an octal number that some digits begin and a run of digits goes on. -/
def octalEscape? (digits : List Char) (limit : Nat) (text : List Char) :
    Option (ClassPart × List Char) :=
  octal? (digits ++ octalRun limit text) (text.drop (octalRun limit text).length)

theorem octalEscape?_closed (region : Region) {digits : List Char} {limit : Nat} {part : ClassPart}
    (read : octalEscape? digits limit text = some (part, rest)) :
    ReadsAlike (octalEscape? digits limit) region region text part rest := by
  simp only [octalEscape?, octal?, Option.ite_none_right_eq_some, Option.some.injEq,
    Prod.mk.injEq] at read
  obtain ⟨valid, rfl, rfl⟩ := read
  refine ⟨?_, copies_octalRun⟩
  rw [octalEscape?, octalRun_closed, drop_octalRun_closed]
  exact if_pos valid

theorem escapedPart?_closed (region : Region) {part : ClassPart}
    (read : escapedPart? c text = some (part, rest)) :
    ReadsAlike (escapedPart? c) region region text part rest := by
  have one {width : Nat} (read : (coded? width text).map
      (fun found => (ClassPart.range found.1 found.1, found.2)) = some (part, rest)) :
      ReadsAlike (fun text => (coded? width text).map
        fun found => (ClassPart.range found.1 found.1, found.2)) region region text part rest := by
    obtain ⟨⟨found, after⟩, coded, same⟩ := Option.map_eq_some_iff.mp read
    obtain ⟨rfl, rfl⟩ := Prod.mk.inj same
    obtain ⟨again, copied⟩ := coded?_closed region coded
    exact ⟨congrArg _ again, copied⟩
  rw [escapedPart?] at read
  split at read
  · next category =>
      obtain ⟨rfl, rfl⟩ := Prod.mk.inj (Option.some.inj read)
      exact ⟨by rw [escapedPart?, category], .refl⟩
  · next none control =>
      obtain ⟨rfl, rfl⟩ := Prod.mk.inj (Option.some.inj read)
      exact ⟨by rw [escapedPart?, none, control], .refl⟩
  · next category control =>
      split at read
      · exact one read
      · exact one read
      · exact one read
      · exact octalEscape?_closed region (show octalEscape? [] 2 text = some (part, rest) from read)
      · next x u U zero =>
          simp only [Option.ite_none_left_eq_some, Option.some.injEq, Prod.mk.injEq] at read
          obtain ⟨special, rfl, rfl⟩ := read
          refine ⟨?_, .refl⟩
          rw [escapedPart?.eq_1]
          simp [category, control, special]

/-- Outside of classes an octal number that does not start with a zero has three digits. -/
theorem outerEscape?_eq (c : Char) (text : List Char) : outerEscape? c text =
    if (c ≠ '0' ∧ isOctal c = true) ∧ (octalRun 2 text).length = 2 then octalEscape? [c] 2 text
    else escapedPart? c text := by
  match text with
  | [] => simp [outerEscape?, octalRun]
  | [second] => cases octal : isOctal second <;> simp [outerEscape?, octalRun, octal]
  | second :: third :: after =>
      cases first : isOctal second <;> cases last : isOctal third <;>
        simp [outerEscape?, octalEscape?, octalRun, first, last]

theorem outerEscape?_closed (region : Region) {part : ClassPart}
    (read : outerEscape? c text = some (part, rest)) :
    ReadsAlike (outerEscape? c) region region text part rest := by
  have closed := outerEscape?_eq c (closeEndsFrom region text)
  rw [octalRun_closed] at closed
  rw [outerEscape?_eq] at read
  by_cases octal : (c ≠ '0' ∧ isOctal c = true) ∧ (octalRun 2 text).length = 2
  · rw [if_pos octal] at read closed
    obtain ⟨again, copied⟩ := octalEscape?_closed region read
    exact ⟨closed.trans again, copied⟩
  · rw [if_neg octal] at read closed
    obtain ⟨again, copied⟩ := escapedPart?_closed region read
    exact ⟨closed.trans again, copied⟩

theorem innerEscape?_eq (c : Char) (text : List Char) : innerEscape? c text =
    if c = 'b' then some (.range '\x08' '\x08', text)
    else if isOctal c = true then octalEscape? [c] 2 text
    else escapedPart? c text :=
  rfl

theorem innerEscape?_closed (region : Region) {part : ClassPart}
    (read : innerEscape? c text = some (part, rest)) :
    ReadsAlike (innerEscape? c) region region text part rest := by
  have closed := innerEscape?_eq c (closeEndsFrom region text)
  rw [innerEscape?_eq] at read
  by_cases backspace : c = 'b'
  · rw [if_pos backspace] at read closed
    obtain ⟨rfl, rfl⟩ := Prod.mk.inj (Option.some.inj read)
    exact ⟨closed, .refl⟩
  · rw [if_neg backspace] at read closed
    by_cases octal : isOctal c = true
    · rw [if_pos octal] at read closed
      obtain ⟨again, copied⟩ := octalEscape?_closed region read
      exact ⟨closed.trans again, copied⟩
    · rw [if_neg octal] at read closed
      obtain ⟨again, copied⟩ := escapedPart?_closed region read
      exact ⟨closed.trans again, copied⟩

theorem classPart?_closed {part : ClassPart} (member : text.head? ≠ some ']')
    (read : classPart? text = some (part, rest)) :
    ReadsAlike classPart? .characterClass .characterClass text part rest := by
  rw [classPart?.eq_def] at read
  split at read
  · cases read
  · next escaped =>
      cases escaped with
      | nil => cases read
      | cons c escaped =>
          obtain ⟨again, copied⟩ := innerEscape?_closed .characterClass read
          refine ⟨?_, copied.escape⟩
          rw [closeEndsFrom_escape]
          exact again
  · next c after ordinary =>
      obtain ⟨rfl, rfl⟩ := Prod.mk.inj (Option.some.inj read)
      have closing : c ≠ ']' := fun same => member (congrArg some same)
      have closed : closeEndsFrom .characterClass (c :: after) =
          c :: closeEndsFrom .characterClass after := by
        rw [closeEndsFrom_class ordinary, if_neg closing]
      refine ⟨?_, [c], rfl, closed⟩
      rw [closed, classPart?.eq_4 c _ ordinary]

/-- How the parts of a class are read up to its closing bracket, one after the other. -/
inductive ClassBody : Nat → List ClassPart → List Char → List ClassPart → List Char → Prop where
  | closing {steps : Nat} {parts : List ClassPart} {rest : List Char} (some : parts ≠ []) :
    ClassBody (steps + 1) parts (']' :: rest) parts.reverse rest
  | hyphen {steps : Nat} {parts : List ClassPart} {text rest : List Char} {part : ClassPart}
    (goesOn : parts ≠ [] → text.head? ≠ some ']')
    (read : classPart? text = some (part, '-' :: ']' :: rest)) :
    ClassBody (steps + 1) parts text (.range '-' '-' :: part :: parts).reverse rest
  | range {steps : Nat} {parts all : List ClassPart} {text middle after rest : List Char}
    {part last : ClassPart} {low high : Char} (goesOn : parts ≠ [] → text.head? ≠ some ']')
    (read : classPart? text = some (part, '-' :: middle)) (more : middle.head? ≠ some ']')
    (readLast : classPart? middle = some (last, after)) (isLow : classCharacter? part = some low)
    (isHigh : classCharacter? last = some high) (ordered : Text.codeOf low ≤ Text.codeOf high)
    (others : ClassBody steps (.range low high :: parts) after all rest) :
    ClassBody (steps + 1) parts text all rest
  | single {steps : Nat} {parts all : List ClassPart} {text after rest : List Char}
    {part : ClassPart} (goesOn : parts ≠ [] → text.head? ≠ some ']')
    (read : classPart? text = some (part, after)) (alone : after.head? ≠ some '-')
    (others : ClassBody steps (part :: parts) after all rest) :
    ClassBody (steps + 1) parts text all rest

theorem ClassBody.of_read {steps : Nat} {parts all : List ClassPart}
    (read : classParts? steps parts text = some (all, rest)) :
    ClassBody steps parts text all rest := by
  induction steps generalizing parts text with
  | zero => cases read
  | succ steps ih =>
      rw [classParts?.eq_def] at read
      dsimp only at read
      split at read
      · next some =>
          obtain ⟨rfl, rfl⟩ := Prod.mk.inj (Option.some.inj read)
          exact .closing (List.cons_ne_nil _ _)
      · next other =>
          have goesOn : parts ≠ [] → text.head? ≠ some ']' := by
            intro nonempty closing
            obtain ⟨part, parts, rfl⟩ := List.exists_cons_of_ne_nil nonempty
            obtain ⟨after, rfl⟩ := List.head?_eq_some_iff.mp closing
            exact other part parts after rfl rfl
          obtain ⟨⟨part, after⟩, first, others⟩ := Option.bind_eq_some_iff.mp read
          dsimp only at others
          split at others
          · next hyphen =>
              obtain ⟨rfl, rfl⟩ := Prod.mk.inj (Option.some.inj others)
              exact .hyphen goesOn first
          · next middle more =>
              obtain ⟨⟨last, after⟩, second, others⟩ := Option.bind_eq_some_iff.mp others
              obtain ⟨low, isLow, others⟩ := Option.bind_eq_some_iff.mp others
              obtain ⟨high, isHigh, others⟩ := Option.bind_eq_some_iff.mp others
              split at others
              · next ordered =>
                  refine .range goesOn first ?_ second isLow isHigh ordered (ih others)
                  intro closing
                  obtain ⟨rest, rfl⟩ := List.head?_eq_some_iff.mp closing
                  exact more rest rfl
              · cases others
          · next alone =>
              refine .single goesOn first ?_ (ih others)
              intro hyphen
              obtain ⟨rest, rfl⟩ := List.head?_eq_some_iff.mp hyphen
              exact alone rest rfl

theorem ClassBody.read {steps : Nat} {parts all : List ClassPart}
    (body : ClassBody steps parts text all rest) :
    classParts? steps parts text = some (all, rest) := by
  have open_of {parts : List ClassPart} {text : List Char}
      (goesOn : parts ≠ [] → text.head? ≠ some ']') (part : ClassPart) (others : List ClassPart)
      (after : List Char) (same : parts = part :: others) (closing : text = ']' :: after) :
      False :=
    goesOn (same ▸ List.cons_ne_nil _ _) (closing ▸ rfl)
  induction body with
  | @closing steps parts rest some =>
      obtain ⟨part, parts, rfl⟩ := List.exists_cons_of_ne_nil some
      rfl
  | hyphen goesOn read =>
      rw [classParts?.eq_3 _ _ _ (open_of goesOn)]
      simp [read]
  | @range _ _ _ _ middle _ _ _ _ _ _ goesOn read more readLast isLow isHigh ordered others ih =>
      rw [classParts?.eq_3 _ _ _ (open_of goesOn)]
      have middle_open (after : List Char) : middle ≠ ']' :: after :=
        fun closing => more (closing ▸ rfl)
      simp [read, readLast, isLow, isHigh, ordered, ih]
  | @single _ _ _ _ after _ _ goesOn read alone others ih =>
      rw [classParts?.eq_3 _ _ _ (open_of goesOn)]
      have after_alone (more : List Char) : after ≠ '-' :: more :=
        fun hyphen => alone (hyphen ▸ rfl)
      simp [read, after_alone, ih]

theorem head?_ne_closed (first : text.head? ≠ some ']') :
    (closeEndsFrom region text).head? ≠ some ']' :=
  mt (head?_closeEndsFrom_iff (by decide) (by decide)).mp first

/-- A class that does not start with a closing bracket ends where closing sees its end. -/
theorem ClassBody.closed {steps more : Nat} {parts all : List ClassPart}
    (body : ClassBody steps parts text all rest) (enough : steps ≤ more)
    (member : parts = [] → text.head? ≠ some ']') :
    ClassBody more parts (closeEndsFrom .characterClass text) all (closeEndsFrom .plain rest) ∧
      Copies .characterClass .plain text rest := by
  have hyphen_inert : Inert '-' := by decide
  have not_closing {parts : List ClassPart} {text : List Char}
      (goesOn : parts ≠ [] → text.head? ≠ some ']') (member : parts = [] → text.head? ≠ some ']') :
      text.head? ≠ some ']' := by
    by_cases none : parts = []
    · exact member none
    · exact goesOn none
  induction body generalizing more with
  | @closing steps parts rest some =>
      obtain ⟨more, rfl⟩ := Nat.exists_eq_succ_of_ne_zero (n := more) (by omega)
      have closed : closeEndsFrom .characterClass (']' :: rest) =
          ']' :: closeEndsFrom .plain rest :=
        closeEndsFrom_class (by decide)
      rw [closed]
      exact ⟨.closing some, [']'], rfl, closed⟩
  | @hyphen steps parts text rest part goesOn read =>
      obtain ⟨more, rfl⟩ := Nat.exists_eq_succ_of_ne_zero (n := more) (by omega)
      have first := not_closing goesOn member
      obtain ⟨again, copied⟩ := classPart?_closed first read
      have closed : closeEndsFrom .characterClass ('-' :: ']' :: rest) =
          '-' :: ']' :: closeEndsFrom .plain rest := by
        rw [closeEndsFrom_inert _ _ hyphen_inert, closeEndsFrom_class (by decide), if_pos rfl]
      rw [closed] at again
      exact ⟨.hyphen (fun _ => head?_ne_closed first) again,
        copied.trans ⟨['-', ']'], rfl, closed⟩⟩
  | @range steps parts all text middle after rest part last low high goesOn read going readLast
      isLow isHigh ordered others ih =>
      obtain ⟨more, rfl⟩ := Nat.exists_eq_succ_of_ne_zero (n := more) (by omega)
      have first := not_closing goesOn member
      obtain ⟨again, copied⟩ := classPart?_closed first read
      obtain ⟨againLast, copiedLast⟩ := classPart?_closed going readLast
      obtain ⟨closedOthers, copiedOthers⟩ := ih (Nat.le_of_succ_le_succ enough) nofun
      have copiedHyphen : Copies .characterClass .characterClass ('-' :: middle) middle :=
        ⟨['-'], rfl, closeEndsFrom_inert _ middle hyphen_inert⟩
      rw [closeEndsFrom_inert _ _ hyphen_inert] at again
      exact ⟨.range (fun _ => head?_ne_closed first) again (head?_ne_closed going) againLast isLow
          isHigh ordered closedOthers,
        copied.trans (copiedHyphen.trans (copiedLast.trans copiedOthers))⟩
  | @single steps parts all text after rest part goesOn read alone others ih =>
      obtain ⟨more, rfl⟩ := Nat.exists_eq_succ_of_ne_zero (n := more) (by omega)
      have first := not_closing goesOn member
      obtain ⟨again, copied⟩ := classPart?_closed first read
      obtain ⟨closedOthers, copiedOthers⟩ := ih (Nat.le_of_succ_le_succ enough) nofun
      have alone_closed : (closeEndsFrom .characterClass after).head? ≠ some '-' :=
        mt (head?_closeEndsFrom_iff (by decide) (by decide)).mp alone
      exact ⟨.single (fun _ => head?_ne_closed first) again alone_closed closedOthers,
        copied.trans copiedOthers⟩

end WorkItems.PatternToken
