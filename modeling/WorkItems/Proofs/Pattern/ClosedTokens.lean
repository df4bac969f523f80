import WorkItems.Proofs.Pattern.ClosedParts

namespace WorkItems.PatternToken

/-! Tokens of a text whose dollar signs are closed.

Closing and scanning see the same escapes and classes in a text, as long as no class starts with a
closing bracket.  `ofText?_closed` says that the closed text then has the tokens of the text, with
other end anchors, and that a text without end anchors is its own closed text.
-/

open Pattern

variable {region : Region} {text rest : List Char} {c : Char}

theorem skipLazy_eq : skipLazy text = if text.head? = some '?' then text.tail else text := by
  fun_cases skipLazy text with
  | case1 rest => rfl
  | case2 rest other => rw [if_neg (head?_ne other)]

theorem skipLazy_closed (text : List Char) : skipLazy (closeEndsFrom .plain text) =
    closeEndsFrom .plain (skipLazy text) ∧ Copies .plain .plain text (skipLazy text) := by
  have mark : (closeEndsFrom .plain text).head? = some '?' ↔ text.head? = some '?' :=
    head?_closeEndsFrom_iff (by decide) (by decide)
  simp only [skipLazy_eq, mark]
  by_cases lazy : text.head? = some '?'
  · simpa only [if_pos lazy] using tail_closed .plain (by decide) lazy
  · simpa only [if_neg lazy] using ⟨trivial, Copies.refl⟩

theorem isDigit_inert (digit : isDigit c = true) : Inert c :=
  inert_of_accepted (by decide) digit

theorem bounds?_eq : bounds? text =
    let least := text.takeWhile isDigit
    let after := text.dropWhile isDigit
    if after.head? = some ',' then
      let most := after.tail.takeWhile isDigit
      let after := after.tail.dropWhile isDigit
      if after.head? = some '\x7d' then some (least, some most, after.tail) else none
    else if after.head? = some '\x7d' ∧ least ≠ [] then some (least, none, after.tail)
    else none := by
  dsimp only
  fun_cases bounds? text with
  | case1 least rest separated most after closed => simp [least, most, separated, closed]
  | case2 rest separated other => simp [separated, head?_ne other]
  | case3 least rest closed empty =>
      have unwritten : text.takeWhile isDigit = [] := List.isEmpty_iff.mp empty
      simp [unwritten, closed]
  | case4 least rest closed some =>
      have written : text.takeWhile isDigit ≠ [] := fun empty => some (List.isEmpty_iff.mpr empty)
      simp [least, closed, written]
  | case5 noComma noBrace => simp [head?_ne noComma, head?_ne noBrace]

theorem bounds?_closed : bounds? (closeEndsFrom .plain text) =
    (bounds? text).map fun found => (found.1, found.2.1, closeEndsFrom .plain found.2.2) := by
  have digits {text : List Char} :=
    takeWhile_closeEndsFrom .plain text fun _ => isDigit_inert
  have comma {text : List Char} : (closeEndsFrom .plain text).head? = some ',' ↔
      text.head? = some ',' := head?_closeEndsFrom_iff (by decide) (by decide)
  have brace {text : List Char} : (closeEndsFrom .plain text).head? = some '\x7d' ↔
      text.head? = some '\x7d' := head?_closeEndsFrom_iff (by decide) (by decide)
  simp only [bounds?_eq, digits, comma, brace]
  by_cases separated : (text.dropWhile isDigit).head? = some ','
  · obtain ⟨tail, -⟩ := tail_closed .plain (by decide) separated
    simp only [if_pos separated, tail, digits, brace]
    by_cases closed : ((text.dropWhile isDigit).tail.dropWhile isDigit).head? = some '\x7d'
    · obtain ⟨tail, -⟩ := tail_closed .plain (by decide) closed
      simp [closed, tail]
    · simp [closed]
  · simp only [if_neg separated]
    by_cases closed : (text.dropWhile isDigit).head? = some '\x7d'
    · obtain ⟨tail, -⟩ := tail_closed .plain (by decide) closed
      by_cases written : text.takeWhile isDigit = []
      · simp [written]
      · simp [closed, written, tail]
    · simp [closed]

theorem copies_bounds {least : List Char} {most : Option (List Char)}
    (read : bounds? text = some (least, most, rest)) : Copies .plain .plain text rest := by
  have run : Copies .plain .plain text (text.dropWhile isDigit) :=
    copies_dropWhile fun _ => isDigit_inert
  rw [bounds?_eq] at read
  dsimp only at read
  split at read
  · next separated =>
      obtain ⟨-, comma⟩ := tail_closed .plain (by decide) separated
      split at read
      · next closed =>
          obtain ⟨-, brace⟩ := tail_closed .plain (by decide) closed
          simp only [Option.some.injEq, Prod.mk.injEq] at read
          obtain ⟨-, -, rfl⟩ := read
          exact run.trans (comma.trans ((copies_dropWhile fun _ => isDigit_inert).trans brace))
      · cases read
  · split at read
    · next closed =>
        obtain ⟨-, brace⟩ := tail_closed .plain (by decide) closed.1
        simp only [Option.some.injEq, Prod.mk.injEq] at read
        obtain ⟨-, -, rfl⟩ := read
        exact run.trans brace
    · cases read

theorem isWordCharacter_inert (word : Text.isWordCharacter c = true) : Inert c :=
  inert_of_accepted (by decide +kernel) word

theorem group?_unmarked (unmarked : text.head? ≠ some '?') : group? text = some (.plain, text) := by
  rw [group?.eq_def]
  split
  all_goals first | rfl | exact absurd rfl unmarked

theorem group?_named {first : Char} {others : List Char}
    (named : text.takeWhile Text.isWordCharacter = first :: others)
    (closed : text.dropWhile Text.isWordCharacter = '>' :: rest)
    (ordinary : ¬ Text.isDigit first = true) :
    group? ('?' :: 'P' :: '<' :: text) = some (.plain, rest) := by
  rw [group?.eq_4]
  simp [named, closed, ordinary]

theorem group?_closed {kind : GroupKind} (read : group? text = some (kind, rest)) :
    ReadsAlike group? .plain .plain text kind rest := by
  -- The characters after a parenthesis that say what kind of group it opens.
  have marked (mark : List Char) (inert : ∀ c ∈ mark, Inert c)
      (again : ∀ other, group? (mark ++ other) = some (kind, other)) :
      ReadsAlike group? .plain .plain (mark ++ rest) kind rest := by
    refine ⟨?_, copies_inert inert⟩
    rw [closeEndsFrom_inert_append _ _ inert, again]
  rw [group?.eq_def] at read
  split at read
  · obtain ⟨rfl, rfl⟩ := Prod.mk.inj (Option.some.inj read)
    exact marked ['?', ':'] (by simp [Inert]) fun _ => rfl
  · obtain ⟨rfl, rfl⟩ := Prod.mk.inj (Option.some.inj read)
    exact marked ['?', '='] (by simp [Inert]) fun _ => rfl
  · obtain ⟨rfl, rfl⟩ := Prod.mk.inj (Option.some.inj read)
    exact marked ['?', '!'] (by simp [Inert]) fun _ => rfl
  · next after =>
      dsimp only at read
      split at read
      · next first others tail named closed =>
          split at read
          · cases read
          · next ordinary =>
              obtain ⟨rfl, rfl⟩ := Prod.mk.inj (Option.some.inj read)
              have mark : Copies .plain .plain ('?' :: 'P' :: '<' :: after) after :=
                copies_inert (by simp [Inert] : ∀ c ∈ ['?', 'P', '<'], Inert c)
              obtain ⟨name, more⟩ :=
                takeWhile_closeEndsFrom .plain after fun _ => isWordCharacter_inert
              have run : Copies .plain .plain after (after.dropWhile Text.isWordCharacter) :=
                copies_dropWhile fun _ => isWordCharacter_inert
              have angle := closeEndsFrom_inert .plain tail (by decide : Inert '>')
              rw [named] at name
              rw [closed] at run
              rw [closed, angle] at more
              refine ⟨?_, mark.trans (run.trans ⟨['>'], rfl, angle⟩)⟩
              refine Eq.trans (congrArg group? ?_) (group?_named name more ordinary)
              exact closeEndsFrom_inert_append .plain after
                (by simp [Inert] : ∀ c ∈ ['?', 'P', '<'], Inert c)
      · cases read
  · cases read
  · next unmarked =>
      obtain ⟨rfl, rfl⟩ := Prod.mk.inj (Option.some.inj read)
      have first : (closeEndsFrom .plain text).head? ≠ some '?' :=
        mt (head?_closeEndsFrom_iff (by decide) (by decide)).mp (head?_ne unmarked)
      exact ⟨group?_unmarked first, .refl⟩

/-- The token whose dollar sign means the very end of a text. -/
def closed : PatternToken → PatternToken
  | .anchor .lastLineEnd => .anchor .textEnd
  | token => token

/-- Whether a text starts with a class whose first member is a closing bracket. -/
def bracketLeads : List Char → Bool
  | '[' :: ']' :: _ => true
  | '[' :: '^' :: ']' :: _ => true
  | _ => false

theorem length_le_closeEndsFrom : text.length ≤ (closeEndsFrom region text).length := by
  fun_induction closeEndsFrom region text with
  | case1 => exact Nat.le_refl _
  | case2 => exact Nat.le_refl _
  | case3 region c rest ih => simpa using ih
  | case4 c rest _ _ ih => simpa using ih
  | case5 rest ih => simp; omega
  | case6 c rest _ _ dollar ih => simpa using ih

theorem class_closed {parts : List ClassPart} (member : text.head? ≠ some ']')
    (read : classParts? (text.length + 1) [] text = some (parts, rest)) :
    classParts? ((closeEndsFrom .characterClass text).length + 1) []
        (closeEndsFrom .characterClass text) = some (parts, closeEndsFrom .plain rest) ∧
      Copies .characterClass .plain text rest := by
  have longer : text.length + 1 ≤ (closeEndsFrom .characterClass text).length + 1 :=
    Nat.succ_le_succ length_le_closeEndsFrom
  obtain ⟨body, copied⟩ := (ClassBody.of_read read).closed longer fun _ => member
  exact ⟨body.read, copied⟩

theorem anchor?_closed {edge : Anchor} (known : anchor? c = some edge) :
    (PatternToken.anchor edge).closed = .anchor edge := by
  cases edge with
  | lastLineEnd =>
    revert known
    unfold anchor?
    split <;> simp
  | _ => rfl

/-- The closed text starts with the same token, apart from an end anchor, and goes on with the
closed rest. -/
def StartsAlike (text : List Char) (token : PatternToken) (rest : List Char) : Prop :=
  next? (closeEndsFrom .plain text) = some (token.closed, closeEndsFrom .plain rest) ∧
    (token ≠ .anchor .lastLineEnd → Copies .plain .plain text rest)

variable {token : PatternToken}

theorem startsAlike_single (inert : Inert c)
    (again : ∀ other, next? (c :: other) = some (token.closed, other)) :
    StartsAlike (c :: rest) token rest := by
  have closed := closeEndsFrom_inert .plain rest inert
  refine ⟨?_, fun _ => ⟨[c], rfl, closed⟩⟩
  rw [closed, again]

/-- A lazy mark may follow the token. -/
theorem startsAlike_lazy (inert : Inert c)
    (again : ∀ other, next? (c :: other) = some (token.closed, skipLazy other)) :
    StartsAlike (c :: rest) token (skipLazy rest) := by
  have closed := closeEndsFrom_inert .plain rest inert
  obtain ⟨skipped, copied⟩ := skipLazy_closed rest
  refine ⟨?_, fun _ => .trans ⟨[c], rfl, closed⟩ copied⟩
  rw [closed, again, skipped]

theorem next?_escape : next? ('\\' :: c :: rest) =
    match anchor? c with
    | some edge => some (.anchor edge, rest)
    | none => (outerEscape? c rest).map fun found => (.oneOf false [found.1], found.2) :=
  rfl

theorem startsAlike_escape (read : next? ('\\' :: c :: text) = some (token, rest)) :
    StartsAlike ('\\' :: c :: text) token rest := by
  rw [next?_escape] at read
  rw [StartsAlike, closeEndsFrom_escape, next?_escape]
  cases known : anchor? c with
  | some edge =>
      rw [known] at read
      obtain ⟨rfl, rfl⟩ := Prod.mk.inj (Option.some.inj read)
      rw [anchor?_closed known]
      exact ⟨rfl, fun _ => .escape .refl⟩
  | none =>
      rw [known] at read
      obtain ⟨⟨part, after⟩, escaped, same⟩ := Option.map_eq_some_iff.mp read
      obtain ⟨rfl, rfl⟩ := Prod.mk.inj same
      obtain ⟨again, copied⟩ := outerEscape?_closed .plain escaped
      exact ⟨congrArg (Option.map _) again, fun _ => .escape copied⟩

theorem startsAlike_group (read : next? ('(' :: text) = some (token, rest)) :
    StartsAlike ('(' :: text) token rest := by
  obtain ⟨⟨kind, after⟩, opened, same⟩ := Option.map_eq_some_iff.mp read
  obtain ⟨rfl, rfl⟩ := Prod.mk.inj same
  obtain ⟨again, copied⟩ := group?_closed opened
  have closed := closeEndsFrom_inert .plain text (by decide : Inert '(')
  refine ⟨?_, fun _ => .trans ⟨['('], rfl, closed⟩ copied⟩
  rw [closed]
  exact congrArg (Option.map _) again

/-- A class is read from its first member on, which a mark of negation may stand before. -/
theorem next?_class : next? ('[' :: rest) =
    (if rest.head? = some '^' then
      (classParts? (rest.tail.length + 1) [] rest.tail).map
        fun found => (.oneOf true found.1, found.2)
    else (classParts? (rest.length + 1) [] rest).map
      fun found => (.oneOf false found.1, found.2)) := by
  by_cases negated : rest.head? = some '^'
  · obtain ⟨rest, rfl⟩ := List.head?_eq_some_iff.mp negated
    rfl
  · rw [if_neg negated, next?]
    rintro rest rfl
    exact negated rfl

theorem startsAlike_class (plain : bracketLeads ('[' :: text) = false)
    (read : next? ('[' :: text) = some (token, rest)) : StartsAlike ('[' :: text) token rest := by
  have opening : closeEndsFrom .plain ('[' :: text) = '[' :: closeEndsFrom .characterClass text :=
    closeEndsFrom_plain (by decide) (by decide)
  have mark : (closeEndsFrom .characterClass text).head? = some '^' ↔ text.head? = some '^' :=
    head?_closeEndsFrom_iff (by decide) (by decide)
  have copiedOpening : Copies .plain .characterClass ('[' :: text) text := ⟨['['], rfl, opening⟩
  rw [next?_class] at read
  rw [StartsAlike, opening, next?_class]
  simp only [mark]
  by_cases negated : text.head? = some '^'
  · obtain ⟨members, rfl⟩ := List.head?_eq_some_iff.mp negated
    have member : members.head? ≠ some ']' := by
      intro closing
      obtain ⟨after, rfl⟩ := List.head?_eq_some_iff.mp closing
      cases plain
    rw [if_pos negated] at read ⊢
    obtain ⟨⟨parts, after⟩, parsed, same⟩ := Option.map_eq_some_iff.mp read
    obtain ⟨rfl, rfl⟩ := Prod.mk.inj same
    obtain ⟨again, copied⟩ := class_closed member parsed
    have hat := closeEndsFrom_inert .characterClass members (by decide : Inert '^')
    rw [hat]
    exact ⟨congrArg (Option.map _) again,
      fun _ => copiedOpening.trans (.trans ⟨['^'], rfl, hat⟩ copied)⟩
  · have member : text.head? ≠ some ']' := by
      intro closing
      obtain ⟨after, rfl⟩ := List.head?_eq_some_iff.mp closing
      cases plain
    rw [if_neg negated] at read ⊢
    obtain ⟨⟨parts, after⟩, parsed, same⟩ := Option.map_eq_some_iff.mp read
    obtain ⟨rfl, rfl⟩ := Prod.mk.inj same
    obtain ⟨again, copied⟩ := class_closed member parsed
    exact ⟨congrArg (Option.map _) again, fun _ => copiedOpening.trans copied⟩

theorem next?_brace : next? ('\x7b' :: rest) =
    match bounds? rest with
    | some (least, most, after) => (quantifier? least most).map fun token => (token, skipLazy after)
    | none => some (character '\x7b', rest) :=
  rfl

theorem quantifier?_closed {least : List Char} {most : Option (List Char)}
    (quantified : quantifier? least most = some token) : token.closed = token := by
  rw [quantifier?.eq_def] at quantified
  dsimp only at quantified
  split at quantified
  · cases quantified
    rfl
  · cases quantified
    rfl
  · split at quantified
    · cases quantified
    · cases quantified
      rfl

theorem startsAlike_brace (read : next? ('\x7b' :: text) = some (token, rest)) :
    StartsAlike ('\x7b' :: text) token rest := by
  have closed := closeEndsFrom_inert .plain text (by decide : Inert '\x7b')
  rw [next?_brace] at read
  rw [StartsAlike, closed, next?_brace, bounds?_closed]
  cases bounds : bounds? text with
  | none =>
      rw [bounds] at read
      obtain ⟨rfl, rfl⟩ := Prod.mk.inj (Option.some.inj read)
      exact ⟨rfl, fun _ => ⟨['\x7b'], rfl, closed⟩⟩
  | some found =>
      obtain ⟨least, most, after⟩ := found
      rw [bounds] at read
      obtain ⟨token, quantified, same⟩ := Option.map_eq_some_iff.mp read
      obtain ⟨rfl, rfl⟩ := Prod.mk.inj same
      obtain ⟨skipped, copied⟩ := skipLazy_closed after
      have copiedBounds := (copies_bounds bounds).trans copied
      refine ⟨?_, fun _ => .trans ⟨['\x7b'], rfl, closed⟩ copiedBounds⟩
      rw [quantifier?_closed quantified]
      simp [quantified, skipped]

theorem next?_other (other : c ∉ ['\\', '.', '^', '$', '|', ')', '(', '[', '*', '+', '?', '\x7b']) :
    next? (c :: rest) = some (character c, rest) := by
  simp only [List.mem_cons, List.not_mem_nil, or_false, not_or] at other
  rw [next?] <;> simp only [other, imp_self]

theorem startsAlike_other
    (other : c ∉ ['\\', '.', '^', '$', '|', ')', '(', '[', '*', '+', '?', '\x7b']) :
    StartsAlike (c :: rest) (character c) rest := by
  have noOpening : c ≠ '[' := fun same => other (by simp [same])
  have closed : closeEndsFrom .plain (c :: rest) = c :: closeEndsFrom .plain rest := by
    rw [closeEndsFrom_plain, if_neg noOpening]
    · exact fun same => other (by simp [same])
    · exact fun same => other (by simp [same])
  refine ⟨?_, fun _ => ⟨[c], rfl, closed⟩⟩
  rw [closed, next?_other other]
  rfl

/-- Every token starts the closed text as it starts the text. -/
theorem next?_closed (plain : bracketLeads text = false)
    (read : next? text = some (token, rest)) : StartsAlike text token rest := by
  have given := read
  rw [next?.eq_def] at read
  split at read
  · cases read
  · next text =>
      cases text with
      | nil => cases read
      | cons c text => exact startsAlike_escape given
  · obtain ⟨rfl, rfl⟩ := Prod.mk.inj (Option.some.inj read)
    exact startsAlike_single (by decide) fun _ => rfl
  · obtain ⟨rfl, rfl⟩ := Prod.mk.inj (Option.some.inj read)
    exact startsAlike_single (by decide) fun _ => rfl
  · obtain ⟨rfl, rfl⟩ := Prod.mk.inj (Option.some.inj read)
    exact ⟨rfl, fun other => absurd rfl other⟩
  · obtain ⟨rfl, rfl⟩ := Prod.mk.inj (Option.some.inj read)
    exact startsAlike_single (by decide) fun _ => rfl
  · obtain ⟨rfl, rfl⟩ := Prod.mk.inj (Option.some.inj read)
    exact startsAlike_single (by decide) fun _ => rfl
  · exact startsAlike_group given
  · exact startsAlike_class plain given
  · obtain ⟨rfl, rfl⟩ := Prod.mk.inj (Option.some.inj read)
    exact startsAlike_lazy (by decide) fun _ => rfl
  · obtain ⟨rfl, rfl⟩ := Prod.mk.inj (Option.some.inj read)
    exact startsAlike_lazy (by decide) fun _ => rfl
  · obtain ⟨rfl, rfl⟩ := Prod.mk.inj (Option.some.inj read)
    exact startsAlike_lazy (by decide) fun _ => rfl
  · exact startsAlike_brace given
  · obtain ⟨rfl, rfl⟩ := Prod.mk.inj (Option.some.inj read)
    apply startsAlike_other
    simp_all

/-- The rests of a text that its tokens start. -/
def starts : Nat → List Char → List (List Char)
  | 0, _ => []
  | steps + 1, text =>
    match next? text with
    | some (_, rest) => text :: starts steps rest
    | none => [text]

/-- Whether no class of a text has a closing bracket as its first member. -/
def PlainClasses (text : List Char) : Prop :=
  ∀ start ∈ starts text.length text, bracketLeads start = false

instance : Decidable (PlainClasses text) :=
  inferInstanceAs (Decidable (∀ start ∈ starts text.length text, bracketLeads start = false))

theorem scan?_closed {steps more : Nat} {tokens : List PatternToken}
    (plain : ∀ start ∈ starts steps text, bracketLeads start = false)
    (read : scan? steps text = some tokens) (enough : steps ≤ more) :
    scan? more (closeEndsFrom .plain text) = some (tokens.map closed) ∧
      (.anchor .lastLineEnd ∉ tokens → closeEndsFrom .plain text = text) := by
  induction steps generalizing more text tokens with
  | zero =>
      cases text with
      | nil =>
          obtain rfl := Option.some.inj read
          cases more <;> exact ⟨rfl, fun _ => rfl⟩
      | cons c text => cases read
  | succ steps ih =>
      obtain ⟨more, rfl⟩ := Nat.exists_eq_succ_of_ne_zero (n := more) (by omega)
      cases text with
      | nil =>
          obtain rfl := Option.some.inj read
          exact ⟨rfl, fun _ => rfl⟩
      | cons c text =>
          obtain ⟨⟨token, rest⟩, first, others⟩ := Option.bind_eq_some_iff.mp read
          obtain ⟨tokens, scanned, made⟩ := Option.bind_eq_some_iff.mp others
          obtain rfl := Option.some.inj made
          have here : starts (steps + 1) (c :: text) = (c :: text) :: starts steps rest := by
            rw [starts, first]
          rw [here] at plain
          obtain ⟨plainHere, plainRest⟩ := List.forall_mem_cons.mp plain
          obtain ⟨again, copied⟩ := next?_closed plainHere first
          obtain ⟨closedRest, unchanged⟩ := ih plainRest scanned (Nat.le_of_succ_le_succ enough)
          constructor
          · obtain ⟨tail, shape⟩ := closeEndsFrom_cons .plain c text
            rw [shape] at again ⊢
            rw [scan?, again]
            · simp [closedRest]
            · nofun
          · intro noAnchor
            obtain ⟨notHere, notLater⟩ := not_or.mp (mt List.mem_cons.mpr noAnchor)
            obtain ⟨used, whole, closed⟩ := copied (Ne.symm notHere)
            rw [closed, unchanged notLater, whole]

/-- The closed text has the tokens of the text, with other end anchors, and is the text itself
when there are none. -/
theorem ofText?_closed {tokens : List PatternToken} (plain : PlainClasses text)
    (read : ofText? text = some tokens) :
    ofText? (closeEnds text) = some (tokens.map closed) ∧
      (.anchor .lastLineEnd ∉ tokens → closeEnds text = text) :=
  scan?_closed plain read length_le_closeEndsFrom

end WorkItems.PatternToken
