import WorkItems.Pattern.EndAnchor

namespace WorkItems.Pattern

/-! What closing the dollar signs of a text does to its characters.

Most characters are copied wherever they stand.  Runs of them are the same in the closed text, and
the character that comes first is the same unless it is an end anchor.
-/

variable {source target third region : Region} {text rest after : List Char} {c : Char}
  {accepts : Char → Bool}

/-- A character that closing copies wherever it stands, and that starts and ends nothing. -/
def Inert (c : Char) : Prop :=
  c ≠ '\\' ∧ c ≠ '$' ∧ c ≠ '[' ∧ c ≠ ']'

instance : Decidable (Inert c) :=
  inferInstanceAs (Decidable (_ ∧ _))

theorem inert_of_accepted (rejected : ['\\', '$', '[', ']'].any accepts = false)
    (accepted : accepts c = true) : Inert c := by
  have differs (special : Char) (member : special ∈ ['\\', '$', '[', ']']) : c ≠ special := by
    rintro rfl
    exact List.any_eq_false.mp rejected c member accepted
  exact ⟨differs _ (by simp), differs _ (by simp), differs _ (by simp), differs _ (by simp)⟩

/-- Closing copies a text up to a place, and gets from one region to another on the way. -/
def Copies (source target : Region) (text rest : List Char) : Prop :=
  ∃ used, text = used ++ rest ∧ closeEndsFrom source text = used ++ closeEndsFrom target rest

theorem Copies.refl : Copies source source text text :=
  ⟨[], rfl, rfl⟩

theorem Copies.trans (first : Copies source target text rest)
    (second : Copies target third rest after) : Copies source third text after := by
  obtain ⟨used, whole, closed⟩ := first
  obtain ⟨further, remaining, closedRest⟩ := second
  refine ⟨used ++ further, ?_, ?_⟩
  · rw [whole, remaining, List.append_assoc]
  · rw [closed, closedRest, List.append_assoc]

theorem closeEndsFrom_escape :
    closeEndsFrom region ('\\' :: c :: rest) = '\\' :: c :: closeEndsFrom region rest := by
  cases region <;> simp [closeEndsFrom]

theorem Copies.escape (copied : Copies source target text rest) :
    Copies source target ('\\' :: c :: text) rest := by
  obtain ⟨used, whole, closed⟩ := copied
  exact ⟨'\\' :: c :: used, by simp [whole], by simp [closeEndsFrom_escape, closed]⟩

theorem closeEndsFrom_class (ordinary : c ≠ '\\') :
    closeEndsFrom .characterClass (c :: rest) =
      c :: closeEndsFrom (if c = ']' then .plain else .characterClass) rest := by
  simp [closeEndsFrom, ordinary]

theorem closeEndsFrom_plain (ordinary : c ≠ '\\') (noAnchor : c ≠ '$') :
    closeEndsFrom .plain (c :: rest) =
      c :: closeEndsFrom (if c = '[' then .characterClass else .plain) rest := by
  simp [closeEndsFrom, ordinary, noAnchor]

theorem closeEndsFrom_inert (region : Region) (rest : List Char) (inert : Inert c) :
    closeEndsFrom region (c :: rest) = c :: closeEndsFrom region rest := by
  obtain ⟨backslash, dollar, opening, closing⟩ := inert
  cases region with
  | plain => rw [closeEndsFrom_plain backslash dollar, if_neg opening]
  | characterClass => rw [closeEndsFrom_class backslash, if_neg closing]

theorem closeEndsFrom_inert_append (region : Region) (rest : List Char)
    (inert : ∀ c ∈ text, Inert c) :
    closeEndsFrom region (text ++ rest) = text ++ closeEndsFrom region rest := by
  induction text with
  | nil => rfl
  | cons c text ih =>
      obtain ⟨first, others⟩ := List.forall_mem_cons.mp inert
      rw [List.cons_append, closeEndsFrom_inert region _ first, ih others, List.cons_append]

/-- Closing changes the first character of a text only where it is an end anchor. -/
theorem closeEndsFrom_cons (region : Region) (c : Char) (rest : List Char) :
    ∃ more, closeEndsFrom region (c :: rest) =
      (if region = .plain ∧ c = '$' then '\\' else c) :: more := by
  by_cases backslash : c = '\\'
  · subst backslash
    cases rest <;> cases region <;> simp [closeEndsFrom]
  · cases region with
    | characterClass => simp [closeEndsFrom_class backslash]
    | plain =>
        by_cases dollar : c = '$'
        · simp [closeEndsFrom, dollar]
        · simp [closeEndsFrom_plain backslash dollar, dollar]

theorem head?_closeEndsFrom : (closeEndsFrom region text).head? =
    text.head?.map fun c => if region = .plain ∧ c = '$' then '\\' else c := by
  cases text with
  | nil => cases region <;> rfl
  | cons c text =>
      obtain ⟨more, closed⟩ := closeEndsFrom_cons region c text
      simp [closed]

/-- A character that closing neither changes nor brings in comes first in both texts or in none. -/
theorem head?_closeEndsFrom_iff (backslash : c ≠ '\\') (dollar : c ≠ '$') :
    (closeEndsFrom region text).head? = some c ↔ text.head? = some c := by
  rw [head?_closeEndsFrom]
  cases text.head? with
  | none => simp
  | some first =>
      by_cases changed : region = .plain ∧ first = '$'
      · simp [changed, backslash.symm, dollar.symm]
      · simp [changed]

theorem takeWhile_closeEndsFrom (region : Region) (text : List Char)
    (inert : ∀ c, accepts c = true → Inert c) :
    (closeEndsFrom region text).takeWhile accepts = text.takeWhile accepts ∧
      (closeEndsFrom region text).dropWhile accepts =
        closeEndsFrom region (text.dropWhile accepts) := by
  induction text with
  | nil => cases region <;> exact ⟨rfl, rfl⟩
  | cons c text ih =>
      cases accepted : accepts c with
      | true =>
          rw [closeEndsFrom_inert region text (inert c accepted)]
          simpa [accepted] using ih
      | false =>
          have backslash : accepts '\\' = false :=
            Bool.eq_false_iff.mpr fun other => (inert '\\' other).1 rfl
          obtain ⟨more, closed⟩ := closeEndsFrom_cons region c text
          have stopped : accepts (if region = .plain ∧ c = '$' then '\\' else c) = false := by
            split <;> assumption
          rw [List.dropWhile_cons_of_neg (by simp [accepted]), closed]
          simp [stopped, accepted]

theorem copies_inert (inert : ∀ c ∈ text, Inert c) : Copies region region (text ++ rest) rest :=
  ⟨text, rfl, closeEndsFrom_inert_append region rest inert⟩

theorem copies_dropWhile (inert : ∀ c, accepts c = true → Inert c) :
    Copies region region text (text.dropWhile accepts) := by
  have run : ∀ c ∈ text.takeWhile accepts, Inert c :=
    fun c member => inert c (List.all_eq_true.mp List.all_takeWhile c member)
  have copied : Copies region region (text.takeWhile accepts ++ text.dropWhile accepts) _ :=
    copies_inert run
  rwa [List.takeWhile_append_dropWhile] at copied

theorem head?_ne (other : ∀ rest, text = c :: rest → False) : text.head? ≠ some c := by
  intro first
  obtain ⟨rest, whole⟩ := List.head?_eq_some_iff.mp first
  exact other rest whole

/-- Taking one character off leaves the same rest in both texts. -/
theorem tail_closed (region : Region) (inert : Inert c) (first : text.head? = some c) :
    (closeEndsFrom region text).tail = closeEndsFrom region text.tail ∧
      Copies region region text text.tail := by
  obtain ⟨rest, rfl⟩ := List.head?_eq_some_iff.mp first
  have closed := closeEndsFrom_inert region rest inert
  exact ⟨congrArg List.tail closed, [c], rfl, closed⟩

/-- A reader finds the same in a text and in the closed text, and leaves the closed rest. -/
def ReadsAlike {α : Type} (read : List Char → Option (α × List Char)) (source target : Region)
    (text : List Char) (found : α) (rest : List Char) : Prop :=
  read (closeEndsFrom source text) = some (found, closeEndsFrom target rest) ∧
    Copies source target text rest

end WorkItems.Pattern
