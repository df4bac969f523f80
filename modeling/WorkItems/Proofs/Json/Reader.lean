import WorkItems.Json.Reader
import WorkItems.Proofs.Outcome
import WorkItems.Proofs.Value.Depth

namespace WorkItems.Json

/-! What is read keeps within the limits.

A document that is read on a machine has no more levels than there is room for, and no number in it
has more digits than are read.
-/

variable {limits : Limits} {steps room : Nat} {rest left : Rest} {value : Value}
  {items : List Value} {members : Members}

/-- Whether a value keeps within some room and the digits that are read. -/
structure Fits (limits : Limits) (room : Nat) (value : Value) : Prop where
  shallow : value.depth ≤ room
  short : value.Short limits.digits

theorem digitsValue_lt {digits : List Char} (each : ∀ c ∈ digits, isDigit c = true) :
    digitsValue digits < Nat.pow 10 digits.length := by
  have bound (start : Nat) :
      digits.foldl (fun value c => value * 10 + (c.toNat - '0'.toNat)) start <
        (start + 1) * Nat.pow 10 digits.length := by
    induction digits generalizing start with
    | nil => simp
    | cons c digits ih =>
        obtain ⟨digit, later⟩ := List.forall_mem_cons.mp each
        have upTo : c.toNat ≤ '9'.toNat := by
          rw [isDigit, Bool.and_eq_true, decide_eq_true_eq, decide_eq_true_eq] at digit
          exact UInt32.le_iff_toNat_le.mp digit.right
        have next : start * 10 + (c.toNat - '0'.toNat) + 1 ≤ (start + 1) * 10 := by
          have nine : '9'.toNat = 57 := rfl
          have zero : '0'.toNat = 48 := rfl
          omega
        calc (c :: digits).foldl (fun value c => value * 10 + (c.toNat - '0'.toNat)) start
            < (start * 10 + (c.toNat - '0'.toNat) + 1) * Nat.pow 10 digits.length := ih later _
          _ ≤ (start + 1) * 10 * Nat.pow 10 digits.length := Nat.mul_le_mul_right _ next
          _ = (start + 1) * (Nat.pow 10 digits.length * 10) := by
              rw [Nat.mul_assoc, Nat.mul_comm 10]
  simpa [digitsValue] using bound 0

theorem Fits.atom (flat : value.depth = 0) (short : value.Short limits.digits) :
    Fits limits room value :=
  ⟨flat ▸ Nat.zero_le _, short⟩

theorem wholeDigits_digits (rest : Rest) : ∀ c ∈ wholeDigits rest, isDigit c = true := by
  unfold wholeDigits
  split
  · exact List.forall_mem_singleton.mpr (by decide)
  · exact List.all_eq_true.mp List.all_takeWhile

theorem readNumber_fits {negative : Bool}
    (read : readNumber limits negative rest = .ok (value, left)) : Fits limits room value := by
  unfold readNumber at read
  dsimp only at read
  obtain ⟨-, read⟩ := refuse_eq_ok_iff.mp read
  split at read
  · cases read
    exact .atom rfl nofun
  · obtain ⟨enough, read⟩ := refuse_eq_ok_iff.mp read
    have size : digitsValue (wholeDigits rest) < Nat.pow 10 limits.digits :=
      calc digitsValue (wholeDigits rest)
          < Nat.pow 10 (wholeDigits rest).length := digitsValue_lt (wholeDigits_digits rest)
        _ ≤ Nat.pow 10 limits.digits := Nat.pow_le_pow_right (by decide) (Nat.le_of_not_lt enough)
    cases read
    refine .atom rfl (Value.short_int_iff.mpr ?_)
    split <;> simpa using size

theorem readWord_eq {word : String} {known : Value}
    (read : readWord word known rest = .ok (value, left)) : value = known := by
  rw [readWord] at read
  split at read
  · cases read
    rfl
  · cases read

theorem Fits.array (each : ∀ item ∈ items, Fits limits room item) :
    Fits limits (room + 1) (.array items) where
  shallow := Nat.succ_le_succ (Value.depthOfItems_le_iff.mpr fun item among =>
    (each item among).shallow)
  short := Value.short_array_iff.mpr fun item among => (each item among).short

theorem Fits.object (each : ∀ member ∈ members, Fits limits room member.2) :
    Fits limits (room + 1) (.object members) where
  shallow := Nat.succ_le_succ (Value.depthOfMembers_le_iff.mpr fun member among =>
    (each member among).shallow)
  short := Value.short_object_iff.mpr fun member among => (each member among).short

theorem enter_eq_ok_iff {inner : Nat} : enter room = .ok inner ↔ room = inner + 1 := by
  cases room <;> simp [enter, eq_comm]

/-- Whether the readers of items and members give only what keeps within the limits. -/
structure InnerFits (limits : Limits) (steps : Nat) : Prop where
  items : ∀ room rest items left, readItems limits steps room rest = .ok (items, left) →
    ∀ item ∈ items, Fits limits room item
  members : ∀ room members rest found left, (∀ member ∈ members, Fits limits room member.2) →
    readMembers limits steps room members rest = .ok (found, left) →
      ∀ member ∈ found, Fits limits room member.2

theorem readValue_step (inner : InnerFits limits steps)
    (read : readValue limits (steps + 1) room rest = .ok (value, left)) :
    Fits limits room value := by
  unfold readValue at read
  split at read
  · obtain ⟨⟨text, after⟩, -, given⟩ := bind_eq_ok_iff.mp read
    cases given
    exact .atom rfl fun _ impossible => by cases impossible
  · obtain ⟨below, entered, inside⟩ := bind_eq_ok_iff.mp read
    obtain rfl := enter_eq_ok_iff.mp entered
    clear read
    split at inside
    · cases inside
      exact .array nofun
    · obtain ⟨⟨items, after⟩, found, given⟩ := bind_eq_ok_iff.mp inside
      cases given
      exact .array (inner.items _ _ _ _ found)
  · obtain ⟨below, entered, inside⟩ := bind_eq_ok_iff.mp read
    obtain rfl := enter_eq_ok_iff.mp entered
    clear read
    split at inside
    · cases inside
      exact .object nofun
    · obtain ⟨⟨members, after⟩, found, given⟩ := bind_eq_ok_iff.mp inside
      cases given
      exact .object (inner.members _ _ _ _ _ (List.forall_mem_nil _) found)
  · exact readWord_eq read ▸ .atom rfl nofun
  · exact readWord_eq read ▸ .atom rfl nofun
  · exact readWord_eq read ▸ .atom rfl nofun
  · exact readWord_eq read ▸ .atom rfl nofun
  · exact readWord_eq read ▸ .atom rfl nofun
  · exact readWord_eq read ▸ .atom rfl nofun
  · exact readNumber_fits read
  · exact readNumber_fits read

theorem readItems_step (inner : InnerFits limits steps)
    (ofValue : ∀ room rest value left, readValue limits steps room rest = .ok (value, left) →
      Fits limits room value)
    (read : readItems limits (steps + 1) room rest = .ok (items, left)) :
    ∀ item ∈ items, Fits limits room item := by
  rw [readItems] at read
  obtain ⟨⟨item, after⟩, found, read⟩ := bind_eq_ok_iff.mp read
  have first := ofValue _ _ _ _ found
  dsimp only at read
  split at read
  · obtain ⟨⟨others, last⟩, later, given⟩ := bind_eq_ok_iff.mp read
    cases given
    exact List.forall_mem_cons.mpr ⟨first, inner.items _ _ _ _ later⟩
  · cases read
    exact List.forall_mem_singleton.mpr first
  · cases read

theorem readMembers_step (inner : InnerFits limits steps) {found : Members}
    (ofValue : ∀ room rest value left, readValue limits steps room rest = .ok (value, left) →
      Fits limits room value)
    (fit : ∀ member ∈ members, Fits limits room member.2)
    (read : readMembers limits (steps + 1) room members rest = .ok (found, left)) :
    ∀ member ∈ found, Fits limits room member.2 := by
  rw [readMembers] at read
  split at read
  · obtain ⟨⟨key, afterKey⟩, -, named⟩ := bind_eq_ok_iff.mp read
    clear read
    dsimp only at named
    split at named
    · obtain ⟨⟨value, afterValue⟩, valued, others⟩ := bind_eq_ok_iff.mp named
      clear named
      have put : ∀ member ∈ members.put key value, Fits limits room member.2 := by
        intro member among
        rcases Members.mem_of_mem_put among with rfl | kept
        · exact ofValue _ _ _ _ valued
        · exact fit member kept
      dsimp only at others
      split at others
      · exact inner.members _ _ _ _ _ put others
      · cases others
        exact put
      · cases others
    · cases named
  · cases read

theorem readers_fit (limits : Limits) (steps : Nat) : InnerFits limits steps ∧
    ∀ room rest value left, readValue limits steps room rest = .ok (value, left) →
      Fits limits room value := by
  -- Each reader takes one step less inside, so that all three go together.
  induction steps with
  | zero => exact ⟨⟨nofun, nofun⟩, nofun⟩
  | succ steps ih =>
      obtain ⟨inner, ofValue⟩ := ih
      exact ⟨⟨fun _ _ _ _ => readItems_step inner ofValue,
        fun _ _ _ _ _ => readMembers_step inner ofValue⟩, fun _ _ _ _ => readValue_step inner⟩

/-- A document that is read keeps within the limits. -/
theorem read_fits {text : String} {document : Value} (accepted : read limits text = .ok document) :
    Fits limits limits.reading document := by
  obtain ⟨⟨value, rest⟩, found, accepted⟩ := bind_eq_ok_iff.mp accepted
  dsimp only at accepted
  split at accepted
  · cases accepted
    exact (readers_fit limits _).right _ _ _ _ found
  · cases accepted

/-- More arrays in one another than there is room for are not read. -/
theorem readValue_brackets {count : Nat} (deep : room < count) (enough : 2 * count ≤ steps) :
    readValue limits (steps + 1) room (List.replicate count '[' ++ rest) =
      .error (.broken .noRoom) := by
  induction room generalizing count steps with
  | zero =>
      obtain ⟨count, rfl⟩ := Nat.exists_eq_succ_of_ne_zero (Nat.ne_of_gt deep)
      rfl
  | succ room ih =>
      obtain ⟨count, rfl⟩ : ∃ fewer, count = fewer + 2 := ⟨count - 2, by omega⟩
      obtain ⟨steps, rfl⟩ : ∃ fewer, steps = fewer + 2 := ⟨steps - 2, by omega⟩
      have inside : readValue limits (steps + 1) room
          ('[' :: (List.replicate count '[' ++ rest)) = .error (.broken .noRoom) :=
        @ih _ (count + 1) (by omega) (by omega)
      have items : readItems limits (steps + 2) room
          ('[' :: (List.replicate count '[' ++ rest)) = .error (.broken .noRoom) := by
        have first : skipSpace ('[' :: (List.replicate count '[' ++ rest)) =
            '[' :: (List.replicate count '[' ++ rest) := rfl
        rw [readItems, first, inside]
        rfl
      calc readValue limits (steps + 3) (room + 1) (List.replicate (count + 2) '[' ++ rest)
          = (readItems limits (steps + 2) room ('[' :: (List.replicate count '[' ++ rest)) >>=
              fun found => pure (.array found.1, found.2)) := rfl
        _ = .error (.broken .noRoom) := by
            rw [items]
            rfl

theorem read_brackets {count : Nat} (deep : limits.reading < count) :
    read limits (String.ofList (List.replicate count '[' ++ List.replicate count ']')) =
      .error (.broken .noRoom) := by
  have first : skipSpace (List.replicate count '[' ++ List.replicate count ']') =
      List.replicate count '[' ++ List.replicate count ']' := by
    cases count <;> rfl
  rw [read, String.toList_ofList, first, readValue_brackets deep]
  · rfl
  · rw [List.length_append, List.length_replicate]
    omega

/-- A whole number with more digits than are read is not read. -/
theorem read_nines {count : Nat} (long : limits.digits < count) :
    read limits (String.ofList (List.replicate count '9')) = .error (.broken .tooManyDigits) := by
  obtain ⟨count, rfl⟩ := Nat.exists_eq_succ_of_ne_zero (Nat.ne_of_gt (Nat.zero_lt_of_lt long))
  have digits : wholeDigits (List.replicate (count + 1) '9') = List.replicate (count + 1) '9' := by
    calc wholeDigits (List.replicate (count + 1) '9')
        = (List.replicate (count + 1) '9').takeWhile isDigit := rfl
      _ = List.replicate (count + 1) '9' := List.takeWhile_replicate.trans (if_pos (by decide))
  have number : readNumber limits false (List.replicate (count + 1) '9') =
      .error (.broken .tooManyDigits) := by
    rw [readNumber, digits, List.length_replicate, List.drop_replicate, Nat.sub_self]
    exact if_pos long
  rw [read, String.toList_ofList]
  exact congrArg (· >>= _) number

end WorkItems.Json
