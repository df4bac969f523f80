import WorkItems.Value

namespace WorkItems.Members

/-! Members by their keys.

What is found under a key is the same for a list of members and for the mapping that it stands for
once the keys are distinct, which `Distinct` says of every object that comes from a document.
-/

variable {α : Type} {members changes : Members} {key name : String} {value : Value}

/-- No two entries have the same key. -/
def Distinct (entries : List (String × α)) : Prop :=
  (entries.map Prod.fst).Nodup

instance (entries : List (String × α)) : Decidable (Distinct entries) :=
  inferInstanceAs (Decidable (List.Nodup _))

theorem lookup_cons (entry : String × α) (entries : List (String × α)) (key : String) :
    (entry :: entries).lookup key =
      if key = entry.1 then some entry.2 else entries.lookup key := by
  by_cases same : key = entry.1
  · rw [if_pos same, List.lookup_cons, same, beq_self_eq_true]
  · have different : (key == entry.1) = false := beq_eq_false_iff_ne.mpr same
    rw [List.lookup_cons, different, if_neg same]

theorem mem_of_lookup {entries : List (String × α)} {entry : α}
    (found : entries.lookup key = some entry) : (key, entry) ∈ entries := by
  induction entries with
  | nil => cases found
  | cons first rest ih =>
      rw [lookup_cons] at found
      by_cases same : key = first.1
      · rw [if_pos same, Option.some.injEq] at found
        rw [same, ← found]
        exact List.mem_cons_self
      · rw [if_neg same] at found
        exact List.mem_cons_of_mem _ (ih found)

theorem lookup_of_mem {entries : List (String × α)} {entry : α} (distinct : Distinct entries)
    (member : (key, entry) ∈ entries) : entries.lookup key = some entry := by
  induction entries with
  | nil => cases member
  | cons first rest ih =>
      obtain ⟨fresh, restDistinct⟩ := List.nodup_cons.mp distinct
      rw [lookup_cons]
      rcases List.mem_cons.mp member with same | later
      · rw [← same, if_pos rfl]
      · have different : key ≠ first.1 := by
          intro same
          exact fresh (same ▸ List.mem_map_of_mem later)
        rw [if_neg different]
        exact ih restDistinct later

theorem lookup_map_value {β : Type} (entries : List (String × α)) (convert : α → β)
    (key : String) :
    (entries.map fun entry => (entry.1, convert entry.2)).lookup key =
      (entries.lookup key).map convert := by
  induction entries with
  | nil => rfl
  | cons first rest ih =>
      rw [List.map_cons, lookup_cons, lookup_cons, ih]
      by_cases same : key = first.1
      · rw [if_pos same, if_pos same, Option.map_some]
      · rw [if_neg same, if_neg same]

theorem hasKey_iff : members.hasKey key = true ↔ ∃ value, (key, value) ∈ members := by
  constructor
  · intro present
    obtain ⟨value, found⟩ := Option.isSome_iff_exists.mp present
    exact ⟨value, mem_of_lookup found⟩
  · intro present
    rcases present with ⟨value, member⟩
    rw [hasKey, List.lookup_isSome_iff]
    exact ⟨(key, value), member, beq_self_eq_true key⟩

theorem lookup_put (members : Members) (key name : String) (value : Value) :
    (members.put key value).lookup name =
      if name = key then some value else members.lookup name := by
  induction members with
  | nil => rw [put, lookup_cons]
  | cons first rest ih =>
      rw [put]
      by_cases same : first.1 = key
      · rw [if_pos same, lookup_cons, lookup_cons, same]
        by_cases asked : name = key
        · rw [if_pos asked, if_pos asked]
        · rw [if_neg asked, if_neg asked, if_neg asked]
      · rw [if_neg same, lookup_cons, lookup_cons, ih]
        by_cases asked : name = first.1
        · rw [if_pos asked, if_pos asked, if_neg (asked ▸ same)]
        · rw [if_neg asked, if_neg asked]

theorem valueAt_put (members : Members) (key name : String) (value : Value) :
    (members.put key value).valueAt name =
      if name = key then value else members.valueAt name := by
  rw [valueAt, lookup_put]
  by_cases same : name = key
  · rw [if_pos same, if_pos same, Option.getD_some]
  · rw [if_neg same, if_neg same, valueAt]

theorem mem_keys_put :
    name ∈ (members.put key value).keys ↔ name = key ∨ name ∈ members.keys := by
  induction members with
  | nil => simp [put, keys]
  | cons first rest ih =>
      by_cases same : first.1 = key
      · simp [put, keys, same]
      · have others : name ∈ (put rest key value).map Prod.fst ↔
            name = key ∨ name ∈ rest.map Prod.fst := ih
        simp only [put, if_neg same, keys, List.map_cons, List.mem_cons, others]
        exact or_left_comm

theorem mem_put_self : (key, value) ∈ members.put key value := by
  apply mem_of_lookup
  rw [lookup_put, if_pos rfl]

theorem mem_of_mem_put {member : String × Value} (among : member ∈ members.put key value) :
    member = (key, value) ∨ member ∈ members := by
  induction members with
  | nil => exact .inl (List.mem_singleton.mp among)
  | cons first rest ih =>
      rw [put] at among
      by_cases same : first.1 = key
      · rw [if_pos same] at among
        exact (List.mem_cons.mp among).imp_right (List.mem_cons_of_mem first)
      · rw [if_neg same] at among
        rcases List.mem_cons.mp among with rfl | later
        · exact .inr List.mem_cons_self
        · exact (ih later).imp_right (List.mem_cons_of_mem first)

theorem hasKey_iff_mem_keys : members.hasKey name = true ↔ name ∈ members.keys := by
  rw [hasKey_iff]
  simp [keys]

theorem lookup_eq_none_iff : members.lookup name = none ↔ name ∉ members.keys := by
  rw [← Option.not_isSome_iff_eq_none, ← hasKey, hasKey_iff_mem_keys]

/-- Where nothing is found in the members, what is found after a put is in the new member. -/
theorem flatMap_put {found : String × Value → List α}
    (idle : ∀ member ∈ members, found member = []) :
    (members.put key value).flatMap found = found (key, value) := by
  induction members with
  | nil => rw [put, List.flatMap_singleton]
  | cons first rest ih =>
      obtain ⟨nothing, later⟩ := List.forall_mem_cons.mp idle
      rw [put]
      by_cases same : first.1 = key
      · rw [if_pos same, List.flatMap_cons, List.flatMap_eq_nil_iff.mpr later, List.append_nil]
      · rw [if_neg same, List.flatMap_cons, nothing, List.nil_append, ih later]

theorem put_distinct (distinct : Distinct members) : Distinct (members.put key value) := by
  induction members with
  | nil => simp [put, Distinct]
  | cons first rest ih =>
      obtain ⟨fresh, restDistinct⟩ := List.nodup_cons.mp distinct
      by_cases same : first.1 = key
      · rw [put, if_pos same, ← same]
        exact distinct
      · rw [put, if_neg same]
        refine List.nodup_cons.mpr ⟨?_, ih restDistinct⟩
        intro again
        rcases mem_keys_put.mp again with equal | member
        · exact same equal
        · exact fresh member

/-- What is found and is not null is still found when the nulls are dropped. -/
theorem lookup_dropNulls (found : members.lookup name = some value)
    (present : value.isNull = false) : members.dropNulls.lookup name = some value := by
  induction members with
  | nil => cases found
  | cons first rest ih =>
      rw [lookup_cons] at found
      rw [dropNulls, List.filter_cons]
      by_cases same : name = first.1
      · rw [if_pos same, Option.some.injEq] at found
        rw [found, present, Bool.not_false, if_pos rfl, lookup_cons, if_pos same, found]
      · rw [if_neg same] at found
        cases first.2.isNull with
        | true => exact ih found
        | false =>
            rw [Bool.not_false, if_pos rfl, lookup_cons, if_neg same]
            exact ih found

/-- Of members with keys of their own, dropping the nulls leaves what is not null. -/
theorem lookup_dropNulls_iff (distinct : Distinct members) :
    members.dropNulls.lookup name = some value ↔
      members.lookup name = some value ∧ value.isNull = false := by
  constructor
  · intro found
    obtain ⟨member, present⟩ := List.mem_filter.mp (mem_of_lookup found)
    exact ⟨lookup_of_mem distinct member, by simpa using present⟩
  · intro found
    rcases found with ⟨found, present⟩
    exact lookup_dropNulls found present

theorem dropNulls_distinct (distinct : Distinct members) : Distinct members.dropNulls :=
  distinct.sublist (List.filter_sublist.map Prod.fst)

theorem valueAt_dropNulls (distinct : Distinct members) :
    members.dropNulls.valueAt name = members.valueAt name := by
  rw [valueAt, valueAt]
  cases found : members.lookup name with
  | none =>
      have absent : members.dropNulls.lookup name = none := by
        refine Option.eq_none_iff_forall_ne_some.mpr fun value kept => ?_
        rw [((lookup_dropNulls_iff distinct).mp kept).left] at found
        cases found
      rw [absent]
  | some value =>
      cases isNull : value.isNull with
      | false => rw [lookup_dropNulls found isNull]
      | true =>
          have absent : members.dropNulls.lookup name = none := by
            refine Option.eq_none_iff_forall_ne_some.mpr fun other kept => ?_
            obtain ⟨same, present⟩ := (lookup_dropNulls_iff distinct).mp kept
            rw [found, Option.some.injEq] at same
            rw [same, present] at isNull
            cases isNull
          cases value with
          | null => rw [absent]; rfl
          | bool | number | text | term | array | tuple | object | foreign => cases isNull

theorem merge_cons (members : Members) (change : String × Value) (changes : Members) :
    members.merge (change :: changes) = (members.put change.1 change.2).merge changes := rfl

/-- What is not among the changes is what it was. -/
theorem lookup_merge_of_absent (absent : changes.lookup name = none) :
    (members.merge changes).lookup name = members.lookup name := by
  induction changes generalizing members with
  | nil => rfl
  | cons first rest ih =>
      rw [lookup_cons] at absent
      by_cases same : name = first.1
      · rw [if_pos same] at absent
        cases absent
      · rw [if_neg same] at absent
        rw [merge_cons, ih absent, lookup_put, if_neg same]

/-- Merged members are looked for among the changes first. -/
theorem lookup_merge (distinct : Distinct changes) :
    (members.merge changes).lookup name = (changes.lookup name).or (members.lookup name) := by
  induction changes generalizing members with
  | nil => rfl
  | cons change rest ih =>
      obtain ⟨fresh, restDistinct⟩ := List.nodup_cons.mp distinct
      rw [merge_cons, ih restDistinct, lookup_put, lookup_cons]
      by_cases same : name = change.1
      · have absent : rest.lookup name = none := by
          rw [List.lookup_eq_none_iff]
          intro entry member
          rw [bne_iff_ne]
          intro equal
          exact fresh (by rw [← same, equal]; exact List.mem_map_of_mem member)
        rw [if_pos same, if_pos same, absent]
        rfl
      · rw [if_neg same, if_neg same]

theorem lookup_merge_eq_some_iff (distinct : Distinct changes) :
    (members.merge changes).lookup name = some value ↔
      changes.lookup name = some value ∨
        (changes.lookup name = none ∧ members.lookup name = some value) := by
  rw [lookup_merge distinct, Option.or_eq_some_iff]

theorem lookup_merge_eq_none_iff (distinct : Distinct changes) :
    (members.merge changes).lookup name = none ↔
      members.lookup name = none ∧ changes.lookup name = none := by
  rw [lookup_merge distinct, Option.or_eq_none_iff, and_comm]

theorem valueAt_merge (distinct : Distinct changes) :
    (members.merge changes).valueAt name = (changes.lookup name).getD (members.valueAt name) := by
  rw [valueAt, lookup_merge distinct]
  cases changes.lookup name with
  | none => rfl
  | some value => rfl

theorem mem_keys_merge :
    name ∈ (members.merge changes).keys ↔ name ∈ members.keys ∨ name ∈ changes.keys := by
  induction changes generalizing members with
  | nil => simp [merge, keys]
  | cons change rest ih =>
      rw [merge_cons, ih, mem_keys_put]
      simp only [keys, List.map_cons, List.mem_cons]
      exact or_assoc.trans or_left_comm

theorem merge_distinct (distinct : Distinct members) : Distinct (members.merge changes) := by
  induction changes generalizing members with
  | nil => exact distinct
  | cons change rest ih => exact ih (put_distinct distinct)

/-- The members under other keys than some. -/
def without (members : Members) (names : List String) : Members :=
  members.filter fun member => !names.contains member.1

theorem without_distinct {names : List String} (distinct : Distinct members) :
    Distinct (members.without names) :=
  distinct.sublist (List.filter_sublist.map Prod.fst)

theorem lookup_without (members : Members) (names : List String) (name : String) :
    (members.without names).lookup name = if name ∈ names then none else members.lookup name := by
  induction members with
  | nil => simp [without]
  | cons member rest ih =>
      rw [without, List.filter_cons, lookup_cons]
      by_cases left : member.1 ∈ names
      · rw [if_neg (by simpa using left)]
        by_cases same : name = member.1
        · rw [if_pos (same ▸ left)]
          exact ih.trans (if_pos (same ▸ left))
        · rw [if_neg same]
          exact ih
      · rw [if_pos (by simpa using left), lookup_cons]
        by_cases same : name = member.1
        · rw [if_pos same, if_pos same, if_neg (same ▸ left)]
        · rw [if_neg same, if_neg same]
          exact ih

theorem hasKey_without (members : Members) (names : List String) (name : String) :
    (members.without names).hasKey name = (!names.contains name && members.hasKey name) := by
  rw [hasKey, lookup_without, hasKey]
  by_cases left : name ∈ names <;> simp [left]

theorem valueAt_without (members : Members) (names : List String) (name : String) :
    (members.without names).valueAt name =
      if name ∈ names then .null else members.valueAt name := by
  rw [valueAt, lookup_without]
  by_cases left : name ∈ names
  · rw [if_pos left, if_pos left]
    rfl
  · rw [if_neg left, if_neg left, valueAt]

section

variable {others : Members} {names : List String}

theorem without_cons (member : String × Value) (rest : Members) :
    Members.without (member :: rest) names =
      if member.1 ∈ names then rest.without names else member :: rest.without names := by
  by_cases left : member.1 ∈ names <;> simp [without, left]

theorem lookup_of_without (same : members.without names = others.without names)
    (kept : name ∉ names) : members.lookup name = others.lookup name := by
  have found (entries : Members) : (entries.without names).lookup name = entries.lookup name := by
    rw [lookup_without, if_neg kept]
  rw [← found members, same, found others]

theorem without_put_of_mem (left : key ∈ names) :
    (members.put key value).without names = members.without names := by
  induction members with
  | nil => simp [put, without, left]
  | cons member rest ih =>
      rw [put]
      by_cases same : member.1 = key
      · rw [if_pos same, without_cons, without_cons, if_pos left, same, if_pos left]
      · rw [if_neg same, without_cons, without_cons, ih]

theorem without_put (kept : key ∉ names) :
    (members.put key value).without names = (members.without names).put key value := by
  induction members with
  | nil => simp [put, without, kept]
  | cons member rest ih =>
      rw [put]
      by_cases same : member.1 = key
      · rw [if_pos same, without_cons, without_cons, if_neg kept, same, if_neg kept, put,
          if_pos same]
      · rw [if_neg same, without_cons, without_cons, ih]
        by_cases left : member.1 ∈ names
        · rw [if_pos left, if_pos left]
        · rw [if_neg left, if_neg left, put, if_neg same]

theorem without_without : (members.without names).without names = members.without names := by
  simp [without]

theorem dropNulls_without :
    (members.without names).dropNulls = members.dropNulls.without names := by
  rw [dropNulls, without, List.filter_filter, without, dropNulls, List.filter_filter]
  exact List.filter_congr fun member _ => Bool.and_comm _ _

/-- What is left out makes no difference where nothing is found in it. -/
theorem flatMap_without {found : String × Value → List α}
    (idle : ∀ member ∈ members, member.1 ∈ names → found member = []) :
    (members.without names).flatMap found = members.flatMap found := by
  induction members with
  | nil => rfl
  | cons member rest ih =>
      obtain ⟨first, later⟩ := List.forall_mem_cons.mp idle
      rw [without_cons, List.flatMap_cons, ← ih later]
      by_cases left : member.1 ∈ names
      · rw [if_pos left, first left, List.nil_append]
      · rw [if_neg left, List.flatMap_cons]

theorem filter_without {test : String × Value → Bool}
    (idle : ∀ member ∈ members, member.1 ∈ names → test member = false) :
    (members.without names).filter test = members.filter test := by
  rw [without, List.filter_filter]
  refine List.filter_congr fun member among => ?_
  by_cases left : member.1 ∈ names
  · rw [idle member among left, Bool.false_and]
  · simp [left]

end

/-- The members under some keys. -/
def within (members : Members) (names : List String) : Members :=
  members.filter fun member => names.contains member.1

theorem mem_within {names : List String} {member : String × Value} :
    member ∈ members.within names ↔ member ∈ members ∧ member.1 ∈ names := by
  simp [within]

theorem within_distinct {names : List String} (distinct : Distinct members) :
    Distinct (members.within names) :=
  distinct.sublist (List.filter_sublist.map Prod.fst)

theorem hasKey_within {names : List String} (wanted : name ∈ names)
    (present : members.hasKey name = true) : (members.within names).hasKey name = true := by
  obtain ⟨value, entry⟩ := hasKey_iff.mp present
  exact hasKey_iff.mpr ⟨value, mem_within.mpr ⟨entry, wanted⟩⟩

def Apart (members changes : Members) : Prop :=
  ∀ key ∈ members.keys, key ∉ changes.keys

instance (members changes : Members) : Decidable (Apart members changes) :=
  inferInstanceAs (Decidable (∀ key ∈ members.keys, key ∉ changes.keys))

namespace Apart

variable (apart : Apart members changes)

include apart

theorem symm : Apart changes members :=
  fun key inChanges inMembers => apart key inMembers inChanges

theorem lookup_none (given : members.lookup name = some value) : changes.lookup name = none := by
  refine lookup_eq_none_iff.mpr (apart name ?_)
  exact List.mem_map_of_mem (mem_of_lookup given)

theorem lookup_merge_comm (distinct : Distinct members) (changesDistinct : Distinct changes) :
    (members.merge changes).lookup name = (changes.merge members).lookup name := by
  rw [lookup_merge changesDistinct, lookup_merge distinct]
  cases given : members.lookup name with
  | none => rw [Option.or_none, Option.none_or]
  | some value => rw [apart.lookup_none given, Option.none_or, Option.or_none]

end Apart

end WorkItems.Members
