import Mathlib.Data.List.Nodup
import WorkItems.Files.Tree

namespace WorkItems

/-! The names in a folder.

Each name stands once, and where there are any there is a folder that they are in.
-/

theorem nodup_eraseDups {α : Type} [BEq α] [LawfulBEq α] (items : List α) :
    items.eraseDups.Nodup := by
  match items with
  | [] => exact List.nodup_nil
  | item :: others =>
      have gone : item ∉ others.filter fun other => !other == item := by
        rw [List.mem_filter, beq_self_eq_true]
        exact fun both => Bool.false_ne_true both.right
      rw [List.eraseDups_cons, List.nodup_cons, List.mem_eraseDups]
      exact ⟨gone, nodup_eraseDups _⟩
termination_by items.length
decreasing_by exact Nat.lt_succ_of_le (List.length_filter_le _ _)

namespace FileTree

variable {tree : FileTree} {location : Location} {folder path : List String} {name : String}

theorem below?_eq_some (below : below? folder path = some name) :
    ∃ rest, path = folder ++ name :: rest := by
  induction folder generalizing path with
  | nil =>
      cases path with
      | nil => cases below
      | cons first rest =>
          cases below
          exact ⟨rest, rfl⟩
  | cons above folder ih =>
      cases path with
      | nil => cases below
      | cons first others =>
          rw [below?] at below
          split at below
          · rename_i same
            obtain ⟨rest, rfl⟩ := ih below
            exact ⟨rest, by rw [same, List.cons_append]⟩
          · cases below

theorem isFolder_of_below (listed : path ∈ tree.files.map Prod.fst ++ tree.folders)
    (below : below? folder path = some name) : tree.isFolder folder = true := by
  obtain ⟨rest, rfl⟩ := below?_eq_some below
  have isPrefix : folder.isPrefixOf (folder ++ name :: rest) = true :=
    List.isPrefixOf_iff_prefix.mpr (List.prefix_append _ _)
  rw [isFolder, Bool.or_eq_true, Bool.or_eq_true]
  rcases List.mem_append.mp listed with ofFile | ofFolder
  · obtain ⟨file, inTree, isPath⟩ := List.mem_map.mp ofFile
    refine .inr (List.any_eq_true.mpr ⟨file, inTree, ?_⟩)
    have longer : folder ≠ folder ++ name :: rest :=
      fun same => List.cons_ne_nil name rest (List.append_right_eq_self.mp same.symm)
    rw [isPath, isPrefix, Bool.true_and]
    exact bne_iff_ne.mpr longer
  · exact .inl (.inr (List.any_eq_true.mpr ⟨_, ofFolder, isPrefix⟩))

theorem exists?_of_mem_names (among : name ∈ tree.names location) :
    tree.exists? location = true := by
  rw [names] at among
  rw [exists?]
  split at among
  · rename_i folder found
    rw [List.mem_eraseDups, List.mem_filterMap] at among
    obtain ⟨path, listed, below⟩ := among
    rw [found]
    simp only [isFolder_of_below listed below, Bool.true_or]
  · cases among

theorem names_nodup (tree : FileTree) (location : Location) : (tree.names location).Nodup := by
  rw [names]
  split
  · exact nodup_eraseDups _
  · exact List.nodup_nil

end FileTree

end WorkItems
