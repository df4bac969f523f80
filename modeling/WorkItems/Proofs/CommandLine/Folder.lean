import WorkItems.CommandLine.FolderCheck
import WorkItems.Proofs.CommandLine.Document
import WorkItems.Proofs.Files.Tree

namespace WorkItems.CommandLine.FolderCheck

/-! What the command says about a folder, beside what it would say about each document in it.

One document after the other is checked and its name kept among those that passed or those that
failed, so that in the end these are the names of the documents, parted by their own verdicts.
-/

variable {limits : Limits} {tree : FileTree} {arguments names : List String} {folder : Location}
  {name : String} {document : Value} {contents : Contents} {documents : List (String × Contents)}
  {conclude : List String → List String → Report} {passed failed errors : List String}

/-- Whether arguments ask for a check of a folder. -/
def Asks (arguments : List String) (folder : Location) : Prop :=
  ∃ given, signature.read arguments = .proceed given ∧ folderOf given = folder

theorem run_of_asks (asks : Asks arguments folder) (limits : Limits) (tree : FileTree) :
    run limits tree arguments = report limits folder (documentsIn tree folder) := by
  obtain ⟨given, proceeds, rfl⟩ := asks
  rw [run, proceeds]
  rfl

/-- What is asked of each document in a folder. -/
def full (location : Location) : DocumentCheck.Options := ⟨location, .project, true, true⟩

theorem mem_documentNames : name ∈ documentNames names ↔
    name ∈ names ∧ ".json".toList.isSuffixOf name.toList = true := by
  rw [documentNames, (List.mergeSort_perm _ _).mem_iff, List.mem_filter]

theorem documentNames_sorted (distinct : names.Nodup) :
    (documentNames names).Pairwise fun left right => Text.precedes left right = true := by
  have inOrder : (documentNames names).Pairwise fun left right =>
      (!Text.precedes right left) = true :=
    List.pairwise_mergeSort Text.precedes_trans Text.precedes_total _
  have each : (documentNames names).Nodup :=
    (List.mergeSort_perm _ _).nodup_iff.mpr (distinct.filter _)
  exact (inOrder.and each).imp fun both => Text.precedes_of_ne both.left both.right

/-- Whether a document can be read and nothing is found in it. -/
def passes (limits : Limits) (contents : Contents) : Bool :=
  (errorsOf limits contents).toOption.any List.isEmpty

theorem passes_eq (found : errorsOf limits contents = .ok errors) :
    passes limits contents = errors.isEmpty := by
  rw [passes, found]
  rfl

theorem errorsOf_of_document (read : contents.document limits = .ok document)
    (location : Location) : errorsOf limits contents =
      (DocumentCheck.libraryErrors limits (full location) document).mapError .failure := by
  have schema : Schema.SchemaName.projectData.schema = Contract.schemaOf .project := rfl
  have about : (full location).content.subject? document = some .project := rfl
  rw [errorsOf, read, DocumentCheck.libraryErrors_of_subject about schema]
  rfl

/-- Whether a document can be read, and what is found in it can be printed, and its name. -/
def Reportable (limits : Limits) (entry : String × Contents) : Prop :=
  Text.isEncodable entry.1 = true ∧ ∃ errors, errorsOf limits entry.2 = .ok errors ∧
    ∀ error ∈ errors, Text.isEncodable error = true

/-- The names among those of documents whose contents hold a condition. -/
def namesOf (holds : Contents → Bool) (documents : List (String × Contents)) : List String :=
  (documents.filter fun entry => holds entry.2).map Prod.fst

theorem namesOf_cons (holds : Contents → Bool) (name : String) (contents : Contents)
    (documents : List (String × Contents)) :
    namesOf holds ((name, contents) :: documents) =
      (if holds contents then [name] else []) ++ namesOf holds documents := by
  rw [namesOf, List.filter_cons]
  split <;> rfl

theorem verdictLines_encodable (encodable : ∀ error ∈ errors, Text.isEncodable error = true) :
    ∀ line ∈ verdictLines errors, Text.isEncodable line = true := by
  rw [verdictLines]
  split
  · decide
  · refine List.forall_mem_cons.mpr ⟨by decide, fun line among => ?_⟩
    obtain ⟨error, listed, rfl⟩ := List.mem_map.mp among
    rw [Text.isEncodable_append, encodable error listed]
    rfl

/-- A document that can be read is reported, and its name is kept where it belongs. -/
theorem reportEach_cons (reportable : Reportable limits (name, contents)) :
    (reportEach limits conclude passed failed ((name, contents) :: documents)).LeadsTo
      (reportEach limits conclude (passed ++ if passes limits contents then [name] else [])
        (failed ++ if !passes limits contents then [name] else []) documents) := by
  obtain ⟨named, errors, found, encodable⟩ := reportable
  have announced : Text.isEncodable ("Validating " ++ name ++ "... ") = true := by
    rw [Text.isEncodable_append, Text.isEncodable_append, named]
    rfl
  rw [reportEach, found, passes_eq found]
  refine (Report.after_leadsTo announced _).trans
    ((Report.afterLines_leadsTo (verdictLines_encodable encodable) _).trans ?_)
  cases errors with
  | nil =>
      simp only [List.isEmpty_nil, if_true, Bool.not_true, Bool.false_eq_true, if_false,
        List.append_nil]
      exact .refl _
  | cons error errors =>
      simp only [List.isEmpty_cons, if_true, Bool.not_false, Bool.false_eq_true, if_false,
        List.append_nil]
      exact .refl _

theorem reportEach_leadsTo (reportable : ∀ entry ∈ documents, Reportable limits entry) :
    (reportEach limits conclude passed failed documents).LeadsTo
      (conclude (passed ++ namesOf (passes limits) documents)
        (failed ++ namesOf (fun contents => !passes limits contents) documents)) := by
  -- A document adds to what has been kept, so the rest is taken with any names before it.
  induction documents generalizing passed failed with
  | nil =>
      rw [reportEach, namesOf, namesOf, List.filter_nil, List.filter_nil, List.map_nil,
        List.append_nil, List.append_nil]
      exact .refl _
  | cons entry documents ih =>
      obtain ⟨name, contents⟩ := entry
      obtain ⟨first, others⟩ := List.forall_mem_cons.mp reportable
      rw [namesOf_cons, namesOf_cons, ← List.append_assoc, ← List.append_assoc]
      exact (reportEach_cons first).trans (ih others)

/-- A document passes in a folder when it passes on its own. -/
theorem fine_iff_passes {location : Location} (asks : DocumentCheck.Asks arguments (full location))
    (named : Text.isEncodable location.name = true)
    (read : (tree.read location).document limits = .ok document) :
    (DocumentCheck.run limits tree arguments).ending = .ok 0 ↔
      passes limits (tree.read location) = true := by
  have fine : (DocumentCheck.reportDocument limits (full location) document).ending = .ok 0 ↔
      DocumentCheck.Admitted limits (full location) document :=
    DocumentCheck.reportDocument_fine_iff named
  rw [DocumentCheck.run_of_document asks read, fine, ← DocumentCheck.libraryErrors_eq_nil_iff,
    passes, errorsOf_of_document read location]
  cases DocumentCheck.libraryErrors limits (full location) document with
  | error failure => exact iff_of_false nofun nofun
  | ok errors => simp [Except.mapError, Except.toOption]

theorem namesOf_read (holds : Contents → Bool) (read : String → Contents) (names : List String) :
    namesOf holds (names.map fun name => (name, read name)) =
      names.filter fun name => holds (read name) := by
  rw [namesOf, List.filter_map, List.map_map]
  exact List.map_id _

theorem documentsIn_eq (some : documentNames (tree.names folder) ≠ []) :
    documentsIn tree folder = .some ((documentNames (tree.names folder)).map fun name =>
      (name, tree.read (folder.child name))) := by
  obtain ⟨name, among⟩ := List.exists_mem_of_ne_nil _ some
  rw [documentsIn, if_pos (FileTree.exists?_of_mem_names (mem_documentNames.mp among).left)]

theorem report_of_documents (limits : Limits) (folder : Location) (some : documents ≠ []) :
    (report limits folder (.some documents)).LeadsTo
      (reportEach limits closing [] [] documents) := by
  cases documents with
  | nil => exact absurd rfl some
  | cons entry documents =>
      refine Report.afterLines_leadsTo (List.forall_mem_cons.mpr ⟨?_, by decide⟩) _
      rw [Text.isEncodable_append, Text.isEncodable_append, Text.isEncodable_toString]
      rfl

theorem report_leadsTo (some : documentNames (tree.names folder) ≠ [])
    (reportable : ∀ name ∈ documentNames (tree.names folder),
      Reportable limits (name, tree.read (folder.child name))) :
    (report limits folder (documentsIn tree folder)).LeadsTo
      (closing
        ((documentNames (tree.names folder)).filter fun name =>
          passes limits (tree.read (folder.child name)))
        ((documentNames (tree.names folder)).filter fun name =>
          !passes limits (tree.read (folder.child name)))) := by
  have each : ∀ entry ∈ (documentNames (tree.names folder)).map fun name =>
      (name, tree.read (folder.child name)), Reportable limits entry := by
    intro entry among
    obtain ⟨name, listed, rfl⟩ := List.mem_map.mp among
    exact reportable name listed
  have parted : (reportEach limits closing [] [] _).LeadsTo _ := reportEach_leadsTo each
  rw [List.nil_append, List.nil_append, namesOf_read, namesOf_read] at parted
  rw [documentsIn_eq some]
  exact (report_of_documents limits folder fun none => some (List.map_eq_nil_iff.mp none)).trans
    parted

theorem closing_eq (encodable : ∀ name ∈ failed, Text.isEncodable name = true)
    (passed : List String) : closing passed failed =
      ⟨Report.lines (closingLines passed failed), .ok (if failed.isEmpty then 0 else 1)⟩ := by
  have counts : Text.isEncodable ("Results: " ++ toString passed.length ++ " passed, " ++
      toString failed.length ++ " failed") = true := by
    simp only [Text.isEncodable_append, Text.isEncodable_toString, Bool.and_true]
    rfl
  have results : ∀ line ∈ closingLines passed failed, Text.isEncodable line = true := by
    rw [closingLines, List.forall_mem_append]
    constructor
    · exact List.forall_mem_cons.mpr ⟨by decide, List.forall_mem_cons.mpr
        ⟨by decide, List.forall_mem_singleton.mpr counts⟩⟩
    · split
      · decide
      · refine List.forall_mem_cons.mpr ⟨by decide, List.forall_mem_cons.mpr ⟨by decide, ?_⟩⟩
        intro line among
        obtain ⟨name, listed, rfl⟩ := List.mem_map.mp among
        rw [Text.isEncodable_append, encodable name listed]
        rfl
  rw [closing, Report.exit_eq results]

theorem closing_code_iff : (if failed.isEmpty then 0 else 1) = 0 ↔ failed = [] := by
  cases failed with
  | nil => exact iff_of_true rfl rfl
  | cons name names => exact iff_of_false Nat.one_ne_zero (List.cons_ne_nil _ _)

/-- Each document in a folder can be asked for, unless a slash stands in its name. -/
theorem asks_each (asks : Asks arguments folder) (listed : name ∈ documentNames names)
    (noSlash : '/' ∉ name.toList) :
    DocumentCheck.Asks (full (folder.child name)).spelled (full (folder.child name)) := by
  obtain ⟨given, -, rfl⟩ := asks
  have ending := (mem_documentNames.mp listed).right
  have speaks : Location.speaks name = true := by
    rw [Location.speaks, Bool.and_eq_true, bne_iff_ne, bne_iff_ne]
    constructor
    · rintro rfl
      exact absurd ending (by decide)
    · rintro rfl
      exact absurd ending (by decide)
  exact DocumentCheck.asks_spelled ((Location.ofText_wellFormed _).child ⟨speaks, noSlash⟩)

end WorkItems.CommandLine.FolderCheck
