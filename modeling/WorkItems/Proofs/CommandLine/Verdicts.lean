import WorkItems.Proofs.CommandLine.Folder

namespace WorkItems.CommandLine

/-! The verdicts of the commands are those of the library.

No setting of the environment enters: a command is as strict as its own arguments say.
-/

/-- The command that checks a document ends well exactly when the library admits the document.
Otherwise it counts and lists just the errors that the library finds, as long as they can be
printed, or breaks off where the library breaks down, which it does not when there is room for the
document.  Only where an item of any kind is asked for and the document is no object, it lists the
error for a missing tag.  The command that checks a folder of documents ends well exactly when each
of them passes on its own, and otherwise lists those that fail in the order of their names. -/
theorem verdicts_agree (limits : Limits) (tree : FileTree) :
    (∀ arguments options document, DocumentCheck.Asks arguments options →
      (tree.read options.location).document limits = .ok document →
      Text.isEncodable options.location.name = true →
      ((DocumentCheck.run limits tree arguments).ending = .ok 0 ↔
        DocumentCheck.Admitted limits options document) ∧
      (¬ DocumentCheck.Tagless options.content document →
        ∀ errors, DocumentCheck.libraryErrors limits options document = .ok errors →
          (∀ error ∈ errors, Text.isEncodable error = true) →
          (DocumentCheck.run limits tree arguments).Lists errors) ∧
      (DocumentCheck.Tagless options.content document →
        (DocumentCheck.run limits tree arguments).Lists
          ["Contract: Expected 'feature', 'bug', or 'task', got 'None'"]) ∧
      (∀ failure, DocumentCheck.libraryErrors limits options document = .error failure →
        (DocumentCheck.run limits tree arguments).ending = .error (.failure failure)) ∧
      (document.depth ≤ limits.comparing →
        (options.crossChecked = true → limits.crossChecks document = true) →
        ∃ errors, DocumentCheck.libraryErrors limits options document = .ok errors)) ∧
    ∀ arguments folder names (asking : String → List String),
      FolderCheck.Asks arguments folder →
      names = FolderCheck.documentNames (tree.names folder) → names ≠ [] →
      (∀ name ∈ names, Text.isEncodable name = true ∧
        DocumentCheck.Asks (asking name) (FolderCheck.full (folder.child name)) ∧
        ∃ document errors, (tree.read (folder.child name)).document limits = .ok document ∧
          DocumentCheck.libraryErrors limits (FolderCheck.full (folder.child name)) document =
            .ok errors ∧ ∀ error ∈ errors, Text.isEncodable error = true) →
      ((FolderCheck.run limits tree arguments).ending = .ok 0 ↔
        ∀ name ∈ names, (DocumentCheck.run limits tree (asking name)).ending = .ok 0) ∧
      ∃ output passed failed,
        FolderCheck.run limits tree arguments =
          ⟨output ++ Report.lines (FolderCheck.closingLines passed failed),
            .ok (if failed.isEmpty then 0 else 1)⟩ ∧
        passed.length + failed.length = names.length ∧
        failed.Pairwise (fun left right => Text.precedes left right = true) ∧
        ∀ name, name ∈ failed ↔
          name ∈ names ∧ (DocumentCheck.run limits tree (asking name)).ending ≠ .ok 0 := by
  constructor
  · intro arguments options document asks read named
    rw [DocumentCheck.run_of_document asks read]
    refine ⟨DocumentCheck.reportDocument_fine_iff named, fun tagged errors found encodable =>
      (DocumentCheck.reportDocument_tells named tagged).lists found encodable,
      DocumentCheck.reportDocument_tagless, fun failure broken => ?_,
      DocumentCheck.libraryErrors_of_room read⟩
    refine (DocumentCheck.reportDocument_tells named fun tagless => ?_).failed failure broken
    cases (DocumentCheck.libraryErrors_tagless tagless).symm.trans broken
  · rintro arguments folder names asking asks rfl some each
    have reportable : ∀ name ∈ FolderCheck.documentNames (tree.names folder),
        FolderCheck.Reportable limits (name, tree.read (folder.child name)) := by
      intro name listed
      obtain ⟨named, -, document, errors, read, found, encodable⟩ := each name listed
      refine ⟨named, errors, ?_, encodable⟩
      rw [FolderCheck.errorsOf_of_document read (folder.child name), found]
      rfl
    have verdict : ∀ name ∈ FolderCheck.documentNames (tree.names folder),
        ((DocumentCheck.run limits tree (asking name)).ending = .ok 0 ↔
          FolderCheck.passes limits (tree.read (folder.child name)) = true) := by
      intro name listed
      obtain ⟨named, asksToo, document, -, read, -⟩ := each name listed
      exact FolderCheck.fine_iff_passes asksToo
        ((congrArg Text.isEncodable (folder.name_child name)).trans named) read
    have sorted := FolderCheck.documentNames_sorted (tree.names_nodup folder)
    obtain ⟨output, ran⟩ := FolderCheck.report_leadsTo some reportable
    rw [FolderCheck.closing_eq fun name among =>
      (each name (List.mem_filter.mp among).left).left] at ran
    rw [FolderCheck.run_of_asks asks, ran]
    refine ⟨?_, output, _, _, rfl, (List.length_eq_length_filter_add _).symm, sorted.filter _,
      fun name => ?_⟩
    · rw [Except.ok.injEq, FolderCheck.closing_code_iff, List.filter_eq_nil_iff]
      refine forall_congr' fun name => forall_congr' fun listed => ?_
      rw [verdict name listed, Bool.not_eq_true', Bool.not_eq_false]
    · rw [List.mem_filter]
      refine and_congr_right fun listed => ?_
      rw [ne_eq, verdict name listed, Bool.not_eq_true', Bool.not_eq_true]

/-- A folder with an empty project and a list. -/
def shelf : FileTree where
  files :=
    [(["set", "full.json"],
      ("\x7b\"features\":[],\"bugs\":[],\"tasks\":[],\"metadata\":\x7b\"projectName\":\"p\"," ++
        "\"version\":\"1.0.0\",\"lastUpdated\":\"2024-05-01\"\x7d\x7d").toUTF8),
     (["set", "list.json"], "[]".toUTF8)]
  folders := []

theorem shelf_list :
    (shelf.read (.ofText "set/list.json")).document .usual = .ok (.array []) := rfl

/-- A check of a document on the shelf, in every way there is. -/
def shelfCheck (name : String) : DocumentCheck.Options :=
  FolderCheck.full ((Location.ofText "set").child name)

theorem shelf_names :
    FolderCheck.documentNames (shelf.names (.ofText "set")) = ["full.json", "list.json"] := by
  have names : shelf.names (.ofText "set") = ["full.json", "list.json"] := by decide +kernel
  rw [names]
  exact List.mergeSort_of_pairwise (by decide)

theorem shelf_asked (asks : FolderCheck.Asks ["--examples-dir", "set"] (.ofText "set")) :
    ∀ name ∈ ["full.json", "list.json"],
      DocumentCheck.Asks (shelfCheck name).spelled (shelfCheck name) := by
  have noSlash : ∀ name ∈ ["full.json", "list.json"], '/' ∉ name.toList := by decide
  intro name listed
  exact FolderCheck.asks_each asks (shelf_names.symm ▸ listed) (noSlash name listed)

theorem shelf_ends : ∀ name ∈ ["full.json", "list.json"],
    (DocumentCheck.run .usual shelf (shelfCheck name).spelled).ending.toOption =
      some (if name = "full.json" then 0 else 2) := by
  decide +kernel

/-- Nothing breaks down on the shelf, and all that is found there can be printed. -/
theorem shelf_found : ∀ name ∈ ["full.json", "list.json"], ∃ document errors,
    (shelf.read ((Location.ofText "set").child name)).document .usual = .ok document ∧
      DocumentCheck.libraryErrors .usual (shelfCheck name) document = .ok errors ∧
      ∀ error ∈ errors, Text.isEncodable error = true := by
  intro name listed
  have asked := shelf_asked ⟨_, rfl, rfl⟩ name listed
  have ends := eq_ok_of_toOption (shelf_ends name listed)
  rcases List.mem_pair.mp listed with rfl | rfl
  · obtain ⟨document, read⟩ := DocumentCheck.document_of_ending asked ends
    rw [DocumentCheck.run_of_document asked read] at ends
    have admitted := (DocumentCheck.reportDocument_fine_iff (by decide +kernel)).mp ends
    exact ⟨document, [], read, DocumentCheck.libraryErrors_eq_nil_iff.mpr admitted, nofun⟩
  · have located : (Location.ofText "set").child "list.json" = .ofText "set/list.json" := by
      decide +kernel
    have found : (DocumentCheck.libraryErrors .usual (shelfCheck "list.json")
        (.array [])).toOption =
          some ["Contract: Expected type object, got array",
            "Schema: <root>: [] is not of type 'object'"] := by decide +kernel
    rw [located]
    exact ⟨_, _, shelf_list, eq_ok_of_toOption found, by decide⟩

theorem shelf_verdicts :
    (DocumentCheck.run .usual shelf ["--kind", "bug", "set/list.json"]).Lists
      ["Contract: Expected type object, got array"] ∧
    (DocumentCheck.run .usual shelf ["--kind", "item", "set/list.json"]).Lists
      ["Contract: Expected 'feature', 'bug', or 'task', got 'None'"] ∧
    ∃ output passed failed,
      FolderCheck.run .usual shelf ["--examples-dir", "set"] =
        ⟨output ++ Report.lines (FolderCheck.closingLines passed failed),
          .ok (if failed.isEmpty then 0 else 1)⟩ ∧
      passed.length + failed.length = 2 ∧ "full.json" ∉ failed ∧ "list.json" ∈ failed := by
  obtain ⟨single, folders⟩ := verdicts_agree .usual shelf
  have named : Text.isEncodable (Location.ofText "set/list.json").name = true := by decide +kernel
  refine ⟨?_, ?_, ?_⟩
  · have asks : DocumentCheck.Asks ["--kind", "bug", "set/list.json"]
        ⟨.ofText "set/list.json", .item .bug, false, false⟩ := ⟨_, rfl, rfl⟩
    have tagged : ¬ DocumentCheck.Tagless (.item .bug) (.array []) := fun tagless =>
      absurd tagless.left (by decide)
    have found : (DocumentCheck.libraryErrors .usual
        ⟨.ofText "set/list.json", .item .bug, false, false⟩ (.array [])).toOption =
          some ["Contract: Expected type object, got array"] := by decide +kernel
    obtain ⟨-, lists, -⟩ := single _ _ _ asks shelf_list named
    exact lists tagged _ (eq_ok_of_toOption found) (by decide)
  · have asks : DocumentCheck.Asks ["--kind", "item", "set/list.json"]
        ⟨.ofText "set/list.json", .taggedItem, false, false⟩ := ⟨_, rfl, rfl⟩
    obtain ⟨-, -, lists, -⟩ := single _ _ _ asks shelf_list named
    exact lists ⟨rfl, nofun⟩
  · have asks : FolderCheck.Asks ["--examples-dir", "set"] (.ofText "set") := ⟨_, rfl, rfl⟩
    have printed : ∀ name ∈ ["full.json", "list.json"], Text.isEncodable name = true := by decide
    obtain ⟨-, output, passed, failed, ran, counts, -, isFailed⟩ :=
      folders _ _ _ _ asks shelf_names.symm (List.cons_ne_nil _ _) fun name listed =>
        ⟨printed name listed, shelf_asked asks name listed, shelf_found name listed⟩
    have full := eq_ok_of_toOption (shelf_ends "full.json" List.mem_cons_self)
    have list := eq_ok_of_toOption
      (shelf_ends "list.json" (List.mem_cons_of_mem _ List.mem_cons_self))
    refine ⟨output, passed, failed, ran, counts, ?_, ?_⟩
    · exact fun among => ((isFailed _).mp among).right full
    · refine (isFailed _).mpr ⟨List.mem_cons_of_mem _ List.mem_cons_self, ?_⟩
      rw [list]
      exact nofun

/-- A folder with a single document. -/
def lone (text : String) : FileTree where
  files := [(["document.json"], text.toUTF8)]
  folders := []

theorem lone_document (limits : Limits) (text : String) :
    ((lone text).read (.ofText "document.json")).document limits =
      (Json.read limits text).mapError .unread := by
  have read : (lone text).read (.ofText "document.json") = .ok text.toUTF8 := rfl
  have back : String.fromUTF8? text.toUTF8 = some text := dif_pos text.isValidUTF8
  rw [read, Contents.document, ok_bind, back]

/-- A lone document that is not read is not reported on either. -/
theorem lone_unread {text : String} {fault : Json.ReadFault}
    (unread : Json.read .usual text = .error fault) :
    (DocumentCheck.run .usual (lone text) ["document.json"]).ending =
      .error (.file (.unread fault)) := by
  have asks : DocumentCheck.Asks ["document.json"]
      ⟨.ofText "document.json", .project, false, false⟩ := ⟨_, rfl, rfl⟩
  rw [DocumentCheck.run_of_asks asks, DocumentCheck.report, lone_document, unread]
  rfl

/-- The list is taken for an item without a tag, while the library misses an object.  A number that
is too long and arrays that go too deep are not read, the schema engine breaks down in a task
that goes too deep, and a lone surrogate keeps the last of five errors from being printed. -/
theorem documents_told_differently :
    (DocumentCheck.Asks ["--kind", "item", "set/list.json"]
        ⟨.ofText "set/list.json", .taggedItem, false, false⟩ ∧
      (shelf.read (.ofText "set/list.json")).document .usual = .ok (.array []) ∧
      DocumentCheck.libraryErrors .usual ⟨.ofText "set/list.json", .taggedItem, false, false⟩
        (.array []) = .ok ["Contract: Expected object"] ∧
      (DocumentCheck.run .usual shelf ["--kind", "item", "set/list.json"]).output =
        "INVALID: 1 error(s)\n- Contract: Expected 'feature', 'bug', or 'task', got 'None'\n" ∧
      ¬ (DocumentCheck.run .usual shelf ["--kind", "item", "set/list.json"]).Lists
        ["Contract: Expected object"]) ∧
    (DocumentCheck.run .usual (lone (String.ofList (List.replicate 5000 '9')))
      ["document.json"]).ending = .error (.file (.unread (.broken .tooManyDigits))) ∧
    (DocumentCheck.run .usual
      (lone (String.ofList (List.replicate 1000 '[' ++ List.replicate 1000 ']')))
      ["document.json"]).ending = .error (.file (.unread (.broken .noRoom))) ∧
    (DocumentCheck.reportDocument .usual ⟨.ofText "task.json", .item .task, false, false⟩
      Contract.deepTask).ending = .error (.failure (.ofBreakdown .usual .noRoom)) ∧
    (DocumentCheck.run .usual (lone "\x7b\"\\ud800\":1\x7d") ["--strict", "document.json"]).output =
      "INVALID: 5 error(s)\n- Contract: Missing required field: features\n" ++
        "- Contract: Missing required field: bugs\n- Contract: Missing required field: tasks\n" ++
        "- Contract: Missing required field: metadata\n" ∧
    (DocumentCheck.run .usual (lone "\x7b\"\\ud800\":1\x7d")
      ["--strict", "document.json"]).ending.toOption = none := by
  have found : DocumentCheck.libraryErrors .usual
      ⟨.ofText "set/list.json", .taggedItem, false, false⟩ (.array []) =
        .ok ["Contract: Expected object"] :=
    DocumentCheck.libraryErrors_tagless ⟨rfl, fun _ impossible => by cases impossible⟩
  have printed : (DocumentCheck.run .usual shelf ["--kind", "item", "set/list.json"]).output =
      "INVALID: 1 error(s)\n- Contract: Expected 'feature', 'bug', or 'task', got 'None'\n" := by
    decide +kernel
  have notListed : ¬ (DocumentCheck.run .usual shelf ["--kind", "item", "set/list.json"]).Lists
      ["Contract: Expected object"] := by
    intro lists
    have output := congrArg Report.output (lists.counted (List.cons_ne_nil _ _))
    rw [printed] at output
    exact absurd output (by decide +kernel)
  refine ⟨⟨⟨_, rfl, rfl⟩, shelf_list, found, printed, notListed⟩,
    lone_unread (Json.read_nines (by decide)), lone_unread (Json.read_brackets (by decide)), ?_,
    by decide +kernel, by decide +kernel⟩
  have deep : Limits.usual.comparing <
      Schema.reach (Contract.schemaOf (.item .task)) Contract.deepTask := by decide +kernel
  have broken : findings .usual false false (.ofItemType .task) Contract.deepTask =
      .error (.ofBreakdown .usual .noRoom) := by
    rw [findings]
    exact congrArg (· >>= _) (if_pos deep)
  have named : DocumentCheck.schemaName? (.item .task) Contract.deepTask =
      some (.ofItemType .task) := rfl
  rw [DocumentCheck.reportDocument, named]
  dsimp only
  rw [broken]
  rfl

end WorkItems.CommandLine
