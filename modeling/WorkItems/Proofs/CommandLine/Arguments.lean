import WorkItems.CommandLine.DocumentCheck
import WorkItems.Proofs.Files.Location

namespace WorkItems.CommandLine

/-! Arguments that ask for something.

A flag takes one word and a value two.  Behind two hyphens a word is the operand whatever it looks
like, so that every check of a document can be asked for.
-/

section

variable {signature : Signature} {progress : Progress} {text value name : String}
  {texts : List String} {choices : Option (List String)}

theorem take_flag (notEnd : text ≠ "--")
    (isFlag : Word.ofText signature text = .option name .flag none) :
    take signature progress (text :: texts) = take signature (progress.addFlag name) texts := by
  rw [take, if_neg notEnd, isFlag]

theorem take_flag_if (notEnd : text ≠ "--")
    (isFlag : Word.ofText signature text = .option name .flag none) (given : Bool) :
    take signature progress ((if given then [text] else []) ++ texts) =
      take signature (if given then progress.addFlag name else progress) texts := by
  cases given with
  | true => exact take_flag notEnd isFlag
  | false => rfl

theorem take_value (notEnd : text ≠ "--")
    (hasValue : Word.ofText signature text = .option name (.value choices) none)
    (isValue : canBeValue signature value = true) (admitted : admits choices value = true) :
    take signature progress (text :: value :: texts) =
      take signature (progress.addValue name value) texts := by
  rw [take, if_neg notEnd, hasValue]
  simp only [isValue, admitted, Bool.and_self, if_true]

theorem take_operand (hasOperand : signature.hasOperand = true)
    (vacant : progress.given.operand = none) (nothingLeft : progress.leftOver = false) :
    take signature progress ["--", text] =
      .proceed { progress.given with operand := some text } := by
  have isVacant : progress.given.operand.isNone = true := Option.isNone_iff_eq_none.mpr vacant
  simp only [take, if_true, Progress.finishOperands, List.foldl_cons, List.foldl_nil,
    Progress.addOperand, hasOperand, isVacant, Bool.and_self, Progress.finish, nothingLeft,
    Option.isNone_some, Bool.and_false, Bool.or_self, Bool.false_eq_true, if_false]

end

namespace DocumentCheck

variable {options : Options} {arguments : List String} {limits : Limits} {tree : FileTree}

/-- Whether arguments ask for a check of a document. -/
def Asks (arguments : List String) (options : Options) : Prop :=
  ∃ given, signature.read arguments = .proceed given ∧ Options.ofGiven given = options

theorem run_of_asks (asks : Asks arguments options) (limits : Limits) (tree : FileTree) :
    run limits tree arguments = report limits options (tree.read options.location) := by
  obtain ⟨given, proceeds, rfl⟩ := asks
  rw [run, proceeds]
  rfl

theorem run_of_document {document : Value} (asks : Asks arguments options)
    (read : (tree.read options.location).document limits = .ok document) :
    run limits tree arguments = reportDocument limits options document := by
  rw [run_of_asks asks, report, read]

/-- The command comes to an end by itself only with a document that can be read. -/
theorem document_of_ending {code : Nat} (asks : Asks arguments options)
    (ends : (run limits tree arguments).ending = .ok code) :
    ∃ document, (tree.read options.location).document limits = .ok document := by
  rw [run_of_asks asks, report] at ends
  cases read : (tree.read options.location).document limits with
  | ok document => exact ⟨document, rfl⟩
  | error fault =>
      rw [read] at ends
      cases ends

theorem Content.mem_all (content : Content) : content ∈ all := by
  cases content with
  | project | taggedItem => decide
  | item kind => cases kind <;> decide

theorem Content.ofText?_text (content : Content) : ofText? content.text = some content := by
  have each : ∀ content ∈ all, ofText? content.text = some content := by decide +kernel
  exact each content content.mem_all

theorem Content.text_isValue (content : Content) :
    canBeValue signature content.text = true ∧
      admits (some (all.map Content.text)) content.text = true := by
  have each : ∀ content ∈ all, canBeValue signature content.text = true ∧
      admits (some (all.map Content.text)) content.text = true := by decide +kernel
  exact each content content.mem_all

/-- Arguments that spell a check out. -/
def Options.spelled (options : Options) : List String :=
  "--kind" :: options.content.text ::
    ((if options.crossChecked then ["--jsonschema"] else []) ++
      ((if options.strict then ["--strict"] else []) ++ ["--", options.location.text]))

/-- What is given once a check has been spelled out. -/
def Options.given (options : Options) : Given where
  operand := some options.location.text
  flags := (if options.strict then ["--strict"] else []) ++
    if options.crossChecked then ["--jsonschema"] else []
  values := [("--kind", options.content.text)]

theorem read_spelled (options : Options) :
    signature.read options.spelled = .proceed options.given := by
  obtain ⟨location, content, crossChecked, strict⟩ := options
  obtain ⟨isValue, admitted⟩ := content.text_isValue
  rw [Signature.read, Options.spelled, take_value (by decide) (by rfl) isValue admitted,
    take_flag_if (by decide) (by rfl), take_flag_if (by decide) (by rfl)]
  cases crossChecked <;> cases strict <;> exact take_operand rfl rfl rfl

theorem ofGiven_given (wellFormed : options.location.WellFormed) :
    Options.ofGiven options.given = options := by
  obtain ⟨location, content, crossChecked, strict⟩ := options
  have sameContent : (Content.ofText? content.text).getD .project = content := by
    rw [content.ofText?_text, Option.getD_some]
  rw [Options.ofGiven, Options.mk.injEq]
  refine ⟨Location.ofText_text wellFormed, sameContent, ?_, ?_⟩
  · cases crossChecked <;> cases strict <;> rfl
  · cases crossChecked <;> cases strict <;> rfl

/-- Every check of a document can be asked for. -/
theorem asks_spelled (wellFormed : options.location.WellFormed) :
    Asks options.spelled options :=
  ⟨options.given, read_spelled options, ofGiven_given wellFormed⟩

end DocumentCheck

end WorkItems.CommandLine
