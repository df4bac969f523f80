import WorkItems.CommandLine.Report
import WorkItems.Proofs.Text.Surrogate

namespace WorkItems.CommandLine.Report

/-! What is printed before the rest of a report.

Lines without lone surrogates are printed whole, and the report goes on behind them.  With such a
surrogate it ends in front of the line, so that it never ends in any other way than it would have or
as what cannot be printed.
-/

variable {text : String} {texts : List String} {code other : Nat}

/-- The output of lines that can be printed. -/
def lines (texts : List String) : String :=
  String.join (texts.map (· ++ "\n"))

theorem lines_cons (text : String) (texts : List String) :
    lines (text :: texts) = text ++ "\n" ++ lines texts := by
  rw [lines, List.map_cons, String.join_cons, lines]

theorem after_eq (encodable : Text.isEncodable text = true) (report : Report) :
    report.after text = ⟨text ++ report.output, report.ending⟩ :=
  if_pos encodable

theorem afterLines_eq (encodable : ∀ text ∈ texts, Text.isEncodable text = true)
    (report : Report) :
    report.afterLines texts = ⟨lines texts ++ report.output, report.ending⟩ := by
  induction texts with
  | nil => exact congrArg (Report.mk · report.ending) String.empty_append.symm
  | cons text texts ih =>
      obtain ⟨first, others⟩ := List.forall_mem_cons.mp encodable
      have line : Text.isEncodable (text ++ "\n") = true := by
        rw [Text.isEncodable_append, first]
        rfl
      calc report.afterLines (text :: texts)
          = (report.afterLines texts).after (text ++ "\n") := rfl
        _ = ⟨text ++ "\n" ++ (lines texts ++ report.output), report.ending⟩ := by
            rw [ih others, after_eq line]
        _ = ⟨lines (text :: texts) ++ report.output, report.ending⟩ := by
            rw [lines_cons, ← String.append_assoc]

theorem exit_eq (encodable : ∀ text ∈ texts, Text.isEncodable text = true) :
    exit texts code = ⟨lines texts, .ok code⟩ := by
  rw [exit, afterLines_eq encodable]
  exact congrArg (Report.mk · (.ok code)) String.append_empty

theorem ending_after (text : String) (report : Report) :
    (report.after text).ending = report.ending ∨
      (report.after text).ending = .error .unencodable := by
  rw [after]
  split
  · exact .inl rfl
  · exact .inr rfl

theorem ending_afterLines (texts : List String) (report : Report) :
    (report.afterLines texts).ending = report.ending ∨
      (report.afterLines texts).ending = .error .unencodable := by
  induction texts with
  | nil => exact .inl rfl
  | cons text texts ih =>
      rcases ending_after (text ++ "\n") (report.afterLines texts) with same | broken
      · exact ih.imp same.trans same.trans
      · exact .inr broken

/-- A report that prints lines ends with its own exit code if with any. -/
theorem eq_of_ending_exit (ends : (exit texts code).ending = .ok other) : other = code := by
  rcases ending_afterLines texts (silent code) with same | broken
  · exact (Except.ok.inj (same.symm.trans ends)).symm
  · cases broken.symm.trans ends

/-- Whether something is printed and then all goes on as in another report. -/
def LeadsTo (report rest : Report) : Prop :=
  ∃ output, report = ⟨output ++ rest.output, rest.ending⟩

theorem LeadsTo.refl (report : Report) : report.LeadsTo report :=
  ⟨"", congrArg (Report.mk · report.ending) String.empty_append.symm⟩

theorem LeadsTo.trans {first second third : Report} (begins : first.LeadsTo second)
    (goesOn : second.LeadsTo third) : first.LeadsTo third := by
  obtain ⟨before, rfl⟩ := begins
  obtain ⟨output, rfl⟩ := goesOn
  exact ⟨before ++ output, congrArg (Report.mk · third.ending) String.append_assoc.symm⟩

theorem after_leadsTo (encodable : Text.isEncodable text = true) (report : Report) :
    (report.after text).LeadsTo report :=
  ⟨text, after_eq encodable report⟩

theorem afterLines_leadsTo (encodable : ∀ text ∈ texts, Text.isEncodable text = true)
    (report : Report) : (report.afterLines texts).LeadsTo report :=
  ⟨lines texts, afterLines_eq encodable report⟩

end WorkItems.CommandLine.Report
