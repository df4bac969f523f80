import WorkItems.Proofs.Item.Readable

namespace WorkItems

/-! Versions of project documents.

The engine and the form of the metadata take texts of three numbers for versions, whatever script
their digits are of.  Of the texts in ASCII they take exactly the versions that a schema promises,
and of the others more.
-/

open Pattern Schema

variable {text : String} {strict : Bool}

theorem read_text_iff {rule : TextRule} :
    (∃ held, (FieldType.text rule).read (.text text) = .ok held) ↔ rule.Accepts text := by
  have whole : (FieldType.text rule).read (.text text) = atField (rule.check text) .text := rfl
  rw [whole]
  constructor
  · rintro ⟨held, read⟩
    obtain ⟨found, checked, -⟩ := atField_eq_ok_iff.mp read
    exact (TextRule.check_eq_ok_iff.mp checked).1
  · intro accepts
    have checked := TextRule.check_eq_ok_iff.mpr ⟨accepts, rfl⟩
    exact ⟨_, atField_eq_ok_iff.mpr ⟨text, checked, rfl⟩⟩

/-- In a project document that is accepted, and in metadata that are read, the version may be any
text of three numbers, whatever script the digits are of.  In ASCII those are the versions that the
schema promises. -/
theorem version_accepted_iff {document metadata : Members} {record : Record}
    (given : document.lookup "metadata" = some (.object metadata))
    (accepted : validate strict projectData (.object document) = .ok [])
    (read : Forms.metadata.readMembers metadata = .ok record) (version : String) :
    (validate strict projectData
        (.object (document.put "metadata" (.object (metadata.put "version" (.text version))))) =
          .ok [] ↔ IsVersion Text.isDigit version) ∧
    ((∃ record, Forms.metadata.readMembers (metadata.put "version" (.text version)) = .ok record) ↔
      IsVersion Text.isRecentDigit version) ∧
    (IsVersion PatternToken.isDigit version ↔
      IsVersion Text.isDigit version ∧ ∀ c ∈ version.toList, c.toNat < 128) ∧
    (IsVersion PatternToken.isDigit version ↔
      IsVersion Text.isRecentDigit version ∧ ∀ c ∈ version.toList, c.toNat < 128) := by
  refine ⟨?_, ?_, isVersion_ascii_iff fun c ascii => (isDigit_eq ascii).left,
    isVersion_ascii_iff fun c ascii => (isDigit_eq ascii).right⟩
  · have whole := (validate_registered_iff .projectData strict).mp accepted
    have part : Blueprint.projectMetadata.Admits (.engine strict) (.object metadata) := by
      have member := ((Blueprint.admits_members_iff rfl).mp whole).2 _ (Members.mem_of_lookup given)
      exact (Blueprint.admitsMember_iff rfl).mp member
    rw [show projectData = SchemaName.projectData.schema from rfl, validate_registered_iff,
      Blueprint.admits_put_iff rfl rfl whole, Blueprint.admits_put_iff rfl rfl part]
    exact TextRule.admits_text_iff.trans versionRule_admits
  · rw [← versionRule_accepts, ← read_text_iff]
    exact Form.readMembers_put_iff Forms.metadata_proper Forms.versionField_mem rfl nofun read

def gardenMetadata (version : String) : Members :=
  [("projectName", .text "garden"), ("version", .text version), ("lastUpdated", .text "1714564800")]

theorem version_accepted_iff_prerelease :
    longProject.lookup "metadata" = some (.object (gardenMetadata "1.0.0")) ∧
      validate true projectData (.object longProject) = .ok [] ∧
      ∃ record, Forms.metadata.readMembers (gardenMetadata "1.0.0") = .ok record ∧
        (validate true projectData (.object (longProject.put "metadata"
          (.object ((gardenMetadata "1.0.0").put "version" (.text "1.0.0-rc1"))))) = .ok [] ↔
            IsVersion Text.isDigit "1.0.0-rc1") := by
  have given : longProject.lookup "metadata" = some (.object (gardenMetadata "1.0.0")) := rfl
  have accepted : validate true projectData (.object longProject) = .ok [] :=
    eq_ok_of_toOption (by decide +kernel)
  obtain ⟨record, read⟩ : ∃ record,
      Forms.metadata.readMembers (gardenMetadata "1.0.0") = .ok record :=
    exists_ok_of_toOption (by decide +kernel)
  exact ⟨given, accepted, record, read, (version_accepted_iff given accepted read "1.0.0-rc1").1⟩

/-- A version may have digits that are not of ASCII. -/
theorem arabic_version_accepted :
    validate true projectData (.object (longProject.put "metadata"
        (.object (gardenMetadata "\u0661.\u0662.\u0663")))) = .ok [] ∧
      (∃ record, Forms.metadata.readMembers (gardenMetadata "\u0661.\u0662.\u0663") =
        .ok record) ∧
      ¬ IsVersion PatternToken.isDigit "\u0661.\u0662.\u0663" := by
  refine ⟨eq_ok_of_toOption (by decide +kernel), exists_ok_of_toOption (by decide +kernel), ?_⟩
  intro version
  have ascii := version.ascii '\u0661' (by decide +kernel)
  revert ascii
  decide

end WorkItems
