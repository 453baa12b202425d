import Bindings.Compilation
import Bindings.Proofs.Codec.Description

/-!
This module contains that the text of a description holds this description, and that a description
can be written anew without changing what becomes of it.
-/

namespace Bindings

namespace Description

theorem run_toText (description : Description) :
    (decode Json.bracketBudget).run description.toText
      = if Json.openBrackets description.toText ≤ 127 then .ok description
        else .error .unreadable :=
  (lawful_decode (by decide)).run_pretty description

/--
Descriptions come back from their texts, unless these open more brackets at once than are read.
-/
theorem ofText_toText (description : Description) :
    ofText description.toText
      = if Json.openBrackets description.toText ≤ 127 then .ok description
        else .error (.description .unreadable) := by
  rw [ofText, run_toText]
  split <;> rfl

theorem ofText_toText_of_ofText {text : String} {description : Description}
    (h : ofText text = .ok description) : ofText description.toText = .ok description := by
  have hlawful : Json.Lawful Json.bracketBudget (decode Json.bracketBudget) toJson :=
    lawful_decode (by decide)
  unfold ofText at h
  cases hrun : (decode Json.bracketBudget).run text with
  | error fault =>
    rw [hrun] at h
    cases h
  | ok found =>
    rw [hrun] at h
    cases h
    have hle : Json.openBrackets description.toText ≤ 127 := hlawful.openBrackets_le hrun
    rw [ofText, run_toText, if_pos hle]
    rfl

end Description

/--
A description that was read from any text can be written and read again, and what is compiled from
its own text is what is compiled from the other one.
-/
theorem compileJson_toText {text : String} {description : Description}
    (h : Description.ofText text = .ok description) :
    Description.ofText description.toText = .ok description
      ∧ (Description.ofText description.toText).map Description.toText = .ok description.toText
      ∧ ∀ o, compileJson description.toText o = compileJson text o := by
  have hagain := Description.ofText_toText_of_ofText h
  refine ⟨hagain, ?_, ?_⟩
  . rw [hagain]
    rfl
  . intro o
    rw [compileJson, compileJson, hagain, h]

/--
Functions by their positions, keys in another order, left out or unknown, and a unit variant with a
payload.
-/
def looseForm : Json :=
  .object
    [("functions", .array [.array [.string "area"]]),
      ("types", .array
        [.object [("Enum", .object
          [("since", .array [.number 3, .null]),
            ("repr", .object [("Untagged", .null)]),
            ("id", .string "Shape")])]])]

def looseDescription : Description where
  types := [{ id := "Shape", body := .enum .untagged [] }]
  functions := [{ name := "area" }]

theorem compileJson_toText_loose :
    Description.ofText looseForm.pretty = .ok looseDescription
      ∧ Description.ofText looseDescription.toText = .ok looseDescription
      ∧ (Description.ofText looseDescription.toText).map Description.toText
        = .ok looseDescription.toText
      ∧ ∀ o, compileJson looseDescription.toText o = compileJson looseForm.pretty o := by
  have h : Description.ofText looseForm.pretty = .ok looseDescription := by
    rw [Description.ofText, Json.run_eq_of_read (Json.read_pretty looseForm)]
    rfl
  exact ⟨h, compileJson_toText h⟩

end Bindings
