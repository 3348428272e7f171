import PropCatalog.Proofs.Text.Lines
import PropCatalog.Proofs.Validator.Readable
import Mathlib.Algebra.Order.BigOperators.Group.List

/-! The texts that a type is made of, where they come from, and the line breaks that they bring into
the line that shows the type. -/

namespace PropCatalog

open Syntax
open Text (lineBreaks lineBreaks_append lineBreaks_intercalate)

/-! ## The texts of a type -/

namespace PropType

mutual

/-- The texts that a type holds: what is quoted in it, and the names of its fields. -/
def texts : PropType → List String
  | .simple _ => []
  | .enum members => members.map EnumMember.text
  | .union members => textsOfAll members
  | .arrayOf item | .objectOf item => item.texts
  | .shape fields => textsOfFields fields
  | .enumText text | .unionText text | .instanceOf text | .shapeText text | .custom text => [text]

def textsOfAll : List PropType → List String
  | [] => []
  | type :: rest => type.texts ++ textsOfAll rest

def textsOfFields : List ShapeField → List String
  | [] => []
  | .mk name type _ _ :: rest => name :: type.texts ++ textsOfFields rest

end

/-- The names of kinds are on one line. -/
theorem lineBreaks_name (kind : SimpleKind) : lineBreaks kind.name = 0 := by
  cases kind <;> decide

/-- What stands around a text in parentheses is on one line. -/
theorem lineBreaks_call {opening closing : String} (text : String)
    (single : lineBreaks opening = 0 ∧ lineBreaks closing = 0) :
    lineBreaks (opening ++ text ++ closing) = lineBreaks text := by
  simp [single.1, single.2]

mutual

/-- The line that shows a type has the line breaks of its texts. -/
theorem lineBreaks_display : ∀ type : PropType,
    lineBreaks type.display = (type.texts.map lineBreaks).sum
  | .simple kind => by simp [display, texts, lineBreaks_name]
  | .enum members => by
    rw [display, lineBreaks_call _ (by decide), lineBreaks_intercalate (by decide), texts]
  | .union members => by
    rw [display, lineBreaks_call _ (by decide), lineBreaks_intercalate (by decide), texts,
      lineBreaks_displayAll members]
  | .arrayOf item | .objectOf item => by
    rw [display, lineBreaks_call _ (by decide), texts, lineBreaks_display item]
  | .shape fields => by
    rw [display, lineBreaks_call _ (by decide), lineBreaks_intercalate (by decide), texts,
      lineBreaks_displayFields fields]
  | .enumText text | .unionText text | .instanceOf text | .shapeText text | .custom text => by
    rw [display, lineBreaks_call _ (by decide), texts, List.map_singleton, List.sum_singleton]

theorem lineBreaks_displayAll : ∀ types : List PropType,
    ((displayAll types).map lineBreaks).sum = ((textsOfAll types).map lineBreaks).sum
  | [] => rfl
  | type :: rest => by
    simp [displayAll, textsOfAll, lineBreaks_display type, lineBreaks_displayAll rest]

theorem lineBreaks_displayFields : ∀ fields : List ShapeField,
    ((displayFields fields).map lineBreaks).sum = ((textsOfFields fields).map lineBreaks).sum
  | [] => rfl
  | .mk name type required description :: rest => by
    have mark : lineBreaks (if required then "" else "?") = 0 := by cases required <;> decide
    have colon : lineBreaks ": " = 0 := by decide
    simp [displayFields, textsOfFields, lineBreaks_display type, lineBreaks_displayFields rest,
      mark, colon, Nat.add_assoc]

end

/-- A type is shown on one line when all of its texts are on one. -/
theorem lineBreaks_display_eq_zero_iff (type : PropType) :
    lineBreaks type.display = 0 ↔ ∀ text ∈ type.texts, lineBreaks text = 0 := by
  simp [lineBreaks_display, List.sum_eq_zero_iff]

/-- The texts of several types are those of each. -/
theorem textsOfAll_eq_flatMap (types : List PropType) :
    textsOfAll types = types.flatMap texts := by
  -- The types come one after the other.
  induction types with
  | nil => rfl
  | cons type rest ih => rw [textsOfAll, ih, List.flatMap_cons]

/-- The texts of several fields are their names and those of their types. -/
theorem textsOfFields_eq_flatMap (fields : List ShapeField) :
    textsOfFields fields = fields.flatMap fun field => field.name :: field.type.texts := by
  -- The fields come one after the other, each with its name in front.
  induction fields with
  | nil => rfl
  | cons field rest ih =>
    cases field
    rw [textsOfFields, ih, List.flatMap_cons]
    rfl

end PropType

/-! ## Where they come from -/

namespace Analysis

variable {analysis : Analysis} {type : PropType}

variable (analysis) in
/-- Whether all texts of a type are given in the source. -/
def AllGiven (type : PropType) : Prop :=
  ∀ text ∈ type.texts, analysis.Given text

/-- All texts of a type that validators can describe are given. -/
theorem Readable.allGiven (readable : analysis.Readable type) : analysis.AllGiven type := by
  -- The induction is on how the type is put together; only fields and texts add something.
  induction readable with
  | simple kind => simp [AllGiven, PropType.texts]
  | enum elements =>
    intro text member
    obtain ⟨element, _, rfl⟩ := by simpa [PropType.texts, enumMember] using member
    exact .quote element
  | union _ ih =>
    intro text member
    rw [PropType.texts, PropType.textsOfAll_eq_flatMap] at member
    obtain ⟨type, known, member⟩ := List.mem_flatMap.1 member
    exact ih type known text member
  | arrayOf _ ih | objectOf _ ih =>
    intro text member
    rw [PropType.texts] at member
    exact ih text member
  | shape described _ ih =>
    intro text member
    rw [PropType.texts, PropType.textsOfFields_eq_flatMap] at member
    obtain ⟨field, known, member⟩ := List.mem_flatMap.1 member
    rcases List.mem_cons.1 member with rfl | within
    · obtain ⟨key, _, spelled, _⟩ := described field known
      exact .key spelled
    · exact ih field known text within
  | enumText given | unionText given | instanceOf given | shapeText given | custom given =>
    intro text member
    rw [PropType.texts, List.mem_singleton] at member
    exact member ▸ given

end Analysis

end PropCatalog
