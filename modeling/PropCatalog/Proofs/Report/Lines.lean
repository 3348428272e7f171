import PropCatalog.Proofs.Record.Provenance
import PropCatalog.Report.Text

/-! How many lines the report of a catalog has. -/

namespace PropCatalog

open Syntax
open Text (lineBreaks lineBreaks_append lineBreaks_join)

/-! ## Texts of lines -/

/-- Each line has its own line breaks and its end. -/
theorem lineBreaks_unlines (lines : List String) :
    lineBreaks (unlines lines) = lines.length + (lines.map lineBreaks).sum := by
  -- The lines are joined one by one, each with its end.
  have feed : lineBreaks "\n" = 1 := by decide
  rw [unlines, lineBreaks_join]
  induction lines with
  | nil => rfl
  | cons line rest ih =>
    simp only [List.map_cons, List.sum_cons, ih, lineBreaks_append, feed, List.length_cons]
    omega

theorem lineBreaks_unlines_append (lines others : List String) :
    lineBreaks (unlines (lines ++ others)) =
      lineBreaks (unlines lines) + lineBreaks (unlines others) := by
  simp [unlines]

theorem lineBreaks_unlines_cons (line : String) (rest : List String) :
    lineBreaks (unlines (line :: rest)) = lineBreaks line + 1 + lineBreaks (unlines rest) := by
  -- The first line has its own line breaks and one at its end.
  simp only [lineBreaks_unlines, List.length_cons, List.map_cons, List.sum_cons]
  omega

/-- The number of lines of several descriptions. -/
def descriptionTotal (descriptions : List String) : Nat :=
  (descriptions.map fun text => (Text.splitLines text.toList).length).sum

/-- The lines of a description stay what they are behind an indentation. -/
theorem lineBreaks_descriptionLines {indent : String} (single : lineBreaks indent = 0)
    (description : Option String) :
    lineBreaks (unlines (descriptionLines indent description)) =
      descriptionTotal description.toList := by
  -- The text is split at its line breaks, so that no line of it has one.
  cases description with
  | none => rfl
  | some text =>
    have each : ∀ line ∈ indentedLines indent text, lineBreaks line = 0 := by
      refine List.forall_mem_map.2 fun line member => ?_
      split
      · rfl
      · have inside := Text.notMem_of_mem_splitLines _ line member
        rw [lineBreaks_append, single, lineBreaks, String.toList_ofList,
          List.count_eq_zero.2 inside]
    have none : ((indentedLines indent text).map lineBreaks).sum = 0 := by
      simpa [List.sum_eq_zero_iff] using each
    rw [descriptionLines, lineBreaks_unlines, none]
    simp [indentedLines, descriptionTotal]

theorem descriptionTotal_append (descriptions others : List String) :
    descriptionTotal (descriptions ++ others) =
      descriptionTotal descriptions + descriptionTotal others := by
  simp [descriptionTotal]

/-- The number of line breaks in the lines that show several types. -/
def displayBreaks (types : List PropType) : Nat :=
  (types.map fun type => lineBreaks type.display).sum

theorem displayBreaks_append (types others : List PropType) :
    displayBreaks (types ++ others) = displayBreaks types + displayBreaks others := by
  simp [displayBreaks]

/-! ## Props, components and files -/

/-- A prop has a line, that may be broken by its type, and its description. -/
theorem PropEntry.lineBreaks_lines {name : String} (single : lineBreaks name = 0)
    (entry : PropEntry) :
    lineBreaks (unlines (entry.lines false name)) =
      1 + displayBreaks entry.type.toList + descriptionTotal entry.description.toList := by
  -- Only the type can add line breaks to the line of the prop.
  have type : lineBreaks ((entry.type.map PropType.display).getD "unknown") =
      displayBreaks entry.type.toList := by
    cases entry.type with
    | none => decide
    | some type => simp [displayBreaks]
  have mark : lineBreaks (if entry.required then " " ++ "(required)" else "") = 0 := by
    cases entry.required <;> decide
  have around : lineBreaks "    " = 0 ∧ lineBreaks ": " = 0 := by decide
  have line : lineBreaks (entry.line false name) = displayBreaks entry.type.toList := by
    simp only [PropEntry.line, Style.paint, Bool.false_eq_true, if_false, lineBreaks_append, single,
      type, around, mark]
    omega
  rw [PropEntry.lines, lineBreaks_unlines_cons, line, lineBreaks_descriptionLines (by decide)]
  omega

/-- The types of some props. -/
def typesOf (props : List (String × PropEntry)) : List PropType :=
  props.flatMap fun prop => prop.2.type.toList

/-- The descriptions of some props. -/
def descriptionsOf (props : List (String × PropEntry)) : List String :=
  props.flatMap fun prop => prop.2.description.toList

theorem lineBreaks_propLines {props : List (String × PropEntry)}
    (single : ∀ prop ∈ props, lineBreaks prop.1 = 0) :
    lineBreaks (unlines (props.flatMap fun (name, entry) => entry.lines false name)) =
      props.length + descriptionTotal (descriptionsOf props) + displayBreaks (typesOf props) := by
  -- The props are printed one by one.
  induction props with
  | nil => rfl
  | cons prop rest ih =>
    obtain ⟨here, below⟩ := List.forall_mem_cons.1 single
    simp only [List.flatMap_cons, lineBreaks_unlines_append, prop.2.lineBreaks_lines here, ih below,
      descriptionsOf, typesOf, descriptionTotal_append, displayBreaks_append, List.length_cons]
    omega

namespace Record

/-- A component has a line, its description and its props. -/
theorem lineBreaks_lines {record : Record} (title : lineBreaks record.title = 0)
    (names : ∀ prop ∈ record.props.toList, lineBreaks prop.1 = 0) :
    lineBreaks (unlines (record.lines false)) =
      1 + descriptionTotal record.description.toList + record.props.toList.length +
        descriptionTotal (descriptionsOf record.props.toList) +
        displayBreaks (typesOf record.props.toList) := by
  -- The title, the description and the props are printed one after the other.
  have around : lineBreaks "  " = 0 := by decide
  simp only [Record.lines, Style.paint, Bool.false_eq_true, if_false, lineBreaks_unlines_cons,
    lineBreaks_unlines_append, lineBreaks_append, title, around, lineBreaks_propLines names]
  rw [lineBreaks_descriptionLines (by decide)]
  omega

end Record

/-- The props of some components. -/
def propsOf (records : List Record) : List (String × PropEntry) :=
  records.flatMap fun record => record.props.toList

theorem lineBreaks_recordLines {records : List Record}
    (titles : ∀ record ∈ records, lineBreaks record.title = 0)
    (names : ∀ prop ∈ propsOf records, lineBreaks prop.1 = 0) :
    lineBreaks (unlines (records.flatMap (Record.lines false))) =
      records.length + descriptionTotal (records.flatMap (·.description.toList)) +
        (propsOf records).length + descriptionTotal (descriptionsOf (propsOf records)) +
        displayBreaks (typesOf (propsOf records)) := by
  -- The components are printed one by one.
  induction records with
  | nil => rfl
  | cons record rest ih =>
    obtain ⟨here, below⟩ := List.forall_mem_cons.1 titles
    simp only [propsOf, List.flatMap_cons, List.forall_mem_append] at names ⊢
    have later := ih below names.2
    simp only [propsOf] at later
    simp only [lineBreaks_unlines_append, Record.lineBreaks_lines here names.1, later,
      descriptionsOf, typesOf, List.flatMap_append, descriptionTotal_append, displayBreaks_append,
      List.length_cons, List.length_append]
    omega

/-- The components of some files. -/
def recordsOf (files : List FileRecords) : List Record :=
  files.flatMap FileRecords.records

/-- A file has a line, its components and an empty line. -/
theorem lineBreaks_fileLines {files : List FileRecords}
    (paths : ∀ file ∈ files, lineBreaks file.path = 0) :
    lineBreaks (unlines (files.flatMap (FileRecords.lines false))) =
      2 * files.length +
        lineBreaks (unlines ((recordsOf files).flatMap (Record.lines false))) := by
  -- The files are printed one by one.
  induction files with
  | nil => rfl
  | cons file rest ih =>
    obtain ⟨here, below⟩ := List.forall_mem_cons.1 paths
    have empty : lineBreaks (unlines [""]) = 1 := by decide
    simp only [recordsOf, List.flatMap_cons, List.flatMap_append, FileRecords.lines, Style.paint,
      Bool.false_eq_true, if_false, lineBreaks_unlines_append, lineBreaks_unlines_cons, here,
      ih below, empty, List.length_cons]
    omega

/-! ## Reports -/

/-- A count is on one line with its word. -/
theorem lineBreaks_counted {one several : String} (count : Nat)
    (single : lineBreaks one = 0 ∧ lineBreaks several = 0) :
    lineBreaks (counted count one several) = 0 := by
  -- The digits of a number are no line feeds.
  have digits : lineBreaks (toString count) = 0 := by
    refine List.count_eq_zero.2 fun member => ?_
    have digit := Nat.isDigit_of_mem_toDigits (by decide) (Nat.le_refl 10) (by simpa using member)
    simp at digit
  have space : lineBreaks " " = 0 := by decide
  unfold counted
  split <;> simp only [lineBreaks_append, digits, space, single]

namespace Catalog

def records (catalog : Catalog) : List Record :=
  recordsOf catalog.files

def props (catalog : Catalog) : List (String × PropEntry) :=
  propsOf catalog.records

/-- The types of all props. -/
def types (catalog : Catalog) : List PropType :=
  typesOf catalog.props

/-- The descriptions of all components and props. -/
def descriptions (catalog : Catalog) : List String :=
  catalog.records.flatMap (·.description.toList) ++ descriptionsOf catalog.props

/-- One line for each file, component and prop, those of the descriptions, an empty line for each
file and the summary. -/
def lineTotal (catalog : Catalog) : Nat :=
  catalog.files.length + catalog.records.length + catalog.props.length +
    descriptionTotal catalog.descriptions + catalog.files.length + 1

/-- Whether each path, title and name is on one line. -/
structure SingleLine (catalog : Catalog) : Prop where
  paths : ∀ file ∈ catalog.files, lineBreaks file.path = 0
  titles : ∀ record ∈ catalog.records, lineBreaks record.title = 0
  names : ∀ prop ∈ catalog.props, lineBreaks prop.1 = 0

/-- The summary is on one line. -/
theorem lineBreaks_summary (catalog : Catalog) (scanned : Nat) :
    lineBreaks (catalog.summary scanned) = 0 := by
  -- Only numbers and words without line breaks are put together.
  have around : lineBreaks "No components found in " = 0 ∧ lineBreaks "Documented " = 0 ∧
      lineBreaks " in " = 0 := by decide
  unfold summary
  split
  · rw [lineBreaks_append, around.1, lineBreaks_counted _ (by decide)]
  · rw [lineBreaks_append, lineBreaks_append, lineBreaks_append, around.2.1, around.2.2,
      lineBreaks_counted _ (by decide), lineBreaks_counted _ (by decide)]

/-- A report has the lines that it should have and those that the types of props add. -/
theorem lineBreaks_text {catalog : Catalog} (single : catalog.SingleLine) (scanned : Nat) :
    lineBreaks (catalog.text false scanned) =
      catalog.lineTotal + displayBreaks catalog.types := by
  -- All lines are counted but for the last one, and each of them adds its types.
  have last : lineBreaks (unlines [successLine false (catalog.summary scanned)]) = 1 := by
    have mark : lineBreaks "✓ " = 0 := by decide
    simp [lineBreaks_unlines, successLine, Style.paint, mark, lineBreaks_summary]
  have files := lineBreaks_fileLines single.paths
  have records := lineBreaks_recordLines single.titles single.names
  rw [text, lines, lineBreaks_unlines_append, last, files]
  rw [show recordsOf catalog.files = catalog.records from rfl, records]
  simp only [lineTotal, descriptions, types, props, descriptionTotal_append]
  omega

/-- A report without colour has the lines that it should have exactly when each type of a prop is
shown on one line; else the types add their own line breaks. In what a source is documented as, a
type is shown on one line when all of its texts are on one. Each of these is the name that a key
spells, or a piece of the source with as many lines as it has there. -/
theorem text_lines_iff {catalog : Catalog} (single : catalog.SingleLine) (scanned : Nat) :
    (lineBreaks (catalog.text false scanned) = catalog.lineTotal ↔
      ∀ type ∈ catalog.types, lineBreaks type.display = 0) ∧
    lineBreaks (catalog.text false scanned) =
      catalog.lineTotal + displayBreaks catalog.types ∧
    ∀ (file : SourceFile) (modules : List String),
      ∀ record ∈ (Analysis.ofFile file modules).records Facet.all,
        ∀ type ∈ typesOf record.props.toList,
          (lineBreaks type.display = 0 ↔ ∀ text ∈ type.texts, lineBreaks text = 0) ∧
          ∀ text ∈ type.texts,
            (∃ key, (Analysis.ofFile file modules).scope.keyName? key = some text) ∨
            ∃ e : Expr, (text = file.quote e.span ∨ text = "..." ++ file.quote e.span) ∧
              lineBreaks text =
                (Text.splitLines (file.excerpt e.span).toList).length - 1 := by
  -- What the report has too much are the line breaks in types, and these are those in their texts.
  have total := lineBreaks_text single scanned
  refine ⟨?_, total, fun file modules record documented type member =>
    ⟨type.lineBreaks_display_eq_zero_iff, fun text inside => ?_⟩⟩
  · rw [total, Nat.add_eq_left, displayBreaks, List.sum_eq_zero_iff, List.forall_mem_map]
  · obtain ⟨component, -, rfl⟩ := List.mem_map.1 documented
    obtain ⟨prop, known, typed⟩ := List.mem_flatMap.1 member
    have given := Analysis.allGiven_of_mem_record known (Option.mem_toList.1 typed) text inside
    have dots : lineBreaks "..." = 0 := by decide
    cases given with
    | key named => exact .inl ⟨_, named⟩
    | quote e => exact .inr ⟨e, .inl rfl, Text.lineBreaks_dedent _⟩
    | spread e =>
      refine .inr ⟨e, .inr rfl, ?_⟩
      rw [lineBreaks_append, dots, Nat.zero_add]
      exact Text.lineBreaks_dedent _

namespace Price

/-- A module with a component one of whose props has a validator of its own, written on three
lines. -/
def file : SourceFile where
  text := "class Price \x7b\n  render() \x7b\x7d\n  static propTypes = \x7b\n" ++
    "    amount: function (props) \x7b\n      return null;\n    \x7d,\n  \x7d;\n\x7d\n"
  module := ⟨[
    .stmt (.decl ⟨0, 114⟩ (.class "Price" (.mk none [
      .method false (.name "render") [],
      .field true (.name "propTypes") (some (.object ⟨49, 111⟩ [
        .pair 55 (.name "amount") (.function ⟨63, 106⟩ none
          [.return ⟨88, 100⟩ (some (.constant ⟨95, 99⟩))])]))])))]⟩
  comments := []

/-- The catalog of the module. -/
def catalog : Catalog where
  files := [⟨"Price.jsx", (Analysis.ofFile file []).records Facet.all⟩]
  failures := []

theorem singleLine : catalog.SingleLine where
  paths := by decide +kernel
  titles := by decide +kernel
  names := by decide +kernel

/-- The validator is quoted with its lines. -/
theorem types_eq :
    catalog.types = [.custom "function (props) \x7b\n  return null;\n\x7d"] := by
  -- The characters of the text are given, so that nothing has to be decoded.
  have quoted : file.quote ⟨63, 106⟩ = "function (props) \x7b\n  return null;\n\x7d" := by
    rw [SourceFile.quote_eq (ofList_append_eq rfl rfl)]
    decide +kernel
  exact quoted ▸ (rfl : catalog.types = [.custom (file.quote ⟨63, 106⟩)])

theorem displayBreaks_eq : displayBreaks catalog.types = 2 := by
  -- The text of the type has two line breaks.
  rw [types_eq]
  decide +kernel

end Price

theorem text_lines_iff_price :
    Price.catalog.SingleLine ∧
      (lineBreaks (Price.catalog.text false 1) = Price.catalog.lineTotal ↔
        ∀ type ∈ Price.catalog.types, lineBreaks type.display = 0) ∧
      lineBreaks (Price.catalog.text false 1) = Price.catalog.lineTotal + 2 := by
  -- The one type in the catalog adds two line breaks.
  obtain ⟨exact, total, -⟩ := text_lines_iff Price.singleLine 1
  exact ⟨Price.singleLine, exact, Price.displayBreaks_eq ▸ total⟩

/-- The line of a prop is broken by a validator that is written on several lines. -/
theorem text_lines_ne_price :
    Price.catalog.SingleLine ∧ Price.catalog.lineTotal = 5 ∧
      Price.catalog.types.map PropType.display =
        ["custom(function (props) \x7b\n  return null;\n\x7d)"] ∧
      lineBreaks (Price.catalog.text false 1) ≠ Price.catalog.lineTotal := by
  -- The lines of the validator come on top.
  refine ⟨Price.singleLine, by decide +kernel, by rw [Price.types_eq]; decide +kernel, ?_⟩
  rw [lineBreaks_text Price.singleLine, Price.displayBreaks_eq]
  omega

end Catalog

end PropCatalog
