import Blueprint.Proofs.Json.Reread
import Blueprint.Proofs.Registry.Lookup
import Blueprint.Resolved.Dump
import Blueprint.Resolved.Restore

/-!
# Workspaces that are written and read back

Every record of a workspace is read back from its object: each field under its own name, each
element as the sort that it says it is, maps and lists in their order. With the text of the object
read back too, a workspace is determined by the text that is written for it.
-/

namespace Blueprint

namespace OrderedMap

variable {κ ν : Type} [DecidableEq κ]

/-- Entries under new keys are written at the end. -/
theorem entries_insertAll (m : OrderedMap κ ν) (entries : List (κ × ν))
    (h : ((m.entries ++ entries).map Prod.fst).Nodup) :
    (m.insertAll entries).entries = m.entries ++ entries := by
  induction entries generalizing m with
  | nil => rw [List.append_nil]; rfl
  | cons entry entries ih =>
    have hfresh : m.get? entry.1 = none := by
      rw [get?_eq_none_iff]
      intro hm
      rw [List.map_append, List.map_cons] at h
      exact (List.nodup_append.mp h).2.2 _ hm _ List.mem_cons_self rfl
    have hentries : (m.insert entry.1 entry.2).entries = m.entries ++ [entry] :=
      entries_insert_of_fresh hfresh
    have hnodup : (((m.insert entry.1 entry.2).entries ++ entries).map Prod.fst).Nodup := by
      rw [hentries, List.append_assoc]
      exact h
    show ((m.insert entry.1 entry.2).insertAll entries).entries = _
    rw [ih _ hnodup, hentries, List.append_assoc]
    rfl

/-- Entries with distinct keys are those of a map. -/
theorem entries_ofList {entries : List (κ × ν)} (h : (entries.map Prod.fst).Nodup) :
    (ofList entries).entries = entries :=
  entries_insertAll .empty entries h

end OrderedMap

namespace Json

open Checked

variable {α β : Type}

/-! ## What is read without a fault -/

/-- A value that is read is changed. -/
@[simp] theorem map_valid (f : α → β) (value : α) :
    f <$> Checked.valid value = Checked.valid (f value) := rfl

/-- A function that is read is applied to a value that is read. -/
@[simp] theorem seq_valid (f : α → β) (value : α) :
    Checked.valid f <*> Checked.valid value = Checked.valid (f value) := rfl

/-- What needs no reading is read. -/
@[simp] theorem pure_valid (value : α) : (pure value : Checked α) = Checked.valid value := rfl

/-- What is read has no place. -/
@[simp] theorem under_valid (step : Step) (value : α) :
    (Checked.valid value).under step = Checked.valid value := rfl

/-- A text is read back. -/
@[simp] theorem readString_string (text : String) : readString (.string text) = .valid text := rfl

/-- A whole number is read back. -/
@[simp] theorem readInt_number (value : Int) : readInt (.number value) = .valid value := rfl

/-- A truth value is read back. -/
@[simp] theorem readBool_bool (holds : Bool) : readBool (.bool holds) = .valid holds := rfl

/-- A text or none is read back. -/
@[simp] theorem readNullable_ofText? (text : Option String) :
    readNullable readString (.ofText? text) = .valid text := by
  cases text <;> rfl

/-- A whole number or none is read back. -/
@[simp] theorem readNullable_ofInt? (value : Option Int) :
    readNullable readInt (.ofInt? value) = .valid value := by
  cases value <;> rfl

/-- A record or none is read back if records are, and none of them is written as `null`. -/
theorem readNullable_map {read : Json → Checked α} {write : α → Json}
    (h : ∀ value, read (write value) = .valid value) (hn : ∀ value, write value ≠ .null)
    (value : Option α) : readNullable read ((value.map write).getD .null) = .valid value := by
  cases value with
  | none => rfl
  | some value =>
    show readNullable read (write value) = _
    unfold readNullable
    split
    · rename_i he
      exact absurd he (hn value)
    · rw [h]
      rfl

/-- A list is read back item by item. -/
theorem readList_map {read : Json → Checked α} {write : α → Json}
    (h : ∀ value, read (write value) = .valid value) (values : List α) :
    readList read (.array (values.map write)) = .valid values := by
  have hitems : ∀ number, Checked.items read number (values.map write) = .valid values := by
    induction values with
    | nil => exact fun _ => rfl
    | cons value values ih =>
      intro number
      rw [List.map_cons, Checked.items, h, ih]
      rfl
  exact hitems 0

/-- A list of texts is read back. -/
@[simp] theorem readList_ofTexts (texts : List String) :
    readList readString (.ofTexts texts) = .valid texts :=
  readList_map readString_string texts

/-- Texts under keys are read back, in the order of the keys. -/
@[simp] theorem readMap_toJson (properties : Properties) :
    readMap readString properties.toJson = .valid properties := by
  have hentries : ∀ entries : List (String × String),
      Checked.entries readString (entries.map fun entry => (entry.1, .string entry.2)) =
        .valid entries := by
    intro entries
    induction entries with
    | nil => rfl
    | cons entry entries ih =>
      rw [List.map_cons, Checked.entries, ih]
      rfl
  have hkeys : ((properties.entries.map fun entry => (entry.1, Json.string entry.2)).map
      Prod.fst).Nodup := by
    rw [List.map_map]
    exact properties.keys_nodup
  unfold Properties.toJson readMap
  dsimp only
  rw [OrderedMap.entries_ofList hkeys, hentries]
  exact congrArg Checked.valid
    (OrderedMap.ext (OrderedMap.entries_ofList properties.keys_nodup))

end Json

namespace Resolved

open Json

/-! ## Records -/

section Records

attribute [local simp] readRecord required Json.optional textField? textField textsField mapField
member?

/-- An element is read back as what it is. -/
theorem Element.ofJson_toJson (element : Element) :
    Element.ofJson element.toJson = .valid element := by
  obtain ⟨id, name, description, tags, properties, perspectives, url, parent, sort⟩ := element
  cases sort <;>
    simp [Element.ofJson, Element.ofFields, ElementSort.ofJson, Element.toJson, ElementSort.tag,
      ElementSort.members, classOfTag?]

/-- A relationship is read back. -/
theorem Relationship.ofJson_toJson (relationship : Relationship) :
    Relationship.ofJson relationship.toJson = .valid relationship := by
  simp [Relationship.ofJson, Relationship.toJson]

/-- A model is read back. -/
@[simp] theorem Model.ofJson_toJson (model : Model) :
    Model.ofJson model.toJson = .valid model := by
  simp [Model.ofJson, Model.toJson, readList_map Element.ofJson_toJson,
    readList_map Relationship.ofJson_toJson]

/-- A request for automatic layout is read back. -/
theorem AutoLayout.ofJson_toJson (layout : AutoLayout) :
    AutoLayout.ofJson layout.toJson = .valid layout := by
  simp [AutoLayout.ofJson, AutoLayout.toJson]

/-- An interaction is read back. -/
theorem Interaction.ofJson_toJson (interaction : Interaction) :
    Interaction.ofJson interaction.toJson = .valid interaction := by
  simp [Interaction.ofJson, Interaction.toJson]

/-- A kind of views is read back. -/
@[simp] theorem ViewKind.ofJson_label (kind : ViewKind) :
    ViewKind.ofJson (.string kind.label) = .valid kind := by
  simp [ViewKind.ofJson, ViewKind.ofLabel?_label]

/-- A view is read back. -/
theorem View.ofJson_toJson (view : View) : View.ofJson view.toJson = .valid view := by
  have hlayout := readNullable_map AutoLayout.ofJson_toJson (fun _ => nofun) view.autoLayout
  simp [View.ofJson, View.toJson, hlayout, readList_map readList_ofTexts,
    readList_map Interaction.ofJson_toJson]

/-- A section is read back. -/
theorem Section.ofJson_toJson (part : Section) : Section.ofJson part.toJson = .valid part := by
  simp [Section.ofJson, Section.toJson]

/-- The documentation is read back. -/
theorem Documentation.ofJson_toJson (documentation : Documentation) :
    Documentation.ofJson documentation.toJson = .valid documentation := by
  simp [Documentation.ofJson, Documentation.toJson, readList_map Section.ofJson_toJson]

/-- A decision is read back. -/
theorem Decision.ofJson_toJson (decision : Decision) :
    Decision.ofJson decision.toJson = .valid decision := by
  simp [Decision.ofJson, Decision.toJson]

/-- A workspace is read back. -/
theorem Workspace.ofJson_toJson (workspace : Workspace) :
    Workspace.ofJson workspace.toJson = .valid workspace := by
  have hdocumentation :=
    readNullable_map Documentation.ofJson_toJson (fun _ => nofun) workspace.documentation
  simp [Workspace.ofJson, Workspace.toJson, hdocumentation, readList_map View.ofJson_toJson,
    readList_map Decision.ofJson_toJson]

end Records

/-! ## Numbers -/

section Numbers

attribute [local simp] isWhole areWhole haveWhole

/-- A list has whole numbers only if its items do. -/
theorem isWhole_array {α : Type} {write : α → Json} (h : ∀ value, (write value).isWhole = true)
    (values : List α) : (Json.array (values.map write)).isWhole = true := by
  induction values with
  | nil => rfl
  | cons value values ih =>
    have hitems : areWhole (values.map write) = true := ih
    simp [h value, hitems]

/-- A record or none has whole numbers only if records do. -/
theorem isWhole_getD {α : Type} {write : α → Json} (h : ∀ value, (write value).isWhole = true)
    (value : Option α) : ((value.map write).getD .null).isWhole = true := by
  cases value with
  | none => rfl
  | some value => exact h value

/-- A text or none has no numbers. -/
@[simp] theorem isWhole_ofText? (text : Option String) : (Json.ofText? text).isWhole = true := by
  cases text <;> rfl

/-- A whole number or none is whole. -/
@[simp] theorem isWhole_ofInt? (value : Option Int) : (Json.ofInt? value).isWhole = true := by
  cases value <;> rfl

/-- Texts have no numbers. -/
@[simp] theorem isWhole_ofTexts (texts : List String) : (Json.ofTexts texts).isWhole = true :=
  isWhole_array (fun _ => rfl) texts

/-- Texts under keys have no numbers. -/
@[simp] theorem isWhole_properties (properties : Properties) :
    properties.toJson.isWhole = true := by
  unfold Properties.toJson
  induction properties.entries with
  | nil => rfl
  | cons entry entries ih =>
    have hmembers : haveWhole (entries.map fun entry => (entry.1, .string entry.2)) = true := ih
    simp [hmembers]

/-- An element has no numbers. -/
theorem Element.isWhole_toJson (element : Element) : element.toJson.isWhole = true := by
  obtain ⟨id, name, description, tags, properties, perspectives, url, parent, sort⟩ := element
  cases sort <;> simp [Element.toJson, ElementSort.members]

/-- A relationship has no numbers. -/
theorem Relationship.isWhole_toJson (relationship : Relationship) :
    relationship.toJson.isWhole = true := by
  simp [Relationship.toJson]

/-- A model has no numbers. -/
theorem Model.isWhole_toJson (model : Model) : model.toJson.isWhole = true := by
  have helements := isWhole_array Element.isWhole_toJson model.elements
  have hrelationships := isWhole_array Relationship.isWhole_toJson model.relationships
  simp only [isWhole] at helements hrelationships
  simp [Model.toJson, helements, hrelationships]

/-- The numbers of a layout are whole. -/
theorem AutoLayout.isWhole_toJson (layout : AutoLayout) : layout.toJson.isWhole = true := by
  simp [AutoLayout.toJson]

/-- The number of an interaction is whole. -/
theorem Interaction.isWhole_toJson (interaction : Interaction) :
    interaction.toJson.isWhole = true := by
  simp [Interaction.toJson]

/-- The numbers of a view are whole. -/
theorem View.isWhole_toJson (view : View) : view.toJson.isWhole = true := by
  have hlayout := isWhole_getD AutoLayout.isWhole_toJson view.autoLayout
  have hanimations := isWhole_array isWhole_ofTexts view.animations
  have hinteractions := isWhole_array Interaction.isWhole_toJson view.interactions
  simp only [isWhole] at hanimations hinteractions
  simp [View.toJson, hlayout, hanimations, hinteractions]

/-- The number of a section is whole. -/
theorem Section.isWhole_toJson (part : Section) : part.toJson.isWhole = true := by
  simp [Section.toJson]

/-- The numbers of the documentation are whole. -/
theorem Documentation.isWhole_toJson (documentation : Documentation) :
    documentation.toJson.isWhole = true := by
  have hsections := isWhole_array Section.isWhole_toJson documentation.sections
  simp only [isWhole] at hsections
  simp [Documentation.toJson, hsections]

/-- A decision has no numbers. -/
theorem Decision.isWhole_toJson (decision : Decision) : decision.toJson.isWhole = true := by
  simp [Decision.toJson]

/-- The numbers of a workspace are whole. -/
theorem Workspace.isWhole_toJson (workspace : Workspace) : workspace.toJson.isWhole = true := by
  have hmodel := workspace.model.isWhole_toJson
  have hdocumentation := isWhole_getD Documentation.isWhole_toJson workspace.documentation
  have hviews := isWhole_array View.isWhole_toJson workspace.views
  have hdecisions := isWhole_array Decision.isWhole_toJson workspace.decisions
  simp only [isWhole] at hviews hdecisions
  simp [Workspace.toJson, hmodel, hdocumentation, hviews, hdecisions]

end Numbers

/-! ## Texts of workspaces -/

/-- A workspace is read back from the text that is written for it, with every element as what it is
and with all maps and lists in their order; so no two workspaces are written as one text. -/
theorem Workspace.restores_render (workspace : Workspace) :
    (Json.parse? workspace.toJson.render).map Workspace.ofJson = some (.valid workspace) ∧
      ∀ other : Workspace, workspace.toJson.render = other.toJson.render → workspace = other := by
  have hread : ∀ written : Workspace,
      (Json.parse? written.toJson.render).map Workspace.ofJson = some (.valid written) := by
    intro written
    rw [parse?_render written.isWhole_toJson, Option.map_some, Workspace.ofJson_toJson]
  refine ⟨hread workspace, fun other he => ?_⟩
  have hsame := hread workspace
  rw [he, hread other, Option.some.injEq, Checked.valid.injEq] at hsame
  exact hsame.symm

end Resolved

end Blueprint
