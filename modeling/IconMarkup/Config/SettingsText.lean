import IconMarkup.Config.Record
import IconMarkup.Config.Settings
import IconMarkup.Toml.Document

/-!
# Settings as text

The settings as a TOML text: the tables `icons`, `render` and `render.markdown` with the fields of
the settings. The tags in them are stripped and lower-cased once they are read.
-/

namespace IconMarkup.Config

open IconMarkup.Toml

/-- The fields of the classes of icon elements. -/
def classesFields : List (Field Icon.Classes) := [
  .of "class_prefix" (fun _ => readText) fun classes content =>
    { classes with classPrefix := content },
  .of "additional_classes" (fun _ => readTexts) fun classes content =>
    { classes with additional := content }]

/-- The fields of the Markdown extensions. -/
def markdownFields : List (Field Markdown.Options) := [
  .of "tables" (fun _ => readSwitch) fun options content => { options with tables := content },
  .of "footnotes" (fun _ => readSwitch) fun options content =>
    { options with footnotes := content },
  .of "strikethrough" (fun _ => readSwitch) fun options content =>
    { options with strikethrough := content },
  .of "task_lists" (fun _ => readSwitch) fun options content =>
    { options with taskLists := content },
  .of "heading_attributes" (fun _ => readSwitch) fun options content =>
    { options with headingAttributes := content }]

/-- The fields of the settings for documents. -/
def renderFields : List (Field RenderSettings) := [
  .of "skip_elements" (fun _ => readTexts) fun settings content =>
    { settings with skipElements := content },
  .of "markdown" (fun settings => readRecord markdownFields settings.markdown)
    fun settings content => { settings with markdown := content }]

/-- The fields of all settings. -/
def settingsFields : List (Field Settings) := [
  .of "icons" (fun settings => readRecord classesFields settings.icons)
    fun settings content => { settings with icons := content },
  .of "render" (fun settings => readRecord renderFields settings.render)
    fun settings content => { settings with render := content }]

namespace Settings

/-- The settings that a text gives, and the fields in it that are unknown, in order. -/
def ofText? (text : String) : Option (Settings × List FieldPath) := do
  let table ← Table.ofText? text
  let (settings, unknown) ← readEntries settingsFields [] {} table
  return ({ settings with render := settings.render.normalize }, unknown)

end Settings

end IconMarkup.Config
